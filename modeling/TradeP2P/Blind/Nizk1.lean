import TradeP2P.Blind.ProverCore

/-! The guest of the first proof: a blinded target, and four ciphertexts of what it hides. The signer
compares what the guest committed with the vectors it was sent. -/
namespace TradeP2P.Prover
open Wire (Bytes)

structure Nizk1Input where
  b : List UInt16
  c : List UInt16
  encA : List UInt16
  encPk : List UInt16
  ct1R : List UInt16
  ct2R : List UInt16
  ct1Mu : List UInt16
  ct2Mu : List UInt16
  r : List Int32
  mu : Bytes
  coins : Bytes

structure Nizk1PublicOutput where
  b : List UInt16
  c : List UInt16
  encA : List UInt16
  encPk : List UInt16
  ct1R : List UInt16
  ct2R : List UInt16
  ct1Mu : List UInt16
  ct2Mu : List UInt16
  valid : Bool

namespace Nizk1
variable (hashes : Hashes)

def claimed (input : Nizk1Input) : Ciphertexts :=
  ⟨ofU16 input.ct1R, ofU16 input.ct2R, ofU16 input.ct1Mu, ofU16 input.ct2Mu⟩

def committed (input : Nizk1Input) (valid : Bool) : Nizk1PublicOutput :=
  ⟨input.b, input.c, input.encA, input.encPk, input.ct1R, input.ct2R, input.ct1Mu, input.ct2Mu, valid⟩

-- The comparison stops with the shorter of the two lists.
def main (draws : Nat) (input : Nizk1Input) : Option Nizk1PublicOutput := do
  let bounded := rInBounds input.r
  let br ← polyMulModQKaratsuba (ofU16 input.b) (ofI32 input.r)
  let rho := gOfR hashes input.r
  let hDigest := hOfRhoMu hashes rho.toList input.mu
  let hashTerm ← hashToPoint hashes draws hDigest
  let cCheck ← addModQ br hashTerm
  let cMatches := (List.zipWith (· == ·) cCheck (ofU16 input.c)).all id
  let encryptionMatches ← checkEncryption hashes input.coins (ofI32 input.r) input.mu (ofU16 input.encA) (ofU16 input.encPk) (claimed input)
  return committed input (bounded && cMatches && encryptionMatches)

def Commits (input : Nizk1Input) (out : Nizk1PublicOutput) : Prop := ∃ draws, main hashes draws input = some out

/- What the comparison with the submitted vectors leaves possible. -/
structure PublicWidths (out : Nizk1PublicOutput) : Prop where
  b : out.b.length = n
  c : out.c.length = n
  encA : out.encA.length = n
  encPk : out.encPk.length = n
  ct1R : out.ct1R.length = n
  ct2R : out.ct2R.length = n
  ct1Mu : out.ct1Mu.length = n
  ct2Mu : out.ct2Mu.length = n

structure Statement (input : Nizk1Input) : Prop where
  width : input.r.length = n
  bounded : ∀ x ∈ input.r, -2 ≤ x.toInt ∧ x.toInt ≤ 2
  canonical : Canonical (ofU16 input.c)
  relation : ∃ h, HashesTo hashes (hOfRhoMu hashes (gOfR hashes input.r).toList input.mu) h ∧
    residue (ofU16 input.c) = residue (ofU16 input.b) * residue (ofI32 input.r) + residue h
  encrypts : Encrypts hashes input.coins (ofI32 input.r) input.mu (ofU16 input.encA) (ofU16 input.encPk) (claimed input)

def Sound (input : Nizk1Input) : Prop :=
  ∀ out, Commits hashes input out → out.valid = true → PublicWidths out → Statement hashes input

/- The multiplication and the encryption take the first coefficients; the hash of `r` takes them all. -/
structure Checked (input : Nizk1Input) : Prop where
  widths : PublicWidths (committed input true)
  enough : n ≤ input.r.length
  bounded : ∀ x ∈ input.r, -2 ≤ x.toInt ∧ x.toInt ≤ 2
  canonical : Canonical (ofU16 input.c)
  relation : ∃ h, HashesTo hashes (hOfRhoMu hashes (gOfR hashes input.r).toList input.mu) h ∧
    residue (ofU16 input.c) = residue (ofU16 input.b) * residue (front input.r) + residue h
  encrypts : Encrypts hashes input.coins (front input.r) input.mu (ofU16 input.encA) (ofU16 input.encPk) (claimed input)

variable {hashes}

theorem committedWidths {input : Nizk1Input} (valid valid' : Bool) (widths : PublicWidths (committed input valid)) :
    PublicWidths (committed input valid') :=
  ⟨widths.b, widths.c, widths.encA, widths.encPk, widths.ct1R, widths.ct2R, widths.ct1Mu, widths.ct2Mu⟩

theorem ofU16Width {v : List UInt16} (width : v.length = n) : (ofU16 v).length = n := by simpa [ofU16] using width

theorem allEqual {a b : List Int64} (width : a.length = b.length) : (List.zipWith (· == ·) a b).all id = true ↔ b = a := by
  induction a generalizing b with
  | nil =>
      obtain rfl := List.eq_nil_of_length_eq_zero width.symm
      simp
  | cons x rest ih =>
      cases b with
      | nil => simp at width
      | cons y more =>
          rw [List.zipWith_cons_cons, List.all_cons, Bool.and_eq_true, ih (by simpa using width), id, beq_iff_eq, List.cons.injEq]
          exact and_congr_left' eq_comm

theorem matchesMeaning {computed : List Int64} {c : List UInt16} (canonical : Canonical computed) (width : c.length = n) :
    (List.zipWith (· == ·) computed (ofU16 c)).all id = true ↔ ofU16 c = computed :=
  allEqual (canonical.width.trans (ofU16Width width).symm)

theorem encryptionChecked (hashes : Hashes) {input : Nizk1Input} (widths : PublicWidths (committed input true)) (enough : n ≤ input.r.length) :
    ∃ verdict, checkEncryption hashes input.coins (ofI32 input.r) input.mu (ofU16 input.encA) (ofU16 input.encPk) (claimed input) =
        some verdict ∧ (verdict = true ↔ Encrypts hashes input.coins (front input.r) input.mu (ofU16 input.encA) (ofU16 input.encPk)
          (claimed input)) :=
  encryptionMeaning hashes input.coins input.mu (by simpa [ofI32] using enough) (i32Within _) (ofU16Width widths.encA) (u16Within _)
    (ofU16Width widths.encPk) (u16Within _) (ofU16Width widths.ct1R) (ofU16Width widths.ct2R) (ofU16Width widths.ct1Mu)
    (ofU16Width widths.ct2Mu)

theorem acceptedChecked {input : Nizk1Input} {out : Nizk1PublicOutput} (commits : Commits hashes input out) (valid : out.valid = true)
    (widths : PublicWidths out) : Checked hashes input := by
  obtain ⟨draws, ran⟩ := commits
  simp only [main, Option.bind_eq_bind, Option.bind_eq_some_iff, Option.pure_def, Option.some.injEq] at ran
  obtain ⟨br, product, h, hashed, cCheck, added, encryptionMatches, checked, rfl⟩ := ran
  have widths' := committedWidths _ true widths
  have enough : n ≤ input.r.length := by
    by_contra short
    rw [polyMulShort (a := ofU16 input.b) (ofU16Width widths'.b) (by simpa [ofI32] using short)] at product
    cases product
  obtain ⟨br', c', product', added', canonicalC, target⟩ := targetMeaning (b := input.b) widths'.b enough (hashToPointCanonical hashed)
  rw [product] at product'
  cases product'
  rw [added] at added'
  cases added'
  obtain ⟨verdict, checked', meaning⟩ := encryptionChecked hashes widths' enough
  rw [checked] at checked'
  cases checked'
  simp only [committed, Bool.and_eq_true] at valid
  obtain ⟨⟨bounded, cMatches⟩, encryptionMatches⟩ := valid
  have same := (matchesMeaning (c := input.c) canonicalC widths'.c).mp cMatches
  exact ⟨widths', enough, (boundedMeaning _).mp bounded, by rw [same]; exact canonicalC,
    ⟨h, ⟨draws, hashed⟩, by rw [same]; exact target⟩, meaning.mp encryptionMatches⟩

theorem checkedAccepted {input : Nizk1Input} (checked : Checked hashes input) : Commits hashes input (committed input true) := by
  obtain ⟨h, ⟨draws, hashed⟩, relation⟩ := checked.relation
  obtain ⟨br, c, product, added, canonicalC, target⟩ := targetMeaning (b := input.b) checked.widths.b checked.enough (hashToPointCanonical hashed)
  obtain ⟨verdict, encrypted, meaning⟩ := encryptionChecked hashes checked.widths checked.enough
  have holds : verdict = true := meaning.mpr checked.encrypts
  have cMatches := (matchesMeaning (c := input.c) canonicalC checked.widths.c).mpr (canonicalInj checked.canonical canonicalC (relation.trans target.symm))
  refine ⟨draws, ?_⟩
  simp only [main, product, hashed, added, cMatches, encrypted, holds, (boundedMeaning _).mpr checked.bounded, Option.bind_eq_bind,
    Option.bind_some, Bool.and_self]
  rfl

theorem soundExactlyFull (hashes : Hashes) (input : Nizk1Input) : Sound hashes input ↔ (Checked hashes input → input.r.length = n) := by
  constructor
  · intro sound checked
    exact (sound _ (checkedAccepted checked) rfl checked.widths).width
  · intro width out commits valid widths
    have checked := acceptedChecked commits valid widths
    have whole := frontWhole (width checked)
    have relation := checked.relation
    have encrypts := checked.encrypts
    rw [whole] at relation encrypts
    exact ⟨width checked, checked.bounded, checked.canonical, relation, encrypts⟩

/-! One coefficient more than the ring has: it changes the hash, and nothing else looks at it. -/

def longVector : List Int32 := List.replicate (n + 1) 0

def longInput (point : List Int64) (ct : Ciphertexts) : Nizk1Input where
  b := List.replicate n 0
  c := toU16 point
  encA := List.replicate n 0
  encPk := List.replicate n 0
  ct1R := toU16 ct.ct1R
  ct2R := toU16 ct.ct2R
  ct1Mu := toU16 ct.ct1Mu
  ct2Mu := toU16 ct.ct2Mu
  r := longVector
  mu := []
  coins := []

def longCiphertexts (hashes : Hashes) : Option Ciphertexts :=
  generateCiphertexts hashes [] (ofI32 longVector) [] (ofU16 (List.replicate n 0)) (ofU16 (List.replicate n 0))

theorem longMade (hashes : Hashes) : ∃ ct, longCiphertexts hashes = some ct ∧ ct.Canonical ∧
    Encrypts hashes [] (front longVector) [] (ofU16 (List.replicate n 0)) (ofU16 (List.replicate n 0)) ct :=
  generateMeaning hashes [] [] (by simp [ofI32, longVector]) (i32Within _) (ofU16Width (by simp)) (u16Within _) (ofU16Width (by simp))
    (u16Within _)

theorem longForged {point : List Int64} {ct : Ciphertexts} (made : longCiphertexts hashes = some ct)
    (hashed : HashesTo hashes (hOfRhoMu hashes (gOfR hashes longVector).toList []) point) : ¬ Sound hashes (longInput point ct) := by
  obtain ⟨ct', made', canonical, encrypts⟩ := longMade hashes
  rw [made] at made'
  cases made'
  obtain ⟨draws, drawn⟩ := hashed
  have canonicalPoint := hashToPointCanonical drawn
  have back : claimed (longInput point ct) = ct := by
    simp only [claimed, longInput, canonicalBack canonical.first, canonicalBack canonical.second, canonicalBack canonical.firstMu,
      canonicalBack canonical.secondMu]
  have checked : Checked hashes (longInput point ct) := {
    widths := ⟨List.length_replicate, toU16Width canonicalPoint, List.length_replicate, List.length_replicate, toU16Width canonical.first,
      toU16Width canonical.second, toU16Width canonical.firstMu, toU16Width canonical.secondMu⟩
    enough := by simp [longInput, longVector]
    bounded := by
      intro x mem
      obtain rfl := List.eq_of_mem_replicate mem
      decide
    canonical := by
      change Canonical (ofU16 (toU16 point))
      rw [canonicalBack canonicalPoint]
      exact canonicalPoint
    relation := by
      refine ⟨point, ⟨draws, drawn⟩, ?_⟩
      change residue (ofU16 (toU16 point)) = residue (ofU16 (List.replicate n 0)) * residue (front longVector) + residue point
      rw [canonicalBack canonicalPoint, noU16Residue, zero_mul, zero_add]
    encrypts := by
      rw [back]
      exact encrypts }
  intro sound
  have width : longVector.length = n := (sound _ (checkedAccepted checked) rfl checked.widths).width
  rw [longVector, List.length_replicate] at width
  omega

def longDigest : Vector UInt8 32 := hOfRhoMu standardHashes (gOfR standardHashes longVector).toList []
def longPoint : List Int64 := (hashToPoint standardHashes 900 longDigest).getD []

theorem longDigestIs : longDigest.toList = [34, 230, 110, 194, 208, 90, 75, 74, 180, 160, 69, 76, 152, 216, 63, 253, 2, 89, 39, 168, 20,
    58, 45, 129, 134, 125, 22, 79, 213, 105, 186, 110] := by
  decide +kernel

theorem longPointDrawn : (hashToPoint standardHashes 900 longDigest).isSome = true := by
  rw [hashToPoint, longDigestIs]
  decide +kernel

theorem longWitnessPasses :
    ¬ Sound standardHashes (longInput longPoint ((longCiphertexts standardHashes).getD ⟨[], [], [], []⟩)) := by
  obtain ⟨ct, made, _, _⟩ := longMade standardHashes
  rw [made]
  exact longForged made ⟨900, someGetD longPointDrawn []⟩

end Nizk1
end TradeP2P.Prover
