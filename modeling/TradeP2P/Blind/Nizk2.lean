import TradeP2P.Blind.ProverCore

/-! The guest of the second proof. It recomputes everything from the private witness and commits a
verdict; a vector that is too short ends it before that. -/
namespace TradeP2P.Prover
open Wire (Bytes)
open Coefficients (valueAppend)

structure Nizk2Input where
  t : List UInt16
  b : List UInt16
  r : List Int32
  s0 : List Int32
  s1 : List Int32
  rho : Bytes
  mu : Bytes

structure Nizk2PublicOutput where
  t : List UInt16
  b : List UInt16
  rho : Bytes
  mu : Bytes
  valid : Bool

namespace Nizk2
variable (hashes : Hashes)

def main (draws : Nat) (input : Nizk2Input) : Option Nizk2PublicOutput := do
  let rhoMatches := (gOfR hashes input.r).toList == input.rho
  let bounded := rInBounds input.r
  let br ← polyMulModQKaratsuba (ofU16 input.b) (ofI32 input.r)
  let hDigest := hOfRhoMu hashes input.rho input.mu
  let hashTerm ← hashToPoint hashes draws hDigest
  let c ← addModQ br hashTerm
  let relationOk ← relationHolds (ofU16 input.t) (ofI32 input.s0) (ofI32 input.s1) c
  let normSq ← normSquared (ofI32 input.s0) (ofI32 input.s1)
  let shortEnough := decide (normSq.toInt ≤ normBoundSquared)
  return ⟨input.t, input.b, input.rho, input.mu, rhoMatches && bounded && relationOk && shortEnough⟩

def Commits (input : Nizk2Input) (out : Nizk2PublicOutput) : Prop := ∃ draws, main hashes draws input = some out

/- The statement, over the integers and the ring, about every coefficient there is. -/
structure Statement (input : Nizk2Input) : Prop where
  width : input.r.length = n
  bounded : ∀ x ∈ input.r, -2 ≤ x.toInt ∧ x.toInt ≤ 2
  rho : (gOfR hashes input.r).toList = input.rho
  relation : ∃ h, HashesTo hashes (hOfRhoMu hashes input.rho input.mu) h ∧
    residue (ofU16 input.t) * residue (ofI32 input.s0) + residue (ofI32 input.s1) =
      residue (ofU16 input.b) * residue (ofI32 input.r) + residue h
  short : squares (ofI32 input.s0) + squares (ofI32 input.s1) ≤ normBoundSquared

def Sound (input : Nizk2Input) : Prop :=
  ∀ out, Commits hashes input out → out.valid = true → out.t.length = n → out.b.length = n → Statement hashes input

/-! What the guest looks at: the first coefficients of each vector, and a norm that wraps. -/

def tail (s : List Int32) : List Int64 := (ofI32 s).drop n

structure Checked (input : Nizk2Input) : Prop where
  widthT : input.t.length = n
  widthB : input.b.length = n
  enoughR : n ≤ input.r.length
  enough0 : n ≤ input.s0.length
  enough1 : n ≤ input.s1.length
  bounded : ∀ x ∈ input.r, -2 ≤ x.toInt ∧ x.toInt ≤ 2
  rho : (gOfR hashes input.r).toList = input.rho
  relation : ∃ h, HashesTo hashes (hOfRhoMu hashes input.rho input.mu) h ∧
    residue (ofU16 input.t) * residue (front input.s0) + residue (front input.s1) =
      residue (ofU16 input.b) * residue (front input.r) + residue h
  short : (squares (front input.s0) + squares (front input.s1)).bmod (2 ^ 64) ≤ normBoundSquared

/- Nothing the guest passes over matters. -/
structure Whole (input : Nizk2Input) : Prop where
  width : input.r.length = n
  unwrapped : squares (front input.s0) + squares (front input.s1) < 2 ^ 63
  cancels : residue (ofU16 input.t) * residue (tail input.s0) + residue (tail input.s1) = 0
  fits : squares (tail input.s0) + squares (tail input.s1) ≤
    normBoundSquared - (squares (front input.s0) + squares (front input.s1))

variable {hashes}

theorem acceptedChecked {input : Nizk2Input} {out : Nizk2PublicOutput} (commits : Commits hashes input out) (valid : out.valid = true)
    (widthT : out.t.length = n) (widthB : out.b.length = n) : Checked hashes input := by
  obtain ⟨draws, ran⟩ := commits
  simp only [main, Option.bind_eq_bind, Option.bind_eq_some_iff, Option.pure_def, Option.some.injEq] at ran
  obtain ⟨br, product, h, hashed, c, added, relationOk, related, normSq, summed, rfl⟩ := ran
  have enoughR : n ≤ input.r.length := by
    by_contra short
    rw [polyMulShort (by simpa [ofU16] using widthB) (by simpa [ofI32] using short)] at product
    cases product
  have enough : n ≤ input.s0.length ∧ n ≤ input.s1.length := by
    by_contra short
    rw [relationShort (by simpa [ofU16] using widthT) (by simp only [ofI32, List.length_map]; omega)] at related
    cases related
  obtain ⟨br', c', product', added', canonicalC, target⟩ := targetMeaning widthB enoughR (hashToPointCanonical hashed)
  rw [product] at product'
  cases product'
  rw [added] at added'
  cases added'
  obtain ⟨verdict, related', meaning⟩ := relationMeaning (ofI32 input.s0) (ofI32 input.s1) (t := ofU16 input.t)
    (by simpa [ofU16] using widthT) (u16Within _) (i32Within _) (i32Within _) (by simpa [ofI32] using enough.1)
    (by simpa [ofI32] using enough.2) canonicalC
  rw [related] at related'
  cases related'
  obtain ⟨sum, summed', wrapped⟩ := normMeaning (ofI32 input.s0) (ofI32 input.s1) (by simpa [ofI32] using enough.1)
    (by simpa [ofI32] using enough.2)
  rw [summed] at summed'
  cases summed'
  simp only [Bool.and_eq_true, beq_iff_eq, decide_eq_true_eq] at valid
  obtain ⟨⟨⟨rho, bounded⟩, relationOk⟩, short⟩ := valid
  exact ⟨widthT, widthB, enoughR, enough.1, enough.2, (boundedMeaning _).mp bounded, rho,
    ⟨h, ⟨draws, hashed⟩, (meaning.mp relationOk).trans target⟩, by rw [← front, ← front] at wrapped; rw [← wrapped]; exact short⟩

theorem checkedAccepted {input : Nizk2Input} (checked : Checked hashes input) :
    ∃ out, Commits hashes input out ∧ out.valid = true ∧ out.t = input.t ∧ out.b = input.b := by
  obtain ⟨h, ⟨draws, hashed⟩, relation⟩ := checked.relation
  obtain ⟨br, c, product, added, canonicalC, target⟩ := targetMeaning checked.widthB checked.enoughR (hashToPointCanonical hashed)
  obtain ⟨verdict, related, meaning⟩ := relationMeaning (ofI32 input.s0) (ofI32 input.s1) (t := ofU16 input.t)
    (by simpa [ofU16] using checked.widthT) (u16Within _) (i32Within _) (i32Within _) (by simpa [ofI32] using checked.enough0)
    (by simpa [ofI32] using checked.enough1) canonicalC
  obtain ⟨sum, summed, wrapped⟩ := normMeaning (ofI32 input.s0) (ofI32 input.s1)
    (by simpa [ofI32] using checked.enough0) (by simpa [ofI32] using checked.enough1)
  have holds : verdict = true := meaning.mpr (relation.trans target.symm)
  have short : sum.toInt ≤ normBoundSquared := by rw [wrapped]; exact checked.short
  refine ⟨⟨input.t, input.b, input.rho, input.mu, true⟩, ⟨draws, ?_⟩, rfl, rfl, rfl⟩
  simp only [main, product, hashed, added, related, summed, holds, checked.rho, (boundedMeaning _).mpr checked.bounded, short,
    Option.bind_eq_bind, Option.bind_some, beq_self_eq_true, decide_true, Bool.and_self]
  rfl

/- Past the last power the ring turns back with a minus sign. -/
theorem residueSplit {s : List Int32} (enough : n ≤ s.length) : residue (ofI32 s) = residue (front s) - residue (tail s) := by
  have split := valueAppend (AdjoinRoot.root (Polynomial.X ^ n + 1 : Polynomial (ZMod 7933)))
    (((front s).map fun x => (x.toInt : ZMod 7933)).map (AdjoinRoot.of _)) (((tail s).map fun x => (x.toInt : ZMod 7933)).map (AdjoinRoot.of _))
  have width : (front s).length = n := by rw [front, List.length_take, ofI32, List.length_map]; omega
  rw [← List.map_append, ← List.map_append, front, tail, List.take_append_drop, ← front, List.length_map, List.length_map, width,
    Coefficients.rootPow, neg_one_mul, ← sub_eq_add_neg] at split
  exact split

theorem squaresSplit (s : List Int32) : squares (ofI32 s) = squares (front s) + squares (tail s) := by
  rw [squares, ← List.take_append_drop n (ofI32 s), List.map_append, List.sum_append]
  rfl

/- Of an input the guest accepts, the statement holds exactly where nothing was passed over. -/
theorem statementIff {input : Nizk2Input} (checked : Checked hashes input) : Statement hashes input ↔ Whole input := by
  obtain ⟨h, hashed, relation⟩ := checked.relation
  have split0 := residueSplit checked.enough0
  have split1 := residueSplit checked.enough1
  have positive := squaresNonneg (tail input.s0)
  have positive' := squaresNonneg (tail input.s1)
  constructor
  · intro holds
    obtain ⟨h', hashed', whole⟩ := holds.relation
    cases hashesToUnique hashed hashed'
    have short := holds.short
    rw [squaresSplit, squaresSplit] at short
    rw [frontWhole holds.width] at relation
    have below : squares (front input.s0) + squares (front input.s1) ≤ normBoundSquared := by omega
    refine ⟨holds.width, below.trans_lt (by decide), ?_, by omega⟩
    rw [split0, split1, ← relation] at whole
    linear_combination -whole
  · intro whole
    have positive0 := squaresNonneg (front input.s0)
    have positive1 := squaresNonneg (front input.s1)
    have short := checked.short
    rw [Int.bmod_eq_of_le (by omega) (by have := whole.unwrapped; omega)] at short
    refine ⟨whole.width, checked.bounded, checked.rho, ⟨h, hashed, ?_⟩, ?_⟩
    · rw [frontWhole whole.width] at relation
      rw [split0, split1, ← relation]
      linear_combination -whole.cancels
    · have fits := whole.fits
      rw [squaresSplit, squaresSplit]
      omega

theorem soundExactlyWhole (hashes : Hashes) (input : Nizk2Input) : Sound hashes input ↔ (Checked hashes input → Whole input) := by
  constructor
  · intro sound checked
    obtain ⟨out, commits, valid, sameT, sameB⟩ := checkedAccepted checked
    exact (statementIff checked).mp (sound out commits valid (by rw [sameT]; exact checked.widthT) (by rw [sameB]; exact checked.widthB))
  · intro whole out commits valid widthT widthB
    have checked := acceptedChecked commits valid widthT widthB
    exact (statementIff checked).mpr (whole checked)

/-! Three coefficients near the end of their range make the sum negative, which is short enough. The
key here makes the rest of the relation trivial; a relation modulo `q` has such a solution for any key. -/

def hugeCoefficient : Int32 := 2147478966

def unitVector : List Int32 := 1 :: List.replicate (n - 1) 0
def hugeVector : List Int32 := [hugeCoefficient, hugeCoefficient, hugeCoefficient] ++ List.replicate (n - 3) 0
def noVector : List Int32 := List.replicate n 0

def wrappedInput (hashes : Hashes) (point : List Int64) : Nizk2Input where
  t := toU16 point
  b := List.replicate n 0
  r := noVector
  s0 := unitVector
  s1 := hugeVector
  rho := (gOfR hashes noVector).toList
  mu := []

theorem hugeNorms : (squares (front unitVector) + squares (front hugeVector)).bmod (2 ^ 64) ≤ normBoundSquared ∧
    ¬ squares (ofI32 unitVector) + squares (ofI32 hugeVector) ≤ normBoundSquared ∧ unitVector.length = n ∧ hugeVector.length = n := by
  decide +kernel

theorem noVectorBounded : ∀ x ∈ noVector, -2 ≤ x.toInt ∧ x.toInt ≤ 2 := by
  intro x mem
  obtain rfl := List.eq_of_mem_replicate mem
  decide

theorem residueCons (c : Int64) (rest : List Int64) :
    residue (c :: rest) = AdjoinRoot.of _ (c.toInt : ZMod 7933) + AdjoinRoot.root _ * residue rest := rfl

theorem unitResidue : residue (ofI32 unitVector) = 1 := by
  have split : ofI32 unitVector = 1 :: List.replicate (n - 1) 0 := by simp [ofI32, unitVector]
  rw [split, residueCons, zerosResidue, mul_zero, add_zero]
  simp

theorem hugeResidue : residue (ofI32 hugeVector) = 0 := by
  have split : ofI32 hugeVector = 2147478966 :: 2147478966 :: 2147478966 :: List.replicate (n - 3) 0 := by
    simp [ofI32, hugeVector, hugeCoefficient]
  have multiple : (((2147478966 : Int64).toInt : Int) : ZMod 7933) = 0 := (ZMod.intCast_zmod_eq_zero_iff_dvd _ _).mpr (by decide)
  rw [split, residueCons, residueCons, residueCons, zerosResidue, multiple, map_zero, mul_zero, add_zero, mul_zero, add_zero,
    mul_zero, add_zero]

theorem wrappedChecked {point : List Int64} (hashed : HashesTo hashes (hOfRhoMu hashes (gOfR hashes noVector).toList []) point) :
    Checked hashes (wrappedInput hashes point) := by
  obtain ⟨draws, drawn⟩ := hashed
  have canonical := hashToPointCanonical drawn
  refine ⟨toU16Width canonical, by simp [wrappedInput], by simp [wrappedInput, noVector],
    hugeNorms.2.2.1.ge, hugeNorms.2.2.2.ge, noVectorBounded, rfl, ⟨point, ⟨draws, drawn⟩, ?_⟩, hugeNorms.1⟩
  change residue (ofU16 (toU16 point)) * residue (front unitVector) + residue (front hugeVector) =
    residue (ofU16 (List.replicate n 0)) * residue (front noVector) + residue point
  rw [noU16Residue, frontWhole hugeNorms.2.2.1, frontWhole hugeNorms.2.2.2, unitResidue, hugeResidue, canonicalBack canonical]
  ring

theorem wrappedForged {point : List Int64} (hashed : HashesTo hashes (hOfRhoMu hashes (gOfR hashes noVector).toList []) point) :
    ¬ Sound hashes (wrappedInput hashes point) := by
  intro sound
  obtain ⟨out, commits, valid, sameT, sameB⟩ := checkedAccepted (wrappedChecked hashed)
  have statement := sound out commits valid (by rw [sameT]; exact (wrappedChecked hashed).widthT)
    (by rw [sameB]; exact (wrappedChecked hashed).widthB)
  exact hugeNorms.2.1 statement.short

/- The point that an all-zero blinding of the empty message hashes to. -/
def zeroDigest : Vector UInt8 32 := hOfRhoMu standardHashes (gOfR standardHashes noVector).toList []
def zeroPoint : List Int64 := (hashToPoint standardHashes 900 zeroDigest).getD []

theorem zeroDigestIs : zeroDigest.toList = [102, 22, 111, 251, 174, 206, 195, 238, 134, 53, 215, 204, 202, 242, 60, 244, 50, 242, 3, 55,
    217, 223, 14, 163, 19, 90, 2, 182, 159, 230, 161, 225] := by
  decide +kernel

theorem zeroPointDrawn : (hashToPoint standardHashes 900 zeroDigest).isSome = true := by
  rw [hashToPoint, zeroDigestIs]
  decide +kernel

theorem zeroPointHashed : HashesTo standardHashes zeroDigest zeroPoint := ⟨900, someGetD zeroPointDrawn []⟩

theorem wrappedNormForges : ¬ Sound standardHashes (wrappedInput standardHashes zeroPoint) := wrappedForged zeroPointHashed

end Nizk2
end TradeP2P.Prover
