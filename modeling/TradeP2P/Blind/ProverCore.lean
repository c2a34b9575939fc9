import TradeP2P.Blind.PolyMul
import TradeP2P.Lib.Sha256
import TradeP2P.Lib.Shake256

/-! What the client, the signer's sidecar and the guests all compute with: hashing to the ring, the
signature relation and the encryption to the sky. Indexing past the end of a vector is a panic. -/
namespace TradeP2P.Prover
open Wire (Bytes ascii)

/- The extendable output is asked for by length, and a longer answer starts with the shorter one. -/
structure Hashes where
  sha256 : Bytes → Vector UInt8 32
  shake256 : Bytes → Nat → Bytes
  outputLength : ∀ seed count, (shake256 seed count).length = count
  outputExtends : ∀ seed fewer more, fewer ≤ more → (shake256 seed more).take fewer = shake256 seed fewer

def standardHashes : Hashes where
  sha256 m := ⟨(Sha256.digest m).toArray, by simp [Sha256.digestLength]⟩
  shake256 := Shake256.output
  outputLength := Shake256.outputLength
  outputExtends seed _ _ le := Shake256.outputExtends seed le

variable (hashes : Hashes)

def normBoundSquared : Int := 110231552

def addModQ (a b : List Int64) : Option (List Int64) :=
  if a.length < n ∨ b.length < n then none
  else some ((List.range n).map fun i => remEuclid (a.getD i 0 + b.getD i 0))

def gOfR (r : List Int32) : Vector UInt8 32 :=
  hashes.sha256 (r.flatMap fun ri =>
    let v : UInt16 := (ri + 2).toUInt32.toUInt16
    [(v &&& 0xff).toUInt8, (v >>> 8).toUInt8])

def hOfRhoMu (rho mu : Bytes) : Vector UInt8 32 := hashes.sha256 (rho ++ mu)

/- Words are drawn until enough of them lie under the limit; what has been read so far may not hold them. -/
def rejectionSample (word : UInt8 → UInt8 → Nat) (limit : Nat) : Nat → Bytes → Option (List Int64)
  | 0, _ => some []
  | missing+1, first :: second :: rest =>
      let w := word first second
      if w < limit then (rejectionSample word limit missing rest).map (Int64.ofInt (w % q) :: ·)
      else rejectionSample word limit (missing + 1) rest
  | _, _ => none

def hashToPoint (draws : Nat) (digest : Vector UInt8 32) : Option (List Int64) :=
  rejectionSample (fun high low => high.toNat <<< 8 ||| low.toNat) (5 * 7933) n (hashes.shake256 digest.toList (2 * draws))

def rInBounds (r : List Int32) : Bool := r.all fun x => -2 ≤ x && x ≤ 2

/-! The signature relation. -/

def relationHolds (t s0 s1 c : List Int64) : Option Bool := do
  let tS0 ← polyMulModQKaratsuba t s0
  let lhs ← addModQ tS0 s1
  return (List.range n).all fun i => lhs.getD i 0 == c.getD i 0

def normSquared (s0 s1 : List Int64) : Option Int64 :=
  if s0.length < n ∨ s1.length < n then none
  else some ((List.range n).foldl (fun sum i => sum + s0.getD i 0 * s0.getD i 0 + s1.getD i 0 * s1.getD i 0) 0)

/-! Encryption to the sky. -/

def boundedPolyFromSeed (seed label : Bytes) (bound : Nat) : List Int64 :=
  (hashes.shake256 (hashes.sha256 (seed ++ label)).toList n).map fun b => Int64.ofInt (b.toNat % (2 * bound + 1) - bound)

def shortPolyFromSeed (seed label : Bytes) : List Int64 := boundedPolyFromSeed hashes seed label 2

def encryptionNoiseBound : Nat := 8

def encryptionNoiseFromSeed (seed label : Bytes) : List Int64 := boundedPolyFromSeed hashes seed label encryptionNoiseBound

def uniformPolyFromSeed (draws : Nat) (seed label : Bytes) : Option (List Int64) :=
  rejectionSample (fun low high => low.toNat ||| high.toNat <<< 8) (65536 / 7933 * 7933) n
    (hashes.shake256 (hashes.sha256 (seed ++ label)).toList (2 * draws))

def mulAdd (a u noise : List Int64) : Option (List Int64) := do
  let product ← polyMulModQKaratsuba a u
  return (List.range n).map fun i => product.getD i 0 + noise.getD i 0

-- Only the first 256 coefficients carry a bit.
def muToBits (mu : Bytes) : List Int64 :=
  let muDigest := (hashes.sha256 mu).toList
  (List.range n).map fun i => if i < 256 then Int64.ofInt (((muDigest.getD (i / 8) 0).toNat >>> (i % 8)) % 2) else 0

structure Ciphertexts where
  ct1R : List Int64
  ct2R : List Int64
  ct1Mu : List Int64
  ct2Mu : List Int64
  deriving DecidableEq

def secondHalf (pkU noise message : List Int64) : Option (List Int64) :=
  if message.length < n then none
  else some ((List.range n).map fun i => pkU.getD i 0 + noise.getD i 0 + message.getD i 0)

def generateCiphertexts (coins : Bytes) (r : List Int64) (mu : Bytes) (a pk : List Int64) : Option Ciphertexts := do
  let uR := encryptionNoiseFromSeed hashes coins (ascii "u_r")
  let ct1R ← mulAdd a uR (encryptionNoiseFromSeed hashes coins (ascii "e1_r"))
  let pkuR ← polyMulModQKaratsuba pk uR
  let ct2R ← secondHalf pkuR (encryptionNoiseFromSeed hashes coins (ascii "e2_r")) r
  let uMu := encryptionNoiseFromSeed hashes coins (ascii "u_mu")
  let ct1Mu ← mulAdd a uMu (encryptionNoiseFromSeed hashes coins (ascii "e1_mu"))
  let pkuMu ← polyMulModQKaratsuba pk uMu
  let ct2Mu ← secondHalf pkuMu (encryptionNoiseFromSeed hashes coins (ascii "e2_mu")) (muToBits hashes mu)
  return ⟨reduceModQ ct1R, reduceModQ ct2R, reduceModQ ct1Mu, reduceModQ ct2Mu⟩

def checkEncryption (coins : Bytes) (r : List Int64) (mu : Bytes) (a pk : List Int64) (claimed : Ciphertexts) : Option Bool := do
  let computed ← generateCiphertexts hashes coins r mu a pk
  return computed.ct1R == reduceModQ claimed.ct1R && computed.ct2R == reduceModQ claimed.ct2R &&
    computed.ct1Mu == reduceModQ claimed.ct1Mu && computed.ct2Mu == reduceModQ claimed.ct2Mu

/-! Conversions widen, so nothing is lost on the way in. -/

def ofU16 (v : List UInt16) : List Int64 := v.map fun x => Int64.ofNat x.toNat
def ofI32 (v : List Int32) : List Int64 := v.map Int32.toInt64

theorem u16Within (v : List UInt16) : Within (2 ^ 16) (ofU16 v) := by
  intro x mem
  obtain ⟨y, _, rfl⟩ := List.mem_map.mp mem
  have small := y.toNat_lt
  rw [Int64.toInt_ofNat_of_lt (by omega), abs_le]
  omega

theorem i32Within (v : List Int32) : Within (2 ^ 31) (ofI32 v) := by
  intro x mem
  obtain ⟨y, _, rfl⟩ := List.mem_map.mp mem
  have above := y.toInt_lt
  have below := y.le_toInt
  rw [Int32.toInt_toInt64, abs_le]
  omega

theorem withinEntry {bound : Int} (positive : 0 ≤ bound) {a : List Int64} (within : Within bound a) (i : Nat) :
    |(a.getD i 0).toInt| ≤ bound := by
  by_cases inside : i < a.length
  · rw [List.getD_eq_getElem _ _ inside]
    exact within _ (List.getElem_mem inside)
  · rw [List.getD_eq_default _ _ (by omega), Int64.toInt_zero, abs_zero]
    exact positive

theorem canonicalWithin {a : List Int64} (canonical : Canonical a) : Within (2 ^ 16) a := by
  intro x mem
  have reduced := canonical.reduced x mem
  unfold q at reduced
  rw [abs_le]
  omega

/-! Sums entry by entry. -/

theorem residueMadeSum {f g h : Nat → Int64} (exact : ∀ i, (f i).toInt = (g i).toInt + (h i).toInt) :
    residue ((List.range n).map f) = residue ((List.range n).map g) + residue ((List.range n).map h) := by
  rw [residueSum n (by simp), residueSum n (by simp), residueSum n (by simp), ← List.sum_map_add]
  refine congrArg List.sum (List.map_congr_left fun i mem => ?_)
  rw [madeEntry mem, madeEntry mem, madeEntry mem, exact, Int.cast_add, map_add, add_mul]

theorem takeMade {a : List Int64} (enough : n ≤ a.length) : (List.range n).map (fun i => a.getD i 0) = a.take n := by
  refine List.ext_getElem (by simpa using enough) fun i left right => ?_
  have inside : i < a.length := by
    rw [List.length_take] at right
    omega
  rw [List.getElem_map, List.getElem_range, List.getD_eq_getElem _ _ inside, List.getElem_take]

theorem addExact {x y : Int64} (smallX : |x.toInt| ≤ 2 ^ 32) (smallY : |y.toInt| ≤ 2 ^ 32) : (x + y).toInt = x.toInt + y.toInt := by
  have first := abs_le.mp smallX
  have second := abs_le.mp smallY
  rw [Int64.toInt_add, Int.bmod_eq_of_le] <;> omega

theorem addModQMeaning {a b : List Int64} (enoughA : n ≤ a.length) (enoughB : n ≤ b.length) (smallA : Within (2 ^ 16) a)
    (smallB : Within (2 ^ 31) b) :
    ∃ out, addModQ a b = some out ∧ Canonical out ∧ residue out = residue (a.take n) + residue (b.take n) := by
  have made : (List.range n).map (fun i => remEuclid (a.getD i 0 + b.getD i 0)) =
      reduceModQ ((List.range n).map fun i => a.getD i 0 + b.getD i 0) := by rw [reduceModQ, List.map_map]; rfl
  refine ⟨_, by rw [addModQ, if_neg (by omega), made], reducedCanonical (by simp), ?_⟩
  rw [reducedResidue, ← takeMade enoughA, ← takeMade enoughB]
  exact residueMadeSum fun i => addExact ((withinEntry (by norm_num) smallA i).trans (by norm_num))
    ((withinEntry (by norm_num) smallB i).trans (by norm_num))

theorem addModQShort {a b : List Int64} (short : b.length < n) : addModQ a b = none := if_pos (.inr short)

/-! The relation, for a target in range. -/

theorem relationMeaning (s0 s1 : List Int64) {t c : List Int64} (width : t.length = n) (smallT : Within (2 ^ 16) t) (small0 : Within (2 ^ 31) s0)
    (small1 : Within (2 ^ 31) s1) (enough0 : n ≤ s0.length) (enough1 : n ≤ s1.length) (canonical : Canonical c) :
    ∃ verdict, relationHolds t s0 s1 c = some verdict ∧
      (verdict = true ↔ residue t * residue (s0.take n) + residue (s1.take n) = residue c) := by
  obtain ⟨tS0, ran, canonicalT, product⟩ := polyMulMeaning width enough0 smallT small0
  obtain ⟨lhs, added, canonicalL, sum⟩ := addModQMeaning canonicalT.width.ge enough1 (canonicalWithin canonicalT) small1
  rw [List.take_of_length_le canonicalT.width.le, product] at sum
  refine ⟨_, by rw [relationHolds, ran, Option.bind_eq_bind, Option.bind_some, added]; rfl, ?_⟩
  rw [← sum, List.all_eq_true]
  constructor
  · intro entries
    congr 1
    refine List.ext_getElem (canonicalL.width.trans canonical.width.symm) fun i left right => ?_
    have entry := entries i (List.mem_range.mpr (by rw [← canonicalL.width]; exact left))
    rw [beq_iff_eq, List.getD_eq_getElem _ _ left, List.getD_eq_getElem _ _ right] at entry
    exact entry
  · intro same i _
    rw [canonicalInj canonicalL canonical same, beq_iff_eq]

theorem relationShort {t s0 s1 c : List Int64} (width : t.length = n) (short : s0.length < n ∨ s1.length < n) :
    relationHolds t s0 s1 c = none := by
  rw [relationHolds]
  rcases short with short | short
  · rw [polyMulShort width short]
    rfl
  · cases polyMulModQKaratsuba t s0 with
    | none => rfl
    | some tS0 => rw [Option.bind_eq_bind, Option.bind_some, addModQShort short]; rfl

/-! The norm, as the machine adds it up. -/

def squares (s : List Int64) : Int := (s.map fun x => x.toInt * x.toInt).sum

theorem squaresNonneg (s : List Int64) : 0 ≤ squares s := by
  induction s with
  | nil => exact le_rfl
  | cons x rest ih =>
      rw [squares, List.map_cons, List.sum_cons]
      exact add_nonneg (mul_self_nonneg _) ih

theorem machineBmod {x : Int64} {y : Int} (same : machine x = (y : ZMod (2 ^ 64))) : x.toInt = y.bmod (2 ^ 64) := by
  have congruent : x.toInt % (2 ^ 64 : Nat) = y % (2 ^ 64 : Nat) := (ZMod.intCast_eq_intCast_iff _ _ _).mp same
  calc x.toInt = x.toInt.bmod (2 ^ 64) := (Int64.toInt_bmod x).symm
    _ = (x.toInt % (2 ^ 64 : Nat)).bmod (2 ^ 64) := (Int.emod_bmod ..).symm
    _ = y.bmod (2 ^ 64) := by rw [congruent, Int.emod_bmod]

theorem normMeaning (s0 s1 : List Int64) (enough0 : n ≤ s0.length) (enough1 : n ≤ s1.length) :
    ∃ sum, normSquared s0 s1 = some sum ∧ sum.toInt = (squares (s0.take n) + squares (s1.take n)).bmod (2 ^ 64) := by
  refine ⟨_, if_neg (by omega), machineBmod ?_⟩
  have added := Coefficients.foldAdds machine (fun _ => True) (fun sum i => sum + s0.getD i 0 * s0.getD i 0 + s1.getD i 0 * s1.getD i 0)
    (fun i => machine (s0.getD i 0) * machine (s0.getD i 0) + machine (s1.getD i 0) * machine (s1.getD i 0)) (List.range n)
    (fun sum i _ _ => ⟨trivial, by simp only [machineWraps.add, machineWraps.mul, add_assoc]⟩) 0 trivial
  have entries (s : List Int64) (enough : n ≤ s.length) : ((squares (s.take n) : Int) : ZMod (2 ^ 64)) =
      ((List.range n).map fun i => machine (s.getD i 0) * machine (s.getD i 0)).sum := by
    rw [squares, ← takeMade enough, List.map_map, Int.cast_list_sum, List.map_map]
    simp only [Function.comp_def, Int.cast_mul]
    rfl
  rw [added.2, machineWraps.zero, zero_add, Int.cast_add, entries s0 enough0, entries s1 enough1, List.sum_map_add]

/-! Hashing to the ring. -/

theorem sampleExtends {word : UInt8 → UInt8 → Nat} {limit missing : Nat} {bytes : Bytes} {out : List Int64}
    (drawn : rejectionSample word limit missing bytes = some out) (more : Bytes) :
    rejectionSample word limit missing (bytes ++ more) = some out := by
  fun_induction rejectionSample word limit missing bytes generalizing out with
  | case1 bytes => simpa [rejectionSample] using drawn
  | case2 missing first second rest w under =>
      rename_i ih
      obtain ⟨tail, ran, rfl⟩ := Option.map_eq_some_iff.mp drawn
      rw [List.cons_append, List.cons_append, rejectionSample, if_pos under, ih ran]
      rfl
  | case3 missing first second rest w past =>
      rename_i ih
      rw [List.cons_append, List.cons_append, rejectionSample, if_neg past]
      exact ih drawn
  | case4 => cases drawn

theorem sampleReduced {word : UInt8 → UInt8 → Nat} {limit missing : Nat} {bytes : Bytes} {out : List Int64}
    (drawn : rejectionSample word limit missing bytes = some out) :
    out.length = missing ∧ ∀ x ∈ out, 0 ≤ x.toInt ∧ x.toInt < q := by
  fun_induction rejectionSample word limit missing bytes generalizing out with
  | case1 bytes =>
      cases drawn
      exact ⟨rfl, by simp⟩
  | case2 missing first second rest w under =>
      rename_i ih
      obtain ⟨tail, ran, rfl⟩ := Option.map_eq_some_iff.mp drawn
      obtain ⟨width, reduced⟩ := ih ran
      refine ⟨by rw [List.length_cons, width], fun x mem => ?_⟩
      rcases List.mem_cons.mp mem with rfl | later
      · unfold q
        rw [Int64.toInt_ofInt_of_le] <;> omega
      · exact reduced x later
  | case3 missing first second rest w past =>
      rename_i ih
      exact ih drawn
  | case4 => cases drawn

variable {hashes}

theorem hashToPointCanonical {draws : Nat} {digest : Vector UInt8 32} {point : List Int64}
    (drawn : hashToPoint hashes draws digest = some point) : Canonical point :=
  ⟨(sampleReduced drawn).1, (sampleReduced drawn).2⟩

/- Drawing more than was needed changes nothing. -/
theorem outputGrows (hashes : Hashes) {fewer more : Nat} (le : fewer ≤ more) (seed : Bytes) :
    ∃ rest, hashes.shake256 seed more = hashes.shake256 seed fewer ++ rest :=
  ⟨(hashes.shake256 seed more).drop fewer, by rw [← hashes.outputExtends seed fewer more le, List.take_append_drop]⟩

theorem hashToPointMore {fewer more : Nat} (le : fewer ≤ more) {digest : Vector UInt8 32} {point : List Int64}
    (drawn : hashToPoint hashes fewer digest = some point) : hashToPoint hashes more digest = some point := by
  obtain ⟨rest, grown⟩ := outputGrows hashes (Nat.mul_le_mul_left 2 le) digest.toList
  rw [hashToPoint, grown]
  exact sampleExtends drawn rest

variable (hashes) in
/- The point the digest stands for, however much is drawn for it. -/
def HashesTo (digest : Vector UInt8 32) (point : List Int64) : Prop := ∃ draws, hashToPoint hashes draws digest = some point

theorem hashesToUnique {digest : Vector UInt8 32} {point point' : List Int64} (one : HashesTo hashes digest point)
    (other : HashesTo hashes digest point') : point = point' := by
  obtain ⟨draws, drawn⟩ := one
  obtain ⟨draws', drawn'⟩ := other
  have first := hashToPointMore (Nat.le_max_left draws draws') drawn
  rw [hashToPointMore (Nat.le_max_right draws draws') drawn'] at first
  exact (Option.some.inj first).symm

/-! The ciphertexts, in the ring. -/

theorem boundedShape (hashes : Hashes) (seed label : Bytes) {bound : Nat} (small : bound ≤ 127) :
    (boundedPolyFromSeed hashes seed label bound).length = n ∧ Within bound (boundedPolyFromSeed hashes seed label bound) := by
  refine ⟨by rw [boundedPolyFromSeed, List.length_map, hashes.outputLength], fun x mem => ?_⟩
  obtain ⟨b, _, rfl⟩ := List.mem_map.mp mem
  have low : 0 ≤ (b.toNat : Int) % (2 * bound + 1) := Int.emod_nonneg _ (by omega)
  have high : (b.toNat : Int) % (2 * bound + 1) < 2 * bound + 1 := Int.emod_lt_of_pos _ (by omega)
  rw [Int64.toInt_ofInt_of_le (by omega) (by omega), abs_le]
  omega

theorem noiseShape (hashes : Hashes) (seed label : Bytes) : (encryptionNoiseFromSeed hashes seed label).length = n ∧
    Within 8 (encryptionNoiseFromSeed hashes seed label) := boundedShape hashes seed label (by decide)

theorem withinMono {small large : Int} (le : small ≤ large) {a : List Int64} (within : Within small a) : Within large a :=
  fun x mem => (within x mem).trans le

theorem mulAddMeaning {a u noise : List Int64} (width : a.length = n) (smallA : Within (2 ^ 16) a) (widthU : u.length = n)
    (smallU : Within 8 u) (widthE : noise.length = n) (smallE : Within 8 noise) :
    ∃ out, mulAdd a u noise = some out ∧ out.length = n ∧ residue out = residue a * residue u + residue noise := by
  obtain ⟨product, ran, canonical, meaning⟩ := polyMulMeaning width widthU.ge smallA (withinMono (by norm_num) smallU)
  refine ⟨_, by rw [mulAdd, ran]; rfl, by simp, ?_⟩
  rw [residueMadeSum fun i => addExact ((withinEntry (by norm_num) (canonicalWithin canonical) i).trans (by norm_num))
    ((withinEntry (by norm_num) smallE i).trans (by norm_num)), takeMade canonical.width.ge, takeMade widthE.ge,
    List.take_of_length_le canonical.width.le, List.take_of_length_le widthE.le, meaning, List.take_of_length_le widthU.le]

theorem secondHalfMeaning {pkU noise message : List Int64} (canonical : Canonical pkU) (widthE : noise.length = n)
    (smallE : Within 8 noise) (enough : n ≤ message.length) (smallM : Within (2 ^ 31) message) :
    ∃ out, secondHalf pkU noise message = some out ∧ out.length = n ∧
      residue out = residue pkU + residue noise + residue (message.take n) := by
  have inner (i : Nat) : (pkU.getD i 0 + noise.getD i 0).toInt = (pkU.getD i 0).toInt + (noise.getD i 0).toInt :=
    addExact ((withinEntry (by norm_num) (canonicalWithin canonical) i).trans (by norm_num))
      ((withinEntry (by norm_num) smallE i).trans (by norm_num))
  have innerSmall (i : Nat) : |(pkU.getD i 0 + noise.getD i 0).toInt| ≤ 2 ^ 32 := by
    rw [inner]
    have first := withinEntry (by norm_num) (canonicalWithin canonical) i
    have second := withinEntry (by norm_num) smallE i
    exact (abs_add_le _ _).trans (by linarith)
  refine ⟨_, if_neg (by omega), by simp, ?_⟩
  rw [residueMadeSum fun i => addExact (innerSmall i) ((withinEntry (by norm_num) smallM i).trans (by norm_num)),
    residueMadeSum inner, takeMade canonical.width.ge, takeMade widthE.ge, takeMade enough, List.take_of_length_le canonical.width.le,
    List.take_of_length_le widthE.le]

theorem muToBitsShape (hashes : Hashes) (mu : Bytes) : (muToBits hashes mu).length = n ∧ Within (2 ^ 31) (muToBits hashes mu) := by
  refine ⟨by simp [muToBits], fun x mem => ?_⟩
  obtain ⟨i, _, rfl⟩ := List.mem_map.mp mem
  by_cases bit : i < 256
  · rw [if_pos bit, Int64.toInt_ofInt_of_le (by omega) (by omega), abs_le]
    omega
  · rw [if_neg bit, Int64.toInt_zero]
    norm_num

variable (hashes) in
/- What encrypting `r` and `mu` under the public key with these coins comes to. -/
structure Encrypts (coins : Bytes) (r : List Int64) (mu : Bytes) (a pk : List Int64) (ct : Ciphertexts) : Prop where
  first : residue ct.ct1R = residue a * residue (encryptionNoiseFromSeed hashes coins (ascii "u_r")) +
    residue (encryptionNoiseFromSeed hashes coins (ascii "e1_r"))
  second : residue ct.ct2R = residue pk * residue (encryptionNoiseFromSeed hashes coins (ascii "u_r")) +
    residue (encryptionNoiseFromSeed hashes coins (ascii "e2_r")) + residue r
  firstMu : residue ct.ct1Mu = residue a * residue (encryptionNoiseFromSeed hashes coins (ascii "u_mu")) +
    residue (encryptionNoiseFromSeed hashes coins (ascii "e1_mu"))
  secondMu : residue ct.ct2Mu = residue pk * residue (encryptionNoiseFromSeed hashes coins (ascii "u_mu")) +
    residue (encryptionNoiseFromSeed hashes coins (ascii "e2_mu")) + residue (muToBits hashes mu)

structure Ciphertexts.Canonical (ct : Ciphertexts) : Prop where
  first : Prover.Canonical ct.ct1R
  second : Prover.Canonical ct.ct2R
  firstMu : Prover.Canonical ct.ct1Mu
  secondMu : Prover.Canonical ct.ct2Mu

theorem generateMeaning (hashes : Hashes) (coins : Bytes) {r : List Int64} (mu : Bytes) {a pk : List Int64} (enough : n ≤ r.length)
    (smallR : Within (2 ^ 31) r) (widthA : a.length = n) (smallA : Within (2 ^ 16) a) (widthPk : pk.length = n)
    (smallPk : Within (2 ^ 16) pk) :
    ∃ ct, generateCiphertexts hashes coins r mu a pk = some ct ∧ ct.Canonical ∧ Encrypts hashes coins (r.take n) mu a pk ct := by
  have noise (label : Bytes) := noiseShape hashes coins label
  have masked (label label' : Bytes) := mulAddMeaning widthA smallA (noise label).1 (noise label).2 (noise label').1 (noise label').2
  have keyed (label : Bytes) := polyMulMeaning widthPk (noise label).1.ge smallPk (withinMono (by norm_num) (noise label).2)
  obtain ⟨ct1R, ran1, width1, meaning1⟩ := masked (ascii "u_r") (ascii "e1_r")
  obtain ⟨pkuR, ranU, canonicalU, meaningU⟩ := keyed (ascii "u_r")
  obtain ⟨ct2R, ran2, width2, meaning2⟩ := secondHalfMeaning canonicalU (noise (ascii "e2_r")).1 (noise (ascii "e2_r")).2 enough smallR
  obtain ⟨ct1Mu, ran3, width3, meaning3⟩ := masked (ascii "u_mu") (ascii "e1_mu")
  obtain ⟨pkuMu, ranV, canonicalV, meaningV⟩ := keyed (ascii "u_mu")
  obtain ⟨ct2Mu, ran4, width4, meaning4⟩ := secondHalfMeaning canonicalV (noise (ascii "e2_mu")).1 (noise (ascii "e2_mu")).2
    (muToBitsShape hashes mu).1.ge (muToBitsShape hashes mu).2
  rw [meaningU, List.take_of_length_le (noise (ascii "u_r")).1.le] at meaning2
  rw [meaningV, List.take_of_length_le (noise (ascii "u_mu")).1.le, List.take_of_length_le (muToBitsShape hashes mu).1.le] at meaning4
  refine ⟨⟨reduceModQ ct1R, reduceModQ ct2R, reduceModQ ct1Mu, reduceModQ ct2Mu⟩, ?_,
    ⟨reducedCanonical width1, reducedCanonical width2, reducedCanonical width3, reducedCanonical width4⟩,
    ⟨(reducedResidue _).trans meaning1, (reducedResidue _).trans meaning2, (reducedResidue _).trans meaning3,
      (reducedResidue _).trans meaning4⟩⟩
  simp only [generateCiphertexts, ran1, ranU, ran2, ran3, ranV, ran4, Option.bind_eq_bind, Option.bind_some]
  rfl

theorem encryptionMeaning (hashes : Hashes) (coins : Bytes) {r : List Int64} (mu : Bytes) {a pk : List Int64} {claimed : Ciphertexts}
    (enough : n ≤ r.length) (smallR : Within (2 ^ 31) r) (widthA : a.length = n) (smallA : Within (2 ^ 16) a) (widthPk : pk.length = n)
    (smallPk : Within (2 ^ 16) pk) (width1R : claimed.ct1R.length = n) (width2R : claimed.ct2R.length = n)
    (width1Mu : claimed.ct1Mu.length = n) (width2Mu : claimed.ct2Mu.length = n) :
    ∃ verdict, checkEncryption hashes coins r mu a pk claimed = some verdict ∧
      (verdict = true ↔ Encrypts hashes coins (r.take n) mu a pk claimed) := by
  obtain ⟨ct, ran, canonical, meaning⟩ := generateMeaning hashes coins mu enough smallR widthA smallA widthPk smallPk
  have agree {x y : List Int64} (left : Canonical x) (width : y.length = n) : (x == reduceModQ y) = true ↔ residue y = residue x := by
    rw [beq_iff_eq, ← reducedResidue y]
    exact ⟨fun same => by rw [same], fun same => canonicalInj left (reducedCanonical width) same.symm⟩
  refine ⟨_, by rw [checkEncryption, ran]; rfl, ?_⟩
  rw [Bool.and_eq_true, Bool.and_eq_true, Bool.and_eq_true, agree canonical.first width1R, agree canonical.second width2R,
    agree canonical.firstMu width1Mu, agree canonical.secondMu width2Mu, meaning.first, meaning.second, meaning.firstMu,
    meaning.secondMu]
  exact ⟨fun h => ⟨h.1.1.1, h.1.1.2, h.1.2, h.2⟩, fun h => ⟨⟨⟨h.first, h.second⟩, h.firstMu⟩, h.secondMu⟩⟩

/-! What the guests share: the first coefficients of a witness, and the target they recompute from it. -/

def front (s : List Int32) : List Int64 := (ofI32 s).take n

theorem frontWhole {s : List Int32} (width : s.length = n) : front s = ofI32 s := List.take_of_length_le (by simp [ofI32, width])

theorem boundedMeaning (r : List Int32) : rInBounds r = true ↔ ∀ x ∈ r, -2 ≤ x.toInt ∧ x.toInt ≤ 2 := by
  have low (x : Int32) : -2 ≤ x ↔ -2 ≤ x.toInt := Int32.le_iff_toInt_le
  have high (x : Int32) : x ≤ 2 ↔ x.toInt ≤ 2 := Int32.le_iff_toInt_le
  simp [rInBounds, low, high]

/- The target the guest recomputes. -/
theorem targetMeaning {b : List UInt16} {r : List Int32} {point : List Int64} (width : b.length = n) (enough : n ≤ r.length)
    (canonical : Canonical point) :
    ∃ br c, polyMulModQKaratsuba (ofU16 b) (ofI32 r) = some br ∧ addModQ br point = some c ∧ Canonical c ∧
      residue c = residue (ofU16 b) * residue (front r) + residue point := by
  obtain ⟨br, ran, canonicalBr, product⟩ := polyMulMeaning (a := ofU16 b) (b := ofI32 r) (by simpa [ofU16] using width)
    (by simpa [ofI32] using enough) (u16Within b) (i32Within r)
  obtain ⟨c, added, canonicalC, sum⟩ := addModQMeaning canonicalBr.width.ge canonical.width.ge (canonicalWithin canonicalBr)
    (withinMono (by norm_num) (canonicalWithin canonical))
  rw [List.take_of_length_le canonicalBr.width.le, List.take_of_length_le canonical.width.le, product] at sum
  exact ⟨br, c, ran, added, canonicalC, sum⟩

def toU16 (v : List Int64) : List UInt16 := v.map fun x => UInt16.ofNat (remEuclid x).toInt.toNat

theorem canonicalBack {v : List Int64} (canonical : Canonical v) : ofU16 (toU16 v) = v := by
  rw [ofU16, toU16, List.map_map]
  conv_rhs => rw [← List.map_id v]
  refine List.map_congr_left fun x mem => ?_
  have reduced := canonical.reduced x mem
  refine Int64.toInt_inj.mp ?_
  simp only [Function.comp_apply, id, remEuclidExact, UInt16.toNat_ofNat']
  unfold q at reduced ⊢
  rw [Int64.toInt_ofNat_of_lt (by omega)]
  omega

theorem toU16Width {v : List Int64} (canonical : Canonical v) : (toU16 v).length = n := by
  rw [toU16, List.length_map, canonical.width]

theorem noU16Residue : residue (ofU16 (List.replicate n 0)) = 0 := by
  have zeros : ofU16 (List.replicate n 0) = List.replicate n 0 := by simp [ofU16]
  simp [zeros, residue, Coefficients.element]

theorem zerosResidue (count : Nat) : residue (List.replicate count 0) = 0 := by
  simp [residue, Coefficients.element]

theorem someGetD {α : Type} {x : Option α} (given : x.isSome = true) (default : α) : x = some (x.getD default) := by
  cases x with
  | none => cases given
  | some a => rfl

end TradeP2P.Prover
