import TradeP2P.Blind.Nizk1
import TradeP2P.Blind.Nizk2
import TradeP2P.Blind.Presentation
import TradeP2P.Blind.Sign
import TradeP2P.Lib.Codec

/-! The honest run, from the client's blinding to the presented credential, across the programs that
compute its parts. -/
namespace TradeP2P.Prover
open Wire (Bytes ascii bigEndian)
open Checks

/-! Hexadecimal, between the programs. -/

def bytesToHex (v : Bytes) : Bytes := v.flatMap Credential.hexByte

def toDigit (c : UInt8) : Option Nat :=
  if 48 ≤ c ∧ c ≤ 57 then some (c.toNat - 48)
  else if 97 ≤ c ∧ c ≤ 102 then some (c.toNat - 87)
  else if 65 ≤ c ∧ c ≤ 70 then some (c.toNat - 55)
  else none

def hexPairs : Bytes → Except String Bytes
  | high :: low :: rest =>
      match toDigit high, toDigit low with
      | some hi, some lo => do return UInt8.ofNat (hi <<< 4 ||| lo) :: (← hexPairs rest)
      | _, _ => .error "invalid hex digit"
  | _ => .ok []

def hexToBytes (s : Bytes) : Except String Bytes :=
  if s.length % 2 ≠ 0 then .error "hex string must have even length" else hexPairs s

theorem hexPairOfByte (byte : UInt8) (rest : Bytes) :
    hexPairs (Credential.hexByte byte ++ rest) = (do return byte :: (← hexPairs rest)) := by
  have all : ∀ k : Fin 256, toDigit (Credential.hexDigit ((UInt8.ofFin k).toNat / 16)) = some ((UInt8.ofFin k).toNat / 16) ∧
      toDigit (Credential.hexDigit ((UInt8.ofFin k).toNat % 16)) = some ((UInt8.ofFin k).toNat % 16) ∧
      UInt8.ofNat (((UInt8.ofFin k).toNat / 16) <<< 4 ||| (UInt8.ofFin k).toNat % 16) = UInt8.ofFin k := by
    decide +kernel
  obtain ⟨high, low, joined⟩ := all byte.toFin
  have whole : UInt8.ofFin byte.toFin = byte := rfl
  rw [whole] at high low joined
  rw [Credential.hexByte, List.cons_append, List.cons_append, List.nil_append, hexPairs, high, low]
  simp only [joined]

theorem hexWidth (v : Bytes) : (bytesToHex v).length = 2 * v.length := by
  induction v with
  | nil => rfl
  | cons byte rest ih =>
      rw [bytesToHex, List.flatMap_cons, List.length_append, ← bytesToHex, ih, List.length_cons, Credential.hexByte]
      simp only [List.length_cons, List.length_nil]
      omega

theorem hexRoundTrip (v : Bytes) : hexToBytes (bytesToHex v) = .ok v := by
  rw [hexToBytes, if_neg (by rw [hexWidth]; omega)]
  induction v with
  | nil => rfl
  | cons byte rest ih =>
      rw [bytesToHex, List.flatMap_cons, hexPairOfByte, ← bytesToHex, ih]
      rfl

/-! The client's sidecar. -/

def validateU16Poly (name : String) (v : List UInt16) : Except String Unit := do
  throwIf (v.length ≠ n) (name ++ " has " ++ toString v.length ++ " coefficients, expected " ++ toString n)
  match v.findIdx? fun value => decide (value.toNat ≥ 7933) with
  | some i => throw (name ++ "[" ++ toString i ++ "]=" ++ toString (v.getD i 0) ++ " is outside canonical range 0.." ++ toString q)
  | none => return ()

def validateI32Poly (name : String) (v : List Int32) : Except String Unit :=
  throwIf (v.length ≠ n) (name ++ " has " ++ toString v.length ++ " coefficients, expected " ++ toString n)

structure Seeds where
  r : Vector UInt8 32
  coins : Vector UInt8 32
  a : Vector UInt8 32
  pk : Vector UInt8 32

structure PublicBlindRequest where
  b : List UInt16
  c : List UInt16
  rhoHex : Bytes
  encA : List UInt16
  encPk : List UInt16
  ct1R : List UInt16
  ct2R : List UInt16
  ct1Mu : List UInt16
  ct2Mu : List UInt16

structure PrivateBlindWitness where
  r : List Int32
  mu : Bytes
  coinsHex : Bytes

structure BlindInstance where
  request : PublicBlindRequest
  witness : PrivateBlindWitness

variable (hashes : Hashes)

def userBlind (draws : Nat) (b : List UInt16) (mu : Bytes) (seeds : Seeds) : Option (Except String BlindInstance) :=
  match validateU16Poly "--b-hex" b with
  | .error e => some (.error e)
  | .ok () => do
      let rI64 := shortPolyFromSeed hashes seeds.r.toList (ascii "r")
      let rI32 := rI64.map Int64.toInt32
      let rho := gOfR hashes rI32
      let hDigest := hOfRhoMu hashes rho.toList mu
      let hashTerm ← hashToPoint hashes draws hDigest
      let br ← polyMulModQKaratsuba (ofU16 b) rI64
      let c ← addModQ br hashTerm
      let a ← uniformPolyFromSeed hashes draws seeds.a.toList (ascii "a")
      let pk ← uniformPolyFromSeed hashes draws seeds.pk.toList (ascii "pk")
      let ct ← generateCiphertexts hashes seeds.coins.toList rI64 mu a pk
      let request := ⟨b, toU16 c, bytesToHex rho.toList, toU16 a, toU16 pk, toU16 ct.ct1R, toU16 ct.ct2R, toU16 ct.ct1Mu,
        toU16 ct.ct2Mu⟩
      return .ok ⟨request, ⟨rI32, mu, bytesToHex seeds.coins.toList⟩⟩

def validateNizk1Instance (instance_ : BlindInstance) (coins : Bytes) : Except String Unit := do
  validateU16Poly "b" instance_.request.b
  validateU16Poly "c" instance_.request.c
  validateU16Poly "enc_a" instance_.request.encA
  validateU16Poly "enc_pk" instance_.request.encPk
  validateU16Poly "ct1_r" instance_.request.ct1R
  validateU16Poly "ct2_r" instance_.request.ct2R
  validateU16Poly "ct1_mu" instance_.request.ct1Mu
  validateU16Poly "ct2_mu" instance_.request.ct2Mu
  validateI32Poly "r" instance_.witness.r
  throwIf (coins.length ≠ 32) ("coins_hex decoded to " ++ toString coins.length ++ " bytes, expected 32")

/- What `user-prove-nizk1` hands to the guest. -/
def nizk1Input (instance_ : BlindInstance) : Except String Nizk1Input := do
  let coins ← (hexToBytes instance_.witness.coinsHex).mapError ("bad coins_hex: " ++ ·)
  validateNizk1Instance instance_ coins
  let request := instance_.request
  return ⟨request.b, request.c, request.encA, request.encPk, request.ct1R, request.ct2R, request.ct1Mu, request.ct2Mu,
    instance_.witness.r, instance_.witness.mu, coins⟩

structure FinalizeNizk2Request where
  t : List UInt16
  b : List UInt16
  rhoHex : Bytes
  mu : Bytes
  r : List Int32
  s0 : List Int32
  s1 : List Int32

/- What `user-finalize-prove-nizk2` hands to the guest. -/
def nizk2Input (request : FinalizeNizk2Request) : Except String Nizk2Input := do
  validateU16Poly "t" request.t
  validateU16Poly "b" request.b
  validateI32Poly "r" request.r
  validateI32Poly "s0" request.s0
  validateI32Poly "s1" request.s1
  throwIf (rInBounds request.r = false) "r is outside the protocol coefficient bound [-2,2]"
  let rho ← (hexToBytes request.rhoHex).mapError ("bad rho_hex: " ++ ·)
  throwIf (rho.length ≠ 32) ("rho_hex decoded to " ++ toString rho.length ++ " bytes, expected 32")
  throwIf ((request.s0 ++ request.s1).all (fun x => decide (x.toInt * x.toInt ≤ normBoundSquared)) = false)
    "s0/s1 contains a coefficient that alone exceeds the q=7933 signature norm bound"
  return ⟨request.t, request.b, request.r, request.s0, request.s1, rho, request.mu⟩

/-! The mediator's conversions: a polynomial of the ring's length, every coefficient within the field. -/

def polyToArray {α : Type} (low high : Int) (ofInt : Int → α) (rangeText : String) (value : List Int) (fieldName : String) :
    Except Error (Vector α 512) :=
  if width : value.length = 512 then
    if value.all fun coefficient => decide (low ≤ coefficient ∧ coefficient ≤ high) then
      .ok ⟨(value.map ofInt).toArray, by simpa using width⟩
    else .error (.runtimeError (fieldName ++ rangeText))
  else .error (.runtimeError (fieldName ++ " has unexpected degree"))

def polyToU16Array := polyToArray 0 65535 (fun x => UInt16.ofNat x.toNat) " coefficient exceeds wire range"
def q7933PolyToI16Array := polyToArray (-32768) 32767 Int16.ofInt " coefficient exceeds q7933 wire range"

def arrayToPoly (value : List UInt16) : List Int := value.map fun coefficient => (coefficient.toNat : Int)

/- Two bytes to a coefficient; the sign comes back with the conversion. -/
def writeI16Array (value : List Int16) : Bytes := value.flatMap fun v => bigEndian 2 v.toUInt16.toNat

def readI16Array : Nat → Wire.Reader Error (List Int16)
  | 0 => return []
  | count+1 => do
      let v ← Wire.u16 (.runtimeError "truncated message")
      return v.toInt16 :: (← readI16Array count)

/-! Checks that pass. -/

theorem canonicalOfU16 {v : List UInt16} (width : v.length = n) (reduced : ∀ x ∈ v, x.toNat < 7933) : Canonical (ofU16 v) := by
  refine ⟨by simpa [ofU16] using width, fun x mem => ?_⟩
  obtain ⟨y, inside, rfl⟩ := List.mem_map.mp mem
  have small := reduced y inside
  unfold q
  rw [Int64.toInt_ofNat_of_lt (by omega)]
  omega

theorem u16Canonical {v : List UInt16} (canonical : Canonical (ofU16 v)) : v.length = n ∧ ∀ x ∈ v, x.toNat < 7933 := by
  refine ⟨by simpa [ofU16] using canonical.width, fun x mem => ?_⟩
  have reduced := canonical.reduced _ (List.mem_map.mpr ⟨x, mem, rfl⟩)
  have small := x.toNat_lt
  unfold q at reduced
  rw [Int64.toInt_ofNat_of_lt (by omega)] at reduced
  omega

theorem zerosCanonical16 : Canonical (ofU16 (List.replicate 512 0)) :=
  canonicalOfU16 (List.length_replicate ..) fun x mem => by
    rw [List.eq_of_mem_replicate mem]
    decide

theorem validatePasses (name : String) {v : List UInt16} (canonical : Canonical (ofU16 v)) : validateU16Poly name v = .ok () := by
  obtain ⟨width, reduced⟩ := u16Canonical canonical
  have none : v.findIdx? (fun value => decide (value.toNat ≥ 7933)) = none := by
    rw [List.findIdx?_eq_none_iff]
    intro x mem
    have small := reduced x mem
    simpa using small
  rw [validateU16Poly, throwIf_not (not_not.mpr width), none]
  rfl

theorem validateI32Passes (name : String) {v : List Int32} (width : v.length = n) : validateI32Poly name v = .ok () :=
  throwIf_not (not_not.mpr width)

theorem toU16Canonical {v : List Int64} (canonical : Canonical v) : Canonical (ofU16 (toU16 v)) := by
  rw [canonicalBack canonical]
  exact canonical

/- A short coefficient keeps its value in 32 bits. -/
theorem narrowed {v : List Int64} {bound : Int} (within : Within bound v) (small : bound ≤ 2 ^ 30) : ofI32 (v.map Int64.toInt32) = v := by
  rw [ofI32, List.map_map]
  conv_rhs => rw [← List.map_id v]
  refine List.map_congr_left fun x mem => Int64.toInt_inj.mp ?_
  have limits := abs_le.mp (within x mem)
  rw [Function.comp_apply, Int32.toInt_toInt64, Int64.toInt_toInt32, id, Int.bmod_eq_of_le] <;> norm_num at small ⊢ <;> omega

/-! The signer's integers and the machine's. -/

def ints (v : List Int64) : List Int := v.map Int64.toInt

theorem verifiedMeaning {ring : Blns7933.RingArithmetic} {publicKey : Blns7933.PublicKey} {target : Blns7933.PolyQ}
    {signature : Blns7933.Signature} {bound : Int} (verified : Blns7933.verifyTarget ring publicKey target signature bound = .ok true) :
    Blns7933.normSquared signature ≤ bound ∧ Blns7933.residue ring publicKey.t * Blns7933.residue ring signature.s0 +
      Blns7933.residue ring signature.s1 = Blns7933.residue ring target := by
  rw [Blns7933.verifyTarget] at verified
  by_cases long : Blns7933.normSquared signature > bound
  · rw [if_pos long] at verified
    cases verified
  · rw [if_neg long] at verified
    simp only [bind_ok] at verified
    obtain ⟨product, multiplied, lhs, added, compared⟩ := verified
    have same := (Blns7933.equalMeaning compared).mp rfl
    rw [(Blns7933.addMeaning added).2, (Blns7933.mulMeaning multiplied).2] at same
    exact ⟨not_lt.mp long, same⟩

/- The integers of a signature have its norm, and meet the relation in the signer's ring where it meets it here. -/
theorem normInts (s0 s1 : List Int64) : Blns7933.normSquared ⟨ints s0, ints s1⟩ = squares s0 + squares s1 := by
  simp only [Blns7933.normSquared, squares, ints, List.map_map]
  rfl

theorem relationInts {ring : Blns7933.RingArithmetic} (degree : ring.degree = n) (modulus : ring.modulus = 7933)
    (t c s0 s1 : List Int64) :
    Blns7933.residue ring (ints t) * Blns7933.residue ring (ints s0) + Blns7933.residue ring (ints s1) = Blns7933.residue ring (ints c) ↔
      residue t * residue s0 + residue s1 = residue c := by
  have elements (v : List Int64) : Blns7933.residue ring (ints v) =
      Coefficients.element ring.degree (v.map fun x => (x.toInt : ZMod ring.modulus)) := by
    rw [Blns7933.residue, ints, List.map_map]
    rfl
  have anywhere {d m : Nat} (sameDegree : ring.degree = d) (sameModulus : ring.modulus = m) :
      Blns7933.residue ring (ints t) * Blns7933.residue ring (ints s0) + Blns7933.residue ring (ints s1) = Blns7933.residue ring (ints c) ↔
      Coefficients.element d (t.map fun x => (x.toInt : ZMod m)) * Coefficients.element d (s0.map fun x => (x.toInt : ZMod m)) +
        Coefficients.element d (s1.map fun x => (x.toInt : ZMod m)) = Coefficients.element d (c.map fun x => (x.toInt : ZMod m)) := by
    subst sameDegree sameModulus
    simp only [elements]
  exact anywhere degree modulus

theorem verifiedInts {ring : Blns7933.RingArithmetic} (degree : ring.degree = n) (modulus : ring.modulus = 7933)
    {t c s0 s1 : List Int64} {bound : Int}
    (verified : Blns7933.verifyTarget ring ⟨ints t⟩ (ints c) ⟨ints s0, ints s1⟩ bound = .ok true) :
    squares s0 + squares s1 ≤ bound ∧ residue t * residue s0 + residue s1 = residue c := by
  obtain ⟨short, same⟩ := verifiedMeaning verified
  exact ⟨normInts s0 s1 ▸ short, (relationInts degree modulus t c s0 s1).mp same⟩

theorem canonicalInts {ring : Blns7933.RingArithmetic} (degree : ring.degree = n) (modulus : ring.modulus = 7933) {c : List Int64}
    (canonical : Canonical c) : Blns7933.Canonical ring (ints c) := by
  refine ⟨by rw [ints, List.length_map, canonical.width, degree], fun x mem => ?_⟩
  obtain ⟨y, inside, rfl⟩ := List.mem_map.mp mem
  have reduced := canonical.reduced y inside
  rw [modulus]
  unfold q at reduced
  omega

/- One coefficient alone cannot exceed the whole norm. -/
theorem squareInSum {l : List Int} {x : Int} (mem : x ∈ l) : x * x ≤ (l.map fun y => y * y).sum := by
  induction l with
  | nil => cases mem
  | cons y rest ih =>
      have rest0 : 0 ≤ (rest.map fun y => y * y).sum := List.sum_nonneg fun z inside => by
        obtain ⟨w, _, rfl⟩ := List.mem_map.mp inside
        exact mul_self_nonneg w
      rw [List.map_cons, List.sum_cons]
      rcases List.mem_cons.mp mem with rfl | later
      · omega
      · have := ih later
        have := mul_self_nonneg y
        omega

theorem coefficientsSmall {signature : Blns7933.Signature} (short : Blns7933.normSquared signature ≤ Blns7933.productionNormBoundSquared) :
    (∀ x ∈ signature.s0, |x| ≤ 10499) ∧ ∀ x ∈ signature.s1, |x| ≤ 10499 := by
  have nonneg (l : List Int) : 0 ≤ (l.map fun y => y * y).sum := List.sum_nonneg fun z inside => by
    obtain ⟨w, _, rfl⟩ := List.mem_map.mp inside
    exact mul_self_nonneg w
  have first := nonneg signature.s0
  have second := nonneg signature.s1
  unfold Blns7933.normSquared Blns7933.productionNormBoundSquared at short
  have root {x : Int} (square : x * x ≤ 110231552) : |x| ≤ 10499 := by
    rw [abs_le]
    constructor <;> nlinarith
  exact ⟨fun x mem => root ((squareInSum mem).trans (by omega)), fun x mem => root ((squareInSum mem).trans (by omega))⟩

theorem i16Converts {value : List Int} (fieldName : String) (width : value.length = 512) (small : ∀ x ∈ value, |x| ≤ 10499) :
    ∃ array, q7933PolyToI16Array value fieldName = .ok array ∧ array.toList.map Int16.toInt = value := by
  have fits : (value.all fun coefficient => decide ((-32768 : Int) ≤ coefficient ∧ coefficient ≤ 32767)) = true := by
    rw [List.all_eq_true]
    intro x mem
    have limits := abs_le.mp (small x mem)
    rw [decide_eq_true_iff]
    omega
  refine ⟨⟨(value.map Int16.ofInt).toArray, by simpa using width⟩, ?_, ?_⟩
  · rw [q7933PolyToI16Array, polyToArray, dif_pos width, if_pos fits]
  · change (value.map Int16.ofInt).map Int16.toInt = value
    rw [List.map_map]
    conv_rhs => rw [← List.map_id value]
    refine List.map_congr_left fun x mem => ?_
    have limits := abs_le.mp (small x mem)
    exact Int16.toInt_ofInt_of_le (by omega) (by omega)

theorem i16Reads (value : List Int16) : Wire.Reads (readI16Array value.length) (writeI16Array value) value := by
  induction value with
  | nil => exact .pure _
  | cons v rest ih =>
      have back : v.toUInt16.toInt16 = v := rfl
      rw [List.length_cons, readI16Array, writeI16Array, List.flatMap_cons, ← writeI16Array]
      have tail := ih.returns fun more => v.toUInt16.toInt16 :: more
      rw [back] at tail
      exact (Wire.readsU16 _ v.toUInt16).bind tail

/-! What blinding makes. -/

def blindingVector (seeds : Seeds) : List Int64 := shortPolyFromSeed hashes seeds.r.toList (ascii "r")
def blindingCoefficients (seeds : Seeds) : List Int32 := (blindingVector hashes seeds).map Int64.toInt32

structure Blinded (b : List UInt16) (mu : Bytes) (seeds : Seeds) (point c a pk : List Int64) (ct : Ciphertexts)
    (instance_ : BlindInstance) : Prop where
  hashed : HashesTo hashes (hOfRhoMu hashes (gOfR hashes (blindingCoefficients hashes seeds)).toList mu) point
  target : Canonical c
  relation : residue c = residue (ofU16 b) * residue (blindingVector hashes seeds) + residue point
  maskA : Canonical a
  maskPk : Canonical pk
  ciphertexts : ct.Canonical
  encrypts : Encrypts hashes seeds.coins.toList (blindingVector hashes seeds) mu a pk ct
  made : instance_ = ⟨⟨b, toU16 c, bytesToHex (gOfR hashes (blindingCoefficients hashes seeds)).toList, toU16 a, toU16 pk, toU16 ct.ct1R,
    toU16 ct.ct2R, toU16 ct.ct1Mu, toU16 ct.ct2Mu⟩, ⟨blindingCoefficients hashes seeds, mu, bytesToHex seeds.coins.toList⟩⟩

variable {hashes}

theorem blindingShape (seeds : Seeds) : (blindingVector hashes seeds).length = n ∧ Within 2 (blindingVector hashes seeds) :=
  boundedShape hashes seeds.r.toList (ascii "r") (by decide)

theorem blindingBack (seeds : Seeds) : ofI32 (blindingCoefficients hashes seeds) = blindingVector hashes seeds :=
  narrowed (blindingShape seeds).2 (by decide)

theorem blindingBounded (seeds : Seeds) : ∀ x ∈ blindingCoefficients hashes seeds, -2 ≤ x.toInt ∧ x.toInt ≤ 2 := by
  intro x mem
  have inside : x.toInt64 ∈ blindingVector hashes seeds := by
    rw [← blindingBack seeds]
    exact List.mem_map.mpr ⟨x, mem, rfl⟩
  have limits := abs_le.mp ((blindingShape seeds).2 _ inside)
  rwa [Int32.toInt_toInt64] at limits

theorem uniformCanonical {draws : Nat} {seed label : Bytes} {v : List Int64}
    (drawn : uniformPolyFromSeed hashes draws seed label = some v) : Canonical v := ⟨(sampleReduced drawn).1, (sampleReduced drawn).2⟩

theorem blindMade {draws : Nat} {b : List UInt16} {mu : Bytes} {seeds : Seeds} {instance_ : BlindInstance}
    (canonicalB : Canonical (ofU16 b)) (built : userBlind hashes draws b mu seeds = some (.ok instance_)) :
    ∃ point c a pk ct, Blinded hashes b mu seeds point c a pk ct instance_ := by
  rw [userBlind, validatePasses "--b-hex" canonicalB] at built
  simp only [Option.bind_eq_bind, Option.bind_eq_some_iff, Option.pure_def, Option.some.injEq, Except.ok.injEq] at built
  obtain ⟨point, hashed, br, product, c, added, a, drawnA, pk, drawnPk, ct, encrypted, made⟩ := built
  have shape := @blindingShape hashes seeds
  have canonicalA := uniformCanonical drawnA
  have canonicalPk := uniformCanonical drawnPk
  obtain ⟨br', c', product', added', canonicalC, target⟩ := targetMeaning (b := b) (r := blindingCoefficients hashes seeds)
    (u16Canonical canonicalB).1 (by simp [blindingCoefficients, shape.1]) (hashToPointCanonical hashed)
  rw [blindingBack] at product'
  obtain rfl := Option.some.inj (product.symm.trans product')
  obtain rfl := Option.some.inj (added.symm.trans added')
  obtain ⟨ct', encrypted', canonicalCt, encrypts⟩ := generateMeaning hashes seeds.coins.toList mu shape.1.ge
    (withinMono (by norm_num) shape.2) canonicalA.width (canonicalWithin canonicalA) canonicalPk.width (canonicalWithin canonicalPk)
  obtain rfl := Option.some.inj (encrypted.symm.trans encrypted')
  rw [front, blindingBack, List.take_of_length_le shape.1.le] at target
  rw [List.take_of_length_le shape.1.le] at encrypts
  exact ⟨point, c, a, pk, ct, ⟨⟨draws, hashed⟩, canonicalC, target, canonicalA, canonicalPk, canonicalCt, encrypts, made.symm⟩⟩

section Blinded
variable {b : List UInt16} {mu : Bytes} {seeds : Seeds} {point c a pk : List Int64} {ct : Ciphertexts} {instance_ : BlindInstance}

theorem blindedWidth (seeds : Seeds) : (blindingCoefficients hashes seeds).length = n := by
  rw [blindingCoefficients, List.length_map, (blindingShape seeds).1]

/- The host's checks pass, and so does the guest. -/
theorem blindedProves (blinded : Blinded hashes b mu seeds point c a pk ct instance_) (canonicalB : Canonical (ofU16 b)) :
    ∃ input, nizk1Input instance_ = .ok input ∧ ∃ draws out, Nizk1.main hashes draws input = some out ∧ out.valid = true := by
  obtain rfl := blinded.made
  have coins : hexToBytes (bytesToHex seeds.coins.toList) = .ok seeds.coins.toList := hexRoundTrip _
  have size : ¬seeds.coins.toList.length ≠ 32 := not_not.mpr seeds.coins.length_toList
  have instanceValid : validateNizk1Instance ⟨⟨b, toU16 c, bytesToHex (gOfR hashes (blindingCoefficients hashes seeds)).toList, toU16 a,
      toU16 pk, toU16 ct.ct1R, toU16 ct.ct2R, toU16 ct.ct1Mu, toU16 ct.ct2Mu⟩, ⟨blindingCoefficients hashes seeds, mu,
      bytesToHex seeds.coins.toList⟩⟩ seeds.coins.toList = .ok () := by
    simp only [validateNizk1Instance, validatePasses _ canonicalB, validatePasses _ (toU16Canonical blinded.target),
      validatePasses _ (toU16Canonical blinded.maskA), validatePasses _ (toU16Canonical blinded.maskPk),
      validatePasses _ (toU16Canonical blinded.ciphertexts.first), validatePasses _ (toU16Canonical blinded.ciphertexts.second),
      validatePasses _ (toU16Canonical blinded.ciphertexts.firstMu), validatePasses _ (toU16Canonical blinded.ciphertexts.secondMu),
      validateI32Passes _ (blindedWidth seeds), throwIf_not size]
    rfl
  refine ⟨⟨b, toU16 c, toU16 a, toU16 pk, toU16 ct.ct1R, toU16 ct.ct2R, toU16 ct.ct1Mu, toU16 ct.ct2Mu, blindingCoefficients hashes seeds,
    mu, seeds.coins.toList⟩, ?_, ?_⟩
  · rw [nizk1Input, coins]
    change (do validateNizk1Instance _ seeds.coins.toList; return _) = _
    rw [instanceValid]
    rfl
  · have checked : Nizk1.Checked hashes ⟨b, toU16 c, toU16 a, toU16 pk, toU16 ct.ct1R, toU16 ct.ct2R, toU16 ct.ct1Mu, toU16 ct.ct2Mu,
        blindingCoefficients hashes seeds, mu, seeds.coins.toList⟩ := {
      widths := ⟨(u16Canonical canonicalB).1, toU16Width blinded.target, toU16Width blinded.maskA, toU16Width blinded.maskPk,
        toU16Width blinded.ciphertexts.first, toU16Width blinded.ciphertexts.second, toU16Width blinded.ciphertexts.firstMu,
        toU16Width blinded.ciphertexts.secondMu⟩
      enough := (blindedWidth seeds).ge
      bounded := blindingBounded seeds
      canonical := toU16Canonical blinded.target
      relation := ⟨point, blinded.hashed, by
        rw [canonicalBack blinded.target, frontWhole (blindedWidth seeds), blindingBack]
        exact blinded.relation⟩
      encrypts := by
        simp only [Nizk1.claimed, canonicalBack blinded.maskA, canonicalBack blinded.maskPk, canonicalBack blinded.ciphertexts.first,
          canonicalBack blinded.ciphertexts.second, canonicalBack blinded.ciphertexts.firstMu, canonicalBack blinded.ciphertexts.secondMu,
          frontWhole (blindedWidth seeds), blindingBack]
        exact blinded.encrypts }
    obtain ⟨draws, ran⟩ := Nizk1.checkedAccepted checked
    exact ⟨draws, _, ran, rfl⟩

/- What came over the wire, widened for the guests. -/
def widened (array : Vector Int16 512) : List Int32 := array.toList.map Int16.toInt32

theorem widenedInts {array : Vector Int16 512} {s : List Int} (same : array.toList.map Int16.toInt = s) : ints (ofI32 (widened array)) = s := by
  rw [← same, ints, ofI32, widened, List.map_map, List.map_map]
  refine List.map_congr_left fun x _ => ?_
  simp only [Function.comp_apply, Int32.toInt_toInt64, Int16.toInt_toInt32]

theorem widenedWidth (array : Vector Int16 512) : (widened array).length = n := by
  rw [widened, List.length_map, Vector.length_toList]
  rfl

theorem widenedSmall {array : Vector Int16 512} {s : List Int} (same : array.toList.map Int16.toInt = s) (small : ∀ x ∈ s, |x| ≤ 10499) :
    ∀ x ∈ widened array, -10499 ≤ x.toInt ∧ x.toInt ≤ 10499 := by
  intro x mem
  obtain ⟨y, inside, rfl⟩ := List.mem_map.mp mem
  rw [Int16.toInt_toInt32]
  exact abs_le.mp (small _ (by rw [← same]; exact List.mem_map.mpr ⟨y, inside, rfl⟩))

theorem arrayInts (v : List UInt16) : arrayToPoly v = ints (ofU16 v) := by
  rw [arrayToPoly, ints, ofU16, List.map_map]
  refine List.map_congr_left fun x _ => ?_
  have small := x.toNat_lt
  rw [Function.comp_apply, Int64.toInt_ofNat_of_lt (by omega)]

/- The signer's public key, as the mediator announces it. -/
theorem announced {t : List Int} (canonical : Blns7933.Canonical Blns7933.productionRing t) (fieldName : String) :
    ∃ array, polyToU16Array t fieldName = .ok array ∧ Canonical (ofU16 array.toList) ∧ ints (ofU16 array.toList) = t := by
  have width : t.length = 512 := canonical.width
  have reduced (x : Int) (mem : x ∈ t) : 0 ≤ x ∧ x < 7933 := canonical.reduced x mem
  have fits : (t.all fun coefficient => decide ((0 : Int) ≤ coefficient ∧ coefficient ≤ 65535)) = true := by
    rw [List.all_eq_true]
    intro x mem
    have limits := reduced x mem
    rw [decide_eq_true_iff]
    omega
  have back : ints (ofU16 (t.map fun x : Int => UInt16.ofNat x.toNat)) = t := by
    rw [← arrayInts, arrayToPoly, List.map_map]
    conv_rhs => rw [← List.map_id t]
    refine List.map_congr_left fun x mem => ?_
    have limits := reduced x mem
    rw [Function.comp_apply, UInt16.toNat_ofNat', id]
    omega
  refine ⟨⟨(t.map fun x : Int => UInt16.ofNat x.toNat).toArray, by simpa using width⟩, ?_, ?_, back⟩
  · rw [polyToU16Array, polyToArray, dif_pos width, if_pos fits]
  · refine canonicalOfU16 ((List.length_map _).trans width) fun x mem => ?_
    obtain ⟨y, inside, rfl⟩ := List.mem_map.mp mem
    have limits := reduced y inside
    rw [UInt16.toNat_ofNat']
    omega

theorem blindedSigned {publicKey : Blns7933.PublicKey} {t16 : List UInt16} {w0 w1 : Vector Int16 512} {signature : Blns7933.Signature}
    (blinded : Blinded hashes b mu seeds point c a pk ct instance_) (sameT : ints (ofU16 t16) = publicKey.t)
    (same0 : w0.toList.map Int16.toInt = signature.s0) (same1 : w1.toList.map Int16.toInt = signature.s1)
    (verified : Blns7933.verifyTarget Blns7933.productionRing publicKey (arrayToPoly instance_.request.c) signature
      Blns7933.productionNormBoundSquared = .ok true) :
    squares (ofI32 (widened w0)) + squares (ofI32 (widened w1)) ≤ normBoundSquared ∧
      residue (ofU16 t16) * residue (ofI32 (widened w0)) + residue (ofI32 (widened w1)) =
        residue (ofU16 b) * residue (ofI32 (blindingCoefficients hashes seeds)) + residue point := by
  obtain rfl := blinded.made
  have target : arrayToPoly (toU16 c) = ints c := by rw [arrayInts, canonicalBack blinded.target]
  rw [target] at verified
  have accepted := @verifiedInts Blns7933.productionRing rfl rfl (ofU16 t16) c (ofI32 (widened w0)) (ofI32 (widened w1)) _ (by
    rw [sameT, widenedInts same0, widenedInts same1]
    exact verified)
  exact ⟨accepted.1, by rw [accepted.2, blinded.relation, blindingBack]⟩

/- The request the client hands to its sidecar once the signature has come. -/
def finalizeRequest (t16 : List UInt16) (instance_ : BlindInstance) (w0 w1 : Vector Int16 512) : FinalizeNizk2Request :=
  ⟨t16, instance_.request.b, instance_.request.rhoHex, instance_.witness.mu, instance_.witness.r, widened w0, widened w1⟩

theorem blindedFinalizes {t16 : List UInt16} {w0 w1 : Vector Int16 512}
    (blinded : Blinded hashes b mu seeds point c a pk ct instance_) (canonicalB : Canonical (ofU16 b)) (canonicalT : Canonical (ofU16 t16))
    (small0 : ∀ x ∈ widened w0, -10499 ≤ x.toInt ∧ x.toInt ≤ 10499) (small1 : ∀ x ∈ widened w1, -10499 ≤ x.toInt ∧ x.toInt ≤ 10499)
    (short : squares (ofI32 (widened w0)) + squares (ofI32 (widened w1)) ≤ normBoundSquared)
    (relation : residue (ofU16 t16) * residue (ofI32 (widened w0)) + residue (ofI32 (widened w1)) =
      residue (ofU16 b) * residue (ofI32 (blindingCoefficients hashes seeds)) + residue point) :
    ∃ input, nizk2Input (finalizeRequest t16 instance_ w0 w1) = .ok input ∧
      ∃ draws out, Nizk2.main hashes draws input = some out ∧ out.valid = true := by
  obtain rfl := blinded.made
  have rhoBack := hexRoundTrip (gOfR hashes (blindingCoefficients hashes seeds)).toList
  have size : ¬(gOfR hashes (blindingCoefficients hashes seeds)).toList.length ≠ 32 := not_not.mpr Vector.length_toList
  have bounded : ¬rInBounds (blindingCoefficients hashes seeds) = false := by
    rw [(boundedMeaning _).mpr (blindingBounded seeds)]
    decide
  have possible : ¬(widened w0 ++ widened w1).all (fun x => decide (x.toInt * x.toInt ≤ normBoundSquared)) = false := by
    rw [Bool.not_eq_false, List.all_eq_true]
    intro x mem
    have limits : -10499 ≤ x.toInt ∧ x.toInt ≤ 10499 := (List.mem_append.mp mem).elim (small0 x) (small1 x)
    rw [decide_eq_true_iff, normBoundSquared]
    nlinarith
  refine ⟨⟨t16, b, blindingCoefficients hashes seeds, widened w0, widened w1, (gOfR hashes (blindingCoefficients hashes seeds)).toList, mu⟩,
    ?_, ?_⟩
  · refine check_ok.mpr ⟨validatePasses _ canonicalT, check_ok.mpr ⟨validatePasses _ canonicalB,
      check_ok.mpr ⟨validateI32Passes _ (blindedWidth seeds), check_ok.mpr ⟨validateI32Passes _ (widenedWidth w0),
      check_ok.mpr ⟨validateI32Passes _ (widenedWidth w1), check_ok.mpr ⟨throwIf_not bounded, bind_ok.mpr ⟨_, ?_,
      check_ok.mpr ⟨throwIf_not size, check_ok.mpr ⟨throwIf_not possible, rfl⟩⟩⟩⟩⟩⟩⟩⟩⟩
    exact congrArg (Except.mapError ("bad rho_hex: " ++ ·)) rhoBack
  · have positive0 := squaresNonneg (ofI32 (widened w0))
    have positive1 := squaresNonneg (ofI32 (widened w1))
    have checked : Nizk2.Checked hashes ⟨t16, b, blindingCoefficients hashes seeds, widened w0, widened w1,
        (gOfR hashes (blindingCoefficients hashes seeds)).toList, mu⟩ := {
      widthT := (u16Canonical canonicalT).1
      widthB := (u16Canonical canonicalB).1
      enoughR := (blindedWidth seeds).ge
      enough0 := (widenedWidth w0).ge
      enough1 := (widenedWidth w1).ge
      bounded := blindingBounded seeds
      rho := rfl
      relation := ⟨point, blinded.hashed, by
        rw [frontWhole (widenedWidth w0), frontWhole (widenedWidth w1), frontWhole (blindedWidth seeds)]
        exact relation⟩
      short := by
        rw [frontWhole (widenedWidth w0), frontWhole (widenedWidth w1)]
        unfold normBoundSquared at short ⊢
        rw [Int.bmod_eq_of_le (by omega) (by omega)]
        exact short }
    obtain ⟨out, ⟨draws, ran⟩, valid, _⟩ := Nizk2.checkedAccepted checked
    exact ⟨draws, out, ran, valid⟩

/- The presentation of the credential, for any scope the guest takes. -/
def presentationInput (t16 : List UInt16) (instance_ : BlindInstance) (w0 w1 : Vector Int16 512) (serial nullifier : Vector UInt8 32)
    (scope : Bytes) : CredentialPresentationInput :=
  ⟨t16, instance_.request.b, 0, 0, scope, nullifier, instance_.witness.r, widened w0, widened w1, serial⟩

theorem blindedPresents {t16 : List UInt16} {w0 w1 : Vector Int16 512} {serial : Vector UInt8 32}
    (blinded : Blinded hashes b (Presentation.credentialMu 0 0 serial) seeds point c a pk ct instance_) (canonicalB : Canonical (ofU16 b))
    (canonicalT : Canonical (ofU16 t16)) (small0 : ∀ x ∈ widened w0, -10499 ≤ x.toInt ∧ x.toInt ≤ 10499)
    (small1 : ∀ x ∈ widened w1, -10499 ≤ x.toInt ∧ x.toInt ≤ 10499)
    (short : squares (ofI32 (widened w0)) + squares (ofI32 (widened w1)) ≤ normBoundSquared)
    (relation : residue (ofU16 t16) * residue (ofI32 (widened w0)) + residue (ofI32 (widened w1)) =
      residue (ofU16 b) * residue (ofI32 (blindingCoefficients hashes seeds)) + residue point) {scope : Bytes} (fits : scope.length ≤ 4096) :
    ∃ nullifier, Credential.deriveNullifier hashes serial 0 0 scope = .ok nullifier ∧
      ∃ draws out, Presentation.main hashes draws (presentationInput t16 instance_ w0 w1 serial nullifier scope) = some out ∧
        out.valid = true ∧ out.nullifier = nullifier := by
  obtain rfl := blinded.made
  refine ⟨_, Presentation.nullifierAgrees hashes serial 0 0 (by omega), ?_⟩
  have ringPoly {v : List UInt16} (canonical : Canonical (ofU16 v)) : Presentation.canonicalRingPoly v = true :=
    Presentation.canonicalRingPolyOk.mpr ⟨(u16Canonical canonical).1, fun x mem => by
      have reduced := (u16Canonical canonical).2 x mem
      unfold q
      omega⟩
  have shape : Presentation.shapeOk (presentationInput t16 ⟨⟨b, toU16 c, bytesToHex (gOfR hashes (blindingCoefficients hashes seeds)).toList,
      toU16 a, toU16 pk, toU16 ct.ct1R, toU16 ct.ct2R, toU16 ct.ct1Mu, toU16 ct.ct2Mu⟩, ⟨blindingCoefficients hashes seeds,
      Presentation.credentialMu 0 0 serial, bytesToHex seeds.coins.toList⟩⟩ w0 w1 serial
      (Presentation.deriveNullifier hashes serial 0 0 scope) scope) = true := by
    simp only [Presentation.shapeOk, presentationInput, ringPoly canonicalT, ringPoly canonicalB, blindedWidth seeds,
      (boundedMeaning _).mpr (blindingBounded seeds), Presentation.boundedOk.mpr ⟨widenedWidth w0, small0⟩,
      Presentation.boundedOk.mpr ⟨widenedWidth w1, small1⟩, Presentation.maxPresentationScopeBytes, fits, Presentation.credentialEpochV1,
      beq_self_eq_true, decide_true, Bool.and_self]
  exact Presentation.presentsAccepted ⟨shape, ⟨point, blinded.hashed, relation⟩, short, rfl⟩

end Blinded

/- Whatever the trapdoor and the seeds: what the client blinds is proved, what the signer accepts is carried over the wire and
finalised, and the credential is presented. The signature's halves have the ring's own length. -/
theorem honestRunAccepted (hashes : Hashes) (key : Blns7933.TrapdoorKey) (publicKey : Blns7933.PublicKey)
    (derived : Blns7933.derivePublic Blns7933.productionRing key = .ok publicKey) (b : List UInt16) (canonicalB : Canonical (ofU16 b))
    (seeds : Seeds) (serial : Credential.CredentialSerial) (mu : Bytes) (message : Credential.credentialMessage { serial } = .ok mu)
    (draws : Nat) (instance_ : BlindInstance) (built : userBlind hashes draws b mu seeds = some (.ok instance_)) :
    ∃ t, polyToU16Array publicKey.t "q7933 public key t" = .ok t ∧
      (∃ input, nizk1Input instance_ = .ok input ∧ ∃ draws out, Nizk1.main hashes draws input = some out ∧ out.valid = true) ∧
      ∀ signature : Blns7933.Signature, signature.s0.length = 512 → signature.s1.length = 512 →
        Blns7933.verifyTarget Blns7933.productionRing publicKey (arrayToPoly instance_.request.c) signature
          Blns7933.productionNormBoundSquared = .ok true →
        ∃ w0 w1, q7933PolyToI16Array signature.s0 "q7933 signature s0" = .ok w0 ∧
          q7933PolyToI16Array signature.s1 "q7933 signature s1" = .ok w1 ∧
          w0.toList.map Int16.toInt = signature.s0 ∧ w1.toList.map Int16.toInt = signature.s1 ∧
          Wire.Reads (readI16Array 512) (writeI16Array w0.toList) w0.toList ∧
          Wire.Reads (readI16Array 512) (writeI16Array w1.toList) w1.toList ∧
          (∃ input, nizk2Input (finalizeRequest t.toList instance_ w0 w1) = .ok input ∧
            ∃ draws out, Nizk2.main hashes draws input = some out ∧ out.valid = true) ∧
          ∀ scope : Bytes, scope.length ≤ 4096 →
            ∃ nullifier, Credential.deriveNullifier hashes serial 0 0 scope = .ok nullifier ∧
              ∃ draws out, Presentation.main hashes draws (presentationInput t.toList instance_ w0 w1 serial nullifier scope) = some out ∧
                out.valid = true ∧ out.nullifier = nullifier := by
  obtain rfl := Except.ok.inj (message.symm.trans (Presentation.messageAgrees serial))
  obtain ⟨point, c, a, pk, ct, blinded⟩ := blindMade canonicalB built
  obtain ⟨t, array, canonicalT, sameT⟩ := announced (Blns7933.publicResidue derived).1 "q7933 public key t"
  refine ⟨t, array, blindedProves blinded canonicalB, fun signature width0 width1 verified => ?_⟩
  obtain ⟨coefficients0, coefficients1⟩ := coefficientsSmall (verifiedMeaning verified).1
  obtain ⟨w0, converted0, same0⟩ := i16Converts "q7933 signature s0" width0 coefficients0
  obtain ⟨w1, converted1, same1⟩ := i16Converts "q7933 signature s1" width1 coefficients1
  have reads (w : Vector Int16 512) : Wire.Reads (readI16Array 512) (writeI16Array w.toList) w.toList := by
    have whole := i16Reads w.toList
    rwa [Vector.length_toList] at whole
  obtain ⟨short, relation⟩ := blindedSigned blinded sameT same0 same1 verified
  have small0 := widenedSmall same0 coefficients0
  have small1 := widenedSmall same1 coefficients1
  exact ⟨w0, w1, converted0, converted1, same0, same1, reads w0, reads w1,
    blindedFinalizes blinded canonicalB canonicalT small0 small1 short relation,
    fun scope fits => blindedPresents blinded canonicalB canonicalT small0 small1 short relation fits⟩

/-! A run of the real hashes. The trapdoor is made for the target, so that the first unit vector signs it. -/

theorem blindsWhenDrawn {draws : Nat} {b : List UInt16} {mu : Bytes} {seeds : Seeds} {point a pk : List Int64}
    (canonicalB : Canonical (ofU16 b))
    (hashed : hashToPoint hashes draws (hOfRhoMu hashes (gOfR hashes (blindingCoefficients hashes seeds)).toList mu) = some point)
    (drawnA : uniformPolyFromSeed hashes draws seeds.a.toList (ascii "a") = some a)
    (drawnPk : uniformPolyFromSeed hashes draws seeds.pk.toList (ascii "pk") = some pk) :
    ∃ instance_, userBlind hashes draws b mu seeds = some (.ok instance_) := by
  have shape := @blindingShape hashes seeds
  obtain ⟨br, c, product, added, _, _⟩ := targetMeaning (b := b) (r := blindingCoefficients hashes seeds) (u16Canonical canonicalB).1
    (blindedWidth seeds).ge (hashToPointCanonical hashed)
  rw [blindingBack] at product
  have canonicalA := uniformCanonical drawnA
  have canonicalPk := uniformCanonical drawnPk
  obtain ⟨ct, encrypted, _⟩ := generateMeaning hashes seeds.coins.toList mu shape.1.ge (withinMono (by norm_num) shape.2) canonicalA.width
    (canonicalWithin canonicalA) canonicalPk.width (canonicalWithin canonicalPk)
  rw [blindingCoefficients] at hashed
  rw [blindingVector] at product encrypted hashed
  rw [userBlind, validatePasses "--b-hex" canonicalB]
  simp only [hashed, product, added, drawnA, drawnPk, encrypted, Option.bind_eq_bind, Option.bind_some]
  exact ⟨_, rfl⟩

def unitKey (ring : Blns7933.RingArithmetic) (t : List Int) : Blns7933.TrapdoorKey := ⟨t, [1], [-(ring.modulus : Int)], [0]⟩

section UnitKey
variable {ring : Blns7933.RingArithmetic} {t : List Int} (canonical : Blns7933.Canonical ring t)
include canonical

theorem unitKeyRelation : Blns7933.verifyNtruRelation ring (unitKey ring t) = .ok true := by
  have positive := ring.positive
  obtain ⟨fG, first⟩ : ∃ fG, Blns7933.exactMul Blns7933.integerTooLong ring.degree t [0] = .ok fG :=
    Blns7933.exactMulTotal Blns7933.integerTooLong canonical.width.le positive
  obtain ⟨gF, second⟩ : ∃ gF, Blns7933.exactMul Blns7933.integerTooLong ring.degree [1] [-(ring.modulus : Int)] = .ok gF :=
    Blns7933.exactMulTotal Blns7933.integerTooLong positive positive
  obtain ⟨widthG, worthG⟩ := Blns7933.exactMulMeaning first
  obtain ⟨widthF, worthF⟩ := Blns7933.exactMulMeaning second
  obtain ⟨lhs, difference⟩ := Blns7933.exactSubTotal Blns7933.integerTooLong widthG.le widthF.le
  obtain ⟨width, worth⟩ := Blns7933.exactSubMeaning difference
  have same : lhs = (List.replicate ring.degree 0).set 0 (ring.modulus : Int) := by
    refine Coefficients.elementInj positive width (by simp) ?_
    obtain ⟨rest, succ⟩ := Nat.exists_eq_succ_of_ne_zero positive.ne'
    rw [worth, worthG, worthF]
    simp [Coefficients.element, succ, List.replicate_succ]
  simp only [Blns7933.verifyNtruRelation, bind_ok, pure_ok, decide_eq_true_iff]
  exact ⟨fG, first, gF, second, lhs, difference, same⟩

theorem unitKeyDerives (one : Blns7933.scalarInverse 1 ring.modulus = some 1) :
    Blns7933.derivePublic ring (unitKey ring t) = .ok ⟨t⟩ := by
  have inverted := Blns7933.inverseOne one
  obtain ⟨product, multiplied⟩ := Blns7933.mulTotal canonical.width.le (@Blns7933.basisCanonical ring 0).width.le
  obtain ⟨canonicalProduct, worth⟩ := Blns7933.mulMeaning multiplied
  have same : product = t := Blns7933.canonicalInj canonicalProduct canonical (by rw [worth, Blns7933.basisResidue, mul_one])
  have fits : ¬((unitKey ring t).f.length > ring.degree ∨ (unitKey ring t).g.length > ring.degree) := by
    rw [not_or, not_lt, not_lt]
    exact ⟨canonical.width.le, ring.positive⟩
  rw [Blns7933.derivePublic]
  refine check_ok.mpr ⟨throwIf_ok.mpr fits, bind_ok.mpr ⟨some (ring.basis 0), inverted, bind_ok.mpr ⟨product, multiplied, ?_⟩⟩⟩
  rw [same]
  rfl

/- The unit vector signs the key's own polynomial. -/
theorem unitSigns {s0 s1 : List Int} {bound : Int} (short : Blns7933.normSquared ⟨s0, s1⟩ ≤ bound) (short0 : s0.length ≤ ring.degree)
    (short1 : s1.length ≤ ring.degree) (unit : Blns7933.residue ring s0 = 1) (zero : Blns7933.residue ring s1 = 0) :
    Blns7933.verifyTarget ring ⟨t⟩ t ⟨s0, s1⟩ bound = .ok true := by
  obtain ⟨product, multiplied⟩ := Blns7933.mulTotal canonical.width.le short0
  obtain ⟨canonicalProduct, worth⟩ := Blns7933.mulMeaning multiplied
  obtain ⟨lhs, added⟩ := Blns7933.addTotal canonicalProduct.width.le short1
  obtain ⟨canonicalLhs, sum⟩ := Blns7933.addMeaning added
  have same : lhs = t := Blns7933.canonicalInj canonicalLhs canonical (by rw [sum, worth, unit, zero, mul_one, add_zero])
  rw [Blns7933.verifyComputed short multiplied added, Blns7933.equalCanonical canonicalLhs canonical, decide_eq_true same]

end UnitKey

namespace Example

def seeds : Seeds := ⟨Vector.replicate 32 0, Vector.replicate 32 0, Vector.replicate 32 0, Vector.replicate 32 0⟩
def b : List UInt16 := List.replicate 512 0
def serial : Credential.CredentialSerial := Vector.replicate 32 0
def mu : Bytes := Presentation.credentialMu 0 0 serial

theorem commitmentIs : (gOfR standardHashes (blindingCoefficients standardHashes seeds)).toList = [250, 148, 64, 86, 216, 156, 184, 131,
    14, 177, 202, 79, 33, 176, 54, 68, 1, 140, 34, 164, 13, 28, 114, 138, 223, 41, 113, 148, 19, 13, 131, 127] := by
  decide +kernel

theorem drawn : (hashToPoint standardHashes 900 (hOfRhoMu standardHashes
      (gOfR standardHashes (blindingCoefficients standardHashes seeds)).toList mu)).isSome = true ∧
    (uniformPolyFromSeed standardHashes 900 seeds.a.toList (ascii "a")).isSome = true ∧
    (uniformPolyFromSeed standardHashes 900 seeds.pk.toList (ascii "pk")).isSome = true := by
  rw [commitmentIs]
  refine ⟨?_, ?_, ?_⟩
  · decide +kernel
  · decide +kernel
  · decide +kernel

theorem prepared : ∃ instance_, userBlind standardHashes 900 b mu seeds = some (.ok instance_) ∧
    Blns7933.Canonical Blns7933.productionRing (arrayToPoly instance_.request.c) := by
  obtain ⟨hashed, drawnA, drawnPk⟩ := drawn
  obtain ⟨point, hashed⟩ := Option.isSome_iff_exists.mp hashed
  obtain ⟨a, drawnA⟩ := Option.isSome_iff_exists.mp drawnA
  obtain ⟨pk, drawnPk⟩ := Option.isSome_iff_exists.mp drawnPk
  obtain ⟨instance_, built⟩ := blindsWhenDrawn zerosCanonical16 hashed drawnA drawnPk
  obtain ⟨point, c, a, pk, ct, blinded⟩ := blindMade zerosCanonical16 built
  refine ⟨instance_, built, ?_⟩
  rw [blinded.made, arrayInts, canonicalBack blinded.target]
  exact canonicalInts rfl rfl blinded.target

theorem inverseOfOne : Blns7933.scalarInverse 1 Blns7933.productionRing.modulus = some 1 := by decide +kernel

def unit (rest : Nat) : List Int := 1 :: List.replicate rest 0

theorem unitResidue (ring : Blns7933.RingArithmetic) (rest : Nat) : Blns7933.residue ring (unit rest) = 1 := by
  simp [unit, Blns7933.residue, Coefficients.element]

theorem zeroResidue (ring : Blns7933.RingArithmetic) (rest : Nat) : Blns7933.residue ring (List.replicate rest 0) = 0 := by
  simp [Blns7933.residue, Coefficients.element]

theorem unitShort (rest other : Nat) :
    Blns7933.normSquared ⟨unit rest, List.replicate other 0⟩ ≤ Blns7933.productionNormBoundSquared := by
  have norm : Blns7933.normSquared ⟨unit rest, List.replicate other 0⟩ = 1 := by simp [Blns7933.normSquared, unit]
  rw [norm]
  decide

end Example

open Blns7933 (productionRing productionNormBoundSquared verifyNtruRelation derivePublic verifyTarget) in
theorem honestRunExample : ∃ key publicKey instance_ t signature, verifyNtruRelation productionRing key = .ok true ∧
    derivePublic productionRing key = .ok publicKey ∧ Credential.credentialMessage { serial := Example.serial } = .ok Example.mu ∧
    userBlind standardHashes 900 Example.b Example.mu Example.seeds = some (.ok instance_) ∧
    polyToU16Array publicKey.t "q7933 public key t" = .ok t ∧
    verifyTarget productionRing publicKey (arrayToPoly instance_.request.c) signature productionNormBoundSquared = .ok true ∧
    (∃ input, nizk1Input instance_ = .ok input ∧ ∃ draws out, Nizk1.main standardHashes draws input = some out ∧ out.valid = true) ∧
    ∃ w0 w1, q7933PolyToI16Array signature.s0 "q7933 signature s0" = .ok w0 ∧
      q7933PolyToI16Array signature.s1 "q7933 signature s1" = .ok w1 ∧
      (∃ input, nizk2Input (finalizeRequest t.toList instance_ w0 w1) = .ok input ∧
        ∃ draws out, Nizk2.main standardHashes draws input = some out ∧ out.valid = true) ∧
      ∃ nullifier, Credential.deriveNullifier standardHashes Example.serial 0 0 (ascii "market") = .ok nullifier ∧
        ∃ draws out, Presentation.main standardHashes draws
          (presentationInput t.toList instance_ w0 w1 Example.serial nullifier (ascii "market")) = some out ∧
          out.valid = true ∧ out.nullifier = nullifier := by
  obtain ⟨instance_, built, canonical⟩ := Example.prepared
  have derived := unitKeyDerives canonical Example.inverseOfOne
  have message := Presentation.messageAgrees Example.serial
  have width0 : (Example.unit 511).length = 512 := by rw [Example.unit, List.length_cons, List.length_replicate]
  have width1 : (List.replicate 512 (0 : Int)).length = 512 := List.length_replicate ..
  have signed := unitSigns canonical (Example.unitShort 511 512) width0.le width1.le (Example.unitResidue _ 511)
    (Example.zeroResidue _ 512)
  obtain ⟨t, announced, proves, finishes⟩ := honestRunAccepted standardHashes _ _ derived Example.b zerosCanonical16 Example.seeds
    Example.serial Example.mu message 900 instance_ built
  obtain ⟨w0, w1, converted0, converted1, _, _, _, _, finalizes, presents⟩ := finishes _ width0 width1 signed
  exact ⟨_, _, instance_, t, _, unitKeyRelation canonical, derived, message, built, announced, signed, proves, w0, w1, converted0,
    converted1, finalizes, presents (ascii "market") (by decide)⟩

/- The verifier pads a short half with zeros; the wire has no place for one. -/
open Blns7933 (productionRing productionNormBoundSquared verifyNtruRelation derivePublic verifyTarget) in
theorem shortSignatureRefused : ∃ key publicKey instance_, verifyNtruRelation productionRing key = .ok true ∧
    derivePublic productionRing key = .ok publicKey ∧ Canonical (ofU16 Example.b) ∧
    Credential.credentialMessage { serial := Example.serial } = .ok Example.mu ∧
    userBlind standardHashes 900 Example.b Example.mu Example.seeds = some (.ok instance_) ∧
    verifyTarget productionRing publicKey (arrayToPoly instance_.request.c) ⟨[1], []⟩ productionNormBoundSquared = .ok true ∧
    q7933PolyToI16Array [1] "q7933 signature s0" = .error (.runtimeError "q7933 signature s0 has unexpected degree") := by
  obtain ⟨instance_, built, canonical⟩ := Example.prepared
  have signed := unitSigns canonical (Example.unitShort 0 0) productionRing.positive (Nat.zero_le _) (Example.unitResidue _ 0)
    (Example.zeroResidue _ 0)
  exact ⟨_, _, instance_, unitKeyRelation canonical, unitKeyDerives canonical Example.inverseOfOne, zerosCanonical16,
    Presentation.messageAgrees Example.serial, built, signed, rfl⟩

end TradeP2P.Prover
