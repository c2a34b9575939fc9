import Mathlib.Tactic.NormNum.Prime
import TradeP2P.Blind.Inverse
import TradeP2P.Blind.Sign
import TradeP2P.Identity.LifeCycle
import TradeP2P.Lib.Refusals
import TradeP2P.Lib.Sha256

/-! The signer's keystore: its trapdoor, public key and `b` in a file, sealed under a key derived from a passphrase.
Whoever has the passphrase may have sealed anything; what is opened is checked like a key the signer is made with. -/
namespace TradeP2P.Q7933Keystore
open Wire (Bytes Reader bigEndian readAll readMany takePrefixed takePrefixed32)
open Checks
open Aead (Sealed)
open Blns7933 (RingArithmetic productionRing TrapdoorKey PublicKey PolyQ verifyNtruRelation derivePublic validateCanonicalPoly
  Canonical residue)

def q7933KeystoreFormatVersion : UInt16 := 1
def magic : Vector UInt8 4 := #v[0x54, 0x50, 0x51, 0x37]
def maxCiphertextLength : Nat := 65536
def payloadVersion : UInt8 := 1

def truncated : KeystoreError := .format "truncated q7933 keystore file"
def trailing : KeystoreError := .format "trailing bytes after q7933 keystore record"
def tooLong : KeystoreError := .format "q7933 keystore field exceeds maximum allowed length"

abbrev u8 : Reader KeystoreError UInt8 := Wire.u8 truncated
abbrev u16 : Reader KeystoreError UInt16 := Wire.u16 truncated
abbrev u32 : Reader KeystoreError UInt32 := Wire.u32 truncated
abbrev fixed (n : Nat) : Reader KeystoreError (Vector UInt8 n) := Wire.fixed truncated n
abbrev bytesU16 (maxLen : Nat) : Reader KeystoreError Bytes := takePrefixed truncated tooLong maxLen
abbrev bytesU32 (maxLen : Nat) : Reader KeystoreError Bytes := takePrefixed32 truncated tooLong maxLen

def i64 : Reader KeystoreError Int64 := do
  let bits ← Wire.u64 truncated
  return bits.toInt64

def writeI64 (value : Int64) : Bytes := bigEndian 8 value.toUInt64.toNat

def poly (count : Nat) : Reader KeystoreError (List Int64) := readMany i64 count

def writePoly (value : List Int64) : Bytes := value.flatMap writeI64

/-! The payload: six polynomials, and before them the ring they belong to. -/

structure DecodedPayload where
  f : List Int64
  g : List Int64
  capF : List Int64
  capG : List Int64
  t : List Int64
  b : List Int64
  deriving DecidableEq, Repr

def ints (words : List Int64) : PolyQ := words.map Int64.toInt

def DecodedPayload.trapdoor (payload : DecodedPayload) : TrapdoorKey :=
  ⟨ints payload.f, ints payload.g, ints payload.capF, ints payload.capG⟩

def DecodedPayload.publicKey (payload : DecodedPayload) : PublicKey := ⟨ints payload.t⟩

def degree : UInt32 := 512
def modulus : Int64 := 7933

def encodePayload (payload : DecodedPayload) : Bytes :=
  [payloadVersion] ++ (bigEndian 4 degree.toNat ++ (writeI64 modulus ++ (writePoly payload.f ++ (writePoly payload.g ++
    (writePoly payload.capF ++ (writePoly payload.capG ++ (writePoly payload.t ++ writePoly payload.b)))))))

def readPayload : Reader KeystoreError DecodedPayload := do
  let version ← u8
  throwIf (version ≠ payloadVersion) (KeystoreError.format "unsupported q7933 keystore payload version")
  let ringDegree ← u32
  throwIf (ringDegree ≠ degree) (KeystoreError.format "q7933 keystore payload has the wrong ring degree")
  let ringModulus ← i64
  throwIf (ringModulus ≠ modulus) (KeystoreError.format "q7933 keystore payload has the wrong ring modulus")
  let f ← poly ringDegree.toNat
  let g ← poly ringDegree.toNat
  let capF ← poly ringDegree.toNat
  let capG ← poly ringDegree.toNat
  let t ← poly ringDegree.toNat
  let b ← poly ringDegree.toNat
  return { f, g, capF, capG, t, b }

def decodePayload (plaintext : Bytes) : Except KeystoreError DecodedPayload := readAll trailing readPayload plaintext

/-! The file. What stands in the clear is the associated data of the payload. -/

structure Header where
  kdfAlgorithm : KdfAlgorithm
  kdfSalt : Bytes
  kdfMemcostKib : UInt32
  kdfIterations : UInt32
  kdfLanes : UInt32
  deriving DecidableEq, Repr

structure DecodedFile where
  formatVersion : UInt16
  header : Header
  nonce : Aead.Nonce
  ciphertext : Bytes
  tag : Aead.Tag
  aad : Bytes
  deriving DecidableEq, Repr

def readKdfAlgorithm : Reader KeystoreError KdfAlgorithm := do
  let raw ← u8
  if raw = KdfAlgorithm.argon2id.toByte then return .argon2id
  else if raw = KdfAlgorithm.pbkdf2Sha256Fallback.toByte then return .pbkdf2Sha256Fallback
  else throw (.format "unknown KDF algorithm identifier")

def readFile (bytes : Bytes) : Reader KeystoreError DecodedFile := do
  let fileMagic ← fixed 4
  throwIf (fileMagic ≠ magic) (KeystoreError.format "not a tradep2p q7933 keystore file (bad magic)")
  let formatVersion ← u16
  throwIf (formatVersion ≠ q7933KeystoreFormatVersion) (KeystoreError.format "unsupported q7933 keystore format version")
  let kdfAlgorithm ← readKdfAlgorithm
  let kdfSalt ← bytesU16 maxKdfSaltLength
  let kdfMemcostKib ← u32
  let kdfIterations ← u32
  let kdfLanes ← u32
  let aeadAlgorithm ← u8
  throwIf (aeadAlgorithm ≠ AeadAlgorithm.chaCha20Poly1305.toByte) (KeystoreError.format "unknown AEAD algorithm identifier")
  let aadLength ← Wire.position bytes
  let nonce ← fixed 12
  let ciphertext ← bytesU32 maxCiphertextLength
  let tag ← fixed 16
  return { formatVersion, header := { kdfAlgorithm, kdfSalt, kdfMemcostKib, kdfIterations, kdfLanes }
           nonce, ciphertext, tag, aad := bytes.take aadLength }

def decodeFile (bytes : Bytes) : Except KeystoreError DecodedFile := readAll trailing (readFile bytes) bytes

def encodeHeader (header : Header) : Except Error Bytes := do
  let kdfSalt ← Wire.lengthPrefixed (.invalidArgument "q7933 keystore field exceeds u16 length prefix") header.kdfSalt 65535
  return magic.toList ++ (bigEndian 2 q7933KeystoreFormatVersion.toNat ++ ([header.kdfAlgorithm.toByte] ++ (kdfSalt ++
    (bigEndian 4 header.kdfMemcostKib.toNat ++ (bigEndian 4 header.kdfIterations.toNat ++
    (bigEndian 4 header.kdfLanes.toNat ++ [AeadAlgorithm.chaCha20Poly1305.toByte]))))))

def encodeFile (aad : Bytes) (nonce : Aead.Nonce) (sealing : Sealed) : Except Error Bytes := do
  throwIf (sealing.ciphertext.length > 4294967295) (Error.invalidArgument "q7933 keystore field exceeds u32 length prefix")
  return aad ++ (nonce.toList ++ (bigEndian 4 sealing.ciphertext.length ++ (sealing.ciphertext ++ sealing.tag.toList)))

/-! The checks. -/
section Invariants
variable (ring : RingArithmetic)

def requireCanonical (value : PolyQ) (fieldName : String) : Except KeystoreError Unit := do
  throwIf (value.length ≠ ring.degree) (KeystoreError.format ("q7933 keystore: " ++ fieldName ++ " has the wrong degree"))
  throwIf (value.any fun coeff => decide (coeff < 0 ∨ coeff ≥ (ring.modulus : Int)))
    (KeystoreError.format ("q7933 keystore: " ++ fieldName ++ " contains a non-canonical coefficient"))

def requireDegree (value : List Int) (name : String) : Except KeystoreError Unit :=
  throwIf (value.length ≠ ring.degree) (KeystoreError.format ("q7933 keystore: trapdoor " ++ name ++ " has the wrong degree"))

def validateInvariants (trapdoor : TrapdoorKey) (publicKey : PublicKey) (b : PolyQ) : Except KeystoreError Unit := do
  requireDegree ring trapdoor.f "f"
  requireDegree ring trapdoor.g "g"
  requireDegree ring trapdoor.capF "F"
  requireDegree ring trapdoor.capG "G"
  requireCanonical ring publicKey.t "public key t"
  requireCanonical ring b "b"
  let related ← IdentityKeystore.standardly (verifyNtruRelation ring trapdoor)
  throwIf (related = false) (KeystoreError.format "q7933 keystore: trapdoor fails the exact fG-gF=q relation")
  let derived ← IdentityKeystore.standardly (derivePublic ring trapdoor)
  let same ← IdentityKeystore.standardly (ring.equal derived.t publicKey.t)
  throwIf (same = false)
    (KeystoreError.format "q7933 keystore: stored public key t does not match f*g^-1 derived from the trapdoor")

/- What the constructor of the signer checks of a key, and the public key it derives. -/
def requireKeyPolySize (value : List Int) (name : String) : Except Error Unit :=
  throwIf (value.length ≠ ring.degree) (Error.invalidArgument ("q7933 signer adapter: trapdoor " ++ name ++ " has wrong degree"))

def signerPublicKey (trapdoor : TrapdoorKey) (b : PolyQ) : Except Error PublicKey := do
  requireKeyPolySize ring trapdoor.f "f"
  requireKeyPolySize ring trapdoor.g "g"
  requireKeyPolySize ring trapdoor.capF "F"
  requireKeyPolySize ring trapdoor.capG "G"
  validateCanonicalPoly ring b "B"
  let related ← verifyNtruRelation ring trapdoor
  throwIf (related = false) (Error.invalidArgument "q7933 signer adapter: trapdoor fails exact fG-gF=q relation")
  let publicKey ← derivePublic ring trapdoor
  validateCanonicalPoly ring publicKey.t "public key t"
  return publicKey

end Invariants

/-! Creating and unlocking. -/

/- What a call meets outside: whether Argon2id is there, what is drawn at random, and which of the library's and the
file system's own steps fail. -/
structure Env where
  argon2idAvailable : Bool
  kdfSalt : Except Error (Vector UInt8 16)
  nonce : Except Error Aead.Nonce
  deriveKey : Except Error Unit
  readFileAll : Except Error Unit
  write : Except Error Unit

section Files
variable (library : KeystoreLibrary) (path : String) (env : Env)

def chacha20poly1305Seal (key : Aead.Key) (nonce : Aead.Nonce) (aad plaintext : Bytes) : Except KeystoreError Sealed :=
  match library.cipher.encrypt key nonce aad plaintext with
  | some sealing => .ok sealing
  | none => .error (.standard (.runtimeError "failed to encrypt q7933 keystore payload"))

def chacha20poly1305Open (key : Aead.Key) (nonce : Aead.Nonce) (aad ciphertext : Bytes) (tag : Aead.Tag) :
    Except KeystoreError Bytes :=
  match library.cipher.decrypt key nonce aad ciphertext tag with
  | some plaintext => .ok plaintext
  | none => .error (.authentication "q7933 keystore authentication failed (wrong passphrase or corrupted file)")

def headerKey (header : Header) (passphrase : Bytes) : Aead.Key :=
  deriveAeadKey library header.kdfAlgorithm passphrase header.kdfSalt header.kdfMemcostKib header.kdfIterations header.kdfLanes

def freshHeader (kdfSalt : Vector UInt8 16) : Header where
  kdfAlgorithm := if env.argon2idAvailable then .argon2id else .pbkdf2Sha256Fallback
  kdfSalt := kdfSalt.toList
  kdfMemcostKib := if env.argon2idAvailable then argon2DefaultMemCostKib else 0
  kdfIterations := if env.argon2idAvailable then argon2DefaultIterations else pbkdf2FallbackIterations
  kdfLanes := if env.argon2idAvailable then argon2DefaultLanes else 0

def writeNewExclusive (file : Option Bytes) (bytes : Bytes) : Except KeystoreError Bytes := do
  throwIf file.isSome (KeystoreError.alreadyExists ("refusing to overwrite existing file: " ++ path))
  IdentityKeystore.standardly env.write
  return bytes

def readFileAll (file : Option Bytes) : Except KeystoreError Bytes :=
  match file with
  | none => .error (.standard (.runtimeError ("cannot open q7933 keystore file: " ++ path)))
  | some raw => do
      IdentityKeystore.standardly env.readFileAll
      return raw

/- The new contents of the file. -/
def create (file : Option Bytes) (passphrase : Bytes) (payload : DecodedPayload) : Except KeystoreError Bytes := do
  validateInvariants productionRing payload.trapdoor payload.publicKey (ints payload.b)
  let kdfSalt ← IdentityKeystore.standardly env.kdfSalt
  IdentityKeystore.standardly env.deriveKey
  let nonce ← IdentityKeystore.standardly env.nonce
  let header := freshHeader env kdfSalt
  let aad ← IdentityKeystore.standardly (encodeHeader header)
  let sealing ← chacha20poly1305Seal library (headerKey library header passphrase) nonce aad (encodePayload payload)
  let bytes ← IdentityKeystore.standardly (encodeFile aad nonce sealing)
  writeNewExclusive path env file bytes

def unlock (file : Option Bytes) (passphrase : Bytes) : Except KeystoreError DecodedPayload := do
  let raw ← readFileAll path env file
  let decoded ← decodeFile raw
  IdentityKeystore.standardly env.deriveKey
  let plaintext ← chacha20poly1305Open library (headerKey library decoded.header passphrase) decoded.nonce decoded.aad
    decoded.ciphertext decoded.tag
  let payload ← decodePayload plaintext
  validateInvariants productionRing payload.trapdoor payload.publicKey (ints payload.b)
  return payload

end Files
/-! What is written is read back. -/
section RoundTrip

theorem readsI64 (value : Int64) : Wire.Reads i64 (writeI64 value) value := by
  have read := (Wire.readsU64 truncated value.toUInt64).returns UInt64.toInt64
  rwa [Int64.toInt64_toUInt64] at read

theorem readsPoly (value : List Int64) : Wire.Reads (poly value.length) (writePoly value) value := by
  induction value with
  | nil => exact .pure _
  | cons coefficient rest ih => exact (readsI64 coefficient).bind (ih.returns _)

theorem writePolyLength (value : List Int64) : (writePoly value).length = 8 * value.length := by
  induction value with
  | nil => rfl
  | cons coefficient rest ih =>
      rw [writePoly, List.flatMap_cons, List.length_append, ← writePoly, ih, writeI64, Wire.bigEndianLength, List.length_cons]
      omega

/- As many coefficients as the ring has. -/
structure DecodedPayload.Sized (payload : DecodedPayload) : Prop where
  f : payload.f.length = 512
  g : payload.g.length = 512
  capF : payload.capF.length = 512
  capG : payload.capG.length = 512
  t : payload.t.length = 512
  b : payload.b.length = 512

theorem decodeEncodePayload {payload : DecodedPayload} (sized : payload.Sized) :
    decodePayload (encodePayload payload) = .ok payload := by
  have reads {value : List Int64} (length : value.length = 512) : Wire.Reads (poly degree.toNat) (writePoly value) value := by
    have read := readsPoly value
    rwa [length] at read
  suffices whole : Wire.Reads readPayload (encodePayload payload) payload from whole.exhausts.readAll _
  have version : Wire.Reads u8 [payloadVersion] payloadVersion := Wire.readsU8 _ payloadVersion
  refine version.bind (.behind (throwIf_not (not_not.mpr rfl)) ?_)
  refine (Wire.readsU32 _ degree).bind (.behind (throwIf_not (not_not.mpr rfl)) ?_)
  refine (readsI64 modulus).bind (.behind (throwIf_not (not_not.mpr rfl)) ?_)
  refine (reads sized.f).bind ((reads sized.g).bind ((reads sized.capF).bind ((reads sized.capG).bind ((reads sized.t).bind ?_))))
  exact (reads sized.b).returns _

theorem encodePayloadLength {payload : DecodedPayload} (sized : payload.Sized) : (encodePayload payload).length = 24589 := by
  have f := sized.f
  have g := sized.g
  have capF := sized.capF
  have capG := sized.capG
  have t := sized.t
  have b := sized.b
  simp only [encodePayload, List.length_append, writePolyLength, writeI64, Wire.bigEndianLength, List.length_cons, List.length_nil]
  omega

theorem readsKdfAlgorithm (algorithm : KdfAlgorithm) : Wire.Reads readKdfAlgorithm [algorithm.toByte] algorithm := by
  intro rest
  simp only [readKdfAlgorithm, Wire.bindRead, Wire.u8Read]
  refine ⟨_, _, rfl, ?_⟩
  cases algorithm <;> rfl

theorem decodesFile {header : Header} {aad raw : Bytes} {nonce : Aead.Nonce} {sealing : Sealed}
    (encoded : encodeHeader header = .ok aad) (written : encodeFile aad nonce sealing = .ok raw)
    (salted : header.kdfSalt.length ≤ maxKdfSaltLength) (small : sealing.ciphertext.length ≤ maxCiphertextLength) :
    decodeFile raw = .ok ⟨q7933KeystoreFormatVersion, header, nonce, sealing.ciphertext, sealing.tag, aad⟩ := by
  have bound : maxCiphertextLength < 2 ^ 32 := by decide
  simp only [encodeHeader, bind_ok, pure_ok, Wire.lengthPrefixedOk] at encoded
  obtain ⟨_, ⟨_, short, rfl⟩, same⟩ := encoded
  simp only [encodeFile, check_ok, pure_ok] at written
  obtain ⟨_, rfl⟩ := written
  simp only [decodeFile, Wire.readAllOk, readFile, Wire.bindRead, Wire.fixedRead, Wire.u16Read, Wire.u8Read, Wire.checkRead, throwIf_ok,
    Wire.takePrefixedRead, Wire.u32Read, Wire.positionRead, Wire.takePrefixed32Read bound, Wire.pureRead, ne_eq, not_not]
  refine ⟨magic, _, by rw [← same, List.append_assoc], (), _, ⟨rfl, rfl⟩, q7933KeystoreFormatVersion, _, by rw [List.append_assoc],
    (), _, ⟨rfl, rfl⟩, header.kdfAlgorithm, _, by rw [List.append_assoc]; exact readsKdfAlgorithm _ _, header.kdfSalt, _,
    ⟨salted, short, by rw [List.append_assoc]⟩, header.kdfMemcostKib, _, by rw [List.append_assoc],
    header.kdfIterations, _, by rw [List.append_assoc], header.kdfLanes, _, by rw [List.append_assoc],
    AeadAlgorithm.chaCha20Poly1305.toByte, _, rfl, (), _, ⟨rfl, rfl⟩, _, _, ⟨rfl, rfl⟩, nonce, _, rfl,
    sealing.ciphertext, _, ⟨small, rfl⟩, sealing.tag, [], by rw [List.append_nil], ?_, rfl⟩
  rw [Wire.takeFront]

end RoundTrip
/-! What the checks establish. -/
section Verdict
variable {ring : RingArithmetic} {trapdoor : TrapdoorKey} {publicKey : PublicKey} {b : PolyQ}
open Refusals
structure Degrees (ring : RingArithmetic) (trapdoor : TrapdoorKey) : Prop where
  f : trapdoor.f.length = ring.degree
  g : trapdoor.g.length = ring.degree
  capF : trapdoor.capF.length = ring.degree
  capG : trapdoor.capG.length = ring.degree

theorem standardly_ok {α : Type} {x : Except Error α} {a : α} : IdentityKeystore.standardly x = .ok a ↔ x = .ok a := by
  cases x <;> simp [IdentityKeystore.standardly]

theorem requireCanonicalOk {value : PolyQ} {fieldName : String} :
    requireCanonical ring value fieldName = .ok () ↔ Canonical ring value := by
  simp only [requireCanonical, check_ok, throwIf_ok, not_not, Bool.not_eq_true, List.any_eq_false, decide_eq_true_eq, not_or, not_lt,
    ge_iff_le, not_le]
  exact ⟨fun fine => ⟨fine.1, fine.2⟩, fun canonical => ⟨canonical.width, canonical.reduced⟩⟩

theorem relationTotal (degrees : Degrees ring trapdoor) : ∃ related, verifyNtruRelation ring trapdoor = .ok related := by
  obtain ⟨fG, first⟩ := Blns7933.exactMulTotal Blns7933.integerTooLong degrees.f.le degrees.capG.le
  obtain ⟨gF, second⟩ := Blns7933.exactMulTotal Blns7933.integerTooLong degrees.g.le degrees.capF.le
  obtain ⟨lhs, difference⟩ := Blns7933.exactSubTotal Blns7933.integerTooLong (Blns7933.exactMulMeaning first).1.le
    (Blns7933.exactMulMeaning second).1.le
  exact ⟨_, bind_ok.mpr ⟨fG, first, bind_ok.mpr ⟨gF, second, bind_ok.mpr ⟨lhs, difference, rfl⟩⟩⟩⟩

def notInvertible : Error := .runtimeError "BLNS7933 trapdoor g is not invertible modulo q"

theorem deriveDecides [Fact ring.modulus.Prime] (degrees : Degrees ring trapdoor) :
    (IsUnit (residue ring trapdoor.g) ∧ ∃ derived, derivePublic ring trapdoor = .ok derived) ∨
      ¬IsUnit (residue ring trapdoor.g) ∧ derivePublic ring trapdoor = .error notInvertible := by
  have short : throwIf (trapdoor.f.length > ring.degree ∨ trapdoor.g.length > ring.degree)
      (Error.invalidArgument "BLNS7933 trapdoor polynomial exceeds ring degree") = .ok () := by
    refine throwIf_not ?_
    have f := degrees.f
    have g := degrees.g
    omega
  obtain ⟨found, inverted, decides, inverse⟩ := Blns7933.inverseDecides degrees.g.le
  cases found with
  | none =>
      refine .inr ⟨fun unit => (by cases decides.mpr unit), ?_⟩
      rw [derivePublic, short, inverted]
      rfl
  | some gInv =>
      obtain ⟨t, multiplied⟩ := Blns7933.mulTotal degrees.f.le (inverse gInv rfl).1.width.le
      refine .inl ⟨decides.mp rfl, ⟨t⟩, ?_⟩
      rw [derivePublic, short, inverted]
      exact check_ok.mpr ⟨rfl, bind_ok.mpr ⟨some gInv, rfl, bind_ok.mpr ⟨t, multiplied, rfl⟩⟩⟩

/- The key meets its exact relation and `t` and `b` are canonical, but `g` has no inverse. -/
structure Singular (ring : RingArithmetic) (trapdoor : TrapdoorKey) (publicKey : PublicKey) (b : PolyQ) : Prop where
  degrees : Degrees ring trapdoor
  t : Canonical ring publicKey.t
  b : Canonical ring b
  relation : verifyNtruRelation ring trapdoor = .ok true
  noInverse : ¬IsUnit (residue ring trapdoor.g)

structure Checked (ring : RingArithmetic) (trapdoor : TrapdoorKey) (publicKey : PublicKey) (b : PolyQ) : Prop where
  degrees : Degrees ring trapdoor
  t : Canonical ring publicKey.t
  b : Canonical ring b
  relation : verifyNtruRelation ring trapdoor = .ok true
  derived : derivePublic ring trapdoor = .ok publicKey

theorem validateInvariantsOk : validateInvariants ring trapdoor publicKey b = .ok () ↔ Checked ring trapdoor publicKey b := by
  simp only [validateInvariants, requireDegree, check_ok, throwIf_ok, not_not, requireCanonicalOk]
  simp only [bind_ok, throwIf_ok, standardly_ok, Bool.not_eq_false, exists_const]
  constructor
  · intro fine
    obtain ⟨f, g, capF, capG, t, canonical, _, relation, rfl, derived, derives, _, compared, rfl⟩ := fine
    have shape := (Blns7933.publicResidue derives).1
    have same : derived.t = publicKey.t := by
      rw [Blns7933.equalCanonical shape t] at compared
      simpa using compared
    have key : derived = publicKey := congrArg PublicKey.mk same
    exact ⟨⟨f, g, capF, capG⟩, t, canonical, relation, derives.trans (congrArg _ key)⟩
  · intro checked
    refine ⟨checked.degrees.f, checked.degrees.g, checked.degrees.capF, checked.degrees.capG, checked.t, checked.b, true,
      checked.relation, rfl, publicKey, checked.derived, true, ?_, rfl⟩
    simp [Blns7933.equalCanonical checked.t checked.t]

/- The signer takes what the keystore took, and derives the public key that was kept. -/
theorem signerPublicKeyOk (checked : Checked ring trapdoor publicKey b) : signerPublicKey ring trapdoor b = .ok publicKey := by
  simp only [signerPublicKey, requireKeyPolySize, check_ok, throwIf_ok, not_not, Blns7933.validateOk]
  simp only [bind_ok, throwIf_ok, Bool.not_eq_false, pure_ok, exists_const]
  exact ⟨checked.degrees.f, checked.degrees.g, checked.degrees.capF, checked.degrees.capG, checked.b, true, checked.relation, rfl,
    publicKey, checked.derived, (), Blns7933.validateOk.mpr checked.t, rfl⟩

def IsFormat (e : KeystoreError) : Prop := ∃ text, e = .format text

theorem requireCanonicalFails (value : PolyQ) (fieldName : String) : Fails IsFormat (requireCanonical ring value fieldName) :=
  (failsThrowIf _ fun _ => ⟨_, rfl⟩).bind fun _ _ => failsThrowIf _ fun _ => ⟨_, rfl⟩

theorem requireDegreeFails (value : List Int) (name : String) : Fails IsFormat (requireDegree ring value name) :=
  failsThrowIf _ fun _ => ⟨_, rfl⟩

/- Whatever else is wrong is a format error. -/
theorem validateInvariantsFails [Fact ring.modulus.Prime] (inverse : ¬Singular ring trapdoor publicKey b) :
    Fails IsFormat (validateInvariants ring trapdoor publicKey b) := by
  refine (requireDegreeFails _ _).bind fun _ f => (requireDegreeFails _ _).bind fun _ g => (requireDegreeFails _ _).bind fun _ capF =>
    (requireDegreeFails _ _).bind fun _ capG => (requireCanonicalFails _ _).bind fun _ t => (requireCanonicalFails _ _).bind fun _ canonical => ?_
  simp only [requireDegree, throwIf_ok, not_not] at f g capF capG
  have degrees : Degrees ring trapdoor := ⟨f, g, capF, capG⟩
  obtain ⟨related, relation⟩ := relationTotal degrees
  rw [relation]
  refine (failsOk _).bind fun related' same => ?_
  obtain rfl : related = related' := Except.ok.inj same
  refine (failsThrowIf _ fun _ => ⟨_, rfl⟩).bind fun _ holds => ?_
  obtain rfl : related = true := by simpa [throwIf_ok] using holds
  rcases deriveDecides degrees with ⟨_, derived, derives⟩ | ⟨noInverse, _⟩
  · have shape := (Blns7933.publicResidue derives).1
    rw [derives]
    refine (failsOk _).bind fun derived' same => ?_
    obtain rfl : derived = derived' := Except.ok.inj same
    rw [Blns7933.equalCanonical shape (requireCanonicalOk.mp t)]
    exact (failsOk _).bind fun _ _ => failsThrowIf _ fun _ => ⟨_, rfl⟩
  · exact absurd ⟨degrees, requireCanonicalOk.mp t, requireCanonicalOk.mp canonical, relation, noInverse⟩ inverse

theorem validateInvariantsSingular [Fact ring.modulus.Prime] (singular : Singular ring trapdoor publicKey b) :
    validateInvariants ring trapdoor publicKey b = .error (.standard notInvertible) := by
  have sized (value : List Int) (name : String) (length : value.length = ring.degree) : requireDegree ring value name = .ok () :=
    throwIf_not (not_not.mpr length)
  rcases deriveDecides singular.degrees with ⟨unit, _⟩ | ⟨_, fails⟩
  · exact absurd unit singular.noInverse
  · rw [validateInvariants, sized _ _ singular.degrees.f, sized _ _ singular.degrees.g, sized _ _ singular.degrees.capF,
      sized _ _ singular.degrees.capG, requireCanonicalOk.mpr singular.t, requireCanonicalOk.mpr singular.b, singular.relation, fails]
    rfl

end Verdict
/-! Files. -/
section Unlocking
variable {library : KeystoreLibrary} {path : String} {env later : Env} {file : Option Bytes} {passphrase raw plaintext : Bytes}
  {payload : DecodedPayload}
/- The library derives a key, and the file can be read. -/
structure Env.Works (env : Env) : Prop where
  deriveKey : env.deriveKey = .ok ()
  readFileAll : env.readFileAll = .ok ()

/- The file decrypts under the passphrase, to any text at all. -/
def Opens (library : KeystoreLibrary) (raw passphrase plaintext : Bytes) : Prop :=
  ∃ decoded, decodeFile raw = .ok decoded ∧ library.cipher.decrypt (headerKey library decoded.header passphrase) decoded.nonce
    decoded.aad decoded.ciphertext decoded.tag = some plaintext

theorem unlockOpened (works : env.Works) (opens : Opens library raw passphrase plaintext) :
    unlock library path env (some raw) passphrase = (do
      let payload ← decodePayload plaintext
      validateInvariants productionRing payload.trapdoor payload.publicKey (ints payload.b)
      return payload) := by
  obtain ⟨decoded, decodes, decrypts⟩ := opens
  have read : readFileAll path env (some raw) = .ok raw := by
    rw [readFileAll, works.readFileAll]
    rfl
  have opened : chacha20poly1305Open library (headerKey library decoded.header passphrase) decoded.nonce decoded.aad
      decoded.ciphertext decoded.tag = .ok plaintext := by rw [chacha20poly1305Open, decrypts]
  rw [unlock, read]
  dsimp only [bind, Except.bind]
  rw [decodes]
  dsimp only
  rw [works.deriveKey, IdentityKeystore.standardly]
  dsimp only
  rw [opened]

theorem checkedSized (checked : Checked productionRing payload.trapdoor payload.publicKey (ints payload.b)) : payload.Sized := by
  have words {value : List Int64} (length : (ints value).length = productionRing.degree) : value.length = 512 :=
    (List.length_map _).symm.trans length
  exact ⟨words checked.degrees.f, words checked.degrees.g, words checked.degrees.capF, words checked.degrees.capG,
    words checked.t.width, words checked.b.width⟩

/- What was sealed under a header opens under it. -/
theorem sealedOpens (faithful : library.cipher.Faithful) {header : Header} {nonce : Aead.Nonce} {aad : Bytes} {sealing : Sealed}
    (salted : header.kdfSalt.length ≤ maxKdfSaltLength) (small : plaintext.length ≤ maxCiphertextLength)
    (encoded : encodeHeader header = .ok aad)
    (seals : library.cipher.encrypt (headerKey library header passphrase) nonce aad plaintext = some sealing)
    (written : encodeFile aad nonce sealing = .ok raw) : Opens library raw passphrase plaintext :=
  ⟨_, decodesFile encoded written salted ((faithful.length seals).trans_le small), faithful.opens seals⟩

/- Any text that fits can be sealed under a fresh header. -/
theorem sealsText (faithful : library.cipher.Faithful) (env : Env) (kdfSalt : Vector UInt8 16) (nonce : Aead.Nonce) (passphrase : Bytes)
    (small : plaintext.length ≤ maxCiphertextLength) : ∃ aad sealing raw, encodeHeader (freshHeader env kdfSalt) = .ok aad ∧
      chacha20poly1305Seal library (headerKey library (freshHeader env kdfSalt) passphrase) nonce aad plaintext = .ok sealing ∧
      encodeFile aad nonce sealing = .ok raw ∧ Opens library raw passphrase plaintext := by
  have bound : maxCiphertextLength = 65536 := rfl
  have salted : (freshHeader env kdfSalt).kdfSalt.length = 16 := Vector.length_toList
  obtain ⟨aad, encoded⟩ : ∃ aad, encodeHeader (freshHeader env kdfSalt) = .ok aad :=
    ⟨_, bind_ok.mpr ⟨_, Wire.lengthPrefixedOk.mpr ⟨by omega, by omega, rfl⟩, rfl⟩⟩
  obtain ⟨sealing, seals⟩ := faithful.seals (headerKey library (freshHeader env kdfSalt) passphrase) nonce aad plaintext (by omega)
  have length := faithful.length seals
  obtain ⟨raw, written⟩ : ∃ raw, encodeFile aad nonce sealing = .ok raw := ⟨_, check_ok.mpr ⟨throwIf_not (by omega), rfl⟩⟩
  refine ⟨aad, sealing, raw, encoded, by rw [chacha20poly1305Seal, seals], written, ?_⟩
  have saltFits : (freshHeader env kdfSalt).kdfSalt.length ≤ maxKdfSaltLength := by
    rw [salted]
    decide
  exact sealedOpens faithful saltFits small encoded seals written

theorem createOk (faithful : library.cipher.Faithful) {kdfSalt : Vector UInt8 16} {nonce : Aead.Nonce}
    (checked : Checked productionRing payload.trapdoor payload.publicKey (ints payload.b)) (salt : env.kdfSalt = .ok kdfSalt)
    (drawn : env.nonce = .ok nonce) (derives : env.deriveKey = .ok ()) (writes : env.write = .ok ()) :
    ∃ raw, create library path env none passphrase payload = .ok raw := by
  have small : (encodePayload payload).length ≤ maxCiphertextLength := by
    rw [encodePayloadLength (checkedSized checked)]
    decide
  obtain ⟨aad, sealing, raw, encoded, seals, written, _⟩ := sealsText faithful env kdfSalt nonce passphrase small
  have stored : writeNewExclusive path env none raw = .ok raw := by
    rw [writeNewExclusive, writes]
    rfl
  refine ⟨raw, check_ok.mpr ⟨validateInvariantsOk.mpr checked, ?_⟩⟩
  rw [salt, derives, drawn]
  exact bind_ok.mpr ⟨kdfSalt, rfl, check_ok.mpr ⟨rfl, bind_ok.mpr ⟨nonce, rfl, bind_ok.mpr ⟨aad, standardly_ok.mpr encoded,
    bind_ok.mpr ⟨sealing, seals, bind_ok.mpr ⟨raw, standardly_ok.mpr written, stored⟩⟩⟩⟩⟩⟩

theorem createdOpens (faithful : library.cipher.Faithful) (created : create library path env file passphrase payload = .ok raw) :
    Checked productionRing payload.trapdoor payload.publicKey (ints payload.b) ∧ Opens library raw passphrase (encodePayload payload) := by
  simp only [create, check_ok, validateInvariantsOk] at created
  obtain ⟨checked, created⟩ := created
  simp only [bind_ok, standardly_ok] at created
  obtain ⟨kdfSalt, _, _, _, nonce, _, aad, encoded, sealing, seals, bytes, encodedFile, written⟩ := created
  have salt : (freshHeader env kdfSalt).kdfSalt.length ≤ maxKdfSaltLength := by
    rw [freshHeader, Vector.length_toList]
    decide
  have small : (encodePayload payload).length ≤ maxCiphertextLength := by
    rw [encodePayloadLength (checkedSized checked)]
    decide
  have sealed_ : library.cipher.encrypt (headerKey library (freshHeader env kdfSalt) passphrase) nonce aad (encodePayload payload) =
      some sealing := by
    unfold chacha20poly1305Seal at seals
    split at seals
    · rename_i found
      rw [found, Except.ok.inj seals]
    · cases seals
  have same : bytes = raw := by
    simp only [writeNewExclusive, check_ok, pure_ok] at written
    exact written.2.2
  exact ⟨checked, sealedOpens faithful salt small encoded sealed_ (same ▸ encodedFile)⟩

theorem createdUnlocks (faithful : library.cipher.Faithful) (created : create library path env file passphrase payload = .ok raw)
    (works : later.Works) : unlock library path later (some raw) passphrase = .ok payload := by
  obtain ⟨checked, opens⟩ := createdOpens faithful created
  rw [unlockOpened works opens, decodeEncodePayload (checkedSized checked)]
  exact check_ok.mpr ⟨validateInvariantsOk.mpr checked, rfl⟩

/- What unlocking is to end in: a key that the signer takes and whose public key it derives again, or a format error. -/
def KeyOrFormatError (result : Except KeystoreError DecodedPayload) : Prop :=
  (∃ payload, result = .ok payload ∧ signerPublicKey productionRing payload.trapdoor (ints payload.b) = .ok payload.publicKey) ∨
    ∃ text, result = .error (.format text)

/- The text is that of a key whose `g` has no inverse, and nothing else is wrong with it. -/
def HoldsSingular (plaintext : Bytes) : Prop := ∃ payload, decodePayload plaintext = .ok payload ∧
  Singular productionRing payload.trapdoor payload.publicKey (ints payload.b)

open Refusals in
theorem decodePayloadFails (plaintext : Bytes) : Fails IsFormat (decodePayload plaintext) := by
  have short : IsFormat truncated := ⟨_, rfl⟩
  have word : ReaderFails IsFormat i64 := (readerU64 short).bind fun _ => readerPure _
  refine ReaderFails.whole ?_ ⟨_, rfl⟩ plaintext
  refine (readerU8 short).bind fun _ => (readerCheck (failsThrowIf _ fun _ => ⟨_, rfl⟩)).bind fun _ => ?_
  refine (readerU32 short).bind fun _ => (readerCheck (failsThrowIf _ fun _ => ⟨_, rfl⟩)).bind fun _ => ?_
  refine word.bind fun _ => (readerCheck (failsThrowIf _ fun _ => ⟨_, rfl⟩)).bind fun _ => ?_
  refine (word.many _).bind fun _ => (word.many _).bind fun _ => (word.many _).bind fun _ => (word.many _).bind fun _ => ?_
  exact (word.many _).bind fun _ => (word.many _).bind fun _ => readerPure _

theorem productionPrime : productionRing.modulus.Prime := by
  rw [productionRing]
  norm_num

theorem unlockSingular (works : env.Works) (opens : Opens library raw passphrase plaintext) (singular : HoldsSingular plaintext) :
    unlock library path env (some raw) passphrase = .error (.standard notInvertible) := by
  have prime : Fact productionRing.modulus.Prime := ⟨productionPrime⟩
  obtain ⟨payload, decodes, singular⟩ := singular
  rw [unlockOpened works opens, decodes]
  dsimp only [bind, Except.bind]
  rw [validateInvariantsSingular singular]

theorem unlockDecides (works : env.Works) (opens : Opens library raw passphrase plaintext) :
    KeyOrFormatError (unlock library path env (some raw) passphrase) ↔ ¬HoldsSingular plaintext := by
  have prime : Fact productionRing.modulus.Prime := ⟨productionPrime⟩
  constructor
  · intro ends singular
    rw [unlockSingular works opens singular] at ends
    rcases ends with ⟨_, same, _⟩ | ⟨_, same⟩
    · cases same
    · cases Except.error.inj same
  · intro regular
    have fails : Refusals.Fails IsFormat (unlock library path env (some raw) passphrase) := by
      rw [unlockOpened works opens]
      refine (decodePayloadFails plaintext).bind fun payload decodes => ?_
      exact (validateInvariantsFails fun singular => regular ⟨payload, decodes, singular⟩).bind fun _ _ => Refusals.failsOk _
    cases ended : unlock library path env (some raw) passphrase with
    | error e =>
        obtain ⟨text, rfl⟩ := fails e ended
        exact .inr ⟨text, rfl⟩
    | ok payload =>
        rw [unlockOpened works opens] at ended
        simp only [bind_ok] at ended
        obtain ⟨payload', decodes, _, validated, same⟩ := ended
        obtain rfl := pure_ok.mp same
        exact .inl ⟨payload', rfl, signerPublicKeyOk (validateInvariantsOk.mp validated)⟩

end Unlocking
theorem signerKeystore (library : KeystoreLibrary) (faithful : library.cipher.Faithful) (path : String) (passphrase : Bytes) :
    (∀ env file payload raw, create library path env file passphrase payload = .ok raw → ∀ later : Env, later.Works →
      unlock library path later (some raw) passphrase = .ok payload) ∧
    ∀ (env : Env) raw plaintext, env.Works → Opens library raw passphrase plaintext →
      (KeyOrFormatError (unlock library path env (some raw) passphrase) ↔ ¬HoldsSingular plaintext) :=
  ⟨fun _ _ _ _ created _ works => createdUnlocks faithful created works, fun _ _ _ works opens => unlockDecides works opens⟩

/-! A library without Argon2id, and two keys: `f = 1`, `g = 1`, `F = 0`, `G = q`, and `f = q`, `g = 0`, `F = 0`, `G = 1`. -/

def hmacSha256 (key message : Bytes) : Bytes :=
  let short := if key.length > 64 then Sha256.digest key else key
  let block := short ++ List.replicate (64 - short.length) 0
  Sha256.digest (block.map (· ^^^ 0x5c) ++ Sha256.digest (block.map (· ^^^ 0x36) ++ message))

def pbkdf2HmacSha256 (passphrase salt : Bytes) (iterations : UInt32) : Aead.Key :=
  let start := hmacSha256 passphrase (salt ++ bigEndian 4 1)
  let rounds := (List.range (iterations.toNat - 1)).foldl (fun round _ =>
    let next := hmacSha256 passphrase round.1
    (next, List.zipWith (· ^^^ ·) round.2 next)) (start, start)
  Vector.ofFn fun i => rounds.2.getD i 0

def fallbackLibrary : KeystoreLibrary where
  argon2id _ _ _ _ _ := Vector.replicate 32 0
  pbkdf2Sha256 := pbkdf2HmacSha256
  cipher := Aead.chacha20Poly1305
  hkdfSha256 _ _ := Vector.replicate 32 0
  ed25519PublicKey _ := Vector.replicate 32 0

def fallbackEnv : Env where
  argon2idAvailable := false
  kdfSalt := .ok (Vector.replicate 16 7)
  nonce := .ok (Vector.replicate 12 9)
  deriveKey := .ok ()
  readFileAll := .ok ()
  write := .ok ()

def constant (c : Int64) : List Int64 := (List.replicate 512 0).set 0 c

def unitPayload : DecodedPayload := ⟨constant 1, constant 1, constant 0, constant 7933, constant 1, constant 0⟩

def singularPayload : DecodedPayload := ⟨constant 7933, constant 0, constant 0, constant 1, constant 0, constant 0⟩

section Examples
variable {ring : RingArithmetic}

theorem elementConstant {R : Type} [CommRing R] {n : Nat} (positive : 0 < n) (c : R) :
    Coefficients.element n ((List.replicate n 0).set 0 c) = AdjoinRoot.of _ c := by
  obtain ⟨rest, rfl⟩ := Nat.exists_eq_succ_of_ne_zero positive.ne'
  simp [Coefficients.element, List.replicate_succ]

theorem intsConstant (c : Int64) : ints (constant c) = (List.replicate productionRing.degree 0).set 0 c.toInt := by
  rw [ints, constant, List.map_set, List.map_replicate]
  rfl

theorem constantWidth (ring : RingArithmetic) (c : Int) : ((List.replicate ring.degree 0).set 0 c).length = ring.degree := by simp

theorem constantCanonical {c : Int} (low : 0 ≤ c) (high : c < ring.modulus) : Canonical ring ((List.replicate ring.degree 0).set 0 c) := by
  have large := ring.large
  refine ⟨constantWidth ring c, fun x mem => ?_⟩
  rcases List.mem_or_eq_of_mem_set mem with old | rfl
  · obtain rfl := (List.mem_replicate.mp old).2
    omega
  · exact ⟨low, high⟩

theorem constantResidue (c : Int) : residue ring ((List.replicate ring.degree 0).set 0 c) =
    AdjoinRoot.of _ (c : ZMod ring.modulus) := by
  rw [residue, List.map_set, List.map_replicate, Int.cast_zero, elementConstant ring.positive]

theorem constantRelation (f g capF capG : Int) (relation : f * capG - g * capF = ring.modulus) :
    verifyNtruRelation ring ⟨(List.replicate ring.degree 0).set 0 f, (List.replicate ring.degree 0).set 0 g,
      (List.replicate ring.degree 0).set 0 capF, (List.replicate ring.degree 0).set 0 capG⟩ = .ok true := by
  obtain ⟨fG, first⟩ := Blns7933.exactMulTotal Blns7933.integerTooLong (constantWidth ring f).le (constantWidth ring capG).le
  obtain ⟨gF, second⟩ := Blns7933.exactMulTotal Blns7933.integerTooLong (constantWidth ring g).le (constantWidth ring capF).le
  obtain ⟨widthFG, isFG⟩ := Blns7933.exactMulMeaning first
  obtain ⟨widthGF, isGF⟩ := Blns7933.exactMulMeaning second
  obtain ⟨lhs, difference⟩ := Blns7933.exactSubTotal Blns7933.integerTooLong widthFG.le widthGF.le
  obtain ⟨width, is⟩ := Blns7933.exactSubMeaning difference
  have same : lhs = (List.replicate ring.degree 0).set 0 (ring.modulus : Int) := by
    refine Coefficients.elementInj ring.positive width (constantWidth ring _) ?_
    rw [is, isFG, isGF, elementConstant ring.positive, elementConstant ring.positive, elementConstant ring.positive,
      elementConstant ring.positive, elementConstant ring.positive, ← map_mul, ← map_mul, ← map_sub, relation]
  rw [verifyNtruRelation, first]
  dsimp only [bind, Except.bind]
  rw [second]
  dsimp only
  rw [difference]
  dsimp only
  rw [same, decide_eq_true rfl]
  rfl

theorem constantDegrees (ring : RingArithmetic) (f g capF capG : Int) : Degrees ring ⟨(List.replicate ring.degree 0).set 0 f, (List.replicate ring.degree 0).set 0 g,
    (List.replicate ring.degree 0).set 0 capF, (List.replicate ring.degree 0).set 0 capG⟩ :=
  ⟨constantWidth ring f, constantWidth ring g, constantWidth ring capF, constantWidth ring capG⟩

theorem zeroNoUnit [Fact ring.modulus.Prime] : ¬IsUnit (residue ring ((List.replicate ring.degree 0).set 0 0)) := by
  have large := ring.large
  intro unit
  rw [constantResidue, Int.cast_zero, map_zero, isUnit_zero_iff] at unit
  have same : residue ring ((List.replicate ring.degree 0).set 0 0) = residue ring ((List.replicate ring.degree 0).set 0 1) := by
    rw [constantResidue, constantResidue, Int.cast_zero, Int.cast_one, map_zero, map_one, unit]
  have lists := Blns7933.canonicalInj (constantCanonical le_rfl (by omega)) (constantCanonical zero_le_one (by omega)) same
  have first := congrArg (fun l => l[0]?) lists
  simp [ring.positive] at first

theorem constantTrapdoor (f g capF capG t b : Int64) : (DecodedPayload.mk (constant f) (constant g) (constant capF) (constant capG)
      (constant t) (constant b)).trapdoor =
    ⟨(List.replicate productionRing.degree 0).set 0 f.toInt, (List.replicate productionRing.degree 0).set 0 g.toInt,
      (List.replicate productionRing.degree 0).set 0 capF.toInt, (List.replicate productionRing.degree 0).set 0 capG.toInt⟩ := by
  rw [DecodedPayload.trapdoor, intsConstant, intsConstant, intsConstant, intsConstant]

theorem unitDerived [Fact ring.modulus.Prime] (capF capG : Int) :
    derivePublic ring ⟨(List.replicate ring.degree 0).set 0 1, (List.replicate ring.degree 0).set 0 1,
      (List.replicate ring.degree 0).set 0 capF, (List.replicate ring.degree 0).set 0 capG⟩ =
        .ok ⟨(List.replicate ring.degree 0).set 0 1⟩ := by
  have large := ring.large
  have one : residue ring ((List.replicate ring.degree 0).set 0 1) = 1 := by rw [constantResidue, Int.cast_one, map_one]
  rcases deriveDecides (constantDegrees ring 1 1 capF capG) with ⟨_, derived, derives⟩ | ⟨noInverse, _⟩
  · obtain ⟨canonical, inverts, _⟩ := Blns7933.publicResidue derives
    have same : derived.t = (List.replicate ring.degree 0).set 0 1 := by
      refine Blns7933.canonicalInj canonical (constantCanonical zero_le_one (by omega)) ?_
      rwa [one, mul_one, ← one] at inverts
    exact derives.trans (congrArg (fun t => Except.ok (PublicKey.mk t)) same)
  · exact absurd (one ▸ isUnit_one) noInverse

theorem constantWords : (0 : Int64).toInt = 0 ∧ (1 : Int64).toInt = 1 ∧ (7933 : Int64).toInt = 7933 := by decide

theorem unitChecked : Checked productionRing unitPayload.trapdoor unitPayload.publicKey (ints unitPayload.b) := by
  have prime : Fact productionRing.modulus.Prime := ⟨productionPrime⟩
  have large := productionRing.large
  have relation : (1 : Int) * 7933 - 1 * 0 = productionRing.modulus := by
    rw [productionRing]
    norm_num
  rw [unitPayload, constantTrapdoor, DecodedPayload.publicKey, intsConstant, intsConstant, constantWords.1, constantWords.2.1,
    constantWords.2.2]
  exact ⟨constantDegrees _ _ _ _ _, constantCanonical zero_le_one (by omega), constantCanonical le_rfl (by omega),
    constantRelation _ _ _ _ relation, unitDerived _ _⟩

theorem singularSingular : Singular productionRing singularPayload.trapdoor singularPayload.publicKey (ints singularPayload.b) := by
  have prime : Fact productionRing.modulus.Prime := ⟨productionPrime⟩
  have large := productionRing.large
  have relation : (7933 : Int) * 1 - 0 * 0 = productionRing.modulus := by
    rw [productionRing]
    norm_num
  rw [singularPayload, constantTrapdoor, DecodedPayload.publicKey, intsConstant, constantWords.1, constantWords.2.1, constantWords.2.2]
  exact ⟨constantDegrees _ _ _ _ _, constantCanonical le_rfl (by omega), constantCanonical le_rfl (by omega),
    constantRelation _ _ _ _ relation, zeroNoUnit⟩

end Examples

theorem unitUnlocks : ∃ raw, create fallbackLibrary "q.key" fallbackEnv none [1] unitPayload = .ok raw ∧
    unlock fallbackLibrary "q.key" fallbackEnv (some raw) [1] = .ok unitPayload := by
  have faithful : fallbackLibrary.cipher.Faithful := Aead.chacha20Poly1305Faithful
  obtain ⟨raw, created⟩ : ∃ raw, create fallbackLibrary "q.key" fallbackEnv none [1] unitPayload = .ok raw :=
    createOk faithful unitChecked (rfl : fallbackEnv.kdfSalt = .ok _) (rfl : fallbackEnv.nonce = .ok _) rfl rfl
  exact ⟨raw, created, (signerKeystore fallbackLibrary faithful "q.key" [1]).1 _ _ _ _ created fallbackEnv ⟨rfl, rfl⟩⟩

/- A file whose `g` has no inverse ends in an error of another kind. -/
theorem singularUnlocks : ∃ raw, Opens fallbackLibrary raw [1] (encodePayload singularPayload) ∧
    unlock fallbackLibrary "q.key" fallbackEnv (some raw) [1] =
      .error (.standard (.runtimeError "BLNS7933 trapdoor g is not invertible modulo q")) ∧
    ¬KeyOrFormatError (unlock fallbackLibrary "q.key" fallbackEnv (some raw) [1]) := by
  have faithful : fallbackLibrary.cipher.Faithful := Aead.chacha20Poly1305Faithful
  have sized : singularPayload.Sized := by
    have length (c : Int64) : (constant c).length = 512 := by rw [constant, List.length_set, List.length_replicate]
    exact ⟨length _, length _, length _, length _, length _, length _⟩
  have small : (encodePayload singularPayload).length ≤ maxCiphertextLength := by
    rw [encodePayloadLength sized]
    decide
  obtain ⟨_, _, raw, _, _, _, opens⟩ := sealsText faithful fallbackEnv (Vector.replicate 16 7) (Vector.replicate 12 9) [1] small
  have singular : HoldsSingular (encodePayload singularPayload) := ⟨singularPayload, decodeEncodePayload sized, singularSingular⟩
  have works : fallbackEnv.Works := ⟨rfl, rfl⟩
  exact ⟨raw, opens, unlockSingular works opens singular, fun ends => (unlockDecides works opens).mp ends singular⟩


end TradeP2P.Q7933Keystore
