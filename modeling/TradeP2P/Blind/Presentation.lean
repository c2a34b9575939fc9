import TradeP2P.Blind.ProverCore
import TradeP2P.Credential.IssuanceStore

/-! A credential, as the client encodes it for blinding and the guest encodes it again to present it:
the payload, its text, its nullifier and the guest that checks all three. -/
namespace TradeP2P.Credential
open Wire (Bytes ascii bigEndian)
open Checks
open Prover (Hashes)

abbrev CredentialSerial := Vector UInt8 32
abbrev Nullifier := Vector UInt8 32

structure CredentialPayload where
  version : UInt8 := credentialVersion
  issuerScope : UInt8 := 0
  epoch : UInt32 := 0
  serial : CredentialSerial
  reserved : Bytes := []
  deriving DecidableEq, Repr

def CredentialPayload.encode (payload : CredentialPayload) : Except Error Bytes := do
  throwIf (payload.reserved.length > 65535) (Error.runtimeError "q7933_credential: reserved field too large")
  return [payload.version] ++ ([payload.issuerScope] ++ (bigEndian 4 payload.epoch.toNat ++ (payload.serial.toList ++
    (bigEndian 2 payload.reserved.length ++ payload.reserved))))

def encodeCredentialForBlind (payload : CredentialPayload) : Except Error Bytes := do
  return ascii "TRADEP2P-Q7933-CREDENTIAL-FOR-BLIND-v1" ++ (← payload.encode)

def credentialMuPrefixText : Bytes := ascii "tradep2p-q7933-credential-v1:"

/- The message a client blinds for a credential. -/
def credentialMessage (payload : CredentialPayload) : Except Error Bytes := do
  let encoded ← encodeCredentialForBlind payload
  return credentialMuPrefixText ++ encoded.flatMap hexByte

def deriveNullifier (hashes : Hashes) (serial : CredentialSerial) (issuerScope : UInt8) (epoch : UInt32) (presentationScope : Bytes) :
    Except Error Nullifier := do
  throwIf (presentationScope.length > 4294967295) (Error.runtimeError "q7933_credential: presentation_scope too large")
  return hashes.sha256 (ascii "TRADEP2P-Q7933-CREDENTIAL-NULLIFIER-v1" ++ ([issuerScope] ++ (bigEndian 4 epoch.toNat ++
    (bigEndian 4 presentationScope.length ++ (presentationScope ++ serial.toList)))))

end TradeP2P.Credential

namespace TradeP2P.Prover
open Wire (Bytes ascii bigEndian)

structure CredentialPresentationInput where
  t : List UInt16
  b : List UInt16
  issuerScope : UInt8
  epoch : UInt32
  presentationScope : Bytes
  claimedNullifier : Vector UInt8 32
  r : List Int32
  s0 : List Int32
  s1 : List Int32
  serial : Vector UInt8 32

structure CredentialPresentationPublicOutput where
  t : List UInt16
  b : List UInt16
  issuerScope : UInt8
  epoch : UInt32
  presentationScope : Bytes
  nullifier : Vector UInt8 32
  valid : Bool

namespace Presentation
variable (hashes : Hashes)

def credentialVersion : UInt8 := 1
def credentialEpochV1 : UInt32 := 0
def maxPresentationScopeBytes : Nat := 4096
def maxSignatureCoeffAbs : Int := 10499

def hexDigits (byte : UInt8) : Bytes :=
  let hex := ascii "0123456789abcdef"
  [hex.getD (byte >>> 4).toNat 0, hex.getD (byte &&& 0x0f).toNat 0]

def appendHexLower (out bytes : Bytes) : Bytes := bytes.foldl (fun out byte => out ++ hexDigits byte) out

def credentialMu (issuerScope : UInt8) (epoch : UInt32) (serial : Vector UInt8 32) : Bytes :=
  let encoded := ascii "TRADEP2P-Q7933-CREDENTIAL-FOR-BLIND-v1" ++ [credentialVersion] ++ [issuerScope] ++ bigEndian 4 epoch.toNat ++
    serial.toList ++ bigEndian 2 0
  appendHexLower (ascii "tradep2p-q7933-credential-v1:") encoded

def deriveNullifier (serial : Vector UInt8 32) (issuerScope : UInt8) (epoch : UInt32) (presentationScope : Bytes) : Vector UInt8 32 :=
  hashes.sha256 (ascii "TRADEP2P-Q7933-CREDENTIAL-NULLIFIER-v1" ++ [issuerScope] ++ bigEndian 4 epoch.toNat ++
    bigEndian 4 (UInt32.ofNat presentationScope.length).toNat ++ presentationScope ++ serial.toList)

def canonicalRingPoly (v : List UInt16) : Bool := v.length == n && v.all fun x => decide ((x.toNat : Int) < q)

def signatureWitnessIsSafelyBounded (v : List Int32) : Bool :=
  v.length == n && v.all fun x => decide (-maxSignatureCoeffAbs ≤ x.toInt ∧ x.toInt ≤ maxSignatureCoeffAbs)

def shapeOk (input : CredentialPresentationInput) : Bool :=
  canonicalRingPoly input.t && canonicalRingPoly input.b && input.r.length == n && rInBounds input.r &&
    signatureWitnessIsSafelyBounded input.s0 && signatureWitnessIsSafelyBounded input.s1 &&
    decide (input.presentationScope.length ≤ maxPresentationScopeBytes) && input.epoch == credentialEpochV1

def checkCredential (draws : Nat) (input : CredentialPresentationInput) : Option Bool := do
  let mu := credentialMu input.issuerScope input.epoch input.serial
  let rho := gOfR hashes input.r
  let hDigest := hOfRhoMu hashes rho.toList mu
  let hashTerm ← hashToPoint hashes draws hDigest
  let br ← polyMulModQKaratsuba (ofU16 input.b) (ofI32 input.r)
  let c ← addModQ br hashTerm
  let related ← relationHolds (ofU16 input.t) (ofI32 input.s0) (ofI32 input.s1) c
  let normSq ← normSquared (ofI32 input.s0) (ofI32 input.s1)
  let signatureOk := related && decide (normSq.toInt ≤ normBoundSquared)
  let nullifierOk := deriveNullifier hashes input.serial input.issuerScope input.epoch input.presentationScope == input.claimedNullifier
  return signatureOk && nullifierOk

-- Nothing is multiplied before every length and range has been looked at.
def main (draws : Nat) (input : CredentialPresentationInput) : Option CredentialPresentationPublicOutput := do
  let valid ← if shapeOk input then checkCredential hashes draws input else some false
  return ⟨input.t, input.b, input.issuerScope, input.epoch, input.presentationScope, input.claimedNullifier, valid⟩

/-! The two sides agree on every byte. -/

theorem hexDigitsSame (byte : UInt8) : hexDigits byte = Credential.hexByte byte := by
  have all : ∀ k : Fin 256, hexDigits (UInt8.ofFin k) = Credential.hexByte (UInt8.ofFin k) := by decide +kernel
  exact all byte.toFin

theorem appendHexLowerText (out bytes : Bytes) : appendHexLower out bytes = out ++ bytes.flatMap Credential.hexByte := by
  unfold appendHexLower
  induction bytes generalizing out with
  | nil => simp
  | cons byte rest ih => rw [List.foldl_cons, ih, List.flatMap_cons, hexDigitsSame, List.append_assoc]

theorem messageAgrees (serial : Credential.CredentialSerial) :
    Credential.credentialMessage { serial } = .ok (credentialMu 0 0 serial) := by
  have empty : Checks.throwIf (([] : Bytes).length > 65535) (Error.runtimeError "q7933_credential: reserved field too large") = .ok () :=
    Checks.throwIf_not (by decide)
  rw [credentialMu, appendHexLowerText]
  simp only [Credential.credentialMessage, Credential.encodeCredentialForBlind, Credential.CredentialPayload.encode, empty,
    List.append_assoc]
  rfl

theorem nullifierAgrees (serial : Credential.CredentialSerial) (issuerScope : UInt8) (epoch : UInt32) {scope : Bytes}
    (short : scope.length ≤ 4294967295) :
    Credential.deriveNullifier hashes serial issuerScope epoch scope = .ok (deriveNullifier hashes serial issuerScope epoch scope) := by
  have width : (UInt32.ofNat scope.length).toNat = scope.length := UInt32.toNat_ofNat_of_lt' (by unfold UInt32.size; omega)
  have fits : ¬scope.length > 4294967295 := by omega
  rw [Credential.deriveNullifier, Checks.throwIf_not fits, deriveNullifier, width]
  simp only [List.append_assoc]
  rfl

/-! What the guest needs of an input to accept it. -/

structure Presents (input : CredentialPresentationInput) : Prop where
  shape : shapeOk input = true
  relation : ∃ h, HashesTo hashes (hOfRhoMu hashes (gOfR hashes input.r).toList (credentialMu input.issuerScope input.epoch input.serial)) h ∧
    residue (ofU16 input.t) * residue (ofI32 input.s0) + residue (ofI32 input.s1) =
      residue (ofU16 input.b) * residue (ofI32 input.r) + residue h
  short : squares (ofI32 input.s0) + squares (ofI32 input.s1) ≤ normBoundSquared
  nullifier : deriveNullifier hashes input.serial input.issuerScope input.epoch input.presentationScope = input.claimedNullifier

variable {hashes}

theorem canonicalRingPolyOk {v : List UInt16} : canonicalRingPoly v = true ↔ v.length = n ∧ ∀ x ∈ v, (x.toNat : Int) < q := by
  simp [canonicalRingPoly]

theorem boundedOk {v : List Int32} : signatureWitnessIsSafelyBounded v = true ↔
    v.length = n ∧ ∀ x ∈ v, -maxSignatureCoeffAbs ≤ x.toInt ∧ x.toInt ≤ maxSignatureCoeffAbs := by
  simp [signatureWitnessIsSafelyBounded]

theorem presentsAccepted {input : CredentialPresentationInput} (presents : Presents hashes input) :
    ∃ draws out, main hashes draws input = some out ∧ out.valid = true ∧ out.nullifier = input.claimedNullifier := by
  obtain ⟨h, ⟨draws, hashed⟩, relation⟩ := presents.relation
  have shape := presents.shape
  simp only [shapeOk, Bool.and_eq_true, beq_iff_eq, decide_eq_true_eq, canonicalRingPolyOk, boundedOk] at shape
  obtain ⟨⟨⟨⟨⟨⟨⟨t, b⟩, widthR⟩, bounded⟩, s0⟩, s1⟩, scope⟩, epoch⟩ := shape
  obtain ⟨br, c, product, added, canonicalC, target⟩ := targetMeaning b.1 widthR.ge (hashToPointCanonical hashed)
  obtain ⟨verdict, related, meaning⟩ := relationMeaning (ofI32 input.s0) (ofI32 input.s1) (t := ofU16 input.t)
    (by simpa [ofU16] using t.1) (u16Within _) (i32Within _) (i32Within _) (by simp [ofI32, s0.1]) (by simp [ofI32, s1.1]) canonicalC
  obtain ⟨sum, summed, wrapped⟩ := normMeaning (ofI32 input.s0) (ofI32 input.s1) (by simp [ofI32, s0.1]) (by simp [ofI32, s1.1])
  rw [← front, ← front, frontWhole s0.1, frontWhole s1.1] at meaning wrapped
  rw [frontWhole widthR] at target
  have holds : verdict = true := meaning.mpr (relation.trans target.symm)
  have exact : sum.toInt ≤ normBoundSquared := by
    have positive0 := squaresNonneg (ofI32 input.s0)
    have positive1 := squaresNonneg (ofI32 input.s1)
    have short := presents.short
    unfold normBoundSquared at short ⊢
    rw [wrapped, Int.bmod_eq_of_le (by omega) (by omega)]
    exact short
  refine ⟨draws, ⟨input.t, input.b, input.issuerScope, input.epoch, input.presentationScope, input.claimedNullifier, true⟩, ?_, rfl, rfl⟩
  have valid : checkCredential hashes draws input = some true := by
    simp only [checkCredential, hashed, product, added, related, summed, holds, exact, presents.nullifier, Option.bind_eq_bind,
      Option.bind_some, decide_true, beq_self_eq_true, Bool.and_self]
    rfl
  rw [main, if_pos presents.shape, valid]
  rfl

end Presentation
end TradeP2P.Prover
