import TradeP2P.Protocol.Disclosure
import TradeP2P.Protocol.Messages
import TradeP2P.Protocol.SignedPayloads

/-! Asking for a credential after the trade: the stage-4 receipt shows that the room completed, and a
signature with the room's ephemeral keys shows who asks, for which epoch and which blinded target. -/
namespace TradeP2P.Credential
open Wire (Bytes ascii bigEndian)
open Checks

def issuanceAuthorizationDomain : Bytes := ascii "TRADEP2P-Q7933-CREDENTIAL-ISSUANCE-AUTH-v1"
def authorizationRingDegree : Nat := 512
def credentialVersion : UInt8 := 1

structure IssuanceAuthorizationProof where
  completionReceipt : ReceiptIssuedMessage
  signature : Ed25519Signature
  signatureMldsa65 : MlDsa65Signature
  deriving DecidableEq, Repr

def issuanceReceiptToWire (receipt : IssuedReceipt) : ReceiptIssuedMessage where
  roomId := receipt.fields.roomId
  mediatorId := receipt.fields.mediatorId
  stage := receipt.fields.stage
  completed := receipt.fields.completed
  termsCommitment := receipt.fields.termsCommitment
  partyAEphemeralKey := receipt.fields.partyAEphemeralKey
  partyBEphemeralKey := receipt.fields.partyBEphemeralKey
  partyAEphemeralKeyMldsa65 := receipt.fields.partyAEphemeralKeyMldsa65
  partyBEphemeralKeyMldsa65 := receipt.fields.partyBEphemeralKeyMldsa65
  mediatorPublicKey := receipt.fields.mediatorPublicKey
  mediatorPublicKeyMldsa65 := receipt.fields.mediatorPublicKeyMldsa65
  timestamp := receipt.fields.timestamp
  nonce := receipt.fields.nonce
  previousStageHash := receipt.fields.previousStageHash
  mediatorSignature := receipt.mediatorSignature
  mediatorSignatureMldsa65 := receipt.mediatorSignatureMldsa65

-- The suite and the protocol version do not travel.
def issuanceReceiptFromWire (wire : ReceiptIssuedMessage) : IssuedReceipt where
  fields := {
    mediatorId := wire.mediatorId
    roomId := wire.roomId
    termsCommitment := wire.termsCommitment
    partyAEphemeralKey := wire.partyAEphemeralKey
    partyBEphemeralKey := wire.partyBEphemeralKey
    partyAEphemeralKeyMldsa65 := wire.partyAEphemeralKeyMldsa65
    partyBEphemeralKeyMldsa65 := wire.partyBEphemeralKeyMldsa65
    mediatorPublicKey := wire.mediatorPublicKey
    mediatorPublicKeyMldsa65 := wire.mediatorPublicKeyMldsa65
    stage := wire.stage
    completed := wire.completed
    timestamp := wire.timestamp
    nonce := wire.nonce
    previousStageHash := wire.previousStageHash }
  mediatorSignature := wire.mediatorSignature
  mediatorSignatureMldsa65 := wire.mediatorSignatureMldsa65

def ephemeralKey (fields : ReceiptFields) : Party → Ed25519PublicKey
  | .a => fields.partyAEphemeralKey
  | .b => fields.partyBEphemeralKey

def ephemeralKeyMldsa65 (fields : ReceiptFields) : Party → MlDsa65PublicKey
  | .a => fields.partyAEphemeralKeyMldsa65
  | .b => fields.partyBEphemeralKeyMldsa65

def requireStage4Shape (receipt : IssuedReceipt) : Except Error Unit :=
  throwIf (receipt.fields.stage ≠ ReceiptStage.settlementCompleted.toByte ∨ receipt.fields.completed = false)
    (.invalidArgument "q7933 credential issuance requires a completed stage-4 receipt")

def writerText (value : Bytes) : Except Error Bytes := do
  throwIf (value.length > 65535) (.invalidArgument "q7933 issuance authorization domain is too long")
  return bigEndian 2 value.length ++ value

variable (crypto : Crypto)

def encodeIssuanceAuthorizationPayload (completionReceipt : IssuedReceipt) (party : Party) (credentialEpoch : UInt32)
    (blindedTarget : List UInt16) : Except Error Bytes := do
  requireStage4Shape completionReceipt
  throwIf (blindedTarget.length ≠ authorizationRingDegree)
    (.invalidArgument "q7933 issuance authorization target has wrong degree")
  let receiptHash ← receiptChainLinkHash crypto completionReceipt
  let domain ← writerText issuanceAuthorizationDomain
  return domain ++ (bigEndian 2 TradeP2P.protocolVersion.toNat ++ ([credentialVersion] ++ ([party.toByte] ++
    (bigEndian 4 credentialEpoch.toNat ++ (completionReceipt.fields.roomId.toList ++ (receiptHash.toList ++
    blindedTarget.flatMap fun coefficient => bigEndian 2 coefficient.toNat))))))

def makeIssuanceAuthorizationProof (completionReceipt : IssuedReceipt) (party : Party)
    (ephemeralPrivateSeed : Ed25519PrivateSeed) (ephemeralPrivateSeedMldsa65 : MlDsa65PrivateSeed) (entropy : Bytes)
    (credentialEpoch : UInt32) (blindedTarget : List UInt16) : Except Error IssuanceAuthorizationProof := do
  let payload ← encodeIssuanceAuthorizationPayload crypto completionReceipt party credentialEpoch blindedTarget
  let signature ← crypto.ed25519.sign ephemeralPrivateSeed entropy payload
  let signatureMldsa65 ← crypto.mldsa65.sign ephemeralPrivateSeedMldsa65 entropy payload
  return { completionReceipt := issuanceReceiptToWire completionReceipt, signature, signatureMldsa65 }

def verifiesForParty (receipt : IssuedReceipt) (party : Party) (credentialEpoch : UInt32) (blindedTarget : List UInt16)
    (signature : Ed25519Signature) (signatureMldsa65 : MlDsa65Signature) : Except Error Bool := do
  let payload ← encodeIssuanceAuthorizationPayload crypto receipt party credentialEpoch blindedTarget
  if ← crypto.ed25519.verify (ephemeralKey receipt.fields party) payload signature then
    crypto.mldsa65.verify (ephemeralKeyMldsa65 receipt.fields party) payload signatureMldsa65
  else return false

def verifyIssuanceAuthorizationProof (proof : IssuanceAuthorizationProof) (expectedMediatorId : Bytes)
    (expectedMediatorPublicKey : Ed25519PublicKey) (expectedMediatorPublicKeyMldsa65 : MlDsa65PublicKey)
    (expectedRoomId : RoomId) (credentialEpoch : UInt32) (blindedTarget : List UInt16) :
    Except Error (Option Party) := do
  if blindedTarget.length ≠ authorizationRingDegree then
    return none
  let receipt := issuanceReceiptFromWire proof.completionReceipt
  if receipt.fields.stage ≠ ReceiptStage.settlementCompleted.toByte ∨ receipt.fields.completed = false ∨
      receipt.fields.roomId ≠ expectedRoomId ∨ receipt.fields.mediatorId ≠ expectedMediatorId ∨
      receipt.fields.mediatorPublicKey ≠ expectedMediatorPublicKey ∨
      receipt.fields.mediatorPublicKeyMldsa65 ≠ expectedMediatorPublicKeyMldsa65 then
    return none
  if ¬(← verifyReceiptHybrid crypto expectedMediatorPublicKey expectedMediatorPublicKeyMldsa65 receipt) then
    return none
  let partyA ← verifiesForParty crypto receipt .a credentialEpoch blindedTarget proof.signature proof.signatureMldsa65
  let partyB ← verifiesForParty crypto receipt .b credentialEpoch blindedTarget proof.signature proof.signatureMldsa65
  if partyA = partyB then
    return none
  return if partyA then some .a else some .b

/-! What is assumed of the library: a signature verifies for the holder of the key that made it, and
for the one message it was made for. -/

structure Accountable {Seed Key Signature : Type} (scheme : SignatureScheme Seed Key Signature)
    (made : Seed → Bytes → Signature → Prop) : Prop where
  decides : scheme.Decides
  verifies : ∀ {key message signature}, scheme.verify key message signature = .ok true ↔
    ∃ seed, scheme.publicKey seed = key ∧ made seed message signature
  single : ∀ {seed seed' message message' signature}, made seed message signature → made seed' message' signature →
    message = message'
  signs : ∀ {seed entropy message signature}, scheme.sign seed entropy message = .ok signature →
    made seed message signature

/- A completed stage-4 receipt of this mediator for this room. -/
structure Genuine (mediatorId : Bytes) (key : Ed25519PublicKey) (keyMldsa65 : MlDsa65PublicKey) (roomId : RoomId)
    (receipt : IssuedReceipt) : Prop where
  suite : receipt.fields.suiteId = receiptSuiteEd25519MlDsa65HybridV1
  version : receipt.fields.protocolVersion = TradeP2P.protocolVersion
  stage : receipt.fields.stage = ReceiptStage.settlementCompleted.toByte
  completed : receipt.fields.completed = true
  room : receipt.fields.roomId = roomId
  mediator : receipt.fields.mediatorId = mediatorId
  keys : receipt.fields.mediatorPublicKey = key ∧ receipt.fields.mediatorPublicKeyMldsa65 = keyMldsa65
  verified : verifyReceiptHybrid crypto key keyMldsa65 receipt = .ok true

section Proofs
variable (made : Ed25519PrivateSeed → Bytes → Ed25519Signature → Prop)
  (madeMldsa65 : MlDsa65PrivateSeed → Bytes → MlDsa65Signature → Prop)

/- The holder of a party's two keys has signed for this receipt, party, epoch and target. -/
def Authorized (receipt : IssuedReceipt) (party : Party) (credentialEpoch : UInt32) (blindedTarget : List UInt16)
    (signature : Ed25519Signature) (signatureMldsa65 : MlDsa65Signature) : Prop :=
  ∃ payload, encodeIssuanceAuthorizationPayload crypto receipt party credentialEpoch blindedTarget = .ok payload ∧
    (∃ seed, crypto.ed25519.publicKey seed = ephemeralKey receipt.fields party ∧ made seed payload signature) ∧
    ∃ seed, crypto.mldsa65.publicKey seed = ephemeralKeyMldsa65 receipt.fields party ∧
      madeMldsa65 seed payload signatureMldsa65

variable {crypto made madeMldsa65} {receipt receipt' : IssuedReceipt} {party party' : Party}
  {credentialEpoch credentialEpoch' : UInt32} {blindedTarget blindedTarget' : List UInt16} {payload : Bytes}
  {signature : Ed25519Signature} {signatureMldsa65 : MlDsa65Signature}

theorem fromWireToWire (suite : receipt.fields.suiteId = receiptSuiteEd25519MlDsa65HybridV1)
    (version : receipt.fields.protocolVersion = TradeP2P.protocolVersion) :
    issuanceReceiptFromWire (issuanceReceiptToWire receipt) = receipt := by
  obtain ⟨fields, _, _⟩ := receipt
  cases fields
  simp_all [issuanceReceiptFromWire, issuanceReceiptToWire]

theorem payloadOk : encodeIssuanceAuthorizationPayload crypto receipt party credentialEpoch blindedTarget = .ok payload ↔
    receipt.fields.stage = ReceiptStage.settlementCompleted.toByte ∧ receipt.fields.completed = true ∧
      blindedTarget.length = authorizationRingDegree ∧
      ∃ receiptHash, receiptChainLinkHash crypto receipt = .ok receiptHash ∧
        Wire.prefixed issuanceAuthorizationDomain ++ (bigEndian 2 TradeP2P.protocolVersion.toNat ++
          ([credentialVersion] ++ ([party.toByte] ++ (bigEndian 4 credentialEpoch.toNat ++
          (receipt.fields.roomId.toList ++ (receiptHash.toList ++
          blindedTarget.flatMap fun coefficient => bigEndian 2 coefficient.toNat)))))) = payload := by
  have short : ¬issuanceAuthorizationDomain.length > 65535 := by decide
  simp only [encodeIssuanceAuthorizationPayload, requireStage4Shape, writerText, bind_ok, throwIf_ok, pure_ok,
    throwIf_not short, not_or, not_not, Bool.not_eq_false, and_assoc, Wire.prefixed]
  simp

theorem targetInjective {a b : List UInt16} (width : a.length = b.length)
    (same : (a.flatMap fun coefficient => bigEndian 2 coefficient.toNat) =
      b.flatMap fun coefficient => bigEndian 2 coefficient.toNat) : a = b := by
  induction a generalizing b with
  | nil =>
      cases b with
      | nil => rfl
      | cons y ys => simp at width
  | cons x xs ih =>
      cases b with
      | nil => simp at width
      | cons y ys =>
          simp only [List.flatMap_cons, Wire.u16Front] at same
          simp only [List.length_cons, Nat.add_right_cancel_iff] at width
          rw [same.1, ih width same.2]

theorem partyInjective (same : party.toByte = party'.toByte) : party = party' := by
  cases party <;> cases party' <;> first | rfl | simp [Party.toByte] at same

/- One payload, one authorization. -/
theorem payloadInjective
    (encoded : encodeIssuanceAuthorizationPayload crypto receipt party credentialEpoch blindedTarget = .ok payload)
    (encoded' : encodeIssuanceAuthorizationPayload crypto receipt' party' credentialEpoch' blindedTarget' = .ok payload) :
    party = party' ∧ credentialEpoch = credentialEpoch' ∧ blindedTarget = blindedTarget' ∧
      receipt.fields.roomId = receipt'.fields.roomId ∧
      ∃ link, receiptChainLinkHash crypto receipt = .ok link ∧ receiptChainLinkHash crypto receipt' = .ok link := by
  obtain ⟨_, _, width, link, hashed, rfl⟩ := payloadOk.mp encoded
  obtain ⟨_, _, width', link', hashed', same⟩ := payloadOk.mp encoded'
  have short : issuanceAuthorizationDomain.length ≤ 65535 := by decide
  simp only [Wire.prefixedFront short short, Wire.u16Front, Wire.u32Front, Wire.fixedFront, List.cons_append,
    List.nil_append, List.cons.injEq, true_and] at same
  obtain ⟨parties, epochs, rooms, links, targets⟩ := same
  refine ⟨(partyInjective parties).symm, epochs.symm, ?_, rooms.symm, link, hashed, links ▸ hashed'⟩
  exact (targetInjective (width'.trans width.symm) targets).symm

theorem linkedInjective (collisionFree : Set.InjOn crypto.sha256 {bytes | receipt.linkBytes = .ok bytes ∨
      receipt'.linkBytes = .ok bytes}) {link : Vector UInt8 32}
    (hashed : receiptChainLinkHash crypto receipt = .ok link) (hashed' : receiptChainLinkHash crypto receipt' = .ok link) :
    receipt' = receipt := by
  obtain ⟨bytes, written, rfl⟩ := linkHashOk.mp hashed
  obtain ⟨bytes', written', same⟩ := linkHashOk.mp hashed'
  obtain rfl := collisionFree (.inr written') (.inl written) same
  exact linkBytesInjective written' written

section Verification
variable {proof : IssuanceAuthorizationProof} {mediatorId : Bytes} {key : Ed25519PublicKey}
  {keyMldsa65 : MlDsa65PublicKey} {roomId : RoomId}

/- Both signatures are asked about, and what they say is who signed. -/
theorem verifiesForPartyOk (signature : Ed25519Signature) (signatureMldsa65 : MlDsa65Signature)
    (ed25519 : Accountable crypto.ed25519 made) (mldsa65 : Accountable crypto.mldsa65 madeMldsa65)
    (encoded : encodeIssuanceAuthorizationPayload crypto receipt party credentialEpoch blindedTarget = .ok payload) :
    ∃ verdict, verifiesForParty crypto receipt party credentialEpoch blindedTarget signature signatureMldsa65 = .ok verdict ∧
      (verdict = true ↔
        Authorized crypto made madeMldsa65 receipt party credentialEpoch blindedTarget signature signatureMldsa65) := by
  obtain ⟨first, answered⟩ := ed25519.decides (ephemeralKey receipt.fields party) payload signature
  obtain ⟨second, answeredMldsa65⟩ := mldsa65.decides (ephemeralKeyMldsa65 receipt.fields party) payload signatureMldsa65
  have signed : first = true ↔
      ∃ seed, crypto.ed25519.publicKey seed = ephemeralKey receipt.fields party ∧ made seed payload signature := by
    rw [← ed25519.verifies, answered, Except.ok.injEq]
  have signedMldsa65 : second = true ↔ ∃ seed, crypto.mldsa65.publicKey seed = ephemeralKeyMldsa65 receipt.fields party ∧
      madeMldsa65 seed payload signatureMldsa65 := by
    rw [← mldsa65.verifies, answeredMldsa65, Except.ok.injEq]
  have whole : Authorized crypto made madeMldsa65 receipt party credentialEpoch blindedTarget signature signatureMldsa65 ↔
      first = true ∧ second = true := by
    rw [signed, signedMldsa65]
    constructor
    · intro authorized
      obtain ⟨other, encoded', both⟩ := authorized
      obtain rfl := Except.ok.inj (encoded'.symm.trans encoded)
      exact both
    · intro both
      exact ⟨payload, encoded, both⟩
  rw [whole]
  refine ⟨first && second, ?_, by simp⟩
  simp only [verifiesForParty, encoded, bind, Except.bind, answered]
  cases first with
  | true => simpa using answeredMldsa65
  | false => rfl

/- A signature is for one party at most. -/
theorem authorizedOnce (ed25519 : Accountable crypto.ed25519 made)
    (authorized : Authorized crypto made madeMldsa65 receipt party credentialEpoch blindedTarget signature signatureMldsa65)
    (authorized' : Authorized crypto made madeMldsa65 receipt party' credentialEpoch' blindedTarget' signature
      signatureMldsa65) : party = party' := by
  obtain ⟨payload, encoded, ⟨seed, _, signed⟩, _⟩ := authorized
  obtain ⟨payload', encoded', ⟨seed', _, signed'⟩, _⟩ := authorized'
  obtain rfl := ed25519.single signed signed'
  exact (payloadInjective encoded encoded').1

theorem verifyOk (ed25519 : Accountable crypto.ed25519 made) (mldsa65 : Accountable crypto.mldsa65 madeMldsa65) :
    verifyIssuanceAuthorizationProof crypto proof mediatorId key keyMldsa65 roomId credentialEpoch blindedTarget =
        .ok (some party) ↔
      Genuine crypto mediatorId key keyMldsa65 roomId (issuanceReceiptFromWire proof.completionReceipt) ∧
        Authorized crypto made madeMldsa65 (issuanceReceiptFromWire proof.completionReceipt) party credentialEpoch
          blindedTarget proof.signature proof.signatureMldsa65 := by
  generalize embedded : issuanceReceiptFromWire proof.completionReceipt = receipt
  have suite : receipt.fields.suiteId = receiptSuiteEd25519MlDsa65HybridV1 ∧
      receipt.fields.protocolVersion = TradeP2P.protocolVersion := by rw [← embedded]; exact ⟨rfl, rfl⟩
  simp only [verifyIssuanceAuthorizationProof, embedded]
  by_cases width : blindedTarget.length = authorizationRingDegree
  case neg =>
    rw [if_pos width]
    refine iff_of_false (by simp [pure, Except.pure]) ?_
    intro both
    obtain ⟨payload, encoded, _⟩ := both.2
    exact width (payloadOk.mp encoded).2.2.1
  rw [if_neg (not_not.mpr width)]
  by_cases shape : receipt.fields.stage ≠ ReceiptStage.settlementCompleted.toByte ∨ receipt.fields.completed = false ∨
      receipt.fields.roomId ≠ roomId ∨ receipt.fields.mediatorId ≠ mediatorId ∨
      receipt.fields.mediatorPublicKey ≠ key ∨ receipt.fields.mediatorPublicKeyMldsa65 ≠ keyMldsa65
  case pos =>
    rw [if_pos shape]
    refine iff_of_false (by simp [pure, Except.pure]) ?_
    intro both
    have genuine := both.1
    simp [genuine.stage, genuine.completed, genuine.room, genuine.mediator, genuine.keys] at shape
  rw [if_neg shape]
  simp only [not_or, not_not, Bool.not_eq_false] at shape
  obtain ⟨stage, completed, room, mediator, signer, signerMldsa65⟩ := shape
  by_cases verified : verifyReceiptHybrid crypto key keyMldsa65 receipt = .ok true
  case neg =>
    refine iff_of_false ?_ (fun both => verified both.1.verified)
    cases answer : verifyReceiptHybrid crypto key keyMldsa65 receipt with
    | error e => simp [bind, Except.bind]
    | ok verdict =>
        cases verdict with
        | true => exact absurd answer verified
        | false => simp [bind, Except.bind, pure, Except.pure]
  have genuine : Genuine crypto mediatorId key keyMldsa65 roomId receipt :=
    ⟨suite.1, suite.2, stage, completed, room, mediator, ⟨signer, signerMldsa65⟩, verified⟩
  obtain ⟨link, hashed⟩ := verifiedLinks verified
  have encodes (asked : Party) : ∃ payload,
      encodeIssuanceAuthorizationPayload crypto receipt asked credentialEpoch blindedTarget = .ok payload :=
    ⟨_, payloadOk.mpr ⟨stage, completed, width, link, hashed, rfl⟩⟩
  obtain ⟨payloadA, encodedA⟩ := encodes .a
  obtain ⟨payloadB, encodedB⟩ := encodes .b
  obtain ⟨partyA, answeredA, saysA⟩ := verifiesForPartyOk proof.signature proof.signatureMldsa65 ed25519 mldsa65 encodedA
  obtain ⟨partyB, answeredB, saysB⟩ := verifiesForPartyOk proof.signature proof.signatureMldsa65 ed25519 mldsa65 encodedB
  have apart : ¬(partyA = true ∧ partyB = true) := by
    intro both
    have same := authorizedOnce ed25519 (saysA.mp both.1) (saysB.mp both.2)
    cases same
  simp only [verified, bind, Except.bind, not_true_eq_false, if_false, answeredA, answeredB, genuine, true_and]
  cases partyA <;> cases partyB <;> cases party <;> simp_all [pure, Except.pure]

/- A proof carries what its receipt and its signer say, and nothing of it can be moved elsewhere. -/
theorem authorizationExact (ed25519 : Accountable crypto.ed25519 made) (mldsa65 : Accountable crypto.mldsa65 madeMldsa65)
    (mediatorId : Bytes) (key : Ed25519PublicKey) (keyMldsa65 : MlDsa65PublicKey) :
    (∀ proof roomId credentialEpoch blindedTarget party,
      verifyIssuanceAuthorizationProof crypto proof mediatorId key keyMldsa65 roomId credentialEpoch blindedTarget =
          .ok (some party) ↔
        Genuine crypto mediatorId key keyMldsa65 roomId (issuanceReceiptFromWire proof.completionReceipt) ∧
          Authorized crypto made madeMldsa65 (issuanceReceiptFromWire proof.completionReceipt) party credentialEpoch
            blindedTarget proof.signature proof.signatureMldsa65 ∧
          ¬Authorized crypto made madeMldsa65 (issuanceReceiptFromWire proof.completionReceipt) (otherParty party)
            credentialEpoch blindedTarget proof.signature proof.signatureMldsa65) ∧
    (∀ proof roomId credentialEpoch blindedTarget party,
      verifyIssuanceAuthorizationProof crypto proof mediatorId key keyMldsa65 roomId credentialEpoch blindedTarget =
          .ok (some party) →
      ∀ receipt signer signedEpoch signedTarget payload,
        encodeIssuanceAuthorizationPayload crypto receipt signer signedEpoch signedTarget = .ok payload →
        (∃ seed, made seed payload proof.signature) ∨ (∃ seed, madeMldsa65 seed payload proof.signatureMldsa65) →
        Set.InjOn crypto.sha256 {bytes | receipt.linkBytes = .ok bytes ∨
          (issuanceReceiptFromWire proof.completionReceipt).linkBytes = .ok bytes} →
        issuanceReceiptFromWire proof.completionReceipt = receipt ∧ receipt.fields.roomId = roomId ∧ signer = party ∧
          signedEpoch = credentialEpoch ∧ signedTarget = blindedTarget) ∧
    ∀ receipt roomId party seed seedMldsa65 entropy credentialEpoch blindedTarget proof,
      Genuine crypto mediatorId key keyMldsa65 roomId receipt →
      crypto.ed25519.publicKey seed = ephemeralKey receipt.fields party →
      crypto.mldsa65.publicKey seedMldsa65 = ephemeralKeyMldsa65 receipt.fields party →
      makeIssuanceAuthorizationProof crypto receipt party seed seedMldsa65 entropy credentialEpoch blindedTarget =
        .ok proof →
      verifyIssuanceAuthorizationProof crypto proof mediatorId key keyMldsa65 roomId credentialEpoch blindedTarget =
        .ok (some party) := by
  refine ⟨?_, ?_, ?_⟩
  · intro proof roomId credentialEpoch blindedTarget party
    rw [verifyOk ed25519 mldsa65]
    constructor
    · intro both
      refine ⟨both.1, both.2, fun other => ?_⟩
      have same := authorizedOnce ed25519 both.2 other
      cases party <;> cases same
    · intro all
      exact ⟨all.1, all.2.1⟩
  · intro proof roomId credentialEpoch blindedTarget party accepted receipt signer signedEpoch signedTarget payload
      encoded signed collisionFree
    obtain ⟨genuine, payload', encoded', ⟨seed, _, own⟩, ⟨seedMldsa65, _, ownMldsa65⟩⟩ :=
      (verifyOk ed25519 mldsa65).mp accepted
    have same : payload = payload' := by
      rcases signed with ⟨other, signed⟩ | ⟨other, signed⟩
      · exact ed25519.single signed own
      · exact mldsa65.single signed ownMldsa65
    obtain ⟨parties, epochs, targets, rooms, link, hashed, hashed'⟩ := payloadInjective encoded (same ▸ encoded')
    exact ⟨linkedInjective collisionFree hashed hashed', rooms.trans genuine.room, parties, epochs, targets⟩
  · intro receipt roomId party seed seedMldsa65 entropy credentialEpoch blindedTarget proof genuine owner ownerMldsa65 built
    simp only [makeIssuanceAuthorizationProof, bind_ok, pure_ok] at built
    obtain ⟨payload, encoded, signature, signed, signatureMldsa65, signedMldsa65, rfl⟩ := built
    rw [verifyOk ed25519 mldsa65, fromWireToWire genuine.suite genuine.version]
    exact ⟨genuine, payload, encoded, ⟨seed, owner, ed25519.signs signed⟩, seedMldsa65, ownerMldsa65,
      mldsa65.signs signedMldsa65⟩

end Verification
end Proofs

theorem tableAccountable {Seed Key Signature : Type} [DecidableEq Key] [DecidableEq Signature] {publicKey : Seed → Key}
    {entries : List (Key × Bytes × Signature)} (keyed : ∀ entry ∈ entries, ∃ seed, publicKey seed = entry.1)
    (single : ∀ entry ∈ entries, ∀ other ∈ entries, entry.2.2 = other.2.2 → entry.2.1 = other.2.1) :
    Accountable (signatureTable publicKey entries)
      (fun seed message signature => (publicKey seed, message, signature) ∈ entries) where
  decides := tableDecides
  verifies := by
    intro key message signature
    rw [tableVerifies]
    constructor
    · intro known
      obtain ⟨seed, own⟩ := keyed _ known
      exact ⟨seed, own, own ▸ known⟩
    · intro held
      obtain ⟨seed, rfl, known⟩ := held
      exact known
  single known known' := single _ known _ known' rfl
  signs signed := tableVerifies.mp (tableCorrect _ _ _ _ signed)

/- The holder of the settled room's keys asks for a credential. Link and signatures are the library's,
for the seeds of the chain of one receipt. -/
section Asked

def settledSignature : Ed25519Signature :=
  #v[0x8b, 0x6d, 0xc6, 0xac, 0x1a, 0x52, 0x07, 0xe0, 0x5e, 0x4d, 0x4f, 0x63, 0xcf, 0x9d, 0xcf, 0xb7,
     0xce, 0x44, 0x08, 0xff, 0x29, 0x22, 0x4b, 0xcb, 0xd6, 0x41, 0xc4, 0xe6, 0x58, 0x9d, 0x08, 0xbc,
     0xab, 0x54, 0xbc, 0x37, 0x87, 0x2b, 0x49, 0xe2, 0x3e, 0x91, 0xdb, 0xd1, 0x90, 0xdd, 0x61, 0x43,
     0xbf, 0xa2, 0x37, 0x1e, 0xb5, 0xa6, 0x39, 0x0a, 0x6c, 0xd6, 0xb3, 0x88, 0x38, 0xa4, 0x4c, 0x04]

def settledLink : Vector UInt8 32 :=
  #v[0xc7, 0x91, 0x90, 0x54, 0x01, 0x42, 0xb5, 0xd8, 0x66, 0xbf, 0x53, 0x6e, 0x7c, 0x5e, 0x0d, 0x58,
     0x8f, 0x41, 0x7b, 0x71, 0x72, 0xea, 0xfd, 0x20, 0xc8, 0x5b, 0x4f, 0xac, 0x7f, 0x67, 0x7b, 0x95]

def askedSignature : Ed25519Signature :=
  #v[0x69, 0x5c, 0x53, 0x05, 0x97, 0xa9, 0xe1, 0x80, 0x35, 0xe3, 0xee, 0xc2, 0x28, 0xc7, 0x4b, 0x41,
     0xa7, 0xc2, 0x85, 0x6b, 0xf1, 0x6a, 0xce, 0xd6, 0xcd, 0x11, 0xf7, 0xea, 0xf0, 0xd3, 0xd3, 0x1e,
     0xe8, 0x01, 0xde, 0xa1, 0x8d, 0xb8, 0x96, 0x4c, 0x99, 0xf8, 0x53, 0x0c, 0x62, 0xed, 0x32, 0xd1,
     0x4e, 0x64, 0xf3, 0xda, 0x82, 0x05, 0xd7, 0x5f, 0x03, 0x6a, 0x06, 0x0a, 0x25, 0xea, 0xe9, 0x05]

def settledSignatureMldsa65 : MlDsa65Signature := words 3309
  [0x03a3f95ec9095ad4517298a00d104be024d0be6910037734e3668859aeab9f3455184363353ad058fd04a7360a70ab013a777f931987b2242b02da050c760936,
   0x33db2445119b909b932a7bebe114e1c80e6db60a810d465f7d5be9b27a627f3753334f198c1d40b4886285868f5d39a6f60a6ada823804b202c725fbea3bc803,
   0x6aabfcc2a756169f16f8c806aff38ff2fbcf02cb52d901ce9a28b7c01556453c8b5bc1e9a1a88da55b3f9a2be359be4bdb617280c3597b689a79dc506d7ad95e,
   0xe7777c891774a938d9e30f8e3c053ca47b8c5b8dd3a86d573cba778e19ca1c2a2d631cbce408702e4bcb072cfd264dbc587593b001d4e34a9cc954c0c6568643,
   0x862132a57c6cd9d280327d593f53363a998e8f87910e4d8bdea65bf6f2eee0d39c3bc95238185fc3b1042161b50576436ec04317d28a8a4df3298a517b6e7b12,
   0x13975dec868d1f4050e9841677cec09433bcd7d1646b625d0d3922c7f38bf3b094bb42514267cd0ddddd51644f0661c7cf2f28108b25cfafaf4dc6d2e82b87f3,
   0xc802bc6285497a4c8d2b8dfb16156ef4078cf7926bc4e7a016dcc9373652319587c366a30f22ea90771fb78d493553e242d2db48d7eae0b2bdd8325aa6148956,
   0x2f3b41b26b97fcab863cbc9496014c07788794dade7badd3d611a57c6f447e3ac9b51c9813bd1268d8d8837cfeec9a571deba29607131d6c6357affa8bc7cf94,
   0x34810d703eed158d9a908a1c862e9b73859a76c5c69cff0bc27eadc806525c11789067a8d472370820725208a894fd93c355296f3ec53002bc70d82d85b0db78,
   0xfa68f0e32b2cb1431cd2fd689759b3894a2dfb69dab962725c5c3d73af11a80f6989743d6a462da63d69d6306fd8d0460406a77369181359b4f31ff4aa7525b0,
   0x8e3b7839e182e38bfdc6ea35413a7cbbb597421065349b6c7d7ecc5af72f37461a7cbec7deda0e9aeef45148c2eb3da7fc0c1461c6cb8325816e8903947ca557,
   0xa72888ffd2d5e3468946a50a939f9c2a6e6e0e3274f63dc7bbad97abfd5ed3a79b0ba8a3b587b4ccd8bed8a6856d5937db3306350fb4f22f1d6705b2a8043d19,
   0x3c3502da4cc80a4dbfc946db889dae6f3c6fdbd95b1c3aaf0c58651d06708afb796250d4728e85529f7fcadf46875cce81d5f948afc8368b8669aaf9f1f81054,
   0x78ff4c61fa8bc8cf057a63da5d53724be476c4058508edfc7ae9a2719decad761a64513926a3dbab849dfee8dadd1d133ca56d8c35a502c1a12192ae744c893b,
   0xc19cb25e8951ffad0221e93cc26058b89d6ff28bb91151cec86cf5898c99ce592ba5feac71bda50bac9030ee3342a37ef974d95ea6e3b184c16f0fb4352a1988,
   0x6df10f118ea3eb9cd1871ca400d3811b6f33383fca4d5b2e8cfd4936f24ccadc071b15c4fa77016e2bfe5f0f94db33641ab9c74e95dabd1f50e4f3446369b75c,
   0x21499280e4e37f2d624805a98a1e217a0d1e69cd945627baebaa7127b4855306d5b0d32d9be827ede8d0a868b388208451ab9f1ba8928f455b7833a982394d0f,
   0xc65deea3cf264c9900fabbe6cc75e322d5e4d17f80efd8fc89b35a88471f146855c0ddc8d11abfc6d1c7b0b6f67a596720e11d53b61d0607f0668975727c5b65,
   0x5939944375701441a41a0f2666b00c1d5ac7f9bc349710e81e222bc20017bd0ba9a8298eb12faa201f1c199066bee1a7593749c6f515a849f0a4f619b2acc8bb,
   0x949f34682245a4c49f2acd4f5ad0606277b7876c6a2ebf2f396687586f84f7f4d6343cf3dbac6e125070851425721ad6a1abc4b3ef010a5e22d3ceaa87dcdea8,
   0x7963c1ea799d373d5793b2372d26e81ca35dcbeeebdd0a9e389654a8b7f7baf44e919be7a58e6ce379b1ded874ac03162cf10ebe04c20cca0055619d5166037f,
   0x6aa692e33c48cc24b8ea44b21ba7950230327b52d010821bc53321cd04b1cb4a237b29bb256e656a8ec390c8f24c112c855ed6b88495454ce222016ddc98436f,
   0xaa2d5e73d92f70f8ef6377d1f0d3bc728a2be8bb3af42297e0ca30b4fa6340869c69c4648dac6cdb365cbcb446cf7658255860678277212609f075584d927373,
   0xaec1af4103e88ed41d97b3f3ccc0ec45c83266118ec1a8469edefa0250dc90026293f6d3210bb09555aa6bd812f72e77764f6c454ff3b27f680ebb3150aa9277,
   0x7c49238c8133d97ac3bfd449e9f0ecfdd115e552a1c37878eae66da72fb8a31f305a44c0160a8507b4e2223fae7053d224566f05dd03f1e60374ad30ccbc9349,
   0x7b9795dce7287749928b38435e307d33eb1d770f2362f11ee50df452bd6b3b55d7c5683944138c565b2c2a65915e4f291b2fea08fccda59f360d423f07c2aeda,
   0xad747da8ad62f227f0945a9d8095f501919e7f8515fe1059921fda5a6a085cb59f507c69d309da3892676dd54393ff7a792bc3fdba16d0cd96494481cbb3291f,
   0x5dde2aceab9ff8dff07c9ff7f53e10f8b532fad5514879d692f002bbfeb679a7514e04f451af23ea8f5f69407f4ea608c7d5e6cc08003f56576d3ee6f715c517,
   0x856e1d50e44e79847a9b68f68852063cf2f9228e2a836723b0b8760e2b5d7ece9cde8165be92ff6213862a0c09ec48dab0a5dc2ddf82f7b89eb1ec8307a7aacc,
   0x64659ca5f99d9063e86601972e849af23efc0cf4ab9bacdc9214e82be7c70f5114f23d77820043ad7eb86cefbf9d39972a7c23353ad6ba9dc9f0be7f9b9fe717,
   0x0ae1f754d400b9c08a2cc6d774b95e11c0611b5c4bd25ea6dc83440ed5f1003b14351df6dc4f83fc76a9f9f6566ac990bdb8c639357a4ad587c247b3573d3a25,
   0xb10992c992750fb319d443fe38a64aeecbd9bd679c6aece3ca001129f6403325c17eecd635e36e17d1b8102897001b74b08d2015387c05cd52813711f5bddd39,
   0x5178e5f34fe23149fb56b6b6d871c2917c5b156dd5ce56b02a2f6e07981d71ea598e01fc3c19f0d113483128fe2a5039a343d48a8fdcb771df4762e3d2d30f1f,
   0x1bfe9929208352d5be269f88e1e41fc977dfb40bcb79a7e549c803ce821f18faef747e49734061ddeb1b25f5823dd6449243fc0598209b45c881373ec744d96c,
   0x136fd30bc18ccb27b5e625dba429a88dc6c8b097349f097b7d3e385e167296edeb297ab87a39b8f43dc66625ffd2e4a44ed9526a50701aa348e2e5c3b611f354,
   0x85ae9f32ce3f9766198612c1e25882414e6a13c64bf7dc215835af4cee0137deee446f4f65e1d96d9faf84227312b8225ab8b9eba6f64e2749d7e6eb3f2348dc,
   0x5e287d7bc45fce8c82572f584de7930d8e4b2ad5cdf21c69b4047e36d9e83a28d3dfd01f7adbe1f29d8e4f3ffe7c8b6d464d51d5eb32ddd46fc78ca1a3e60ec4,
   0xa974627d15cdb115a9cfcd814b8dc369a1195b7a50bcbc2f3b9331d706ca39d74bd5094ec9648295aeaa75119d6c5f8034ffc4306a0674fe461ac9c4a1af94c8,
   0x001137dc5b7a81147a6b395df8db22ff2c32d0d1abcdc03b0f391b87a9c488f6a367e6a1d3afa41517ef82b492446914a340399ce0b1997f349b1a337605d43f,
   0xc82b8c599c7bef138ca42fb75b51b983a4179a6faf9dae425687fba1d0c03967561fe8480c123efc617663df3b104c0c424395fc466b6faf115e0c0f3ade286b,
   0x4536a3ae25107e46c61dc00ed6246806d488100b3031d5f57dd80dedde2155f1dba771e94e9e783ffbdf9e8ccd23eb9abe4c3f3b69ae2d4bddfe0fc40b7b33e2,
   0xce5f6d997e34a5a33bac5e645271359f04ce56bba2b574275fd326f3343dddb5c629b7b37b54a540dd8d9433f530bf31ae57240dd586ec13ebe411bf27927d5a,
   0x58d85f42f516692ad69dc3d293104576e27d9d9e248bc6983cbe2fb30e83aa3198878fd8e958ec2f9a29f38aef776c4623f85ef59f7a2deea469fab7fac4cb32,
   0x31239eaadabfa422724c321a75396ba32360bee550a18d6ceff0e0276256929a6ae196710da2ee60ab48dc2c07c4a3caf28d7745732d327cd2f340f037d41733,
   0x2827d767a7f7af0a9d03e125651df68b867337d3193022959cda783f6f99358de1618365e5f0c21364af07f533220fa0475a91e560f2490eb8811d8cefb72675,
   0xa9e6f8ab8d0af70ee4c7c2c7103270eca3a46ba1b36f5badc4dda01dcab5742623e92cfa65e6542b9f65281bd6ea03d039f49dbe11038b5f1752a05f5b2e5af7,
   0x7dcd012c68fdbbb532e6a7e445d75cf0e70bdee39b9b38255ee2c2c9bbcd5a8007b236286fab3995be18939b7d2a8f757f2795ff84d12aa37664b4062b538627,
   0x2f1c32ac6a63c1aed98ae883f56b867de608b89b152a2a6c80bc840fbba3ecccc441c62ae6f693866661d4284a18b33ccd77435e86e92a9e1c5c649bf7fb459b,
   0x819ad01595f4cd00970665639615375c2f055f00c26dbecaa069531075d2730d1bb56acde61710b456c3904befa0905ed47713fa7371294abad0ffa20417f13a,
   0x90f0bda0c22c1e4c0de9386bc63c312c7efe21db970b60d8cda10f9c9a6a7360b91e0b679b846b38b043c1506c4d7b907d15b0b701c2f6ca8b628c23a5c72689,
   0x363efa1621424eb543c3d6d0eee7d0ba1d46a61d38ce1f565810dcbdc97957e5d42a37a7256b940f190c47d583245b3f2131395f7174e31c4f6f7eabc3cfdb25,
   0x4dc1112f4b6586e0f6364d4fb1ee0f232c2eaf0000000000000000000000000000000000000000070f12191e2300000000000000000000000000000000000000]

def askedSignatureMldsa65 : MlDsa65Signature := words 3309
  [0x93991468055113d27a91eb899dbc98766aa1a841b78242dd53681f36888121b4711e118f4acca4507c55ed530ae751a026cbe60ac5003f2ba5f487e8e0412d83,
   0x01926b040394cddc958ea3e46b33af43a3c53928ab9e3e833c8909daa89d9588bb82d847ade803d2e4c4d62381a61e31ecd087dd1bc5fa6dcf82e30ddffac0ed,
   0x51990350c36f92e86ee57e38cae4e75a0de1913adc0adbd4f91e5487598f0c6a7aad48f01204bc17b22ffb67e4f19372beb016e4186599ae533592fda0c4aead,
   0x5e8ea9ed78fb32805a8cfadfcdcc25b1b8f3defa62e95ad6733b4592f6cd20884a43cfee1fc49762c1ad2f2e30fcb8b4e078c762ebda6b78af044bee7dc49d3e,
   0x60377ade6dca4a13d1cbee89be7a365089c259893e5abe314efb77f7aa35ef1750402f19a4fc6225d991fc268fb5a27429cb3d01d9708703036c16195983fec7,
   0xb38a32aa7e21ee1252ea2cb5682d0b4d8cef4082111aab47a2136cffc18c1d9d9cbd06c8772e576b8fac377e54be0dca118890cd6ab48f217c595e564a729100,
   0xd073cd0d944401e5a0f8164a9b32f2edbec5a9ff2962ec208eb794f360f6505803bba6451a7bca08407f54796d7292621329f019497647ba9a97436b0dc51f97,
   0x07e25ac085863bcf0a969ffecdeb35542e32ff85ac16c92e662efd3656648d08b78fb7e54fc2820fd533359a3a30d1cd25ca5301ac5c5dff52054eda25d844f8,
   0xa6ef013c56c6f1fb1553bb069e727f676c35b60195a2ae65e3b42bdb5627636c3d6df6f0e52d58220932d2de6edf71a05523fceb2e065aec2020c04d14dbfc00,
   0xe131a65ea784e55ea82e6529caaaafd54ef2eea2b484aa854c634966b07354a1e98ded6534d091d82bfaf626d6a6917d577c79ded6946631901eb396a8374ece,
   0xcab43afa6a5ee286a37bb5e523e307519f0f4a8ec28b0e75a626c469313cff95463bcac8b0d02f0988c0ceb06647f912b9a3106ae57c2ed633b5f104f9c74a43,
   0xbe0b271f0f59911bc12be1d7e69c5fc3981f7d814be332eabbe2da6de9554fa999d898e131c824bde7ccdaf21f1c23959d9cb2b2c24cf4aa284fa60d79bad251,
   0x389727ccc3cb68df3fcfd3382ae0fdf35527ac9b907b1ded3219077a02fd52a5422b4568b204b3775ba265471f688e643382efbc5e36290f3dca105cfb44d650,
   0x2c78c2b3162adac1097403764deeb60e40af3e66d55ec6dd3226cdbab81bc7827132123bf1425f329263378bb301b5acdcf9a32a1127d47a9f0b51d4b5f77ce0,
   0x09edc8f8fac8e4b68f61831402f0ad4ad18a140c22f6db207ed555e6d9ac23ebb438d39be94f2a304596c801294ad9b1df8a867ccbc505e5d40085669b0b3dac,
   0x392c16e607e9ea1bef03e28e54a8609a9da8fb837cef1f1b7a9e6dd94fba0886c8a4911cb3bcfdc89d8b75bc5f45616c92932b9f364865f6998118b9d89360e5,
   0x9dd329686339aaf9ee250cf5fcf6e35fa7897dc2cecf89ec99b738a49a7f33a86274112422da5364f5368addb84d4e78bcc6f971a253ec6683c92285687d9199,
   0x8ccd81dd2258182db4c71e7a39859ef4a94096108a1752c6e2f6f7c1c0ec5f85340c66b1e6e6ec4d847cc2cf36666d462a7e2262c15612f821cffbcbb74226a7,
   0xc5ddca9a0b42e6834acbba43ceaae98fe1c377b1ae7e574df64ede387bc28856bc452bb12860138825b47bfe5471f441365a8668d4a32e84c89b647df29192f8,
   0x708a4e5a9ad87134c247ee5aa5d3f919392b09ee73f3d2ad455535da233c823df8d03c58019bb8f8709b9d1fc5a8bba26399b0b95bb12e6178148adbd0fc6adb,
   0xbc7e366260b83e74ba5c5be42eff958c0fc6826b5e6c41a9097eadc9c24f1f2cc0e4cdb691f79082f3fa66a0c3941eea42e8bd08f2400cc2daef7f9cc6ad064d,
   0xec042cec89992d85f98f294c1fcb77d40ade115783ebee1c536d76d1ebf73233a23a42df7110d8c43a7d2bff6864f473b5c31345addea385d8ea77d6d2616806,
   0x096b4008a44ba712c3997abfc42dbb2c8584597ae42474da87bd1fb91e7522945e2e20ddeaa522e03af763a26e176e9ecefd05ea3dfc8919b4ac7a4bfa57ed15,
   0x9c9c44d9314587c263993886a9a6efd2e4d83ad299ac352bd04d38744c5130ed997c0390621b5a14d2e19b87735776c3940cbf06908fc1e9f623478df15659a8,
   0xe09eae545b9511547773297d2871f1e01c18e5901b22045fc5b036957a9ce4fecbac0ba87514c54d3c1cef79036ebc33cc964ab847f00c95bd8fe4d0d897c749,
   0x18a9b875f845b2e5bed479c32613fd2548e08b062a15a2edf68470c4f6ee1d775b4f5062238e218b1d19d21953323837af56bd629bb87a0f73cdc55d63426e29,
   0x078cd9e26592d3aa120a3fdb96625c21a3ac4349f04941e354af7f4539843583bcb17eee13c3df04b389627c54ba27cbbf46ac91a9a46e97fdeb7e8a1244b25d,
   0xa37a41453d211d8e365935349ef61b420a6456f5d523670b1a4f655d9ab11928c358bbac378a64f08dad19d83a69d63e788fb89831190cda22b5abfcbc153222,
   0xa3a70b8f7d13d54ad3ca4cc8a157e17c79cd221e598284138bf7236ca8fdd6ce9b0af3b60a602f0f1c345dca0fdf60c823e666377edbf886177c7f2731151321,
   0x76b604dbc677c5f7968c93a11633ae5c79e01be8acf6d479e9b4f9ed8943ee4ffd009804bd103846d9fbe295ca8f66013aa47f9f23a380f4bbaf4931e4fd59b4,
   0x240105d679edab59269adf0476efe0948acd2b82a9a6205067513a9be2240112292501eecd1b1bf335b4f2d3e5677be6ddc2e333076812be2523b64680b26e99,
   0x4b5b04eb4bbba12e532de63642f176c1da63637f7a70fe7ff8a4d4c4d4bab586e5bbc33dc867247f49694fdf82dfad9b025e973bbb2190ce1c0a7272e7eb41aa,
   0x0c8de83f13e40e139f07e6fd685ef57c2278ce96ab48c69e660328a5d9bc1f86bfa0bab79c48db572ab9276a8f20aa02616789241870922359e6fb7c057b093b,
   0xc79cfdf6b477befb25965abccfb7bdfaeee3d264c4b84d99fef0236c6bb4815f0132a896add97d2715f9b70e1673f9f8f87d6627587fe57f7111eb77563f152e,
   0xe05b8746f0f6221ac0a6b8eb9b5f891b668fed9ceee4159cdeee7aff11ee712baf1eb848c87c63a0e6c838388d32e46af23ab08c7cce8a8d6cd245f34d95f987,
   0x423f585f91cab0de583db280e1dd714782bb8d0e2c21b7629489e1ab7732f785bc77be75214b9a1ca430f806c02a3db1a0f32bcf441f0f52077b1dc9bcbe896c,
   0xd89de8955426d5976570f694425ff51cf29b50fbf2740579d303e06b054b6368b07e449365a5036dafaac332d1547031e46123a4567bb65deba3d08cddf40ceb,
   0x67f9df76f2d2a099a04c1e7c903d8dd4638d6cd3eac083de214b5ee7cc21d0e2b9c1c17dc96da8f9d56bd687bf388a1be55d8022f88a6c1e5e70004dfbeec742,
   0x196ef80370ebf2f7fd5515abf0c55c78273546bc519777544f133de2d627d919790bf6110b1e832c76e3a977eb7c641b0c8aff467beac8aa011cb65ee8ee16d1,
   0x44b370badad1c24d5749452e0b0bb2de56238abdf3a78b13f38a0da7cc7fd6cd92a7a2ea134655c87c84fb6a7439af38079b49c5b6ae450f2754a0ab5115303d,
   0xab36c7d0c977be507d23bd26134822021aa7b2ac1306a28c69d545dc399d4a44cb9672ccb92cb82e25a338e3a7aa89795aca1ed02818c96b4df1cba22c2a3fd6,
   0x1ea3dc85717f87f2cc67a04d0bd19c84ac2d377d2a89cabbc9757a6194c79d2a66bc49f4c71f666cd6d31be549fae3b02b6b8efb719487733d0d22e705309221,
   0xf5a8e59c300e72df1bd1e5332320be7183ac9228e5b978a02998b6db0cae6e7c73b5d18583596103d32bbcdcecfe1ce48e6486e823760db995e4aa63836ddd8c,
   0x149a75b0b0f05cbb0d1b4fe6875db5a2a50c597f290d603050e99820c431d7cc006e9d617ad00690db52d43c536f2fe57c29faf315adf89a4e0cd0ff86efbea4,
   0x039295640890edaace4687e96981ca22a0357c115a5ef3d8f78919ca02b3c9a6217f63a5ec2c73bf4065992032fd6e57e0d4d21a07fe7919bc04440501772438,
   0xb013b04d31ac0a71c628004d68506b4ac67bd681ff1e438b1ed1c6a9d245a598a1d99403a721a0a1cf6bf43380d0cd5ab204dd1ccb35d969789b13eca684c5c1,
   0x991d044122352a50a18acff660643d173effa006b22ea6722337ec486433093b5f4514b9945e9b3c78e350184897f9c7cd77afd75255e73cf25b87bdcf8fec60,
   0x92eeceebce4eb2809a236f815c036627e055f91238315b58c875056361b72aaa8e5bd0561e3b1cabdc699d26dd7b9a1ad451cbc8e26e3d5634fd0c42af5656f9,
   0xdafe2dd8ffb20ad37bd90a4c3feb5c0837497110764da6948f53990668964a58140a3501d8053d616f3cc3c0e17aa4bc82e6dea061cdd577832a23f335399e0e,
   0x318561eed533b8bff7864004e90c559ddfe00debc70ce5bb5aa5a801d3f88acf80dceb721ce270379929fb2110d864b931476c7908eb78ff4b38a3c4be8d80bf,
   0xb753097ffa3960ae793396776f857a0740b54b978cdaa30f971bf835e631ca0091f78a44128d4a91cd2b570b82a7814a0722585e73213b455065990216444d6e,
   0x7f81ecfd0b1d409db5b8bbc8ec18d3e893a2d30000000000000000000000000000000000000000050b141d202300000000000000000000000000000000000000]

def settledFields : ReceiptFields :=
  { issuedFields with stage := ReceiptStage.settlementCompleted.toByte, completed := true }

def settled : IssuedReceipt := ⟨settledFields, settledSignature, settledSignatureMldsa65⟩

def settledPayload : Bytes := (encodeReceiptSignedPayload settledFields).toOption.getD []

theorem settledEncoded : encodeReceiptSignedPayload settledFields = .ok settledPayload := rfl

def askedTarget : List UInt16 := List.replicate 512 7

def askedPayload : Bytes :=
  Wire.prefixed issuanceAuthorizationDomain ++ (bigEndian 2 TradeP2P.protocolVersion.toNat ++ ([credentialVersion] ++
    ([Party.a.toByte] ++ (bigEndian 4 (0 : UInt32).toNat ++ (settledFields.roomId.toList ++ (settledLink.toList ++
    askedTarget.flatMap fun coefficient => bigEndian 2 coefficient.toNat))))))

def askedSeeds (seed : Ed25519PrivateSeed) : Ed25519PublicKey :=
  if seed = Vector.replicate 32 4 then holderKey else issuerKey

def askedEntries : List (Ed25519PublicKey × Bytes × Ed25519Signature) :=
  [(issuerKey, settledPayload, settledSignature), (holderKey, askedPayload, askedSignature)]

def askedEntriesMldsa65 : List (MlDsa65PublicKey × Bytes × MlDsa65Signature) :=
  [(issuerKeyMldsa65, settledPayload, settledSignatureMldsa65), (issuerKeyMldsa65, askedPayload, askedSignatureMldsa65)]

def askedCrypto : Crypto where
  sha256 := fun _ => settledLink
  ed25519 := signatureTable askedSeeds askedEntries
  mldsa65 := signatureTable (fun _ => issuerKeyMldsa65) askedEntriesMldsa65

def askedProof : IssuanceAuthorizationProof where
  completionReceipt := issuanceReceiptToWire settled
  signature := askedSignature
  signatureMldsa65 := askedSignatureMldsa65

theorem askedEd25519 : askedCrypto.ed25519 = signatureTable askedSeeds askedEntries := rfl

theorem askedMldsa65 : askedCrypto.mldsa65 = signatureTable (fun _ => issuerKeyMldsa65) askedEntriesMldsa65 := rfl

theorem askedKey : askedSeeds (Vector.replicate 32 4) = holderKey := if_pos rfl

theorem askedSigned : Accountable askedCrypto.ed25519
    (fun seed message signature => (askedSeeds seed, message, signature) ∈ askedEntries) := by
  have apart : askedSignature ≠ settledSignature := by decide +kernel
  rw [askedEd25519]
  refine tableAccountable ?_ ?_
  · intro entry mem
    simp only [askedEntries, List.mem_cons, List.not_mem_nil, or_false] at mem
    rcases mem with rfl | rfl
    · exact ⟨Vector.replicate 32 3, if_neg (by decide +kernel)⟩
    · exact ⟨Vector.replicate 32 4, if_pos rfl⟩
  · intro entry mem other mem' same
    simp only [askedEntries, List.mem_cons, List.not_mem_nil, or_false] at mem mem'
    rcases mem with rfl | rfl <;> rcases mem' with rfl | rfl
    · rfl
    · exact absurd same.symm apart
    · exact absurd same apart
    · rfl

theorem askedSignedMldsa65 : Accountable askedCrypto.mldsa65
    (fun _ message signature => (issuerKeyMldsa65, message, signature) ∈ askedEntriesMldsa65) := by
  have apart : askedSignatureMldsa65 ≠ settledSignatureMldsa65 := by
    intro same
    have first := congrArg (fun signature => signature[0]) same
    rw [askedSignatureMldsa65, settledSignatureMldsa65] at first
    simp only [wordsAt] at first
    revert first
    decide +kernel
  rw [askedMldsa65]
  refine tableAccountable ?_ ?_
  · intro entry mem
    simp only [askedEntriesMldsa65, List.mem_cons, List.not_mem_nil, or_false] at mem
    refine ⟨Vector.replicate 32 5, ?_⟩
    rcases mem with same | same <;> rw [same]
  · intro entry mem other mem' same
    simp only [askedEntriesMldsa65, List.mem_cons, List.not_mem_nil, or_false] at mem mem'
    rcases mem with rfl | rfl <;> rcases mem' with rfl | rfl
    · rfl
    · exact absurd same.symm apart
    · exact absurd same apart
    · rfl

theorem settledGenuine :
    Genuine askedCrypto (ascii "m") issuerKey issuerKeyMldsa65 (Vector.replicate 32 0x51) settled := by
  have signed : askedCrypto.ed25519.verify issuerKey settledPayload settledSignature = .ok true := by
    rw [askedEd25519, tableVerifies, askedEntries]
    exact List.mem_cons_self
  have signedMldsa65 : askedCrypto.mldsa65.verify issuerKeyMldsa65 settledPayload settledSignatureMldsa65 = .ok true := by
    rw [askedMldsa65, tableVerifies, askedEntriesMldsa65]
    exact List.mem_cons_self
  exact ⟨rfl, rfl, rfl, rfl, rfl, rfl, ⟨rfl, rfl⟩, verifyReceiptHybridOk.mpr
    ⟨bind_ok.mpr ⟨settledPayload, settledEncoded, signed⟩, bind_ok.mpr ⟨settledPayload, settledEncoded, signedMldsa65⟩⟩⟩

theorem settledLinked : receiptChainLinkHash askedCrypto settled = .ok settledLink :=
  bind_ok.mpr ⟨settledPayload, settledEncoded, rfl⟩

theorem askedEncoded : encodeIssuanceAuthorizationPayload askedCrypto settled .a 0 askedTarget = .ok askedPayload := by
  have width : askedTarget.length = authorizationRingDegree := List.length_replicate
  rw [payloadOk]
  refine ⟨rfl, rfl, width, settledLink, settledLinked, ?_⟩
  rw [askedPayload]
  exact rfl

theorem askedAccepted :
    verifyIssuanceAuthorizationProof askedCrypto askedProof (ascii "m") issuerKey issuerKeyMldsa65
      (Vector.replicate 32 0x51) 0 askedTarget = .ok (some .a) := by
  have authorized : Authorized askedCrypto (fun seed message signature => (askedSeeds seed, message, signature) ∈ askedEntries)
      (fun _ message signature => (issuerKeyMldsa65, message, signature) ∈ askedEntriesMldsa65) settled .a 0 askedTarget
      askedSignature askedSignatureMldsa65 := by
    have made : (askedSeeds (Vector.replicate 32 4), askedPayload, askedSignature) ∈ askedEntries := by
      rw [askedKey, askedEntries]
      exact List.mem_cons_of_mem _ List.mem_cons_self
    have madeMldsa65 : (issuerKeyMldsa65, askedPayload, askedSignatureMldsa65) ∈ askedEntriesMldsa65 := by
      rw [askedEntriesMldsa65]
      exact List.mem_cons_of_mem _ List.mem_cons_self
    exact ⟨askedPayload, askedEncoded, ⟨Vector.replicate 32 4, askedKey, made⟩, ⟨Vector.replicate 32 5, rfl, madeMldsa65⟩⟩
  have embedded : issuanceReceiptFromWire askedProof.completionReceipt = settled := fromWireToWire rfl rfl
  refine ((authorizationExact askedSigned askedSignedMldsa65 (ascii "m") issuerKey issuerKeyMldsa65).1 _ _ _ _ _).mpr ?_
  rw [embedded]
  refine ⟨settledGenuine, authorized, fun other => ?_⟩
  have same := authorizedOnce askedSigned authorized other
  cases same

end Asked
end TradeP2P.Credential
