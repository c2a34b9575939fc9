import TradeP2P.Protocol.Crypto

/-! Staged receipts: what the mediator signs for a room, how one receipt links to the one before it,
and when a chain of them is accepted. -/
namespace TradeP2P
open Wire (Bytes ascii bigEndian)
open Checks

def receiptSuiteEd25519MlDsa65HybridV1 : UInt16 := 2
def receiptMaxMediatorIdLength : Nat := 256

inductive ReceiptStage where
  | termsAccepted
  | roundAcknowledged
  | penultimateObligationsComplete
  | settlementCompleted
  deriving DecidableEq, Repr

def ReceiptStage.toByte : ReceiptStage → UInt8
  | .termsAccepted => 1
  | .roundAcknowledged => 2
  | .penultimateObligationsComplete => 3
  | .settlementCompleted => 4

-- A stage read off the wire may be any byte.
def requireKnownStage (stage : UInt8) : Except Error Unit :=
  throwIf (stage ∉ [1, 2, 3, 4]) (.invalidArgument "unknown receipt stage")

structure ReceiptAckFields where
  suiteId : UInt16 := receiptSuiteEd25519MlDsa65HybridV1
  protocolVersion : UInt16 := TradeP2P.protocolVersion
  mediatorId : Bytes
  roomId : RoomId
  stage : UInt8 := ReceiptStage.penultimateObligationsComplete.toByte
  termsCommitment : Vector UInt8 32
  timestamp : UInt64
  deriving DecidableEq, Repr

structure ReceiptFields where
  suiteId : UInt16 := receiptSuiteEd25519MlDsa65HybridV1
  protocolVersion : UInt16 := TradeP2P.protocolVersion
  mediatorId : Bytes
  roomId : RoomId
  termsCommitment : Vector UInt8 32
  partyAEphemeralKey : Ed25519PublicKey
  partyBEphemeralKey : Ed25519PublicKey
  partyAEphemeralKeyMldsa65 : MlDsa65PublicKey
  partyBEphemeralKeyMldsa65 : MlDsa65PublicKey
  mediatorPublicKey : Ed25519PublicKey
  mediatorPublicKeyMldsa65 : MlDsa65PublicKey
  stage : UInt8 := ReceiptStage.penultimateObligationsComplete.toByte
  completed : Bool := false
  timestamp : UInt64
  nonce : Vector UInt8 16
  previousStageHash : Vector UInt8 32
  deriving DecidableEq, Repr

structure IssuedReceipt where
  fields : ReceiptFields
  mediatorSignature : Ed25519Signature
  mediatorSignatureMldsa65 : MlDsa65Signature
  deriving DecidableEq, Repr

def lengthPrefixed (value : Bytes) (maximum : Nat) : Except Error Bytes := do
  throwIf (value.length > maximum ∨ value.length > 65535) (.invalidArgument "receipt field exceeds protocol limit")
  return bigEndian 2 value.length ++ value

def encodeReceiptAckSignedPayload (fields : ReceiptAckFields) : Except Error Bytes := do
  requireKnownStage fields.stage
  throwIf (fields.mediatorId.length > receiptMaxMediatorIdLength)
    (.invalidArgument "receipt ack mediator id exceeds maximum length")
  let label ← lengthPrefixed (ascii "TRADEP2P_RECEIPT_ACK_V1") 23
  let mediatorId ← lengthPrefixed fields.mediatorId receiptMaxMediatorIdLength
  return label ++ (bigEndian 2 fields.protocolVersion.toNat ++ (bigEndian 2 fields.suiteId.toNat ++ (mediatorId ++
    (fields.roomId.toList ++ ([fields.stage] ++ (fields.termsCommitment.toList ++
    bigEndian 8 fields.timestamp.toNat))))))

def encodeReceiptSignedPayload (fields : ReceiptFields) : Except Error Bytes := do
  requireKnownStage fields.stage
  throwIf (fields.mediatorId.length > receiptMaxMediatorIdLength)
    (.invalidArgument "receipt mediator id exceeds maximum length")
  let label ← lengthPrefixed (ascii "TRADEP2P_RECEIPT_V1") 19
  let mediatorId ← lengthPrefixed fields.mediatorId receiptMaxMediatorIdLength
  return label ++ (bigEndian 2 fields.protocolVersion.toNat ++ (bigEndian 2 fields.suiteId.toNat ++ (mediatorId ++
    (fields.roomId.toList ++ (fields.termsCommitment.toList ++ (fields.partyAEphemeralKey.toList ++
    (fields.partyBEphemeralKey.toList ++ (fields.partyAEphemeralKeyMldsa65.toList ++
    (fields.partyBEphemeralKeyMldsa65.toList ++ (fields.mediatorPublicKey.toList ++
    (fields.mediatorPublicKeyMldsa65.toList ++ ([fields.stage] ++ ([if fields.completed then 1 else 0] ++
    (bigEndian 8 fields.timestamp.toNat ++ (fields.nonce.toList ++ fields.previousStageHash.toList)))))))))))))))

variable (crypto : Crypto)

/-! Signatures. An acknowledgement is signed by a party, a receipt by the mediator, each with both
schemes. -/

def verifyReceiptAck (key : Ed25519PublicKey) (fields : ReceiptAckFields) (signature : Ed25519Signature) :
    Except Error Bool := do
  crypto.ed25519.verify key (← encodeReceiptAckSignedPayload fields) signature

def verifyReceiptAckMldsa65 (key : MlDsa65PublicKey) (fields : ReceiptAckFields) (signature : MlDsa65Signature) :
    Except Error Bool := do
  crypto.mldsa65.verify key (← encodeReceiptAckSignedPayload fields) signature

def verifyReceiptAckHybrid (key : Ed25519PublicKey) (keyMldsa65 : MlDsa65PublicKey) (fields : ReceiptAckFields)
    (signature : Ed25519Signature) (signatureMldsa65 : MlDsa65Signature) : Except Error Bool := do
  if ← verifyReceiptAck crypto key fields signature then
    verifyReceiptAckMldsa65 crypto keyMldsa65 fields signatureMldsa65
  else return false

def signReceipt (seed : Ed25519PrivateSeed) (entropy : Bytes) (fields : ReceiptFields) : Except Error Ed25519Signature := do
  crypto.ed25519.sign seed entropy (← encodeReceiptSignedPayload fields)

def signReceiptMldsa65 (seed : MlDsa65PrivateSeed) (entropy : Bytes) (fields : ReceiptFields) :
    Except Error MlDsa65Signature := do
  crypto.mldsa65.sign seed entropy (← encodeReceiptSignedPayload fields)

def verifyReceipt (key : Ed25519PublicKey) (fields : ReceiptFields) (signature : Ed25519Signature) :
    Except Error Bool := do
  crypto.ed25519.verify key (← encodeReceiptSignedPayload fields) signature

def verifyReceiptMldsa65 (key : MlDsa65PublicKey) (fields : ReceiptFields) (signature : MlDsa65Signature) :
    Except Error Bool := do
  crypto.mldsa65.verify key (← encodeReceiptSignedPayload fields) signature

def verifyReceiptHybrid (key : Ed25519PublicKey) (keyMldsa65 : MlDsa65PublicKey) (r : IssuedReceipt) :
    Except Error Bool := do
  if ← verifyReceipt crypto key r.fields r.mediatorSignature then
    verifyReceiptMldsa65 crypto keyMldsa65 r.fields r.mediatorSignatureMldsa65
  else return false

/-! Chains. -/

def receiptChainLinkHash (r : IssuedReceipt) : Except Error (Vector UInt8 32) := do
  let payload ← encodeReceiptSignedPayload r.fields
  return crypto.sha256 (payload ++ (r.mediatorSignature.toList ++ r.mediatorSignatureMldsa65.toList))

-- The fields every receipt of a chain shares with its first one.
def ReceiptFields.SharesRoom (fields first : ReceiptFields) : Prop :=
  fields.roomId = first.roomId ∧ fields.termsCommitment = first.termsCommitment ∧
  fields.partyAEphemeralKey = first.partyAEphemeralKey ∧ fields.partyBEphemeralKey = first.partyBEphemeralKey ∧
  fields.partyAEphemeralKeyMldsa65 = first.partyAEphemeralKeyMldsa65 ∧
  fields.partyBEphemeralKeyMldsa65 = first.partyBEphemeralKeyMldsa65 ∧
  fields.mediatorPublicKey = first.mediatorPublicKey ∧
  fields.mediatorPublicKeyMldsa65 = first.mediatorPublicKeyMldsa65
instance (fields first : ReceiptFields) : Decidable (fields.SharesRoom first) := by
  unfold ReceiptFields.SharesRoom; infer_instance

-- Everything but the chain's own error escapes as it was thrown.
inductive ReceiptError where
  | chain (text : String)
  | standard (e : Error)
  deriving DecidableEq, Repr

def escaping {α : Type} (x : Except Error α) : Except ReceiptError α := x.mapError .standard

def genesisStageHash : Vector UInt8 32 := Vector.replicate 32 0

variable (key : Ed25519PublicKey) (keyMldsa65 : MlDsa65PublicKey)

-- One receipt of a chain; returns the hash the next one must carry.
def verifyChainEntry (first : ReceiptFields) (expectedPreviousHash : Vector UInt8 32) (previousStage : Option UInt8)
    (r : IssuedReceipt) : Except ReceiptError (Vector UInt8 32) := do
  escaping (requireKnownStage r.fields.stage)
  let verified ← escaping (verifyReceiptHybrid crypto key keyMldsa65 r)
  throwIf (¬verified) (.chain "receipt signature does not verify")
  throwIf (¬r.fields.SharesRoom first) (.chain "receipt chain mixes entries from different rooms or parties")
  throwIf (r.fields.previousStageHash ≠ expectedPreviousHash) (.chain "receipt chain link hash mismatch")
  throwIf (previousStage.any (fun previous => r.fields.stage ≤ previous))
    (.chain "receipt chain stages do not strictly increase")
  escaping (receiptChainLinkHash crypto r)

def verifyChainFrom (first : ReceiptFields) : Vector UInt8 32 → Option UInt8 → List IssuedReceipt → Except ReceiptError Unit
  | _, _, [] => return
  | expectedPreviousHash, previousStage, r :: rest => do
      let link ← verifyChainEntry crypto key keyMldsa65 first expectedPreviousHash previousStage r
      verifyChainFrom first link (some r.fields.stage) rest

def verifyReceiptChain : List IssuedReceipt → Except ReceiptError Unit
  | [] => throw (.chain "receipt chain is empty")
  | first :: rest => verifyChainFrom crypto key keyMldsa65 first.fields genesisStageHash none (first :: rest)

/- When a receipt passes at its place in a chain. -/
structure ChainEntry (first : ReceiptFields) (expectedPreviousHash : Vector UInt8 32) (previousStage : Option UInt8)
    (r : IssuedReceipt) : Prop where
  known : requireKnownStage r.fields.stage = .ok ()
  verified : verifyReceiptHybrid crypto key keyMldsa65 r = .ok true
  shares : r.fields.SharesRoom first
  link : r.fields.previousStageHash = expectedPreviousHash
  increases : previousStage.any (fun previous => r.fields.stage ≤ previous) = false

variable {crypto key keyMldsa65}

theorem escapingOk {α : Type} {x : Except Error α} {a : α} : escaping x = .ok a ↔ x = .ok a := by
  cases x <;> simp [escaping, Except.mapError]

theorem verifyChainEntryOk {first : ReceiptFields} {expectedPreviousHash link : Vector UInt8 32}
    {previousStage : Option UInt8} {r : IssuedReceipt} :
    verifyChainEntry crypto key keyMldsa65 first expectedPreviousHash previousStage r = .ok link ↔
      ChainEntry crypto key keyMldsa65 first expectedPreviousHash previousStage r ∧
        receiptChainLinkHash crypto r = .ok link := by
  simp only [verifyChainEntry, bind_ok, escapingOk, throwIf_ok, not_not]
  constructor
  · rintro ⟨_, known, verified, ok, _, rfl, _, shares, _, same, _, increases, hash⟩
    exact ⟨⟨known, ok, shares, same, by simpa using increases⟩, hash⟩
  · rintro ⟨⟨known, ok, shares, same, increases⟩, hash⟩
    exact ⟨(), known, true, ok, (), rfl, (), shares, (), same, (), by rw [increases]; decide, hash⟩

theorem verifyReceiptHybridOk {r : IssuedReceipt} :
    verifyReceiptHybrid crypto key keyMldsa65 r = .ok true ↔
      verifyReceipt crypto key r.fields r.mediatorSignature = .ok true ∧
        verifyReceiptMldsa65 crypto keyMldsa65 r.fields r.mediatorSignatureMldsa65 = .ok true := by
  cases ed25519 : verifyReceipt crypto key r.fields r.mediatorSignature with
  | error e => simp [verifyReceiptHybrid, ed25519, bind, Except.bind]
  | ok verified => cases verified <;> simp [verifyReceiptHybrid, ed25519, bind, Except.bind, pure, Except.pure]

end TradeP2P
