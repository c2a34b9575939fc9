import TradeP2P.Lib.Fields
import TradeP2P.Journal.Records
import TradeP2P.Protocol.Receipt

/-! The byte strings that are signed. Nine kinds of objects are signed, each behind the label of its
kind, so no two objects share a signed string. -/
namespace TradeP2P
open Wire (Bytes ascii bigEndian prefixed lengthPrefixedOk prefixedFront)
open Checks

/-! Disclosures. -/

def disclosureSuiteEd25519MlDsa65HybridV1 : UInt16 := 2
def disclosureDomainLabel : Bytes := ascii "TRADEP2P_RECEIPT_DISCLOSURE_V1"
def disclosureMaxMediatorIdLength : Nat := 256

structure DisclosureFields where
  suiteId : UInt16 := disclosureSuiteEd25519MlDsa65HybridV1
  protocolVersion : UInt16 := 1
  mediatorId : Bytes
  roomId : RoomId
  recipientEphemeralKey : Ed25519PublicKey
  disclosedChainHash : Vector UInt8 32
  timestamp : UInt64
  nonce : Vector UInt8 16
  deriving DecidableEq, Repr

def encodeDisclosureSignedPayload (fields : DisclosureFields) : Except Error Bytes := do
  throwIf (fields.mediatorId.length > disclosureMaxMediatorIdLength)
    (.invalidArgument "disclosure mediator id exceeds maximum length")
  let tooLong := Error.invalidArgument "disclosure field exceeds protocol limit"
  let label ← Wire.lengthPrefixed tooLong disclosureDomainLabel disclosureDomainLabel.length
  let mediatorId ← Wire.lengthPrefixed tooLong fields.mediatorId disclosureMaxMediatorIdLength
  return label ++ (bigEndian 2 fields.protocolVersion.toNat ++ (bigEndian 2 fields.suiteId.toNat ++ (mediatorId ++
    (fields.roomId.toList ++ (fields.recipientEphemeralKey.toList ++ (fields.disclosedChainHash.toList ++
    (bigEndian 8 fields.timestamp.toNat ++ fields.nonce.toList)))))))

/-! Responses to a recognition challenge. -/

def recognitionSuiteEd25519V1 : UInt16 := 1
def recognitionChallengeDomainLabel : Bytes := ascii "TRADEP2P_RECOGNITION_CHALLENGE_V1"
def recognitionMaxMediatorIdLength : Nat := 256

structure RecognitionChallengeFields where
  suiteId : UInt16 := recognitionSuiteEd25519V1
  protocolVersion : UInt16 := TradeP2P.protocolVersion
  mediatorId : Bytes
  roomId : RoomId
  nonce : Vector UInt8 32
  createdAt : UInt64 := 0
  expiresAt : UInt64 := 0
  deriving DecidableEq, Repr

def encodeRecognitionSignedPayload (fields : RecognitionChallengeFields) : Except Error Bytes := do
  throwIf (fields.mediatorId.length > recognitionMaxMediatorIdLength)
    (.invalidArgument "recognition mediator id exceeds maximum length")
  let tooLong := Error.invalidArgument "recognition field exceeds protocol limit"
  let label ← Wire.lengthPrefixed tooLong recognitionChallengeDomainLabel recognitionChallengeDomainLabel.length
  let mediatorId ← Wire.lengthPrefixed tooLong fields.mediatorId recognitionMaxMediatorIdLength
  return label ++ (bigEndian 2 fields.protocolVersion.toNat ++ (bigEndian 2 fields.suiteId.toNat ++ (mediatorId ++
    (fields.roomId.toList ++ (fields.nonce.toList ++ (bigEndian 8 fields.createdAt.toNat ++
    bigEndian 8 fields.expiresAt.toNat))))))

/-! Responses to an account's login challenge. -/

def loginSuiteEd25519V1 : UInt16 := 1
def loginProtocolVersion : UInt16 := 1
def loginChallengeDomainLabel : Bytes := ascii "TRADEP2P_LOGIN_CHALLENGE_V1"
def loginMaxFieldLength : Nat := 256

structure LoginChallengeFields where
  suiteId : UInt16 := loginSuiteEd25519V1
  protocolVersion : UInt16 := loginProtocolVersion
  serviceId : Bytes
  serverIdentity : Bytes
  username : Bytes
  sessionId : Vector UInt8 16
  nonce : Vector UInt8 32
  createdAt : UInt64 := 0
  expiresAt : UInt64 := 0
  deriving DecidableEq, Repr

def encodeLoginChallengeSignedPayload (fields : LoginChallengeFields) : Except Error Bytes := do
  throwIf (fields.serviceId.length > loginMaxFieldLength ∨ fields.serverIdentity.length > loginMaxFieldLength ∨
    fields.username.length > loginMaxFieldLength) (.invalidArgument "login challenge field exceeds maximum length")
  let tooLong := Error.invalidArgument "login field exceeds protocol limit"
  let label ← Wire.lengthPrefixed tooLong loginChallengeDomainLabel loginChallengeDomainLabel.length
  let serviceId ← Wire.lengthPrefixed tooLong fields.serviceId loginMaxFieldLength
  let serverIdentity ← Wire.lengthPrefixed tooLong fields.serverIdentity loginMaxFieldLength
  let username ← Wire.lengthPrefixed tooLong fields.username loginMaxFieldLength
  return label ++ (bigEndian 2 fields.protocolVersion.toNat ++ (bigEndian 2 fields.suiteId.toNat ++ (serviceId ++
    (serverIdentity ++ (username ++ (fields.sessionId.toList ++ (fields.nonce.toList ++
    (bigEndian 8 fields.createdAt.toNat ++ bigEndian 8 fields.expiresAt.toNat))))))))

/-! Messages of a trade, under the sender's key for the room. -/

def tradeMessageSuiteEd25519MlDsa65HybridV1 : UInt16 := 2
def tradeMessageDomainLabel : Bytes := ascii "TRADEP2P_TRADE_MESSAGE_V1"
def tradeMessageMaxMediatorIdLength : Nat := 256
def sentMessageType : UInt16 := 12

structure TradeMessageContext where
  suiteId : UInt16 := tradeMessageSuiteEd25519MlDsa65HybridV1
  protocolVersion : UInt16 := TradeP2P.protocolVersion
  mediatorId : Bytes
  roomId : RoomId
  round : UInt32 := 0
  messageType : UInt16 := sentMessageType
  payloadHash : Vector UInt8 32
  senderEphemeralPublicKey : Ed25519PublicKey
  recipient : ClientId
  timestamp : UInt64 := 0
  deriving DecidableEq, Repr

def encodeTradeMessageContext (context : TradeMessageContext) : Except Error Bytes := do
  throwIf (context.mediatorId.length > tradeMessageMaxMediatorIdLength)
    (.invalidArgument "trade message mediator id exceeds maximum length")
  let tooLong := Error.invalidArgument "trade message field exceeds protocol limit"
  let label ← Wire.lengthPrefixed tooLong tradeMessageDomainLabel tradeMessageDomainLabel.length
  let mediatorId ← Wire.lengthPrefixed tooLong context.mediatorId tradeMessageMaxMediatorIdLength
  return label ++ (bigEndian 2 context.protocolVersion.toNat ++ (bigEndian 2 context.suiteId.toNat ++ (mediatorId ++
    (context.roomId.toList ++ (bigEndian 4 context.round.toNat ++ (bigEndian 2 context.messageType.toNat ++
    (context.payloadHash.toList ++ (context.senderEphemeralPublicKey.toList ++ (context.recipient.toList ++
    bigEndian 8 context.timestamp.toNat)))))))))

/-! The mediator's answer to a client that asks who it is. No suite is signed. -/

def mediatorAuthDomainLabel : Bytes := ascii "TRADEP2P_MEDIATOR_AUTH_V1"
def mediatorAuthMaxMediatorIdLength : Nat := 256

structure MediatorAuthFields where
  protocolVersion : UInt16 := TradeP2P.protocolVersion
  mediatorId : Bytes
  nonce : Vector UInt8 32
  createdAt : UInt64 := 0
  expiresAt : UInt64 := 0
  deriving DecidableEq, Repr

def encodeMediatorAuthSignedPayload (fields : MediatorAuthFields) : Except Error Bytes := do
  throwIf (fields.mediatorId.length > mediatorAuthMaxMediatorIdLength)
    (.invalidArgument "mediator auth mediator id exceeds maximum length")
  let tooLong := Error.invalidArgument "mediator auth field exceeds protocol limit"
  let label ← Wire.lengthPrefixed tooLong mediatorAuthDomainLabel mediatorAuthDomainLabel.length
  let mediatorId ← Wire.lengthPrefixed tooLong fields.mediatorId mediatorAuthMaxMediatorIdLength
  return label ++ (bigEndian 2 fields.protocolVersion.toNat ++ (mediatorId ++ (fields.nonce.toList ++
    (bigEndian 8 fields.createdAt.toNat ++ bigEndian 8 fields.expiresAt.toNat))))

/-! Everything that is signed. -/

inductive SignedObject where
  | receiptAck (fields : ReceiptAckFields)
  | receipt (fields : ReceiptFields)
  | disclosure (fields : DisclosureFields)
  | recognition (fields : RecognitionChallengeFields)
  | login (fields : LoginChallengeFields)
  | tradeMessage (context : TradeMessageContext)
  | mediatorAuth (fields : MediatorAuthFields)
  | checkpoint (index : UInt64) (hash : JournalHash) (signedAt : UInt64)
  | checkpointSuite (suiteId : UInt16) (index : UInt64) (hash : JournalHash) (signedAt : UInt64)
  deriving DecidableEq, Repr

def SignedObject.payload : SignedObject → Except Error Bytes
  | .receiptAck fields => encodeReceiptAckSignedPayload fields
  | .receipt fields => encodeReceiptSignedPayload fields
  | .disclosure fields => encodeDisclosureSignedPayload fields
  | .recognition fields => encodeRecognitionSignedPayload fields
  | .login fields => encodeLoginChallengeSignedPayload fields
  | .tradeMessage context => encodeTradeMessageContext context
  | .mediatorAuth fields => encodeMediatorAuthSignedPayload fields
  | .checkpoint index hash signedAt => return checkpointSignedBytes index hash signedAt
  | .checkpointSuite suiteId index hash signedAt => return checkpointSuiteSignedBytes suiteId index hash signedAt

inductive SignedKind where
  | receiptAck
  | receipt
  | disclosure
  | recognition
  | login
  | tradeMessage
  | mediatorAuth
  | checkpoint
  | checkpointSuite
  deriving DecidableEq, Repr

def SignedObject.kind : SignedObject → SignedKind
  | .receiptAck _ => .receiptAck
  | .receipt _ => .receipt
  | .disclosure _ => .disclosure
  | .recognition _ => .recognition
  | .login _ => .login
  | .tradeMessage _ => .tradeMessage
  | .mediatorAuth _ => .mediatorAuth
  | .checkpoint _ _ _ => .checkpoint
  | .checkpointSuite _ _ _ _ => .checkpointSuite

def SignedKind.label : SignedKind → Bytes
  | .receiptAck => ascii "TRADEP2P_RECEIPT_ACK_V1"
  | .receipt => ascii "TRADEP2P_RECEIPT_V1"
  | .disclosure => disclosureDomainLabel
  | .recognition => recognitionChallengeDomainLabel
  | .login => loginChallengeDomainLabel
  | .tradeMessage => tradeMessageDomainLabel
  | .mediatorAuth => mediatorAuthDomainLabel
  | .checkpoint => ascii "tradep2p-journal-checkpoint-v1"
  | .checkpointSuite => ascii "tradep2p-journal-checkpoint-suite-v1"

/- Every signature of the program: encode the object and hand the bytes to one scheme. -/
section Schemes
variable {Seed Key Signature : Type} (scheme : SignatureScheme Seed Key Signature)

def SignedObject.sign (seed : Seed) (entropy : Bytes) (object : SignedObject) : Except Error Signature := do
  scheme.sign seed entropy (← object.payload)

def SignedObject.verify (key : Key) (object : SignedObject) (signature : Signature) : Except Error Bool := do
  scheme.verify key (← object.payload) signature

end Schemes

section Signatures
variable (crypto : Crypto)

def verifyRecognitionResponse (key : Ed25519PublicKey) (fields : RecognitionChallengeFields)
    (signature : Ed25519Signature) : Except Error Bool :=
  (SignedObject.recognition fields).verify crypto.ed25519 key signature

def verifyRecognitionResponseMldsa65 (key : MlDsa65PublicKey) (fields : RecognitionChallengeFields)
    (signature : MlDsa65Signature) : Except Error Bool :=
  (SignedObject.recognition fields).verify crypto.mldsa65 key signature

def verifyLoginResponse (key : Ed25519PublicKey) (fields : LoginChallengeFields) (signature : Ed25519Signature) :
    Except Error Bool :=
  (SignedObject.login fields).verify crypto.ed25519 key signature

def verifyLoginResponseMldsa65 (key : MlDsa65PublicKey) (fields : LoginChallengeFields) (signature : MlDsa65Signature) :
    Except Error Bool :=
  (SignedObject.login fields).verify crypto.mldsa65 key signature

def verifyTradeMessage (key : Ed25519PublicKey) (context : TradeMessageContext) (signature : Ed25519Signature) :
    Except Error Bool :=
  (SignedObject.tradeMessage context).verify crypto.ed25519 key signature

def verifyTradeMessageMldsa65 (key : MlDsa65PublicKey) (context : TradeMessageContext) (signature : MlDsa65Signature) :
    Except Error Bool :=
  (SignedObject.tradeMessage context).verify crypto.mldsa65 key signature

def verifyMediatorAuth (key : MlDsa65PublicKey) (fields : MediatorAuthFields) (signature : MlDsa65Signature) :
    Except Error Bool :=
  (SignedObject.mediatorAuth fields).verify crypto.mldsa65 key signature

end Signatures

/-! Equal strings, equal objects. Within a kind the strings are compared field by field; between kinds
the labels already differ. -/
section Separation
variable {payload : Bytes}

theorem receiptLengthPrefixed (value : Bytes) (maximum : Nat) : lengthPrefixed value maximum =
    Wire.lengthPrefixed (.invalidArgument "receipt field exceeds protocol limit") value maximum := rfl

theorem flagsAgree {a b : Bool} : (if a then (1 : UInt8) else 0) = (if b then 1 else 0) ↔ a = b := by
  cases a <;> cases b <;> simp

theorem receiptAckInjective {a b : ReceiptAckFields} (encodedA : encodeReceiptAckSignedPayload a = .ok payload)
    (encodedB : encodeReceiptAckSignedPayload b = .ok payload) : a = b := by
  simp only [encodeReceiptAckSignedPayload, receiptLengthPrefixed, bind_ok, pure_ok] at encodedA encodedB
  obtain ⟨_, _, _, _, label, labelled, id, written, rfl⟩ := encodedA
  obtain ⟨_, _, _, _, label', labelled', id', written', same⟩ := encodedB
  simp [Wire.writtenFront labelled' labelled, Wire.writtenFront written' written] at same
  cases a
  cases b
  simp_all

theorem receiptInjective {a b : ReceiptFields} (encodedA : encodeReceiptSignedPayload a = .ok payload)
    (encodedB : encodeReceiptSignedPayload b = .ok payload) : a = b := by
  simp only [encodeReceiptSignedPayload, receiptLengthPrefixed, bind_ok, pure_ok] at encodedA encodedB
  obtain ⟨_, _, _, _, label, labelled, id, written, rfl⟩ := encodedA
  obtain ⟨_, _, _, _, label', labelled', id', written', same⟩ := encodedB
  simp [Wire.writtenFront labelled' labelled, Wire.writtenFront written' written, flagsAgree, Vector.toList_inj] at same
  cases a
  cases b
  simp_all

theorem disclosureInjective {a b : DisclosureFields} (encodedA : encodeDisclosureSignedPayload a = .ok payload)
    (encodedB : encodeDisclosureSignedPayload b = .ok payload) : a = b := by
  simp only [encodeDisclosureSignedPayload, bind_ok, pure_ok] at encodedA encodedB
  obtain ⟨_, _, label, labelled, id, written, rfl⟩ := encodedA
  obtain ⟨_, _, label', labelled', id', written', same⟩ := encodedB
  simp [Wire.writtenFront labelled' labelled, Wire.writtenFront written' written, Vector.toList_inj] at same
  cases a
  cases b
  simp_all

theorem recognitionInjective {a b : RecognitionChallengeFields} (encodedA : encodeRecognitionSignedPayload a = .ok payload)
    (encodedB : encodeRecognitionSignedPayload b = .ok payload) : a = b := by
  simp only [encodeRecognitionSignedPayload, bind_ok, pure_ok] at encodedA encodedB
  obtain ⟨_, _, label, labelled, id, written, rfl⟩ := encodedA
  obtain ⟨_, _, label', labelled', id', written', same⟩ := encodedB
  simp [Wire.writtenFront labelled' labelled, Wire.writtenFront written' written] at same
  cases a
  cases b
  simp_all

theorem loginInjective {a b : LoginChallengeFields} (encodedA : encodeLoginChallengeSignedPayload a = .ok payload)
    (encodedB : encodeLoginChallengeSignedPayload b = .ok payload) : a = b := by
  simp only [encodeLoginChallengeSignedPayload, bind_ok, pure_ok] at encodedA encodedB
  obtain ⟨_, _, label, labelled, service, writtenService, server, writtenServer, name, writtenName, rfl⟩ := encodedA
  obtain ⟨_, _, label', labelled', service', writtenService', server', writtenServer', name', writtenName', same⟩ := encodedB
  simp [Wire.writtenFront labelled' labelled, Wire.writtenFront writtenService' writtenService, Wire.writtenFront writtenServer' writtenServer, Wire.writtenFront writtenName' writtenName] at same
  cases a
  cases b
  simp_all

theorem tradeMessageInjective {a b : TradeMessageContext} (encodedA : encodeTradeMessageContext a = .ok payload)
    (encodedB : encodeTradeMessageContext b = .ok payload) : a = b := by
  simp only [encodeTradeMessageContext, bind_ok, pure_ok] at encodedA encodedB
  obtain ⟨_, _, label, labelled, id, written, rfl⟩ := encodedA
  obtain ⟨_, _, label', labelled', id', written', same⟩ := encodedB
  simp [Wire.writtenFront labelled' labelled, Wire.writtenFront written' written] at same
  cases a
  cases b
  simp_all

theorem mediatorAuthInjective {a b : MediatorAuthFields} (encodedA : encodeMediatorAuthSignedPayload a = .ok payload)
    (encodedB : encodeMediatorAuthSignedPayload b = .ok payload) : a = b := by
  simp only [encodeMediatorAuthSignedPayload, bind_ok, pure_ok] at encodedA encodedB
  obtain ⟨_, _, label, labelled, id, written, rfl⟩ := encodedA
  obtain ⟨_, _, label', labelled', id', written', same⟩ := encodedB
  simp [Wire.writtenFront labelled' labelled, Wire.writtenFront written' written] at same
  cases a
  cases b
  simp_all

theorem checkpointInjective {index index' : UInt64} {hash hash' : JournalHash} {signedAt signedAt' : UInt64}
    (same : checkpointSignedBytes index hash signedAt = checkpointSignedBytes index' hash' signedAt') :
    index = index' ∧ hash = hash' ∧ signedAt = signedAt' := by
  simpa [checkpointSignedBytes] using same

theorem checkpointSuiteInjective {suiteId suiteId' : UInt16} {index index' : UInt64} {hash hash' : JournalHash}
    {signedAt signedAt' : UInt64} (same : checkpointSuiteSignedBytes suiteId index hash signedAt =
      checkpointSuiteSignedBytes suiteId' index' hash' signedAt') :
    suiteId = suiteId' ∧ index = index' ∧ hash = hash' ∧ signedAt = signedAt' := by
  simpa [checkpointSuiteSignedBytes] using same

theorem labelShort (kind : SignedKind) : kind.label.length ≤ 65535 := by
  cases kind <;> decide

theorem labelsDistinct {a b : SignedKind} (same : a.label = b.label) : a = b := by
  revert same
  cases a <;> cases b <;> decide

theorem labelled {object : SignedObject} (encoded : object.payload = .ok payload) :
    ∃ body, payload = prefixed object.kind.label ++ body := by
  cases object with
  | receiptAck fields =>
      simp only [SignedObject.payload, encodeReceiptAckSignedPayload, receiptLengthPrefixed, bind_ok, pure_ok] at encoded
      obtain ⟨_, _, _, _, label, written, _, _, rfl⟩ := encoded
      exact ⟨_, congrArg (· ++ _) (lengthPrefixedOk.mp written).2.2.symm⟩
  | receipt fields =>
      simp only [SignedObject.payload, encodeReceiptSignedPayload, receiptLengthPrefixed, bind_ok, pure_ok] at encoded
      obtain ⟨_, _, _, _, label, written, _, _, rfl⟩ := encoded
      exact ⟨_, congrArg (· ++ _) (lengthPrefixedOk.mp written).2.2.symm⟩
  | disclosure fields =>
      simp only [SignedObject.payload, encodeDisclosureSignedPayload, bind_ok, pure_ok] at encoded
      obtain ⟨_, _, label, written, _, _, rfl⟩ := encoded
      exact ⟨_, congrArg (· ++ _) (lengthPrefixedOk.mp written).2.2.symm⟩
  | recognition fields =>
      simp only [SignedObject.payload, encodeRecognitionSignedPayload, bind_ok, pure_ok] at encoded
      obtain ⟨_, _, label, written, _, _, rfl⟩ := encoded
      exact ⟨_, congrArg (· ++ _) (lengthPrefixedOk.mp written).2.2.symm⟩
  | login fields =>
      simp only [SignedObject.payload, encodeLoginChallengeSignedPayload, bind_ok, pure_ok] at encoded
      obtain ⟨_, _, label, written, _, _, _, _, _, _, rfl⟩ := encoded
      exact ⟨_, congrArg (· ++ _) (lengthPrefixedOk.mp written).2.2.symm⟩
  | tradeMessage context =>
      simp only [SignedObject.payload, encodeTradeMessageContext, bind_ok, pure_ok] at encoded
      obtain ⟨_, _, label, written, _, _, rfl⟩ := encoded
      exact ⟨_, congrArg (· ++ _) (lengthPrefixedOk.mp written).2.2.symm⟩
  | mediatorAuth fields =>
      simp only [SignedObject.payload, encodeMediatorAuthSignedPayload, bind_ok, pure_ok] at encoded
      obtain ⟨_, _, label, written, _, _, rfl⟩ := encoded
      exact ⟨_, congrArg (· ++ _) (lengthPrefixedOk.mp written).2.2.symm⟩
  | checkpoint index hash signedAt => exact ⟨_, (pure_ok.mp encoded).symm⟩
  | checkpointSuite suiteId index hash signedAt => exact ⟨_, (pure_ok.mp encoded).symm⟩

theorem payloadsSeparate {a b : SignedObject} (encodedA : a.payload = .ok payload) (encodedB : b.payload = .ok payload) :
    a = b := by
  have kinds : a.kind = b.kind := by
    obtain ⟨front, same⟩ := labelled encodedA
    obtain ⟨back, same'⟩ := labelled encodedB
    exact labelsDistinct ((prefixedFront (labelShort _) (labelShort _)).mp (same.symm.trans same')).1
  cases a with
  | receiptAck fields => cases b with
    | receiptAck fields' => exact congrArg _ (receiptAckInjective encodedA encodedB)
    | _ => cases kinds
  | receipt fields => cases b with
    | receipt fields' => exact congrArg _ (receiptInjective encodedA encodedB)
    | _ => cases kinds
  | disclosure fields => cases b with
    | disclosure fields' => exact congrArg _ (disclosureInjective encodedA encodedB)
    | _ => cases kinds
  | recognition fields => cases b with
    | recognition fields' => exact congrArg _ (recognitionInjective encodedA encodedB)
    | _ => cases kinds
  | login fields => cases b with
    | login fields' => exact congrArg _ (loginInjective encodedA encodedB)
    | _ => cases kinds
  | tradeMessage context => cases b with
    | tradeMessage context' => exact congrArg _ (tradeMessageInjective encodedA encodedB)
    | _ => cases kinds
  | mediatorAuth fields => cases b with
    | mediatorAuth fields' => exact congrArg _ (mediatorAuthInjective encodedA encodedB)
    | _ => cases kinds
  | checkpoint index hash signedAt => cases b with
    | checkpoint index' hash' signedAt' =>
        obtain ⟨rfl, rfl, rfl⟩ := checkpointInjective ((pure_ok.mp encodedA).trans (pure_ok.mp encodedB).symm)
        rfl
    | _ => cases kinds
  | checkpointSuite suiteId index hash signedAt => cases b with
    | checkpointSuite suiteId' index' hash' signedAt' =>
        obtain ⟨rfl, rfl, rfl, rfl⟩ := checkpointSuiteInjective ((pure_ok.mp encodedA).trans (pure_ok.mp encodedB).symm)
        rfl
    | _ => cases kinds

/- A signed string says what it was signed for. So a signature that verifies on no string but its own
verifies for no object but its own. -/
theorem domainsSeparate (object : SignedObject) (encoded : object.payload = .ok payload) :
    (∀ other : SignedObject, other.payload = .ok payload → other = object) ∧
    ∀ {Seed Key Signature : Type} (scheme : SignatureScheme Seed Key Signature) (key : Key) (signature : Signature),
      (∀ message, scheme.verify key message signature = .ok true → message = payload) →
      ∀ other : SignedObject, other.verify scheme key signature = .ok true → other = object := by
  refine ⟨fun other encoded' => payloadsSeparate encoded' encoded, ?_⟩
  intro Seed Key Signature scheme key signature only other verified
  obtain ⟨message, encoded', accepted⟩ := bind_ok.mp verified
  obtain rfl := only message accepted
  exact payloadsSeparate encoded' encoded

/- The library's answer for the seed of thirty-two twos, on one challenge. -/
def sampleChallenge (room : UInt8) : SignedObject :=
  .recognition (RecognitionChallengeFields.mk 1 5 (ascii "m") (Vector.replicate 32 room) (Vector.replicate 32 0x22)
    1700000000 1700000120)

def sampleKey : Ed25519PublicKey :=
  #v[0x81, 0x39, 0x77, 0x0e, 0xa8, 0x7d, 0x17, 0x5f, 0x56, 0xa3, 0x54, 0x66, 0xc3, 0x4c, 0x7e, 0xcc,
     0xcb, 0x8d, 0x8a, 0x91, 0xb4, 0xee, 0x37, 0xa2, 0x5d, 0xf6, 0x0f, 0x5b, 0x8f, 0xc9, 0xb3, 0x94]

def sampleSignature : Ed25519Signature :=
  #v[0x18, 0x2e, 0x27, 0xf9, 0x3a, 0xcf, 0x66, 0x35, 0xa2, 0x8c, 0x51, 0x93, 0x72, 0xbc, 0x8e, 0x83,
     0x99, 0x7c, 0x46, 0x68, 0xe6, 0x5d, 0x04, 0x39, 0x62, 0x62, 0xf3, 0x46, 0x3b, 0x9c, 0x1e, 0xb5,
     0xbe, 0x04, 0x62, 0x3b, 0x15, 0xe5, 0x4f, 0xda, 0x89, 0x98, 0x1c, 0x1e, 0x81, 0x6e, 0x76, 0x12,
     0xd1, 0xd2, 0x9d, 0xb6, 0xda, 0x4a, 0x81, 0xb4, 0x6b, 0x52, 0x1a, 0x35, 0x74, 0x3d, 0x46, 0x0b]

def samplePayload : Bytes := prefixed recognitionChallengeDomainLabel ++ ([0, 5, 0, 1] ++ (prefixed (ascii "m") ++
  (List.replicate 32 0x11 ++ (List.replicate 32 0x22 ++ (bigEndian 8 1700000000 ++ bigEndian 8 1700000120)))))

def sampleScheme : SignatureScheme Ed25519PrivateSeed Ed25519PublicKey Ed25519Signature where
  publicKey := fun _ => sampleKey
  sign := fun _ _ _ => .ok sampleSignature
  verify := fun key message signature =>
    .ok (key == sampleKey && message == samplePayload && signature == sampleSignature)

theorem challengeSeparated :
    (sampleChallenge 0x11).verify sampleScheme sampleKey sampleSignature = .ok true ∧
    (sampleChallenge 0x33).verify sampleScheme sampleKey sampleSignature ≠ .ok true ∧
    (sampleChallenge 0x33).payload ≠ .ok samplePayload := by
  have encoded : (sampleChallenge 0x11).payload = .ok samplePayload := by decide +kernel
  have rooms : sampleChallenge 0x33 ≠ sampleChallenge 0x11 := by decide +kernel
  have only : ∀ message, sampleScheme.verify sampleKey message sampleSignature = .ok true → message = samplePayload := by
    intro message verified
    simpa [sampleScheme] using verified
  obtain ⟨distinct, separate⟩ := domainsSeparate (sampleChallenge 0x11) encoded
  refine ⟨?_, fun verified => rooms (separate sampleScheme _ _ only _ verified), fun same => rooms (distinct _ same)⟩
  simp [SignedObject.verify, encoded, sampleScheme, bind, Except.bind]

end Separation
end TradeP2P
