import TradeP2P.Lib.Codec
import TradeP2P.Protocol.Crypto

/-! The messages of the wire protocol and the fields they are made of. A length or a flag that does
not fit is an error of the runtime kind when it was read, of the argument kind when it was to be
written. -/
namespace TradeP2P
open Wire (Bytes Reader bigEndian u8 u16 u32 u64 fixed take readMany)
open Checks

def maxFramePayload : Nat := 131072
def maxNodeHostLength : Nat := 96
def maxPeerListEntries : Nat := 128
def maxRegistryNodesInList : Nat := 160
def maxOfferPageEntries : Nat := 32
def maxCandleTicksPerPair : Nat := 300
def registryTtlSeconds : UInt32 := 300
def recognitionMaxPublicKeyLength : Nat := 1952
def recognitionMaxSignatureLength : Nat := 3309
def receiptWireMediatorIdLength : Nat := 256
def disclosureMaxChainEntries : Nat := 8

abbrev InviteId := Vector UInt8 16
abbrev CertificatePin := Vector UInt8 32

/-! Messages. -/

structure WelcomeMessage where
  clientId : ClientId
  fee : FeeTerms
  deriving DecidableEq, Repr

structure CreateOfferMessage where
  terms : TradeTerms
  receiveAddressA : Bytes
  deriving DecidableEq, Repr

structure OfferCreatedMessage where
  roomId : RoomId
  deriving DecidableEq, Repr

structure OfferSummary where
  roomId : RoomId
  terms : TradeTerms
  deriving DecidableEq, Repr

structure ListOffersMessage where
  hasCursor : Bool := false
  afterRoomId : RoomId := Vector.replicate 32 0
  limit : UInt16 := 32
  deriving DecidableEq, Repr

structure OfferListMessage where
  offers : List OfferSummary
  hasMore : Bool := false
  nextCursor : RoomId := Vector.replicate 32 0
  deriving DecidableEq, Repr

structure GetCandlesMessage where
  assetA : Bytes
  assetB : Bytes
  deriving DecidableEq, Repr

structure TradeTick where
  timestamp : UInt64
  baseAmount : UInt64
  quoteAmount : UInt64
  deriving DecidableEq, Repr

structure CandleDataMessage where
  baseAsset : Bytes
  quoteAsset : Bytes
  ticks : List TradeTick
  deriving DecidableEq, Repr

structure JoinOfferMessage where
  roomId : RoomId
  receiveAddressB : Bytes
  deriving DecidableEq, Repr

structure CancelOfferMessage where
  roomId : RoomId
  deriving DecidableEq, Repr

structure OfferCancelledMessage where
  roomId : RoomId
  deriving DecidableEq, Repr

structure PeerListMessage where
  peers : List ClientId
  deriving DecidableEq, Repr

structure InviteTradeMessage where
  target : ClientId
  terms : TradeTerms
  receiveAddressA : Bytes
  deriving DecidableEq, Repr

structure InviteCreatedMessage where
  inviteId : InviteId
  target : ClientId
  deriving DecidableEq, Repr

structure InviteReceivedMessage where
  inviteId : InviteId
  sender : ClientId
  terms : TradeTerms
  receiveAddressA : Bytes
  deriving DecidableEq, Repr

structure AcceptInviteMessage where
  inviteId : InviteId
  receiveAddressB : Bytes
  deriving DecidableEq, Repr

structure DeclineInviteMessage where
  inviteId : InviteId
  deriving DecidableEq, Repr

structure InviteDeclinedMessage where
  inviteId : InviteId
  deriving DecidableEq, Repr

structure TradeReadyMessage where
  roomId : RoomId
  assignedParty : Party
  peerId : ClientId
  terms : TradeTerms
  receiveAddressA : Bytes
  receiveAddressB : Bytes
  fee : FeeTerms
  deriving DecidableEq, Repr

structure CompleteMessage where
  roomId : RoomId
  deriving DecidableEq, Repr

structure AbortMessage where
  roomId : RoomId
  reason : Bytes
  deriving DecidableEq, Repr

structure ErrorMessage where
  reason : Bytes
  deriving DecidableEq, Repr

structure RegistryNode where
  host : Bytes
  port : UInt16
  certificatePin : CertificatePin
  remainingTtlSeconds : UInt32 := 0
  sourceRegistry : Bytes := []
  deriving DecidableEq, Repr

structure RegistryRegisterMessage where
  node : RegistryNode
  deriving DecidableEq, Repr

structure RegistryRegisteredMessage where
  ttlSeconds : UInt32
  deriving DecidableEq, Repr

structure RegistryNodesMessage where
  nodes : List RegistryNode
  deriving DecidableEq, Repr

structure RecoveryStateRequestMessage where
  roomId : RoomId
  deriving DecidableEq, Repr

-- The state is a byte as the mediator keeps it, unchecked.
structure RecoveryStateResponseMessage where
  roomId : RoomId
  found : Bool := false
  terms : TradeTerms := { assetA := [], assetB := [], totalA := 0, totalB := 0, rounds := 0 }
  fee : FeeTerms := {}
  state : UInt8 := 0
  roundIndex : UInt32 := 0
  legIndex : UInt8 := 0
  partyAConnected : Bool := false
  partyBConnected : Bool := false
  reason : Bytes := []
  deriving DecidableEq, Repr

structure RecognitionChallengeMessage where
  roomId : RoomId
  suiteId : UInt16 := 1
  nonce : Vector UInt8 32
  createdAt : UInt64
  expiresAt : UInt64
  deriving DecidableEq, Repr

structure RecognitionResponseMessage where
  roomId : RoomId
  nonce : Vector UInt8 32
  suiteId : UInt16 := 1
  proverPublicKey : Bytes
  signature : Bytes
  deriving DecidableEq, Repr

structure TradeEphemeralKeyMessage where
  roomId : RoomId
  ephemeralPublicKey : Vector UInt8 32
  ephemeralPublicKeyMldsa65 : Vector UInt8 1952
  deriving DecidableEq, Repr

structure ReceiptAckMessage where
  roomId : RoomId
  stage : UInt8
  timestamp : UInt64
  signature : Ed25519Signature
  signatureMldsa65 : MlDsa65Signature
  deriving DecidableEq, Repr

structure ReceiptAckRequiredMessage where
  roomId : RoomId
  deriving DecidableEq, Repr

structure FeeConfirmationPendingMessage where
  roomId : RoomId
  deriving DecidableEq, Repr

structure ReceiptIssuedMessage where
  roomId : RoomId
  mediatorId : Bytes
  stage : UInt8
  completed : Bool
  termsCommitment : Vector UInt8 32
  partyAEphemeralKey : Vector UInt8 32
  partyBEphemeralKey : Vector UInt8 32
  partyAEphemeralKeyMldsa65 : Vector UInt8 1952
  partyBEphemeralKeyMldsa65 : Vector UInt8 1952
  mediatorPublicKey : Vector UInt8 32
  mediatorPublicKeyMldsa65 : Vector UInt8 1952
  timestamp : UInt64
  nonce : Vector UInt8 16
  previousStageHash : Vector UInt8 32
  mediatorSignature : Vector UInt8 64
  mediatorSignatureMldsa65 : Vector UInt8 3309
  deriving DecidableEq, Repr

structure ReceiptDisclosureMessage where
  roomId : RoomId
  recipientEphemeralKey : Vector UInt8 32
  disclosedChainHash : Vector UInt8 32
  timestamp : UInt64
  nonce : Vector UInt8 16
  signature : Vector UInt8 64
  signatureMldsa65 : Vector UInt8 3309
  chain : List ReceiptIssuedMessage
  deriving DecidableEq, Repr

/-! Checks. -/

def validateParty (party : UInt8) : Except Error Party :=
  if party = 0 then .ok .a else if party = 1 then .ok .b else .error (.invalidArgument "invalid party")

def validateClientId (id : ClientId) : Except Error Unit := validateNonzeroId id "client id"

def validateInviteId (id : InviteId) : Except Error Unit := validateNonzeroId id "invite id"

def validateCertificatePin (pin : CertificatePin) : Except Error Unit := validateNonzeroId pin "certificate pin"

def validateRegistryNode (node : RegistryNode) (requireTtl : Bool) : Except Error Unit := do
  validatePrintable node.host maxNodeHostLength false "node host"
  throwIf (node.port = 0) (.invalidArgument "invalid node port")
  validateCertificatePin node.certificatePin
  throwIf (requireTtl ∧ (node.remainingTtlSeconds = 0 ∨ node.remainingTtlSeconds > registryTtlSeconds))
    (.invalidArgument "invalid registry TTL")
  throwIf (¬requireTtl ∧ ¬node.sourceRegistry.isEmpty) (.invalidArgument "source_registry is only valid in a listing")
  if ¬node.sourceRegistry.isEmpty then
    validatePrintable node.sourceRegistry maxNodeHostLength false "source registry"

def validateTradeTick (tick : TradeTick) : Except Error Unit :=
  throwIf (tick.baseAmount = 0 ∨ tick.quoteAmount = 0) (.invalidArgument "trade tick amounts must be nonzero")

/-! Fields. -/

def truncated : Error := .runtimeError "truncated message"
def trailing : Error := .runtimeError "trailing bytes in message"

def flag (set : Bool) : UInt8 := if set then 1 else 0

def readFlag (text : String) : Reader Error Bool := do
  let byte ← u8 truncated
  throwIf (byte > 1) (Error.runtimeError text)
  return byte = 1

def readShortString (maximum : Nat) : Reader Error Bytes := do
  let length ← u16 truncated
  throwIf (length.toNat > maximum) (Error.runtimeError "encoded string exceeds protocol limit")
  take truncated length.toNat

def byteField (value : Bytes) (maximum : Nat) : Except Error Bytes := do
  throwIf (value.length > maximum ∨ value.length > 65535) (.invalidArgument "byte field exceeds protocol limit")
  return bigEndian 2 value.length ++ value

def readByteField (maximum : Nat) : Reader Error Bytes := do
  let length ← u16 truncated
  throwIf (length.toNat > maximum) (Error.runtimeError "encoded byte field exceeds protocol limit")
  take truncated length.toNat

-- A field that is only there when a flag says so.
def readIf {α : Type} (present : Bool) (field : Reader Error α) (absent : α) : Reader Error α :=
  if present then field else pure absent

def writeIf (present : Bool) (field : Except Error Bytes) : Except Error Bytes := if present then field else return []

-- Items behind their two-byte number.
def readList {α : Type} (item : Reader Error α) (maximum : Nat) (text : String) : Reader Error (List α) := do
  let count ← u16 truncated
  throwIf (count.toNat > maximum) (Error.runtimeError text)
  readMany item count.toNat

-- The sender's byte is looked at last.
def readTerms : Reader Error TradeTerms := do
  let version ← u16 truncated
  let assetA ← readShortString maxAssetCodeLength
  let assetB ← readShortString maxAssetCodeLength
  let totalA ← u64 truncated
  let totalB ← u64 truncated
  let rounds ← u32 truncated
  let firstSender ← u8 truncated
  validateTerms { version, assetA, assetB, totalA, totalB, rounds }
  let firstSender ← validateParty firstSender
  return { version, assetA, assetB, totalA, totalB, rounds, firstSender }

def encodeFeeTerms (fee : FeeTerms) : Except Error Bytes := do
  validateFeeTerms fee
  let asset ← shortString fee.asset maxAssetCodeLength
  let address ← shortString fee.address maxAddressLength
  return asset ++ (bigEndian 8 fee.amount.toNat ++ address)

def readFeeTerms : Reader Error FeeTerms := do
  let asset ← readShortString maxAssetCodeLength
  let amount ← u64 truncated
  let address ← readShortString maxAddressLength
  validateFeeTerms { asset, amount, address }
  return { asset, amount, address }

-- The time left and the source are part of a listing, not of a registration.
def encodeRegistryNode (node : RegistryNode) (includeTtl : Bool) : Except Error Bytes := do
  validateRegistryNode node includeTtl
  let host ← shortString node.host maxNodeHostLength
  let front := host ++ (bigEndian 2 node.port.toNat ++ node.certificatePin.toList)
  if includeTtl then
    let sourceRegistry ← shortString node.sourceRegistry maxNodeHostLength
    return front ++ (bigEndian 4 node.remainingTtlSeconds.toNat ++ sourceRegistry)
  else return front

def readRegistryNode (includeTtl : Bool) : Reader Error RegistryNode := do
  let host ← readShortString maxNodeHostLength
  let port ← u16 truncated
  let certificatePin ← fixed truncated 32
  let remainingTtlSeconds ← readIf includeTtl (u32 truncated) 0
  let sourceRegistry ← readIf includeTtl (readShortString maxNodeHostLength) []
  validateRegistryNode { host, port, certificatePin, remainingTtlSeconds, sourceRegistry } includeTtl
  return { host, port, certificatePin, remainingTtlSeconds, sourceRegistry }

/- A message that is one id. -/
section Ids
variable {n : Nat} (validate : Vector UInt8 n → Except Error Unit)

def encodeId (id : Vector UInt8 n) : Except Error Bytes := do
  validate id
  return id.toList

def readId : Reader Error (Vector UInt8 n) := do
  let id ← fixed truncated n
  validate id
  return id

end Ids

end TradeP2P
