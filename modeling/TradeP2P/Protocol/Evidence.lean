import TradeP2P.Protocol.Offers

/-! Encoders and decoders of the messages to a registry, about recovery, and of the identity layer. The
bytes of keys and signatures are framed here, not verified. -/
namespace TradeP2P
open Wire (Bytes Reader bigEndian u8 u16 u32 u64 fixed readAll readMany writeMany)
open Checks

/-! Registries. -/

def encodeRegistryRegister (message : RegistryRegisterMessage) : Except Error Bytes :=
  encodeRegistryNode message.node false

def decodeRegistryRegister (bytes : Bytes) : Except Error RegistryRegisterMessage :=
  readAll trailing (RegistryRegisterMessage.mk <$> readRegistryNode false) bytes

def encodeRegistryRegistered (message : RegistryRegisteredMessage) : Except Error Bytes := do
  throwIf (message.ttlSeconds = 0 ∨ message.ttlSeconds > registryTtlSeconds) (.invalidArgument "invalid registry TTL")
  return bigEndian 4 message.ttlSeconds.toNat

def readRegistryRegistered : Reader Error RegistryRegisteredMessage := do
  let ttlSeconds ← u32 truncated
  throwIf (ttlSeconds = 0 ∨ ttlSeconds > registryTtlSeconds) (Error.runtimeError "invalid registry TTL")
  return { ttlSeconds }

def decodeRegistryRegistered (bytes : Bytes) : Except Error RegistryRegisteredMessage :=
  readAll trailing readRegistryRegistered bytes

def encodeRegistryNodes (message : RegistryNodesMessage) : Except Error Bytes := do
  throwIf (message.nodes.length > maxRegistryNodesInList) (.invalidArgument "registry node list exceeds protocol limit")
  let nodes ← writeMany (encodeRegistryNode · true) message.nodes
  return bigEndian 2 message.nodes.length ++ nodes

def readRegistryNodes : Reader Error RegistryNodesMessage := do
  let nodes ← readList (readRegistryNode true) maxRegistryNodesInList "registry node list exceeds protocol limit"
  return { nodes }

def decodeRegistryNodes (bytes : Bytes) : Except Error RegistryNodesMessage := readAll trailing readRegistryNodes bytes

/-! Recovery. -/

def encodeRecoveryStateRequest (message : RecoveryStateRequestMessage) : Except Error Bytes :=
  encodeId validateRoomId message.roomId

def decodeRecoveryStateRequest (bytes : Bytes) : Except Error RecoveryStateRequestMessage :=
  readAll trailing (RecoveryStateRequestMessage.mk <$> readId validateRoomId) bytes

def validateGivenReason (reason : Bytes) : Except Error Unit := if reason.isEmpty then return else validateReason reason

-- What a response carries of a room that was found.
def encodeFoundRoom (message : RecoveryStateResponseMessage) : Except Error Bytes := do
  let terms ← encodeTerms message.terms
  let fee ← encodeFeeTerms message.fee
  return terms ++ (fee ++ ([message.state] ++ (bigEndian 4 message.roundIndex.toNat ++ ([message.legIndex] ++
    ([flag message.partyAConnected] ++ [flag message.partyBConnected])))))

def encodeRecoveryStateResponse (message : RecoveryStateResponseMessage) : Except Error Bytes := do
  validateRoomId message.roomId
  throwIf (message.legIndex > 1) (.invalidArgument "invalid recovery response leg index")
  validateGivenReason message.reason
  let room ← writeIf message.found (encodeFoundRoom message)
  let reason ← shortString message.reason maxReasonLength
  return message.roomId.toList ++ ([flag message.found] ++ (room ++ reason))

def readFoundRoom (roomId : RoomId) : Reader Error RecoveryStateResponseMessage := do
  let terms ← readTerms
  let fee ← readFeeTerms
  let state ← u8 truncated
  let roundIndex ← u32 truncated
  let legIndex ← u8 truncated
  throwIf (legIndex > 1) (Error.runtimeError "invalid recovery response leg index")
  let partyA ← u8 truncated
  let partyB ← u8 truncated
  throwIf (partyA > 1 ∨ partyB > 1) (Error.runtimeError "invalid recovery response connection flag")
  return { roomId, found := true, terms, fee, state, roundIndex, legIndex, partyAConnected := partyA = 1
           partyBConnected := partyB = 1 }

def readRecoveryStateResponse : Reader Error RecoveryStateResponseMessage := do
  let roomId ← readId validateRoomId
  let found ← readFlag "invalid recovery response found flag"
  let room ← readIf found (readFoundRoom roomId) { roomId }
  let reason ← readShortString maxReasonLength
  validateGivenReason reason
  return { room with reason }

def decodeRecoveryStateResponse (bytes : Bytes) : Except Error RecoveryStateResponseMessage :=
  readAll trailing readRecoveryStateResponse bytes

/-! Recognition and trade keys. -/

def encodeRecognitionChallenge (message : RecognitionChallengeMessage) : Except Error Bytes := do
  validateRoomId message.roomId
  throwIf (message.expiresAt ≤ message.createdAt)
    (.invalidArgument "recognition challenge expiry must be after its creation time")
  return message.roomId.toList ++ (bigEndian 2 message.suiteId.toNat ++ (message.nonce.toList ++
    (bigEndian 8 message.createdAt.toNat ++ bigEndian 8 message.expiresAt.toNat)))

def readRecognitionChallenge : Reader Error RecognitionChallengeMessage := do
  let roomId ← readId validateRoomId
  let suiteId ← u16 truncated
  let nonce ← fixed truncated 32
  let createdAt ← u64 truncated
  let expiresAt ← u64 truncated
  return { roomId, suiteId, nonce, createdAt, expiresAt }

-- The times are compared once the whole message has been read.
def decodeRecognitionChallenge (bytes : Bytes) : Except Error RecognitionChallengeMessage := do
  let message ← readAll trailing readRecognitionChallenge bytes
  throwIf (message.expiresAt ≤ message.createdAt)
    (.runtimeError "recognition challenge expiry must be after its creation time")
  return message

def encodeRecognitionResponse (message : RecognitionResponseMessage) : Except Error Bytes := do
  validateRoomId message.roomId
  let proverPublicKey ← byteField message.proverPublicKey recognitionMaxPublicKeyLength
  let signature ← byteField message.signature recognitionMaxSignatureLength
  return message.roomId.toList ++ (message.nonce.toList ++ (bigEndian 2 message.suiteId.toNat ++
    (proverPublicKey ++ signature)))

def readRecognitionResponse : Reader Error RecognitionResponseMessage := do
  let roomId ← readId validateRoomId
  let nonce ← fixed truncated 32
  let suiteId ← u16 truncated
  let proverPublicKey ← readByteField recognitionMaxPublicKeyLength
  let signature ← readByteField recognitionMaxSignatureLength
  return { roomId, nonce, suiteId, proverPublicKey, signature }

def decodeRecognitionResponse (bytes : Bytes) : Except Error RecognitionResponseMessage :=
  readAll trailing readRecognitionResponse bytes

def encodeTradeEphemeralKey (message : TradeEphemeralKeyMessage) : Except Error Bytes := do
  validateRoomId message.roomId
  return message.roomId.toList ++ (message.ephemeralPublicKey.toList ++ message.ephemeralPublicKeyMldsa65.toList)

def readTradeEphemeralKey : Reader Error TradeEphemeralKeyMessage := do
  let roomId ← readId validateRoomId
  let ephemeralPublicKey ← fixed truncated 32
  let ephemeralPublicKeyMldsa65 ← fixed truncated 1952
  return { roomId, ephemeralPublicKey, ephemeralPublicKeyMldsa65 }

def decodeTradeEphemeralKey (bytes : Bytes) : Except Error TradeEphemeralKeyMessage :=
  readAll trailing readTradeEphemeralKey bytes

/-! Receipts and their disclosure. -/

def encodeReceiptAck (message : ReceiptAckMessage) : Except Error Bytes := do
  validateRoomId message.roomId
  return message.roomId.toList ++ ([message.stage] ++ (bigEndian 8 message.timestamp.toNat ++
    (message.signature.toList ++ message.signatureMldsa65.toList)))

def readReceiptAck : Reader Error ReceiptAckMessage := do
  let roomId ← readId validateRoomId
  let stage ← u8 truncated
  let timestamp ← u64 truncated
  let signature ← fixed truncated 64
  let signatureMldsa65 ← fixed truncated 3309
  return { roomId, stage, timestamp, signature, signatureMldsa65 }

def decodeReceiptAck (bytes : Bytes) : Except Error ReceiptAckMessage := readAll trailing readReceiptAck bytes

def encodeReceiptIssued (message : ReceiptIssuedMessage) : Except Error Bytes := do
  validateRoomId message.roomId
  let mediatorId ← shortString message.mediatorId receiptWireMediatorIdLength
  return message.roomId.toList ++ (mediatorId ++ ([message.stage] ++ ([flag message.completed] ++
    (message.termsCommitment.toList ++ (message.partyAEphemeralKey.toList ++ (message.partyBEphemeralKey.toList ++
    (message.partyAEphemeralKeyMldsa65.toList ++ (message.partyBEphemeralKeyMldsa65.toList ++
    (message.mediatorPublicKey.toList ++ (message.mediatorPublicKeyMldsa65.toList ++
    (bigEndian 8 message.timestamp.toNat ++ (message.nonce.toList ++ (message.previousStageHash.toList ++
    (message.mediatorSignature.toList ++ message.mediatorSignatureMldsa65.toList))))))))))))))

def readReceiptIssued : Reader Error ReceiptIssuedMessage := do
  let roomId ← readId validateRoomId
  let mediatorId ← readShortString receiptWireMediatorIdLength
  let stage ← u8 truncated
  let completed ← readFlag "invalid receipt completed flag"
  let termsCommitment ← fixed truncated 32
  let partyAEphemeralKey ← fixed truncated 32
  let partyBEphemeralKey ← fixed truncated 32
  let partyAEphemeralKeyMldsa65 ← fixed truncated 1952
  let partyBEphemeralKeyMldsa65 ← fixed truncated 1952
  let mediatorPublicKey ← fixed truncated 32
  let mediatorPublicKeyMldsa65 ← fixed truncated 1952
  let timestamp ← u64 truncated
  let nonce ← fixed truncated 16
  let previousStageHash ← fixed truncated 32
  let mediatorSignature ← fixed truncated 64
  let mediatorSignatureMldsa65 ← fixed truncated 3309
  return { roomId, mediatorId, stage, completed, termsCommitment, partyAEphemeralKey, partyBEphemeralKey
           partyAEphemeralKeyMldsa65, partyBEphemeralKeyMldsa65, mediatorPublicKey, mediatorPublicKeyMldsa65
           timestamp, nonce, previousStageHash, mediatorSignature, mediatorSignatureMldsa65 }

def decodeReceiptIssued (bytes : Bytes) : Except Error ReceiptIssuedMessage := readAll trailing readReceiptIssued bytes

def encodeReceiptAckRequired (message : ReceiptAckRequiredMessage) : Except Error Bytes :=
  encodeId validateRoomId message.roomId

def decodeReceiptAckRequired (bytes : Bytes) : Except Error ReceiptAckRequiredMessage :=
  readAll trailing (ReceiptAckRequiredMessage.mk <$> readId validateRoomId) bytes

def encodeFeeConfirmationPending (message : FeeConfirmationPendingMessage) : Except Error Bytes :=
  encodeId validateRoomId message.roomId

def decodeFeeConfirmationPending (bytes : Bytes) : Except Error FeeConfirmationPendingMessage :=
  readAll trailing (FeeConfirmationPendingMessage.mk <$> readId validateRoomId) bytes

-- A receipt inside a disclosure, behind its length.
def encodeChainEntry (entry : ReceiptIssuedMessage) : Except Error Bytes := do
  let bytes ← encodeReceiptIssued entry
  shortString bytes maxFramePayload

def readChainEntry : Reader Error ReceiptIssuedMessage := do
  let bytes ← readShortString maxFramePayload
  decodeReceiptIssued bytes

def encodeReceiptDisclosure (message : ReceiptDisclosureMessage) : Except Error Bytes := do
  validateRoomId message.roomId
  throwIf (message.chain.length > disclosureMaxChainEntries)
    (.invalidArgument "disclosed receipt chain exceeds the maximum allowed length")
  throwIf (message.chain.length > 255) (.invalidArgument "disclosed receipt chain has too many entries to encode")
  let chain ← writeMany encodeChainEntry message.chain
  let result := message.roomId.toList ++ (message.recipientEphemeralKey.toList ++ (message.disclosedChainHash.toList ++
    (bigEndian 8 message.timestamp.toNat ++ (message.nonce.toList ++ (message.signature.toList ++
    (message.signatureMldsa65.toList ++ ([UInt8.ofNat message.chain.length] ++ chain)))))))
  throwIf (result.length > maxFramePayload)
    (.invalidArgument "encoded receipt disclosure exceeds the frame payload limit")
  return result

def readReceiptDisclosure : Reader Error ReceiptDisclosureMessage := do
  let roomId ← readId validateRoomId
  let recipientEphemeralKey ← fixed truncated 32
  let disclosedChainHash ← fixed truncated 32
  let timestamp ← u64 truncated
  let nonce ← fixed truncated 16
  let signature ← fixed truncated 64
  let signatureMldsa65 ← fixed truncated 3309
  let count ← u8 truncated
  throwIf (count.toNat > disclosureMaxChainEntries)
    (Error.runtimeError "disclosed receipt chain exceeds the maximum allowed length")
  let chain ← readMany readChainEntry count.toNat
  return { roomId, recipientEphemeralKey, disclosedChainHash, timestamp, nonce, signature, signatureMldsa65, chain }

def decodeReceiptDisclosure (bytes : Bytes) : Except Error ReceiptDisclosureMessage := do
  throwIf (bytes.length > maxFramePayload) (.runtimeError "receipt disclosure payload exceeds the frame payload limit")
  readAll trailing readReceiptDisclosure bytes

end TradeP2P
