import TradeP2P.Protocol.Messages

/-! Encoders and decoders of the messages about offers, invitations and rooms. An encoder checks a
message before it writes it; a decoder checks what it has read. -/
namespace TradeP2P
open Wire (Bytes Reader bigEndian u8 u16 u32 u64 fixed readAll writeMany)
open Checks

/-! Terms, offers and candles. -/

def decodeTerms (bytes : Bytes) : Except Error TradeTerms := readAll trailing readTerms bytes

def encodeCreateOffer (message : CreateOfferMessage) : Except Error Bytes := do
  validateTerms message.terms
  validateAddress message.receiveAddressA
  let terms ← encodeTerms message.terms
  let receiveAddressA ← shortString message.receiveAddressA maxAddressLength
  return terms ++ receiveAddressA

def readCreateOffer : Reader Error CreateOfferMessage := do
  let terms ← readTerms
  let receiveAddressA ← readShortString maxAddressLength
  validateAddress receiveAddressA
  return { terms, receiveAddressA }

def decodeCreateOffer (bytes : Bytes) : Except Error CreateOfferMessage := readAll trailing readCreateOffer bytes

def encodeOfferCreated (message : OfferCreatedMessage) : Except Error Bytes := encodeId validateRoomId message.roomId

def decodeOfferCreated (bytes : Bytes) : Except Error OfferCreatedMessage :=
  readAll trailing (OfferCreatedMessage.mk <$> readId validateRoomId) bytes

def encodeListOffers (message : ListOffersMessage) : Except Error Bytes := do
  throwIf (message.limit = 0 ∨ message.limit.toNat > maxOfferPageEntries) (.invalidArgument "invalid offer page size")
  if message.hasCursor then validateRoomId message.afterRoomId
  return [flag message.hasCursor] ++ ((if message.hasCursor then message.afterRoomId.toList else []) ++
    bigEndian 2 message.limit.toNat)

def readListOffers : Reader Error ListOffersMessage := do
  let hasCursor ← readFlag "invalid offer cursor flag"
  let afterRoomId ← readIf hasCursor (readId validateRoomId) (Vector.replicate 32 0)
  let limit ← u16 truncated
  throwIf (limit = 0 ∨ limit.toNat > maxOfferPageEntries) (Error.runtimeError "invalid offer page size")
  return { hasCursor, afterRoomId, limit }

def decodeListOffers (bytes : Bytes) : Except Error ListOffersMessage := readAll trailing readListOffers bytes

def encodeOfferSummary (offer : OfferSummary) : Except Error Bytes := do
  validateRoomId offer.roomId
  validateTerms offer.terms
  let terms ← encodeTerms offer.terms
  return offer.roomId.toList ++ terms

def readOfferSummary : Reader Error OfferSummary := do
  let roomId ← fixed truncated 32
  let terms ← readTerms
  validateRoomId roomId
  return { roomId, terms }

-- The cursor of a page that goes on is the id of its last offer.
def EndsAt (offers : List OfferSummary) (cursor : RoomId) : Prop := (offers.getLast?).map OfferSummary.roomId = some cursor
instance endsAtDecidable (offers : List OfferSummary) (cursor : RoomId) : Decidable (EndsAt offers cursor) :=
  inferInstanceAs (Decidable ((offers.getLast?).map OfferSummary.roomId = some cursor))

def encodeOfferList (message : OfferListMessage) : Except Error Bytes := do
  throwIf (message.offers.length > maxOfferPageEntries) (.invalidArgument "offer page exceeds protocol limit")
  if message.hasMore then
    validateRoomId message.nextCursor
    throwIf (¬EndsAt message.offers message.nextCursor) (.invalidArgument "invalid next offer cursor")
  let offers ← writeMany encodeOfferSummary message.offers
  return [flag message.hasMore] ++ ((if message.hasMore then message.nextCursor.toList else []) ++
    (bigEndian 2 message.offers.length ++ offers))

def readOfferList : Reader Error OfferListMessage := do
  let hasMore ← readFlag "invalid offer-page continuation flag"
  let nextCursor ← readIf hasMore (readId validateRoomId) (Vector.replicate 32 0)
  let offers ← readList readOfferSummary maxOfferPageEntries "offer page exceeds protocol limit"
  throwIf (hasMore ∧ ¬EndsAt offers nextCursor) (Error.runtimeError "invalid next offer cursor")
  return { offers, hasMore, nextCursor }

def decodeOfferList (bytes : Bytes) : Except Error OfferListMessage := readAll trailing readOfferList bytes

def encodeGetCandles (message : GetCandlesMessage) : Except Error Bytes := do
  validateAsset message.assetA
  validateAsset message.assetB
  let assetA ← shortString message.assetA maxAssetCodeLength
  let assetB ← shortString message.assetB maxAssetCodeLength
  return assetA ++ assetB

def readGetCandles : Reader Error GetCandlesMessage := do
  let assetA ← readShortString maxAssetCodeLength
  let assetB ← readShortString maxAssetCodeLength
  validateAsset assetA
  validateAsset assetB
  return { assetA, assetB }

def decodeGetCandles (bytes : Bytes) : Except Error GetCandlesMessage := readAll trailing readGetCandles bytes

def encodeTradeTick (tick : TradeTick) : Except Error Bytes := do
  validateTradeTick tick
  return bigEndian 8 tick.timestamp.toNat ++ (bigEndian 8 tick.baseAmount.toNat ++ bigEndian 8 tick.quoteAmount.toNat)

def readTradeTick : Reader Error TradeTick := do
  let timestamp ← u64 truncated
  let baseAmount ← u64 truncated
  let quoteAmount ← u64 truncated
  validateTradeTick { timestamp, baseAmount, quoteAmount }
  return { timestamp, baseAmount, quoteAmount }

def encodeCandleData (message : CandleDataMessage) : Except Error Bytes := do
  validateAsset message.baseAsset
  validateAsset message.quoteAsset
  throwIf (message.ticks.length > maxCandleTicksPerPair) (.invalidArgument "candle series exceeds protocol limit")
  let baseAsset ← shortString message.baseAsset maxAssetCodeLength
  let quoteAsset ← shortString message.quoteAsset maxAssetCodeLength
  let ticks ← writeMany encodeTradeTick message.ticks
  return baseAsset ++ (quoteAsset ++ (bigEndian 2 message.ticks.length ++ ticks))

def readCandleData : Reader Error CandleDataMessage := do
  let baseAsset ← readShortString maxAssetCodeLength
  let quoteAsset ← readShortString maxAssetCodeLength
  validateAsset baseAsset
  validateAsset quoteAsset
  let ticks ← readList readTradeTick maxCandleTicksPerPair "candle series exceeds protocol limit"
  return { baseAsset, quoteAsset, ticks }

def decodeCandleData (bytes : Bytes) : Except Error CandleDataMessage := readAll trailing readCandleData bytes

def encodeJoinOffer (message : JoinOfferMessage) : Except Error Bytes := do
  validateRoomId message.roomId
  validateAddress message.receiveAddressB
  let receiveAddressB ← shortString message.receiveAddressB maxAddressLength
  return message.roomId.toList ++ receiveAddressB

def readJoinOffer : Reader Error JoinOfferMessage := do
  let roomId ← fixed truncated 32
  let receiveAddressB ← readShortString maxAddressLength
  validateRoomId roomId
  validateAddress receiveAddressB
  return { roomId, receiveAddressB }

def decodeJoinOffer (bytes : Bytes) : Except Error JoinOfferMessage := readAll trailing readJoinOffer bytes

def encodeCancelOffer (message : CancelOfferMessage) : Except Error Bytes := encodeId validateRoomId message.roomId

def decodeCancelOffer (bytes : Bytes) : Except Error CancelOfferMessage :=
  readAll trailing (CancelOfferMessage.mk <$> readId validateRoomId) bytes

def encodeOfferCancelled (message : OfferCancelledMessage) : Except Error Bytes := encodeId validateRoomId message.roomId

def decodeOfferCancelled (bytes : Bytes) : Except Error OfferCancelledMessage :=
  readAll trailing (OfferCancelledMessage.mk <$> readId validateRoomId) bytes

/-! Clients and invitations. -/

def encodeWelcome (message : WelcomeMessage) : Except Error Bytes := do
  validateClientId message.clientId
  let fee ← encodeFeeTerms message.fee
  return message.clientId.toList ++ fee

def readWelcome : Reader Error WelcomeMessage := do
  let clientId ← fixed truncated 16
  let fee ← readFeeTerms
  validateClientId clientId
  return { clientId, fee }

def decodeWelcome (bytes : Bytes) : Except Error WelcomeMessage := readAll trailing readWelcome bytes

def encodePeerList (message : PeerListMessage) : Except Error Bytes := do
  throwIf (message.peers.length > maxPeerListEntries) (.invalidArgument "peer list exceeds protocol limit")
  let peers ← writeMany (encodeId validateClientId) message.peers
  return bigEndian 2 message.peers.length ++ peers

def readPeerList : Reader Error PeerListMessage := do
  let peers ← readList (readId validateClientId) maxPeerListEntries "peer list exceeds protocol limit"
  return { peers }

def decodePeerList (bytes : Bytes) : Except Error PeerListMessage := readAll trailing readPeerList bytes

def encodeInviteTrade (message : InviteTradeMessage) : Except Error Bytes := do
  validateClientId message.target
  validateTerms message.terms
  validateAddress message.receiveAddressA
  let terms ← encodeTerms message.terms
  let receiveAddressA ← shortString message.receiveAddressA maxAddressLength
  return message.target.toList ++ (terms ++ receiveAddressA)

def readInviteTrade : Reader Error InviteTradeMessage := do
  let target ← fixed truncated 16
  let terms ← readTerms
  let receiveAddressA ← readShortString maxAddressLength
  validateClientId target
  validateAddress receiveAddressA
  return { target, terms, receiveAddressA }

def decodeInviteTrade (bytes : Bytes) : Except Error InviteTradeMessage := readAll trailing readInviteTrade bytes

def encodeInviteCreated (message : InviteCreatedMessage) : Except Error Bytes := do
  validateInviteId message.inviteId
  validateClientId message.target
  return message.inviteId.toList ++ message.target.toList

def readInviteCreated : Reader Error InviteCreatedMessage := do
  let inviteId ← fixed truncated 16
  let target ← fixed truncated 16
  validateInviteId inviteId
  validateClientId target
  return { inviteId, target }

def decodeInviteCreated (bytes : Bytes) : Except Error InviteCreatedMessage := readAll trailing readInviteCreated bytes

def encodeInviteReceived (message : InviteReceivedMessage) : Except Error Bytes := do
  validateInviteId message.inviteId
  validateClientId message.sender
  validateTerms message.terms
  validateAddress message.receiveAddressA
  let terms ← encodeTerms message.terms
  let receiveAddressA ← shortString message.receiveAddressA maxAddressLength
  return message.inviteId.toList ++ (message.sender.toList ++ (terms ++ receiveAddressA))

def readInviteReceived : Reader Error InviteReceivedMessage := do
  let inviteId ← fixed truncated 16
  let sender ← fixed truncated 16
  let terms ← readTerms
  let receiveAddressA ← readShortString maxAddressLength
  validateInviteId inviteId
  validateClientId sender
  validateAddress receiveAddressA
  return { inviteId, sender, terms, receiveAddressA }

def decodeInviteReceived (bytes : Bytes) : Except Error InviteReceivedMessage := readAll trailing readInviteReceived bytes

def encodeAcceptInvite (message : AcceptInviteMessage) : Except Error Bytes := do
  validateInviteId message.inviteId
  validateAddress message.receiveAddressB
  let receiveAddressB ← shortString message.receiveAddressB maxAddressLength
  return message.inviteId.toList ++ receiveAddressB

def readAcceptInvite : Reader Error AcceptInviteMessage := do
  let inviteId ← fixed truncated 16
  let receiveAddressB ← readShortString maxAddressLength
  validateInviteId inviteId
  validateAddress receiveAddressB
  return { inviteId, receiveAddressB }

def decodeAcceptInvite (bytes : Bytes) : Except Error AcceptInviteMessage := readAll trailing readAcceptInvite bytes

def encodeDeclineInvite (message : DeclineInviteMessage) : Except Error Bytes := encodeId validateInviteId message.inviteId

def decodeDeclineInvite (bytes : Bytes) : Except Error DeclineInviteMessage :=
  readAll trailing (DeclineInviteMessage.mk <$> readId validateInviteId) bytes

def encodeInviteDeclined (message : InviteDeclinedMessage) : Except Error Bytes := encodeId validateInviteId message.inviteId

def decodeInviteDeclined (bytes : Bytes) : Except Error InviteDeclinedMessage :=
  readAll trailing (InviteDeclinedMessage.mk <$> readId validateInviteId) bytes

/-! Rooms. -/

def encodeTradeReady (message : TradeReadyMessage) : Except Error Bytes := do
  validateRoomId message.roomId
  validateClientId message.peerId
  validateTerms message.terms
  validateAddress message.receiveAddressA
  validateAddress message.receiveAddressB
  let terms ← encodeTerms message.terms
  let receiveAddressA ← shortString message.receiveAddressA maxAddressLength
  let receiveAddressB ← shortString message.receiveAddressB maxAddressLength
  let fee ← encodeFeeTerms message.fee
  return message.roomId.toList ++ ([message.assignedParty.toByte] ++ (message.peerId.toList ++ (terms ++
    (receiveAddressA ++ (receiveAddressB ++ fee)))))

def readTradeReady : Reader Error TradeReadyMessage := do
  let roomId ← fixed truncated 32
  let assignedParty ← u8 truncated
  let peerId ← fixed truncated 16
  let terms ← readTerms
  let receiveAddressA ← readShortString maxAddressLength
  let receiveAddressB ← readShortString maxAddressLength
  let fee ← readFeeTerms
  validateRoomId roomId
  let assignedParty ← validateParty assignedParty
  validateClientId peerId
  validateAddress receiveAddressA
  validateAddress receiveAddressB
  return { roomId, assignedParty, peerId, terms, receiveAddressA, receiveAddressB, fee }

def decodeTradeReady (bytes : Bytes) : Except Error TradeReadyMessage := readAll trailing readTradeReady bytes

def encodeTurn (message : TurnMessage) : Except Error Bytes := do
  validateTurn message
  let asset ← shortString message.asset maxAssetCodeLength
  let destination ← shortString message.destination maxAddressLength
  return message.roomId.toList ++ (bigEndian 4 message.roundIndex.toNat ++ ([message.sender.toByte] ++ (asset ++
    (bigEndian 8 message.amount.toNat ++ (destination ++ [flag message.isFee])))))

-- Any byte but zero marks the fee.
def readTurn : Reader Error TurnMessage := do
  let roomId ← fixed truncated 32
  let roundIndex ← u32 truncated
  let sender ← u8 truncated
  let asset ← readShortString maxAssetCodeLength
  let amount ← u64 truncated
  let destination ← readShortString maxAddressLength
  let isFee ← u8 truncated
  validateRoomId roomId
  let sender ← validateParty sender
  validateAsset asset
  validateAddress destination
  throwIf (amount = 0) (Error.invalidArgument "turn amount must be positive")
  return { roomId, roundIndex, sender, asset, amount, destination, isFee := isFee ≠ 0 }

def decodeTurn (bytes : Bytes) : Except Error TurnMessage := readAll trailing readTurn bytes

def encodeRoundSignal (message : RoundSignalMessage) : Except Error Bytes := do
  validateRoomId message.roomId
  return message.roomId.toList ++ (bigEndian 4 message.roundIndex.toNat ++ [message.sender.toByte])

def readRoundSignal : Reader Error RoundSignalMessage := do
  let roomId ← fixed truncated 32
  let roundIndex ← u32 truncated
  let sender ← u8 truncated
  validateRoomId roomId
  let sender ← validateParty sender
  return { roomId, roundIndex, sender }

def decodeRoundSignal (bytes : Bytes) : Except Error RoundSignalMessage := readAll trailing readRoundSignal bytes

def encodeComplete (message : CompleteMessage) : Except Error Bytes := encodeId validateRoomId message.roomId

def decodeComplete (bytes : Bytes) : Except Error CompleteMessage :=
  readAll trailing (CompleteMessage.mk <$> readId validateRoomId) bytes

def encodeAbort (message : AbortMessage) : Except Error Bytes := do
  validateRoomId message.roomId
  validateReason message.reason
  let reason ← shortString message.reason maxReasonLength
  return message.roomId.toList ++ reason

def readAbort : Reader Error AbortMessage := do
  let roomId ← fixed truncated 32
  let reason ← readShortString maxReasonLength
  validateRoomId roomId
  validateReason reason
  return { roomId, reason }

def decodeAbort (bytes : Bytes) : Except Error AbortMessage := readAll trailing readAbort bytes

def encodeError (message : ErrorMessage) : Except Error Bytes := do
  validateReason message.reason
  shortString message.reason maxReasonLength

def readError : Reader Error ErrorMessage := do
  let reason ← readShortString maxReasonLength
  validateReason reason
  return { reason }

def decodeError (bytes : Bytes) : Except Error ErrorMessage := readAll trailing readError bytes

end TradeP2P
