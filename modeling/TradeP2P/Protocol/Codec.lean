import TradeP2P.Protocol.Inversion

/-! The protocol's encoders against its decoders: what is encoded is decoded, and what is decoded was
encoded. -/
namespace TradeP2P
open Wire (Bytes writeMany writeManyLength)
open Checks

attribute [local simp] bind_ok check_ok pure_ok throwIf_ok

/- The pairs of an encoder and a decoder. -/
inductive Codec where
  | terms | createOffer | offerCreated | listOffers | offerList | getCandles | candleData | joinOffer | cancelOffer
  | offerCancelled | welcome | peerList | inviteTrade | inviteCreated | inviteReceived | acceptInvite | declineInvite
  | inviteDeclined | tradeReady | turn | roundSignal | complete | abort | error | registryRegister | registryRegistered
  | registryNodes | recoveryStateRequest | recoveryStateResponse | recognitionChallenge | recognitionResponse
  | tradeEphemeralKey | receiptAck | receiptIssued | receiptAckRequired | feeConfirmationPending | receiptDisclosure
  deriving DecidableEq, Repr

namespace Codec

@[reducible] def Message : Codec → Type
  | .terms => TradeTerms
  | .createOffer => CreateOfferMessage
  | .offerCreated => OfferCreatedMessage
  | .listOffers => ListOffersMessage
  | .offerList => OfferListMessage
  | .getCandles => GetCandlesMessage
  | .candleData => CandleDataMessage
  | .joinOffer => JoinOfferMessage
  | .cancelOffer => CancelOfferMessage
  | .offerCancelled => OfferCancelledMessage
  | .welcome => WelcomeMessage
  | .peerList => PeerListMessage
  | .inviteTrade => InviteTradeMessage
  | .inviteCreated => InviteCreatedMessage
  | .inviteReceived => InviteReceivedMessage
  | .acceptInvite => AcceptInviteMessage
  | .declineInvite => DeclineInviteMessage
  | .inviteDeclined => InviteDeclinedMessage
  | .tradeReady => TradeReadyMessage
  | .turn => TurnMessage
  | .roundSignal => RoundSignalMessage
  | .complete => CompleteMessage
  | .abort => AbortMessage
  | .error => ErrorMessage
  | .registryRegister => RegistryRegisterMessage
  | .registryRegistered => RegistryRegisteredMessage
  | .registryNodes => RegistryNodesMessage
  | .recoveryStateRequest => RecoveryStateRequestMessage
  | .recoveryStateResponse => RecoveryStateResponseMessage
  | .recognitionChallenge => RecognitionChallengeMessage
  | .recognitionResponse => RecognitionResponseMessage
  | .tradeEphemeralKey => TradeEphemeralKeyMessage
  | .receiptAck => ReceiptAckMessage
  | .receiptIssued => ReceiptIssuedMessage
  | .receiptAckRequired => ReceiptAckRequiredMessage
  | .feeConfirmationPending => FeeConfirmationPendingMessage
  | .receiptDisclosure => ReceiptDisclosureMessage

def encode : (codec : Codec) → codec.Message → Except Error Bytes
  | .terms => encodeTerms
  | .createOffer => encodeCreateOffer
  | .offerCreated => encodeOfferCreated
  | .listOffers => encodeListOffers
  | .offerList => encodeOfferList
  | .getCandles => encodeGetCandles
  | .candleData => encodeCandleData
  | .joinOffer => encodeJoinOffer
  | .cancelOffer => encodeCancelOffer
  | .offerCancelled => encodeOfferCancelled
  | .welcome => encodeWelcome
  | .peerList => encodePeerList
  | .inviteTrade => encodeInviteTrade
  | .inviteCreated => encodeInviteCreated
  | .inviteReceived => encodeInviteReceived
  | .acceptInvite => encodeAcceptInvite
  | .declineInvite => encodeDeclineInvite
  | .inviteDeclined => encodeInviteDeclined
  | .tradeReady => encodeTradeReady
  | .turn => encodeTurn
  | .roundSignal => encodeRoundSignal
  | .complete => encodeComplete
  | .abort => encodeAbort
  | .error => encodeError
  | .registryRegister => encodeRegistryRegister
  | .registryRegistered => encodeRegistryRegistered
  | .registryNodes => encodeRegistryNodes
  | .recoveryStateRequest => encodeRecoveryStateRequest
  | .recoveryStateResponse => encodeRecoveryStateResponse
  | .recognitionChallenge => encodeRecognitionChallenge
  | .recognitionResponse => encodeRecognitionResponse
  | .tradeEphemeralKey => encodeTradeEphemeralKey
  | .receiptAck => encodeReceiptAck
  | .receiptIssued => encodeReceiptIssued
  | .receiptAckRequired => encodeReceiptAckRequired
  | .feeConfirmationPending => encodeFeeConfirmationPending
  | .receiptDisclosure => encodeReceiptDisclosure

def decode : (codec : Codec) → Bytes → Except Error codec.Message
  | .terms => decodeTerms
  | .createOffer => decodeCreateOffer
  | .offerCreated => decodeOfferCreated
  | .listOffers => decodeListOffers
  | .offerList => decodeOfferList
  | .getCandles => decodeGetCandles
  | .candleData => decodeCandleData
  | .joinOffer => decodeJoinOffer
  | .cancelOffer => decodeCancelOffer
  | .offerCancelled => decodeOfferCancelled
  | .welcome => decodeWelcome
  | .peerList => decodePeerList
  | .inviteTrade => decodeInviteTrade
  | .inviteCreated => decodeInviteCreated
  | .inviteReceived => decodeInviteReceived
  | .acceptInvite => decodeAcceptInvite
  | .declineInvite => decodeDeclineInvite
  | .inviteDeclined => decodeInviteDeclined
  | .tradeReady => decodeTradeReady
  | .turn => decodeTurn
  | .roundSignal => decodeRoundSignal
  | .complete => decodeComplete
  | .abort => decodeAbort
  | .error => decodeError
  | .registryRegister => decodeRegistryRegister
  | .registryRegistered => decodeRegistryRegistered
  | .registryNodes => decodeRegistryNodes
  | .recoveryStateRequest => decodeRecoveryStateRequest
  | .recoveryStateResponse => decodeRecoveryStateResponse
  | .recognitionChallenge => decodeRecognitionChallenge
  | .recognitionResponse => decodeRecognitionResponse
  | .tradeEphemeralKey => decodeTradeEphemeralKey
  | .receiptAck => decodeReceiptAck
  | .receiptIssued => decodeReceiptIssued
  | .receiptAckRequired => decodeReceiptAckRequired
  | .feeConfirmationPending => decodeFeeConfirmationPending
  | .receiptDisclosure => decodeReceiptDisclosure

/- The message as it arrives. Most are sent whole. -/
def sent : (codec : Codec) → codec.Message → codec.Message
  | .listOffers, message => ListOffersMessage.sent message
  | .offerList, message => OfferListMessage.sent message
  | .registryRegister, message => RegistryRegisterMessage.sent message
  | .recoveryStateResponse, message => RecoveryStateResponseMessage.sent message
  | _, message => message

variable {codec : Codec} {message : codec.Message} {bytes : Bytes}

theorem wholly {α : Type} {r : Wire.Reader Error α} {w : α → Except Error Bytes} (h : Wire.Inverts r w) {a : α} :
    Wire.readAll trailing r bytes = .ok a ↔ a = a ∧ w a = .ok bytes := by
  rw [h.whole]
  exact (and_iff_right rfl).symm

theorem asId {α : Type} {n : Nat} {validate : Vector UInt8 n → Except Error Unit} {mk : Vector UInt8 n → α}
    {id : α → Vector UInt8 n} (only : ∀ a, mk (id a) = a) (read : ∀ v, id (mk v) = v) {a : α} :
    Wire.readAll trailing (mk <$> readId validate) bytes = .ok a ↔ a = a ∧ encodeId validate (id a) = .ok bytes := by
  simp [invertsId _ _ _]
  constructor
  · rintro ⟨v, written, rfl⟩
    rwa [read]
  · intro written
    exact ⟨id a, written, only a⟩

/- A decoder accepts the encodings of messages with nothing unsent, the decoder of turns some more. -/
theorem decodes (strict : codec ≠ .turn) :
    codec.decode bytes = .ok message ↔ codec.sent message = message ∧ codec.encode message = .ok bytes := by
  cases codec with
  | terms => exact wholly invertsTerms
  | createOffer => exact wholly invertsCreateOffer
  | getCandles => exact wholly invertsGetCandles
  | candleData => exact wholly invertsCandleData
  | joinOffer => exact wholly invertsJoinOffer
  | welcome => exact wholly invertsWelcome
  | peerList => exact wholly invertsPeerList
  | inviteTrade => exact wholly invertsInviteTrade
  | inviteCreated => exact wholly invertsInviteCreated
  | inviteReceived => exact wholly invertsInviteReceived
  | acceptInvite => exact wholly invertsAcceptInvite
  | tradeReady => exact wholly invertsTradeReady
  | roundSignal => exact wholly invertsRoundSignal
  | abort => exact wholly invertsAbort
  | error => exact wholly invertsError
  | registryRegistered => exact wholly invertsRegistryRegistered
  | registryNodes => exact wholly invertsRegistryNodes
  | recognitionResponse => exact wholly invertsRecognitionResponse
  | tradeEphemeralKey => exact wholly invertsTradeEphemeralKey
  | receiptAck => exact wholly invertsReceiptAck
  | receiptIssued => exact wholly invertsReceiptIssued
  | offerCreated | cancelOffer | offerCancelled | declineInvite | inviteDeclined | complete | recoveryStateRequest
  | receiptAckRequired | feeConfirmationPending => exact asId (fun _ => rfl) (fun _ => rfl)
  | recognitionChallenge => exact decodeRecognitionChallengeOk.trans (and_iff_right rfl).symm
  | receiptDisclosure => exact decodeReceiptDisclosureOk.trans (and_iff_right rfl).symm
  | listOffers => simp [decode, decodeListOffers, sent, encode, readListOffersOk]
  | offerList => simp [decode, decodeOfferList, sent, encode, readOfferListOk]
  | recoveryStateResponse => simp [decode, decodeRecoveryStateResponse, sent, encode, readRecoveryStateResponseOk]
  | registryRegister =>
    obtain ⟨⟨host, port, certificatePin, remainingTtlSeconds, sourceRegistry⟩⟩ := message
    simp [decode, decodeRegistryRegister, sent, encode, encodeRegistryRegister, readRegistryRegisterOk,
      RegistryRegisterMessage.sent]
    tauto
  | turn => contradiction

theorem sentTwice : codec.sent (codec.sent message) = codec.sent message := by
  cases codec with
  | listOffers => simp only [sent, ListOffersMessage.sent]; split <;> simp [*]
  | offerList => simp only [sent, OfferListMessage.sent]; split <;> simp [*]
  | recoveryStateResponse => simp only [sent, RecoveryStateResponseMessage.sent]; split <;> simp [*]
  | _ => rfl

/- What is not sent does not change the encoding. -/
theorem encodeSent (encoded : codec.encode message = .ok bytes) : codec.encode (codec.sent message) = .ok bytes := by
  cases codec with
  | listOffers =>
    obtain ⟨hasCursor, afterRoomId, limit⟩ := message
    cases hasCursor <;> simpa [encode, sent, ListOffersMessage.sent, encodeListOffers] using encoded
  | offerList =>
    obtain ⟨offers, hasMore, nextCursor⟩ := message
    cases hasMore <;> simpa [encode, sent, OfferListMessage.sent, encodeOfferList] using encoded
  | recoveryStateResponse =>
    obtain ⟨roomId, found, terms, fee, state, roundIndex, legIndex, partyAConnected, partyBConnected, reason⟩ := message
    cases found
    · simp [encode, sent, RecoveryStateResponseMessage.sent, encodeRecoveryStateResponse] at encoded ⊢
      tauto
    · exact encoded
  | _ => exact encoded

/-! Sizes. -/

section Sizes
attribute [local grind =] lengthFramed Wire.bigEndianLength Vector.length_toList
attribute [local grind] Fits maxAssetCodeLength maxAddressLength maxReasonLength maxNodeHostLength
  recognitionMaxPublicKeyLength recognitionMaxSignatureLength receiptWireMediatorIdLength

theorem termsLength {terms : TradeTerms} (encoded : encodeTerms terms = .ok bytes) : bytes.length ≤ 59 := by
  simp [encodeTerms] at encoded
  grind

theorem feeTermsLength {fee : FeeTerms} (encoded : encodeFeeTerms fee = .ok bytes) : bytes.length ≤ 284 := by
  simp [encodeFeeTerms] at encoded
  grind

theorem offerLength {offer : OfferSummary} (encoded : encodeOfferSummary offer = .ok bytes) : bytes.length ≤ 91 := by
  simp [encodeOfferSummary] at encoded
  grind [→ termsLength]

theorem tickLength {tick : TradeTick} (encoded : encodeTradeTick tick = .ok bytes) : bytes.length ≤ 24 := by
  simp [encodeTradeTick] at encoded
  grind

theorem idLength {n : Nat} {validate : Vector UInt8 n → Except Error Unit} {id : Vector UInt8 n}
    (encoded : encodeId validate id = .ok bytes) : bytes.length ≤ n := by
  simp [encodeId] at encoded
  grind

theorem nodeLength {node : RegistryNode} {listed : Bool} (encoded : encodeRegistryNode node listed = .ok bytes) :
    bytes.length ≤ 234 := by
  cases listed <;> simp [encodeRegistryNode] at encoded <;> grind

theorem foundRoomLength {message : RecoveryStateResponseMessage} (encoded : encodeFoundRoom message = .ok bytes) :
    bytes.length ≤ 351 := by
  simp [encodeFoundRoom] at encoded
  obtain ⟨_, terms, _, fee, rfl⟩ := encoded
  have offer := termsLength terms
  have paid := feeTermsLength fee
  simp
  omega

/- Lists of items, each of at most so many bytes. -/

theorem offersLength {offers : List OfferSummary} (written : writeMany encodeOfferSummary offers = .ok bytes) :
    bytes.length ≤ offers.length * 91 := writeManyLength offerLength written

theorem ticksLength {ticks : List TradeTick} (written : writeMany encodeTradeTick ticks = .ok bytes) :
    bytes.length ≤ ticks.length * 24 := writeManyLength tickLength written

theorem peersLength {peers : List ClientId} (written : writeMany (encodeId validateClientId) peers = .ok bytes) :
    bytes.length ≤ peers.length * 16 := writeManyLength idLength written

theorem nodesLength {nodes : List RegistryNode} (written : writeMany (encodeRegistryNode · true) nodes = .ok bytes) :
    bytes.length ≤ nodes.length * 234 := writeManyLength nodeLength written

theorem bounded (encoded : codec.encode message = .ok bytes) : bytes.length ≤ maxFramePayload := by
  simp only [maxFramePayload]
  cases codec with
  | terms => grind [termsLength encoded]
  | offerCreated | cancelOffer | offerCancelled | declineInvite | inviteDeclined | complete | recoveryStateRequest
  | receiptAckRequired | feeConfirmationPending => grind [idLength encoded]
  | registryRegister => grind [nodeLength encoded]
  | createOffer => simp [encode, encodeCreateOffer] at encoded; grind [→ termsLength]
  | listOffers =>
    obtain ⟨hasCursor, afterRoomId, limit⟩ := message
    cases hasCursor <;> simp [encode, encodeListOffers] at encoded <;> grind
  | offerList =>
    obtain ⟨offers, hasMore, nextCursor⟩ := message
    cases hasMore <;> simp [encode, encodeOfferList, maxOfferPageEntries] at encoded <;> grind [→ offersLength]
  | getCandles => simp [encode, encodeGetCandles] at encoded; grind
  | candleData =>
    simp [encode, encodeCandleData, maxCandleTicksPerPair] at encoded
    grind [→ ticksLength]
  | joinOffer => simp [encode, encodeJoinOffer] at encoded; grind
  | welcome => simp [encode, encodeWelcome] at encoded; grind [→ feeTermsLength]
  | peerList =>
    simp [encode, encodePeerList, maxPeerListEntries] at encoded
    grind [→ peersLength]
  | inviteTrade => simp [encode, encodeInviteTrade] at encoded; grind [→ termsLength]
  | inviteCreated => simp [encode, encodeInviteCreated] at encoded; grind
  | inviteReceived => simp [encode, encodeInviteReceived] at encoded; grind [→ termsLength]
  | acceptInvite => simp [encode, encodeAcceptInvite] at encoded; grind
  | tradeReady => simp [encode, encodeTradeReady] at encoded; grind [→ termsLength, → feeTermsLength]
  | turn => simp [encode, encodeTurn] at encoded; grind
  | roundSignal => simp [encode, encodeRoundSignal] at encoded; grind
  | abort => simp [encode, encodeAbort] at encoded; grind
  | error => simp [encode, encodeError] at encoded; grind
  | registryRegistered => simp [encode, encodeRegistryRegistered] at encoded; grind
  | registryNodes =>
    simp [encode, encodeRegistryNodes, maxRegistryNodesInList] at encoded
    grind [→ nodesLength]
  | recoveryStateResponse => simp [encode, encodeRecoveryStateResponse] at encoded; grind [→ foundRoomLength]
  | recognitionChallenge => simp [encode, encodeRecognitionChallenge] at encoded; grind
  | recognitionResponse => simp [encode, encodeRecognitionResponse] at encoded; grind
  | tradeEphemeralKey => simp [encode, encodeTradeEphemeralKey] at encoded; grind
  | receiptAck => simp [encode, encodeReceiptAck] at encoded; grind
  | receiptIssued =>
    simp [encode, encodeReceiptIssued, Fits, receiptWireMediatorIdLength] at encoded
    obtain ⟨_, fits, rfl⟩ := encoded
    simp
    omega
  | receiptDisclosure => simp [encode, encodeReceiptDisclosure, maxFramePayload] at encoded; grind

end Sizes

/- What an encoder accepts, its decoder gives back, up to what was not sent, and a frame can carry it. -/
theorem roundTrip (codec : Codec) (message : codec.Message) (bytes : Bytes) (encoded : codec.encode message = .ok bytes) :
    codec.decode bytes = .ok (codec.sent message) ∧ bytes.length ≤ maxFramePayload := by
  refine ⟨?_, bounded encoded⟩
  by_cases strict : codec = .turn
  · subst strict
    obtain ⟨sendable, written⟩ := encodeTurnOk.mp encoded
    exact decodeTurnOk.mpr ⟨sendable, _, flagIsClear, written⟩
  · exact (decodes strict).mpr ⟨sentTwice, encodeSent encoded⟩

/- Re-encoding what was decoded gives the same bytes back, unless a turn's mark is neither 0 nor 1. -/
theorem canonicalIff (codec : Codec) (bytes : Bytes) (message : codec.Message) (decoded : codec.decode bytes = .ok message) :
    codec.encode message = .ok bytes ↔ (codec = .turn → ∀ mark ∈ bytes.getLast?, mark ≤ 1) := by
  by_cases strict : codec = .turn
  · subst strict
    obtain ⟨sendable, mark, fee, rfl⟩ := decodeTurnOk.mp decoded
    have last : (turnBytes message mark).getLast? = some mark := by
      simp [turnBytes, List.getLast?_append, List.getLast?_cons]
    have same : turnBytes message (flag message.isFee) = turnBytes message mark ↔ flag message.isFee = mark := by
      simp [turnBytes]
    simp only [encode, encodeTurnOk, same, last, Option.mem_some_iff, forall_eq', forall_const, sendable, true_and]
    constructor
    · rintro rfl
      exact flagSmall
    · intro small
      obtain ⟨set, rfl⟩ : ∃ set, mark = flag set := ⟨_, flagByte small⟩
      simpa using congrArg flag (Bool.not_inj (flagIsClear.symm.trans fee)).symm
  · exact iff_of_true ((decodes strict).mp decoded).2 (fun turn => absurd turn strict)

/-! A page of one offer, a request without a cursor, and a turn with the mark 2. -/

def page : OfferListMessage where
  offers := [⟨Vector.replicate 32 1,
    { assetA := Wire.ascii "BTC", assetB := Wire.ascii "LTC", totalA := 5, totalB := 3, rounds := 2 }⟩]
  hasMore := true
  nextCursor := Vector.replicate 32 1

def pageBytes : Bytes :=
  [1] ++ (List.replicate 32 1 ++ ([0, 1] ++ (List.replicate 32 1 ++ ([0, 5, 0, 3, 66, 84, 67, 0, 3, 76, 84, 67] ++
    ([0, 0, 0, 0, 0, 0, 0, 5] ++ ([0, 0, 0, 0, 0, 0, 0, 3] ++ [0, 0, 0, 2, 0]))))))

theorem pageArrives : Codec.offerList.decode pageBytes = .ok page ∧ pageBytes.length ≤ maxFramePayload :=
  roundTrip .offerList page pageBytes rfl

def withoutCursor : ListOffersMessage where
  afterRoomId := Vector.replicate 32 1
  limit := 1

theorem cursorNotSent :
    Codec.listOffers.encode withoutCursor = .ok [0, 0, 1] ∧ Codec.listOffers.decode [0, 0, 1] ≠ .ok withoutCursor := by
  refine ⟨rfl, ?_⟩
  decide

def markedTurn : TurnMessage where
  roomId := Vector.replicate 32 1
  roundIndex := 0
  sender := .a
  asset := Wire.ascii "BTC"
  amount := 3
  destination := Wire.ascii "btcB"
  isFee := true

def markedBytes : Bytes :=
  List.replicate 32 1 ++ ([0, 0, 0, 0, 0, 0, 3, 66, 84, 67] ++ ([0, 0, 0, 0, 0, 0, 0, 3] ++ [0, 4, 98, 116, 99, 66, 2]))

theorem markedDecodes : Codec.turn.decode markedBytes = .ok markedTurn := rfl

theorem markNotCanonical :
    Codec.turn.decode markedBytes = .ok markedTurn ∧ Codec.turn.encode markedTurn ≠ .ok markedBytes := by
  refine ⟨markedDecodes, ?_⟩
  decide

theorem markedIff : Codec.turn.encode markedTurn = .ok markedBytes ↔
    (Codec.turn = .turn → ∀ mark ∈ markedBytes.getLast?, mark ≤ 1) :=
  canonicalIff .turn markedBytes markedTurn markedDecodes

end Codec
end TradeP2P
