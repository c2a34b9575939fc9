import Mathlib.Tactic.Tauto
import TradeP2P.Protocol.Evidence

/-! What each reader accepts: the encodings of the messages it returns, byte for byte. Some fields are
not always sent, and the decoder leaves them at their defaults; the fee mark of a turn is read more
freely than it is written. -/
namespace TradeP2P
open Wire (Bytes Inverts bigEndian writeMany)
open Checks

attribute [local simp] bind_ok check_ok pure_ok throwIf_ok

section Fields
variable {input rest : Bytes}

@[simp] theorem mapOk {α β : Type} {x : Except Error α} {f : α → β} {b : β} :
    f <$> x = .ok b ↔ ∃ a, x = .ok a ∧ f a = b := by
  cases x <;> simp [Functor.map, Except.map]

@[simp] theorem validatePartyOk {byte : UInt8} {party : Party} : validateParty byte = .ok party ↔ byte = party.toByte := by
  unfold validateParty
  split
  · cases party <;> simp_all [Party.toByte]
  · split <;> cases party <;> simp_all [Party.toByte]

theorem flagByte {byte : UInt8} (small : byte ≤ 1) : byte = flag (byte = 1) := by
  have cases : byte = 0 ∨ byte = 1 := by
    rw [UInt8.le_iff_toNat_le, UInt8.toNat_one] at small
    rw [← UInt8.toNat_inj, ← UInt8.toNat_inj, UInt8.toNat_zero, UInt8.toNat_one]
    omega
  rcases cases with rfl | rfl <;> rfl

@[simp] theorem flagIsSet {set : Bool} : flag set = 1 ↔ set = true := by cases set <;> simp [flag]

theorem flagSmall {set : Bool} : flag set ≤ 1 := by cases set <;> decide

@[simp] theorem flagIsClear {set : Bool} : decide (flag set = 0) = !set := by cases set <;> rfl

theorem flagRead {byte : UInt8} {set : Bool} : (byte ≤ 1 ∧ decide (byte = 1) = set) ↔ byte = flag set := by
  constructor
  · rintro ⟨small, rfl⟩
    exact flagByte small
  · rintro rfl
    exact ⟨flagSmall, by simp⟩

@[simp] theorem readFlagOk {text : String} {set : Bool} :
    readFlag text input = .ok (set, rest) ↔ input = flag set :: rest := by
  simp [readFlag, flagRead]

/- A field behind its length. -/
def framed (value : Bytes) : Bytes := bigEndian 2 value.length ++ value

@[simp] theorem lengthFramed (value : Bytes) : (framed value).length = value.length + 2 := by simp [framed, Nat.add_comm]

def Fits (value : Bytes) (maximum : Nat) : Prop := value.length ≤ maximum ∧ value.length ≤ 65535

@[simp] theorem shortStringOk {value : Bytes} {maximum : Nat} {bytes : Bytes} :
    shortString value maximum = .ok bytes ↔ Fits value maximum ∧ framed value = bytes := by
  simp [shortString, framed, Fits]

@[simp] theorem byteFieldOk {value : Bytes} {maximum : Nat} {bytes : Bytes} :
    byteField value maximum = .ok bytes ↔ Fits value maximum ∧ framed value = bytes := by
  simp [byteField, framed, Fits]

theorem lengthOfU16 {n : Nat} (small : n ≤ 65535) : (UInt16.ofNat n).toNat = n :=
  UInt16.toNat_ofNat_of_lt' (Nat.lt_succ_of_le small)

@[simp] theorem readShortStringOk {maximum : Nat} {value : Bytes} :
    readShortString maximum input = .ok (value, rest) ↔ Fits value maximum ∧ input = framed value ++ rest := by
  simp [readShortString, framed, Fits]
  constructor
  · rintro ⟨length, rfl, small, same⟩
    have bound := length.toNat_lt
    rw [same]
    exact ⟨⟨small, by omega⟩, rfl⟩
  · rintro ⟨⟨small, short⟩, rfl⟩
    have same := lengthOfU16 short
    exact ⟨UInt16.ofNat value.length, by rw [same], by rwa [same], same.symm⟩

@[simp] theorem readByteFieldOk {maximum : Nat} {value : Bytes} :
    readByteField maximum input = .ok (value, rest) ↔ Fits value maximum ∧ input = framed value ++ rest := by
  simp [readByteField, framed, Fits]
  constructor
  · rintro ⟨length, rfl, small, same⟩
    have bound := length.toNat_lt
    rw [same]
    exact ⟨⟨small, by omega⟩, rfl⟩
  · rintro ⟨⟨small, short⟩, rfl⟩
    have same := lengthOfU16 short
    exact ⟨UInt16.ofNat value.length, by rw [same], by rwa [same], same.symm⟩

theorem readListOk {α : Type} {r : Wire.Reader Error α} {w : α → Except Error Bytes} (h : Inverts r w) {maximum : Nat}
    (short : maximum ≤ 65535) {text : String} {items : List α} :
    readList r maximum text input = .ok (items, rest) ↔ items.length ≤ maximum ∧
      ∃ bytes, writeMany w items = .ok bytes ∧ input = bigEndian 2 items.length ++ (bytes ++ rest) := by
  simp only [readList, Wire.bindRead, Wire.u16Read, Wire.checkRead, throwIf_ok, h.many]
  constructor
  · rintro ⟨count, _, rfl, _, _, ⟨small, rfl⟩, same, bytes, written, rfl⟩
    exact ⟨by omega, bytes, written, by rw [same]⟩
  · rintro ⟨small, bytes, written, rfl⟩
    have same : (UInt16.ofNat items.length).toNat = items.length := lengthOfU16 (by omega)
    exact ⟨_, _, by rw [same], (), _, ⟨by omega, rfl⟩, same.symm, bytes, written, rfl⟩

@[simp] theorem readIfOk {α : Type} {present : Bool} {r : Wire.Reader Error α} {absent a : α} :
    readIf present r absent input = .ok (a, rest) ↔
      if present then r input = .ok (a, rest) else absent = a ∧ input = rest := by
  cases present <;> simp [readIf]

@[simp] theorem writeIfOk {present : Bool} {field : Except Error Bytes} {bytes : Bytes} :
    writeIf present field = .ok bytes ↔ if present then field = .ok bytes else [] = bytes := by
  cases present <;> simp [writeIf]

end Fields

/-! Parts of messages. -/

theorem invertsTerms : Inverts readTerms encodeTerms := by
  intro input rest terms
  have senderLast : validateTerms { terms with firstSender := .a } = validateTerms terms := rfl
  cases terms
  simp_all [readTerms, encodeTerms]
  tauto

theorem invertsFeeTerms : Inverts readFeeTerms encodeFeeTerms := by
  intro input rest fee
  cases fee
  simp [readFeeTerms, encodeFeeTerms]
  tauto

theorem invertsId {n : Nat} {validate : Vector UInt8 n → Except Error Unit} :
    Inverts (readId validate) (encodeId validate) := by
  intro input rest id
  simp [readId, encodeId]
  tauto

theorem invertsListedNode : Inverts (readRegistryNode true) (encodeRegistryNode · true) := by
  intro input rest node
  cases node
  simp [readRegistryNode, encodeRegistryNode]
  tauto

theorem invertsOfferSummary : Inverts readOfferSummary encodeOfferSummary := by
  intro input rest offer
  cases offer
  simp [readOfferSummary, encodeOfferSummary, invertsTerms _ _ _]
  simp [encodeTerms]
  tauto

theorem invertsTradeTick : Inverts readTradeTick encodeTradeTick := by
  intro input rest tick
  cases tick
  simp [readTradeTick, encodeTradeTick]
  tauto

theorem invertsReceiptIssued : Inverts readReceiptIssued encodeReceiptIssued := by
  intro input rest message
  cases message
  simp [readReceiptIssued, encodeReceiptIssued, invertsId _ _ _, encodeId, -Bool.exists_bool]
  tauto

theorem invertsChainEntry : Inverts readChainEntry encodeChainEntry := by
  intro input rest entry
  simp [readChainEntry, encodeChainEntry, decodeReceiptIssued, invertsReceiptIssued _ _ _]
  tauto

/-! Messages that are sent whole. -/

section Messages
variable {input rest : Bytes}

theorem invertsCreateOffer : Inverts readCreateOffer encodeCreateOffer := by
  intro input rest message
  cases message
  simp [readCreateOffer, encodeCreateOffer, invertsTerms _ _ _]
  simp [encodeTerms]
  tauto

theorem invertsGetCandles : Inverts readGetCandles encodeGetCandles := by
  intro input rest message
  cases message
  simp [readGetCandles, encodeGetCandles]
  tauto

theorem invertsCandleData : Inverts readCandleData encodeCandleData := by
  intro input rest message
  cases message
  simp [readCandleData, encodeCandleData, readListOk invertsTradeTick (show maxCandleTicksPerPair ≤ 65535 by decide)]
  tauto

theorem invertsJoinOffer : Inverts readJoinOffer encodeJoinOffer := by
  intro input rest message
  cases message
  simp [readJoinOffer, encodeJoinOffer]
  tauto

theorem invertsWelcome : Inverts readWelcome encodeWelcome := by
  intro input rest message
  cases message
  simp [readWelcome, encodeWelcome, invertsFeeTerms _ _ _]
  tauto

theorem invertsPeerList : Inverts readPeerList encodePeerList := by
  intro input rest message
  cases message
  simp [readPeerList, encodePeerList, readListOk invertsId (show maxPeerListEntries ≤ 65535 by decide)]
  tauto

theorem invertsInviteTrade : Inverts readInviteTrade encodeInviteTrade := by
  intro input rest message
  cases message
  simp [readInviteTrade, encodeInviteTrade, invertsTerms _ _ _]
  simp [encodeTerms]
  tauto

theorem invertsInviteCreated : Inverts readInviteCreated encodeInviteCreated := by
  intro input rest message
  cases message
  simp [readInviteCreated, encodeInviteCreated]
  tauto

theorem invertsInviteReceived : Inverts readInviteReceived encodeInviteReceived := by
  intro input rest message
  cases message
  simp [readInviteReceived, encodeInviteReceived, invertsTerms _ _ _]
  simp [encodeTerms]
  tauto

theorem invertsAcceptInvite : Inverts readAcceptInvite encodeAcceptInvite := by
  intro input rest message
  cases message
  simp [readAcceptInvite, encodeAcceptInvite]
  tauto

theorem invertsTradeReady : Inverts readTradeReady encodeTradeReady := by
  intro input rest message
  cases message
  simp [readTradeReady, encodeTradeReady, invertsTerms _ _ _, invertsFeeTerms _ _ _]
  simp [encodeTerms]
  tauto

theorem invertsRoundSignal : Inverts readRoundSignal encodeRoundSignal := by
  intro input rest message
  cases message
  simp [readRoundSignal, encodeRoundSignal]
  tauto

theorem invertsAbort : Inverts readAbort encodeAbort := by
  intro input rest message
  cases message
  simp [readAbort, encodeAbort]
  tauto

theorem invertsError : Inverts readError encodeError := by
  intro input rest message
  cases message
  simp [readError, encodeError]
  tauto

theorem invertsRegistryRegistered : Inverts readRegistryRegistered encodeRegistryRegistered := by
  intro input rest message
  cases message
  simp [readRegistryRegistered, encodeRegistryRegistered]
  tauto

theorem invertsRegistryNodes : Inverts readRegistryNodes encodeRegistryNodes := by
  intro input rest message
  cases message
  simp [readRegistryNodes, encodeRegistryNodes, readListOk invertsListedNode (show maxRegistryNodesInList ≤ 65535 by decide)]
  tauto

theorem invertsRecognitionResponse : Inverts readRecognitionResponse encodeRecognitionResponse := by
  intro input rest message
  cases message
  simp [readRecognitionResponse, encodeRecognitionResponse, invertsId _ _ _, encodeId]
  tauto

theorem invertsTradeEphemeralKey : Inverts readTradeEphemeralKey encodeTradeEphemeralKey := by
  intro input rest message
  cases message
  simp [readTradeEphemeralKey, encodeTradeEphemeralKey, invertsId _ _ _, encodeId]

theorem invertsReceiptAck : Inverts readReceiptAck encodeReceiptAck := by
  intro input rest message
  cases message
  simp [readReceiptAck, encodeReceiptAck, invertsId _ _ _, encodeId]

theorem decodeRecognitionChallengeOk {bytes : Bytes} {message : RecognitionChallengeMessage} :
    decodeRecognitionChallenge bytes = .ok message ↔ encodeRecognitionChallenge message = .ok bytes := by
  cases message
  simp [decodeRecognitionChallenge, readRecognitionChallenge, encodeRecognitionChallenge, invertsId _ _ _, encodeId]
  tauto

end Messages

/-! Messages with fields that are not always sent. -/

section Sent
variable {input rest : Bytes}

/- The message as it arrives: what was not sent stands at its default. -/
def ListOffersMessage.sent (message : ListOffersMessage) : ListOffersMessage :=
  if message.hasCursor then message else { message with afterRoomId := Vector.replicate 32 0 }

def OfferListMessage.sent (message : OfferListMessage) : OfferListMessage :=
  if message.hasMore then message else { message with nextCursor := Vector.replicate 32 0 }

def RegistryRegisterMessage.sent (message : RegistryRegisterMessage) : RegistryRegisterMessage :=
  ⟨{ message.node with remainingTtlSeconds := 0 }⟩

def RecoveryStateResponseMessage.sent (message : RecoveryStateResponseMessage) : RecoveryStateResponseMessage :=
  if message.found then message else { roomId := message.roomId, reason := message.reason }

theorem readListOffersOk {message : ListOffersMessage} : readListOffers input = .ok (message, rest) ↔
    message.sent = message ∧ ∃ bytes, encodeListOffers message = .ok bytes ∧ input = bytes ++ rest := by
  obtain ⟨hasCursor, afterRoomId, limit⟩ := message
  cases hasCursor <;>
    simp [readListOffers, encodeListOffers, ListOffersMessage.sent, invertsId _ _ _, encodeId, -Bool.exists_bool] <;> tauto

theorem readOfferListOk {message : OfferListMessage} : readOfferList input = .ok (message, rest) ↔
    message.sent = message ∧ ∃ bytes, encodeOfferList message = .ok bytes ∧ input = bytes ++ rest := by
  obtain ⟨offers, hasMore, nextCursor⟩ := message
  cases hasMore <;>
    simp [readOfferList, encodeOfferList, OfferListMessage.sent, invertsId _ _ _, encodeId, -Bool.exists_bool,
      readListOk invertsOfferSummary (show maxOfferPageEntries ≤ 65535 by decide)] <;>
    tauto

theorem readRegistryRegisterOk {node : RegistryNode} : readRegistryNode false input = .ok (node, rest) ↔
    node.remainingTtlSeconds = 0 ∧ ∃ bytes, encodeRegistryNode node false = .ok bytes ∧ input = bytes ++ rest := by
  obtain ⟨host, port, certificatePin, remainingTtlSeconds, sourceRegistry⟩ := node
  have direct : ∀ {u : Unit}, validateRegistryNode ⟨host, port, certificatePin, remainingTtlSeconds, sourceRegistry⟩ false =
      .ok u → sourceRegistry = [] := by
    intro u valid
    simp [validateRegistryNode] at valid
    simpa using valid.2.2.2.1
  simp [readRegistryNode, encodeRegistryNode]
  constructor
  · rintro ⟨⟨fits, rfl⟩, ⟨_, valid⟩, rfl, rfl⟩
    exact ⟨rfl, ⟨⟨_, valid⟩, fits⟩, rfl⟩
  · rintro ⟨rfl, ⟨⟨_, valid⟩, fits⟩, rfl⟩
    obtain rfl := direct valid
    exact ⟨⟨fits, rfl⟩, ⟨_, valid⟩, rfl, rfl⟩

theorem readFoundRoomOk {roomId : RoomId} {message : RecoveryStateResponseMessage} :
    readFoundRoom roomId input = .ok (message, rest) ↔
      (message.roomId = roomId ∧ message.found = true ∧ message.reason = [] ∧ message.legIndex ≤ 1) ∧
        ∃ bytes, encodeFoundRoom message = .ok bytes ∧ input = bytes ++ rest := by
  obtain ⟨id, found, terms, fee, state, roundIndex, legIndex, partyAConnected, partyBConnected, reason⟩ := message
  simp [readFoundRoom, encodeFoundRoom, invertsTerms _ _ _, invertsFeeTerms _ _ _]
  constructor
  · rintro ⟨partyA, partyB, fees, ⟨offer, written, rfl⟩, paid, leg, ⟨smallA, smallB⟩, rfl, rfl, rfl, rfl, rfl⟩
    exact ⟨⟨rfl, rfl, rfl, leg⟩, offer, written, fees, paid, by rw [← flagByte smallA, ← flagByte smallB]⟩
  · rintro ⟨⟨rfl, rfl, rfl, leg⟩, offer, written, fees, paid, rfl⟩
    exact ⟨_, _, fees, ⟨offer, written, rfl⟩, paid, leg, ⟨flagSmall, flagSmall⟩, rfl, rfl, by simp, by simp, rfl⟩

theorem readRecoveryStateResponseOk {message : RecoveryStateResponseMessage} :
    readRecoveryStateResponse input = .ok (message, rest) ↔
      message.sent = message ∧ ∃ bytes, encodeRecoveryStateResponse message = .ok bytes ∧ input = bytes ++ rest := by
  obtain ⟨roomId, found, terms, fee, state, roundIndex, legIndex, partyAConnected, partyBConnected, reason⟩ := message
  simp [readRecoveryStateResponse, encodeRecoveryStateResponse, RecoveryStateResponseMessage.sent, invertsId _ _ _,
    encodeId, readFoundRoomOk, -Bool.exists_bool]
  cases found
  · simp only [Bool.exists_bool, Bool.false_eq_true, if_false, if_true]
    simp
    constructor
    · rintro ⟨_, ⟨⟨valid, rfl⟩, fits, given, rfl, same⟩ | ⟨room, _, _, ⟨⟨_, isFound, _⟩, _⟩, _, _, _, notFound, _⟩⟩
      · exact ⟨same, ⟨valid, by rw [← same.2.2.2.2.1]; decide, given, fits⟩, rfl⟩
      · rw [isFound] at notFound
        contradiction
    · rintro ⟨same, ⟨valid, _, given, fits⟩, rfl⟩
      exact ⟨_, .inl ⟨⟨valid, rfl⟩, fits, given, rfl, same⟩⟩
  · simp
    constructor
    · rintro ⟨room, bytes, ⟨valid, rfl⟩, ⟨⟨_, _, leg⟩, written⟩, fits, given, rfl, _, rfl, rfl, rfl, rfl, rfl, rfl, rfl⟩
      exact ⟨bytes, ⟨valid, leg, given, written, fits⟩, rfl⟩
    · rintro ⟨bytes, ⟨valid, leg, given, written, fits⟩, rfl⟩
      exact ⟨⟨roomId, true, terms, fee, state, roundIndex, legIndex, partyAConnected, partyBConnected, []⟩, bytes,
        ⟨valid, rfl⟩, ⟨⟨rfl, rfl, leg⟩, written⟩, fits, given, rfl, rfl, rfl, rfl, rfl, rfl, rfl, rfl, rfl⟩

/- A turn with its fee mark as the byte it is. -/
def turnBytes (message : TurnMessage) (mark : UInt8) : Bytes :=
  message.roomId.toList ++ (bigEndian 4 message.roundIndex.toNat ++ ([message.sender.toByte] ++ (framed message.asset ++
    (bigEndian 8 message.amount.toNat ++ (framed message.destination ++ [mark])))))

def SendableTurn (message : TurnMessage) : Prop :=
  validateTurn message = .ok () ∧ Fits message.asset maxAssetCodeLength ∧ Fits message.destination maxAddressLength

theorem encodeTurnOk {message : TurnMessage} {bytes : Bytes} :
    encodeTurn message = .ok bytes ↔ SendableTurn message ∧ turnBytes message (flag message.isFee) = bytes := by
  simp [encodeTurn, SendableTurn, turnBytes]
  tauto

theorem decodeTurnOk {message : TurnMessage} {bytes : Bytes} :
    decodeTurn bytes = .ok message ↔
      SendableTurn message ∧ ∃ mark : UInt8, decide (mark = 0) = !message.isFee ∧ turnBytes message mark = bytes := by
  cases message
  simp [decodeTurn, readTurn, SendableTurn, validateTurn, turnBytes]
  constructor
  · rintro ⟨mark, rfl, asset, destination, room, valid, address, positive, fee⟩
    exact ⟨⟨⟨room, valid, address, positive⟩, asset, destination⟩, mark, fee, rfl⟩
  · rintro ⟨⟨⟨room, valid, address, positive⟩, asset, destination⟩, mark, fee, rfl⟩
    exact ⟨mark, rfl, asset, destination, room, valid, address, positive, fee⟩

end Sent

theorem decodeReceiptDisclosureOk {bytes : Bytes} {message : ReceiptDisclosureMessage} :
    decodeReceiptDisclosure bytes = .ok message ↔ encodeReceiptDisclosure message = .ok bytes := by
  cases message
  simp [decodeReceiptDisclosure, readReceiptDisclosure, encodeReceiptDisclosure, invertsId _ _ _, encodeId,
    invertsChainEntry.many]
  constructor
  · rintro ⟨size, count, chain, ⟨valid, rfl⟩, small, same, written⟩
    have bound := count.toNat_lt
    refine ⟨valid, by omega, by omega, chain, written, by simpa using size, ?_⟩
    rw [same, UInt8.ofNat_toNat]
  · rintro ⟨valid, small, narrow, chain, written, size, rfl⟩
    have same : (UInt8.ofNat _).toNat = _ := UInt8.toNat_ofNat_of_lt' (Nat.lt_succ_of_le narrow)
    exact ⟨by simpa using size, _, chain, ⟨valid, rfl⟩, by rwa [same], same.symm, written⟩

end TradeP2P
