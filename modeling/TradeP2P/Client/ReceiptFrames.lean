import TradeP2P.Client.RoomView
import TradeP2P.Protocol.Escape

/-! The receipts a client keeps. A frame with a receipt pins the keys of the mediator if none are pinned, and puts the receipt at
the end of its room's chain if it verifies under the pinned ones. -/
namespace TradeP2P
open Wire (Bytes)
open Machine Checks

structure ReceiptRoom where
  receiptStatus : ReceiptStatus := .none
  receiptChainVerifies : Bool := false
  deriving DecidableEq, Repr

/- The two receipt keys are only ever pinned together. -/
structure ReceiptBook where
  mediatorReceiptKeys : Option ReceiptKeys := none
  rooms : RoomId → ReceiptRoom := fun _ => {}
  roomReceipts : RoomId → List IssuedReceipt := fun _ => []

namespace ReceiptBook

def noteStatus (room : RoomId) (receiptStatus : ReceiptStatus) (book : ReceiptBook) : ReceiptBook :=
  { book with rooms := Function.update book.rooms room { book.rooms room with receiptStatus } }

def noteVerdict (room : RoomId) (receiptChainVerifies : Bool) (book : ReceiptBook) : ReceiptBook :=
  { book with rooms := Function.update book.rooms room { book.rooms room with receiptChainVerifies } }

def keysFor (book : ReceiptBook) (issued : IssuedReceipt) : ReceiptKeys := book.mediatorReceiptKeys.getD issued.mediatorKeys

def pin (issued : IssuedReceipt) (book : ReceiptBook) : ReceiptBook :=
  { book with mediatorReceiptKeys := some (book.keysFor issued) }

def pushBack (room : RoomId) (issued : IssuedReceipt) (book : ReceiptBook) : ReceiptBook :=
  { book with roomReceipts := Function.update book.roomReceipts room (book.roomReceipts room ++ [issued]) }

end ReceiptBook

/- The receipt stays in the chain when the chain does not verify. -/
def storeReceipt (crypto : Crypto) (keys : ReceiptKeys) (room : RoomId) (issued : IssuedReceipt) : EStateM Error ReceiptBook Unit := do
  modify (·.pushBack room issued)
  let book ← get
  match verifyReceiptChain crypto keys.1 keys.2 (book.roomReceipts room) with
  | .ok _ => modify (·.noteVerdict room true)
  | .error (.chain _) => modify (·.noteVerdict room false)
  | .error (.standard e) => throw e

-- The signatures are not looked at when the keys differ.
def verifyPinned (crypto : Crypto) (keys : ReceiptKeys) (issued : IssuedReceipt) : Except Error Bool :=
  if keys ≠ issued.mediatorKeys then .ok false else verifyReceiptHybrid crypto keys.1 keys.2 issued

def handleReceiptIssued (crypto : Crypto) : Object Error ReceiptBook Bytes := fun payload => do
  let message ← decodeReceiptIssued payload
  let room := message.roomId
  let issued := receivedReceipt message
  modify (·.noteStatus room (if message.stage = ReceiptStage.settlementCompleted.toByte then .stage4 else .stage3))
  modify (·.pin issued)
  let book ← get
  let keys := book.keysFor issued
  let verified ← verifyPinned crypto keys issued
  if verified then storeReceipt crypto keys room issued
  else modify (·.noteVerdict room false)

/-! One frame. -/
namespace ReceiptBook
variable (crypto : Crypto)

/- The receipt is from the mediator whose keys are pinned, or from any one if none are. -/
def Genuine (book : ReceiptBook) (issued : IssuedReceipt) : Prop :=
  book.keysFor issued = issued.mediatorKeys ∧
    verifyReceiptHybrid crypto issued.mediatorKeys.1 issued.mediatorKeys.2 issued = .ok true

/- The frame is handled, and afterwards the chain of its room verifies. -/
def Takes (book : ReceiptBook) (payload : Bytes) : Prop :=
  ∃ message, decodeReceiptIssued payload = .ok message ∧ accepted (handleReceiptIssued crypto) book payload = true ∧
    ((next (handleReceiptIssued crypto) book payload).rooms message.roomId).receiptChainVerifies = true

/- What a frame does besides: the keys of a receipt are pinned whether it is genuine or not. -/
structure Handles (book book' : ReceiptBook) (message : ReceiptIssuedMessage) (receipts : RoomId → List IssuedReceipt) : Prop where
  keys : book'.mediatorReceiptKeys = some (book.keysFor (receivedReceipt message))
  receipts : book'.roomReceipts = receipts

section Frames
variable {crypto} {book : ReceiptBook} {payload : Bytes} {message : ReceiptIssuedMessage}

theorem undecoded {e : Error} (decoded : decodeReceiptIssued payload = .error e) :
    handleReceiptIssued crypto payload book = .error e book := by
  simp only [handleReceiptIssued, bind_run, lift_run, decoded]

def noted (book : ReceiptBook) (message : ReceiptIssuedMessage) : ReceiptBook :=
  (book.noteStatus message.roomId (if message.stage = ReceiptStage.settlementCompleted.toByte then .stage4 else .stage3)).pin
    (receivedReceipt message)

theorem verifyPinnedTrue {issued : IssuedReceipt} :
    verifyPinned crypto (book.keysFor issued) issued = .ok true ↔ book.Genuine crypto issued := by
  by_cases own : book.keysFor issued = issued.mediatorKeys
  · simp [verifyPinned, Genuine, own]
  · simp [verifyPinned, Genuine, own]

theorem handledNoted (decoded : decodeReceiptIssued payload = .ok message) :
    handleReceiptIssued crypto payload book =
      (do
        let verified ← verifyPinned crypto (book.keysFor (receivedReceipt message)) (receivedReceipt message)
        if verified then storeReceipt crypto (book.keysFor (receivedReceipt message)) message.roomId (receivedReceipt message)
        else modify (·.noteVerdict message.roomId false) : EStateM Error ReceiptBook Unit) (book.noted message) := by
  simp only [handleReceiptIssued, bind_run, lift_run, decoded, modify_run, get_run]
  rfl

theorem takesIff (decoded : decodeReceiptIssued payload = .ok message) : book.Takes crypto payload ↔
    ∃ book', handleReceiptIssued crypto payload book = .ok () book' ∧ (book'.rooms message.roomId).receiptChainVerifies = true := by
  constructor
  · rintro ⟨message', decoded', returned, verifies⟩
    obtain rfl := Except.ok.inj (decoded.symm.trans decoded')
    exact ⟨_, accepts_next returned, verifies⟩
  · rintro ⟨book', returned, verifies⟩
    have accepts : Accepts (handleReceiptIssued crypto) book payload book' := returned
    exact ⟨message, decoded, accepts.accepted, accepts.next ▸ verifies⟩

theorem verdictNoted (room : RoomId) (verdict : Bool) (book : ReceiptBook) :
    ((book.noteVerdict room verdict).rooms room).receiptChainVerifies = verdict := by simp [noteVerdict]

theorem discarded (decoded : decodeReceiptIssued payload = .ok message) (forged : ¬book.Genuine crypto (receivedReceipt message)) :
    Handles book (next (handleReceiptIssued crypto) book payload) message book.roomReceipts ∧ ¬book.Takes crypto payload := by
  have run := @handledNoted crypto book payload message decoded
  rw [← verifyPinnedTrue] at forged
  rw [takesIff decoded]
  cases verified : verifyPinned crypto (book.keysFor (receivedReceipt message)) (receivedReceipt message) with
  | error e =>
    simp only [bind_run, lift_run, verified] at run
    simp only [next, run]
    exact ⟨⟨rfl, rfl⟩, fun taken => by simp at taken⟩
  | ok verdict =>
    cases verdict with
    | true => exact absurd verified forged
    | false =>
      simp only [bind_run, lift_run, verified] at run
      simp only [next, run]
      refine ⟨⟨rfl, rfl⟩, ?_⟩
      rintro ⟨book', returned, verifies⟩
      cases returned
      rw [verdictNoted] at verifies
      cases verifies

theorem stored (decoded : decodeReceiptIssued payload = .ok message) (genuine : book.Genuine crypto (receivedReceipt message)) :
    Handles book (next (handleReceiptIssued crypto) book payload) message (book.pushBack message.roomId (receivedReceipt message)).roomReceipts ∧
      (book.Takes crypto payload ↔ verifyReceiptChain crypto (receivedReceipt message).mediatorKeys.1
        (receivedReceipt message).mediatorKeys.2 (book.roomReceipts message.roomId ++ [receivedReceipt message]) = .ok ()) := by
  have run := @handledNoted crypto book payload message decoded
  simp only [bind_run, lift_run, verifyPinnedTrue.mpr genuine, if_true] at run
  rw [genuine.1] at run
  have chain : (pushBack message.roomId (receivedReceipt message) (book.noted message)).roomReceipts message.roomId =
      book.roomReceipts message.roomId ++ [receivedReceipt message] := by
    simp [pushBack, noted, pin, noteStatus]
  simp only [storeReceipt, bind_run, modify_run, get_run, chain] at run
  rw [takesIff decoded]
  cases verdict : verifyReceiptChain crypto (receivedReceipt message).mediatorKeys.1 (receivedReceipt message).mediatorKeys.2
      (book.roomReceipts message.roomId ++ [receivedReceipt message]) with
  | ok u =>
    simp only [verdict, modify_run] at run
    simp only [next, run]
    exact ⟨⟨rfl, rfl⟩, iff_of_true ⟨_, rfl, verdictNoted _ _ _⟩ trivial⟩
  | error thrown =>
    have kept : ¬(Except.error thrown : Except ReceiptError Unit) = .ok () := fun same => by cases same
    cases thrown with
    | chain text =>
      simp only [verdict, modify_run] at run
      simp only [next, run]
      refine ⟨⟨rfl, rfl⟩, iff_of_false ?_ kept⟩
      rintro ⟨book', returned, verifies⟩
      cases returned
      rw [verdictNoted] at verifies
      cases verifies
    | standard e =>
      simp only [verdict, throw_run] at run
      simp only [next, run]
      exact ⟨⟨rfl, rfl⟩, iff_of_false (fun taken => by simp at taken) kept⟩

end Frames
end ReceiptBook

/-! One more receipt on a chain. -/

/- The receipt is about the same room and parties, is for a later stage and links to the last receipt. -/
structure Continues (crypto : Crypto) (chain : List IssuedReceipt) (r : IssuedReceipt) : Prop where
  genesis : chain = [] → r.fields.previousStageHash = genesisStageHash
  shares : ∀ first ∈ chain.head?, r.fields.SharesRoom first.fields
  stage : ∀ last ∈ chain.getLast?, last.fields.stage < r.fields.stage
  linked : ∀ last ∈ chain.getLast?, receiptChainLinkHash crypto last = .ok r.fields.previousStageHash

section Chains
variable {crypto : Crypto} {keys : ReceiptKeys} {chain : List IssuedReceipt} {r : IssuedReceipt}

theorem verifiedKnown (verified : verifyReceiptHybrid crypto keys.1 keys.2 r = .ok true) : r.fields.stage ∈ [1, 2, 3, 4] := by
  have signed := (verifyReceiptHybridOk.mp verified).1
  obtain ⟨payload, encoded, _⟩ := bind_ok.mp signed
  simp only [encodeReceiptSignedPayload, check_ok] at encoded
  exact requireKnownStageOk.mp encoded.1

theorem chainOfOne (verified : verifyReceiptHybrid crypto keys.1 keys.2 r = .ok true) :
    ReceiptChain crypto (fun _ => keys) [r] ↔ r.fields.previousStageHash = genesisStageHash := by
  constructor
  · intro chained
    exact chained.genesis r rfl
  · intro genesis
    exact ⟨by simp, by simpa using verified, by simp [sharesRefl], by simpa using verifiedKnown verified, by simp,
      by simpa using genesis, by simp⟩

theorem chainContinued (verified : verifyReceiptHybrid crypto keys.1 keys.2 r = .ok true)
    (chained : chain = [] ∨ ReceiptChain crypto (fun _ => keys) chain) :
    ReceiptChain crypto (fun _ => keys) (chain ++ [r]) ↔ Continues crypto chain r := by
  cases chain with
  | nil =>
    rw [List.nil_append, chainOfOne verified]
    exact ⟨fun genesis => ⟨fun _ => genesis, by simp, by simp, by simp⟩, fun continues => continues.genesis rfl⟩
  | cons first rest =>
    have chained := chained.resolve_left (List.cons_ne_nil first rest)
    obtain ⟨before, last, whole⟩ : ∃ before last, first :: rest = before ++ [last] :=
      ⟨_, _, (List.dropLast_append_getLast (List.cons_ne_nil first rest)).symm⟩
    have atEnd : (first :: rest).getLast? = some last := by rw [whole, List.getLast?_append_cons]; rfl
    constructor
    · intro longer
      have later := (List.pairwise_append.mp longer.increasing).2.2
      have links := (List.isChain_append.mp longer.linked).2.2
      refine ⟨by simp, ?_, ?_, ?_⟩
      · intro front mem
        cases mem
        exact longer.agree r (by simp) first (by simp)
      · intro last' mem
        rw [atEnd] at mem
        cases mem
        exact later last (by rw [whole]; simp) r (by simp)
      · intro last' mem
        exact links last' mem r (by simp)
    · intro continues
      have shares : ∀ other ∈ first :: rest, r.fields.SharesRoom other.fields := fun other mem =>
        sharesWith (continues.shares first rfl) (chained.agree other mem first List.mem_cons_self)
      have above : ∀ other ∈ first :: rest, other.fields.stage < r.fields.stage := by
        intro other mem
        have next := continues.stage last (by rw [atEnd]; rfl)
        have increasing := chained.increasing
        rw [whole] at mem increasing
        rcases List.mem_append.mp mem with earlier | same
        · exact UInt8.lt_trans ((List.pairwise_append.mp increasing).2.2 other earlier last (by simp)) next
        · rw [List.mem_singleton.mp same]
          exact next
      refine ⟨by simp, ?_, ?_, ?_, ?_, chained.genesis, ?_⟩
      · intro other mem
        rcases List.mem_append.mp mem with earlier | same
        · exact chained.verified other earlier
        · rw [List.mem_singleton.mp same]
          exact verified
      · intro one mem other mem'
        rcases List.mem_append.mp mem with earlier | same <;> rcases List.mem_append.mp mem' with earlier' | same'
        · exact chained.agree one earlier other earlier'
        · rw [List.mem_singleton.mp same']
          exact sharesWith sharesRefl (shares one earlier)
        · rw [List.mem_singleton.mp same]
          exact shares other earlier'
        · rw [List.mem_singleton.mp same, List.mem_singleton.mp same']
          exact sharesRefl
      · intro other mem
        rcases List.mem_append.mp mem with earlier | same
        · exact chained.known other earlier
        · rw [List.mem_singleton.mp same]
          exact verifiedKnown verified
      · exact List.pairwise_append.mpr ⟨chained.increasing, by simp, fun other mem next mem' => by
          rw [List.mem_singleton.mp mem']; exact above other mem⟩
      · exact List.isChain_append.mpr ⟨chained.linked, by simp, fun last' mem next mem' => by
          cases mem'
          exact continues.linked last' mem⟩

end Chains

/-! A run of frames. -/
namespace ReceiptBook
variable (crypto : Crypto)

/- Each chain is empty or verifies under the pinned keys. -/
def Sound (book : ReceiptBook) : Prop :=
  ∀ room, book.roomReceipts room = [] ∨ ∃ keys, book.mediatorReceiptKeys = some keys ∧
    verifyReceiptChain crypto keys.1 keys.2 (book.roomReceipts room) = .ok ()

/- A good receipt for a book: its keys are the pinned ones, if any are pinned, it verifies, and it goes on with its room's chain. -/
def Good (book : ReceiptBook) (payload : Bytes) : Prop :=
  ∃ message, decodeReceiptIssued payload = .ok message ∧ book.Genuine crypto (receivedReceipt message) ∧
    Continues crypto (book.roomReceipts message.roomId) (receivedReceipt message)

/- What a frame should do: only good receipts are taken, and the others leave the chains and the keys as they are. -/
structure Keeps (book : ReceiptBook) (payload : Bytes) : Prop where
  sound : Sound crypto (next (handleReceiptIssued crypto) book payload)
  pinned : ∀ keys, book.mediatorReceiptKeys = some keys →
    (next (handleReceiptIssued crypto) book payload).mediatorReceiptKeys = some keys
  rejected : ¬book.Takes crypto payload →
    (next (handleReceiptIssued crypto) book payload).roomReceipts = book.roomReceipts ∧
    (next (handleReceiptIssued crypto) book payload).mediatorReceiptKeys = book.mediatorReceiptKeys
  taken : book.Good crypto payload → book.Takes crypto payload

/- The frames that the code is right about: the first keys come with a receipt that verifies under them, and a receipt
that verifies goes on with its room's chain. -/
structure Meets (book : ReceiptBook) (payload : Bytes) : Prop where
  first : ∀ message, decodeReceiptIssued payload = .ok message → book.mediatorReceiptKeys = none →
    book.Genuine crypto (receivedReceipt message)
  genuine : ∀ message, decodeReceiptIssued payload = .ok message → book.Genuine crypto (receivedReceipt message) →
    Continues crypto (book.roomReceipts message.roomId) (receivedReceipt message)

section Runs
variable {crypto} {book : ReceiptBook} {payload : Bytes}

theorem pinnedKeys {keys : ReceiptKeys} {issued : IssuedReceipt} (pinned : book.mediatorReceiptKeys = some keys) :
    book.keysFor issued = keys := by simp [keysFor, pinned]

/- The chain of a receipt's room is empty or verifies under the receipt's keys. -/
theorem Sound.chained (sound : Sound crypto book) {issued : IssuedReceipt} (genuine : book.Genuine crypto issued) (room : RoomId) :
    book.roomReceipts room = [] ∨ ReceiptChain crypto (fun _ => issued.mediatorKeys) (book.roomReceipts room) := by
  refine (sound room).imp_right fun verifies => ?_
  obtain ⟨keys, pinned, verifies⟩ := verifies
  rw [← genuine.1, pinnedKeys pinned]
  exact verifyReceiptChainOk.mp verifies

theorem Sound.takesGood (sound : Sound crypto book) {message : ReceiptIssuedMessage} (decoded : decodeReceiptIssued payload = .ok message)
    (genuine : book.Genuine crypto (receivedReceipt message)) : book.Takes crypto payload ↔
      Continues crypto (book.roomReceipts message.roomId) (receivedReceipt message) := by
  rw [(stored decoded genuine).2, verifyReceiptChainOk]
  exact chainContinued genuine.2 (sound.chained genuine message.roomId)

theorem keepsUndecoded {e : Error} (sound : Sound crypto book) (decoded : decodeReceiptIssued payload = .error e) :
    book.Keeps crypto payload := by
  have run := @undecoded crypto book payload e decoded
  have same : next (handleReceiptIssued crypto) book payload = book := by simp only [next, run]
  have never : ¬book.Good crypto payload := by
    rintro ⟨message, decoded', _⟩
    rw [decoded] at decoded'
    cases decoded'
  constructor
  · rwa [same]
  · rw [same]
    exact fun keys pinned => pinned
  · rw [same]
    exact fun _ => ⟨rfl, rfl⟩
  · exact fun good => absurd good never

theorem keepsForged (sound : Sound crypto book) {message : ReceiptIssuedMessage} (decoded : decodeReceiptIssued payload = .ok message)
    (forged : ¬book.Genuine crypto (receivedReceipt message)) {keys : ReceiptKeys} (pinned : book.mediatorReceiptKeys = some keys) :
    book.Keeps crypto payload := by
  obtain ⟨handles, untaken⟩ := discarded decoded forged
  have sameKeys : (next (handleReceiptIssued crypto) book payload).mediatorReceiptKeys = book.mediatorReceiptKeys := by
    rw [handles.keys, pinnedKeys pinned, pinned]
  refine ⟨?_, fun keys pinned => sameKeys.trans pinned, fun _ => ⟨handles.receipts, sameKeys⟩, ?_⟩
  · intro room
    rw [handles.receipts, sameKeys]
    exact sound room
  · rintro ⟨message', decoded', genuine, _⟩
    obtain rfl := Except.ok.inj (decoded.symm.trans decoded')
    exact absurd genuine forged

theorem keepsGood (sound : Sound crypto book) {message : ReceiptIssuedMessage} (decoded : decodeReceiptIssued payload = .ok message)
    (genuine : book.Genuine crypto (receivedReceipt message))
    (continues : Continues crypto (book.roomReceipts message.roomId) (receivedReceipt message)) : book.Keeps crypto payload := by
  obtain ⟨handles, takes⟩ := stored decoded genuine
  have taken : book.Takes crypto payload := (sound.takesGood decoded genuine).mpr continues
  have keys : (next (handleReceiptIssued crypto) book payload).mediatorReceiptKeys = some (receivedReceipt message).mediatorKeys := by
    rw [handles.keys, genuine.1]
  refine ⟨fun room => ?_, fun keys pinned => ?_, fun untaken => absurd taken untaken, fun _ => taken⟩
  · by_cases same : room = message.roomId
    · have verifies := takes.mp taken
      refine .inr ⟨_, keys, ?_⟩
      rw [handles.receipts, same]
      simpa [pushBack] using verifies
    · have kept : (next (handleReceiptIssued crypto) book payload).roomReceipts room = book.roomReceipts room := by
        rw [handles.receipts]
        simp [pushBack, same]
      rw [kept, keys]
      refine (sound.chained genuine room).imp_right fun chained => ?_
      exact ⟨_, rfl, verifyReceiptChainOk.mpr chained⟩
  · rw [handles.keys, pinnedKeys pinned]

/- The step lemma: a frame is treated as it should be exactly if it is one the code is right about. -/
theorem keepsIff (sound : Sound crypto book) : book.Keeps crypto payload ↔ book.Meets crypto payload := by
  constructor
  · intro keeps
    constructor
    · intro message decoded fresh
      by_contra forged
      obtain ⟨handles, untaken⟩ := discarded decoded forged
      have kept := (keeps.rejected untaken).2
      rw [handles.keys, fresh] at kept
      cases kept
    · intro message decoded genuine
      rw [← sound.takesGood decoded genuine]
      by_contra untaken
      have kept := congrFun (keeps.rejected untaken).1 message.roomId
      rw [(stored decoded genuine).1.receipts] at kept
      simp [pushBack] at kept
  · intro meets
    cases decoded : decodeReceiptIssued payload with
    | error e => exact keepsUndecoded sound decoded
    | ok message =>
      by_cases genuine : book.Genuine crypto (receivedReceipt message)
      · exact keepsGood sound decoded genuine (meets.genuine message decoded genuine)
      · cases pinned : book.mediatorReceiptKeys with
        | none => exact absurd (meets.first message decoded pinned) genuine
        | some keys => exact keepsForged sound decoded genuine pinned

theorem soundRun (sound : Sound crypto book) (frames : List Bytes) :
    Throughout (handleReceiptIssued crypto) (Keeps crypto) book frames ↔
      Throughout (handleReceiptIssued crypto) (Meets crypto) book frames := by
  induction frames generalizing book with
  | nil => exact Iff.rfl
  | cons payload rest ih =>
    simp only [Throughout, keepsIff sound]
    exact and_congr_right fun meets => ih ((keepsIff sound).mpr meets).sound

/- A client that has no keys and no receipts yet. -/
theorem soundEmpty : Sound crypto {} := fun _ => .inl rfl

end Runs
end ReceiptBook

theorem receiptFramesKept (crypto : Crypto) (frames : List Bytes) :
    Throughout (handleReceiptIssued crypto) (ReceiptBook.Keeps crypto) {} frames ↔
      Throughout (handleReceiptIssued crypto) (ReceiptBook.Meets crypto) {} frames :=
  ReceiptBook.soundRun ReceiptBook.soundEmpty frames

/-! A receipt under keys that did not sign it, and one that comes twice. -/
section Poisoned

def issuedMessage : ReceiptIssuedMessage where
  roomId := issuedFields.roomId
  mediatorId := issuedFields.mediatorId
  stage := issuedFields.stage
  completed := false
  termsCommitment := issuedFields.termsCommitment
  partyAEphemeralKey := issuedFields.partyAEphemeralKey
  partyBEphemeralKey := issuedFields.partyBEphemeralKey
  partyAEphemeralKeyMldsa65 := issuedFields.partyAEphemeralKeyMldsa65
  partyBEphemeralKeyMldsa65 := issuedFields.partyBEphemeralKeyMldsa65
  mediatorPublicKey := issuedFields.mediatorPublicKey
  mediatorPublicKeyMldsa65 := issuedFields.mediatorPublicKeyMldsa65
  timestamp := issuedFields.timestamp
  nonce := issuedFields.nonce
  previousStageHash := genesisStageHash
  mediatorSignature := issuerSignature
  mediatorSignatureMldsa65 := issuerSignatureMldsa65

def forgedMessage : ReceiptIssuedMessage := { issuedMessage with mediatorPublicKey := otherKey }

theorem issuedFrames : (∃ bytes, decodeReceiptIssued bytes = .ok issuedMessage) ∧ ∃ bytes, decodeReceiptIssued bytes = .ok forgedMessage := by
  have room : validateRoomId (Vector.replicate 32 0x51) = .ok () := by decide
  have mediatorId : shortString (Wire.ascii "m") receiptWireMediatorIdLength = .ok [0, 1, 0x6d] := by decide
  have encoded : ∃ bytes, encodeReceiptIssued issuedMessage = .ok bytes :=
    ⟨_, check_ok.mpr ⟨room, bind_ok.mpr ⟨_, mediatorId, rfl⟩⟩⟩
  have encodedForged : ∃ bytes, encodeReceiptIssued forgedMessage = .ok bytes :=
    ⟨_, check_ok.mpr ⟨room, bind_ok.mpr ⟨_, mediatorId, rfl⟩⟩⟩
  obtain ⟨bytes, encoded⟩ := encoded
  obtain ⟨bytes', encodedForged⟩ := encodedForged
  exact ⟨⟨bytes, invertsReceiptIssued.whole.mpr encoded⟩, bytes', invertsReceiptIssued.whole.mpr encodedForged⟩

theorem forgedKeys (book : ReceiptBook) : ¬book.Genuine issuedCrypto (receivedReceipt forgedMessage) := by
  rintro ⟨_, verified⟩
  obtain ⟨payload, _, known⟩ := bind_ok.mp (verifyReceiptHybridOk.mp verified).1
  have listed := tableVerifies.mp known
  have keys : otherKey ≠ issuerKey := by decide +kernel
  exact keys (congrArg Prod.fst (List.mem_singleton.mp listed))

/- The first frame pins keys that no receipt verifies under; the second receipt spoils the chain of its room. -/
theorem receiptFramesPoisoned :
    (∃ forged, decodeReceiptIssued forged = .ok forgedMessage ∧
      ¬Throughout (handleReceiptIssued issuedCrypto) (ReceiptBook.Keeps issuedCrypto) {} [forged]) ∧
    ∃ bytes, decodeReceiptIssued bytes = .ok issuedMessage ∧
      ¬Throughout (handleReceiptIssued issuedCrypto) (ReceiptBook.Keeps issuedCrypto) {} [bytes, bytes] := by
  obtain ⟨⟨bytes, decoded⟩, forged, decodedForged⟩ := issuedFrames
  refine ⟨⟨forged, decodedForged, fun keeps => ?_⟩, bytes, decoded, fun keeps => ?_⟩
  · have meets := ((ReceiptBook.soundRun ReceiptBook.soundEmpty _).mp keeps).1
    exact forgedKeys {} (meets.first forgedMessage decodedForged rfl)
  · have meets := ((ReceiptBook.soundRun ReceiptBook.soundEmpty _).mp keeps).2.1
    have genuine : ReceiptBook.Genuine issuedCrypto {} (receivedReceipt issuedMessage) := ⟨rfl, issuedVerified⟩
    obtain ⟨handles, _⟩ := ReceiptBook.stored decoded genuine
    have again : ReceiptBook.Genuine issuedCrypto (next (handleReceiptIssued issuedCrypto) {} bytes) (receivedReceipt issuedMessage) :=
      ⟨ReceiptBook.pinnedKeys handles.keys, issuedVerified⟩
    have continues := meets.genuine issuedMessage decoded again
    have chain : (next (handleReceiptIssued issuedCrypto) {} bytes).roomReceipts issuedMessage.roomId = [receivedReceipt issuedMessage] := by
      rw [handles.receipts]
      simp [ReceiptBook.pushBack]
    rw [chain] at continues
    exact UInt8.lt_irrefl _ (continues.stage (receivedReceipt issuedMessage) rfl)

end Poisoned
end TradeP2P
