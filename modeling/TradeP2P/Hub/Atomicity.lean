import TradeP2P.Hub.Completion

/-! Settlement calls that throw. A handler lets the session take the report first and comes to the receipts, the
record and the frames afterwards, so a throw is harmless exactly as long as the session has not moved. -/
namespace TradeP2P
open Checks Machine

def Effect.record (record : Option PersistedRoom) : Effect → Option PersistedRoom
  | .persisted snapshot => some snapshot
  | .unpersisted => none
  | _ => record

/- What the persisted set holds for the room, from what it held at first. -/
def Room.record (first : Option PersistedRoom) (room : Room) : Option PersistedRoom :=
  room.effects.foldl Effect.record first

/- The room is closed, or its session complete, and yet it is still listed or was never given its last receipt. -/
def Room.Stranded (room : Room) : Prop :=
  (room.entry.active = false ∨ room.entry.session.state = .complete) ∧
    ¬(room.listed = false ∧ ∃ receipt ∈ room.issuedReceipts, receipt.fields.stage = settlementByte)

namespace Hub
open MediatorSession (Operation Step)

def Call.settles : Call → Bool
  | .sent .. | .received .. | .receiptAck .. | .confirmFee _ => true
  | _ => false

structure Same (s t : Room) : Prop where
  session : t.entry.session = s.entry.session
  active : t.entry.active = s.entry.active
  listed : t.listed = s.listed
  record : ∀ first, t.record first = s.record first

def AtomicOnError (hub : HubConfig) (env : HubEnv) (s : Room) (call : Call) : Prop :=
  ∀ e t, perform hub (env, call) s = .error e t → Same s t ∧ (t.Stranded → s.Stranded)

/-! What the calls need. -/

/- The session takes the report and moves: the room is listed and active, the caller is one of its parties, an
acknowledgement is verified, and the session's own method accepts. -/
inductive Takes (hub : HubConfig) (s : Room) : Call → MediatorSession → Prop where
  | sent (clientId : ClientId) (message : RoundSignalMessage) (party : Party) (session : MediatorSession)
      (found : s.listed = true ∧ message.roomId = s.entry.id) (member : s.entry.partyFor clientId = .ok party)
      (active : s.entry.active = true) (step : Step s.entry.session (.senderReportedSent party message) session) :
      Takes hub s (.sent clientId message) session
  | received (clientId : ClientId) (message : RoundSignalMessage) (party : Party) (session : MediatorSession)
      (found : s.listed = true ∧ message.roomId = s.entry.id) (member : s.entry.partyFor clientId = .ok party)
      (active : s.entry.active = true) (step : Step s.entry.session (.receiverReportedReceived party message) session) :
      Takes hub s (.received clientId message) session
  | receiptAck (clientId : ClientId) (message : ReceiptAckMessage) (party : Party) (session : MediatorSession)
      (found : s.listed = true ∧ message.roomId = s.entry.id) (member : s.entry.partyFor clientId = .ok party)
      (active : s.entry.active = true) (stage : message.stage = ReceiptStage.penultimateObligationsComplete.toByte)
      (verified : verifyAcknowledgement hub s.entry party message = .ok ())
      (step : Step s.entry.session (.acknowledgeFinalReceipt party) session) :
      Takes hub s (.receiptAck clientId message) session
  | confirmFee (roomId : RoomId) (session : MediatorSession) (awaits : s.AwaitsFee roomId)
      (step : Step s.entry.session .confirmFeeReceived session) : Takes hub s (.confirmFee roomId) session

/- A receipt can be issued: all four keys are announced, the draw succeeds, and so do both signatures. -/
inductive CanIssue (hub : HubConfig) (env : HubEnv) (room : RoomEntry) (stage : ReceiptStage) (completed : Bool) : Prop where
  | signed (keyA keyB : Ed25519PublicKey) (keyAMldsa65 keyBMldsa65 : MlDsa65PublicKey) (terms : Wire.Bytes)
      (nonce : Vector UInt8 16) (previous : Vector UInt8 32) (fields : ReceiptFields) (signature : Ed25519Signature)
      (signatureMldsa65 : MlDsa65Signature) (announcedA : room.ephemeralKeyA = some keyA)
      (announcedB : room.ephemeralKeyB = some keyB) (announcedAMldsa65 : room.ephemeralKeyAMldsa65 = some keyAMldsa65)
      (announcedBMldsa65 : room.ephemeralKeyBMldsa65 = some keyBMldsa65)
      (encoded : encodeTerms room.session.creator.terms = .ok terms) (drawn : env.nonce = .ok nonce)
      (linked : previousStageHash hub room stage = .ok previous)
      (stated : fields = {
        mediatorId := hub.mediatorId, roomId := room.id, termsCommitment := hub.crypto.sha256 terms
        partyAEphemeralKey := keyA, partyBEphemeralKey := keyB, partyAEphemeralKeyMldsa65 := keyAMldsa65
        partyBEphemeralKeyMldsa65 := keyBMldsa65, mediatorPublicKey := hub.receiptKey
        mediatorPublicKeyMldsa65 := hub.receiptKeyMldsa65, stage := stage.toByte, completed, timestamp := env.now, nonce
        previousStageHash := previous })
      (signs : signReceipt hub.crypto hub.receiptSeed env.entropy fields = .ok signature)
      (signsMldsa65 : signReceiptMldsa65 hub.crypto hub.receiptSeedMldsa65 env.entropy fields = .ok signatureMldsa65) :
      CanIssue hub env room stage completed

def CanRecord (hub : HubConfig) (env : HubEnv) : Prop := hub.persists = true → env.persistFault = none
def CanForget (hub : HubConfig) (env : HubEnv) : Prop := hub.persists = true → env.removeFault = none

def CanClose (hub : HubConfig) (env : HubEnv) (room : RoomEntry) : Prop :=
  CanIssue hub env room .settlementCompleted true ∧ CanForget hub env

def CanTurn (session : MediatorSession) : Prop := ∃ turn, session.currentTurn = .ok turn ∧ validateTurn turn = .ok ()

-- A report that nobody is there to hear aborts the room, and that takes the record away.
def CanRelay (hub : HubConfig) (env : HubEnv) (room : RoomEntry) (clientId : ClientId) : Prop :=
  (∃ party, room.partyFor clientId = .ok party ∧ env.connected (otherParty party) = true) ∨ CanForget hub env

/- Nothing that comes after the session's move, to `session`, can throw. -/
def Clear (hub : HubConfig) (env : HubEnv) (room : RoomEntry) : Call → MediatorSession → Prop
  | .sent clientId _, session => validateRoomId room.id = .ok () ∧
      if session.state = .complete then CanClose hub env { room with session }
      else CanRecord hub env ∧ (session.state = .waitingForSent → CanTurn session) ∧
        (session.state = .waitingForReceived → CanRelay hub env room clientId)
  | .received _ _, session => validateRoomId room.id = .ok () ∧
      if session.state = .complete then CanClose hub env { room with session }
      else CanRecord hub env ∧ (session.state = .waitingForFinalReceiptAck ∨ CanTurn session)
  | .receiptAck _ _, session =>
      if session.state = .waitingForFinalReceiptAck then CanRecord hub env
      else validateRoomId room.id = .ok () ∧ CanIssue hub env { room with session } .penultimateObligationsComplete false ∧
        CanTurn session ∧ CanRecord hub env
  | .confirmFee _, session => validateRoomId room.id = .ok () ∧ CanClose hub env { room with session }
  | _, _ => True

/-! Bodies that leave the entry of the room alone and throw exactly where a condition fails. -/

section Steady
variable {α β : Type} {hub : HubConfig} {env : HubEnv} {entry : RoomEntry} {clear more : Prop}

def Steady (entry : RoomEntry) (clear : Prop) (x : HubM α) : Prop :=
  ∀ u, u.entry = entry → Ensures x u (fun _ t => clear ∧ t.entry = entry) (fun _ t => ¬clear ∧ t.entry = entry)

theorem Steady.of {x : HubM α} (steady : Steady entry clear x) (same : clear ↔ more) : Steady entry more x :=
  propext same ▸ steady

theorem Steady.bind {x : HubM α} {k : α → HubM β} (first : Steady entry clear x) (rest : clear → ∀ a, Steady entry more (k a)) :
    Steady entry (clear ∧ more) (x >>= k) := by
  intro u at_
  rw [ensuresBind]
  refine (first u at_).weaken ?_ ?_
  · intro a t _ returned
    refine (rest returned.1 a t returned.2).weaken ?_ ?_
    · exact fun _ v _ after => ⟨⟨returned.1, after.1⟩, after.2⟩
    · exact fun _ v _ after => ⟨fun both => after.1 both.2, after.2⟩
  · exact fun _ t _ thrown => ⟨fun both => thrown.1 both.1, thrown.2⟩

theorem steadyPure (a : α) : Steady entry True (pure a : HubM α) := fun _ at_ => ⟨trivial, at_⟩

theorem steadyEmit (effect : Effect) : Steady entry True (emit effect) := fun _ at_ => ⟨trivial, at_⟩

theorem steadyErase : Steady entry True eraseRoom := fun _ at_ => ⟨trivial, at_⟩

theorem steadyGet {k : Room → HubM α} (rest : ∀ room, room.entry = entry → Steady entry clear (k room)) :
    Steady entry clear (get >>= k) := fun u at_ => rest u at_ u at_

theorem steadyEncodes (frame : Frame) : Steady entry (encodes frame = .ok ()) (rejected (encodes frame) : HubM Unit) := by
  intro u at_
  rw [ensuresLift]
  constructor
  · exact fun _ fits => ⟨rejectedOk.mp fits, at_⟩
  · intro e fails
    refine ⟨fun fits => ?_, at_⟩
    rw [rejectedOk.mpr fits] at fails
    cases fails

theorem steadyEnqueue (party : Party) (frame : Frame) : Steady entry True (enqueue env party frame) := by
  intro u at_
  simp only [enqueue, emit, ensuresIte, ensuresModify, ensuresPure]
  exact ⟨fun _ => ⟨trivial, at_⟩, fun _ => ⟨trivial, at_⟩⟩

theorem steadySend (frame : Frame) : Steady entry (encodes frame = .ok ()) (sendToRoom env frame) := by
  have sends : Steady entry (encodes frame = .ok () ∧ True ∧ True) (sendToRoom env frame) :=
    (steadyEncodes frame).bind fun _ _ => (steadyEnqueue .a frame).bind fun _ _ => steadyEnqueue .b frame
  exact sends.of (by simp)

theorem steadyUpsert : Steady entry (CanRecord hub env) (persistRoomUpsert hub env) := by
  intro u at_
  simp only [persistRoomUpsert, emit, ensuresIte, ensuresBind, ensuresGet, ensuresModify]
  constructor
  · intro persists
    cases fault : env.persistFault with
    | none => exact ⟨fun _ => fault, at_⟩
    | some e =>
      refine ⟨fun can => ?_, at_⟩
      rw [can persists] at fault
      cases fault
  · exact fun off => ⟨fun persists => absurd persists off, at_⟩

theorem steadyRemove : Steady entry (CanForget hub env) (persistRoomRemove hub env) := by
  intro u at_
  simp only [persistRoomRemove, emit, ensuresIte, ensuresBind, ensuresModify]
  constructor
  · intro persists
    cases fault : env.removeFault with
    | none => exact ⟨fun _ => fault, at_⟩
    | some e =>
      refine ⟨fun can => ?_, at_⟩
      rw [can persists] at fault
      cases fault
  · exact fun off => ⟨fun persists => absurd persists off, at_⟩

theorem steadyTurn {k : TurnMessage → HubM α} {fits : TurnMessage → Prop} (rest : ∀ turn, Steady entry (fits turn) (k turn)) :
    Steady entry (∃ turn, entry.session.currentTurn = .ok turn ∧ fits turn) (currentTurn >>= k) := by
  intro u at_
  simp only [currentTurn, ensuresBind, ensuresGet, ensuresLift, at_]
  constructor
  · intro turn due
    have due := rejectedOk.mp due
    refine (rest turn u at_).weaken ?_ ?_
    · exact fun _ t _ after => ⟨⟨turn, due, after.1⟩, after.2⟩
    · intro _ t _ after
      refine ⟨?_, after.2⟩
      rintro ⟨other, due', fit⟩
      rw [due] at due'
      cases due'
      exact after.1 fit
  · intro e fails
    refine ⟨?_, trivial⟩
    rintro ⟨turn, due, _⟩
    rw [due] at fails
    cases fails

theorem steadyRelay {party : Party} {message : RoundSignalMessage} :
    Steady entry (env.connected party = true → validateRoomId message.roomId = .ok ()) (do
      if env.connected party then
        rejected (encodes (.received message))
        enqueue env party (.received message) : HubM Unit) := by
  split
  next on =>
    refine Steady.of ((steadyEncodes _).bind fun _ _ => steadyEnqueue _ _) ?_
    simp [encodes, on]
  next off => exact (steadyPure ()).of (by simp [off])

theorem signedShort {crypto : Crypto} {seed : Ed25519PrivateSeed} {entropy : Wire.Bytes} {fields : ReceiptFields}
    {signature : Ed25519Signature} (signs : signReceipt crypto seed entropy fields = .ok signature) :
    fields.mediatorId.length ≤ receiptMaxMediatorIdLength := by
  unfold signReceipt at signs
  obtain ⟨payload, encoded, _⟩ := bind_ok.mp signs
  simp only [encodeReceiptSignedPayload, bind_ok, throwIf_ok] at encoded
  obtain ⟨_, _, _, short, _⟩ := encoded
  exact Nat.not_lt.mp short

theorem encodesReceipt {receipt : IssuedReceipt} {completed : Bool} {stage : ReceiptStage}
    (built : receiptFor hub env entry stage completed = .ok receipt) :
    encodes (.receiptIssued receipt) = .ok () ↔ validateRoomId entry.id = .ok () := by
  have short := signedShort (builtReceipt built).signed
  simp [encodes, (builtReceipt built).roomId, bind_ok, throwIf_ok, short, Unique.exists_iff]

theorem steadyAnnounce {receipt : IssuedReceipt} (fits : encodes (.receiptIssued receipt) = .ok () ↔ validateRoomId entry.id = .ok ()) :
    Steady entry (CanForget hub env ∧ validateRoomId entry.id = .ok ()) (announceCompletion hub env receipt) := by
  have announces : Steady entry (True ∧ CanForget hub env ∧ True ∧ validateRoomId entry.id = .ok () ∧ validateRoomId entry.id = .ok ())
      (announceCompletion hub env receipt) := by
    refine steadyGet fun room at_ => ?_
    refine (steadyEmit _).bind fun _ _ => steadyRemove.bind fun _ _ => steadyErase.bind fun _ _ => ?_
    refine ((steadySend _).of fits).bind fun _ _ => (steadySend _).of ?_
    rw [at_]
    rfl
  exact announces.of (by simp)

end Steady

/-! Receipts. -/

section Receipts
variable {hub : HubConfig} {env : HubEnv} {room : RoomEntry} {stage : ReceiptStage} {completed : Bool}

theorem issuesExactly : (∃ receipt, receiptFor hub env room stage completed = .ok receipt) ↔ CanIssue hub env room stage completed := by
  constructor
  · rintro ⟨receipt, built⟩
    unfold receiptFor at built
    split at built
    next keyA keyB keyAMldsa65 keyBMldsa65 announcedA announcedB announcedAMldsa65 announcedBMldsa65 =>
      simp only [bind_ok, pure_ok] at built
      obtain ⟨terms, encoded, nonce, drawn, previous, linked, signature, signs, signatureMldsa65, signsMldsa65, _⟩ := built
      exact .signed keyA keyB keyAMldsa65 keyBMldsa65 terms nonce previous _ signature signatureMldsa65 announcedA announcedB
        announcedAMldsa65 announcedBMldsa65 encoded drawn linked rfl signs signsMldsa65
    next => cases built
  · rintro ⟨keyA, keyB, keyAMldsa65, keyBMldsa65, terms, nonce, previous, _, signature, signatureMldsa65, announcedA,
      announcedB, announcedAMldsa65, announcedBMldsa65, encoded, drawn, linked, rfl, signs, signsMldsa65⟩
    unfold receiptFor
    rw [announcedA, announcedB, announcedAMldsa65, announcedBMldsa65]
    exact ⟨_, bind_ok.mpr ⟨terms, encoded, bind_ok.mpr ⟨nonce, drawn, bind_ok.mpr ⟨previous, linked, bind_ok.mpr ⟨signature,
      signs, bind_ok.mpr ⟨signatureMldsa65, signsMldsa65, rfl⟩⟩⟩⟩⟩⟩

end Receipts

/-! Once the session has moved. -/

section Moved
variable {α β : Type} {hub : HubConfig} {env : HubEnv} {u : Room} {was : MediatorSession} {clear more : Prop}

/- The rest of a body, with the session moved on from `was`, throws exactly where the condition fails. -/
def Rest (was : MediatorSession) (clear : Prop) (x : HubM α) (u : Room) : Prop :=
  Ensures x u (fun _ _ => clear) (fun _ t => ¬clear ∧ t.entry.session ≠ was)

theorem Rest.of {x : HubM α} (rest : Rest was clear x u) (same : clear ↔ more) : Rest was more x u := propext same ▸ rest

theorem Steady.rest {x : HubM α} (steady : Steady u.entry clear x) (moved : u.entry.session ≠ was) : Rest was clear x u := by
  refine (steady u rfl).weaken ?_ ?_
  · exact fun _ t _ returned => returned.1
  · intro _ t _ thrown
    rw [thrown.2]
    exact ⟨thrown.1, moved⟩

-- A receipt does not say whether the room is active.
theorem receiptInactive (room : RoomEntry) (stage : ReceiptStage) (completed : Bool) :
    receiptFor hub env { room with active := false } stage completed = receiptFor hub env room stage completed := rfl

theorem cannotIssue {room : RoomEntry} {stage : ReceiptStage} {completed : Bool} {e : HubError}
    (fails : rejected (receiptFor hub env room stage completed) = .error e) : ¬CanIssue hub env room stage completed := by
  intro can
  obtain ⟨receipt, built⟩ := issuesExactly.mpr can
  rw [built] at fails
  cases fails

theorem restChange {change : RoomEntry → RoomEntry} {k : Unit → HubM α} (rest : Rest was clear (k ()) { u with entry := change u.entry }) :
    Rest was clear (onEntry change >>= k) u := rest

theorem Steady.thenRest {x : HubM α} {k : α → HubM β} (steady : Steady u.entry clear x) (moved : u.entry.session ≠ was)
    (rest : ∀ a t, t.entry = u.entry → Rest was more (k a) t) : Rest was (clear ∧ more) (x >>= k) u := by
  rw [Rest, ensuresBind]
  refine (steady u rfl).weaken ?_ ?_
  · intro a t _ returned
    refine (rest a t returned.2).weaken ?_ ?_
    · exact fun _ _ _ after => ⟨returned.1, after⟩
    · exact fun _ _ _ after => ⟨fun both => after.1 both.2, after.2⟩
  · intro _ t _ thrown
    rw [thrown.2]
    exact ⟨fun both => thrown.1 both.1, moved⟩

theorem peerGone : validateReason (safeReason (Wire.ascii "peer disconnected")) = .ok () := by rfl

/- An abort of a room whose session is under way fails only at the record, or at the room's id. -/
theorem restAborts {reason : Wire.Bytes} {entry : RoomEntry} (at_ : u.entry = entry) (active : entry.active = true)
    (fits : validateReason (safeReason reason) = .ok ()) (unfinished : entry.session.state ≠ .complete)
    (running : entry.session.state ≠ .aborted) (before : was.state ≠ .aborted) :
    Rest was (CanForget hub env ∧ validateRoomId entry.id = .ok ()) (abortRoom hub env reason) u := by
  subst at_
  have aborts : MediatorSession.abort (safeReason reason) u.entry.session =
      .ok () (u.entry.session.abortedWith (safeReason reason)) :=
    MediatorSession.abortStep.mpr (.aborted _ unfinished)
  have deactivates : deactivate (safeReason reason) u = .ok ()
      { u with entry := { u.entry with active := false, session := u.entry.session.abortedWith (safeReason reason) } } := by
    simp only [deactivate, onEntry, bind_run, modify_run, get_run, ite_run, ne_eq, unfinished, running, not_false_eq_true,
      and_self, if_true, onSession, aborts]
  have left : u.entry.session.abortedWith (safeReason reason) ≠ was := by
    intro same
    exact before (same ▸ rfl)
  have closes (entry : RoomEntry) : Steady entry (CanForget hub env ∧ True ∧ validateRoomId u.entry.id = .ok ()) (do
      persistRoomRemove hub env
      eraseRoom
      sendToRoom env (.abort ⟨u.entry.id, safeReason reason⟩)) := by
    refine steadyRemove.bind fun _ _ => steadyErase.bind fun _ _ => (steadySend _).of ?_
    simp [encodes, bind_ok, fits, Unique.exists_iff]
  unfold Rest abortRoom
  rw [ensuresBind, ensuresGet, ensuresIte]
  refine ⟨fun _ => ?_, fun closed => absurd active closed⟩
  rw [ensuresBind, Ensures, deactivates]
  exact ((closes _).of (by simp)).rest left

/- A receipt is made or cannot be; what comes behind it goes on with the same session. -/
theorem restIssued {stage : ReceiptStage} {completed : Bool} {k : IssuedReceipt → HubM α} {issued : IssuedReceipt → Room}
    (moved : u.entry.session ≠ was) (keeps : ∀ receipt, (issued receipt).entry.session = u.entry.session)
    (rest : ∀ receipt, (encodes (.receiptIssued receipt) = .ok () ↔ validateRoomId u.entry.id = .ok ()) →
      Steady (issued receipt).entry clear (k receipt)) :
    (∀ receipt, rejected (receiptFor hub env u.entry stage completed) = .ok receipt →
      Rest was (CanIssue hub env u.entry stage completed ∧ clear) (k receipt) (issued receipt)) ∧
    ∀ e, rejected (receiptFor hub env u.entry stage completed) = .error e →
      ¬(CanIssue hub env u.entry stage completed ∧ clear) ∧ u.entry.session ≠ was := by
  constructor
  · intro receipt built
    have built := rejectedOk.mp built
    have can := issuesExactly.mp ⟨receipt, built⟩
    refine (rest receipt (encodesReceipt built) _ rfl).weaken ?_ ?_
    · exact fun _ _ _ after => ⟨can, after.1⟩
    · intro _ t _ after
      rw [after.2, keeps receipt]
      exact ⟨fun both => after.1 both.2, moved⟩
  · intro e fails
    exact ⟨fun both => cannotIssue fails both.1, moved⟩

theorem restSettles {k : IssuedReceipt → HubM α} (moved : u.entry.session ≠ was)
    (rest : ∀ receipt, (encodes (.receiptIssued receipt) = .ok () ↔ validateRoomId u.entry.id = .ok ()) →
      Steady { u.entry with active := false } clear (k receipt)) :
    Rest was (CanIssue hub env u.entry .settlementCompleted true ∧ clear) (settle hub env >>= k) u := by
  simp only [Rest, settle, issueReceipt, onEntry, emit, ensuresBind, ensuresModify, ensuresGet, ensuresLift, reduceCtorEq,
    if_false, ensuresPure, receiptInactive]
  exact restIssued moved (fun _ => rfl) rest

theorem restGates {k : IssuedReceipt → HubM α} (moved : u.entry.session ≠ was)
    (rest : ∀ receipt, (encodes (.receiptIssued receipt) = .ok () ↔ validateRoomId u.entry.id = .ok ()) →
      Steady { u.entry with finalAckReceipt := some receipt } clear (k receipt)) :
    Rest was (CanIssue hub env u.entry .penultimateObligationsComplete false ∧ clear)
      (issueReceipt hub env .penultimateObligationsComplete false >>= k) u := by
  simp only [Rest, issueReceipt, onEntry, emit, ensuresBind, ensuresModify, ensuresGet, ensuresLift, if_true, ensuresPure]
  exact restIssued moved (fun _ => rfl) rest

end Moved

/-! The calls. -/

section Calls
variable {α : Type} {hub : HubConfig} {env : HubEnv} {s : Room} {call : Call}

/- What a body may do from the room as it was: throw without a change when the session is not to move, throw with the
session moved when something later fails, or return. -/
def Answers (hub : HubConfig) (env : HubEnv) (s : Room) (call : Call) (x : HubM α) : Prop :=
  Ensures x s (fun _ _ => ∀ session, Takes hub s call session → Clear hub env s.entry call session)
    (fun _ t => (t = s ∧ ∀ session, ¬Takes hub s call session) ∨
      (t.entry.session ≠ s.entry.session ∧ ∃ session, Takes hub s call session ∧ ¬Clear hub env s.entry call session))

theorem answersGuard {β : Type} {x : HubM β} {k : β → HubM α} {holds : β → Prop}
    (guards : Ensures x s (fun b t => t = s ∧ holds b) (fun _ t => t = s ∧ ∀ session, ¬Takes hub s call session))
    (rest : ∀ b, holds b → Answers hub env s call (k b)) : Answers hub env s call (x >>= k) := by
  rw [Answers, ensuresBind]
  refine guards.weaken ?_ ?_
  · intro b t _ passed
    rw [passed.1]
    exact rest b passed.2
  · exact fun _ t _ refused => .inl refused

theorem findRoomGuards {clientId : ClientId} {roomId : RoomId} (needs : ∀ session, Takes hub s call session →
      (s.listed = true ∧ roomId = s.entry.id) ∧ ∃ party, s.entry.partyFor clientId = .ok party) :
    Ensures (findRoomFor clientId roomId) s
      (fun party t => t = s ∧ (s.listed = true ∧ roomId = s.entry.id) ∧ s.entry.partyFor clientId = .ok party)
      (fun _ t => t = s ∧ ∀ session, ¬Takes hub s call session) := by
  simp only [findRoomFor, ensuresBind, ensuresGet, ensuresLift, throwIf_ok, not_not]
  refine ⟨fun _ found => ⟨fun party member => ⟨trivial, found, member⟩, fun e stranger => ⟨trivial, ?_⟩⟩,
    fun e missing => ⟨trivial, ?_⟩⟩
  · intro session takes
    obtain ⟨_, party, member⟩ := needs session takes
    rw [member] at stranger
    cases stranger
  · intro session takes
    simp [throwIf, (needs session takes).1] at missing

theorem requireActiveGuards (needs : ∀ session, Takes hub s call session → s.entry.active = true) :
    Ensures requireActive s (fun _ t => t = s ∧ s.entry.active = true) (fun _ t => t = s ∧ ∀ session, ¬Takes hub s call session) := by
  simp only [requireActive, ensuresBind, ensuresGet, ensuresLift, throwIf_ok, not_not]
  refine ⟨fun _ active => ⟨trivial, active⟩, fun e closed => ⟨trivial, fun session takes => ?_⟩⟩
  simp [throwIf, needs session takes] at closed

theorem checkGuards {β : Type} {x : Except HubError β} (needs : ∀ session, Takes hub s call session → ∃ b, x = .ok b) :
    Ensures (liftM x : HubM β) s (fun b t => t = s ∧ x = .ok b) (fun _ t => t = s ∧ ∀ session, ¬Takes hub s call session) := by
  rw [ensuresLift]
  refine ⟨fun b passed => ⟨rfl, passed⟩, fun e failed => ⟨rfl, fun session takes => ?_⟩⟩
  obtain ⟨b, passed⟩ := needs session takes
  rw [failed] at passed
  cases passed

theorem advancedState (was : MediatorSession) : was.advanced.state ≠ .waitingForReceived := by
  unfold MediatorSession.advanced MediatorSession.advanceAfterReceipt
  simp only [bind_run, get_run, set_run, ite_run]
  split_ifs <;> simp

theorem stepMoves {was session : MediatorSession} {op : Operation} (unaborted : ∀ reason, op ≠ .abort reason)
    (unjoined : ∀ message, op ≠ .join message) (step : Step was op session) : session ≠ was := by
  intro same
  have state := congrArg MediatorSession.state same
  cases step with
  | joined message => exact unjoined message rfl
  | aborted reason => exact unaborted reason rfl
  | feeSent waiting =>
    rw [waiting, MediatorSession.inState, MediatorSession.onceFeeReported, MediatorSession.onceFeeSettled] at state
    split_ifs at state
  | sent party waiting =>
    rw [waiting] at state
    cases state
  | received party waiting => exact advancedState was (state.trans waiting)
  | acknowledged party waiting first =>
    have flagged : (was.acknowledged party).finalReceiptAcked party = true := by
      cases party <;> simp only [MediatorSession.acknowledged] <;> split <;> rfl
    rw [same, first] at flagged
    cases flagged
  | confirmed waiting =>
    rw [waiting, MediatorSession.inState, MediatorSession.onceFeeSettled] at state
    split_ifs at state

theorem answersSession (op : Operation) {k : Unit → HubM α} (unaborted : ∀ reason, op ≠ .abort reason)
    (unjoined : ∀ message, op ≠ .join message)
    (takes : ∀ session, Takes hub s call session ↔ Step s.entry.session op session)
    (rest : ∀ session, Step s.entry.session op session → session ≠ s.entry.session →
      Rest s.entry.session (Clear hub env s.entry call session) (k ()) { s with entry := { s.entry with session } }) :
    Answers hub env s call (onSession (MediatorSession.perform op) >>= k) := by
  rw [Answers, ensuresBind]
  unfold Ensures onSession
  cases performed : MediatorSession.perform op s.entry.session with
  | ok u session =>
    have step := MediatorSession.acceptsIff.mp performed
    refine (rest session step (stepMoves unaborted unjoined step)).weaken ?_ ?_
    · intro _ t _ clear other taken
      have again := MediatorSession.acceptsIff.mpr ((takes other).mp taken)
      rw [Accepts, performed] at again
      cases again
      exact clear
    · exact fun _ t _ thrown => .inr ⟨thrown.2, session, (takes session).mpr step, thrown.1⟩
  | error e session =>
    obtain rfl := MediatorSession.performAtomic _ _ _ _ performed
    refine .inl ⟨rfl, fun other taken => ?_⟩
    have again := MediatorSession.acceptsIff.mpr ((takes other).mp taken)
    rw [Accepts, performed] at again
    cases again

theorem turnNamed {session : MediatorSession} {turn : TurnMessage} (due : session.currentTurn = .ok turn) :
    turn.roomId = session.roomId := by
  unfold MediatorSession.currentTurn at due
  split at due
  · cases due
    rfl
  · obtain ⟨sender, _, due⟩ := bind_ok.mp due
    cases sender <;>
    · obtain ⟨amount, _, due⟩ := bind_ok.mp due
      cases due
      rfl

-- A turn that encodes carries an id that does.
theorem turnFits {session : MediatorSession} (can : CanTurn session) : validateRoomId session.roomId = .ok () := by
  obtain ⟨turn, due, fits⟩ := can
  rw [← turnNamed due]
  obtain ⟨_, named, _⟩ := bind_ok.mp fits
  exact named

theorem sentStates {was session : MediatorSession} {party : Party} {message : RoundSignalMessage}
    (step : Step was (.senderReportedSent party message) session) :
    message.roomId = was.roomId ∧ was.state ≠ .aborted ∧ (session.state = .complete ∨ session.state = .waitingForFeeConfirmation ∨
      session.state = .waitingForSent ∨ session.state = .waitingForReceived) := by
  cases step with
  | feeSent waiting =>
    refine ⟨rfl, by simp [waiting], ?_⟩
    simp only [MediatorSession.inState, MediatorSession.onceFeeReported, MediatorSession.onceFeeSettled]
    split_ifs <;> simp
  | sent party waiting => exact ⟨rfl, by simp [waiting], by simp [MediatorSession.inState]⟩

theorem sentAnswers (clientId : ClientId) (message : RoundSignalMessage) :
    Answers hub env s (.sent clientId message) (handleSent hub env clientId message) := by
  refine answersGuard (findRoomGuards ?_) fun party found => answersGuard (requireActiveGuards ?_) fun _ active => ?_
  · intro session takes
    cases takes with
    | sent _ _ party _ found member => exact ⟨found, party, member⟩
  · intro session takes
    cases takes with
    | sent _ _ _ _ _ _ active => exact active
  refine answersSession (.senderReportedSent party message) (by simp) (by simp) ?_ fun session step moved => ?_
  · intro session
    constructor
    · intro takes
      cases takes with
      | sent _ _ other _ _ member _ step =>
        rw [found.2] at member
        cases member
        exact step
    · exact .sent clientId message party session found.1 found.2 active
  have named : s.entry.id = session.roomId := found.1.2.symm.trans ((sentStates step).1.trans step.same.roomId.symm)
  rw [Rest, ensuresBind, ensuresGet]
  rcases (sentStates step).2.2 with state | state | state | state
  · simp only [state]
    refine (restSettles moved fun receipt fits => steadyAnnounce fits).of ?_
    simp only [Clear, state, if_true, CanClose]
    tauto
  · simp only [state]
    refine restChange (Steady.rest (steadyUpsert.bind fun _ _ => steadySend _) moved) |>.of ?_
    simp only [Clear, state, encodes, reduceCtorEq, if_false, false_imp_iff, and_true]
    tauto
  · simp only [state]
    refine (Steady.rest (steadyTurn fun turn => steadyUpsert.bind fun _ _ => steadySend (.turn turn)) moved).of ?_
    rw [Clear, named]
    simp only [state, reduceCtorEq, if_false, false_imp_iff, true_imp_iff, and_true]
    constructor
    · intro can
      obtain ⟨turn, due, records, fits⟩ := can
      exact ⟨turnFits ⟨turn, due, fits⟩, records, turn, due, fits⟩
    · intro can
      obtain ⟨_, records, turn, due, fits⟩ := can
      exact ⟨turn, due, records, fits⟩
  · simp only [state]
    by_cases on : env.connected (otherParty party)
    · simp only [on]
      refine (Steady.rest (steadyUpsert.bind fun _ _ => (steadyEncodes _).bind fun _ _ => steadyEnqueue _ _) moved).of ?_
      have relays : CanRelay hub env s.entry clientId := .inl ⟨party, found.2, on⟩
      simp only [Clear, state, relays, encodes, found.1.2, reduceCtorEq, if_false, false_imp_iff, true_imp_iff, and_true]
      tauto
    · simp only [on]
      refine Rest.of (Steady.thenRest steadyUpsert moved fun _ t same =>
        restAborts same active peerGone (by simp [state]) (by simp [state]) (sentStates step).2.1) ?_
      have relays : CanRelay hub env s.entry clientId ↔ CanForget hub env := by
        refine ⟨fun can => ?_, .inr⟩
        obtain ⟨other, member, there⟩ | forgets := can
        · rw [found.2] at member
          cases member
          exact absurd there on
        · exact forgets
      simp only [Clear, state, relays, reduceCtorEq, if_false, false_imp_iff, true_imp_iff, true_and]
      tauto

theorem receivedNamed {was session : MediatorSession} {party : Party} {message : RoundSignalMessage}
    (step : Step was (.receiverReportedReceived party message) session) : message.roomId = was.roomId := by
  cases step
  rfl

theorem receivedAnswers (clientId : ClientId) (message : RoundSignalMessage) :
    Answers hub env s (.received clientId message) (handleReceived hub env clientId message) := by
  refine answersGuard (findRoomGuards ?_) fun party found => answersGuard (requireActiveGuards ?_) fun _ active => ?_
  · intro session takes
    cases takes with
    | received _ _ party _ found member => exact ⟨found, party, member⟩
  · intro session takes
    cases takes with
    | received _ _ _ _ _ _ active => exact active
  refine answersSession (.receiverReportedReceived party message) (by simp) (by simp) ?_ fun session step moved => ?_
  · intro session
    constructor
    · intro takes
      cases takes with
      | received _ _ other _ _ member _ step =>
        rw [found.2] at member
        cases member
        exact step
    · exact .received clientId message party session found.1 found.2 active
  have named : s.entry.id = session.roomId := found.1.2.symm.trans ((receivedNamed step).trans step.same.roomId.symm)
  have stated := found.1.2
  rw [Rest, ensuresBind, ensuresGet]
  dsimp only
  split
  next done =>
    refine (restSettles moved fun receipt fits => steadyRelay.bind fun _ _ => steadyAnnounce fits).of ?_
    simp only [Clear, done, if_true, CanClose, stated]
    tauto
  next gate =>
    refine (Steady.rest (steadyUpsert.bind fun _ _ => steadyRelay.bind fun _ _ => steadySend _) moved).of ?_
    simp only [Clear, gate, encodes, stated, reduceCtorEq, if_false, true_or, and_true]
    tauto
  next unfinished ungated =>
    refine (Steady.rest (steadyTurn fun turn => steadyUpsert.bind fun _ _ => steadyRelay.bind fun _ _ => steadySend (.turn turn))
      moved).of ?_
    have unfinished : session.state ≠ .complete := unfinished
    have ungated : session.state ≠ .waitingForFinalReceiptAck := ungated
    simp only [Clear, unfinished, ungated, if_false, false_or, stated, named]
    constructor
    · intro can
      obtain ⟨turn, due, records, _, fits⟩ := can
      exact ⟨turnFits ⟨turn, due, fits⟩, records, turn, due, fits⟩
    · intro can
      obtain ⟨valid, records, turn, due, fits⟩ := can
      exact ⟨turn, due, records, fun _ => valid, fits⟩

theorem receiptAckAnswers (clientId : ClientId) (message : ReceiptAckMessage) :
    Answers hub env s (.receiptAck clientId message) (handleReceiptAck hub env clientId message) := by
  refine answersGuard (findRoomGuards ?_) fun party found => answersGuard (requireActiveGuards ?_) fun _ active => ?_
  · intro session takes
    cases takes with
    | receiptAck _ _ party _ found member => exact ⟨found, party, member⟩
  · intro session takes
    cases takes with
    | receiptAck _ _ _ _ _ _ active => exact active
  have own (session : MediatorSession) (takes : Takes hub s (.receiptAck clientId message) session) :
      s.entry.session.state = .waitingForFinalReceiptAck ∧ message.stage = ReceiptStage.penultimateObligationsComplete.toByte ∧
        verifyAcknowledgement hub s.entry party message = .ok () ∧
        Step s.entry.session (.acknowledgeFinalReceipt party) session := by
    cases takes with
    | receiptAck _ _ other _ _ member _ stage verified step =>
      rw [found.2] at member
      cases member
      refine ⟨?_, stage, verified, step⟩
      cases step
      assumption
  refine answersGuard (x := get) ⟨rfl, rfl⟩ fun room same => ?_
  subst same
  refine answersGuard (checkGuards fun session takes => ⟨(), by simp [throwIf, (own session takes).1]⟩) fun _ waiting => ?_
  refine answersGuard (checkGuards fun session takes => ⟨(), by simp [throwIf, (own session takes).2.1]⟩) fun _ staged => ?_
  refine answersGuard (checkGuards fun session takes => ⟨(), (own session takes).2.2.1⟩) fun _ verified => ?_
  have staged := not_not.mp (throwIf_ok.mp staged)
  refine answersSession (.acknowledgeFinalReceipt party) (by simp) (by simp) ?_ fun session step moved => ?_
  · exact fun session => ⟨fun takes => (own session takes).2.2.2,
      .receiptAck clientId message party session found.1 found.2 active staged verified⟩
  rw [Rest, ensuresBind, ensuresGet]
  dsimp only
  split
  next opens =>
    have announces (receipt : IssuedReceipt)
        (fits : encodes (.receiptIssued receipt) = .ok () ↔ validateRoomId s.entry.id = .ok ()) :
        Steady { s.entry with session, finalAckReceipt := some receipt }
          (∃ turn, session.currentTurn = .ok turn ∧ CanRecord hub env ∧ validateRoomId s.entry.id = .ok () ∧
            encodes (.turn turn) = .ok ()) (do
          let turn ← currentTurn
          persistRoomUpsert hub env
          sendToRoom env (.receiptIssued receipt)
          sendToRoom env (.turn turn)) :=
      steadyTurn fun turn => steadyUpsert.bind fun _ _ => ((steadySend _).of fits).bind fun _ _ => steadySend (.turn turn)
    refine (restGates moved announces).of ?_
    simp only [Clear, opens, if_false]
    constructor
    · intro can
      obtain ⟨issues, turn, due, records, valid, fits⟩ := can
      exact ⟨valid, issues, ⟨turn, due, fits⟩, records⟩
    · intro can
      obtain ⟨valid, issues, ⟨turn, due, fits⟩, records⟩ := can
      exact ⟨issues, turn, due, records, valid, fits⟩
  next first =>
    have first := not_not.mp first
    refine (Steady.rest steadyUpsert moved).of ?_
    simp only [Clear, first, if_true]

theorem confirmFeeAnswers (roomId : RoomId) : Answers hub env s (.confirmFee roomId) (tryConfirmFeeLocked hub env roomId) := by
  refine answersGuard (x := get) ⟨rfl, rfl⟩ fun room same => ?_
  subst same
  split
  next awaits =>
    refine answersSession .confirmFeeReceived (by simp) (by simp) ?_ fun session step moved => ?_
    · intro session
      constructor
      · intro takes
        cases takes
        assumption
      · exact .confirmFee roomId session awaits
    have announces (receipt : IssuedReceipt)
        (fits : encodes (.receiptIssued receipt) = .ok () ↔ validateRoomId s.entry.id = .ok ()) :
        Steady { s.entry with session, active := false } (CanForget hub env ∧ validateRoomId s.entry.id = .ok ())
          (announceCompletion hub env receipt) := steadyAnnounce fits
    refine Rest.of (restSettles moved fun receipt fits => (announces receipt fits).bind fun _ _ => steadyPure true) ?_
    simp only [Clear, CanClose]
    tauto
  next elsewhere =>
    intro session takes
    cases takes with
    | confirmFee _ _ awaits => exact absurd awaits elsewhere

theorem performAnswers (settles : call.settles = true) : Answers hub env s call (perform hub (env, call)) := by
  cases call with
  | sent clientId message => exact sentAnswers clientId message
  | received clientId message => exact receivedAnswers clientId message
  | receiptAck clientId message => exact receiptAckAnswers clientId message
  | confirmFee roomId =>
    rw [Answers, perform, ensuresBind]
    exact Ensures.weaken (confirmFeeAnswers roomId) (fun _ _ _ returned => returned) fun _ _ _ thrown => thrown
  | tradeEphemeralKey | abort | disconnect => cases settles

/- An error leaves the room as it was exactly if the session refuses the report, or takes it and nothing that follows
can fail. -/
theorem settlementAtomic (hub : HubConfig) (env : HubEnv) (s : Room) (call : Call) (settles : call.settles = true) :
    AtomicOnError hub env s call ↔ ∀ session, Takes hub s call session → Clear hub env s.entry call session := by
  have answers : Answers hub env s call (perform hub (env, call)) := performAnswers settles
  rw [Answers, Ensures] at answers
  constructor
  · intro atomic
    cases performed : perform hub (env, call) s with
    | ok _ t =>
      rw [performed] at answers
      exact answers
    | error e t =>
      rw [performed] at answers
      obtain ⟨_, refused⟩ | ⟨moved, _⟩ := answers
      · exact fun session takes => absurd takes (refused session)
      · exact absurd (atomic e t performed).1.session moved
  · intro clear e t performed
    rw [performed] at answers
    obtain ⟨rfl, _⟩ | ⟨_, session, takes, fails⟩ := answers
    · exact ⟨⟨rfl, rfl, rfl, fun _ => rfl⟩, fun stranded => stranded⟩
    · exact absurd (clear session takes) fails

end Calls

/- A room that waited for the operator when the mediator went down comes back without the parties' keys. -/
section Restored
open MediatorSession (swap swapCreator swapRoom swapFee)

def swapRecord : PersistedRoom where
  roomId := swapRoom
  partyA := swapClientA
  partyB := swapClientB
  terms := swapCreator.terms
  fee := swapFee
  state := .waitingForFeeConfirmation
  roundIndex := 2
  legIndex := 0
  abortReason := []
  updatedAt := 1700000000

def swapRestored : RoomEntry where
  id := swapRoom
  partyA := swapClientA
  partyB := swapClientB
  session := { creator := ⟨swapCreator.terms, []⟩, roomId := swapRoom, fee := swapFee, state := .waitingForFeeConfirmation
               roundIndex := 2, requireFeeConfirmation := true, feePosition := .afterLastRound }

theorem swapRestores : RoomEntry.fromPersisted swapRecord true .afterLastRound = .ok swapRestored := by rfl

/- The operator's confirmation is answered with an error, and the room stays listed, complete and without a receipt. -/
theorem restoredStranded : RoomEntry.fromPersisted swapRecord true .afterLastRound = .ok swapRestored ∧
    ∃ t, perform swapHub (swapEnv, .confirmFee swapRoom) { entry := swapRestored } =
        .error (.standard (.runtimeError "cannot issue a receipt before both parties have announced an ephemeral trade key")) t ∧
      t.entry.session.state = .complete ∧ t.Stranded ∧ ¬AtomicOnError swapHub swapEnv { entry := swapRestored } (.confirmFee swapRoom) := by
  refine ⟨swapRestores, _, rfl, rfl, ⟨.inl rfl, fun removed => ?_⟩, fun atomic => ?_⟩
  · cases removed.1
  · cases (atomic _ _ rfl).1.active

theorem swapConfirmAtomic : Call.settles (.confirmFee swapRoom) = true ∧
    (AtomicOnError swapHub swapEnv { entry := swapRestored } (.confirmFee swapRoom) ↔
      ∀ session, Takes swapHub { entry := swapRestored } (.confirmFee swapRoom) session →
        Clear swapHub swapEnv swapRestored (.confirmFee swapRoom) session) :=
  ⟨rfl, settlementAtomic swapHub swapEnv { entry := swapRestored } (.confirmFee swapRoom) rfl⟩

end Restored
end Hub
end TradeP2P
