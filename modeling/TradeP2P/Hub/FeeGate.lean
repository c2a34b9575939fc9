import TradeP2P.Hub.Privacy

/-! A room that waits for its fee to be confirmed. Nothing but a confirmation or an abort takes it out of that state, and every
confirmation was set off by an operator who named the room. -/
namespace TradeP2P
open Machine Checks
open MediatorSession (Operation Step)

namespace Delivery
open Hub

theorem returnsRoom {α : Type} {P : α → Prop} {x : HubM α} (holds : Returns P x) : Returns P (onRoom x) := by
  intro s
  rw [ensuresOnRoom]
  exact holds s.room

/-! What the handlers of a room do to its session: they perform operations on it, and a relation that every such operation keeps
to is kept by the handler. -/

def OnSession (Q : MediatorSession → MediatorSession → Prop) (s t : Room) : Prop := Q s.entry.session t.entry.session

instance onSessionRefl {Q : MediatorSession → MediatorSession → Prop} [Std.Refl Q] : Std.Refl (OnSession Q) where
  refl s := Std.Refl.refl s.entry.session

instance onSessionTrans {Q : MediatorSession → MediatorSession → Prop} [Trans Q Q Q] : Trans (OnSession Q) (OnSession Q) (OnSession Q) where
  trans before after := Trans.trans (r := Q) before after

-- The operations a handler may perform.
def Locked.may (locked : Locked) (op : Operation) : Prop := op = .confirmFeeReceived → locked = .confirmFee

namespace Follows
variable {α : Type} {Q : MediatorSession → MediatorSession → Prop} {hub : HubConfig} {env : HubEnv} {locked : Locked}

section Refl
variable [Std.Refl Q]

theorem session (op : Operation) (keeps : ∀ s t, Step s op t → Q s t) : Along (OnSession Q) (onSession (MediatorSession.perform op)) := by
  intro room
  unfold Ensures onSession
  cases ran : MediatorSession.perform op room.entry.session with
  | ok u session => exact keeps _ _ (MediatorSession.acceptsIff.mp ran)
  | error e session =>
    obtain rfl := MediatorSession.performAtomic _ _ _ _ ran
    exact Std.Refl.refl room.entry.session

theorem emits {P : Effect → Prop} {x : HubM α} (quiet : Emits P x) : Along (OnSession Q) x := by
  have same : ∀ s t : Room, Grows P s t → OnSession Q s t := by
    intro s t grows
    rw [OnSession, grows.entry]
    exact Std.Refl.refl _
  exact fun s => (quiet s).weaken (fun _ t _ grows => same s t grows) fun _ t _ grows => same s t grows

theorem onEntry {change : RoomEntry → RoomEntry} (same : ∀ room, (change room).session = room.session) :
    Along (OnSession Q) (Hub.onEntry change) :=
  alongModify fun s => by
    rw [OnSession, same]
    exact Std.Refl.refl _

end Refl

variable [Std.Refl Q] [Trans Q Q Q]

omit [Trans Q Q Q] in
theorem upsert : Along (OnSession Q) (persistRoomUpsert hub env) := emits (emitsUpsert (P := fun _ => True) fun _ => trivial)

theorem issue (stage : ReceiptStage) (completed : Bool) : Along (OnSession Q) (issueReceipt hub env stage completed) := by
  have note (receipt : IssuedReceipt) : Along (OnSession Q) (emit (.issued receipt)) := emits (emitsEmit (P := fun _ => True) trivial)
  refine .bind alongGet fun _ => .bind (alongLift _) fun receipt => ?_
  dsimp only
  exact alongIf (.bind (onEntry fun _ => rfl) fun _ => .bind (note receipt) fun _ => alongPure _)
    (.bind (note receipt) fun _ => alongPure _)

theorem settle : Along (OnSession Q) (Hub.settle hub env) := .bind (onEntry fun _ => rfl) fun _ => issue _ _

theorem active : Along (OnSession Q) requireActive := .bind alongGet fun _ => alongLift _

theorem turn : Along (OnSession Q) currentTurn := .bind alongGet fun _ => alongLift _

theorem deactivate (reason : Wire.Bytes) (keeps : ∀ s t, Step s (.abort reason) t → Q s t) :
    Along (OnSession Q) (Hub.deactivate reason) :=
  .bind (onEntry fun _ => rfl) fun _ => .bind alongGet fun _ => alongIf (session (.abort reason) keeps) (alongPure _)

theorem sent (party : Party) (message : RoundSignalMessage) (keeps : ∀ s t, Step s (.senderReportedSent party message) t → Q s t) :
    Along (OnSession Q) (Delivery.handleSent hub env party message) := by
  refine .bind active fun _ => .bind (session (.senderReportedSent party message) keeps) fun _ => .bind alongGet fun room => ?_
  split
  · exact .bind settle fun _ => alongPure _
  · exact .bind (onEntry fun _ => rfl) fun _ => .bind upsert fun _ => alongPure _
  · exact .bind turn fun _ => .bind upsert fun _ => alongPure _
  · exact .bind upsert fun _ => alongIf (alongPure _) (alongPure _)

theorem received (party : Party) (message : RoundSignalMessage)
    (keeps : ∀ s t, Step s (.receiverReportedReceived party message) t → Q s t) :
    Along (OnSession Q) (Delivery.handleReceived hub env party message) := by
  refine .bind active fun _ => .bind (session (.receiverReportedReceived party message) keeps) fun _ => .bind alongGet fun room => ?_
  dsimp only
  generalize (if env.connected (otherParty party) then [Errand.tell (otherParty party) (.told (.received message))]
    else []) = relay
  split
  · exact .bind settle fun _ => alongPure _
  · exact .bind upsert fun _ => alongPure _
  · exact .bind turn fun _ => .bind upsert fun _ => alongPure _

theorem receiptAck (party : Party) (message : ReceiptAckMessage) (keeps : ∀ s t, Step s (.acknowledgeFinalReceipt party) t → Q s t) :
    Along (OnSession Q) (Delivery.handleReceiptAck hub env party message) :=
  .bind active fun _ => .bind alongGet fun _ => .bind (alongLift _) fun _ => .bind (alongLift _) fun _ =>
    .bind (alongLift _) fun _ => .bind (session (.acknowledgeFinalReceipt party) keeps) fun _ => .bind alongGet fun _ =>
      alongIf (.bind (issue _ _) fun _ => .bind turn fun _ => .bind upsert fun _ => alongPure _) (.bind upsert fun _ => alongPure _)

theorem run (locked : Locked) (keeps : ∀ op, locked.may op → ∀ s t, Step s op t → Q s t) :
    Along (OnSession Q) (locked.run hub env) := by
  cases locked with
  | sent party message => exact sent party message (keeps _ (by simp [Locked.may]))
  | received party message => exact received party message (keeps _ (by simp [Locked.may]))
  | tradeEphemeralKey clientId party message => exact .bind (onEntry fun _ => by cases party <;> rfl) fun _ => alongPure _
  | receiptAck party message => exact receiptAck party message (keeps _ (by simp [Locked.may]))
  | abort reason =>
      exact .bind alongGet fun _ =>
        alongIf (.bind (deactivate _ (keeps _ (by simp [Locked.may]))) fun _ => alongPure _) (alongPure _)
  | confirmFee =>
      exact .bind alongGet fun _ => alongIf
        (.bind (session .confirmFeeReceived (keeps _ (by simp [Locked.may]))) fun _ => .bind settle fun _ => alongPure _) (alongPure _)
  | disconnect =>
      exact .bind alongGet fun _ =>
        alongIf (.bind (deactivate _ (keeps _ (by simp [Locked.may]))) fun _ => alongPure _) (alongPure _)

theorem found (clientId : ClientId) (roomId : RoomId) : Along (OnSession Q) (findRoomFor clientId roomId) :=
  .bind alongGet fun _ => .bind (alongLift _) fun _ => alongLift _

theorem errand (errand : Errand) : Along (OnRooms (OnSession Q)) (errand.run hub env) := by
  have put (party : Party) (frame : RoomFrame) : Along (OnRooms (OnSession Q)) (Delivery.enqueue party frame) :=
    Moves.enqueue party frame
  have quiet {x : HubM Unit} (quiet : Emits (fun _ => True) x) : Along (OnRooms (OnSession Q)) (onRoom x) := alongRoom (emits quiet)
  cases errand with
  | recordTrade => exact .bind (quiet (.bind emitsGet fun _ => emitsEmit trivial)) fun _ => alongPure _
  | unpersist => exact .bind (quiet (emitsRemove trivial)) fun _ => alongPure _
  | erase => exact .bind (quiet (emitsErase trivial)) fun _ => alongPure _
  | lookUp frame => exact .bind (alongLift _) fun _ => .bind alongGet fun _ => alongPure _
  | tell party frame => exact .bind (alongLift _) fun _ => .bind (put _ _) fun _ => alongPure _
  | put party frame => exact .bind (put _ _) fun _ => alongPure _

theorem start (call : Hub.Call) : Along (OnRooms (OnSession Q)) (Delivery.start call) := by
  cases call with
  | tradeEphemeralKey clientId message =>
      exact .bind (alongLift _) fun _ => .bind (alongLift _) fun _ => .bind (alongRoom (found _ _)) fun _ => alongPure _
  | confirmFee roomId => exact .bind alongGet fun _ => alongPure _
  | disconnect clientId =>
      exact .bind (alongModify fun s => Std.Refl.refl s.room) fun _ => .bind alongGet fun _ =>
        alongIf (.bind (alongRoom (emits (emitsErase (P := fun _ => True) trivial))) fun _ => alongPure _) (alongPure _)
  | _ => exact .bind (alongRoom (found _ _)) fun _ => alongPure _

theorem thread (hub : HubConfig) (env : HubEnv) (thread : Thread)
    (keeps : ∀ op, (op = .confirmFeeReceived → thread = .locking .confirmFee) → ∀ s t, Step s op t → Q s t) :
    Along (OnRooms (OnSession Q)) (thread.run hub env) := by
  cases thread with
  | starting call => exact start call
  | relaying clientId message => exact .bind (alongRoom (found _ _)) fun _ => alongPure _
  | handingOn party message => exact .bind alongGet fun _ => .bind (alongLift _) fun _ => alongPure _
  | locking locked =>
      exact .bind alongGet fun _ => alongRoom (run locked fun op may => keeps op fun confirms => by rw [may confirms])
  | telling errands =>
      cases errands with
      | nil => exact alongPure _
      | cons errand rest => exact .bind (Follows.errand errand) fun _ => alongPure _
  | persisting => exact .bind (alongRoom upsert) fun _ => alongPure _
  | announcing => exact .bind alongGet fun _ => .bind (alongLift _) fun _ => .bind (alongLift _) fun _ => alongPure _
  | announced waiting =>
      cases waiting with
      | nil => exact .bind (alongRoom turn) fun _ => alongPure _
      | cons now later => exact .bind (alongLift _) fun _ => .bind (Moves.enqueue _ _) fun _ => alongPure _

end Follows

/-! Whose fee a handler is about to confirm. -/

def Thread.confirms (id : Option RoomId) : Thread → Option RoomId
  | .starting (.confirmFee roomId) => some roomId
  | .locking .confirmFee => id
  | _ => none

def Settles (next : Thread) : Prop := ∀ id, next.confirms id = none

theorem lockedNext (hub : HubConfig) (env : HubEnv) (locked : Locked) : Returns Settles (locked.run hub env) := by
  have told (errands : List Errand) : Returns Settles (pure (.telling errands) : HubM Thread) := returnsPure fun _ => rfl
  cases locked with
  | sent party message =>
      refine .bind fun _ => .bind fun _ => .bind fun room => ?_
      split
      · exact .bind fun _ => told _
      · exact .bind fun _ => .bind fun _ => told _
      · exact .bind fun _ => .bind fun _ => told _
      · exact .bind fun _ => returnsIf (told _) (returnsPure fun _ => rfl)
  | received party message =>
      refine .bind fun _ => .bind fun _ => .bind fun room => ?_
      dsimp only
      split
      · exact .bind fun _ => told _
      · exact .bind fun _ => told _
      · exact .bind fun _ => .bind fun _ => told _
  | tradeEphemeralKey clientId party message => exact .bind fun _ => returnsPure fun _ => rfl
  | receiptAck party message =>
      exact .bind fun _ => .bind fun _ => .bind fun _ => .bind fun _ => .bind fun _ => .bind fun _ => .bind fun _ =>
        returnsIf (.bind fun _ => .bind fun _ => .bind fun _ => told _) (.bind fun _ => told _)
  | abort reason => exact .bind fun _ => returnsIf (.bind fun _ => told _) (told _)
  | confirmFee => exact .bind fun _ => returnsIf (.bind fun _ => .bind fun _ => told _) (told _)
  | disconnect => exact .bind fun _ => returnsIf (.bind fun _ => told _) (told _)

theorem startNext (call : Hub.Call) (other : ∀ id, call ≠ .confirmFee id) : Returns Settles (start call) := by
  cases call with
  | confirmFee id => exact absurd rfl (other id)
  | tradeEphemeralKey clientId message => exact .bind fun _ => .bind fun _ => .bind fun _ => returnsPure fun _ => rfl
  | disconnect clientId =>
      exact .bind fun _ => .bind fun _ => returnsIf (.bind fun _ => returnsPure fun _ => rfl) (returnsPure fun _ => rfl)
  | _ => exact .bind fun _ => returnsPure fun _ => rfl

theorem threadNext (hub : HubConfig) (env : HubEnv) (thread : Thread) (s : Shared) :
    Ensures (thread.run hub env) s (fun next _ => ∀ id, next.confirms (some s.room.entry.id) = some id →
      thread.confirms (some s.room.entry.id) = some id) (fun _ _ => True) := by
  by_cases confirm : ∃ id, thread = .starting (.confirmFee id)
  · obtain ⟨roomId, rfl⟩ := confirm
    simp only [Thread.run, start, ensuresBind, ensuresGet, ensuresPure]
    split
    next found => exact fun id here => by simpa [Thread.confirms, found.2] using here
    next => exact fun id here => by cases here
  · have settles : Returns Settles (thread.run hub env) := by
      cases thread with
      | starting call => exact startNext call fun id is => confirm ⟨id, by rw [is]⟩
      | locking locked => exact .bind fun _ => returnsRoom (lockedNext hub _ locked)
      | telling errands =>
          cases errands with
          | nil => exact returnsPure fun _ => rfl
          | cons errand rest => exact .bind fun _ => returnsPure fun _ => rfl
      | announcing => exact .bind fun _ => .bind fun _ => .bind fun _ => returnsPure fun _ => rfl
      | announced waiting =>
          cases waiting with
          | nil => exact .bind fun _ => returnsPure fun _ => rfl
          | cons now later => exact .bind fun _ => .bind fun _ => returnsPure fun _ => rfl
      | relaying | persisting => exact .bind fun _ => returnsPure fun _ => rfl
      | handingOn => exact .bind fun _ => .bind fun _ => returnsPure fun _ => rfl
    exact (settles s).weaken (fun next _ _ none_ id here => by simp [none_ _] at here) fun _ _ _ _ => trivial

end Delivery

namespace Lobby
open Delivery (Settles)

def Tables.idAt (s : Tables) (place : Nat) : Option RoomId := (s.entries[place]?).map RoomEntry.id

/- The room whose fee a task is about to confirm. -/
def Task.confirms (s : Tables) : Task → Option RoomId
  | .serving _ (.room request) => request.thread.confirms none
  | .room place _ thread | .removing place _ thread _ => thread.confirms (s.idAt place)
  | _ => none

def SessionAt (place : Nat) (Q : MediatorSession → MediatorSession → Prop) (s u : Tables) : Prop :=
  ∀ room, s.entries[place]? = some room → ∃ room', u.entries[place]? = some room' ∧ Q room.session room'.session

/- What a task does to the session of one room. The fee of the hub it leaves alone. -/
structure AtPlace (place : Nat) (Q : MediatorSession → MediatorSession → Prop) (s u : Tables) : Prop where
  fee : u.fee = s.fee
  session : SessionAt place Q s u

section Steps
variable {place : Nat} {Q : MediatorSession → MediatorSession → Prop} {config : LobbyConfig} {env : LobbyEnv} {s u : Tables}

theorem Keeps.idAt (keeps : Keeps s u) {q : Nat} {id : RoomId} (named : s.idAt q = some id) : u.idAt q = some id := by
  obtain ⟨room, there, rfl⟩ := Option.map_eq_some_iff.mp named
  obtain ⟨room', there', same⟩ := keeps.entries q room there
  rw [Tables.idAt, there', Option.map_some]
  exact congrArg (fun identity => some identity.id) same

theorem recordFee {now : UInt64} {id : RoomId} (effects : List Effect) : (effects.foldl (Tables.record now id) s).fee = s.fee := by
  induction effects generalizing s with
  | nil => rfl
  | cons effect rest ih =>
    rw [List.foldl_cons, ih]
    cases effect <;> rfl

theorem writtenFee {now : UInt64} (q : Nat) (receivers : Receivers) (after : Delivery.Shared) :
    (s.written q receivers now after).fee = s.fee := by
  have deliverFee (receiver : Option Nat) (frames : List RoomFrame) (t : Tables) : (t.deliver receiver frames).fee = t.fee := by
    cases receiver <;> rfl
  simp only [Tables.written, deliverFee, recordFee]

theorem requestThread (request : Delivery.Request) : request.thread ≠ .locking .confirmFee := by
  cases request <;> simp [Delivery.Request.thread]

section Refl
variable [Std.Refl Q]

instance atPlaceRefl : Std.Refl (AtPlace place Q) where
  refl _ := ⟨rfl, fun room there => ⟨room, there, Std.Refl.refl _⟩⟩

theorem sessionFront (front : s.entries <+: u.entries) : SessionAt place Q s u := by
  intro room there
  obtain ⟨more, entries⟩ := front
  refine ⟨room, ?_, Std.Refl.refl _⟩
  rw [← entries, List.getElem?_append_left (List.getElem?_eq_some_iff.mp there).1, there]

theorem sameEntries (fee : u.fee = s.fee) (entries : u.entries = s.entries) : AtPlace place Q s u :=
  ⟨fee, sessionFront (entries ▸ List.prefix_rfl)⟩

theorem createAt (n : Nat) (message : CreateOfferMessage) : Along (AtPlace place Q) (handleCreateOffer env n message) := by
  intro s
  have stays : AtPlace place Q s s := Std.Refl.refl s
  simp only [handleCreateOffer, ensuresBind, ensuresGet, ensuresLift, ensuresSet, ensuresPure]
  exact ⟨fun _ _ => ⟨fun _ _ => ⟨fun _ _ => ⟨fun _ _ => sameEntries rfl rfl, fun _ _ => stays⟩, fun _ _ => stays⟩, fun _ _ => stays⟩, fun _ _ => stays⟩

theorem joinAt (n : Nat) (message : JoinOfferMessage) : Along (AtPlace place Q) (handleJoinOffer config n message) := by
  intro s
  have stays : AtPlace place Q s s := Std.Refl.refl s
  simp only [handleJoinOffer, ensuresBind, ensuresGet]
  split
  · exact stays
  · simp only [ensuresBind, ensuresLift]
    refine ⟨fun _ _ => ⟨fun _ _ => ?_, fun _ _ => stays⟩, fun _ _ => stays⟩
    split
    · exact sameEntries rfl rfl
    · simp only [ensuresBind, ensuresLift, ensuresSet, ensuresPure]
      exact ⟨fun room _ => ⟨rfl, sessionFront (List.prefix_append _ _)⟩, fun _ _ => stays⟩

theorem cancelAt (n : Nat) (message : CancelOfferMessage) : Along (AtPlace place Q) (handleCancelOffer n message) := by
  intro s
  have stays : AtPlace place Q s s := Std.Refl.refl s
  simp only [handleCancelOffer, ensuresBind, ensuresGet]
  split
  · exact stays
  · simp only [ensuresBind, ensuresLift, ensuresSet, ensuresPure]
    exact ⟨fun _ _ => sameEntries rfl rfl, fun _ _ => stays⟩

theorem removeClientAt (n : Nat) : Along (AtPlace place Q) (removeClient n) := by
  intro s
  simp only [removeClient, ensuresBind, ensuresGet, ensuresSet, ensuresPure]
  exact sameEntries rfl rfl

end Refl

instance atPlaceTrans [Trans Q Q Q] : Trans (AtPlace place Q) (AtPlace place Q) (AtPlace place Q) where
  trans before after := by
    refine ⟨after.fee.trans before.fee, fun room there => ?_⟩
    obtain ⟨room', there', moved⟩ := before.session room there
    obtain ⟨room'', there'', more⟩ := after.session room' there'
    exact ⟨room'', there'', Trans.trans moved more⟩

variable [Std.Refl Q] [Trans Q Q Q]

theorem recoverAt (n q : Nat) (response : RecoveryStateResponseMessage) (stage : RecoveryStage) :
    Along (AtPlace place Q) (recover n q response stage) := by
  refine .bind alongGet fun s => ?_
  split
  · exact alongThrow _
  · cases stage <;> exact alongPure _

theorem recoveryStateAt (n : Nat) (message : RecoveryStateRequestMessage) :
    Along (AtPlace place Q) (handleRecoveryStateRequest n message) := by
  refine .bind alongGet fun s => ?_
  split <;> exact alongPure _

theorem answerAt (n : Nat) (frame : Outgoing) : Along (AtPlace place Q) (answer n frame) :=
  .bind (alongLift _) fun _ => .bind (alongModify fun _ => sameEntries rfl rfl) fun _ => alongPure _

theorem runRoomAt (q : Nat) (receivers : Receivers) (thread : Delivery.Thread)
    (keeps : q = place → ∀ op, (op = .confirmFeeReceived → thread = .locking .confirmFee) → ∀ x y, Step x op y → Q x y) :
    Along (AtPlace place Q) (runRoom config env q receivers thread) := by
  intro s
  rw [runRoom, ensuresBind, ensuresGet]
  split
  · exact Std.Refl.refl (r := AtPlace place Q) s
  · rename_i room there
    dsimp only
    generalize (if looksUp thread then s.receivers room else receivers) = found
    have written (after : Delivery.Shared) (moved : q = place → Q room.session after.room.entry.session) :
        AtPlace place Q s (s.written q found env.hub.now after) := by
      refine ⟨writtenFee q found after, fun entry inside => ?_⟩
      rw [writtenEntries]
      by_cases here : q = place
      · subst here
        obtain rfl := Option.some.inj (there.symm.trans inside)
        exact ⟨_, List.getElem?_set_self (List.getElem?_eq_some_iff.mp there).1, moved rfl⟩
      · exact ⟨entry, (List.getElem?_set_ne here).trans inside, Std.Refl.refl _⟩
    have follows (here : q = place) := Delivery.Follows.thread config.hub env.hub thread (keeps here)
      (s.view q room found)
    unfold Ensures at follows
    split
    · rename_i next after ran
      rw [ran] at follows
      exact written after follows
    · rename_i e after ran
      rw [ran] at follows
      exact written after follows

/- A step changes the session in a room by operations, and confirms a fee only in the room it is about. -/
theorem taskAt (config : LobbyConfig) (env : LobbyEnv) (task : Task) (s : Tables)
    (keeps : ∀ op, (op = .confirmFeeReceived → task.confirms s = s.idAt place) → ∀ x y, Step x op y → Q x y) :
    Ensures (task.run config env) s (fun _ u => AtPlace place Q s u) (fun _ u => AtPlace place Q s u) := by
  have room (q : Nat) (receivers : Receivers) (thread : Delivery.Thread)
      (own : thread = .locking .confirmFee → q = place → task.confirms s = s.idAt place) :
      Along (AtPlace place Q) (runRoom config env q receivers thread) :=
    runRoomAt q receivers thread fun here op may => keeps op fun confirms => own (may confirms) here
  cases task with
  | idle => exact alongPure _ s
  | serving n request =>
    cases request with
    | createOffer message => exact createAt n message s
    | listOffers message => exact (Along.bind alongGet fun _ => alongPure _) s
    | joinOffer message => exact joinAt n message s
    | cancelOffer message => exact cancelAt n message s
    | recoveryState message => exact recoveryStateAt n message s
    | getCandles message => exact (Along.bind alongGet fun _ => alongPure _) s
    | unreadable e => exact alongThrow _ s
    | room request =>
      simp only [Task.run, serve, handleRoom, ensuresBind, ensuresGet]
      split
      · exact alongLift _ s
      · exact (Along.bind (room _ _ _ fun is => absurd is (requestThread request)) fun _ => alongPure _) s
  | answering n frame => exact answerAt n frame s
  | recovering n q stage response => exact recoverAt n q response stage s
  | room q receivers thread =>
    refine (Along.bind (room q receivers thread fun is here => ?_) fun _ => alongPure _) s
    rw [Task.confirms, is, here]
    rfl
  | leaving n => exact removeClientAt n s
  | removing q receivers thread rest =>
    refine (Along.bind (room q receivers thread fun is here => ?_) fun _ => alongPure _) s
    rw [Task.confirms, is, here]
    rfl

end Steps

/-! Where a confirmation comes from. -/
section Asking
variable {config : LobbyConfig} {env : LobbyEnv} {s u : Tables}

def Unasked (next : Task) : Prop := ∀ u, next.confirms u = none

theorem removalUnasked (rooms : List Nat) : Unasked (removal rooms) := by
  cases rooms <;> exact fun _ => rfl

theorem runRoomNext (q : Nat) (receivers : Receivers) (thread : Delivery.Thread) :
    Ensures (runRoom config env q receivers thread) s (fun next u => ∀ v, Keeps u v → ∀ id, next.2.confirms (v.idAt q) = some id →
      thread.confirms (s.idAt q) = some id) (fun _ _ => True) := by
  rw [runRoom, ensuresBind, ensuresGet]
  split
  · trivial
  · rename_i room there
    dsimp only
    generalize (if looksUp thread then s.receivers room else receivers) = found
    have named : s.idAt q = some room.id := by rw [Tables.idAt, there, Option.map_some]
    have same := Delivery.sameThread config.hub env.hub thread (s.view q room found)
    have confirms := Delivery.threadNext config.hub env.hub thread (s.view q room found)
    unfold Ensures at same confirms
    split
    · rename_i next after ran
      rw [ran] at same confirms
      intro v keeps id here
      rw [((keepsTouched (touchedWritten there same)).trans keeps).idAt named] at here
      rw [named]
      exact confirms id here
    · trivial

theorem roomTaskConfirms {q : Nat} {receivers : Receivers} {next : Delivery.Thread} {id : RoomId}
    (confirms : (roomTask q receivers next).confirms u = some id) : next.confirms (u.idAt q) = some id := by
  unfold roomTask at confirms
  split at confirms
  · cases confirms
  · exact confirms

theorem requestConfirms (request : Delivery.Request) (id : Option RoomId) : request.thread.confirms id = request.thread.confirms none := by
  cases request with
  | call made => cases made <;> rfl
  | relay clientId message => rfl

/- A task confirms the fee of no other room than the one it was begun for, also in later tables. -/
def Onward (task : Task) (s : Tables) (next : Task) (u : Tables) : Prop :=
  ∀ v, Keeps u v → ∀ id, next.confirms v = some id → task.confirms s = some id

theorem taskNext (config : LobbyConfig) (env : LobbyEnv) (task : Task) (s : Tables) :
    Ensures (task.run config env) s (Onward task s) (fun _ _ => True) := by
  have none_ {x : TablesM Task} (unasked : Returns Unasked x) : Ensures x s (Onward task s) (fun _ _ => True) :=
    (unasked s).weaken (fun next u _ unasked v _ id here => by simp [unasked v] at here) fun _ _ _ _ => trivial
  have told {n : Nat} {frame : Outgoing} : Returns Unasked (pure (.answering n frame) : TablesM Task) := returnsPure fun _ => rfl
  cases task with
  | idle => exact none_ (returnsPure fun _ => rfl)
  | serving n request =>
    cases request with
    | room request =>
      simp only [Task.run, serve, handleRoom, ensuresBind, ensuresGet]
      split
      · rw [ensuresLift]
        refine ⟨fun next ok v _ id here => ?_, fun _ _ => trivial⟩
        rw [missingIdle ok] at here
        cases here
      · simp only [ensuresBind, ensuresPure]
        refine (runRoomNext _ _ _).weaken (fun next u _ confirms v keeps id here => ?_) fun _ _ _ _ => trivial
        rw [Task.confirms, ← requestConfirms]
        exact confirms v keeps id (roomTaskConfirms here)
    | createOffer message => exact none_ (.bind fun _ => .bind fun _ => .bind fun _ => .bind fun _ => .bind fun _ => .bind fun _ => told)
    | listOffers message => exact none_ (.bind fun _ => told)
    | joinOffer message =>
      refine none_ (.bind fun s => ?_)
      split
      · exact fun _ => trivial
      · refine .bind fun _ => .bind fun _ => ?_
        dsimp only
        split
        · exact .bind fun _ _ => trivial
        · exact .bind fun _ => .bind fun _ => returnsPure fun _ => rfl
    | cancelOffer message =>
      refine none_ (.bind fun s => ?_)
      split
      · exact fun _ => trivial
      · exact .bind fun _ => .bind fun _ => told
    | recoveryState message =>
      refine none_ (.bind fun s => ?_)
      split <;> exact returnsPure fun _ => rfl
    | getCandles message => exact none_ (.bind fun _ => told)
    | unreadable e => exact none_ fun _ => trivial
  | answering n frame => exact none_ (.bind fun _ => .bind fun _ => returnsPure fun _ => rfl)
  | recovering n q stage response =>
    refine none_ (.bind fun s => ?_)
    split
    · exact fun _ => trivial
    · cases stage <;> exact returnsPure fun _ => rfl
  | room q receivers thread =>
    simp only [Task.run, ensuresBind, ensuresPure]
    exact (runRoomNext q receivers thread).weaken
      (fun next u _ confirms v keeps id here => confirms v keeps id (roomTaskConfirms here)) fun _ _ _ _ => trivial
  | leaving n => exact none_ (.bind fun _ => .bind fun _ => returnsPure (removalUnasked _))
  | removing q receivers thread rest =>
    simp only [Task.run, ensuresBind, ensuresPure]
    refine (runRoomNext q receivers thread).weaken (fun next u _ confirms v keeps id here => confirms v keeps id ?_)
      fun _ _ _ _ => trivial
    split at here
    · simp [removalUnasked rest v] at here
    · exact here

end Asking

/-! Runs. -/

/- What everybody but an operator can do to a session whose fee is to be confirmed, and what they can do to its fee. -/
structure Stays (x y : MediatorSession) : Prop where
  fee : y.fee = x.fee
  waits : x.state = .waitingForFeeConfirmation ∨ x.state = .aborted → y = x ∨ y.state = .aborted

/- What anybody can. -/
structure SameFee (x y : MediatorSession) : Prop where
  fee : y.fee = x.fee

instance staysRefl : Std.Refl Stays where
  refl _ := ⟨rfl, fun _ => .inl rfl⟩

instance staysTrans : Trans Stays Stays Stays where
  trans before after := by
    refine ⟨after.fee.trans before.fee, fun waits => ?_⟩
    rcases before.waits waits with rfl | aborted
    · exact after.waits waits
    · rcases after.waits (.inr aborted) with rfl | aborted
      · exact .inr aborted
      · exact .inr aborted

instance sameFeeRefl : Std.Refl SameFee where
  refl _ := ⟨rfl⟩

instance sameFeeTrans : Trans SameFee SameFee SameFee where
  trans before after := ⟨after.fee.trans before.fee⟩

theorem stepSameFee {op : Operation} {x y : MediatorSession} (step : Step x op y) : SameFee x y := ⟨step.same.fee⟩

theorem stepStays {op : Operation} {x y : MediatorSession} (other : op ≠ .confirmFeeReceived) (step : Step x op y) : Stays x y := by
  refine ⟨step.same.fee, fun waits => ?_⟩
  cases step with
  | confirmed waiting => exact absurd rfl other
  | aborted reason unfinished => exact .inr rfl
  | _ => simp_all

section Fired
variable {config : LobbyConfig} {s u : State} {event : Event} {place : Nat}

/- What a step does to the session at a place, if whoever confirms a fee there has asked for it. -/
theorem fireAt {Q : MediatorSession → MediatorSession → Prop} [Std.Refl Q] [Trans Q Q Q] (fired : fire config s event = some u)
    (keeps : ∀ op, (op = .confirmFeeReceived → ∃ worker, (s.tasks worker).confirms s.tables = s.tables.idAt place) →
      ∀ x y, Step x op y → Q x y) : SessionAt place Q s.tables u.tables ∧ ((∀ fee, event ≠ .setsFee fee) → u.tables.fee = s.tables.fee) := by
  have same {tables : Tables} (entries : tables.entries = s.tables.entries) : SessionAt place Q s.tables tables :=
    sessionFront (entries ▸ List.prefix_rfl)
  cases event with
  | connects id | receives n request | confirmsFee operator roomId | leaves n =>
    simp only [fire, Option.ite_none_right_eq_some, Option.some.injEq] at fired
    obtain ⟨_, rfl⟩ := fired
    exact ⟨same rfl, fun _ => rfl⟩
  | setsFee fee =>
    obtain rfl := Option.some.inj fired
    exact ⟨same rfl, fun other => absurd rfl (other fee)⟩
  | hangsUp n =>
    obtain rfl := Option.some.inj fired
    exact ⟨same rfl, fun _ => rfl⟩
  | acts worker env =>
    simp only [fire, Option.ite_none_right_eq_some] at fired
    obtain ⟨_, fired⟩ := fired
    have moved := taskAt config env (s.tasks worker) s.tables fun op may => keeps op fun confirms => ⟨worker, may confirms⟩
    unfold Ensures at moved
    split at fired
    next task tables ran =>
      rw [ran] at moved
      obtain rfl := Option.some.inj fired
      exact ⟨moved.session, fun _ => moved.fee⟩
    next e tables ran =>
      rw [ran] at moved
      cases worker with
      | client n =>
        simp only [State.thrown, Option.ite_none_left_eq_some, Option.some.injEq] at fired
        obtain ⟨_, rfl⟩ := fired
        cases e <;> exact ⟨moved.session, fun _ => moved.fee⟩
      | operator n =>
        obtain rfl := Option.some.inj fired
        exact ⟨moved.session, fun _ => moved.fee⟩

theorem fireFee (fired : fire config s event = some u) (other : ∀ fee, event ≠ .setsFee fee) : u.tables.fee = s.tables.fee := by
  have moved : SessionAt 0 SameFee s.tables u.tables ∧ ((∀ fee, event ≠ .setsFee fee) → u.tables.fee = s.tables.fee) :=
    fireAt fired fun _ _ _ _ step => stepSameFee step
  exact moved.2 other

/- Whoever is about to confirm a fee is an operator, and asked to. -/
def Asked (asked : Nat → RoomId → Prop) (s : State) : Prop :=
  ∀ v, Keeps s.tables v → ∀ worker id, (s.tasks worker).confirms v = some id → ∃ operator, worker = .operator operator ∧ asked operator id

variable {asked : Nat → RoomId → Prop}

theorem Asked.put (held : Asked asked s) {tables : Tables} (keeps : Keeps s.tables tables) {worker : Worker} {task : Task}
    (own : ∀ v, Keeps tables v → ∀ id, task.confirms v = some id → ∃ operator, worker = .operator operator ∧ asked operator id) :
    Asked asked (s.put tables worker task) := by
  intro v later other id here
  simp only [State.put, Function.update_apply] at here
  split at here
  next is =>
    subst is
    exact own v later id here
  next => exact held v (keeps.trans later) other id here

theorem clientConfirms {id : ClientId} {request : Request} (own : request.mayComeFrom id = true) (n : Nat) :
    Unasked (.serving n request) := by
  cases request with
  | room request =>
    cases request with
    | call made => cases made <;> first | exact fun _ => rfl | simp [Request.mayComeFrom, Delivery.Request.by, Delivery.Request.clientId] at own
    | relay clientId message => exact fun _ => rfl
  | _ => exact fun _ => rfl

theorem fireAsked (held : Asked asked s) (fired : fire config s event = some u)
    (asks : ∀ operator id, event = .confirmsFee operator id → asked operator id) : Asked asked u := by
  have unasked {task : Task} (none_ : Unasked task) {tables : Tables} {worker : Worker} : ∀ v, Keeps tables v → ∀ id,
      task.confirms v = some id → ∃ operator, worker = .operator operator ∧ asked operator id :=
    fun v _ id here => by simp [none_ v] at here
  have keeps := fireKeeps fired
  have sameTasks (tasks : u.tasks = s.tasks) : Asked asked u := fun v later worker id here =>
    held v (keeps.trans later) worker id (tasks ▸ here)
  cases event with
  | connects id =>
    simp only [fire, Option.ite_none_right_eq_some, Option.some.injEq] at fired
    obtain ⟨_, rfl⟩ := fired
    exact sameTasks rfl
  | receives n request =>
    simp only [fire, Option.ite_none_right_eq_some, Option.some.injEq] at fired
    obtain ⟨⟨_, _, _, own⟩, rfl⟩ := fired
    exact held.put keeps (unasked (clientConfirms own n))
  | leaves n =>
    simp only [fire, Option.ite_none_right_eq_some, Option.some.injEq] at fired
    obtain ⟨_, rfl⟩ := fired
    exact held.put keeps (unasked fun _ => rfl)
  | confirmsFee operator roomId =>
    simp only [fire, Option.ite_none_right_eq_some, Option.some.injEq] at fired
    obtain ⟨_, rfl⟩ := fired
    refine held.put keeps fun v _ id here => ⟨operator, rfl, ?_⟩
    cases here
    exact asks operator roomId rfl
  | setsFee fee | hangsUp n =>
    obtain rfl := Option.some.inj fired
    exact sameTasks rfl
  | acts worker env =>
    have served := taskNext config env (s.tasks worker) s.tables
    unfold Ensures at served
    simp only [fire, Option.ite_none_right_eq_some] at fired
    obtain ⟨_, fired⟩ := fired
    split at fired
    next task tables ran =>
      rw [ran] at served
      obtain rfl := Option.some.inj fired
      refine held.put keeps fun v later id here => ?_
      exact held s.tables keepsRefl worker id (served v later id here)
    next e tables ran =>
      cases worker with
      | client n =>
        simp only [State.thrown, Option.ite_none_left_eq_some, Option.some.injEq] at fired
        obtain ⟨_, rfl⟩ := fired
        exact held.put keeps (unasked fun _ => rfl)
      | operator n =>
        obtain rfl := Option.some.inj fired
        exact held.put keeps (unasked fun _ => rfl)

theorem startAsked (started : Started config s) : Asked asked s := by
  have idle : s.tasks = fun _ => .idle := by
    cases started with
    | opened fee => rfl
    | reloaded fee file s read =>
      simp only [reload, bind_ok, pure_ok] at read
      obtain ⟨rooms, _, rfl⟩ := read
      rfl
  intro v _ worker id here
  rw [idle] at here
  cases here

/- What lasts of a room: its id, and the fee that was in force when it was made. -/
def RoomsStay (s u : Tables) : Prop :=
  ∀ (place : Nat) room, s.entries[place]? = some room →
    ∃ room', u.entries[place]? = some room' ∧ room'.id = room.id ∧ SameFee room.session room'.session

theorem fireStays (fired : fire config s event = some u) : RoomsStay s.tables u.tables := by
  intro place room there
  obtain ⟨room', there', same⟩ := (fireAt (Q := SameFee) fired fun _ _ _ _ step => stepSameFee step).1 room there
  have named : s.tables.idAt place = some room.id := by rw [Tables.idAt, there, Option.map_some]
  have id := (fireKeeps fired).idAt named
  rw [Tables.idAt, there', Option.map_some] at id
  exact ⟨room', there', Option.some.inj id, same⟩

/- A fee that is to be confirmed: the room waits on, or it was aborted, or an operator who had asked for it confirmed it. -/
theorem fireWaits (held : Asked asked s) (fired : fire config s event = some u) {room : RoomEntry}
    (there : s.tables.entries[place]? = some room) :
    ∃ room', u.tables.entries[place]? = some room' ∧ (Stays room.session room'.session ∨ ∃ operator, asked operator room.id) := by
  have named : s.tables.idAt place = some room.id := by rw [Tables.idAt, there, Option.map_some]
  by_cases confirms : ∃ worker, (s.tasks worker).confirms s.tables = s.tables.idAt place
  · obtain ⟨worker, here⟩ := confirms
    obtain ⟨operator, _, asks⟩ := held s.tables keepsRefl worker room.id (here.trans named)
    obtain ⟨room', there', _⟩ := fireStays fired place room there
    exact ⟨room', there', .inr ⟨operator, asks⟩⟩
  · have other : ∀ op, (op = Operation.confirmFeeReceived → ∃ worker, (s.tasks worker).confirms s.tables = s.tables.idAt place) →
        ∀ x y, Step x op y → Stays x y := fun op may x y step => stepStays (fun is => confirms (may is)) step
    obtain ⟨room', there', stays⟩ := (fireAt fired other).1 room there
    exact ⟨room', there', .inl stays⟩

end Fired
end Lobby
end TradeP2P
