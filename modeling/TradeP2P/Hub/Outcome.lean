import TradeP2P.Hub.Room
import TradeP2P.Mediator.Progress

/-! What a call can do to a room, whether it returns or throws: everything later results say about
runs is read off these few outcomes. -/
namespace TradeP2P
open Wire (Bytes ascii)
open Checks Machine
open MediatorSession (Operation Step)

def settlementByte : UInt8 := ReceiptStage.settlementCompleted.toByte

/- The effects that tell the outside that a trade was settled. -/
def Effect.closes : Effect → Bool
  | .issued receipt => receipt.fields.stage = settlementByte
  | .recordedTrade _ => true
  | .enqueued _ (.complete _) => true
  | .enqueued _ (.receiptIssued receipt) => receipt.fields.stage = settlementByte
  | _ => false

def Effect.receipt? : Effect → Option IssuedReceipt
  | .issued receipt => some receipt
  | _ => none

def Room.issuedReceipts (room : Room) : List IssuedReceipt := room.effects.filterMap Effect.receipt?

-- The room after these operations on its session, whether they were accepted or not.
def RoomEntry.after (room : RoomEntry) (operations : List Operation) : RoomEntry :=
  { room with session := exec MediatorSession.perform room.session operations }

theorem rejectedOk {α : Type} {x : Except Error α} {a : α} : rejected x = .ok a ↔ x = .ok a := by
  cases x <;> simp [rejected, Except.mapError]

namespace Hub

def Receiptless (effect : Effect) : Prop := effect.receipt? = none
def Quiet (effect : Effect) : Prop := effect.receipt? = none ∧ effect.closes = false

/- Nothing but effects of a kind are added. -/
structure Grows (P : Effect → Prop) (s t : Room) : Prop where
  entry : t.entry = s.entry
  effects : ∃ new, t.effects = s.effects ++ new ∧ ∀ effect ∈ new, P effect

def Emits {α : Type} (P : Effect → Prop) (x : HubM α) : Prop :=
  ∀ s, Ensures x s (fun _ t => Grows P s t) (fun _ t => Grows P s t)

section Emitting
variable {α β : Type} {P : Effect → Prop} {s t u : Room}

theorem Grows.refl : Grows P s s := ⟨rfl, [], by simp, by simp⟩

theorem Grows.trans (first : Grows P s t) (second : Grows P t u) : Grows P s u := by
  obtain ⟨_, front, effects, kind⟩ := first
  obtain ⟨_, back, effects', kind'⟩ := second
  refine ⟨by simp [*], front ++ back, by simp [*], ?_⟩
  intro effect mem
  rcases List.mem_append.mp mem with before | after
  · exact kind effect before
  · exact kind' effect after

theorem Emits.bind {x : HubM α} {k : α → HubM β} (first : Emits P x) (second : ∀ a, Emits P (k a)) :
    Emits P (x >>= k) := by
  intro s
  rw [ensuresBind]
  refine (first s).weaken (fun a t _ grows => ?_) (fun _ _ _ grows => grows)
  exact (second a t).weaken (fun _ _ _ more => grows.trans more) (fun _ _ _ more => grows.trans more)

theorem emitsPure (a : α) : Emits P (pure a : HubM α) := fun _ => .refl
theorem emitsThrow (e : HubError) : Emits P (throw e : HubM α) := fun _ => .refl
theorem emitsGet : Emits P (get : HubM Room) := fun _ => .refl

theorem emitsLift (x : Except HubError α) : Emits P (liftM x : HubM α) := by
  intro s
  rw [ensuresLift]
  exact ⟨fun _ _ => .refl, fun _ _ => .refl⟩

theorem emitsIf {c : Prop} [Decidable c] {x y : HubM α} (yes : Emits P x) (no : Emits P y) :
    Emits P (if c then x else y) := by
  split
  · exact yes
  · exact no

theorem emitsEmit {effect : Effect} (kind : P effect) : Emits P (emit effect) := by
  intro s
  exact ⟨rfl, [effect], rfl, by simpa using kind⟩

variable {hub : HubConfig} {env : HubEnv}

theorem emitsUpsert (kind : ∀ snapshot, P (.persisted snapshot)) : Emits P (persistRoomUpsert hub env) := by
  unfold persistRoomUpsert
  refine emitsIf (.bind emitsGet fun room => .bind (emitsEmit (kind _)) fun _ => ?_) (emitsPure _)
  cases env.persistFault with
  | some e => exact emitsThrow _
  | none => exact emitsPure _

theorem emitsRemove (kind : P .unpersisted) : Emits P (persistRoomRemove hub env) := by
  unfold persistRoomRemove
  refine emitsIf (.bind (emitsEmit kind) fun _ => ?_) (emitsPure _)
  cases env.removeFault with
  | some e => exact emitsThrow _
  | none => exact emitsPure _

theorem emitsErase (kind : P .erased) : Emits P eraseRoom := by
  intro s
  exact ⟨rfl, [.erased], rfl, by simpa using kind⟩

theorem emitsEnqueue {party : Party} {frame : Frame} (kind : P (.enqueued party frame)) :
    Emits P (enqueue env party frame) :=
  emitsIf (emitsEmit kind) (emitsPure _)

theorem emitsSend {frame : Frame} (kind : ∀ party, P (.enqueued party frame)) : Emits P (sendToRoom env frame) :=
  .bind (emitsLift _) fun _ => .bind (emitsEnqueue (kind _)) fun _ => emitsEnqueue (kind _)

theorem emitsCurrentTurn : Emits P currentTurn := .bind emitsGet fun _ => emitsLift _

theorem emitsAnnounceCompletion (receipt : IssuedReceipt) : Emits Receiptless (announceCompletion hub env receipt) :=
  .bind emitsGet fun _ => .bind (emitsEmit rfl) fun _ => .bind (emitsRemove rfl) fun _ =>
    .bind (emitsErase rfl) fun _ => .bind (emitsSend fun _ => rfl) fun _ => emitsSend fun _ => rfl

end Emitting

/-! Outcomes. -/

-- The operation a call performs on the session.
def Drives (room : RoomEntry) : Call → Operation → Prop
  | .sent clientId message, op => ∃ party, room.partyFor clientId = .ok party ∧ op = .senderReportedSent party message
  | .received clientId message, op =>
      ∃ party, room.partyFor clientId = .ok party ∧ op = .receiverReportedReceived party message
  | .receiptAck clientId _, op => ∃ party, room.partyFor clientId = .ok party ∧ op = .acknowledgeFinalReceipt party
  | .confirmFee _, op => op = .confirmFeeReceived
  | _, _ => False

/- The room a call leaves, the receipts it issues, and whether it tells the outside of a settlement. -/
inductive Outcome (hub : HubConfig) (env : HubEnv) (room : RoomEntry) :
    Call → RoomEntry → List IssuedReceipt → Bool → Prop where
  | unchanged (call : Call) : Outcome hub env room call room [] false
  | announced (clientId : ClientId) (message : TradeEphemeralKeyMessage) (party : Party)
      (member : room.partyFor clientId = .ok party) :
      Outcome hub env room (.tradeEphemeralKey clientId message)
        (room.announce message.ephemeralPublicKey message.ephemeralPublicKeyMldsa65 party) [] false
  | moved (call : Call) (op : Operation) (session : MediatorSession) (since : Option UInt64)
      (drives : Drives room call op) (active : room.active = true) (step : Step room.session op session)
      (unfinished : session.state ≠ .complete) :
      Outcome hub env room call { room with session, feeConfirmationPendingSince := since } [] false
  | gated (clientId : ClientId) (message : ReceiptAckMessage) (party : Party) (session : MediatorSession)
      (receipt : IssuedReceipt) (active : room.active = true)
      (step : Step room.session (.acknowledgeFinalReceipt party) session)
      (opens : session.state ≠ .waitingForFinalReceiptAck)
      (built : receiptFor hub env { room with session } .penultimateObligationsComplete false = .ok receipt) :
      Outcome hub env room (.receiptAck clientId message) { room with session, finalAckReceipt := some receipt } [receipt] false
  | settled (call : Call) (op : Operation) (session : MediatorSession) (receipt : IssuedReceipt)
      (drives : Drives room call op) (active : room.active = true) (step : Step room.session op session)
      (final : session.state = .complete ∨ op = .confirmFeeReceived)
      (built : receiptFor hub env { room with session, active := false } .settlementCompleted true = .ok receipt) :
      Outcome hub env room call { room with session, active := false } [receipt] true
  | unsettled (call : Call) (op : Operation) (session : MediatorSession)
      (drives : Drives room call op) (active : room.active = true) (step : Step room.session op session)
      (final : session.state = .complete ∨ op = .confirmFeeReceived) :
      Outcome hub env room call { room with session, active := false } [] false
  | aborted (call : Call) (operations : List Operation) (active : room.active = true) :
      Outcome hub env room call { room.after operations with active := false } [] false

structure Does (hub : HubConfig) (env : HubEnv) (s : Room) (call : Call) (closing : Bool) (t : Room) : Prop where
  effects : ∃ new, t.effects = s.effects ++ new ∧ Outcome hub env s.entry call t.entry (new.filterMap Effect.receipt?) closing ∧
    (closing = false → ∀ effect ∈ new, effect.closes = false)

variable {hub : HubConfig} {env : HubEnv} {s t u : Room} {call : Call}

theorem doesNothing : Does hub env s call false s := ⟨[], by simp, .unchanged call, by simp⟩

theorem Does.quiet {closing : Bool} (does : Does hub env s call closing t) (grows : Grows Quiet t u) :
    Does hub env s call closing u := by
  obtain ⟨new, effects, outcome, still⟩ := does
  obtain ⟨same, more, effects', kind⟩ := grows
  have receiptless : more.filterMap Effect.receipt? = [] := List.filterMap_eq_nil_iff.mpr fun e mem => (kind e mem).1
  refine ⟨new ++ more, by simp [*], by simpa [same, receiptless] using outcome, fun open_ effect mem => ?_⟩
  rcases List.mem_append.mp mem with before | after
  · exact still open_ effect before
  · exact (kind effect after).2

theorem Does.announce (does : Does hub env s call true t) (grows : Grows Receiptless t u) :
    Does hub env s call true u := by
  obtain ⟨new, effects, outcome, _⟩ := does
  obtain ⟨same, more, effects', kind⟩ := grows
  have receiptless : more.filterMap Effect.receipt? = [] := List.filterMap_eq_nil_iff.mpr kind
  exact ⟨new ++ more, by simp [*], by simpa [same, receiptless] using outcome, by simp⟩

/- From the room as it is now, the rest of a body leaves one of the call's outcomes. -/
def Handles {α : Type} (hub : HubConfig) (env : HubEnv) (s : Room) (call : Call) (x : HubM α) (t : Room) : Prop :=
  Ensures x t (fun _ u => ∃ closing, Does hub env s call closing u) (fun _ u => ∃ closing, Does hub env s call closing u)

section Bodies
variable {α β : Type} {closing : Bool}

theorem Does.goesOn {x : HubM α} (does : Does hub env s call closing t) (quiet : Emits Quiet x) :
    Handles hub env s call x t :=
  (quiet t).weaken (fun _ _ _ grows => ⟨closing, does.quiet grows⟩) (fun _ _ _ grows => ⟨closing, does.quiet grows⟩)

theorem Does.thenOn {x : HubM α} {k : α → HubM β} (does : Does hub env s call closing t) (quiet : Emits Quiet x)
    (rest : ∀ a u, Grows Quiet t u → Handles hub env s call (k a) u) : Handles hub env s call (x >>= k) t := by
  rw [Handles, ensuresBind]
  exact (quiet t).weaken (fun a u _ grows => rest a u grows) (fun _ _ _ grows => ⟨closing, does.quiet grows⟩)

theorem Does.checks {x : Except HubError α} {k : α → HubM β} (does : Does hub env s call closing t)
    (rest : ∀ a, x = .ok a → Handles hub env s call (k a) t) : Handles hub env s call (liftM x >>= k) t := by
  rw [Handles, ensuresBind, ensuresLift]
  exact ⟨rest, fun _ _ => ⟨closing, does⟩⟩

theorem handlesGet {k : Room → HubM α} (rest : Handles hub env s call (k t) t) :
    Handles hub env s call (get >>= k) t := rest

theorem handlesChange {change : RoomEntry → RoomEntry} {k : Unit → HubM α}
    (rest : Handles hub env s call (k ()) { t with entry := change t.entry }) :
    Handles hub env s call (onEntry change >>= k) t := rest

theorem handlesFound {clientId : ClientId} {roomId : RoomId} {k : Party → HubM α}
    (rest : ∀ party, s.entry.partyFor clientId = .ok party → Handles hub env s call (k party) s) :
    Handles hub env s call (findRoomFor clientId roomId >>= k) s := by
  simp only [Handles, findRoomFor, ensuresBind, ensuresGet, ensuresLift]
  exact ⟨fun _ _ => ⟨rest, fun _ _ => ⟨false, doesNothing⟩⟩, fun _ _ => ⟨false, doesNothing⟩⟩

theorem handlesActive {k : Unit → HubM α} (rest : s.entry.active = true → Handles hub env s call (k ()) s) :
    Handles hub env s call (requireActive >>= k) s := by
  simp only [Handles, requireActive, ensuresBind, ensuresGet, ensuresLift, throwIf_ok, not_not]
  exact ⟨fun _ active => rest active, fun _ _ => ⟨false, doesNothing⟩⟩

theorem handlesSession (op : Operation) {k : Unit → HubM α}
    (rest : ∀ session, Step s.entry.session op session →
      Handles hub env s call (k ()) { s with entry := { s.entry with session } }) :
    Handles hub env s call (onSession (MediatorSession.perform op) >>= k) s := by
  rw [Handles, ensuresBind]
  unfold Ensures onSession
  cases performed : MediatorSession.perform op s.entry.session with
  | ok u session => exact rest session (MediatorSession.acceptsIff.mp performed)
  | error e session =>
      obtain rfl := MediatorSession.performAtomic _ _ _ _ performed
      exact ⟨false, doesNothing⟩

end Bodies

/-! Closing paths. -/

theorem settleEnsures (room : Room) :
    Ensures (settle hub env) room
      (fun receipt t =>
        receiptFor hub env { room.entry with active := false } .settlementCompleted true = .ok receipt ∧
          t = { room with entry := { room.entry with active := false }, effects := room.effects ++ [.issued receipt] })
      (fun _ t => t = { room with entry := { room.entry with active := false } }) := by
  simp only [settle, issueReceipt, onEntry, emit, ensuresBind, ensuresModify, ensuresGet, ensuresLift]
  exact ⟨fun receipt built => ⟨rejectedOk.mp built, rfl⟩, fun _ _ => trivial⟩

/- A session that is done with, or confirmed, closes the room. -/
theorem handlesSettle {α : Type} {session : MediatorSession} {op : Operation} {k : IssuedReceipt → HubM α}
    (drives : Drives s.entry call op) (active : s.entry.active = true) (step : Step s.entry.session op session)
    (final : session.state = .complete ∨ op = .confirmFeeReceived)
    (rest : ∀ receipt t, Does hub env s call true t → Handles hub env s call (k receipt) t) :
    Handles hub env s call (settle hub env >>= k) { s with entry := { s.entry with session } } := by
  rw [Handles, ensuresBind]
  refine (settleEnsures _).weaken ?_ ?_
  · rintro receipt t _ ⟨built, rfl⟩
    exact rest receipt _ ⟨[.issued receipt], rfl, .settled call op session receipt drives active step final built, by simp⟩
  · rintro _ t _ rfl
    exact ⟨false, [], by simp, .unsettled call op session drives active step final, by simp⟩

theorem Does.completes (receipt : IssuedReceipt) (does : Does hub env s call true t) :
    Handles hub env s call (announceCompletion hub env receipt) t :=
  (emitsAnnounceCompletion receipt t).weaken (fun _ _ _ grows => ⟨true, does.announce grows⟩)
    (fun _ _ _ grows => ⟨true, does.announce grows⟩)

/-! Aborts. -/

theorem onSessionRuns (op : Operation) (room : Room) :
    Ensures (onSession (MediatorSession.perform op)) room
      (fun _ t => t = { room with entry := room.entry.after [op] })
      (fun _ t => t = { room with entry := room.entry.after [op] }) := by
  unfold Ensures onSession RoomEntry.after
  simp only [exec_cons, exec_nil, next]
  cases MediatorSession.perform op room.entry.session <;> rfl

theorem deactivateEnsures (reason : Bytes) (room : Room) :
    Ensures (deactivate reason) room
      (fun _ t => ∃ operations, t = { room with entry := { room.entry.after operations with active := false } })
      (fun _ t => ∃ operations, t = { room with entry := { room.entry.after operations with active := false } }) := by
  simp only [deactivate, onEntry, ensuresBind, ensuresModify, ensuresGet, ensuresIte]
  constructor
  · intro _
    refine (onSessionRuns (.abort reason) _).weaken ?_ ?_
    · rintro _ t _ rfl
      exact ⟨[.abort reason], rfl⟩
    · rintro _ t _ rfl
      exact ⟨[.abort reason], rfl⟩
  · intro _
    exact ⟨[], rfl⟩

theorem afterMore (room : RoomEntry) (xs ys : List Operation) : (room.after xs).after ys = room.after (xs ++ ys) := by
  simp [RoomEntry.after, exec_append]

/- A room whose session has run on, with quiet effects only, can still be aborted. -/
theorem handlesDeactivate {α : Type} {reason : Bytes} {k : Unit → HubM α} {operations : List Operation}
    (reached : Grows Quiet { s with entry := s.entry.after operations } t) (active : s.entry.active = true)
    (rest : ∀ u, Does hub env s call false u → Handles hub env s call (k ()) u) :
    Handles hub env s call (deactivate reason >>= k) t := by
  obtain ⟨entry, new, effects, quiet⟩ := reached
  have aborts {more : List Operation} :
      Does hub env s call false { t with entry := { t.entry.after more with active := false } } := by
    have receiptless : new.filterMap Effect.receipt? = [] := List.filterMap_eq_nil_iff.mpr fun e mem => (quiet e mem).1
    refine ⟨new, effects, ?_, fun _ effect mem => (quiet effect mem).2⟩
    rw [receiptless, entry, afterMore]
    exact .aborted call (operations ++ more) active
  rw [Handles, ensuresBind]
  refine (deactivateEnsures reason t).weaken ?_ ?_
  · rintro _ u _ ⟨more, rfl⟩
    exact rest _ aborts
  · rintro _ u _ ⟨more, rfl⟩
    exact ⟨false, aborts⟩

theorem handlesAbortRoom {reason : Bytes} {operations : List Operation}
    (reached : Grows Quiet { s with entry := s.entry.after operations } t) (does : Does hub env s call false t) :
    Handles hub env s call (abortRoom hub env reason) t := by
  unfold abortRoom
  refine handlesGet ?_
  rw [Handles, ensuresIte]
  refine ⟨fun running => ?_, fun _ => ⟨false, does⟩⟩
  have active : s.entry.active = true := by simpa [reached.entry, RoomEntry.after] using running
  refine handlesDeactivate reached active fun u aborted => aborted.goesOn ?_
  exact .bind (emitsRemove ⟨rfl, rfl⟩) fun _ => .bind (emitsErase ⟨rfl, rfl⟩) fun _ => emitsSend fun _ => ⟨rfl, rfl⟩

/-! Handlers. -/

theorem emitsRelay {party : Party} {frame : Frame} (quiet : Quiet (.enqueued party frame)) :
    Emits Quiet (do rejected (encodes frame); enqueue env party frame : HubM Unit) :=
  .bind (emitsLift _) fun _ => emitsEnqueue quiet

theorem emitsTurn (turn : TurnMessage) :
    Emits Quiet (do persistRoomUpsert hub env; sendToRoom env (.turn turn) : HubM Unit) :=
  .bind (emitsUpsert fun _ => ⟨rfl, rfl⟩) fun _ => emitsSend fun _ => ⟨rfl, rfl⟩

-- The end of a sent report that goes to the other party.
theorem handlesForward {party : Party} {message : RoundSignalMessage} {operations : List Operation}
    (reached : t = { s with entry := s.entry.after operations }) (does : Does hub env s call false t) :
    Handles hub env s call (do
      persistRoomUpsert hub env
      if env.connected party then
        rejected (encodes (.sent message))
        enqueue env party (.sent message)
      else abortRoom hub env (ascii "peer disconnected")) t := by
  refine does.thenOn (emitsUpsert fun _ => ⟨rfl, rfl⟩) fun _ u grows => ?_
  rw [Handles, ensuresIte]
  constructor
  · intro _
    exact (does.quiet grows).goesOn (emitsRelay ⟨rfl, rfl⟩)
  · intro _
    exact handlesAbortRoom (reached ▸ grows) (does.quiet grows)

theorem handleSentDoes (clientId : ClientId) (message : RoundSignalMessage) :
    Handles hub env s (.sent clientId message) (handleSent hub env clientId message) s := by
  refine handlesFound fun party member => handlesActive fun active => ?_
  refine handlesSession (.senderReportedSent party message) fun session step => handlesGet ?_
  have drives : Drives s.entry (.sent clientId message) (.senderReportedSent party message) := ⟨party, member, rfl⟩
  have moves (since : Option UInt64) (unfinished : session.state ≠ .complete) :
      Does hub env s (.sent clientId message) false
        { s with entry := { s.entry with session, feeConfirmationPendingSince := since } } :=
    ⟨[], by simp, .moved _ _ session since drives active step unfinished, by simp⟩
  have reached : { s.entry with session } = s.entry.after [.senderReportedSent party message] := by
    simp [RoomEntry.after, (show Accepts MediatorSession.perform _ _ _ from MediatorSession.acceptsIff.mpr step).next]
  cases state : session.state with
  | complete =>
    simp only [state]
    exact handlesSettle drives active step (.inl state) fun receipt t does => does.completes receipt
  | waitingForFeeConfirmation =>
    simp only [state]
    have does := moves (some env.now) (by simp [state])
    refine handlesChange (does.goesOn ?_)
    exact .bind (emitsUpsert fun _ => ⟨rfl, rfl⟩) fun _ => emitsSend fun _ => ⟨rfl, rfl⟩
  | waitingForSent =>
    simp only [state]
    have does := moves s.entry.feeConfirmationPendingSince (by simp [state])
    exact does.thenOn emitsCurrentTurn fun turn t grows => (does.quiet grows).goesOn (emitsTurn turn)
  | _ =>
    simp only [state]
    have does := moves s.entry.feeConfirmationPendingSince (by simp [state])
    exact handlesForward (by rw [← reached]) does

theorem handleReceivedDoes (clientId : ClientId) (message : RoundSignalMessage) :
    Handles hub env s (.received clientId message) (handleReceived hub env clientId message) s := by
  refine handlesFound fun party member => handlesActive fun active => ?_
  refine handlesSession (.receiverReportedReceived party message) fun session step => handlesGet ?_
  have drives : Drives s.entry (.received clientId message) (.receiverReportedReceived party message) :=
    ⟨party, member, rfl⟩
  have moves (unfinished : session.state ≠ .complete) :
      Does hub env s (.received clientId message) false { s with entry := { s.entry with session } } :=
    ⟨[], by simp, .moved _ _ session _ drives active step unfinished, by simp⟩
  have relay : Emits Quiet (do
      if env.connected (otherParty party) then
        rejected (encodes (.received message))
        enqueue env (otherParty party) (.received message) : HubM Unit) :=
    emitsIf (emitsRelay ⟨rfl, rfl⟩) (emitsPure _)
  cases state : session.state with
  | complete =>
    simp only [state]
    refine handlesSettle drives active step (.inl state) fun receipt t does => ?_
    exact does.thenOn relay fun _ u grows => (does.quiet grows).completes receipt
  | waitingForFinalReceiptAck =>
    simp only [state]
    refine (moves (by simp [state])).goesOn (.bind (emitsUpsert fun _ => ⟨rfl, rfl⟩) fun _ => ?_)
    exact .bind relay fun _ => emitsSend fun _ => ⟨rfl, rfl⟩
  | _ =>
    simp only [state]
    refine (moves (by simp [state])).goesOn (.bind emitsCurrentTurn fun turn => ?_)
    exact .bind (emitsUpsert fun _ => ⟨rfl, rfl⟩) fun _ => .bind relay fun _ => emitsSend fun _ => ⟨rfl, rfl⟩

theorem parsePublicKeyOk {n : Nat} {bytes key : Vector UInt8 n} {text : String}
    (ok : parsePublicKey bytes text = .ok key) : key = bytes := by
  unfold parsePublicKey at ok
  split at ok
  · contradiction
  · exact (Except.ok.inj ok).symm

theorem handleTradeEphemeralKeyDoes (clientId : ClientId) (message : TradeEphemeralKeyMessage) :
    Handles hub env s (.tradeEphemeralKey clientId message) (handleTradeEphemeralKey env clientId message) s := by
  refine doesNothing.checks fun key parsed => doesNothing.checks fun keyMldsa65 parsedMldsa65 => ?_
  obtain rfl := parsePublicKeyOk parsed
  obtain rfl := parsePublicKeyOk parsedMldsa65
  refine handlesFound fun party member => handlesChange ?_
  have does : Does hub env s (.tradeEphemeralKey clientId message) false
      { s with entry := s.entry.announce message.ephemeralPublicKey message.ephemeralPublicKeyMldsa65 party } :=
    ⟨[], by simp, .announced clientId message party member, by simp⟩
  exact does.goesOn (.bind (emitsLift _) fun _ => emitsEnqueue ⟨rfl, rfl⟩)

theorem issueEnsures (room : Room) :
    Ensures (issueReceipt hub env .penultimateObligationsComplete false) room
      (fun receipt t => receiptFor hub env room.entry .penultimateObligationsComplete false = .ok receipt ∧
        t = { room with entry := { room.entry with finalAckReceipt := some receipt }
                        effects := room.effects ++ [.issued receipt] })
      (fun _ t => t = room) := by
  simp only [issueReceipt, onEntry, emit, if_true, ensuresBind, ensuresModify, ensuresGet, ensuresLift]
  exact ⟨fun receipt built => ⟨rejectedOk.mp built, rfl⟩, fun _ _ => trivial⟩

/- What a receipt that was built says, and that both signatures are over it. -/
structure Built (hub : HubConfig) (env : HubEnv) (room : RoomEntry) (stage : ReceiptStage) (receipt : IssuedReceipt) :
    Prop where
  keyA : room.ephemeralKeyA = some receipt.fields.partyAEphemeralKey
  keyB : room.ephemeralKeyB = some receipt.fields.partyBEphemeralKey
  keyAMldsa65 : room.ephemeralKeyAMldsa65 = some receipt.fields.partyAEphemeralKeyMldsa65
  keyBMldsa65 : room.ephemeralKeyBMldsa65 = some receipt.fields.partyBEphemeralKeyMldsa65
  roomId : receipt.fields.roomId = room.id
  terms : (encodeTerms room.session.creator.terms).map hub.crypto.sha256 = .ok receipt.fields.termsCommitment
  mediatorKey : receipt.fields.mediatorPublicKey = hub.receiptKey
  mediatorKeyMldsa65 : receipt.fields.mediatorPublicKeyMldsa65 = hub.receiptKeyMldsa65
  atStage : receipt.fields.stage = stage.toByte
  previous : previousStageHash hub room stage = .ok receipt.fields.previousStageHash
  signed : signReceipt hub.crypto hub.receiptSeed env.entropy receipt.fields = .ok receipt.mediatorSignature
  signedMldsa65 : signReceiptMldsa65 hub.crypto hub.receiptSeedMldsa65 env.entropy receipt.fields =
    .ok receipt.mediatorSignatureMldsa65

theorem builtReceipt {room : RoomEntry} {stage : ReceiptStage} {completed : Bool} {receipt : IssuedReceipt}
    (built : receiptFor hub env room stage completed = .ok receipt) : Built hub env room stage receipt := by
  unfold receiptFor at built
  split at built
  next keyA keyB keyAMldsa65 keyBMldsa65 =>
    simp only [bind_ok, pure_ok] at built
    obtain ⟨terms, encoded, _, _, _, previous, _, signed, _, signedMldsa65, rfl⟩ := built
    exact ⟨keyA, keyB, keyAMldsa65, keyBMldsa65, rfl, by simp [encoded, Except.map], rfl, rfl, rfl, previous, signed,
      signedMldsa65⟩
  next => contradiction

theorem acknowledgedUnfinished {session t : MediatorSession} {party : Party}
    (step : Step session (.acknowledgeFinalReceipt party) t) : t.state ≠ .complete := by
  cases step with
  | acknowledged _ waiting first =>
    unfold MediatorSession.acknowledged
    split
    · rw [MediatorSession.inStateState]
      split <;> simp
    · rw [MediatorSession.recordState, waiting]
      simp

theorem handleReceiptAckDoes (clientId : ClientId) (message : ReceiptAckMessage) :
    Handles hub env s (.receiptAck clientId message) (handleReceiptAck hub env clientId message) s := by
  refine handlesFound fun party member => handlesActive fun active => handlesGet ?_
  refine doesNothing.checks fun _ _ => doesNothing.checks fun _ _ => doesNothing.checks fun _ _ => ?_
  refine handlesSession (.acknowledgeFinalReceipt party) fun session step => handlesGet ?_
  have drives : Drives s.entry (.receiptAck clientId message) (.acknowledgeFinalReceipt party) := ⟨party, member, rfl⟩
  have unfinished := acknowledgedUnfinished step
  have moves : Does hub env s (.receiptAck clientId message) false { s with entry := { s.entry with session } } :=
    ⟨[], by simp, .moved _ _ session _ drives active step unfinished, by simp⟩
  rw [Handles, ensuresIte]
  refine ⟨fun opens => ?_, fun _ => moves.goesOn (emitsUpsert fun _ => ⟨rfl, rfl⟩)⟩
  rw [ensuresBind]
  refine (issueEnsures _).weaken ?_ ?_
  · rintro receipt t _ ⟨built, rfl⟩
    have stage := (builtReceipt built).atStage
    have does : Does hub env s (.receiptAck clientId message) false
        { s with entry := { s.entry with session, finalAckReceipt := some receipt }
                 effects := s.effects ++ [.issued receipt] } :=
      ⟨[.issued receipt], rfl, .gated clientId message party session receipt active step opens built,
        by simp [Effect.closes, stage, settlementByte, ReceiptStage.toByte]⟩
    refine does.goesOn (.bind emitsCurrentTurn fun turn => .bind (emitsUpsert fun _ => ⟨rfl, rfl⟩) fun _ => ?_)
    refine .bind (emitsSend fun _ => ⟨rfl, ?_⟩) fun _ => emitsSend fun _ => ⟨rfl, rfl⟩
    simp [Effect.closes, stage, settlementByte, ReceiptStage.toByte]
  · rintro _ t _ rfl
    exact ⟨false, moves⟩

theorem handleAbortDoes (clientId : ClientId) (message : AbortMessage) :
    Handles hub env s (.abort clientId message) (handleAbort hub env clientId message) s := by
  refine handlesFound fun party member => ?_
  have reached : Grows Quiet { s with entry := s.entry.after [] } s := .refl
  exact handlesAbortRoom reached doesNothing

theorem tryConfirmFeeLockedDoes (roomId : RoomId) :
    Handles hub env s (.confirmFee roomId) (tryConfirmFeeLocked hub env roomId) s := by
  refine handlesGet ?_
  rw [Handles, ensuresIte]
  refine ⟨fun ⟨_, _, active, _⟩ => ?_, fun _ => ⟨false, doesNothing⟩⟩
  refine handlesSession .confirmFeeReceived fun session step => ?_
  refine handlesSettle rfl active step (.inr rfl) fun receipt t does => ?_
  rw [Handles, ensuresBind]
  exact (does.completes receipt).weaken (fun _ _ _ done => done) (fun _ _ _ done => done)

theorem removeClientDoes (clientId : ClientId) :
    Handles hub env s (.disconnect clientId) (removeClient hub env clientId) s := by
  refine handlesGet ?_
  rw [Handles, ensuresIte]
  refine ⟨fun _ => ?_, fun _ => ⟨false, doesNothing⟩⟩
  refine doesNothing.thenOn (emitsErase ⟨rfl, rfl⟩) fun _ t grows => ?_
  rw [Handles, ensuresIte]
  refine ⟨fun active => ?_, fun _ => ⟨false, doesNothing.quiet grows⟩⟩
  have reached : Grows Quiet { s with entry := s.entry.after [] } t := grows
  refine handlesDeactivate reached active fun u aborted => aborted.goesOn ?_
  exact .bind (emitsRemove ⟨rfl, rfl⟩) fun _ => emitsSend fun _ => ⟨rfl, rfl⟩

/- Every call leaves one of its outcomes. -/
theorem performDoes (hub : HubConfig) (env : HubEnv) (call : Call) (s : Room) :
    ∃ closing, Does hub env s call closing (next (perform hub) s (env, call)) := by
  have handles : Handles hub env s call (perform hub (env, call)) s := by
    cases call with
    | sent clientId message => exact handleSentDoes clientId message
    | received clientId message => exact handleReceivedDoes clientId message
    | tradeEphemeralKey clientId message => exact handleTradeEphemeralKeyDoes clientId message
    | receiptAck clientId message => exact handleReceiptAckDoes clientId message
    | abort clientId message => exact handleAbortDoes clientId message
    | confirmFee roomId =>
      show Handles hub env s _ (tryConfirmFeeLocked hub env roomId >>= fun _ => pure ()) s
      rw [Handles, ensuresBind]
      exact (tryConfirmFeeLockedDoes roomId).weaken (fun _ _ _ done => done) (fun _ _ _ done => done)
    | disconnect clientId => exact removeClientDoes clientId
  unfold Handles Ensures at handles
  unfold next
  cases ran : perform hub (env, call) s with
  | ok u t => rwa [ran] at handles
  | error e t => rwa [ran] at handles

end Hub
end TradeP2P
