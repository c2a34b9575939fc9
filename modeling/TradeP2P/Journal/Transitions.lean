import TradeP2P.Journal.Replay
import TradeP2P.Lib.Contracts
import TradeP2P.Mediator.Liveness
import TradeP2P.Mediator.Settlement

/-! The journal's own picture of a session. It lets through the states of every trade whose fee, if
there is one, comes last. A fee that comes before the last tranche has no place in it: neither the
step that brings up its turn nor the one that goes on behind it. -/
namespace TradeP2P.MediatorSession
open Machine
open Wire (Bytes)

/- The fee comes with rounds still to go. -/
def EarlyFee (s : MediatorSession) : Prop := s.ChargesFee ∧ s.feePosition ≠ .afterLastRound

section Steps
variable {s t : MediatorSession} {op : Operation}

theorem acknowledgedState (waiting : s.state = .waitingForFinalReceiptAck) (party : Party) :
    (s.acknowledged party).state = .waitingForFinalReceiptAck ∨ (s.acknowledged party).state = .waitingForSent ∨
      (s.acknowledged party).state = .waitingForFeeSent ∧ s.feePosition = .afterLastRound := by
  unfold acknowledged
  split
  · by_cases fee : s.finalReceiptGateIsFeeLeg = true
    · have last := fee
      simp only [finalReceiptGateIsFeeLeg, Bool.and_eq_true, decide_eq_true_eq] at last
      simp [fee, last.1.2]
    · simp [fee]
  · simp [waiting]

theorem joinedState {address : Bytes} : (s.joinedBy address).state = .waitingForSent ∨
    (s.joinedBy address).state = .waitingForFeeSent ∧ s.EarlyFee := by
  cases due : s.feeDueBeforeAnyRound with
  | false => exact .inl (by simp [joinedBy, due])
  | true =>
      refine .inr ⟨by simp [joinedBy, due], ?_⟩
      simp only [feeDueBeforeAnyRound, Bool.and_eq_true, Bool.or_eq_true, decide_eq_true_eq] at due
      obtain ⟨charges, place⟩ := due
      refine ⟨charges, ?_⟩
      cases place with
      | inl first => simp [first]
      | inr single => simp [single.1]

theorem advancedState (on : s.OnTrack) (waiting : s.state = .waitingForReceived) :
    s.advanced.state = .waitingForFinalReceiptAck ∨ s.advanced.state = .complete ∨ s.advanced.state = .waitingForSent ∨
      s.advanced.state = .waitingForFeeSent ∧ s.EarlyFee := by
  obtain ⟨more, leg, _⟩ := onTranche on (.inr waiting)
  rw [(advancedReaches more leg).state, arrival]
  split_ifs with gate fee finished
  · exact .inl rfl
  · refine .inr (.inr (.inr ⟨rfl, ?_, ?_⟩))
    · simp only [plan, feeLeg] at fee
      split at fee
      · assumption
      · cases fee
    · intro last
      have charges : s.ChargesFee := by
        by_contra free
        simp [plan, feeLeg, free] at fee
      have both : s.FeeIsLast := ⟨charges, last⟩
      have legs : s.plan.feeLeg = some s.plan.gateLeg := by simp [plan, feeLeg, charges, last, Plan.gateLeg, Plan.legs, both]
      exact gate (Option.some.inj (fee.symm.trans legs))
  · exact .inr (.inl rfl)
  · exact .inr (.inr (.inl rfl))

/- A step neither from the fee nor to it is one the journal knows. -/
theorem Step.mirrored (on : s.OnTrack) (step : Step s op t) (before : s.state ≠ .waitingForFeeSent)
    (confirmed : s.state ≠ .waitingForFeeConfirmation) (after : t.state ≠ .waitingForFeeSent) :
    isValidTransition s.state t.state = true ∧ t.state ≠ .waitingForFeeConfirmation := by
  cases step with
  | joined message waiting room address =>
      have state := @joinedState s message.receiveAddressB
      simp_all [isValidTransition]
  | feeSent waiting => exact absurd waiting before
  | sent party waiting sender => simp [waiting, isValidTransition]
  | received party waiting sender =>
      have state := advancedState on waiting
      rw [waiting]
      obtain gate | finished | more | fee := state
      · simp [gate, isValidTransition]
      · simp [finished, isValidTransition]
      · simp [more, isValidTransition]
      · exact absurd fee.1 after
  | acknowledged party waiting first =>
      have state := acknowledgedState waiting party
      rw [waiting]
      obtain gate | more | fee := state
      · simp [gate, isValidTransition]
      · simp [more, isValidTransition]
      · exact absurd fee.1 after
  | confirmed waiting => exact absurd waiting confirmed
  | aborted reason unfinished =>
      have closed : (s.abortedWith reason).state = .aborted := rfl
      cases state : s.state <;> simp_all [isValidTransition]

/- With the fee last, or none, every step is. -/
theorem Step.mirroredLast (on : s.OnTrack) (step : Step s op t) (last : ¬s.EarlyFee) :
    isValidTransition s.state t.state = true := by
  have fee (waiting : s.state = .waitingForFeeSent ∨ s.state = .waitingForFeeConfirmation) :
      s.feePosition = .afterLastRound := by
    have placed := on.placed
    unfold Placed at placed
    by_contra early
    cases waiting with
    | inl waiting => exact last ⟨(waiting ▸ placed).1, early⟩
    | inr waiting => exact last ⟨(waiting ▸ placed).1, early⟩
  cases step with
  | joined message waiting room address =>
      have state := @joinedState s message.receiveAddressB
      simp_all [isValidTransition]
  | feeSent waiting =>
      have place := fee (.inl waiting)
      cases confirm : s.requireFeeConfirmation <;>
        simp [waiting, onceFeeReported, onceFeeSettled, confirm, place, isValidTransition]
  | sent party waiting sender => simp [waiting, isValidTransition]
  | received party waiting sender =>
      have state := advancedState on waiting
      rw [waiting]
      obtain gate | finished | more | fee := state
      · simp [gate, isValidTransition]
      · simp [finished, isValidTransition]
      · simp [more, isValidTransition]
      · exact absurd fee.2 last
  | acknowledged party waiting first =>
      have state := acknowledgedState waiting party
      rw [waiting]
      obtain gate | more | fee := state
      · simp [gate, isValidTransition]
      · simp [more, isValidTransition]
      · simp [fee.1, isValidTransition]
  | confirmed waiting =>
      have place := fee (.inr waiting)
      simp [waiting, onceFeeSettled, place, isValidTransition]
  | aborted reason unfinished =>
      have closed : (s.abortedWith reason).state = .aborted := rfl
      cases state : s.state <;> simp_all [isValidTransition]

/- The step that brings up an early fee is not. -/
theorem Step.unmirrored (step : Step s op t) (early : s.EarlyFee) (fee : t.state = .waitingForFeeSent) :
    isValidTransition s.state t.state = false := by
  rw [fee]
  cases step with
  | joined message waiting room address => simp [waiting, isValidTransition]
  | feeSent waiting =>
      simp only [inStateState, onceFeeReported, onceFeeSettled] at fee
      split_ifs at fee
  | sent party waiting sender => cases fee
  | received party waiting sender => simp [waiting, isValidTransition]
  | acknowledged party waiting first =>
      obtain gate | more | last := acknowledgedState waiting party
      · cases gate.symm.trans fee
      · cases more.symm.trans fee
      · exact absurd last.2 early.2
  | confirmed waiting =>
      simp only [inStateState, onceFeeSettled] at fee
      split_ifs at fee
  | aborted reason unfinished => cases fee

end Steps

/- The journal lets every change of state through. -/
def Mirrored (events : List (Event MediatorSession Operation)) : Prop :=
  ∀ e ∈ events, isValidTransition e.before.state e.after.state = true

/- The run has not brought up the fee. -/
def BeforeFee (events : List (Event MediatorSession Operation)) : Prop :=
  ∀ e ∈ events, e.after.state ≠ .waitingForFeeSent

section Runs
variable {creator : CreateRoomMessage} {roomId : RoomId} {fee : FeeTerms} {confirm : Bool} {feePosition : FeePosition}
  {s : MediatorSession}

structure AwayFromFee (events : List (Event MediatorSession Operation)) (t : MediatorSession) : Prop where
  mirrored : Mirrored events
  unpaid : ∀ e ∈ events, e.before.state ≠ .waitingForFeeSent
  state : t.state ≠ .waitingForFeeSent
  confirmation : t.state ≠ .waitingForFeeConfirmation

theorem awayFromFee (on : s.OnTrack) (waiting : s.state = .waitingForPeer) (operations : List Operation) :
    BeforeFee (log perform s operations) → AwayFromFee (log perform s operations) (exec perform s operations) := by
  have run := performAtomic.history
    (I := fun events t => t.OnTrack ∧ (BeforeFee events → AwayFromFee events t)) (s := s)
    ⟨on, fun _ => ⟨by simp [Mirrored], by simp, by simp [waiting], by simp [waiting]⟩⟩ ?_ operations
  · exact run.2
  · intro events t op u kept accepted
    have step := acceptsIff.mp accepted
    refine ⟨step.onTrack kept.1, fun free => ?_⟩
    obtain ⟨front, last⟩ := List.forall_mem_append.mp free
    have away := kept.2 front
    have unfee := List.forall_mem_singleton.mp last
    obtain ⟨valid, unconfirmed⟩ := step.mirrored kept.1 away.state away.confirmation unfee
    exact ⟨List.forall_mem_append.mpr ⟨away.mirrored, List.forall_mem_singleton.mpr valid⟩,
      List.forall_mem_append.mpr ⟨away.unpaid, List.forall_mem_singleton.mpr away.state⟩, unfee, unconfirmed⟩

theorem SameTerms.earlyFee {t : MediatorSession} (same : SameTerms s t) : t.EarlyFee ↔ s.EarlyFee := by
  rw [EarlyFee, EarlyFee, same.chargesFee, same.feePosition]

theorem mirroredIff (on : s.OnTrack) (waiting : s.state = .waitingForPeer) (operations : List Operation) :
    Mirrored (log perform s operations) ↔ ¬s.EarlyFee ∨ BeforeFee (log perform s operations) := by
  constructor
  · intro mirrored
    refine or_iff_not_imp_left.mpr fun early e mem reached => ?_
    have happens := runHappens on operations mem
    have invalid := happens.step.unmirrored (happens.same.earlyFee.mpr (not_not.mp early)) reached
    rw [mirrored e mem] at invalid
    cases invalid
  · intro fine
    cases fine with
    | inl last =>
        intro e mem
        have happens := runHappens on operations mem
        exact happens.step.mirroredLast happens.on (fun early => last (happens.same.earlyFee.mp early))
    | inr free => exact (awayFromFee on waiting operations free).mirrored

theorem paysAtFee {e : Event MediatorSession Operation} (pays : task e = some .payFee) :
    e.before.state = .waitingForFeeSent := by
  cases call : e.call with
  | senderReportedSent party message =>
      by_contra other
      simp [task, call, other] at pays
  | acknowledgeFinalReceipt party =>
      simp only [task, call] at pays
      split at pays <;> cases pays
  | _ => simp [task, call] at pays

/- Everybody cooperating, the fee comes up. -/
theorem feeComesUp (opened : construct creator roomId fee confirm feePosition = .ok s) (charges : s.ChargesFee) :
    ∃ operations, ¬BeforeFee (log perform s operations) := by
  have on := constructedOnTrack opened
  obtain ⟨_, _, _, _, _, waiting⟩ := constructedTerms opened
  have address : validateAddress (Wire.ascii "B") = .ok () := by decide
  refine ⟨cooperation (Wire.ascii "B") s.remaining.length s, fun free => ?_⟩
  have complete := cooperationCompletes address on (by simp [waiting]) (Nat.le_refl s.remaining.length)
  have agenda := completedAgenda opened _ complete
  have due : ∃ k, s.plan.feeLeg = some k := by
    simp only [plan, feeLeg, if_pos charges]
    cases s.feePosition <;> exact ⟨_, rfl⟩
  obtain ⟨k, leg⟩ := due
  have paid : Task.payFee ∈ s.plan.agenda :=
    Plan.feeTasksOnAgenda (planSound on.rounds) leg (by simp [Plan.settleFee])
  rw [← agenda] at paid
  obtain ⟨e, mem, done⟩ := List.mem_filterMap.mp paid
  exact (awayFromFee on waiting _ free).unpaid e mem (paysAtFee done)

end Runs

/- The states a client journals for a trade. -/
def statesOf (s : MediatorSession) (operations : List Operation) : List SessionState :=
  s.state :: (log perform s operations).map (fun e => e.after.state)

end TradeP2P.MediatorSession

namespace TradeP2P.Journal
open Machine Checks
open MediatorSession (Mirrored statesOf)

/- A client appends the entries of a trade one after the other, until an append fails. The journal
refuses the trade when that failure is a transition it does not know. -/
def NeverRefused (crypto : Crypto) : Store → List (JournalEnv × JournalEntryFields) → Prop
  | _, [] => True
  | store, call :: rest => match append crypto call.1 call.2 store with
    | .ok _ after => NeverRefused crypto after rest
    | .error (.tamper _) _ => False
    | .error _ _ => True

/- Every state may follow the one before it. -/
def Passes : Option SessionState → List SessionState → Prop
  | _, [] => True
  | last, state :: rest => Moves last state.toByte ∧ Passes (some state) rest

section Appends
variable {crypto : Crypto} {env : JournalEnv} {given : JournalEntryFields} {store after : Store} {entry : JournalEntry}

theorem ofByteToByte (state : SessionState) : SessionState.ofByte state.toByte = some state := by
  cases state <;> rfl

theorem movesOn {origin target : SessionState} : Moves (some origin) target.toByte ↔ isValidTransition origin target = true := by
  simp [Moves, ofByteToByte]

theorem appendedFields (ok : append crypto env given store = .ok entry after) :
    entry.fields.tradeId = given.tradeId ∧ entry.fields.localState = given.localState := by
  simp only [append, canonicalEntryBytes, bind_returns, get_returns, lift_returns, modify_returns, pure_returns,
    check_ok, throwIf_ok, pure_ok] at ok
  obtain ⟨_, _, ⟨rfl, rfl⟩, _, _, ⟨moves, rfl⟩, _, _, ⟨⟨short, rfl⟩, rfl⟩, _, _, write, _, _, ⟨room, rfl⟩, _, _, rfl,
    rfl, rfl⟩ := ok
  constructor <;> (dsimp only; split <;> rfl)

theorem appendedState (ok : append crypto env given store = .ok entry after) :
    after.journal.lastStateByTrade given.tradeId = SessionState.ofByte given.localState := by
  obtain ⟨trade, state⟩ := appendedFields ok
  rw [(appendReturns ok).2, ← trade, ← state]
  simp [push]

def IsStandard (e : JournalError) : Prop := ∃ inner, e = .standard inner

theorem canonicalThrows {index : UInt64} {fields : JournalEntryFields} {e : JournalError}
    (thrown : canonicalEntryBytes index fields = .error e) : IsStandard e := by
  by_cases long : fields.mediatorId.length > journalMaxMediatorIdLength
  · simp only [canonicalEntryBytes, throwIf_bad long, bind, Except.bind, Except.error.injEq] at thrown
    exact ⟨_, thrown.symm⟩
  · simp [canonicalEntryBytes, throwIf_not long, bind, Except.bind, pure, Except.pure] at thrown

theorem writeEnsures (fault : Option Nat) (bytes : Wire.Bytes) :
    Ensures (writeAllAndSync fault bytes) store (fun _ _ => True) (fun e _ => IsStandard e) := by
  simp only [writeAllAndSync, ensuresBind, ensuresGet, ensuresSet, ensuresLift, throwIf_error]
  refine ⟨fun _ _ => trivial, fun e short => ?_⟩
  exact ⟨_, short.2.symm⟩

/- Once the transition is let through, whatever fails is not the transition. -/
theorem appendEnsures (moves : Moves (store.journal.lastStateByTrade given.tradeId) given.localState) :
    Ensures (append crypto env given) store (fun _ _ => True) (fun e _ => IsStandard e) := by
  simp only [append]
  generalize stamped : (if given.timestamp = 0 then { given with timestamp := env.now } else given) = fields
  have trade : fields.tradeId = given.tradeId := by
    rw [← stamped]
    split <;> rfl
  have state : fields.localState = given.localState := by
    rw [← stamped]
    split <;> rfl
  rw [← trade, ← state] at moves
  simp only [ensuresBind, ensuresGet, ensuresLift, ensuresModify, ensuresPure, (checkTransitionOk _).mpr moves,
    throwIf_error]
  refine ⟨fun _ _ => ⟨fun content _ => ?_, fun e thrown => canonicalThrows thrown⟩, fun e thrown => by cases thrown⟩
  refine (writeEnsures env.logFault _).weaken ?_ (fun _ _ _ fails => fails)
  intro _ t _ _
  exact ⟨fun _ _ => trivial, fun e full => ⟨_, full.2.symm⟩⟩

theorem neverRefused (trade : TradeId) (states : List SessionState) {calls : List (JournalEnv × JournalEntryFields)}
    (passes : Passes (store.journal.lastStateByTrade trade) states)
    (journalled : calls.map (fun call => (call.2.tradeId, call.2.localState)) =
      states.map (fun state => (trade, state.toByte))) : NeverRefused crypto store calls := by
  induction states generalizing store calls with
  | nil =>
      obtain rfl := List.map_eq_nil_iff.mp journalled
      trivial
  | cons state rest ih =>
      obtain ⟨call, more, rfl, first, tail⟩ := List.map_eq_cons_iff.mp journalled
      obtain ⟨same, local_⟩ := Prod.mk.inj first
      have moves : Moves (store.journal.lastStateByTrade call.2.tradeId) call.2.localState := by
        rw [same, local_]
        exact passes.1
      have ensured : Ensures (append crypto call.1 call.2) store (fun _ _ => True) (fun e _ => IsStandard e) :=
        appendEnsures moves
      unfold Ensures at ensured
      unfold NeverRefused
      cases appended : append crypto call.1 call.2 store with
      | ok entry after =>
          have last := appendedState appended
          rw [same, local_, ofByteToByte] at last
          exact ih (last ▸ passes.2) tail
      | error e after =>
          rw [appended] at ensured
          obtain ⟨inner, rfl⟩ := ensured
          trivial

theorem appendRefuses {text : String} (blocked : checkTransition (store.journal.lastStateByTrade given.tradeId)
    given.localState "attempted to append an invalid local state transition" = .error (.tamper text)) :
    append crypto env given store = .error (.tamper text) store := by
  simp only [append]
  generalize stamped : (if given.timestamp = 0 then { given with timestamp := env.now } else given) = fields
  have trade : fields.tradeId = given.tradeId := by
    rw [← stamped]
    split <;> rfl
  have state : fields.localState = given.localState := by
    rw [← stamped]
    split <;> rfl
  simp only [bind_run, get_run, lift_run, trade, state, blocked]

end Appends

section Trades
variable {creator : CreateRoomMessage} {roomId : RoomId} {fee : FeeTerms} {confirm : Bool} {feePosition : FeePosition}
  {s : MediatorSession}

theorem passesOn (operations : List MediatorSession.Operation)
    (mirrored : Mirrored (log MediatorSession.perform s operations)) :
    Passes (some s.state) ((log MediatorSession.perform s operations).map (fun e => e.after.state)) := by
  induction operations generalizing s with
  | nil => trivial
  | cons op rest ih =>
      unfold log at mirrored ⊢
      cases got : accepted MediatorSession.perform s op with
      | false =>
          rw [MediatorSession.performAtomic.rejected got]
          simp only [got, MediatorSession.performAtomic.rejected got] at mirrored
          exact ih mirrored
      | true =>
          simp only [got, if_true] at mirrored
          obtain ⟨valid, later⟩ := List.forall_mem_cons.mp mirrored
          exact ⟨movesOn.mpr valid, ih later⟩

/- Some trade makes this change of state in one step. -/
def Exhibited (origin target : SessionState) : Prop :=
  ∃ creator roomId fee confirm feePosition s operations,
    MediatorSession.construct creator roomId fee confirm feePosition = .ok s ∧
    ∃ e ∈ log MediatorSession.perform s operations, e.before.state = origin ∧ e.after.state = target

/- Small trades that between them take every step there is: the swap worked off, and given up after
some of its steps, for three ways of charging its fee. -/
def swapTrades : List (MediatorSession × List MediatorSession.Operation) :=
  [(false, FeePosition.afterLastRound), (true, .afterLastRound), (false, .beforeLastRound)].flatMap fun config =>
    let s := MediatorSession.swap config.1 config.2
    (List.range 14).map fun n => (s, MediatorSession.cooperation MediatorSession.swapAddressB n s ++ [.abort []])

theorem swapTradesOpened : ∀ trade ∈ swapTrades, ∃ confirm feePosition, MediatorSession.construct
    MediatorSession.swapCreator MediatorSession.swapRoom MediatorSession.swapFee confirm feePosition = .ok trade.1 := by
  intro trade mem
  obtain ⟨config, _, inside⟩ := List.mem_flatMap.mp mem
  obtain ⟨n, _, rfl⟩ := List.mem_map.mp inside
  exact ⟨config.1, config.2, MediatorSession.swapOpened config.1 config.2⟩

def swapsTake (origin target : SessionState) : Bool :=
  swapTrades.any fun trade => (log MediatorSession.perform trade.1 trade.2).any fun e =>
    e.before.state = origin && e.after.state = target

theorem swapsTakeAll {origin target : SessionState} (differ : origin ≠ target)
    (valid : isValidTransition origin target = true) : swapsTake origin target = true := by
  revert differ valid
  cases origin <;> cases target <;> decide +kernel

/- Every step the journal knows is one of some trade's. -/
theorem exhibits {origin target : SessionState} (differ : origin ≠ target)
    (valid : isValidTransition origin target = true) : Exhibited origin target := by
  obtain ⟨trade, inside, takes⟩ := List.any_eq_true.mp (swapsTakeAll differ valid)
  obtain ⟨e, mem, step⟩ := List.any_eq_true.mp takes
  obtain ⟨confirm, feePosition, opened⟩ := swapTradesOpened trade inside
  simp only [Bool.and_eq_true, decide_eq_true_eq] at step
  exact ⟨_, _, _, _, _, _, _, opened, e, mem, step⟩

/- The journal and the mediator agree exactly on the trades whose fee is last, or absent, and on any
other trade until its fee comes up. A trade they agree on is never refused. -/
theorem transitionsMirrored (opened : MediatorSession.construct creator roomId fee confirm feePosition = .ok s) :
    ((∀ operations, Mirrored (log MediatorSession.perform s operations)) ↔
      fee.amount = 0 ∨ feePosition = .afterLastRound) ∧
    (∀ operations,
      (Mirrored (log MediatorSession.perform s operations) ↔ fee.amount = 0 ∨ feePosition = .afterLastRound ∨
        MediatorSession.BeforeFee (log MediatorSession.perform s operations)) ∧
      (Mirrored (log MediatorSession.perform s operations) → ∀ crypto store trade calls,
        store.journal.lastStateByTrade trade = none →
        calls.map (fun call => (call.2.tradeId, call.2.localState)) =
          (statesOf s operations).map (fun state => (trade, state.toByte)) → NeverRefused crypto store calls)) ∧
    ∀ origin target, origin ≠ target → isValidTransition origin target = true → Exhibited origin target := by
  have on := MediatorSession.constructedOnTrack opened
  obtain ⟨_, _, sameFee, _, samePosition, waiting⟩ := MediatorSession.constructedTerms opened
  have early : ¬s.EarlyFee ↔ fee.amount = 0 ∨ feePosition = .afterLastRound := by
    rw [← sameFee, ← samePosition, MediatorSession.noFee, MediatorSession.EarlyFee, not_and_or, ne_eq, not_not]
  have each (operations : List MediatorSession.Operation) := MediatorSession.mirroredIff on waiting operations
  refine ⟨⟨fun always => ?_, fun last operations => (each operations).mpr (.inl (early.mpr last))⟩,
    fun operations => ⟨?_, ?_⟩, fun _ _ => exhibits⟩
  · refine early.mp fun fee => ?_
    obtain ⟨operations, due⟩ := MediatorSession.feeComesUp opened fee.1
    exact ((each operations).mp (always operations)).elim (fun last => last fee) due
  · rw [each operations, early, or_assoc]
  · intro mirrored crypto store trade calls fresh journalled
    refine neverRefused trade (statesOf s operations) ?_ journalled
    rw [fresh]
    exact ⟨⟨.waitingForPeer, by rw [waiting]; rfl, rfl⟩, passesOn operations mirrored⟩

theorem swapMirrored :
    Mirrored (log MediatorSession.perform (MediatorSession.swap true .afterLastRound)
      (MediatorSession.cooperation MediatorSession.swapAddressB 14 (MediatorSession.swap true .afterLastRound))) ∧
    Exhibited .waitingForFeeSent .waitingForFeeConfirmation := by
  obtain ⟨always, _, known⟩ := transitionsMirrored (MediatorSession.swapOpened true .afterLastRound)
  exact ⟨always.mpr (.inr rfl) _, known _ _ (by decide) (by decide)⟩

/- A fee before the first round: the session is joined, and a client that journals so much is refused. -/
def earlyJoin : List MediatorSession.Operation := [.join ⟨MediatorSession.swapRoom, MediatorSession.swapAddressB⟩]

def earlyFields : JournalEntryFields := { firstFields with localState := SessionState.waitingForFeeSent.toByte }

def earlyCalls : List (JournalEnv × JournalEntryFields) :=
  [({ now := 1700000000 }, firstFields), ({ now := 1700000060 }, earlyFields)]

theorem earlyFeeRefused :
    statesOf (MediatorSession.swap false .beforeFirstRound) earlyJoin = [.waitingForPeer, .waitingForFeeSent] ∧
    ¬Mirrored (log MediatorSession.perform (MediatorSession.swap false .beforeFirstRound) earlyJoin) ∧
    earlyCalls.map (fun call => call.2.localState) =
      (statesOf (MediatorSession.swap false .beforeFirstRound) earlyJoin).map SessionState.toByte ∧
    ¬NeverRefused firstCrypto {} earlyCalls := by
  refine ⟨by decide +kernel, ?_, by decide +kernel, ?_⟩
  · intro mirrored
    have invalid : (log MediatorSession.perform (MediatorSession.swap false .beforeFirstRound) earlyJoin).all
        (fun e => isValidTransition e.before.state e.after.state) = false := by decide +kernel
    rw [List.all_eq_true.mpr mirrored] at invalid
    cases invalid
  · have written : accepted (perform firstCrypto) {} ({ now := 1700000000 }, .append firstFields) = true := by
      decide +kernel
    obtain ⟨_, ran⟩ := acceptedIff.mp written
    obtain ⟨entry, after, appended, _⟩ := bind_returns.mp ran
    have last := appendedState appended
    have blocked : checkTransition (after.journal.lastStateByTrade earlyFields.tradeId) earlyFields.localState
        "attempted to append an invalid local state transition" =
          .error (.tamper "attempted to append an invalid local state transition") := by
      rw [show earlyFields.tradeId = firstFields.tradeId from rfl, last]
      rfl
    have refused : append firstCrypto { now := 1700000060 } earlyFields after =
        .error (.tamper "attempted to append an invalid local state transition") after := appendRefuses blocked
    simp only [earlyCalls, NeverRefused, appended, refused, not_false_eq_true]

end Trades
end TradeP2P.Journal
