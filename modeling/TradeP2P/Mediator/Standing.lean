import TradeP2P.Mediator.Settlement
import TradeP2P.Mediator.Signals

/-! Where a session of given terms can come to stand: its state and its two indices, over every run and every setting of the
operator. -/
namespace TradeP2P.Task

/- The state in which a task is due, and its leg if it is a tranche's. -/
def due : Task → SessionState
  | .join => .waitingForPeer
  | .send _ => .waitingForSent
  | .receive _ => .waitingForReceived
  | .acknowledge | .countersign => .waitingForFinalReceiptAck
  | .payFee => .waitingForFeeSent
  | .confirmFee => .waitingForFeeConfirmation

def leg : Task → Option Nat
  | .send k | .receive k => some k
  | _ => none

end TradeP2P.Task

namespace TradeP2P.MediatorSession
open Machine
open Wire (Bytes)

/- Some session of these terms comes to stand there. -/
def Reachable (terms : TradeTerms) (fee : FeeTerms) (state : SessionState) (roundIndex : UInt32) (legIndex : UInt8) : Prop :=
  ∃ (creator : CreateRoomMessage) (roomId : RoomId) (confirm : Bool) (feePosition : FeePosition) (s : MediatorSession)
    (operations : List Operation), creator.terms = terms ∧ construct creator roomId fee confirm feePosition = .ok s ∧
      (exec perform s operations).state = state ∧ (exec perform s operations).roundIndex = roundIndex ∧
      (exec perform s operations).legIndex = legIndex

/- The places for each state, in numbers. A fee is due before all rounds, before the last one or after all of them. -/
def Standing (terms : TradeTerms) (fee : FeeTerms) (state : SessionState) (round leg : Nat) : Prop :=
  match state with
  | .waitingForPeer => round = 0 ∧ leg = 0
  | .waitingForSent | .waitingForReceived => round < terms.rounds.toNat ∧ leg ≤ 1
  | .waitingForFeeSent | .waitingForFeeConfirmation =>
      0 < fee.amount ∧ leg = 0 ∧ (round = 0 ∨ round + 1 = terms.rounds.toNat ∨ round = terms.rounds.toNat)
  | .waitingForFinalReceiptAck =>
      round + 1 = terms.rounds.toNat ∧ leg = 1 ∨ 0 < fee.amount ∧ round = terms.rounds.toNat ∧ leg = 0
  | .complete => round = terms.rounds.toNat ∧ leg = 0
  | .aborted => round < terms.rounds.toNat ∧ leg ≤ 1 ∨ 0 < fee.amount ∧ round = terms.rounds.toNat ∧ leg = 0
instance (terms fee state round leg) : Decidable (Standing terms fee state round leg) := by
  unfold Standing; split <;> infer_instance

section Runs
variable {s t : MediatorSession}

/- Abort leaves a session where it stood. -/
def Stands (s : MediatorSession) : Prop := Standing s.creator.terms s.fee s.state s.round s.leg

theorem onScheduleStands (on : s.OnSchedule) (running : s.state ≠ .aborted) : s.Stands := by
  have place := on.placed
  have positive := on.rounds
  cases state : s.state with
  | aborted => exact absurd state running
  | waitingForFeeSent | waitingForFeeConfirmation =>
    obtain ⟨charges, due⟩ := feeLegCases (on.fee (by simp [state]))
    simp only [Placed, state] at place
    simp only [Stands, Standing, state]
    simp only [position, place.2.1, rounds] at due positive
    refine ⟨charges, place.2.1, ?_⟩
    omega
  | waitingForFinalReceiptAck =>
    simp only [Placed, state] at place
    simp only [Stands, Standing, state]
    rcases place.2 with ⟨last, round, leg⟩ | before
    · exact .inr ⟨last.1, round, leg⟩
    · exact .inl before
  | _ =>
    simp only [Placed, state] at place
    simp only [Stands, Standing, state]
    exact place

theorem abortedStands (on : s.OnSchedule) (stands : s.Stands) (unfinished : s.state ≠ .complete) (reason : Bytes) :
    (s.abortedWith reason).Stands := by
  have positive := on.rounds
  have place : s.round < s.rounds ∧ s.leg ≤ 1 ∨ 0 < s.fee.amount ∧ s.round = s.rounds ∧ s.leg = 0 := by
    simp only [Stands, Standing] at stands
    simp only [rounds] at positive ⊢
    cases state : s.state <;> simp only [state] at stands
    case complete => exact absurd state unfinished
    case aborted => exact stands
    case waitingForPeer => exact .inl (by omega)
    case waitingForSent | waitingForReceived => exact .inl stands
    case waitingForFinalReceiptAck => exact stands.imp_left fun before => by omega
    case waitingForFeeSent | waitingForFeeConfirmation =>
      obtain ⟨charges, leg, first | before | last⟩ := stands
      · exact .inl (by omega)
      · exact .inl (by omega)
      · exact .inr ⟨charges, last, leg⟩
  exact place

theorem Step.stands {op : Operation} (on : s.OnSchedule) (stands : s.Stands) (step : Step s op t) : t.Stands := by
  by_cases closed : t.state = .aborted
  · obtain ⟨reason, rfl⟩ := step.abortsOnly on.toOnTrack closed
    cases step with
    | aborted reason unfinished => exact abortedStands on stands unfinished reason
  · exact onScheduleStands (step.onSchedule on) closed

theorem runStands (on : s.OnSchedule) (running : s.state ≠ .aborted) (operations : List Operation) :
    (exec perform s operations).Stands :=
  (performAtomic.invariant (I := fun t => t.OnSchedule ∧ t.Stands) ⟨on, onScheduleStands on running⟩
    (fun _ _ _ holds ok => ⟨(acceptsIff.mp ok).onSchedule holds.1, (acceptsIff.mp ok).stands holds.1 holds.2⟩) operations).2

end Runs

/-! The task an event does says where the session stands before it. -/

theorem taskDue {e : Event MediatorSession Operation} {x : Task} (step : Step e.before e.call e.after) (does : task e = some x) :
    e.before.state = x.due ∧ ∀ k ∈ x.leg, e.before.position = k := by
  obtain ⟨s, op, t⟩ := e
  dsimp only at step does ⊢
  cases step with
  | joined message waiting room address | received party waiting sender | confirmed waiting =>
    simp only [task, Option.some.injEq] at does
    subst does
    exact ⟨waiting, by simp [Task.leg]⟩
  | feeSent waiting | sent party waiting sender =>
    simp only [task, waiting, Option.some.injEq, if_true, reduceCtorEq, if_false] at does
    subst does
    exact ⟨waiting, by simp [Task.leg]⟩
  | acknowledged party waiting first =>
    simp only [task, Option.some.injEq] at does
    subst does
    split <;> exact ⟨waiting, by simp [Task.leg]⟩
  | aborted reason unfinished => cases does

/-! Every place is reached. A session whose parties cooperate works off its whole agenda, and comes by every leg of it. -/
section Reached
variable {terms : TradeTerms} {fee : FeeTerms}

def opening (terms : TradeTerms) (fee : FeeTerms) (confirm : Bool) (feePosition : FeePosition) : MediatorSession :=
  { creator := ⟨terms, swapAddressB⟩, roomId := swapRoom, fee, requireFeeConfirmation := confirm, feePosition }

structure Opens (terms : TradeTerms) (fee : FeeTerms) : Prop where
  terms : validateTerms terms = .ok ()
  fee : validateFeeTerms fee = .ok ()

theorem Opens.opened (opens : Opens terms fee) (confirm : Bool) (feePosition : FeePosition) :
    construct ⟨terms, swapAddressB⟩ swapRoom fee confirm feePosition = .ok (opening terms fee confirm feePosition) :=
  constructOk.mpr ⟨opens.terms, (by decide : validateAddress swapAddressB = .ok ()), by decide, opens.fee, rfl⟩

theorem Opens.reaches (opens : Opens terms fee) {confirm : Bool} {feePosition : FeePosition} {t : MediatorSession}
    {operations : List Operation} (run : exec perform (opening terms fee confirm feePosition) operations = t)
    {roundIndex : UInt32} {legIndex : UInt8} (round : t.round = roundIndex.toNat) (leg : t.leg = legIndex.toNat) :
    Reachable terms fee t.state roundIndex legIndex :=
  ⟨_, _, _, _, _, operations, rfl, opens.opened confirm feePosition, by rw [run], by rw [run]; exact UInt32.toNat_inj.mp round,
    by rw [run]; exact UInt8.toNat_inj.mp leg⟩

/- Each task of the agenda is done in the course of the session, at its place. -/
structure Doing (s t : MediatorSession) (x : Task) : Prop where
  same : SameTerms s t
  on : t.OnSchedule
  state : t.state = x.due
  position : ∀ k ∈ x.leg, t.position = k

theorem Opens.does (opens : Opens terms fee) {confirm : Bool} {feePosition : FeePosition} {x : Task}
    (onAgenda : x ∈ (opening terms fee confirm feePosition).plan.agenda) :
    ∃ operations t, exec perform (opening terms fee confirm feePosition) operations = t ∧
      Doing (opening terms fee confirm feePosition) t x := by
  have opened := opens.opened confirm feePosition
  have on := constructedOnTrack opened
  obtain ⟨_, _, _, more⟩ := sessionsLive opened []
  obtain ⟨operations, _, _, complete⟩ := more (by simp [opening]) swapAddressB (by decide)
  simp only [exec_nil] at complete
  have whole := completedAgenda opened operations complete
  rw [← whole] at onAgenda
  obtain ⟨e, mem, does⟩ := List.mem_filterMap.mp onAgenda
  obtain ⟨front, _, _, here, step⟩ := log_mem mem
  obtain ⟨state, position⟩ := taskDue (acceptsIff.mp step) does
  refine ⟨front, e.before, here, ?_, ?_, state, position⟩
  · exact here ▸ runSame front
  · exact here ▸ runOnSchedule (constructedOnSchedule opened) front

theorem Opens.positive (opens : Opens terms fee) : 0 < terms.rounds.toNat := (validTerms opens.terms).rounds

theorem Opens.tranche (opens : Opens terms fee) {x : Task} {roundIndex : UInt32} {legIndex : UInt8}
    (tranche : x = .send (2 * roundIndex.toNat + legIndex.toNat) ∨ x = .receive (2 * roundIndex.toNat + legIndex.toNat))
    (round : roundIndex.toNat < terms.rounds.toNat) (leg : legIndex.toNat ≤ 1) :
    ∃ operations t, exec perform (opening terms fee false .afterLastRound) operations = t ∧ t.state = x.due ∧
      t.round = roundIndex.toNat ∧ t.leg = legIndex.toNat := by
  have more : 2 * roundIndex.toNat + legIndex.toNat < (opening terms fee false .afterLastRound).plan.legs := by
    simp only [Plan.legs, plan, opening, rounds]
    omega
  obtain ⟨operations, t, run, doing⟩ := opens.does ((trancheOnAgenda tranche).mpr more)
  have position : t.position = 2 * roundIndex.toNat + legIndex.toNat :=
    doing.position _ (by rcases tranche with rfl | rfl <;> rfl)
  have within := doing.on.within.2
  simp only [MediatorSession.position] at position
  exact ⟨operations, t, run, doing.state, by omega, by omega⟩

theorem Opens.feeTask (opens : Opens terms fee) {x : Task} (task : x = .payFee ∨ x = .confirmFee) {feePosition : FeePosition}
    {round : Nat} (due : (opening terms fee true feePosition).plan.feeLeg = some (2 * round)) :
    ∃ operations t, exec perform (opening terms fee true feePosition) operations = t ∧ t.state = x.due ∧
      t.round = round ∧ t.leg = 0 := by
  have settles : x ∈ (opening terms fee true feePosition).plan.settleFee := by
    rcases task with rfl | rfl <;> simp [Plan.settleFee, plan, opening]
  have sound := planSound (s := opening terms fee true feePosition) opens.positive
  obtain ⟨operations, t, run, doing⟩ := opens.does (Plan.feeTasksOnAgenda sound due settles)
  have here : t.plan.feeLeg = some t.position := by
    refine doing.on.fee ?_
    rcases task with rfl | rfl
    · exact .inl doing.state
    · exact .inr doing.state
  rw [doing.same.plan, due, Option.some.injEq] at here
  have within := doing.on.within.2
  simp only [MediatorSession.position] at here
  exact ⟨operations, t, run, doing.state, by omega, by omega⟩

theorem Opens.feeRounds (charges : 0 < fee.amount) {round : Nat}
    (place : round = 0 ∨ round + 1 = terms.rounds.toNat ∨ round = terms.rounds.toNat) :
    ∃ feePosition, (opening terms fee true feePosition).plan.feeLeg = some (2 * round) := by
  rcases place with first | before | last
  · exact ⟨.beforeFirstRound, by simp [plan, feeLeg, ChargesFee, charges, opening, first]⟩
  · refine ⟨.beforeLastRound, ?_⟩
    have here : terms.rounds.toNat - 1 = round := by omega
    simp [plan, feeLeg, ChargesFee, charges, opening, rounds, here]
  · exact ⟨.afterLastRound, by simp [plan, feeLeg, ChargesFee, charges, opening, rounds, last]⟩

theorem Opens.gate (opens : Opens terms fee) {feePosition : FeePosition} {round leg : Nat} (half : leg ≤ 1)
    (gateLeg : (opening terms fee false feePosition).plan.gateLeg = 2 * round + leg) :
    ∃ operations t, exec perform (opening terms fee false feePosition) operations = t ∧ t.state = .waitingForFinalReceiptAck ∧
      t.round = round ∧ t.leg = leg := by
  have sound := planSound (s := opening terms fee false feePosition) opens.positive
  obtain ⟨before, ending⟩ := sound.agendaEnds
  obtain ⟨operations, t, run, doing⟩ := opens.does (x := .acknowledge) (by rw [ending]; simp)
  have here := doing.on.gate doing.state
  rw [doing.same.plan, gateLeg] at here
  have within := doing.on.within.2
  simp only [MediatorSession.position] at here
  exact ⟨operations, t, run, doing.state, by omega, by omega⟩

theorem Opens.completes (opens : Opens terms fee) : ∃ operations t, exec perform (opening terms fee false .afterLastRound) operations = t ∧
    t.state = .complete ∧ t.round = terms.rounds.toNat ∧ t.leg = 0 := by
  have opened := opens.opened false .afterLastRound
  obtain ⟨_, _, _, more⟩ := sessionsLive opened []
  obtain ⟨operations, _, _, complete⟩ := more (by simp [opening]) swapAddressB (by decide)
  simp only [exec_nil] at complete
  have place := (runOnTrack (constructedOnTrack opened) operations).placed
  have rounds := (runSame (s := opening terms fee false .afterLastRound) operations).rounds
  simp only [Placed, complete, rounds] at place
  exact ⟨operations, _, rfl, complete, place⟩

/- Any place a session stands in short of its end is one it can be aborted in. -/
theorem Opens.aborts (opens : Opens terms fee) {confirm : Bool} {feePosition : FeePosition} {t : MediatorSession}
    {operations : List Operation} (run : exec perform (opening terms fee confirm feePosition) operations = t)
    (unfinished : t.state ≠ .complete) {roundIndex : UInt32} {legIndex : UInt8} (round : t.round = roundIndex.toNat)
    (leg : t.leg = legIndex.toNat) : Reachable terms fee .aborted roundIndex legIndex := by
  have aborts : Accepts perform t (.abort []) (t.abortedWith []) := acceptsIff.mpr (.aborted [] unfinished)
  have run' : exec perform (opening terms fee confirm feePosition) (operations ++ [.abort []]) = t.abortedWith [] := by
    rw [exec_snoc, run, aborts.next]
  exact opens.reaches run' round leg

theorem Opens.reached (opens : Opens terms fee) {state : SessionState} {roundIndex : UInt32} {legIndex : UInt8}
    (stands : Standing terms fee state roundIndex.toNat legIndex.toNat) : Reachable terms fee state roundIndex legIndex := by
  cases state with
  | waitingForPeer =>
    exact opens.reaches (exec_nil (opening terms fee false .afterLastRound)) stands.1.symm stands.2.symm
  | waitingForSent =>
    obtain ⟨operations, t, run, state, round, leg⟩ := opens.tranche (.inl rfl) stands.1 stands.2
    rw [← show t.state = .waitingForSent from state]
    exact opens.reaches run round leg
  | waitingForReceived =>
    obtain ⟨operations, t, run, state, round, leg⟩ := opens.tranche (.inr rfl) stands.1 stands.2
    rw [← show t.state = .waitingForReceived from state]
    exact opens.reaches run round leg
  | waitingForFeeSent =>
    obtain ⟨charges, none, place⟩ := stands
    obtain ⟨feePosition, due⟩ := Opens.feeRounds charges place
    obtain ⟨operations, t, run, state, round, leg⟩ := opens.feeTask (.inl rfl) due
    rw [← show t.state = .waitingForFeeSent from state]
    exact opens.reaches run round (leg.trans none.symm)
  | waitingForFeeConfirmation =>
    obtain ⟨charges, none, place⟩ := stands
    obtain ⟨feePosition, due⟩ := Opens.feeRounds charges place
    obtain ⟨operations, t, run, state, round, leg⟩ := opens.feeTask (.inr rfl) due
    rw [← show t.state = .waitingForFeeConfirmation from state]
    exact opens.reaches run round (leg.trans none.symm)
  | waitingForFinalReceiptAck =>
    rcases stands with ⟨before, second⟩ | ⟨charges, last, none⟩
    · have early : ¬(opening terms fee false .beforeFirstRound).FeeIsLast := fun last => by cases last.2
      have gateLeg : (opening terms fee false .beforeFirstRound).plan.gateLeg = 2 * roundIndex.toNat + legIndex.toNat := by
        obtain ⟨last, _⟩ | ⟨_, gate⟩ := gateLegCases (s := opening terms fee false .beforeFirstRound)
        · exact absurd last early
        · simp only [opening, rounds] at gate ⊢
          omega
      obtain ⟨operations, t, run, state, round, leg⟩ := opens.gate (by omega) gateLeg
      rw [← state]
      exact opens.reaches run round leg
    · have late : (opening terms fee false .afterLastRound).FeeIsLast := ⟨charges, rfl⟩
      have gateLeg : (opening terms fee false .afterLastRound).plan.gateLeg = 2 * roundIndex.toNat + legIndex.toNat := by
        obtain ⟨_, gate⟩ | ⟨early, _⟩ := gateLegCases (s := opening terms fee false .afterLastRound)
        · simp only [opening, rounds] at gate ⊢
          omega
        · exact absurd late early
      obtain ⟨operations, t, run, state, round, leg⟩ := opens.gate (by omega) gateLeg
      rw [← state]
      exact opens.reaches run round leg
  | complete =>
    obtain ⟨operations, t, run, state, round, leg⟩ := opens.completes
    rw [← state]
    exact opens.reaches run (round.trans stands.1.symm) (leg.trans stands.2.symm)
  | aborted =>
    rcases stands with ⟨more, half⟩ | ⟨charges, last, none⟩
    · obtain ⟨operations, t, run, state, round, leg⟩ := opens.tranche (.inl rfl) more half
      have unfinished : t.state ≠ .complete := by rw [state]; simp [Task.due]
      exact opens.aborts run unfinished round leg
    · obtain ⟨feePosition, due⟩ := Opens.feeRounds charges (.inr (.inr last))
      obtain ⟨operations, t, run, state, round, leg⟩ := opens.feeTask (.inl rfl) due
      have unfinished : t.state ≠ .complete := by rw [state]; simp [Task.due]
      exact opens.aborts run unfinished round (leg.trans none.symm)

theorem reachableIff (opens : Opens terms fee) {state : SessionState} {roundIndex : UInt32} {legIndex : UInt8} :
    Reachable terms fee state roundIndex legIndex ↔ Standing terms fee state roundIndex.toNat legIndex.toNat := by
  refine ⟨?_, opens.reached⟩
  rintro ⟨creator, roomId, confirm, feePosition, s, operations, rfl, opened, rfl, rfl, rfl⟩
  have stands := runStands (constructedOnSchedule opened) (by simp [(constructedTerms opened).2.2.2.2.2]) operations
  have same := runSame (s := s) operations
  simp only [Stands, same.creator, same.fee, (constructedTerms opened).1, (constructedTerms opened).2.2.1] at stands
  exact stands

end Reached

end TradeP2P.MediatorSession
