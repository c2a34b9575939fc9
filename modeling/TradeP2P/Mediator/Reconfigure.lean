import TradeP2P.Mediator.Restore

/-! Restarting under other settings. The fee position is not persisted: a restored session
reads the new one against indices that were written under the old one. What is left of its
agenda then tells whether the trade as a whole still pays the fee once. -/
namespace TradeP2P.MediatorSession
open Machine

/- The round the fee comes before. -/
def feeRound (feePosition : FeePosition) (rounds : Nat) : Nat :=
  match feePosition with
  | .beforeFirstRound => 0
  | .beforeLastRound => rounds - 1
  | .afterLastRound => rounds

/- No turn left to report, none to wait for. -/
def Stuck (s : MediatorSession) : Prop :=
  s.state = .waitingForSent ∧ s.roundIndex = s.creator.terms.rounds

/- Every way on from the restart keeps the trade: it never sticks, and completed it has paid
every tranche of every round once and a charged fee once, before and after the restart together. -/
def KeepsTrade (start : MediatorSession) (operations : List Operation) (r : MediatorSession) : Prop :=
  ∀ more, ¬Stuck (exec perform r more) ∧
    ((exec perform r more).state = .complete →
      ∃ turns : List TurnMessage, settledTurns (log perform start operations ++ log perform r more) = turns.map .ok ∧
        (∀ party, (tranchesBy party turns).map (fun turn => turn.roundIndex.toNat) = List.range start.rounds) ∧
        (start.ChargesFee → (feeTurns turns).length = 1))

/- Whether the new position finds the fee where the old one left it: still ahead or already
behind a session between tranches, last or not last for one in the gate or at the fee. -/
def FeeStillFits (s : MediatorSession) (feePosition : FeePosition) : Prop :=
  match s.state with
  | .waitingForPeer | .complete | .aborted => True
  | .waitingForSent | .waitingForReceived =>
      s.round < feeRound s.feePosition s.rounds ↔ s.round < feeRound feePosition s.rounds
  | .waitingForFinalReceiptAck => s.feePosition = .afterLastRound ↔ feePosition = .afterLastRound
  | .waitingForFeeSent | .waitingForFeeConfirmation =>
      (s.feePosition = .afterLastRound ↔ feePosition = .afterLastRound) ∧
        feeRound feePosition s.rounds ≤ feeRound s.feePosition s.rounds
section Fee
variable {s : MediatorSession}

theorem feeLegIs : s.plan.feeLeg = if s.ChargesFee then some (2 * feeRound s.feePosition s.rounds) else none := by
  cases place : s.feePosition <;> simp [plan, feeLeg, feeRound, place]

theorem feeRoundLast (positive : 0 < s.rounds) (feePosition : FeePosition) :
    feePosition = .afterLastRound ↔ feeRound feePosition s.rounds = s.rounds := by
  cases feePosition <;> simp [feeRound] <;> omega

theorem feeRoundBound (feePosition : FeePosition) (rounds : Nat) : feeRound feePosition rounds ≤ rounds := by
  cases feePosition <;> simp [feeRound]

/- How often the fee is still to be reported. -/
theorem remainingFee (on : s.OnTrack) (charges : s.ChargesFee) :
    s.remaining.count .payFee = match s.state with
      | .waitingForPeer => 1
      | .waitingForSent | .waitingForReceived | .waitingForFeeConfirmation =>
          if s.round < feeRound s.feePosition s.rounds then 1 else 0
      | .waitingForFeeSent => 1 + if s.round < feeRound s.feePosition s.rounds then 1 else 0
      | .waitingForFinalReceiptAck => if s.feePosition = .afterLastRound then 1 else 0
      | .complete | .aborted => 0 := by
  have sound := planSound on.rounds
  have leg := on.within.2
  have fee : s.plan.feeLeg = some (2 * feeRound s.feePosition s.rounds) := by rw [feeLegIs, if_pos charges]
  have ahead : (s.plan.after s.position).count .payFee =
      if s.round < feeRound s.feePosition s.rounds then 1 else 0 := by
    have past : s.position < 2 * feeRound s.feePosition s.rounds ↔ s.round < feeRound s.feePosition s.rounds := by
      simp only [position]
      omega
    simp only [Plan.countFee sound, fee, Option.some.injEq, exists_eq_left', past]
  cases state : s.state with
  | waitingForPeer => simp [remaining, state, Plan.countFeeOnAgenda sound, fee]
  | waitingForSent => simp [remaining, state, ahead]
  | waitingForReceived =>
      have more := (onTranche on (.inr state)).2.2
      rw [Plan.afterNext more] at ahead
      simp only [remaining, state, Plan.afterNext more, List.tail_cons]
      rwa [List.count_cons_of_ne (by simp)] at ahead
  | waitingForFeeSent =>
      simp only [remaining, state, List.count_append, ahead, Plan.countSettleFee, if_true]
  | waitingForFeeConfirmation => simp [remaining, state, ahead]
  | waitingForFinalReceiptAck =>
      obtain ⟨feeExit, trancheExit, duty⟩ := gateLeadsToFee on state
      have acks : (if (s.finalReceiptAckedA || s.finalReceiptAckedB) = true then [Task.countersign]
          else [.acknowledge, .countersign]).count .payFee = 0 := by split <;> rfl
      simp only [remaining, state, List.count_append, acks, duty, ahead]
      cases gate : s.finalReceiptGateIsFeeLeg with
      | true =>
          obtain ⟨last, round, _⟩ := feeExit.mp gate
          simp [last.2, round, feeRound, Plan.countSettleFee]
      | false =>
          have round := (trancheExit.mp gate).1
          have positive := on.rounds
          have behind : ¬s.round < s.rounds - 1 := by omega
          have ahead : s.round < s.rounds := by omega
          cases s.feePosition <;> simp [feeRound, behind, ahead]
  | complete | aborted => simp [remaining, state]

/- The tranches ahead do not depend on the settings. -/
theorem remainingTranches {β : Type} {g : Task → Option β} (tranches : ∀ x, (∀ j, x ≠ .send j) → g x = none)
    (on : s.OnTrack) (confirm : Bool) (feePosition : FeePosition) :
    ((s.withFlags false false).withSettings confirm feePosition).remaining.filterMap g = s.remaining.filterMap g := by
  generalize changed : (s.withFlags false false).withSettings confirm feePosition = r
  have state : r.state = s.state := by rw [← changed]; rfl
  have here : r.position = s.position := by rw [← changed]; rfl
  have legs : r.plan.legs = s.plan.legs := by rw [← changed]; rfl
  have after : (r.plan.after r.position).filterMap g = (s.plan.after s.position).filterMap g := by
    rw [Plan.readAfter tranches, Plan.readAfter tranches, here, legs]
  have silent {p : Plan} : p.settleFee.filterMap g = [] := by
    unfold Plan.settleFee
    split <;> simp [tranches .payFee (by simp), tranches .confirmFee (by simp)]
  have duties {p : Plan} {k : Nat} : (p.feeDuty k).filterMap g = [] := by
    unfold Plan.feeDuty
    split
    · exact silent
    · rfl
  have acks {b : Bool} : (if b = true then [Task.countersign] else [.acknowledge, .countersign]).filterMap g = [] := by
    split <;> simp [tranches .acknowledge (by simp), tranches .countersign (by simp)]
  cases stands : s.state with
  | waitingForPeer =>
      simp only [remaining, state, stands]
      rw [Plan.readTranches tranches, Plan.readTranches tranches, legs]
  | waitingForSent => simpa only [remaining, state, stands] using after
  | waitingForReceived =>
      have more := (onTranche on (.inr stands)).2.2
      have moreToo : r.position < r.plan.legs := by rw [here, legs]; exact more
      simp only [remaining, state, stands, Plan.afterNext more, Plan.afterNext moreToo, List.tail_cons]
      simp only [List.filterMap_cons, tranches (.receive _) (by simp), List.filterMap_append, Plan.readDuties tranches,
        Plan.readAfter tranches, here, legs]
  | waitingForFeeSent =>
      simp only [remaining, state, stands, List.filterMap_append, silent, after]
  | waitingForFeeConfirmation =>
      simp only [remaining, state, stands, List.filterMap_cons, tranches .confirmFee (by simp), after]
  | waitingForFinalReceiptAck =>
      simp only [remaining, state, stands, List.filterMap_append, acks, duties, after]
  | complete | aborted => simp [remaining, state, stands]

end Fee

/- The trade over both runs, when the restored session is on its track. -/
section Whole
variable {start : MediatorSession} {operations : List Operation}

theorem wholeTrade (fresh : start.OnSchedule) (valid : ValidTerms start.creator.terms)
    (all : start.remaining = start.plan.agenda) {s r : MediatorSession} (here : exec perform start operations = s)
    (running : s.state ≠ .aborted) {confirm : Bool} {feePosition : FeePosition}
    (restored : (s.withFlags false false).withSettings confirm feePosition = r) (on : r.OnTrack)
    {more : List Operation} (complete : (exec perform r more).state = .complete) :
    ∃ turns : List TurnMessage, settledTurns (log perform start operations ++ log perform r more) = turns.map .ok ∧
      (∀ party, (tranchesBy party turns).map (fun turn => turn.roundIndex.toNat) = List.range start.rounds) ∧
      (start.ChargesFee → (feeTurns turns).length + s.remaining.count .payFee = 1 + r.remaining.count .payFee) := by
  have same : SameTerms start s := here ▸ runSame operations
  have payments : r.paymentOf = start.paymentOf := by
    funext x
    have creator : r.creator = start.creator := by rw [← restored]; exact same.creator
    have fee : r.fee = start.fee := by rw [← restored]; exact same.fee
    have sender (k : Nat) : r.senderOfLeg k = start.senderOfLeg k := by simp only [senderOfLeg, creator]
    have totals (p : Party) : r.totalOf p = start.totalOf p := by cases p <;> simp only [totalOf, creator]
    cases x <;> simp only [paymentOf, trancheOfLeg, sender, totals, creator, fee]
  have validToo : ValidTerms r.creator.terms := by
    rw [← restored]
    exact same.creator ▸ valid
  obtain ⟨before, settledBefore, paidBefore⟩ :=
    settledTurnsOf valid (fun e mem => runHappens fresh.toOnTrack operations mem)
  obtain ⟨after, settledAfter, paidAfter⟩ := settledTurnsOf validToo (fun e mem => runHappens on more mem)
  have first := (sessionWorksOff.open performAtomic fresh.toOnTrack operations (by rwa [here])).2
  have second := (sessionWorksOff.open performAtomic on more (by simp [complete])).2
  have finished : (exec perform r more).remaining = [] := by simp [remaining, complete]
  rw [here, all] at first
  rw [finished, List.append_nil] at second
  rw [second, payments] at paidAfter
  generalize (log perform start operations).filterMap task = done at first paidBefore
  refine ⟨before ++ after, ?_, fun party => ?_, fun charges => ?_⟩
  · rw [settledTurns, List.filterMap_append, List.map_append]
    exact congrArg₂ _ settledBefore settledAfter
  · have tranches : ∀ x, (∀ j, x ≠ Task.send j) → (start.paymentOf x).bind (trancheBy party) = none := by
      intro x other
      cases x with
      | send j => exact absurd rfl (other j)
      | payFee => simp [paymentOf, trancheBy]
      | _ => rfl
    have read : ((before ++ after).map paid).filterMap (trancheBy party) =
        (start.plan.agenda.filterMap start.paymentOf).filterMap (trancheBy party) := by
      have ahead := remainingTranches tranches (here ▸ runOnTrack fresh.toOnTrack operations) confirm feePosition
      rw [restored] at ahead
      rw [List.map_append, paidBefore, paidAfter, ← first]
      simp only [List.filterMap_append, List.filterMap_filterMap, ahead]
    have indices := congrArg (List.map Prod.fst) ((tranchesByPaid party (before ++ after)).trans
      (read.trans (agendaTranches party)))
    simp only [List.map_map, Function.comp_def, List.map_id'] at indices
    exact indices
  · have fees : ∀ x, x ≠ Task.payFee → (start.paymentOf x).bind (fun payment : Payment =>
        if payment.round = none then some (payment.sender, payment.amount) else none) = none := by
      intro x other
      cases x with
      | payFee => exact absurd rfl other
      | send j => simp [paymentOf]
      | _ => rfl
    have length (tasks : List Task) : ((tasks.filterMap start.paymentOf).filterMap (fun payment : Payment =>
        if payment.round = none then some (payment.sender, payment.amount) else none)).length =
        tasks.count .payFee := by
      rw [List.filterMap_filterMap, Plan.readFees fees]
      simp [paymentOf]
    have counted := congrArg List.length (feeTurnsPaid (before ++ after))
    rw [List.length_map, List.map_append, paidBefore, paidAfter, List.filterMap_append, List.length_append, length,
      length] at counted
    have total := congrArg (List.count Task.payFee) first
    have leg : start.plan.feeLeg.isSome = true := by simp [feeLegIs, charges]
    rw [List.count_append, Plan.countFeeOnAgenda (planSound fresh.rounds), if_pos leg] at total
    omega

end Whole
/- Where the restored session stands on its track and where it does not. -/
section Fits
variable {s r : MediatorSession} {confirm : Bool} {feePosition : FeePosition}

theorem feeAtRound (on : s.OnSchedule) (waiting : s.state = .waitingForFeeSent ∨ s.state = .waitingForFeeConfirmation) :
    s.ChargesFee ∧ feeRound s.feePosition s.rounds = s.round ∧ s.leg = 0 := by
  have leg : s.leg = 0 := by
    have place := on.placed
    rcases waiting with waiting | waiting <;> (simp only [Placed, waiting] at place; exact place.2.1)
  have fee := on.fee waiting
  rw [feeLegIs] at fee
  split at fee
  · rename_i charges
    simp only [Option.some.injEq, position] at fee
    exact ⟨charges, by omega, leg⟩
  · contradiction

/- When a restored session is on its track: nothing but its gate or its fee can be out of place. -/
def StandsUnder (s : MediatorSession) (feePosition : FeePosition) : Prop :=
  match s.state with
  | .waitingForFinalReceiptAck => s.FeeIsLast → feePosition = .afterLastRound
  | .waitingForFeeSent | .waitingForFeeConfirmation => s.feePosition = .afterLastRound ↔ feePosition = .afterLastRound
  | _ => True

theorem fitsStands (on : s.OnSchedule) (fits : s.ChargesFee → s.FeeStillFits feePosition) :
    s.StandsUnder feePosition := by
  cases stands : s.state with
  | waitingForFinalReceiptAck =>
      simp only [FeeStillFits, StandsUnder, stands] at fits ⊢
      exact fun last => (fits last.1).mp last.2
  | waitingForFeeSent | waitingForFeeConfirmation =>
      have charges := (feeAtRound on (by simp [stands])).1
      simp only [FeeStillFits, StandsUnder, stands] at fits ⊢
      exact (fits charges).1
  | _ => simp [StandsUnder, stands]

theorem restoredOnTrack (on : s.OnSchedule) (restored : (s.withFlags false false).withSettings confirm feePosition = r) :
    r.OnTrack ↔ s.StandsUnder feePosition := by
  have place := on.placed
  have positive := on.rounds
  have rounds : r.rounds = s.rounds := by rw [← restored]; rfl
  have round : r.round = s.round := by rw [← restored]; rfl
  have leg : r.leg = s.leg := by rw [← restored]; rfl
  have state : r.state = s.state := by rw [← restored]; rfl
  have charges : r.ChargesFee = s.ChargesFee := by rw [← restored]; rfl
  have moved : r.feePosition = feePosition := by rw [← restored]; rfl
  have flags : r.finalReceiptAckedA = false := by rw [← restored]; rfl
  have placed : r.OnTrack ↔ r.Placed := ⟨fun track => track.placed, fun placed => ⟨rounds ▸ positive, placed⟩⟩
  rw [placed]
  cases stands : s.state with
  | waitingForPeer | waitingForSent | waitingForReceived | complete | aborted =>
      simp only [Placed, StandsUnder, state, stands, round, leg, rounds] at place ⊢
      exact iff_true_intro place
  | waitingForFeeSent | waitingForFeeConfirmation =>
      obtain ⟨charged, here, first⟩ := feeAtRound on (by simp [stands])
      have last := feeRoundLast positive s.feePosition
      simp only [Placed, StandsUnder, state, stands, round, leg, rounds, charges, moved, charged, first, true_and,
        last, here] at place ⊢
      have bound := on.within.1
      split
      · rename_i after
        simp [after]
      · rename_i early
        simp only [early, iff_false]
        omega
  | waitingForFinalReceiptAck =>
      have late : r.FeeIsLast ↔ s.ChargesFee ∧ feePosition = .afterLastRound := by
        simp only [FeeIsLast, charges, moved]
      simp only [Placed, StandsUnder, state, stands, round, leg, rounds, late, flags] at place ⊢
      rcases place.2 with ⟨last, all, zero⟩ | ⟨all, one⟩
      · have other : ¬(s.round + 1 = s.rounds ∧ s.leg = 1) := by omega
        simp [last, last.1, all, zero]
      · have notLast : ¬s.FeeIsLast := by
          intro last
          rcases gateLegCases (s := s) with ⟨_, gate⟩ | ⟨early, _⟩
          · have here := on.gate stands
            simp only [position] at here
            omega
          · exact early last
        simp [all, one, notLast]

/- On its track the restored session owes the fee as often as the old one exactly when it fits. -/
theorem fitsCount (on : s.OnSchedule) (restored : (s.withFlags false false).withSettings confirm feePosition = r)
    (track : r.OnTrack) (charges : s.ChargesFee) :
    s.FeeStillFits feePosition ↔ r.remaining.count .payFee = s.remaining.count .payFee := by
  have rounds : r.rounds = s.rounds := by rw [← restored]; rfl
  have round : r.round = s.round := by rw [← restored]; rfl
  have state : r.state = s.state := by rw [← restored]; rfl
  have moved : r.feePosition = feePosition := by rw [← restored]; rfl
  have charged : r.ChargesFee := by rw [← restored]; exact charges
  have under := (restoredOnTrack on restored).mp track
  have behind (waiting : s.state = .waitingForFeeSent ∨ s.state = .waitingForFeeConfirmation) :
      (if s.round < feeRound feePosition s.rounds then 1 else 0) =
          (if s.round < feeRound s.feePosition s.rounds then 1 else 0) ↔
        feeRound feePosition s.rounds ≤ feeRound s.feePosition s.rounds := by
    have here := (feeAtRound on waiting).2.1
    split_ifs <;> simp <;> omega
  rw [remainingFee track charged, remainingFee on.toOnTrack charges, state, round, rounds, moved]
  cases stands : s.state with
  | waitingForPeer | complete | aborted => simp [FeeStillFits, stands]
  | waitingForSent | waitingForReceived =>
      simp only [FeeStillFits, stands]
      split_ifs with new old old <;> simp [new, old]
  | waitingForFeeSent =>
      simp only [StandsUnder, stands] at under
      simp only [FeeStillFits, stands, under, true_and, Nat.add_left_cancel_iff]
      exact (behind (.inl stands)).symm
  | waitingForFeeConfirmation =>
      simp only [StandsUnder, stands] at under
      simp only [FeeStillFits, stands, under, true_and]
      exact (behind (.inr stands)).symm
  | waitingForFinalReceiptAck =>
      simp only [FeeStillFits, stands]
      split_ifs <;> simp_all

end Fits

/- What goes wrong off the track: the gate or the fee leads to the wrong place. -/
section Breaks
variable {s r : MediatorSession} {confirm : Bool} {feePosition : FeePosition}

theorem passGate (waiting : r.state = .waitingForFinalReceiptAck) (flags : r = r.withFlags false false)
    (tranche : r.finalReceiptGateIsFeeLeg = false) :
    ∃ more, (exec perform r more).state = .waitingForSent ∧ (exec perform r more).roundIndex = r.roundIndex ∧
      (exec perform r more).creator = r.creator := by
  have first := firstAcknowledgement waiting .a
  rw [← flags] at first
  have second : Step (r.recordFinalReceiptAck .a) (.acknowledgeFinalReceipt .b)
      ((r.recordFinalReceiptAck .a).acknowledged .b) := by
    refine Step.acknowledged .b waiting ?_
    rw [flags]
    rfl
  have leaves : ((r.recordFinalReceiptAck .a).acknowledged .b).state = .waitingForSent := by
    have gate : ((r.recordFinalReceiptAck .a).recordFinalReceiptAck .b).finalReceiptGateIsFeeLeg = false := tranche
    have other : (r.recordFinalReceiptAck .a).finalReceiptAcked .a = true := rfl
    have exits : (r.recordFinalReceiptAck .a).finalReceiptGateIsFeeLeg = false := tranche
    simp [MediatorSession.acknowledged, otherParty, other, exits]
  have index : ((r.recordFinalReceiptAck .a).acknowledged .b).roundIndex = r.roundIndex := by
    unfold MediatorSession.acknowledged
    split <;> rfl
  refine ⟨[.acknowledgeFinalReceipt .a, .acknowledgeFinalReceipt .b], ?_⟩
  have ok : Accepts perform (r.recordFinalReceiptAck .a) (.acknowledgeFinalReceipt .b) _ := acceptsIff.mpr second
  rw [exec_cons, first.next, exec_cons, exec_nil, ok.next]
  exact ⟨leaves, index, (second.same).creator⟩

/- The fee is reported and, where asked for, confirmed; nothing else is paid on the way. -/
theorem settleFeeRun (waiting : r.state = .waitingForFeeSent ∨ r.state = .waitingForFeeConfirmation) :
    ∃ more, exec perform r more = r.inState r.onceFeeSettled ∧
      ∃ fees : List TurnMessage, settledTurns (log perform r more) = fees.map .ok ∧ ∀ turn ∈ fees, turn.isFee = true := by
  have confirms {q : MediatorSession} (asked : q.state = .waitingForFeeConfirmation) :
      Accepts perform q .confirmFeeReceived (q.inState q.onceFeeSettled) := acceptsIff.mpr (Step.confirmed asked)
  rcases waiting with waiting | waiting
  · have reports : Accepts perform r (.senderReportedSent .a ⟨r.roomId, r.roundIndex, .a⟩) (r.inState r.onceFeeReported) :=
      acceptsIff.mpr (Step.feeSent waiting)
    obtain ⟨turn, current, fee⟩ : ∃ turn, r.currentTurn = .ok turn ∧ turn.isFee = true :=
      ⟨_, turnAtFee waiting, rfl⟩
    by_cases confirm : r.requireFeeConfirmation = true
    · have reported : r.onceFeeReported = .waitingForFeeConfirmation := by simp [onceFeeReported, confirm]
      rw [reported] at reports
      have confirmed := confirms (q := r.inState .waitingForFeeConfirmation) rfl
      refine ⟨[.senderReportedSent .a ⟨r.roomId, r.roundIndex, .a⟩, .confirmFeeReceived], ?_, [turn], ?_, by simpa using fee⟩
      · rw [exec_cons, reports.next, exec_cons, exec_nil, confirmed.next]
        rfl
      · simp only [log, reports.accepted, reports.next, confirmed.accepted, if_true, settledTurns, settledTurn,
          List.filterMap_cons, List.filterMap_nil, current]
        rfl
    · have reported : r.onceFeeReported = r.onceFeeSettled := by simp [onceFeeReported, confirm]
      rw [reported] at reports
      refine ⟨[.senderReportedSent .a ⟨r.roomId, r.roundIndex, .a⟩], ?_, [turn], ?_, by simpa using fee⟩
      · rw [exec_cons, exec_nil, reports.next]
      · simp only [log, reports.accepted, if_true, settledTurns, settledTurn, List.filterMap_cons, List.filterMap_nil,
          current]
        rfl
  · have confirmed := confirms waiting
    refine ⟨[.confirmFeeReceived], ?_, [], ?_, by simp⟩
    · rw [exec_cons, exec_nil, confirmed.next]
    · simp only [log, confirmed.accepted, if_true, settledTurns, settledTurn, List.filterMap_cons, List.filterMap_nil]
      rfl

/- Whatever fee turns come after, the tranches behind the restart are those not ahead of it. -/
theorem tranchesBehind {start : MediatorSession} {operations : List Operation} (fresh : start.OnSchedule)
    (valid : ValidTerms start.creator.terms) (all : start.remaining = start.plan.agenda)
    (here : exec perform start operations = s) (running : s.state ≠ .aborted) {turns fees : List TurnMessage}
    (settled : settledTurns (log perform start operations) ++ fees.map .ok = turns.map .ok)
    (onlyFees : ∀ turn ∈ fees, turn.isFee = true) (party : Party) :
    (tranchesBy party turns).length +
      ((s.remaining.filterMap start.paymentOf).filterMap (trancheBy party)).length = start.rounds := by
  obtain ⟨before, settledBefore, paidBefore⟩ :=
    settledTurnsOf valid (fun e mem => runHappens fresh.toOnTrack operations mem)
  rw [settledBefore, ← List.map_append] at settled
  have joined : before ++ fees = turns :=
    (List.map_injective_iff.mpr (fun _ _ same => Except.ok.inj same)) settled
  have none : tranchesBy party fees = [] := by
    refine List.filter_eq_nil_iff.mpr fun turn mem => ?_
    simp [onlyFees turn mem]
  have split := (sessionWorksOff.open performAtomic fresh.toOnTrack operations (by rwa [here])).2
  rw [here, all] at split
  have read := agendaTranches (s := start) party
  rw [← split, List.filterMap_append, List.filterMap_append, ← paidBefore, ← tranchesByPaid] at read
  have lengths := congrArg List.length read
  simp only [List.length_append, List.length_map, List.length_range] at lengths
  rw [← joined, tranchesBy, List.filter_append]
  rw [tranchesBy] at lengths none
  rw [none, List.append_nil]
  exact lengths

/- Off its track the restored session sticks, or completes with tranches unpaid. -/
theorem offTrackBreaks {start : MediatorSession} {operations : List Operation} (fresh : start.OnSchedule)
    (valid : ValidTerms start.creator.terms) (all : start.remaining = start.plan.agenda)
    (here : exec perform start operations = s) (on : s.OnSchedule)
    (restored : (s.withFlags false false).withSettings confirm feePosition = r)
    (off : ¬s.StandsUnder feePosition) : ¬KeepsTrade start operations r := by
  intro keeps
  have rounds : r.creator.terms.rounds = s.creator.terms.rounds := by rw [← restored]; rfl
  have index : r.roundIndex = s.roundIndex := by rw [← restored]; rfl
  have state : r.state = s.state := by rw [← restored]; rfl
  have moved : r.feePosition = feePosition := by rw [← restored]; rfl
  have place := on.placed
  have atEnd (full : s.round = s.rounds) : s.roundIndex = s.creator.terms.rounds := UInt32.toNat_inj.mp full
  cases stands : s.state with
  | waitingForPeer | waitingForSent | waitingForReceived | complete | aborted =>
      simp [StandsUnder, stands] at off
  | waitingForFinalReceiptAck =>
      simp only [StandsUnder, stands, Classical.not_imp] at off
      have full : s.round = s.rounds := by
        simp only [Placed, stands] at place
        rcases place.2 with ⟨_, full, _⟩ | ⟨round, leg⟩
        · exact full
        · have gate := on.gate stands
          rcases gateLegCases (s := s) with ⟨_, late⟩ | ⟨early, _⟩
          · simp only [position] at gate
            omega
          · exact absurd off.1 early
      have tranche : r.finalReceiptGateIsFeeLeg = false := by simp [finalReceiptGateIsFeeLeg, moved, off.2]
      obtain ⟨more, sent, stays, creator⟩ := passGate (state.trans stands) (by rw [← restored]; rfl) tranche
      exact (keeps more).1 ⟨sent, by rw [stays, creator, index, rounds, atEnd full]⟩
  | waitingForFeeSent | waitingForFeeConfirmation =>
      obtain ⟨charges, atRound, leg⟩ := feeAtRound on (by simp [stands])
      obtain ⟨more, ends, fees, settled, onlyFees⟩ := settleFeeRun (r := r) (by simp [state, stands])
      simp only [StandsUnder, stands] at off
      by_cases late : feePosition = .afterLastRound
      · have early : s.feePosition ≠ .afterLastRound := fun last => off ⟨fun _ => late, fun _ => last⟩
        have complete : (exec perform r more).state = .complete := by simp [ends, onceFeeSettled, moved, late]
        obtain ⟨turns, joined, ranges, _⟩ := (keeps more).2 complete
        rw [settledTurns, List.filterMap_append] at joined
        have behind := tranchesBehind fresh valid all here (by simp [stands]) (by rw [← joined, ← settled]; rfl)
          onlyFees (start.senderOfLeg s.position)
        have paid := congrArg List.length (ranges (start.senderOfLeg s.position))
        rw [List.length_map, List.length_range] at paid
        -- The tranche of the leg the session stands at is still ahead of it.
        have more : s.position < s.plan.legs := by
          have bound := feeRoundBound s.feePosition s.rounds
          have notLast := (feeRoundLast on.rounds s.feePosition).not.mp early
          simp only [position, Plan.legs, plan]
          omega
        have ahead : Task.send s.position ∈ s.remaining := by
          simp [remaining, stands, Plan.afterNext more]
        have unpaid : (s.position / 2, start.trancheOfLeg s.position) ∈
            (s.remaining.filterMap start.paymentOf).filterMap (trancheBy (start.senderOfLeg s.position)) := by
          rw [List.filterMap_filterMap]
          exact List.mem_filterMap.mpr ⟨_, ahead, by simp [paymentOf, trancheBy]⟩
        have some := List.length_pos_of_mem unpaid
        omega
      · have last : s.feePosition = .afterLastRound := by
          by_contra early
          exact off ⟨fun last => absurd last early, fun last => absurd last late⟩
        have full : s.round = s.rounds := by rw [← atRound]; exact (feeRoundLast on.rounds _).mp last
        have sent : (exec perform r more).state = .waitingForSent := by simp [ends, onceFeeSettled, moved, late]
        refine (keeps more).1 ⟨sent, ?_⟩
        rw [ends]
        exact index.trans ((atEnd full).trans rounds.symm)

end Breaks

/- A restart under other settings keeps the trade exactly when no fee is charged or the new
position finds the fee where the old one left it. -/
theorem restartKeepsTrade {creator : CreateRoomMessage} {roomId : RoomId} {fee : FeeTerms} {confirm : Bool}
    {feePosition : FeePosition} {start : MediatorSession}
    (opened : construct creator roomId fee confirm feePosition = .ok start) (operations : List Operation)
    (confirmNow : Bool) (feePositionNow : FeePosition) :
    let s := exec perform start operations
    ∃ r, s.restarted confirmNow feePositionNow = .ok r ∧
      (KeepsTrade start operations r ↔ fee.amount = 0 ∨ s.FeeStillFits feePositionNow) := by
  intro s
  have here : exec perform start operations = s := rfl
  clear_value s
  have fresh := constructedOnSchedule opened
  have valid := constructedValid opened
  have all := constructedRemaining opened
  have on : s.OnSchedule := here ▸ runOnSchedule fresh operations
  have same : SameTerms start s := here ▸ runSame operations
  have persistable : Persistable s := here ▸ runPersistable (constructedPersistable opened) operations
  obtain ⟨_, _, rfl, _⟩ := constructedTerms opened
  refine ⟨_, restartedOk persistable on.toOnTrack confirmNow feePositionNow, ?_⟩
  generalize restored : (s.withFlags false false).withSettings confirmNow feePositionNow = r
  have free : start.fee.amount = 0 ↔ ¬s.ChargesFee := by rw [noFee, same.chargesFee]
  have state : r.state = s.state := by rw [← restored]; rfl
  rw [free, ← imp_iff_not_or]
  by_cases under : s.StandsUnder feePositionNow
  · have track := (restoredOnTrack on restored).mpr under
    by_cases running : s.state = .aborted
    · -- An aborted session stays aborted, and fits every position.
      have fits : s.FeeStillFits feePositionNow := by simp [FeeStillFits, running]
      refine iff_of_true (fun more => ?_) (fun _ => fits)
      have stays : (exec perform r more).state = .aborted :=
        performAtomic.invariant (I := fun t => t.state = .aborted) (state.trans running)
          (fun t op u closed ok => by
            have kept := abortedStays closed ok.accepted
            rwa [ok.next] at kept) more
      exact ⟨by simp [Stuck, stays], by simp [stays]⟩
    · constructor
      · intro keeps charges
        rw [fitsCount on restored track charges]
        have address : validateAddress swapAddressB = .ok () := by decide
        obtain ⟨more, complete⟩ : ∃ more, (exec perform r more).state = .complete :=
          ⟨_, cooperationCompletes address track (by rwa [state]) (Nat.le_refl _)⟩
        obtain ⟨turns, settled, _, once⟩ := (keeps more).2 complete
        obtain ⟨turns', settled', _, counted⟩ := wholeTrade fresh valid all here running restored track complete
        have one : turns = turns' :=
          (List.map_injective_iff.mpr (fun _ _ same => Except.ok.inj same)) (settled.symm.trans settled')
        have charged : start.ChargesFee := same.chargesFee ▸ charges
        have total := counted charged
        have paid := once charged
        rw [one] at paid
        omega
      · intro fits more
        refine ⟨fun stuck => ?_, fun complete => ?_⟩
        · have short := (onTranche (runOnTrack track more) (.inl stuck.1)).1
          have full := congrArg UInt32.toNat stuck.2
          simp only [round, rounds] at short
          omega
        · obtain ⟨turns, settled, ranges, counted⟩ := wholeTrade fresh valid all here running restored track complete
          refine ⟨turns, settled, ranges, fun charged => ?_⟩
          have charges : s.ChargesFee := same.chargesFee ▸ charged
          have equal := (fitsCount on restored track charges).mp (fits charges)
          have total := counted charged
          omega
  · refine iff_of_false (offTrackBreaks fresh valid all here on restored under) ?_
    exact fun fits => under (fitsStands on fits)

/- The swap before its last round, the fee of the old position still ahead: kept there, the trade is kept. -/
theorem swapKept :
    let s := exec perform (swap true .beforeLastRound) (cooperation swapAddressB 3 (swap true .beforeLastRound))
    s.state = .waitingForSent ∧ ∃ r, s.restarted false .afterLastRound = .ok r ∧
      KeepsTrade (swap true .beforeLastRound) (cooperation swapAddressB 3 (swap true .beforeLastRound)) r := by
  intro s
  have waiting : s.state = .waitingForSent := by decide
  have fits : s.FeeStillFits .afterLastRound := by
    simp only [FeeStillFits, waiting]
    decide
  obtain ⟨r, back, keeps⟩ := restartKeepsTrade (swapOpened true .beforeLastRound)
    (cooperation swapAddressB 3 (swap true .beforeLastRound)) false .afterLastRound
  exact ⟨waiting, r, back, keeps.mpr (.inr fits)⟩

/- The swap in the middle of round 0 with its fee paid up front: restarted with the fee last, it pays it twice. -/
theorem swapPaysTwice :
    let start := swap false .beforeFirstRound
    let before := cooperation swapAddressB 3 start
    let s := exec perform start before
    let r := (s.withFlags false false).withSettings false .afterLastRound
    let after := cooperation swapAddressB 20 r
    construct swapCreator swapRoom swapFee false .beforeFirstRound = .ok start ∧
      s.restarted false .afterLastRound = .ok r ∧ (exec perform r after).state = .complete ∧
      (log perform start before ++ log perform r after).countP reportsFee = 2 :=
  ⟨swapOpened false .beforeFirstRound, by decide, by decide, by decide⟩

end TradeP2P.MediatorSession
