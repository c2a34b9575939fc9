import TradeP2P.Mediator.Settlement

/-! Whether a replayed report can count twice. A signal carries the room, the round and the
sender and nothing else, so two tasks of the agenda are told apart exactly when their
signals differ. -/
namespace TradeP2P.MediatorSession
open Machine

def Operation.isReport : Operation → Bool
  | .senderReportedSent _ _ | .receiverReportedReceived _ _ => true
  | _ => false

/- The reports a run accepted, in order. -/
def reports (run : List (Event MediatorSession Operation)) : List Operation :=
  (run.map Event.call).filter Operation.isReport

/- The report that answers a task. -/
def reportOf (s : MediatorSession) : Task → Option Operation
  | .send k =>
      some (.senderReportedSent (s.senderOfLeg k) ⟨s.roomId, UInt32.ofNat (k / 2), s.senderOfLeg k⟩)
  | .receive k =>
      some (.receiverReportedReceived (otherParty (s.senderOfLeg k))
        ⟨s.roomId, UInt32.ofNat (k / 2), s.senderOfLeg k⟩)
  | .payFee => s.plan.feeLeg.map fun f => .senderReportedSent .a ⟨s.roomId, UInt32.ofNat (f / 2), .a⟩
  | _ => none

section Schedule
variable {s : MediatorSession}

theorem runOnSchedule (on : s.OnSchedule) (calls : List Operation) : (exec perform s calls).OnSchedule :=
  performAtomic.invariant on (fun _ _ _ on ok => (acceptsIff.mp ok).onSchedule on) calls

theorem constructedOnSchedule {creator : CreateRoomMessage} {roomId : RoomId} {fee : FeeTerms} {confirm : Bool}
    {feePosition : FeePosition} (opened : construct creator roomId fee confirm feePosition = .ok s) :
    s.OnSchedule := by
  obtain ⟨_, _, _, _, _, waiting⟩ := constructedTerms opened
  exact ⟨constructedOnTrack opened, by simp [waiting], by simp [waiting]⟩

theorem SameTerms.reportOf {t : MediatorSession} (same : SameTerms s t) : t.reportOf = s.reportOf := by
  funext x
  cases x <;> simp only [MediatorSession.reportOf, same.senderOfLeg, same.roomId, same.plan]

theorem roundAtLeg (leg : s.leg ≤ 1) : UInt32.ofNat (s.position / 2) = s.roundIndex := by
  rw [← (positionSplit leg).1]
  exact UInt32.ofNat_toNat

theorem reportOfTask {t : MediatorSession} {op : Operation} (on : s.OnSchedule) (step : Step s op t) :
    (task ⟨s, op, t⟩).bind s.reportOf = if op.isReport then some op else none := by
  cases step with
  | feeSent waiting =>
      have fee := on.fee (.inl waiting)
      simp [task, waiting, reportOf, fee, roundAtLeg on.within.2, Operation.isReport]
  | sent party waiting sender =>
      obtain rfl : s.senderOfLeg s.position = party := by
        rw [senderAtLeg (.inl waiting) on.within.2] at sender
        exact Except.ok.inj sender
      simp [task, waiting, reportOf, roundAtLeg on.within.2, Operation.isReport]
  | received party waiting sender =>
      obtain rfl : s.senderOfLeg s.position = party := by
        rw [senderAtLeg (.inr waiting) on.within.2] at sender
        exact Except.ok.inj sender
      simp [task, reportOf, roundAtLeg on.within.2, Operation.isReport]
  | acknowledged party waiting first =>
      simp only [task, Option.bind_some, Operation.isReport]
      split <;> rfl
  | _ => rfl

theorem reportsOfTasks (on : s.OnSchedule) (operations : List Operation) :
    reports (log perform s operations) = ((log perform s operations).filterMap task).filterMap s.reportOf := by
  have each : ∀ e ∈ log perform s operations,
      (task e).bind s.reportOf = if e.call.isReport then some e.call else none := by
    intro e mem
    obtain ⟨xs, _, _, here, ok⟩ := log_mem mem
    have same := runSame (s := s) xs
    rw [here] at same
    rw [← same.reportOf]
    exact reportOfTask (here ▸ runOnSchedule on xs) (acceptsIff.mp ok)
  rw [List.filterMap_filterMap, reports, List.filter_map]
  generalize log perform s operations = run at each
  induction run with
  | nil => rfl
  | cons e rest ih =>
      rw [List.filterMap_cons, each e List.mem_cons_self]
      have tail := ih (fun e mem => each e (List.mem_cons_of_mem _ mem))
      cases report : e.call.isReport <;> simp [report, tail]

end Schedule

/- Which tasks of the agenda share a report. -/
section Clash
variable {s : MediatorSession}

theorem distinctOfNodup {α β : Type} {f : α → Option β} {tasks : List α} {x y : α} {b : β}
    (nodup : (tasks.filterMap f).Nodup) (left : x ∈ tasks) (right : y ∈ tasks) (fx : f x = some b)
    (fy : f y = some b) : x = y := by
  induction tasks with
  | nil => simp at left
  | cons head rest ih =>
      have tail : (rest.filterMap f).Nodup := nodup.sublist ((List.sublist_cons_self head rest).filterMap f)
      have fresh {z : α} (mem : z ∈ rest) (here : f head = some b) : f z ≠ some b := by
        intro there
        rw [List.filterMap_cons_some here] at nodup
        exact (List.nodup_cons.mp nodup).1 (List.mem_filterMap.mpr ⟨z, mem, there⟩)
      rcases List.mem_cons.mp left with here | left <;> rcases List.mem_cons.mp right with there | right
      · rw [here, there]
      · exact absurd fy (fresh right (here ▸ fx))
      · exact absurd fx (fresh left (there ▸ fy))
      · exact ih tail left right

theorem trancheOnAgenda {j : Nat} {x : Task} (tranche : x = .send j ∨ x = .receive j) :
    x ∈ s.plan.agenda ↔ j < s.plan.legs := by
  have count : s.plan.agenda.count x = if j < s.plan.legs then 1 else 0 := by
    have apart : x ≠ .join := by rcases tranche with rfl | rfl <;> simp
    have free : (s.plan.duties 0).count x = 0 := by
      rcases tranche with rfl | rfl <;> simp [Plan.countDuties, Plan.countSettleFee]
    simp [Plan.agenda, List.count_cons_of_ne apart.symm, List.count_append, free, Plan.countTranche tranche]
  rw [← List.count_pos_iff, count]
  split <;> simp_all

theorem feeOnAgenda (positive : 0 < s.rounds) : .payFee ∈ s.plan.agenda ↔ s.plan.feeLeg.isSome = true := by
  rw [← List.count_pos_iff, Plan.countFeeOnAgenda (planSound positive)]
  split <;> simp_all

theorem roundOfLeg {j k : Nat} (left : j ≤ s.plan.legs) (right : k ≤ s.plan.legs)
    (same : UInt32.ofNat (j / 2) = UInt32.ofNat (k / 2)) : j / 2 = k / 2 := by
  have bound := s.creator.terms.rounds.toNat_lt
  have legs : s.plan.legs = 2 * s.creator.terms.rounds.toNat := rfl
  have size : UInt32.size = 2 ^ 32 := rfl
  have values := congrArg UInt32.toNat same
  rwa [UInt32.toNat_ofNat_of_lt' (by omega), UInt32.toNat_ofNat_of_lt' (by omega)] at values

/- Two legs with one round and one sender are the same leg. -/
theorem legOfSender {j k : Nat} (round : j / 2 = k / 2) (sender : s.senderOfLeg j = s.senderOfLeg k) : j = k := by
  have pair := senderOfRound (s := s) (s.senderOfLeg j) (j / 2)
  have left : j = 2 * (j / 2) ∨ j = 2 * (j / 2) + 1 := by omega
  have right : k = 2 * (j / 2) ∨ k = 2 * (j / 2) + 1 := by omega
  generalize j / 2 = r at pair left right
  rcases left with rfl | rfl <;> rcases right with rfl | rfl <;> simp_all

/- With no fee, or with the fee last, every report belongs to one task. -/
theorem reportsDistinct (on : s.OnTrack) (late : ∀ f, s.plan.feeLeg = some f → f = s.plan.legs) :
    (s.plan.agenda.filterMap s.reportOf).Nodup := by
  refine List.pairwise_filterMap.mpr ((planSound on.rounds).nodup.imp_of_mem ?_)
  intro x y memX memY apart b fx b' fy same
  subst same
  have feeLate {j : Nat} (tranche : Task.send j ∈ s.plan.agenda) {f : Nat} (fee : s.plan.feeLeg = some f) :
      UInt32.ofNat (f / 2) ≠ UInt32.ofNat (j / 2) := by
    have more : j < s.plan.legs := (trancheOnAgenda (.inl rfl)).mp tranche
    have last := late f fee
    have even := (planSound on.rounds).even f fee
    intro same
    have round := roundOfLeg (s := s) (by omega) (by omega) same
    omega
  have sameLeg {j k : Nat} (left : j < s.plan.legs) (right : k < s.plan.legs)
      (round : UInt32.ofNat (j / 2) = UInt32.ofNat (k / 2)) (sender : s.senderOfLeg j = s.senderOfLeg k) : j = k :=
    legOfSender (roundOfLeg (Nat.le_of_lt left) (Nat.le_of_lt right) round) sender
  cases x <;> cases y <;> simp only [reportOf, Option.map_eq_some_iff, Option.some.injEq, reduceCtorEq] at fx fy
  case send.send j k =>
    have left := (trancheOnAgenda (.inl rfl)).mp memX
    have right := (trancheOnAgenda (.inl rfl)).mp memY
    rw [← fy] at fx
    simp only [Operation.senderReportedSent.injEq, RoundSignalMessage.mk.injEq] at fx
    exact apart (congrArg _ (sameLeg left right fx.2.2.1 fx.1))
  case receive.receive j k =>
    have left := (trancheOnAgenda (.inr rfl)).mp memX
    have right := (trancheOnAgenda (.inr rfl)).mp memY
    rw [← fy] at fx
    simp only [Operation.receiverReportedReceived.injEq, RoundSignalMessage.mk.injEq] at fx
    exact apart (congrArg _ (sameLeg left right fx.2.2.1 fx.2.2.2))
  case send.payFee j =>
    obtain ⟨f, fee, report⟩ := fy
    rw [← fx] at report
    simp only [Operation.senderReportedSent.injEq, RoundSignalMessage.mk.injEq] at report
    exact feeLate memX fee report.2.2.1
  case payFee.send j =>
    obtain ⟨f, fee, report⟩ := fx
    rw [← fy] at report
    simp only [Operation.senderReportedSent.injEq, RoundSignalMessage.mk.injEq] at report
    exact feeLate memY fee report.2.2.1
  case payFee.payFee => exact apart rfl
  case send.receive => rw [← fy] at fx; cases fx
  case receive.send => rw [← fy] at fx; cases fx
  case receive.payFee =>
    obtain ⟨_, _, report⟩ := fy
    rw [← fx] at report
    cases report
  case payFee.receive =>
    obtain ⟨_, _, report⟩ := fx
    rw [← fy] at report
    cases report

/- An early fee is reported with the very signal of A's tranche in the round it comes before. -/
theorem reportsClash (on : s.OnTrack) {f : Nat} (fee : s.plan.feeLeg = some f) (early : f < s.plan.legs) :
    ¬(s.plan.agenda.filterMap s.reportOf).Nodup := by
  intro nodup
  have even := (planSound on.rounds).even f fee
  have half : 2 * (f / 2) = f := by omega
  obtain ⟨k, more, round, sender⟩ : ∃ k, k < s.plan.legs ∧ k / 2 = f / 2 ∧ s.senderOfLeg k = .a := by
    have pair := senderOfRound (s := s) .a (f / 2)
    rw [half] at pair
    rcases pair with ⟨own, _⟩ | ⟨_, own⟩
    · exact ⟨f, early, rfl, own⟩
    · have legs : s.plan.legs = 2 * s.plan.rounds := rfl
      exact ⟨f + 1, by omega, by omega, own⟩
  have tranche := (trancheOnAgenda (s := s) (x := Task.send k) (.inl rfl)).mpr more
  have onAgenda := (feeOnAgenda on.rounds).mpr (by rw [fee]; rfl)
  have one := distinctOfNodup nodup tranche onAgenda (b := .senderReportedSent .a ⟨s.roomId, UInt32.ofNat (f / 2), .a⟩)
    (by simp [reportOf, sender, round]) (by simp [reportOf, fee])
  cases one

end Clash

/- No report is accepted twice in any run exactly when the fee is not charged early. -/
theorem reportsUnique {creator : CreateRoomMessage} {roomId : RoomId} {fee : FeeTerms} {confirm : Bool}
    {feePosition : FeePosition} {s : MediatorSession}
    (opened : construct creator roomId fee confirm feePosition = .ok s) :
    (∀ operations, (reports (log perform s operations)).Nodup) ↔
      fee.amount = 0 ∨ feePosition = .afterLastRound := by
  have on := constructedOnSchedule opened
  have whole := constructedRemaining opened
  obtain ⟨_, _, rfl, _, rfl, waiting⟩ := constructedTerms opened
  constructor
  · intro unique
    by_contra early
    obtain ⟨charged, place⟩ := not_or.mp early
    have charges : s.ChargesFee := not_not.mp (fun free => charged (noFee.mpr free))
    have notLast : ¬s.FeeIsLast := fun last => place last.2
    obtain ⟨f, leg⟩ : ∃ f, s.plan.feeLeg = some f := by
      cases here : s.feePosition <;> simp [plan, feeLeg, charges, here]
    have before := (planSound on.rounds).early f (decide_eq_false notLast) leg
    -- The run in which everybody cooperates does the whole agenda.
    have address : validateAddress swapAddressB = .ok () := by decide
    obtain ⟨operations, complete⟩ : ∃ operations, (exec perform s operations).state = .complete :=
      ⟨_, cooperationCompletes address on.toOnTrack (by simp [waiting]) (Nat.le_refl _)⟩
    have done := (sessionWorksOff.open performAtomic on.toOnTrack operations (by simp [complete])).2
    have finished : (exec perform s operations).remaining = [] := by simp [remaining, complete]
    rw [finished, List.append_nil, whole] at done
    have nodup := unique operations
    rw [reportsOfTasks on, done] at nodup
    exact reportsClash on.toOnTrack leg before nodup
  · intro late operations
    rw [reportsOfTasks on]
    have done := sessionWorksOff.done performAtomic on.toOnTrack operations
    rw [whole] at done
    refine List.Nodup.sublist (done.sublist.filterMap _) (reportsDistinct on.toOnTrack ?_)
    intro f leg
    rcases late with free | place
    · exact absurd (feeLegCases leg).1 (noFee.mp free)
    · have last := (planSound on.rounds).last (decide_eq_true ⟨(feeLegCases leg).1, place⟩)
      exact Option.some.inj (leg.symm.trans last)

theorem swapReportsUnique :
    let operations := cooperation swapAddressB 20 (swap true .afterLastRound)
    (reports (log perform (swap true .afterLastRound) operations)).length = 9 ∧
      (reports (log perform (swap true .afterLastRound) operations)).Nodup :=
  ⟨by decide, (reportsUnique (swapOpened true .afterLastRound)).mpr (.inr rfl) _⟩

/- A reports the fee of round 0 sent, then sends the same bytes again: the first tranche counts as sent. -/
theorem swapReplayAccepted :
    let fresh := swap false .beforeFirstRound
    let report := Operation.senderReportedSent .a ⟨swapRoom, 0, .a⟩
    construct swapCreator swapRoom swapFee false .beforeFirstRound = .ok fresh ∧
    (log perform fresh [.join ⟨swapRoom, swapAddressB⟩, report, report]).map Event.call =
      [.join ⟨swapRoom, swapAddressB⟩, report, report] ∧
    ¬(reports (log perform fresh [.join ⟨swapRoom, swapAddressB⟩, report, report])).Nodup := by
  refine ⟨swapOpened false .beforeFirstRound, by decide, ?_⟩
  have twice : reports (log perform (swap false .beforeFirstRound)
      [.join ⟨swapRoom, swapAddressB⟩, .senderReportedSent .a ⟨swapRoom, 0, .a⟩,
        .senderReportedSent .a ⟨swapRoom, 0, .a⟩]) =
      [.senderReportedSent .a ⟨swapRoom, 0, .a⟩, .senderReportedSent .a ⟨swapRoom, 0, .a⟩] := by decide
  simp [twice]

end TradeP2P.MediatorSession
