import Mathlib.Data.List.Basic
import TradeP2P.Mediator.Signals

/-! The withholding gate. The final tranche of a trade is held back until both parties have
acknowledged the receipt for everything before it. -/
namespace TradeP2P.MediatorSession
open Machine

def entersGate (e : Event MediatorSession Operation) : Bool :=
  e.before.state ≠ .waitingForFinalReceiptAck && e.after.state = .waitingForFinalReceiptAck

/- A sent-report on the true final leg: the fee when it comes last, else the second leg of the last round. -/
def reportsFinalLeg (e : Event MediatorSession Operation) : Bool :=
  match e.call with
  | .senderReportedSent _ _ =>
      if e.before.FeeIsLast then e.before.state = .waitingForFeeSent
      else e.before.state = .waitingForSent && e.before.round + 1 = e.before.rounds && e.before.leg = 1
  | _ => false

/- The receipt of the leg right before the final one. -/
def receivesPrecedingLeg (e : Event MediatorSession Operation) : Bool :=
  match e.call with
  | .receiverReportedReceived _ _ =>
      e.before.round + 1 = e.before.rounds && e.before.leg = if e.before.FeeIsLast then 1 else 0
  | _ => false

def reportsFee (e : Event MediatorSession Operation) : Bool :=
  match e.call with
  | .senderReportedSent _ _ => e.before.state = .waitingForFeeSent
  | _ => false

section Events
variable {s : MediatorSession} {e : Event MediatorSession Operation}

/- The gate is entered by one task only, the receipt of the leg before it. -/
theorem entersGateIff (on : e.before.OnSchedule) (step : Step e.before e.call e.after) :
    entersGate e = true ↔ task e = some (.receive (e.before.plan.gateLeg - 1)) := by
  have gate := (planSound on.rounds).gateBound
  obtain ⟨s, op, t⟩ := e
  dsimp only at on step gate ⊢
  have feeStates : s.onceFeeSettled ≠ .waitingForFinalReceiptAck ∧ s.onceFeeReported ≠ .waitingForFinalReceiptAck := by
    unfold onceFeeReported onceFeeSettled
    split_ifs <;> simp
  cases step with
  | joined message waiting room address =>
      have start : (s.joinedBy message.receiveAddressB).state ≠ .waitingForFinalReceiptAck := by
        simp only [joinedBy]
        split <;> simp
      simp [entersGate, task, start]
  | received party waiting sender =>
      obtain ⟨more, leg, _⟩ := onTranche on.toOnTrack (.inr waiting)
      have next := (advancedReaches more leg).state
      have here : s.position + 1 = s.plan.gateLeg ↔ s.position = s.plan.gateLeg - 1 := by omega
      simp only [entersGate, task, waiting, next, arrival, here]
      split_ifs <;> simp_all
  | acknowledged party waiting first =>
      simp only [entersGate, waiting, task]
      split <;> simp
  | feeSent waiting => simp [entersGate, task, feeStates, waiting]
  | confirmed waiting => simp [entersGate, task, feeStates]
  | sent party waiting sender => simp [entersGate, task, waiting]
  | aborted reason unfinished => simp [entersGate, task, abortedWith]

theorem receivesPrecedingLegOf (on : e.before.OnSchedule) (step : Step e.before e.call e.after)
    (enters : entersGate e = true) : receivesPrecedingLeg e = true := by
  have does := (entersGateIff on step).mp enters
  have positive := on.rounds
  obtain ⟨s, op, t⟩ := e
  dsimp only at on step does ⊢ positive
  cases step with
  | received party waiting sender =>
      have leg := on.within.2
      simp only [task, Option.some.injEq, Task.receive.injEq, position] at does
      simp only [receivesPrecedingLeg]
      rcases gateLegCases (s := s) with ⟨last, gate⟩ | ⟨last, gate⟩ <;> simp [last] <;> omega
  | acknowledged party waiting first =>
      simp only [task] at does
      split at does <;> simp at does
  | feeSent waiting => simp [task, waiting] at does
  | sent party waiting sender => simp [task, waiting] at does
  | _ => simp [task] at does

/- The task of a sent-report on the final leg opens the closing of the agenda. -/
theorem finalTask (on : e.before.OnSchedule) (step : Step e.before e.call e.after) (final : reportsFinalLeg e = true) :
    ∃ x rest, task e = some x ∧ e.before.plan.closing = x :: rest := by
  obtain ⟨s, op, t⟩ := e
  dsimp only at on step final ⊢
  cases call : op with
  | senderReportedSent party message =>
      simp only [reportsFinalLeg, call] at final
      by_cases last : s.FeeIsLast
      · have waiting : s.state = .waitingForFeeSent := by simpa [last] using final
        exact ⟨.payFee, _, by simp [task, waiting], by simp [Plan.closing, plan, last, Plan.settleFee]; rfl⟩
      · simp only [last, if_false, Bool.and_eq_true, decide_eq_true_eq] at final
        obtain ⟨⟨waiting, round⟩, leg⟩ := final
        refine ⟨.send (s.plan.legs - 1), _, ?_, by simp [Plan.closing, plan, last]; rfl⟩
        have here : s.position = s.plan.legs - 1 := by
          simp only [position, Plan.legs, plan]
          omega
        simp [task, waiting, here]
  | _ => simp [reportsFinalLeg, call] at final

theorem countersignOf (step : Step e.before e.call e.after) (does : task e = some .countersign) :
    ∃ party, e.call = .acknowledgeFinalReceipt party ∧ e.before.state = .waitingForFinalReceiptAck ∧
      e.before.finalReceiptAcked party = false := by
  obtain ⟨s, op, t⟩ := e
  dsimp only at step does ⊢
  cases step with
  | acknowledged party waiting first => exact ⟨party, rfl, waiting, first⟩
  | feeSent waiting => simp [task, waiting] at does
  | sent party waiting sender => simp [task, waiting] at does
  | _ => simp [task] at does

theorem acknowledgeOf (step : Step e.before e.call e.after) (does : task e = some .acknowledge) :
    ∃ party, e.call = .acknowledgeFinalReceipt party ∧ e.before.state = .waitingForFinalReceiptAck ∧
      e.after.finalReceiptAcked party = true := by
  obtain ⟨s, op, t⟩ := e
  dsimp only at step does ⊢
  cases step with
  | acknowledged party waiting first =>
      refine ⟨party, rfl, waiting, ?_⟩
      unfold MediatorSession.acknowledged
      split <;> cases party <;> rfl
  | feeSent waiting => simp [task, waiting] at does
  | sent party waiting sender => simp [task, waiting] at does
  | _ => simp [task] at does

end Events
/- Windows of a run around the gate, read off the agenda. -/
section Window
variable {s : MediatorSession} {operations : List Operation}
  {pre post : List (Event MediatorSession Operation)} {e : Event MediatorSession Operation}

theorem runEvent (on : s.OnSchedule) (split : log perform s operations = pre ++ e :: post) :
    e.before.OnSchedule ∧ SameTerms s e.before ∧ Step e.before e.call e.after := by
  obtain ⟨xs, _, _, _, here, ok, _⟩ := log_split split
  exact ⟨here ▸ runOnSchedule on xs, here ▸ runSame xs, acceptsIff.mp ok⟩

/- A task that stands once on the agenda is preceded in the run by what precedes it there. -/
theorem tasksBefore (on : s.OnSchedule) (fresh : s.remaining = s.plan.agenda)
    (split : log perform s operations = pre ++ e :: post) {x : Task} (does : task e = some x)
    (xs ys : List Task) (stands : s.plan.agenda = xs ++ x :: ys) : pre.map task = xs.map some := by
  obtain ⟨all, whole⟩ := sessionWorksOff.split performAtomic on.toOnTrack split does
  rw [fresh] at whole
  have once := (planSound on.rounds).nodup
  rw [stands] at once
  have apart := List.nodup_append'.mp once
  have before : x ∉ xs := fun mem => apart.2.2 mem List.mem_cons_self
  have behind : x ∉ ys := (List.nodup_cons.mp apart.2.1).1
  have same := (List.append_cons_inj_of_notMem before behind).mp (stands.symm.trans whole.symm)
  rw [all, ← same.1]

/- The second acknowledgement of the gate follows the first, by the other party, and that
one the entry of the gate. -/
theorem countersigned (on : s.OnSchedule) (fresh : s.remaining = s.plan.agenda)
    (split : log perform s operations = pre ++ e :: post) (does : task e = some .countersign) :
    ∃ before entry first party, pre = before ++ [entry, first] ∧ entersGate entry = true ∧
      first.call = .acknowledgeFinalReceipt party ∧ e.call = .acknowledgeFinalReceipt (otherParty party) := by
  obtain ⟨xs, ends⟩ := (planSound on.rounds).agendaEnds
  have tasks := tasksBefore on fresh split does
    (xs ++ [.receive (s.plan.gateLeg - 1), .acknowledge]) s.plan.closing (by simp [ends])
  rw [List.map_append] at tasks
  obtain ⟨before, tail, rfl, _, two⟩ := List.map_eq_append_iff.mp tasks
  obtain ⟨entry, rest, rfl, enters, one⟩ := List.map_eq_cons_iff.mp two
  obtain ⟨first, rest, rfl, acknowledges, none⟩ := List.map_eq_cons_iff.mp one
  obtain rfl := List.map_eq_nil_iff.mp none
  have atEntry : log perform s operations = before ++ entry :: first :: e :: post := by simp [split]
  have atFirst : log perform s operations = (before ++ [entry]) ++ first :: e :: post := by simp [split]
  obtain ⟨onEntry, sameEntry, stepEntry⟩ := runEvent on atEntry
  obtain ⟨_, _, stepFirst⟩ := runEvent on atFirst
  obtain ⟨_, _, stepLast⟩ := runEvent on split
  obtain ⟨party, call, _, flagged⟩ := acknowledgeOf stepFirst acknowledges
  obtain ⟨last, callLast, _, unflagged⟩ := countersignOf stepLast does
  rw [performAtomic.linked atFirst] at unflagged
  have other : last = otherParty party := by
    cases last <;> cases party <;> simp_all [otherParty]
  refine ⟨before, entry, first, party, rfl, ?_, call, other ▸ callLast⟩
  rw [entersGateIff onEntry stepEntry, enters, sameEntry.plan]

end Window

/- How often the gate is entered and acknowledged in one run. -/
section Counts
variable {s : MediatorSession}

def acknowledgedBy (party : Party) (e : Event MediatorSession Operation) : Bool :=
  e.call = .acknowledgeFinalReceipt party

def doesTask (x : Task) (e : Event MediatorSession Operation) : Bool := task e = some x

theorem countTasks (x : Task) (run : List (Event MediatorSession Operation)) :
    run.countP (doesTask x) = (run.filterMap task).count x := by
  rw [List.count, List.countP_filterMap]
  refine List.countP_congr fun e _ => ?_
  cases does : task e <;> simp [doesTask, does]

theorem entriesOf (on : s.OnSchedule) (operations : List Operation) :
    (log perform s operations).countP entersGate =
      ((log perform s operations).filterMap task).count (.receive (s.plan.gateLeg - 1)) := by
  rw [← countTasks]
  refine List.countP_congr fun e mem => ?_
  obtain ⟨pre, post, split⟩ := List.append_of_mem mem
  obtain ⟨onEvent, same, step⟩ := runEvent on split
  simp [entersGateIff onEvent step, doesTask, same.plan]

theorem acknowledgementsOf (on : s.OnSchedule) (operations : List Operation) :
    (log perform s operations).countP (acknowledgedBy .a) + (log perform s operations).countP (acknowledgedBy .b) =
      ((log perform s operations).filterMap task).count .acknowledge +
      ((log perform s operations).filterMap task).count .countersign := by
  rw [← countTasks, ← countTasks]
  have happens : ∀ e ∈ log perform s operations, Step e.before e.call e.after :=
    fun e mem => (runHappens on.toOnTrack operations mem).step
  generalize log perform s operations = run at happens
  induction run with
  | nil => rfl
  | cons e rest ih =>
      have tail := ih (fun f mem => happens f (List.mem_cons_of_mem _ mem))
      have one : (if acknowledgedBy .a e then 1 else 0) + (if acknowledgedBy .b e then 1 else 0) =
          (if doesTask .acknowledge e then 1 else 0) + (if doesTask .countersign e then 1 else 0) := by
        cases call : e.call with
        | acknowledgeFinalReceipt party =>
            cases party <;> by_cases stays : e.after.state = .waitingForFinalReceiptAck <;>
              simp [acknowledgedBy, doesTask, task, call, stays]
        | senderReportedSent party message =>
            by_cases fee : e.before.state = .waitingForFeeSent <;> simp [acknowledgedBy, doesTask, task, call, fee]
        | _ => simp [acknowledgedBy, doesTask, task, call]
      simp only [List.countP_cons]
      omega

theorem countDone (on : s.OnSchedule) (fresh : s.remaining = s.plan.agenda) (operations : List Operation) (x : Task) :
    ((log perform s operations).filterMap task).count x ≤ s.plan.agenda.count x := by
  have done := sessionWorksOff.done performAtomic on.toOnTrack operations
  rw [fresh] at done
  exact done.sublist.count_le x

theorem onceOnAgenda (positive : 0 < s.rounds) (x : Task) : s.plan.agenda.count x ≤ 1 :=
  List.nodup_iff_count_le_one.mp (planSound positive).nodup x

theorem countersignedOnce (on : s.OnSchedule) (fresh : s.remaining = s.plan.agenda) (operations : List Operation)
    (party : Party) :
    (log perform s operations).countP (acknowledgedBy party) ≤ 1 ∧
      (((log perform s operations).filterMap task).count .countersign = 1 →
        (log perform s operations).countP (acknowledgedBy party) = 1) := by
  have both := acknowledgementsOf on operations
  have first := Nat.le_trans (countDone on fresh operations .acknowledge) (onceOnAgenda on.rounds _)
  have second := Nat.le_trans (countDone on fresh operations .countersign) (onceOnAgenda on.rounds _)
  by_cases done : ((log perform s operations).filterMap task).count .countersign = 0
  · cases party <;> omega
  · obtain ⟨e, mem, does⟩ := List.mem_filterMap.mp (List.count_pos_iff.mp (Nat.pos_of_ne_zero done))
    obtain ⟨pre, post, split⟩ := List.append_of_mem mem
    obtain ⟨before, entry, one, p, whole, _, oneCall, lastCall⟩ := countersigned on fresh split does
    have atLeast (q : Party) : 0 < (log perform s operations).countP (acknowledgedBy q) := by
      refine List.countP_pos_iff.mpr ?_
      by_cases own : q = p
      · exact ⟨one, by simp [split, whole], by simp [acknowledgedBy, oneCall, own]⟩
      · have other : q = otherParty p := by cases q <;> cases p <;> simp_all [otherParty]
        exact ⟨e, mem, by simp [acknowledgedBy, lastCall, other]⟩
    have a := atLeast .a
    have b := atLeast .b
    cases party <;> omega

end Counts

/- The early fee is behind when the gate comes up. -/
section EarlyFee
variable {s : MediatorSession} {operations : List Operation}
  {pre post : List (Event MediatorSession Operation)} {e : Event MediatorSession Operation}

theorem feeBehindGate (on : s.OnSchedule) (fresh : s.remaining = s.plan.agenda)
    (split : log perform s operations = pre ++ e :: post) (enters : entersGate e = true)
    (charges : s.ChargesFee) (early : ¬s.FeeIsLast) :
    (∃ f ∈ pre, reportsFee f = true) ∧
      (s.requireFeeConfirmation = true → ∃ f ∈ pre, f.call = .confirmFeeReceived) := by
  obtain ⟨onEvent, same, step⟩ := runEvent on split
  have does := (entersGateIff onEvent step).mp enters
  rw [same.plan] at does
  have sound := planSound on.rounds
  obtain ⟨xs, ends⟩ := sound.agendaEnds
  have tasks := tasksBefore on fresh split does xs ([.acknowledge, .countersign] ++ s.plan.closing)
    (by simp [ends])
  have closing : s.plan.closing = [.send (s.plan.legs - 1), .receive (s.plan.legs - 1)] := by
    simp [Plan.closing, plan, early]
  obtain ⟨f, leg⟩ : ∃ f, s.plan.feeLeg = some f := by
    cases here : s.feePosition <;> simp [plan, feeLeg, charges, here]
  have behind {x : Task} (mem : x ∈ s.plan.settleFee) : ∃ g ∈ pre, task g = some x := by
    have onAgenda := Plan.feeTasksOnAgenda sound leg mem
    have fees : x = .payFee ∨ x = .confirmFee := by
      unfold Plan.settleFee at mem
      split at mem <;> simp at mem <;> simp [mem]
    have member : x ∈ xs := by
      rw [ends, closing] at onAgenda
      rcases fees with rfl | rfl <;> simpa using onAgenda
    have done : some x ∈ pre.map task := by
      rw [tasks]
      exact List.mem_map.mpr ⟨x, member, rfl⟩
    obtain ⟨g, mem, does⟩ := List.mem_map.mp done
    exact ⟨g, mem, does⟩
  constructor
  · obtain ⟨g, mem, does⟩ := behind (x := .payFee) (by simp [Plan.settleFee])
    refine ⟨g, mem, ?_⟩
    cases call : g.call with
    | senderReportedSent party message =>
        simp only [task, call] at does
        split at does
        · rename_i waiting
          simp [reportsFee, call, waiting]
        · simp at does
    | acknowledgeFinalReceipt party =>
        simp only [task, call] at does
        split at does <;> simp at does
    | _ => simp [task, call] at does
  · intro confirm
    have asks : s.plan.confirm = true := confirm
    obtain ⟨g, mem, does⟩ := behind (x := .confirmFee) (by simp [Plan.settleFee, asks])
    refine ⟨g, mem, ?_⟩
    cases call : g.call with
    | confirmFeeReceived => rfl
    | senderReportedSent party message =>
        simp only [task, call] at does
        split at does <;> simp at does
    | acknowledgeFinalReceipt party =>
        simp only [task, call] at does
        split at does <;> simp at does
    | _ => simp [task, call] at does

end EarlyFee

/- The gate of a run: the final leg is reported only behind it, it opens once and only after
the leg before the final one (with an early fee settled), it is acknowledged once by each
party, one acknowledgement leaves it shut, and a completed trade went through it. -/
structure Gated (s : MediatorSession) (operations : List Operation) : Prop where
  guards : ∀ pre e post, log perform s operations = pre ++ e :: post → reportsFinalLeg e = true →
    ∃ before entry first second party, pre = before ++ [entry, first, second] ∧ entersGate entry = true ∧
      first.call = .acknowledgeFinalReceipt party ∧ second.call = .acknowledgeFinalReceipt (otherParty party)
  opensOnce : (log perform s operations).countP entersGate ≤ 1
  opensAfter : ∀ pre e post, log perform s operations = pre ++ e :: post → entersGate e = true →
    receivesPrecedingLeg e = true ∧
      (s.ChargesFee → ¬s.FeeIsLast → (∃ f ∈ pre, reportsFee f = true) ∧
        (s.requireFeeConfirmation = true → ∃ f ∈ pre, f.call = .confirmFeeReceived))
  acknowledgedOnce : ∀ party, (log perform s operations).countP (acknowledgedBy party) ≤ 1
  eitherOrder : ∀ party, (exec perform s operations).state = .waitingForFinalReceiptAck →
    (exec perform s operations).finalReceiptAcked party = false →
    accepted perform (exec perform s operations) (.acknowledgeFinalReceipt party) = true
  oneKeepsIt : ∀ pre e post party, log perform s operations = pre ++ e :: post →
    e.call = .acknowledgeFinalReceipt party → (∀ f ∈ pre, f.call ≠ .acknowledgeFinalReceipt (otherParty party)) →
    e.after.state = .waitingForFinalReceiptAck
  completePassed : (exec perform s operations).state = .complete →
    (log perform s operations).countP entersGate = 1 ∧
      ∀ party, (log perform s operations).countP (acknowledgedBy party) = 1

theorem sessionsGated {creator : CreateRoomMessage} {roomId : RoomId} {fee : FeeTerms} {confirm : Bool}
    {feePosition : FeePosition} {s : MediatorSession}
    (opened : construct creator roomId fee confirm feePosition = .ok s) (operations : List Operation) :
    Gated s operations := by
  have on := constructedOnSchedule opened
  have fresh := constructedRemaining opened
  have sound := planSound on.rounds
  obtain ⟨xs, ends⟩ := sound.agendaEnds
  constructor
  case guards =>
    intro pre e post split final
    obtain ⟨onEvent, same, step⟩ := runEvent on split
    obtain ⟨x, rest, does, closing⟩ := finalTask onEvent step final
    rw [same.plan] at closing
    have tasks := tasksBefore on fresh split does
      (xs ++ [.receive (s.plan.gateLeg - 1), .acknowledge] ++ [.countersign]) rest (by simp [ends, closing])
    rw [List.map_append] at tasks
    obtain ⟨early, tail, rfl, _, one⟩ := List.map_eq_append_iff.mp tasks
    obtain ⟨second, none, rfl, countersigns, nil⟩ := List.map_eq_cons_iff.mp one
    obtain rfl := List.map_eq_nil_iff.mp nil
    have atSecond : log perform s operations = early ++ second :: e :: post := by simp [split]
    obtain ⟨before, entry, first, party, rfl, enters, firstCall, secondCall⟩ := countersigned on fresh atSecond countersigns
    exact ⟨before, entry, first, second, party, by simp, enters, firstCall, secondCall⟩
  case opensOnce =>
    rw [entriesOf on]
    exact Nat.le_trans (countDone on fresh operations _) (onceOnAgenda on.rounds _)
  case opensAfter =>
    intro pre e post split enters
    obtain ⟨onEvent, _, step⟩ := runEvent on split
    exact ⟨receivesPrecedingLegOf onEvent step enters, feeBehindGate on fresh split enters⟩
  case acknowledgedOnce => exact fun party => (countersignedOnce on fresh operations party).1
  case eitherOrder =>
    exact fun party waiting first => acceptedIff.mpr ⟨_, acceptsIff.mpr (Step.acknowledged party waiting first)⟩
  case oneKeepsIt =>
    intro pre e post party split call alone
    by_contra leaves
    have does : task e = some .countersign := by simp [task, call, leaves]
    obtain ⟨before, entry, first, p, rfl, _, firstCall, lastCall⟩ := countersigned on fresh split does
    rw [call] at lastCall
    obtain rfl : party = otherParty p := by simpa using lastCall
    exact alone first (by simp) (by simp [firstCall])
  case completePassed =>
    intro complete
    have done := (sessionWorksOff.open performAtomic on.toOnTrack operations (by simp [complete])).2
    have finished : (exec perform s operations).remaining = [] := by simp [remaining, complete]
    rw [finished, List.append_nil, fresh] at done
    have stands {x : Task} (mem : x ∈ s.plan.agenda) :
        ((log perform s operations).filterMap task).count x = 1 := by
      rw [done]
      have most := onceOnAgenda on.rounds x
      have least := List.count_pos_iff.mpr mem
      omega
    refine ⟨?_, fun party => (countersignedOnce on fresh operations party).2 (stands (by simp [ends]))⟩
    rw [entriesOf on]
    exact stands (by simp [ends])

theorem swapGated :
    let operations := cooperation swapAddressB 20 (swap true .beforeLastRound)
    (exec perform (swap true .beforeLastRound) operations).state = .complete ∧
      Gated (swap true .beforeLastRound) operations :=
  ⟨by decide, sessionsGated (swapOpened true .beforeLastRound) _⟩

end TradeP2P.MediatorSession
