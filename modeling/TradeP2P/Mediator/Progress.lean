import TradeP2P.Mediator.Agenda
import TradeP2P.Mediator.Step

/-! The session works off the agenda of its configuration: what is left of it can be read
off the state, the two indices and the gate's flags, and every accepted operation other
than an abort does exactly the task at its head. -/
namespace TradeP2P.MediatorSession
open Machine

def feeLeg (s : MediatorSession) : Option Nat :=
  if s.ChargesFee then
    match s.feePosition with
    | .beforeFirstRound => some 0
    | .beforeLastRound => some (2 * (s.rounds - 1))
    | .afterLastRound => some (2 * s.rounds)
  else none

def plan (s : MediatorSession) : Plan :=
  { rounds := s.rounds, feeLeg := s.feeLeg, feeLast := decide s.FeeIsLast, confirm := s.requireFeeConfirmation }

/- The leg a session stands at. -/
def position (s : MediatorSession) : Nat := 2 * s.round + s.leg

theorem planSound {s : MediatorSession} (positive : 0 < s.rounds) : s.plan.Sound := by
  refine ⟨positive, ?_, ?_, ?_⟩
  · intro last
    obtain ⟨fee, place⟩ := of_decide_eq_true last
    simp [plan, feeLeg, fee, place, Plan.legs]
  · intro k early fee
    have early : ¬s.FeeIsLast := of_decide_eq_false early
    simp only [plan, feeLeg] at fee
    split at fee
    · rename_i charges
      cases place : s.feePosition <;> simp only [place, Option.some.injEq, Plan.legs, plan] at fee ⊢
      · omega
      · omega
      · exact absurd ⟨charges, place⟩ early
    · contradiction
  · intro k fee
    simp only [plan, feeLeg] at fee
    split at fee
    · cases place : s.feePosition <;> simp only [place, Option.some.injEq] at fee <;> omega
    · contradiction

/- Where a session can stand in each state. -/
def Placed (s : MediatorSession) : Prop :=
  match s.state with
  | .waitingForPeer => s.round = 0 ∧ s.leg = 0
  | .waitingForSent | .waitingForReceived => s.round < s.rounds ∧ s.leg ≤ 1
  | .waitingForFeeSent | .waitingForFeeConfirmation =>
      s.ChargesFee ∧ s.leg = 0 ∧
        if s.feePosition = .afterLastRound then s.round = s.rounds else s.round < s.rounds
  | .waitingForFinalReceiptAck =>
      ¬(s.finalReceiptAckedA = true ∧ s.finalReceiptAckedB = true) ∧
        ((s.FeeIsLast ∧ s.round = s.rounds ∧ s.leg = 0) ∨ (s.round + 1 = s.rounds ∧ s.leg = 1))
  | .complete => s.round = s.rounds ∧ s.leg = 0
  | .aborted => s.round ≤ s.rounds ∧ s.leg ≤ 1
instance (s) : Decidable (Placed s) := by unfold Placed; split <;> infer_instance

structure OnTrack (s : MediatorSession) : Prop where
  rounds : 0 < s.rounds
  placed : s.Placed

def remaining (s : MediatorSession) : List Task :=
  match s.state with
  | .waitingForPeer => s.plan.agenda
  | .waitingForSent => s.plan.after s.position
  | .waitingForReceived => (s.plan.after s.position).tail
  | .waitingForFeeSent => s.plan.settleFee ++ s.plan.after s.position
  | .waitingForFeeConfirmation => .confirmFee :: s.plan.after s.position
  | .waitingForFinalReceiptAck =>
      (if s.finalReceiptAckedA || s.finalReceiptAckedB then [.countersign] else [.acknowledge, .countersign]) ++
        (s.plan.feeDuty s.position ++ s.plan.after s.position)
  | .complete | .aborted => []

/- The task an accepted call did. An abort does none. -/
def task (e : Event MediatorSession Operation) : Option Task :=
  match e.call with
  | .join _ => some .join
  | .senderReportedSent _ _ =>
      some (if e.before.state = .waitingForFeeSent then .payFee else .send e.before.position)
  | .receiverReportedReceived _ _ => some (.receive e.before.position)
  | .acknowledgeFinalReceipt _ =>
      some (if e.after.state = .waitingForFinalReceiptAck then .acknowledge else .countersign)
  | .confirmFeeReceived => some .confirmFee
  | .abort _ => none

/- What a session does on reaching a leg. -/
def arrival (p : Plan) (k : Nat) : SessionState :=
  if k = p.gateLeg then .waitingForFinalReceiptAck
  else if p.feeLeg = some k then .waitingForFeeSent
  else if k = p.legs then .complete
  else .waitingForSent

/- Setting the state alone moves nothing else. -/
section Setters
variable (s : MediatorSession) (state : SessionState) (party : Party) (address : Wire.Bytes)

@[simp] theorem inStateState : (s.inState state).state = state := rfl
@[simp] theorem inStatePlan : (s.inState state).plan = s.plan := rfl
@[simp] theorem inStateRounds : (s.inState state).rounds = s.rounds := rfl
@[simp] theorem inStateRound : (s.inState state).round = s.round := rfl
@[simp] theorem inStateLeg : (s.inState state).leg = s.leg := rfl
@[simp] theorem inStatePosition : (s.inState state).position = s.position := rfl
@[simp] theorem inStateChargesFee : (s.inState state).ChargesFee = s.ChargesFee := rfl
@[simp] theorem inStateFeePosition : (s.inState state).feePosition = s.feePosition := rfl

@[simp] theorem joinedByRounds : (s.joinedBy address).rounds = s.rounds := rfl
@[simp] theorem joinedByPlan : (s.joinedBy address).plan = s.plan := rfl
@[simp] theorem joinedByLeg : (s.joinedBy address).leg = s.leg := rfl
@[simp] theorem joinedByPosition : (s.joinedBy address).position = s.position := rfl

@[simp] theorem recordPlan : (s.recordFinalReceiptAck party).plan = s.plan := by cases party <;> rfl
@[simp] theorem recordState : (s.recordFinalReceiptAck party).state = s.state := by cases party <;> rfl
@[simp] theorem recordRounds : (s.recordFinalReceiptAck party).rounds = s.rounds := by cases party <;> rfl
@[simp] theorem recordRound : (s.recordFinalReceiptAck party).round = s.round := by cases party <;> rfl
@[simp] theorem recordLeg : (s.recordFinalReceiptAck party).leg = s.leg := by cases party <;> rfl
@[simp] theorem recordPosition : (s.recordFinalReceiptAck party).position = s.position := by cases party <;> rfl
@[simp] theorem recordChargesFee : (s.recordFinalReceiptAck party).ChargesFee = s.ChargesFee := by cases party <;> rfl
@[simp] theorem recordFeePosition : (s.recordFinalReceiptAck party).feePosition = s.feePosition := by
  cases party <;> rfl
@[simp] theorem recordFeeIsLast : (s.recordFinalReceiptAck party).FeeIsLast = s.FeeIsLast := by cases party <;> rfl

end Setters

/- The fields no operation touches. -/
structure SameTerms (s t : MediatorSession) : Prop where
  creator : t.creator = s.creator
  roomId : t.roomId = s.roomId
  fee : t.fee = s.fee
  requireFeeConfirmation : t.requireFeeConfirmation = s.requireFeeConfirmation
  feePosition : t.feePosition = s.feePosition

section Frame
variable {s t : MediatorSession}

theorem SameTerms.rounds (same : SameTerms s t) : t.rounds = s.rounds := by
  simp only [MediatorSession.rounds, same.creator]

theorem SameTerms.chargesFee (same : SameTerms s t) : t.ChargesFee = s.ChargesFee := by
  simp only [ChargesFee, same.fee]

theorem SameTerms.feeIsLast (same : SameTerms s t) : t.FeeIsLast = s.FeeIsLast := by
  simp only [FeeIsLast, same.chargesFee, same.feePosition]

theorem SameTerms.plan (same : SameTerms s t) : t.plan = s.plan := by
  simp only [MediatorSession.plan, feeLeg, same.rounds, same.chargesFee, same.feePosition, same.feeIsLast,
    same.requireFeeConfirmation]

theorem advancedSame : SameTerms s s.advanced := by
  have run := advanceAfterReceiptRun s
  simp only [advanceAfterReceipt, bind_run, get_run, set_run, ite_run] at run
  generalize s.advanced = t at run
  split_ifs at run <;> (cases run; exact ⟨rfl, rfl, rfl, rfl, rfl⟩)

theorem acknowledgedSame {party : Party} : SameTerms s (s.acknowledged party) := by
  unfold acknowledged
  split <;> cases party <;> exact ⟨rfl, rfl, rfl, rfl, rfl⟩

theorem Step.same {op : Operation} (step : Step s op t) : SameTerms s t := by
  cases step with
  | received party waiting sender => exact advancedSame
  | acknowledged party waiting first => exact acknowledgedSame
  | _ => exact ⟨rfl, rfl, rfl, rfl, rfl⟩

end Frame

/- Where a receipt leads, in the terms of the agenda. -/
section Advance
variable {s : MediatorSession}

theorem roundNext (more : s.round < s.rounds) : (s.roundIndex + 1).toNat = s.round + 1 := by
  have bound := s.creator.terms.rounds.toNat_lt
  simp only [round, rounds] at *
  rw [UInt32.toNat_add, UInt32.toNat_one, Nat.mod_eq_of_lt (by omega)]

theorem legZero : s.legIndex = 0 ↔ s.leg = 0 := by
  rw [← UInt8.toNat_inj]
  rfl

theorem lastRound (more : s.round < s.rounds) :
    (s.roundIndex + 1 = s.creator.terms.rounds) ↔ s.round + 1 = s.rounds := by
  rw [← UInt32.toNat_inj, roundNext more]
  rfl

theorem penultimateRound (more : s.round < s.rounds) :
    (s.roundIndex + 1 = s.creator.terms.rounds - 1) ↔ s.round + 1 = s.rounds - 1 := by
  have one : (1 : UInt32) ≤ s.creator.terms.rounds := by
    rw [UInt32.le_iff_toNat_le, UInt32.toNat_one]
    simp only [rounds] at more
    omega
  rw [← UInt32.toNat_inj, roundNext more, UInt32.toNat_sub_of_le _ _ one]
  rfl

theorem arrivalWithin (more : s.round < s.rounds) :
    arrival s.plan (2 * s.round + 1) =
      if s.round + 1 = s.rounds ∧ ¬s.FeeIsLast then .waitingForFinalReceiptAck else .waitingForSent := by
  have sound := planSound (s := s) (by omega)
  have odd : s.plan.feeLeg ≠ some (2 * s.round + 1) := fun fee => by
    have := sound.even _ fee
    omega
  have open_ : 2 * s.round + 1 ≠ 2 * s.rounds := by omega
  by_cases last : s.FeeIsLast
  · simp [arrival, Plan.gateLeg, Plan.legs, plan, last, open_] at odd ⊢
    exact odd
  · have gate : 2 * s.round + 1 = 2 * s.rounds - 1 ↔ s.round + 1 = s.rounds := by omega
    simp [arrival, Plan.gateLeg, Plan.legs, plan, last, open_, gate] at odd ⊢
    simp [odd]

theorem arrivalBeyond (more : s.round < s.rounds) :
    arrival s.plan (2 * (s.round + 1)) =
      if s.ChargesFee ∧ s.feePosition = .beforeLastRound ∧ s.round + 1 = s.rounds - 1 then .waitingForFeeSent
      else if s.round + 1 = s.rounds then
        if s.FeeIsLast then .waitingForFinalReceiptAck else .complete
      else .waitingForSent := by
  have even : 2 * (s.round + 1) ≠ 2 * s.rounds - 1 := by omega
  have all : 2 * (s.round + 1) = 2 * s.rounds ↔ s.round + 1 = s.rounds := by omega
  have penultimate : 2 * (s.rounds - 1) = 2 * (s.round + 1) ↔ s.round + 1 = s.rounds - 1 := by omega
  have end_ : s.rounds = s.round + 1 ↔ s.round + 1 = s.rounds := eq_comm
  by_cases fee : s.ChargesFee
  · cases place : s.feePosition <;>
      simp [arrival, Plan.gateLeg, Plan.legs, plan, feeLeg, FeeIsLast, fee, place, even, all, penultimate, end_]
    split_ifs <;> simp_all
  · simp [arrival, Plan.gateLeg, Plan.legs, plan, feeLeg, FeeIsLast, fee, even, all]

structure Reaches (s t : MediatorSession) : Prop where
  position : t.position = s.position + 1
  leg : t.leg ≤ 1
  addressB : t.receiveAddressB = s.receiveAddressB
  state : t.state = arrival s.plan (s.position + 1)
  cleared : t.state = .waitingForFinalReceiptAck → t.finalReceiptAckedA = false ∧ t.finalReceiptAckedB = false

theorem noFee : s.fee.amount = 0 ↔ ¬s.ChargesFee := by
  unfold ChargesFee
  rw [← UInt64.toNat_inj, UInt64.lt_iff_toNat_lt, UInt64.toNat_zero]
  omega

theorem freeOrEarly : (s.fee.amount = 0 ∨ s.feePosition ≠ .afterLastRound) ↔ ¬s.FeeIsLast := by
  simp only [FeeIsLast, noFee, not_and_or, ne_eq]

theorem advancedReaches (more : s.round < s.rounds) (leg : s.leg ≤ 1) : Reaches s s.advanced := by
  have run := advanceAfterReceiptRun s
  simp only [advanceAfterReceipt, bind_run, get_run, set_run, ite_run, legZero, lastRound more, penultimateRound more,
    beq_iff_eq, bne_iff_ne, Bool.and_eq_true, Bool.or_eq_true, freeOrEarly] at run
  generalize s.advanced = t at run
  by_cases first : s.leg = 0
  · have here : s.position + 1 = 2 * s.round + 1 := by simp only [position, first]
    rw [if_pos first] at run
    split_ifs at run with last <;>
      (cases run
       refine ⟨?_, by simp [MediatorSession.leg], rfl, ?_, by simp⟩
       · rw [here]
         simp [position, MediatorSession.leg, round]
       · simp [here, arrivalWithin more, last])
  · have here : s.position + 1 = 2 * (s.round + 1) := by
      simp only [position]
      omega
    have charges : s.fee.amount > 0 ↔ s.ChargesFee := Iff.rfl
    have feeLast : s.ChargesFee ∧ s.feePosition = .afterLastRound ↔ s.FeeIsLast := Iff.rfl
    rw [if_neg first] at run
    simp only [charges, feeLast] at run
    split_ifs at run with fee last after <;>
      (cases run
       refine ⟨?_, by simp [MediatorSession.leg], rfl, ?_, by simp⟩
       · rw [here]
         simp only [position, MediatorSession.leg, round, roundNext more]
         rfl
       · rw [here, arrivalBeyond more]
         split_ifs
         rfl)

end Advance

/- A session that has just reached a leg has that leg's duties and all after it ahead. -/
section Arrival
variable {s t : MediatorSession}

theorem positionSplit (leg : t.leg ≤ 1) :
    t.round = t.position / 2 ∧ t.leg = t.position % 2 := by
  simp only [position]
  omega

theorem feeLegCases {k : Nat} (fee : s.plan.feeLeg = some k) :
    s.ChargesFee ∧ (s.feePosition = .beforeFirstRound ∧ k = 0 ∨
      s.feePosition = .beforeLastRound ∧ k = 2 * (s.rounds - 1) ∨
      s.feePosition = .afterLastRound ∧ k = 2 * s.rounds) := by
  simp only [plan, feeLeg] at fee
  split at fee
  · rename_i charges
    refine ⟨charges, ?_⟩
    cases place : s.feePosition <;> simp_all
  · contradiction

theorem gateLegCases : s.FeeIsLast ∧ s.plan.gateLeg = 2 * s.rounds ∨
    ¬s.FeeIsLast ∧ s.plan.gateLeg = 2 * s.rounds - 1 := by
  by_cases last : s.FeeIsLast <;> simp [Plan.gateLeg, Plan.legs, plan, last]

theorem arrivalPlaced (positive : 0 < t.rounds) (leg : t.leg ≤ 1) (within : t.position ≤ t.plan.legs)
    (state : t.state = arrival t.plan t.position)
    (cleared : t.state = .waitingForFinalReceiptAck → t.finalReceiptAckedA = false ∧ t.finalReceiptAckedB = false) :
    t.Placed := by
  obtain ⟨round, parity⟩ := positionSplit leg
  have legs : t.plan.legs = 2 * t.rounds := rfl
  unfold arrival at state
  split at state
  · rename_i gate
    have flags := cleared state
    simp only [Placed, state, flags]
    refine ⟨by simp, ?_⟩
    rcases gateLegCases (s := t) with ⟨last, place⟩ | ⟨last, place⟩
    · exact .inl ⟨last, by omega, by omega⟩
    · exact .inr ⟨by omega, by omega⟩
  · rename_i gate
    split at state
    · rename_i fee
      simp only [Placed, state]
      obtain ⟨charges, place⟩ := feeLegCases fee
      refine ⟨charges, ?_, ?_⟩
      · rcases place with ⟨_, here⟩ | ⟨_, here⟩ | ⟨_, here⟩ <;> omega
      · rcases place with ⟨place, here⟩ | ⟨place, here⟩ | ⟨place, here⟩
        · simp only [place, reduceCtorEq, if_false]
          omega
        · simp only [place, reduceCtorEq, if_false]
          omega
        · rcases gateLegCases (s := t) with ⟨_, other⟩ | ⟨last, _⟩
          · omega
          · exact absurd ⟨charges, place⟩ last
    · split at state <;> (simp only [Placed, state]; omega)

theorem arrivalRemaining (state : t.state = arrival t.plan t.position)
    (cleared : t.state = .waitingForFinalReceiptAck → t.finalReceiptAckedA = false ∧ t.finalReceiptAckedB = false) :
    t.remaining = t.plan.duties t.position ++ t.plan.after t.position := by
  unfold arrival at state
  split at state
  · rename_i gate
    have flags := cleared state
    simp [remaining, state, flags, Plan.duties, Plan.gateDuty, gate]
  · rename_i gate
    split at state
    · rename_i fee
      simp [remaining, state, Plan.duties, Plan.gateDuty, Plan.feeDuty, gate, fee]
    · rename_i fee
      split at state
      · rename_i all
        simp only [remaining, state, Plan.duties, Plan.gateDuty, Plan.feeDuty, gate, fee, if_false]
        simp [all, Plan.afterAll]
      · simp [remaining, state, Plan.duties, Plan.gateDuty, Plan.feeDuty, gate, fee]

end Arrival

/- One accepted operation, case by case: it does the task at the head of what is left. -/
section Work
variable {s t : MediatorSession}

structure Works (s : MediatorSession) (op : Operation) (t : MediatorSession) : Prop where
  placed : t.Placed
  started : s.state ≠ .aborted
  stays : t.state ≠ .aborted
  head : ∃ x, task ⟨s, op, t⟩ = some x ∧ s.remaining = x :: t.remaining

theorem arrivalOpen {p : Plan} {k : Nat} : arrival p k ≠ .aborted := by
  unfold arrival
  split_ifs <;> decide

theorem feeDueAtStart (positive : 0 < s.rounds) :
    arrival s.plan 0 = if s.feeDueBeforeAnyRound then .waitingForFeeSent else .waitingForSent := by
  have gate : 0 ≠ s.plan.gateLeg := by have := (planSound positive).gateBound; omega
  have legs : 0 ≠ s.plan.legs := by simp only [Plan.legs, plan]; omega
  have due : s.plan.feeLeg = some 0 ↔ s.feeDueBeforeAnyRound = true := by
    have single : s.creator.terms.rounds ≤ 1 ↔ s.rounds - 1 = 0 := by
      rw [UInt32.le_iff_toNat_le, UInt32.toNat_one]
      simp only [rounds]
      omega
    have charges : s.fee.amount > 0 ↔ s.ChargesFee := Iff.rfl
    by_cases fee : s.ChargesFee
    · cases place : s.feePosition <;> simp [plan, feeLeg, feeDueBeforeAnyRound, place, fee, charges, single]
      omega
    · simp [plan, feeLeg, feeDueBeforeAnyRound, fee, charges]
  simp only [arrival, if_neg gate, if_neg legs, due]

theorem joinedWorks (on : s.OnTrack) (waiting : s.state = .waitingForPeer) (message : JoinRoomMessage) :
    Works s (.join message) (s.joinedBy message.receiveAddressB) := by
  obtain ⟨round, leg⟩ : s.round = 0 ∧ s.leg = 0 := by simpa [Placed, waiting] using on.placed
  have here : s.position = 0 := by simp only [position, round, leg]
  generalize next : s.joinedBy message.receiveAddressB = t
  have state : t.state = arrival t.plan t.position := by
    rw [← next, joinedByPlan, joinedByPosition, here, feeDueAtStart on.rounds]
    rfl
  have same : t.plan = s.plan := by rw [← next, joinedByPlan]
  have stand : t.position = 0 := by rw [← next, joinedByPosition, here]
  have cleared : t.state = .waitingForFinalReceiptAck →
      t.finalReceiptAckedA = false ∧ t.finalReceiptAckedB = false := by
    rw [state, same, stand, feeDueAtStart on.rounds]
    split <;> simp
  refine ⟨arrivalPlaced ?_ ?_ (by omega) state cleared, by simp [waiting], ?_, .join, rfl, ?_⟩
  · rw [← next, joinedByRounds]
    exact on.rounds
  · rw [← next, joinedByLeg, leg]
    omega
  · rw [state]
    exact arrivalOpen
  · rw [arrivalRemaining state cleared, same, stand]
    simp [remaining, waiting, Plan.agenda]

/- The fee is settled, by the report itself or by its confirmation. -/
theorem settledWorks (on : s.OnTrack)
    (waiting : s.state = .waitingForFeeSent ∨ s.state = .waitingForFeeConfirmation) :
    (s.inState s.onceFeeSettled).Placed ∧
      (s.inState s.onceFeeSettled).remaining = s.plan.after s.position := by
  obtain ⟨_, leg, place⟩ : s.ChargesFee ∧ s.leg = 0 ∧
      if s.feePosition = .afterLastRound then s.round = s.rounds else s.round < s.rounds := by
    rcases waiting with waiting | waiting <;> simpa only [Placed, waiting] using on.placed
  by_cases last : s.feePosition = .afterLastRound
  · rw [if_pos last] at place
    have all : s.plan.legs ≤ s.position := by
      simp only [Plan.legs, plan, position]
      omega
    simp [onceFeeSettled, last, remaining, Plan.afterAll all, Placed, place, leg]
  · rw [if_neg last] at place
    simp [onceFeeSettled, last, remaining, Placed, place, leg]

theorem onceFeeSettledOpen : s.onceFeeSettled ≠ .aborted := by
  unfold onceFeeSettled
  split <;> decide

theorem feeSentWorks (on : s.OnTrack) (waiting : s.state = .waitingForFeeSent) :
    Works s (.senderReportedSent .a ⟨s.roomId, s.roundIndex, .a⟩) (s.inState s.onceFeeReported) := by
  have settled := settledWorks on (.inl waiting)
  by_cases confirm : s.requireFeeConfirmation = true
  · have reported : s.onceFeeReported = .waitingForFeeConfirmation := by simp [onceFeeReported, confirm]
    rw [reported]
    refine ⟨?_, by simp [waiting], by simp, .payFee, by simp [task, waiting], ?_⟩
    · have place := on.placed
      simp only [Placed, waiting] at place
      exact place
    · have asks : s.plan.confirm = true := confirm
      simp [remaining, waiting, Plan.settleFee, asks]
  · have reported : s.onceFeeReported = s.onceFeeSettled := by simp [onceFeeReported, confirm]
    rw [reported]
    refine ⟨settled.1, by simp [waiting], onceFeeSettledOpen, .payFee, by simp [task, waiting], ?_⟩
    have trusts : s.plan.confirm = false := by simpa [plan] using confirm
    rw [settled.2]
    simp [remaining, waiting, Plan.settleFee, trusts]

theorem confirmedWorks (on : s.OnTrack) (waiting : s.state = .waitingForFeeConfirmation) :
    Works s .confirmFeeReceived (s.inState s.onceFeeSettled) := by
  have settled := settledWorks on (.inr waiting)
  refine ⟨settled.1, by simp [waiting], onceFeeSettledOpen, .confirmFee, rfl, ?_⟩
  rw [settled.2]
  simp [remaining, waiting]

theorem onTranche (on : s.OnTrack) (waiting : s.state = .waitingForSent ∨ s.state = .waitingForReceived) :
    s.round < s.rounds ∧ s.leg ≤ 1 ∧ s.position < s.plan.legs := by
  have place : s.round < s.rounds ∧ s.leg ≤ 1 := by
    rcases waiting with waiting | waiting <;> simpa only [Placed, waiting] using on.placed
  refine ⟨place.1, place.2, ?_⟩
  simp only [position, Plan.legs, plan]
  omega

theorem sentWorks (on : s.OnTrack) (waiting : s.state = .waitingForSent) (party : Party) :
    Works s (.senderReportedSent party ⟨s.roomId, s.roundIndex, party⟩) (s.inState .waitingForReceived) := by
  obtain ⟨round, leg, more⟩ := onTranche on (.inl waiting)
  refine ⟨?_, by simp [waiting], by simp, .send s.position, by simp [task, waiting], ?_⟩
  · simp [Placed, round, leg]
  · simp [remaining, waiting, Plan.afterNext more]

theorem receivedWorks (on : s.OnTrack) (waiting : s.state = .waitingForReceived) (party : Party) :
    Works s (.receiverReportedReceived (otherParty party) ⟨s.roomId, s.roundIndex, party⟩) s.advanced := by
  obtain ⟨round, leg, more⟩ := onTranche on (.inr waiting)
  have same := advancedSame (s := s)
  have next := advancedReaches round leg
  have state : s.advanced.state = arrival s.advanced.plan s.advanced.position := by
    rw [same.plan, next.position, next.state]
  refine ⟨arrivalPlaced (same.rounds ▸ on.rounds) next.leg ?_ state next.cleared, by simp [waiting], ?_,
    .receive s.position, rfl, ?_⟩
  · rw [same.plan, next.position]
    omega
  · rw [state]
    exact arrivalOpen
  · rw [arrivalRemaining state next.cleared, same.plan, next.position]
    simp [remaining, waiting, Plan.afterNext more]

/- In the gate the fee is due next exactly when it comes last. -/
theorem gateLeadsToFee (on : s.OnTrack) (waiting : s.state = .waitingForFinalReceiptAck) :
    (s.finalReceiptGateIsFeeLeg = true ↔ s.FeeIsLast ∧ s.round = s.rounds ∧ s.leg = 0) ∧
    (s.finalReceiptGateIsFeeLeg = false ↔ s.round + 1 = s.rounds ∧ s.leg = 1) ∧
    s.plan.feeDuty s.position = if s.finalReceiptGateIsFeeLeg then s.plan.settleFee else [] := by
  have place := on.placed
  simp only [Placed, waiting] at place
  have exit : s.finalReceiptGateIsFeeLeg = true ↔ s.FeeIsLast ∧ s.round = s.rounds := by
    have charges : s.fee.amount > 0 ↔ s.ChargesFee := Iff.rfl
    simp [finalReceiptGateIsFeeLeg, FeeIsLast, charges, and_assoc, round, rounds, UInt32.toNat_inj]
  have sound := planSound on.rounds
  rcases place with ⟨_, ⟨last, round, leg⟩ | ⟨round, leg⟩⟩
  · have fee : s.finalReceiptGateIsFeeLeg = true := exit.mpr ⟨last, round⟩
    have due : s.plan.feeLeg = some s.position := by
      rw [sound.last (decide_eq_true last)]
      simp only [Plan.legs, plan, position, round, leg]
      rfl
    refine ⟨by simp [fee, last, round, leg], ?_, by simp [Plan.feeDuty, due, fee]⟩
    simp only [fee, Bool.true_eq_false, false_iff]
    omega
  · have fee : s.finalReceiptGateIsFeeLeg = false := by
      have other : ¬s.finalReceiptGateIsFeeLeg = true := fun gate => by have := (exit.mp gate).2; omega
      simpa using other
    have due : s.plan.feeLeg ≠ some s.position := fun due => by
      have := sound.even _ due
      simp only [position] at this
      omega
    refine ⟨?_, by simp [fee, round, leg], by simp [Plan.feeDuty, due, fee]⟩
    simp only [fee, Bool.false_eq_true, false_iff]
    omega

theorem acknowledgedWorks (on : s.OnTrack) (waiting : s.state = .waitingForFinalReceiptAck) (party : Party)
    (first : s.finalReceiptAcked party = false) :
    Works s (.acknowledgeFinalReceipt party) (s.acknowledged party) := by
  have place := on.placed
  simp only [Placed, waiting] at place
  obtain ⟨feeExit, trancheExit, duty⟩ := gateLeadsToFee on waiting
  cases other : s.finalReceiptAcked (otherParty party) with
  | true =>
      have flagged : (s.finalReceiptAckedA || s.finalReceiptAckedB) = true := by
        cases party <;> simp_all [finalReceiptAcked, otherParty]
      have next : s.acknowledged party = (s.recordFinalReceiptAck party).inState
          (if s.finalReceiptGateIsFeeLeg then .waitingForFeeSent else .waitingForSent) := by
        simp [acknowledged, other]
      rw [next]
      cases fee : s.finalReceiptGateIsFeeLeg with
      | true =>
          obtain ⟨last, round, leg⟩ := feeExit.mp fee
          refine ⟨?_, by simp [waiting], by simp, .countersign, by simp [task], ?_⟩
          · simp [Placed, last.1, last.2, round, leg]
          · simp [remaining, waiting, flagged, duty, fee]
      | false =>
          obtain ⟨round, leg⟩ := trancheExit.mp fee
          refine ⟨?_, by simp [waiting], by simp, .countersign, by simp [task], ?_⟩
          · simp only [Placed]
            simp
            omega
          · simp [remaining, waiting, flagged, duty, fee]
  | false =>
      have next : s.acknowledged party = s.recordFinalReceiptAck party := by simp [acknowledged, other]
      have unflagged : s.finalReceiptAckedA = false ∧ s.finalReceiptAckedB = false := by
        cases party <;> simp_all [finalReceiptAcked, otherParty]
      rw [next]
      refine ⟨?_, by simp [waiting], by simp [waiting], .acknowledge, by simp [task, waiting], ?_⟩
      · simp only [Placed, recordState, waiting]
        refine ⟨?_, by simpa using place.2⟩
        cases party <;> simp [recordFinalReceiptAck, unflagged]
      · simp only [remaining, waiting, unflagged, recordState, recordPlan, recordPosition]
        cases party <;> simp [recordFinalReceiptAck, unflagged]

theorem Step.works {op : Operation} (on : s.OnTrack) (step : Step s op t) (stays : t.state ≠ .aborted) :
    Works s op t := by
  cases step with
  | joined message waiting room address => exact joinedWorks on waiting message
  | feeSent waiting => exact feeSentWorks on waiting
  | sent party waiting sender => exact sentWorks on waiting party
  | received party waiting sender => exact receivedWorks on waiting party
  | acknowledged party waiting first => exact acknowledgedWorks on waiting party first
  | confirmed waiting => exact confirmedWorks on waiting
  | aborted reason unfinished => exact absurd rfl stays

/- The limits that hold of a session in any state. -/
theorem OnTrack.within (on : s.OnTrack) : s.round ≤ s.rounds ∧ s.leg ≤ 1 := by
  have place := on.placed
  have positive := on.rounds
  unfold Placed at place
  split at place
  case h_4 | h_5 =>
    obtain ⟨_, leg, place⟩ := place
    split at place <;> omega
  all_goals omega

theorem Step.abortsOnly {op : Operation} (on : s.OnTrack) (step : Step s op t) (closed : t.state = .aborted) :
    ∃ reason, op = .abort reason := by
  cases step with
  | aborted reason unfinished => exact ⟨reason, rfl⟩
  | joined message waiting room address => exact absurd closed (joinedWorks on waiting message).stays
  | feeSent waiting => exact absurd closed (feeSentWorks on waiting).stays
  | sent party waiting sender => exact absurd closed (sentWorks on waiting party).stays
  | received party waiting sender => exact absurd closed (receivedWorks on waiting party).stays
  | acknowledged party waiting first => exact absurd closed (acknowledgedWorks on waiting party first).stays
  | confirmed waiting => exact absurd closed (confirmedWorks on waiting).stays

theorem Step.onTrack {op : Operation} (on : s.OnTrack) (step : Step s op t) : t.OnTrack := by
  refine ⟨step.same.rounds ▸ on.rounds, ?_⟩
  by_cases closed : t.state = .aborted
  · obtain ⟨reason, rfl⟩ := step.abortsOnly on closed
    cases step
    exact on.within
  · exact (step.works on closed).placed

end Work

theorem sessionWorksOff : WorksOff perform OnTrack (fun s => s.state = .aborted) remaining task where
  keep on ok := (acceptsIff.mp ok).onTrack on
  work on ok stays := by
    have works := (acceptsIff.mp ok).works on stays
    exact ⟨works.started, works.head⟩
  close on ok closed := by
    obtain ⟨reason, rfl⟩ := (acceptsIff.mp ok).abortsOnly on closed
    rfl

/- A session keeps to its own schedule: the fee and the gate come up at their legs only. A
restored one need not, when the operator has moved the fee. -/
section Schedule
variable {s t : MediatorSession}

structure OnSchedule (s : MediatorSession) : Prop extends OnTrack s where
  fee : s.state = .waitingForFeeSent ∨ s.state = .waitingForFeeConfirmation → s.plan.feeLeg = some s.position
  gate : s.state = .waitingForFinalReceiptAck → s.position = s.plan.gateLeg

theorem arrivalInPlace {p : Plan} {k : Nat} :
    (arrival p k = .waitingForFeeSent ∨ arrival p k = .waitingForFeeConfirmation → p.feeLeg = some k) ∧
      (arrival p k = .waitingForFinalReceiptAck → k = p.gateLeg) := by
  unfold arrival
  split_ifs <;> simp_all

theorem Step.onSchedule {op : Operation} (on : s.OnSchedule) (step : Step s op t) : t.OnSchedule := by
  have track := step.onTrack on.toOnTrack
  have settled : s.onceFeeSettled = .complete ∨ s.onceFeeSettled = .waitingForSent := by
    unfold onceFeeSettled
    split <;> simp
  cases step with
  | joined message waiting room address =>
      have place := on.placed
      simp only [Placed, waiting] at place
      have here : s.position = 0 := by simp only [position, place]
      have state : (s.joinedBy message.receiveAddressB).state = arrival s.plan s.position := by
        rw [here, feeDueAtStart on.rounds]
        rfl
      have arrived := arrivalInPlace (p := s.plan) (k := s.position)
      rw [← state] at arrived
      exact ⟨track, arrived.1, arrived.2⟩
  | received party waiting sender =>
      obtain ⟨more, leg, _⟩ := onTranche on.toOnTrack (.inr waiting)
      have next := advancedReaches more leg
      have arrived := arrivalInPlace (p := s.plan) (k := s.position + 1)
      rw [← next.state, ← next.position, ← advancedSame.plan] at arrived
      exact ⟨track, arrived.1, arrived.2⟩
  | feeSent waiting =>
      refine ⟨track, fun _ => on.fee (.inl waiting), ?_⟩
      simp only [inStateState, onceFeeReported]
      rcases settled with settled | settled <;> split <;> simp [settled]
  | confirmed waiting =>
      refine ⟨track, fun _ => on.fee (.inr waiting), ?_⟩
      rcases settled with settled | settled <;> simp [settled]
  | acknowledged party waiting first =>
      obtain ⟨feeExit, _, _⟩ := gateLeadsToFee on.toOnTrack waiting
      have here := on.gate waiting
      unfold MediatorSession.acknowledged at track ⊢
      split at track
      · rename_i other
        rw [if_pos other]
        refine ⟨track, ?_, ?_⟩
        · simp only [inStateState, inStatePlan, inStatePosition, recordPlan, recordPosition]
          split
          · rename_i fee
            obtain ⟨last, round, leg⟩ := feeExit.mp fee
            intro _
            rw [(planSound on.rounds).last (decide_eq_true last)]
            simp only [Plan.legs, plan, position, round, leg]
            rfl
          · simp
        · simp only [inStateState]
          split <;> simp
      · rename_i other
        rw [if_neg other]
        refine ⟨track, ?_, ?_⟩
        · simp [waiting]
        · simp [here]
  | sent party waiting sender => exact ⟨track, by simp, by simp⟩
  | aborted reason unfinished => exact ⟨track, by simp [abortedWith], by simp [abortedWith]⟩

end Schedule

end TradeP2P.MediatorSession
