import TradeP2P.Mediator.Liveness

/-! What a completed trade has paid. The turns are read where the source reads them: as
`current_turn` gives them when a sent-report is accepted. -/
namespace TradeP2P.MediatorSession
open Machine

def settledTurn (e : Event MediatorSession Operation) : Option (Except Error TurnMessage) :=
  match e.call with
  | .senderReportedSent _ _ => some e.before.currentTurn
  | _ => none

def settledTurns (run : List (Event MediatorSession Operation)) : List (Except Error TurnMessage) :=
  run.filterMap settledTurn

def tranchesBy (party : Party) (turns : List TurnMessage) : List TurnMessage :=
  turns.filter (fun turn => !turn.isFee && turn.sender = party)

def feeTurns (turns : List TurnMessage) : List TurnMessage := turns.filter (fun turn => turn.isFee)

/- A turn as the agenda knows it. The fee belongs to no round. -/
structure Payment where
  round : Option Nat
  sender : Party
  amount : UInt64
  deriving DecidableEq, Repr

def paid (turn : TurnMessage) : Payment :=
  { round := if turn.isFee then none else some turn.roundIndex.toNat, sender := turn.sender, amount := turn.amount }

def paymentOf (s : MediatorSession) : Task → Option Payment
  | .send k => some { round := some (k / 2), sender := s.senderOfLeg k, amount := s.trancheOfLeg k }
  | .payFee => some { round := none, sender := .a, amount := s.fee.amount }
  | _ => none

section Reports
variable {s : MediatorSession}

/- An accepted sent-report settles the turn of its task, any other call settles none. -/
theorem settledTurnOf {e : Event MediatorSession Operation} (valid : ValidTerms s.creator.terms)
    (happens : Happens s e) :
    (settledTurn e = none ∧ (task e).bind s.paymentOf = none) ∨
      ∃ turn, settledTurn e = some (.ok turn) ∧ (task e).bind s.paymentOf = some (paid turn) := by
  obtain ⟨before, call, after⟩ := e
  obtain ⟨on, same, step⟩ := happens
  dsimp only at on same step
  have valid : ValidTerms before.creator.terms := by rw [same.creator]; exact valid
  cases step with
  | feeSent waiting =>
      refine .inr ⟨_, congrArg some (turnAtFee waiting), ?_⟩
      simp [task, waiting, paymentOf, paid, same.fee]
  | sent party waiting sender =>
      obtain ⟨turn, ok, notFee, index, bySender, amount⟩ := turnAtLeg valid on (.inl waiting)
      refine .inr ⟨turn, congrArg some ok, ?_⟩
      have round := (positionSplit (onTranche on (.inl waiting)).2.1).1
      simp [task, waiting, paymentOf, paid, notFee, index, bySender, amount, ← same.senderOfLeg,
        ← same.trancheOfLeg, ← round, MediatorSession.round]
  | acknowledged party waiting first =>
      refine .inl ⟨rfl, ?_⟩
      simp only [task, Option.bind_some]
      split <;> rfl
  | _ => exact .inl ⟨rfl, rfl⟩

theorem settledTurnsOf (valid : ValidTerms s.creator.terms) {run : List (Event MediatorSession Operation)}
    (happens : ∀ e ∈ run, Happens s e) :
    ∃ turns : List TurnMessage, settledTurns run = turns.map .ok ∧ turns.map paid = (run.filterMap task).filterMap s.paymentOf := by
  induction run with
  | nil => exact ⟨[], rfl, rfl⟩
  | cons e rest ih =>
      obtain ⟨turns, settled, payments⟩ := ih (fun e mem => happens e (List.mem_cons_of_mem _ mem))
      have tail : (rest.filterMap task).filterMap s.paymentOf =
          rest.filterMap (fun e => (task e).bind s.paymentOf) := List.filterMap_filterMap
      have all : ((e :: rest).filterMap task).filterMap s.paymentOf =
          (e :: rest).filterMap (fun e => (task e).bind s.paymentOf) := List.filterMap_filterMap
      rw [all]
      rcases settledTurnOf valid (happens e List.mem_cons_self) with ⟨silent, none⟩ | ⟨turn, ok, payment⟩
      · exact ⟨turns, by simpa [settledTurns, silent] using settled, by rw [payments, tail]; simp [none]⟩
      · exact ⟨turn :: turns, by simpa [settledTurns, ok] using settled, by
          simp [payment, payments, tail]⟩

end Reports

/- The tranches one party pays, read off the legs of the whole trade. -/
section Tranches
variable {s : MediatorSession}

def trancheBy (party : Party) (payment : Payment) : Option (Nat × UInt64) :=
  if payment.sender = party then payment.round.map (fun round => (round, payment.amount)) else none

theorem tranchesByPaid (party : Party) (turns : List TurnMessage) :
    (tranchesBy party turns).map (fun turn => (turn.roundIndex.toNat, turn.amount)) =
      (turns.map paid).filterMap (trancheBy party) := by
  induction turns with
  | nil => rfl
  | cons turn rest ih =>
      unfold tranchesBy at ih ⊢
      cases fee : turn.isFee <;> by_cases sender : turn.sender = party <;>
        simp [fee, sender, ih, paid, trancheBy]

theorem feeTurnsPaid (turns : List TurnMessage) :
    (feeTurns turns).map (fun turn => (turn.sender, turn.amount)) =
      (turns.map paid).filterMap
        (fun payment => if payment.round = none then some (payment.sender, payment.amount) else none) := by
  induction turns with
  | nil => rfl
  | cons turn rest ih =>
      unfold feeTurns at ih ⊢
      cases fee : turn.isFee <;> simp [fee, ih, paid]

/- Each party has exactly one of the two legs of a round. -/
theorem senderOfRound (party : Party) (r : Nat) :
    (s.senderOfLeg (2 * r) = party ∧ s.senderOfLeg (2 * r + 1) ≠ party) ∨
      (s.senderOfLeg (2 * r) ≠ party ∧ s.senderOfLeg (2 * r + 1) = party) := by
  have first : (2 * r / 2 + 2 * r % 2) % 2 = r % 2 := by omega
  have second : ((2 * r + 1) / 2 + (2 * r + 1) % 2) % 2 = (r + 1) % 2 := by omega
  simp only [senderOfLeg, first, second]
  rcases Nat.mod_two_eq_zero_or_one r with even | odd
  · have turned : (r + 1) % 2 = 1 := by omega
    cases party <;> cases s.creator.terms.firstSender <;> simp [even, turned, otherParty]
  · have turned : (r + 1) % 2 = 0 := by omega
    cases party <;> cases s.creator.terms.firstSender <;> simp [odd, turned, otherParty]

theorem legsOfParty (party : Party) (n : Nat) :
    (List.range (2 * n)).filterMap (fun k => (s.paymentOf (.send k)).bind (trancheBy party)) =
      (List.range n).map (fun r => (r, tranche (s.totalOf party) s.creator.terms.rounds (UInt32.ofNat r))) := by
  induction n with
  | zero => rfl
  | succ n ih =>
      have pair : 2 * (n + 1) = 2 * n + 1 + 1 := by omega
      have halves : 2 * n / 2 = n ∧ (2 * n + 1) / 2 = n := by omega
      rw [pair, List.range_succ, List.range_succ, List.range_succ]
      simp only [List.filterMap_append, List.map_append, ih, List.append_assoc]
      congr 1
      rcases senderOfRound (s := s) party n with ⟨own, other⟩ | ⟨other, own⟩ <;>
        simp [paymentOf, trancheBy, own, other, trancheOfLeg, halves]

theorem trancheTotal (positive : 0 < s.rounds) (party : Party) :
    ((List.range s.rounds).map (fun r =>
      (tranche (s.totalOf party) s.creator.terms.rounds (UInt32.ofNat r)).toNat)).sum = (s.totalOf party).toNat := by
  have dealt := trancheSum positive (s.totalOf party).toNat
  rw [← dealt]
  congr 1
  refine List.map_congr_left fun r mem => ?_
  have more : r < s.rounds := List.mem_range.mp mem
  have small : r < UInt32.size := Nat.lt_trans more s.creator.terms.rounds.toNat_lt
  rw [trancheValue positive, UInt32.toNat_ofNat_of_lt' small]
  rfl

end Tranches

/- The payments on the agenda, party by party, and the fee. -/
section Agenda
variable {s : MediatorSession}

theorem agendaTranches (party : Party) :
    (s.plan.agenda.filterMap s.paymentOf).filterMap (trancheBy party) =
      (List.range s.rounds).map (fun r => (r, tranche (s.totalOf party) s.creator.terms.rounds (UInt32.ofNat r))) := by
  rw [List.filterMap_filterMap, Plan.readTranches]
  · exact legsOfParty party s.rounds
  · intro x other
    cases x with
    | send j => exact absurd rfl (other j)
    | payFee => simp [paymentOf, trancheBy]
    | _ => rfl

theorem agendaFee (positive : 0 < s.rounds) :
    (s.plan.agenda.filterMap s.paymentOf).filterMap
        (fun payment => if payment.round = none then some (payment.sender, payment.amount) else none) =
      if s.ChargesFee then [(.a, s.fee.amount)] else [] := by
  rw [List.filterMap_filterMap, Plan.readFee (planSound positive)]
  · by_cases charges : s.ChargesFee
    · cases place : s.feePosition <;> simp [plan, feeLeg, charges, place, paymentOf]
    · simp [plan, feeLeg, charges]
  · intro x other
    cases x with
    | payFee => exact absurd rfl other
    | send j => simp [paymentOf]
    | _ => rfl

end Agenda

/- A session that is complete has done its whole agenda. -/
theorem completedAgenda {creator : CreateRoomMessage} {roomId : RoomId} {fee : FeeTerms} {confirm : Bool}
    {feePosition : FeePosition} {s : MediatorSession}
    (opened : construct creator roomId fee confirm feePosition = .ok s) (operations : List Operation)
    (complete : (exec perform s operations).state = .complete) :
    (log perform s operations).filterMap task = s.plan.agenda := by
  have whole := (sessionWorksOff.open performAtomic (constructedOnTrack opened) operations (by simp [complete])).2
  have finished : (exec perform s operations).remaining = [] := by simp [remaining, complete]
  rwa [finished, List.append_nil, constructedRemaining opened] at whole

theorem remainingNodup {creator : CreateRoomMessage} {roomId : RoomId} {fee : FeeTerms} {confirm : Bool}
    {feePosition : FeePosition} {s : MediatorSession}
    (opened : construct creator roomId fee confirm feePosition = .ok s) (operations : List Operation) :
    (exec perform s operations).remaining.Nodup := by
  have on := constructedOnTrack opened
  by_cases closed : (exec perform s operations).state = .aborted
  · simp [remaining, closed]
  · have whole := (sessionWorksOff.open performAtomic on operations closed).2
    have once := (planSound on.rounds).nodup
    rw [← constructedRemaining opened, ← whole] at once
    exact (List.nodup_append'.mp once).2.1

/- Only a fee that is charged, with a confirmation asked for, is ever awaited from the operator. -/
theorem confirmationAsked {creator : CreateRoomMessage} {roomId : RoomId} {fee : FeeTerms} {confirm : Bool}
    {feePosition : FeePosition} {s : MediatorSession}
    (opened : construct creator roomId fee confirm feePosition = .ok s) (operations : List Operation)
    (waiting : (exec perform s operations).state = .waitingForFeeConfirmation) :
    s.ChargesFee ∧ s.requireFeeConfirmation = true := by
  have on := constructedOnTrack opened
  have placed := (runOnTrack on operations).placed
  simp only [Placed, waiting] at placed
  have whole := (sessionWorksOff.open performAtomic on operations (by simp [waiting])).2
  have ahead : .confirmFee ∈ (exec perform s operations).remaining := by simp [remaining, waiting]
  rw [constructedRemaining opened] at whole
  have onAgenda : .confirmFee ∈ s.plan.agenda := by
    rw [← whole]
    exact List.mem_append_right _ ahead
  exact ⟨(runSame operations).chargesFee ▸ placed.1, (planSound on.rounds).confirmAsked onAgenda⟩

/- Exactly the trade: in the order of the rounds every party pays every round once, the
tranches add up to the totals, and the fee is paid once by A if there is one. -/
theorem completedTradePaid {creator : CreateRoomMessage} {roomId : RoomId} {fee : FeeTerms} {confirm : Bool}
    {feePosition : FeePosition} {s : MediatorSession}
    (opened : construct creator roomId fee confirm feePosition = .ok s) (operations : List Operation)
    (complete : (exec perform s operations).state = .complete) :
    ∃ turns : List TurnMessage, settledTurns (log perform s operations) = turns.map .ok ∧
      (∀ party, (tranchesBy party turns).map (fun turn => turn.roundIndex.toNat) =
        List.range creator.terms.rounds.toNat) ∧
      ((tranchesBy .a turns).map (fun turn => turn.amount.toNat)).sum = creator.terms.totalA.toNat ∧
      ((tranchesBy .b turns).map (fun turn => turn.amount.toNat)).sum = creator.terms.totalB.toNat ∧
      (feeTurns turns).map (fun turn => (turn.sender, turn.amount)) =
        if fee.amount > 0 then [(.a, fee.amount)] else [] := by
  have on := constructedOnTrack opened
  have valid := constructedValid opened
  obtain ⟨turns, settled, payments⟩ := settledTurnsOf valid (fun e mem => runHappens on operations mem)
  rw [completedAgenda opened operations complete] at payments
  have tranches (party : Party) := (tranchesByPaid party turns).trans (payments ▸ agendaTranches (s := s) party)
  have totals (party : Party) :
      ((tranchesBy party turns).map (fun turn => turn.amount.toNat)).sum = (s.totalOf party).toNat := by
    have amounts := congrArg (List.map (fun pair : Nat × UInt64 => pair.2.toNat)) (tranches party)
    simp only [List.map_map, Function.comp_def] at amounts
    rw [amounts]
    exact trancheTotal on.rounds party
  obtain ⟨rfl, _, rfl, _⟩ := constructedTerms opened
  refine ⟨turns, settled, fun party => ?_, totals .a, totals .b, ?_⟩
  · have indices := congrArg (List.map Prod.fst) (tranches party)
    simp only [List.map_map, Function.comp_def, List.map_id'] at indices
    exact indices
  · rw [feeTurnsPaid, payments]
    exact agendaFee on.rounds

theorem swapPaid :
    let operations := cooperation swapAddressB 20 (swap true .beforeLastRound)
    (exec perform (swap true .beforeLastRound) operations).state = .complete ∧
    ∃ turns : List TurnMessage, settledTurns (log perform (swap true .beforeLastRound) operations) = turns.map .ok ∧
      (∀ party, (tranchesBy party turns).map (fun turn => turn.roundIndex.toNat) = List.range 2) ∧
      ((tranchesBy .a turns).map (fun turn => turn.amount.toNat)).sum = 5 ∧
      ((tranchesBy .b turns).map (fun turn => turn.amount.toNat)).sum = 3 ∧
      (feeTurns turns).map (fun turn => (turn.sender, turn.amount)) = [(.a, 1)] :=
  ⟨by decide, completedTradePaid (swapOpened true .beforeLastRound) _ (by decide)⟩

end TradeP2P.MediatorSession
