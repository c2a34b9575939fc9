import TradeP2P.Mediator.Progress

/-! Whose turn it is and what it pays. A session that was constructed carries checked terms,
and wherever such a session stands on its track, `current_turn` names the tranche of its
position or the fee. -/
namespace TradeP2P.MediatorSession
open Machine Checks
open Wire (Bytes)

section Opening
variable {creator : CreateRoomMessage} {roomId : RoomId} {fee : FeeTerms} {confirm : Bool}
  {feePosition : FeePosition} {s : MediatorSession}

theorem constructOk : construct creator roomId fee confirm feePosition = .ok s ↔
    validateTerms creator.terms = .ok () ∧ validateAddress creator.receiveAddressA = .ok () ∧
    validateRoomId roomId = .ok () ∧ validateFeeTerms fee = .ok () ∧
    { creator, roomId, fee, requireFeeConfirmation := confirm, feePosition } = s := by
  simp only [construct, check_ok, pure_ok]

theorem constructedTerms (opened : construct creator roomId fee confirm feePosition = .ok s) :
    s.creator = creator ∧ s.roomId = roomId ∧ s.fee = fee ∧ s.requireFeeConfirmation = confirm ∧
      s.feePosition = feePosition ∧ s.state = .waitingForPeer := by
  obtain ⟨_, _, _, _, rfl⟩ := constructOk.mp opened
  exact ⟨rfl, rfl, rfl, rfl, rfl, rfl⟩

theorem constructedValid (opened : construct creator roomId fee confirm feePosition = .ok s) :
    ValidTerms s.creator.terms := by
  rw [(constructedTerms opened).1]
  exact validTerms (constructOk.mp opened).1

theorem constructedOnTrack (opened : construct creator roomId fee confirm feePosition = .ok s) : s.OnTrack := by
  refine ⟨(constructedValid opened).rounds, ?_⟩
  obtain ⟨_, _, _, _, rfl⟩ := constructOk.mp opened
  exact ⟨rfl, rfl⟩

theorem constructedRemaining (opened : construct creator roomId fee confirm feePosition = .ok s) :
    s.remaining = s.plan.agenda := by
  obtain ⟨_, _, _, _, _, waiting⟩ := constructedTerms opened
  simp [remaining, waiting]

end Opening

/- The party whose tranche a leg is: the first sender opens the first round, and every round
after is opened by the other one. -/
def senderOfLeg (s : MediatorSession) (k : Nat) : Party :=
  if (k / 2 + k % 2) % 2 = 0 then s.creator.terms.firstSender else otherParty s.creator.terms.firstSender

def totalOf (s : MediatorSession) : Party → UInt64
  | .a => s.creator.terms.totalA
  | .b => s.creator.terms.totalB

def trancheOfLeg (s : MediatorSession) (k : Nat) : UInt64 :=
  tranche (s.totalOf (s.senderOfLeg k)) s.creator.terms.rounds (UInt32.ofNat (k / 2))

section Turns
variable {s : MediatorSession}

theorem senderAtLeg (waiting : s.state = .waitingForSent ∨ s.state = .waitingForReceived) (leg : s.leg ≤ 1) :
    s.currentSender = .ok (s.senderOfLeg s.position) := by
  have parity : s.roundIndex % 2 ≠ 0 ↔ s.round % 2 ≠ 0 := by
    rw [Ne, ← UInt32.toNat_inj, UInt32.toNat_mod]
    rfl
  have split := positionSplit leg
  have sender : (if s.legIndex = 0 then s.firstSenderForRound else otherParty s.firstSenderForRound) =
      s.senderOfLeg s.position := by
    simp only [senderOfLeg, ← split.1, ← split.2, firstSenderForRound, legZero, parity]
    have legs : s.leg = 0 ∨ s.leg = 1 := by omega
    rcases Nat.mod_two_eq_zero_or_one s.round with even | odd <;> rcases legs with first | second
    · simp [even, first]
    · have turned : (s.round + 1) % 2 = 1 := by omega
      simp [even, second, turned]
    · simp [odd, first]
    · have turned : (s.round + 1) % 2 = 0 := by omega
      simp [odd, second, turned]
  rcases waiting with waiting | waiting <;> simp only [currentSender, waiting, sender] <;> rfl

/- The turn of a leg, as far as the terms fix it. -/
theorem turnAtLeg (valid : ValidTerms s.creator.terms) (on : s.OnTrack)
    (waiting : s.state = .waitingForSent ∨ s.state = .waitingForReceived) :
    ∃ turn, s.currentTurn = .ok turn ∧ turn.isFee = false ∧ turn.roundIndex = s.roundIndex ∧
      turn.sender = s.senderOfLeg s.position ∧ turn.amount = s.trancheOfLeg s.position := by
  obtain ⟨more, leg, _⟩ := onTranche on waiting
  have sender := senderAtLeg waiting leg
  have noFee : s.state ≠ .waitingForFeeSent := by rcases waiting with waiting | waiting <;> simp [waiting]
  have index : UInt32.ofNat (s.position / 2) = s.roundIndex := by
    rw [← (positionSplit leg).1]
    exact UInt32.ofNat_toNat
  have within : s.roundIndex < s.creator.terms.rounds := UInt32.lt_iff_toNat_lt.mpr more
  simp only [currentTurn, if_neg noFee, sender, bind, Except.bind, pure, Except.pure, trancheOfLeg, index]
  cases s.senderOfLeg s.position with
  | a =>
      simp only [trancheAmountOk within valid.totalA]
      exact ⟨_, rfl, rfl, rfl, rfl, rfl⟩
  | b =>
      simp only [trancheAmountOk within valid.totalB]
      exact ⟨_, rfl, rfl, rfl, rfl, rfl⟩

theorem turnAtFee (waiting : s.state = .waitingForFeeSent) :
    s.currentTurn = .ok { roomId := s.roomId, roundIndex := s.roundIndex, sender := .a, asset := s.fee.asset,
                          amount := s.fee.amount, destination := s.fee.address, isFee := true } := by
  simp [currentTurn, waiting, pure, Except.pure]

theorem tranchePositiveAt (valid : ValidTerms s.creator.terms) (k : Nat) : 0 < s.trancheOfLeg k := by
  rw [UInt64.lt_iff_toNat_lt]
  unfold trancheOfLeg
  cases s.senderOfLeg k with
  | a => exact tranchePositive valid.rounds valid.totalA
  | b => exact tranchePositive valid.rounds valid.totalB

theorem SameTerms.senderOfLeg {t : MediatorSession} (same : SameTerms s t) (k : Nat) :
    t.senderOfLeg k = s.senderOfLeg k := by
  simp only [MediatorSession.senderOfLeg, same.creator]

theorem SameTerms.trancheOfLeg {t : MediatorSession} (same : SameTerms s t) (k : Nat) :
    t.trancheOfLeg k = s.trancheOfLeg k := by
  have totals (p : Party) : t.totalOf p = s.totalOf p := by cases p <;> simp only [totalOf, same.creator]
  simp only [MediatorSession.trancheOfLeg, same.senderOfLeg, totals, same.creator]

end Turns

/- What holds at every accepted call of a run: it is one step of a session on its track. -/
section Runs
variable {s : MediatorSession}

structure Happens (s : MediatorSession) (e : Event MediatorSession Operation) : Prop where
  on : e.before.OnTrack
  same : SameTerms s e.before
  step : Step e.before e.call e.after

theorem sameRefl : SameTerms s s := ⟨rfl, rfl, rfl, rfl, rfl⟩

theorem SameTerms.trans {t u : MediatorSession} (left : SameTerms s t) (right : SameTerms t u) : SameTerms s u :=
  ⟨right.creator.trans left.creator, right.roomId.trans left.roomId, right.fee.trans left.fee,
    right.requireFeeConfirmation.trans left.requireFeeConfirmation, right.feePosition.trans left.feePosition⟩

theorem runSame (calls : List Operation) : SameTerms s (exec perform s calls) :=
  performAtomic.invariant sameRefl (fun _ _ _ same ok => same.trans (acceptsIff.mp ok).same) calls

theorem runOnTrack (on : s.OnTrack) (calls : List Operation) : (exec perform s calls).OnTrack :=
  sessionWorksOff.invariant performAtomic on calls

theorem runHappens (on : s.OnTrack) (calls : List Operation) {e : Event MediatorSession Operation}
    (mem : e ∈ log perform s calls) : Happens s e := by
  obtain ⟨xs, _, _, here, ok⟩ := log_mem mem
  exact ⟨here ▸ runOnTrack on xs, here ▸ runSame xs, acceptsIff.mp ok⟩

end Runs

/- A small trade for concrete runs: two rounds, a fee of one. -/
section Swap

def swapCreator : CreateRoomMessage where
  terms := { assetA := Wire.ascii "BTC", assetB := Wire.ascii "LTC", totalA := 5, totalB := 3, rounds := 2 }
  receiveAddressA := Wire.ascii "ltcA"

def swapRoom : RoomId := Vector.replicate 32 1
def swapFee : FeeTerms := { asset := Wire.ascii "BTC", amount := 1, address := Wire.ascii "btcM" }
def swapAddressB : Bytes := Wire.ascii "btcB"

def swap (confirm : Bool) (feePosition : FeePosition) : MediatorSession :=
  { creator := swapCreator, roomId := swapRoom, fee := swapFee, requireFeeConfirmation := confirm, feePosition }

theorem swapOpened (confirm : Bool) (feePosition : FeePosition) :
    construct swapCreator swapRoom swapFee confirm feePosition = .ok (swap confirm feePosition) :=
  constructOk.mpr ⟨by decide, by decide, by decide, by decide, rfl⟩

end Swap
end TradeP2P.MediatorSession
