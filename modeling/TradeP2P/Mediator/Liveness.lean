import TradeP2P.Mediator.Turns

/-! A session never sticks: wherever it stands it takes one more operation of the parties or
the operator until it is complete, and it cannot take more of them than its agenda has. -/
namespace TradeP2P.MediatorSession
open Machine
open Wire (Bytes)

def Operation.isAbort : Operation → Bool
  | .abort _ => true
  | _ => false

/- A report, an acknowledgement or a confirmation. -/
def Operation.isSignal : Operation → Bool
  | .senderReportedSent _ _ | .receiverReportedReceived _ _ | .acknowledgeFinalReceipt _ | .confirmFeeReceived => true
  | .join _ | .abort _ => false

/- The operation a session waits for. -/
def demanded (s : MediatorSession) (addressB : Bytes) : Option Operation :=
  match s.state with
  | .waitingForPeer => some (.join ⟨s.roomId, addressB⟩)
  | .waitingForSent =>
      s.currentSender.toOption.map fun p => .senderReportedSent p ⟨s.roomId, s.roundIndex, p⟩
  | .waitingForReceived =>
      s.currentSender.toOption.map fun p => .receiverReportedReceived (otherParty p) ⟨s.roomId, s.roundIndex, p⟩
  | .waitingForFeeSent => some (.senderReportedSent .a ⟨s.roomId, s.roundIndex, .a⟩)
  | .waitingForFeeConfirmation => some .confirmFeeReceived
  | .waitingForFinalReceiptAck => some (.acknowledgeFinalReceipt (if s.finalReceiptAckedA then .b else .a))
  | .complete | .aborted => none

/- Everybody does what the session waits for, `n` times over. -/
def cooperation (addressB : Bytes) : Nat → MediatorSession → List Operation
  | 0, _ => []
  | n + 1, s => match s.demanded addressB with
    | some op => op :: cooperation addressB n (next perform s op)
    | none => []

section Demand
variable {s t : MediatorSession} {addressB : Bytes}

theorem demandedStep (on : s.OnTrack) (address : validateAddress addressB = .ok ())
    (unfinished : s.state ≠ .complete) (running : s.state ≠ .aborted) :
    ∃ op t, s.demanded addressB = some op ∧ Step s op t ∧ op.isAbort = false ∧
      (s.state ≠ .waitingForPeer → op.isSignal = true) := by
  have tranche (waiting : s.state = .waitingForSent ∨ s.state = .waitingForReceived) :
      s.currentSender = .ok (s.senderOfLeg s.position) := senderAtLeg waiting (onTranche on waiting).2.1
  cases state : s.state with
  | waitingForPeer =>
      have step := Step.joined (s := s) ⟨s.roomId, addressB⟩ state rfl address
      exact ⟨_, _, by simp [demanded, state], step, rfl, fun other => absurd rfl other⟩
  | waitingForSent =>
      have sender := tranche (.inl state)
      refine ⟨_, _, ?_, Step.sent _ state sender, rfl, fun _ => rfl⟩
      simp [demanded, state, sender, Except.toOption]
  | waitingForReceived =>
      have sender := tranche (.inr state)
      refine ⟨_, _, ?_, Step.received _ state sender, rfl, fun _ => rfl⟩
      simp [demanded, state, sender, Except.toOption]
  | waitingForFeeSent => exact ⟨_, _, by simp [demanded, state], Step.feeSent state, rfl, fun _ => rfl⟩
  | waitingForFeeConfirmation => exact ⟨_, _, by simp [demanded, state], Step.confirmed state, rfl, fun _ => rfl⟩
  | waitingForFinalReceiptAck =>
      have first : s.finalReceiptAcked (if s.finalReceiptAckedA then .b else .a) = false := by
        have place := on.placed
        simp only [Placed, state] at place
        cases acked : s.finalReceiptAckedA <;> simp_all [finalReceiptAcked]
      exact ⟨_, _, by simp [demanded, state], Step.acknowledged _ state first, rfl, fun _ => rfl⟩
  | complete => exact absurd state unfinished
  | aborted => exact absurd state running

theorem Step.notAborted {op : Operation} (on : s.OnTrack) (step : Step s op t) (signal : op.isAbort = false) :
    t.state ≠ .aborted := by
  intro closed
  obtain ⟨reason, rfl⟩ := step.abortsOnly on closed
  simp [Operation.isAbort] at signal

theorem remainingNil (on : s.OnTrack) (none : s.remaining = []) (running : s.state ≠ .aborted) :
    s.state = .complete := by
  cases state : s.state with
  | waitingForSent | waitingForReceived =>
      have more := (onTranche on (by simp [state])).2.2
      simp [remaining, state, Plan.afterNext more] at none
  | aborted => exact absurd state running
  | complete => rfl
  | waitingForFinalReceiptAck =>
      simp only [remaining, state] at none
      split at none <;> simp at none
  | _ => simp [remaining, state, Plan.agenda, Plan.settleFee] at none

theorem cooperationCompletes (address : validateAddress addressB = .ok ()) {n : Nat} (on : s.OnTrack)
    (running : s.state ≠ .aborted) (enough : s.remaining.length ≤ n) :
    (exec perform s (cooperation addressB n s)).state = .complete := by
  induction n generalizing s with
  | zero =>
      have none : s.remaining = [] := List.length_eq_zero_iff.mp (by omega)
      exact remainingNil on none running
  | succ n ih =>
      by_cases finished : s.state = .complete
      · simp [cooperation, demanded, finished]
      · obtain ⟨op, t, asked, step, signal, _⟩ := demandedStep on address finished running
        have ok : Accepts perform s op t := acceptsIff.mpr step
        have stays := step.notAborted on signal
        obtain ⟨x, _, head⟩ := (step.works on stays).head
        simp only [cooperation, asked, exec_cons, ok.next]
        refine ih (step.onTrack on) stays ?_
        have shorter := congrArg List.length head
        simp only [List.length_cons] at shorter
        omega

theorem cooperationSignals {n : Nat} : ∀ op ∈ cooperation addressB n s, op.isAbort = false := by
  induction n generalizing s with
  | zero => simp [cooperation]
  | succ n ih =>
      cases asked : s.demanded addressB with
      | none => simp [cooperation, asked]
      | some op =>
          simp only [cooperation, asked, List.mem_cons]
          rintro other (rfl | mem)
          · unfold demanded at asked
            split at asked <;> simp only [Option.map_eq_some_iff, Option.some.injEq, reduceCtorEq] at asked
            case h_2 | h_3 =>
              obtain ⟨_, _, rfl⟩ := asked
              rfl
            all_goals (rw [← asked]; rfl)
          · exact ih other mem

theorem cooperationLength {n : Nat} : (cooperation addressB n s).length ≤ n := by
  induction n generalizing s with
  | zero => simp [cooperation]
  | succ n ih =>
      cases asked : s.demanded addressB with
      | none => simp [cooperation, asked]
      | some op =>
          simp only [cooperation, asked, List.length_cons]
          exact Nat.succ_le_succ ih

end Demand

/- What one accepted operation never does. -/
section Limits
variable {s t : MediatorSession} {op : Operation}

theorem acknowledgedPosition (party : Party) : (s.acknowledged party).position = s.position := by
  unfold acknowledged
  split <;> simp

theorem Step.forward (on : s.OnTrack) (step : Step s op t) : s.position ≤ t.position := by
  cases step with
  | received party waiting sender =>
      obtain ⟨more, leg, _⟩ := onTranche on (.inr waiting)
      have moved := (advancedReaches more leg).position
      omega
  | acknowledged party waiting first => exact Nat.le_of_eq (acknowledgedPosition party).symm
  | _ => exact Nat.le_refl _

theorem completeRejects (complete : s.state = .complete) : accepted perform s op = false := by
  cases got : accepted perform s op with
  | false => rfl
  | true =>
      have step := acceptsIff.mp (accepts_next got)
      generalize next perform s op = t at step
      cases step <;> simp_all

theorem abortedStays (closed : s.state = .aborted) (got : accepted perform s op = true) :
    (next perform s op).state = .aborted := by
  have step := acceptsIff.mp (accepts_next got)
  generalize next perform s op = t at step
  cases step <;> first | rfl | simp_all

theorem happensTask {e : Event MediatorSession Operation} : (task e).isSome = !e.call.isAbort := by
  cases call : e.call <;> simp [task, call, Operation.isAbort]

/- No run accepts more than the agenda asks for, aborts apart. -/
theorem acceptedBound (on : s.OnTrack) (operations : List Operation) :
    (log perform s operations).countP (fun e => !e.call.isAbort) ≤ s.remaining.length := by
  have bound := sessionWorksOff.bound performAtomic on operations
  rw [List.length_filterMap_eq_countP] at bound
  simpa only [happensTask] using bound

/- What is true of a session wherever it stands. -/
structure Live (s : MediatorSession) : Prop where
  indices : s.roundIndex ≤ s.creator.terms.rounds ∧ s.legIndex ≤ 1
  turn : s.state = .waitingForSent ∨ s.state = .waitingForReceived →
    s.roundIndex < s.creator.terms.rounds ∧ ∃ turn, s.currentTurn = .ok turn ∧ 0 < turn.amount
  forward : ∀ op, s.position ≤ (next perform s op).position
  signal : s.state ≠ .waitingForPeer → s.state ≠ .complete → s.state ≠ .aborted →
    ∃ op, op.isSignal = true ∧ accepted perform s op = true
  join : s.state = .waitingForPeer → ∀ addressB, validateAddress addressB = .ok () →
    accepted perform s (.join ⟨s.roomId, addressB⟩) = true
  rejected : ∀ op, accepted perform s op = false → next perform s op = s
  complete : s.state = .complete → ∀ op, accepted perform s op = false
  aborted : s.state = .aborted → ∀ op, accepted perform s op = true → (next perform s op).state = .aborted

theorem onTrackLive (valid : ValidTerms s.creator.terms) (on : s.OnTrack) : s.Live where
  indices := by
    obtain ⟨round, leg⟩ := on.within
    exact ⟨UInt32.le_iff_toNat_le.mpr round, UInt8.le_iff_toNat_le.mpr leg⟩
  turn waiting := by
    obtain ⟨turn, ok, _, _, _, amount⟩ := turnAtLeg valid on waiting
    refine ⟨UInt32.lt_iff_toNat_lt.mpr (onTranche on waiting).1, turn, ok, ?_⟩
    rw [amount]
    exact tranchePositiveAt valid s.position
  forward op := by
    cases got : accepted perform s op with
    | true => exact (acceptsIff.mp (accepts_next got)).forward on
    | false => rw [performAtomic.rejected got]
  signal seated unfinished running := by
    have address : validateAddress (Wire.ascii "B") = .ok () := by decide
    obtain ⟨op, t, _, step, _, signal⟩ := demandedStep on address unfinished running
    exact ⟨op, signal seated, acceptedIff.mpr ⟨t, acceptsIff.mpr step⟩⟩
  join waiting addressB address :=
    acceptedIff.mpr ⟨_, acceptsIff.mpr (Step.joined ⟨s.roomId, addressB⟩ waiting rfl address)⟩
  rejected _ got := performAtomic.rejected got
  complete finished _ := completeRejects finished
  aborted closed _ got := abortedStays closed got

end Limits

/- Every reachable session is live, its accepted operations are bounded, one that is neither
complete nor aborted still has some to go, and cooperation completes it within the bound. -/
theorem sessionsLive {creator : CreateRoomMessage} {roomId : RoomId} {fee : FeeTerms} {confirm : Bool}
    {feePosition : FeePosition} {s : MediatorSession}
    (opened : construct creator roomId fee confirm feePosition = .ok s) (operations : List Operation) :
    let reached := exec perform s operations
    let done := (log perform s operations).countP (fun e => !e.call.isAbort)
    let bound := 4 * creator.terms.rounds.toNat + 5
    reached.Live ∧ done ≤ bound ∧
      (reached.state ≠ .complete → reached.state ≠ .aborted → done < bound) ∧
      (reached.state ≠ .aborted → ∀ addressB, validateAddress addressB = .ok () →
        ∃ more, more.length ≤ bound ∧ (∀ op ∈ more, op.isAbort = false) ∧
          (exec perform reached more).state = .complete) := by
  intro reached done bound
  have on := constructedOnTrack opened
  have whole := constructedRemaining opened
  have length := (planSound on.rounds).lengthAgenda
  have valid := constructedValid opened
  have track : reached.OnTrack := runOnTrack on operations
  have most : s.remaining.length ≤ bound := by
    obtain ⟨rfl, _⟩ := constructedTerms opened
    rw [whole]
    exact length
  refine ⟨onTrackLive (by rw [(runSame operations).creator]; exact valid) track,
    Nat.le_trans (acceptedBound on operations) most, ?_, ?_⟩
  · intro unfinished running
    have split := (sessionWorksOff.open performAtomic on operations running).2
    have lengths := congrArg List.length split
    rw [List.length_append, List.length_filterMap_eq_countP] at lengths
    simp only [happensTask] at lengths
    have more : (exec perform s operations).remaining ≠ [] := fun none => unfinished (remainingNil track none running)
    have left := List.length_pos_iff.mpr more
    omega
  · intro running addressB address
    have rest : reached.remaining.length ≤ bound := by
      have lengths := congrArg List.length (sessionWorksOff.open performAtomic on operations running).2
      rw [List.length_append] at lengths
      exact Nat.le_trans (Nat.le_trans (Nat.le_add_left _ _) (Nat.le_of_eq lengths)) most
    exact ⟨cooperation addressB bound reached, cooperationLength, cooperationSignals,
      cooperationCompletes address track running rest⟩

theorem swapLive :
    let reached := exec perform (swap true .beforeLastRound) (cooperation swapAddressB 9 (swap true .beforeLastRound))
    reached.state = .waitingForFinalReceiptAck ∧ reached.Live :=
  ⟨by decide, (sessionsLive (swapOpened true .beforeLastRound)
    (cooperation swapAddressB 9 (swap true .beforeLastRound))).1⟩

/- A fresh session accepts no report, no acknowledgement and no confirmation: it waits for its peer. -/
theorem swapAwaitsPeer :
    construct swapCreator swapRoom swapFee true .beforeLastRound = .ok (swap true .beforeLastRound) ∧
    (swap true .beforeLastRound).state ≠ .complete ∧ (swap true .beforeLastRound).state ≠ .aborted ∧
    ¬∃ op, op.isSignal = true ∧ accepted perform (swap true .beforeLastRound) op = true := by
  refine ⟨swapOpened true .beforeLastRound, by decide, by decide, ?_⟩
  rintro ⟨op, signal, got⟩
  have step := acceptsIff.mp (accepts_next got)
  generalize next perform (swap true .beforeLastRound) op = t at step
  have fresh : (swap true .beforeLastRound).state = .waitingForPeer := rfl
  cases step <;> simp_all [Operation.isSignal]

end TradeP2P.MediatorSession
