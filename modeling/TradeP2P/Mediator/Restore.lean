import TradeP2P.Mediator.Gate

/-! Persisting a session and restoring it. The persisted fields are all there is to a
session but the acknowledgement flags, and those are read in the receipt gate only. -/
namespace TradeP2P.MediatorSession
open Machine Checks

/- What a restart does with a session: only the arguments of `restore` survive, the operator's
settings are the ones in force now. -/
def restarted (s : MediatorSession) (confirm : Bool) (feePosition : FeePosition) : Except Error MediatorSession :=
  restore s.roomId s.creator.terms s.creator.receiveAddressA s.receiveAddressB s.fee s.state s.roundIndex
    s.legIndex s.abortReason confirm feePosition

def withFlags (s : MediatorSession) (ackedA ackedB : Bool) : MediatorSession :=
  { s with finalReceiptAckedA := ackedA, finalReceiptAckedB := ackedB }

def withSettings (s : MediatorSession) (confirm : Bool) (feePosition : FeePosition) : MediatorSession :=
  { s with requireFeeConfirmation := confirm, feePosition }

section Persistable
variable {s t : MediatorSession}

structure Persistable (s : MediatorSession) : Prop where
  terms : validateTerms s.creator.terms = .ok ()
  addressA : validateAddress s.creator.receiveAddressA = .ok ()
  room : validateRoomId s.roomId = .ok ()
  fee : validateFeeTerms s.fee = .ok ()
  addressB : s.receiveAddressB.isEmpty = true ∨ validateAddress s.receiveAddressB = .ok ()

theorem Step.addressB {op : Operation} (step : Step s op t) :
    t.receiveAddressB = s.receiveAddressB ∨ validateAddress t.receiveAddressB = .ok () := by
  cases step with
  | joined message waiting room address => exact .inr address
  | received party waiting sender =>
      have run := advanceAfterReceiptRun s
      simp only [advanceAfterReceipt, bind_run, get_run, set_run, ite_run] at run
      generalize s.advanced = t at run
      split_ifs at run <;> (cases run; exact .inl rfl)
  | acknowledged party waiting first =>
      unfold MediatorSession.acknowledged
      split <;> cases party <;> exact .inl rfl
  | _ => exact .inl rfl

theorem Step.persistable {op : Operation} (persistable : Persistable s) (step : Step s op t) : Persistable t := by
  have same := step.same
  refine ⟨?_, ?_, ?_, ?_, ?_⟩
  · rw [same.creator]; exact persistable.terms
  · rw [same.creator]; exact persistable.addressA
  · rw [same.roomId]; exact persistable.room
  · rw [same.fee]; exact persistable.fee
  · rcases step.addressB with kept | valid
    · rw [kept]; exact persistable.addressB
    · exact .inr valid

theorem runPersistable (persistable : Persistable s) (calls : List Operation) : Persistable (exec perform s calls) :=
  performAtomic.invariant persistable (fun _ _ _ holds ok => (acceptsIff.mp ok).persistable holds) calls

theorem constructedPersistable {creator : CreateRoomMessage} {roomId : RoomId} {fee : FeeTerms} {confirm : Bool}
    {feePosition : FeePosition} (opened : construct creator roomId fee confirm feePosition = .ok s) :
    Persistable s := by
  obtain ⟨terms, address, room, fees, rfl⟩ := constructOk.mp opened
  exact ⟨terms, address, room, fees, .inl rfl⟩

/- A session within its limits restores, and comes back as it was but for the flags. -/
theorem restartedOk (persistable : Persistable s) (on : s.OnTrack) (confirm : Bool) (feePosition : FeePosition) :
    s.restarted confirm feePosition = .ok ((s.withFlags false false).withSettings confirm feePosition) := by
  obtain ⟨round, leg⟩ := on.within
  have indexed : ¬s.roundIndex > s.creator.terms.rounds := by
    rw [gt_iff_lt, UInt32.lt_iff_toNat_lt]
    exact Nat.not_lt.mpr round
  have halved : ¬s.legIndex > 1 := by
    rw [gt_iff_lt, UInt8.lt_iff_toNat_lt]
    exact Nat.not_lt.mpr leg
  have checks : validateTerms s.creator.terms = .ok () ∧ validateRoomId s.roomId = .ok () ∧
      validateFeeTerms s.fee = .ok () := ⟨persistable.terms, persistable.room, persistable.fee⟩
  simp only [restarted, restore, checks, persistable.addressA, throwIf_not indexed, throwIf_not halved, bind,
    Except.bind, ite_self]
  rcases persistable.addressB with blank | valid
  · simp only [blank, Bool.not_true, Bool.false_eq_true, if_false]
    rfl
  · simp only [valid]
    split_ifs <;> rfl

/- Blind to the flags outside the gate. -/
def Agree (s r : MediatorSession) : Prop :=
  s.withFlags false false = r.withFlags false false ∧ (s.state = .waitingForFinalReceiptAck → s = r)

theorem agreeState {r : MediatorSession} (agree : Agree s r) : s.state = r.state := by
  have states := congrArg MediatorSession.state agree.1
  exact states

theorem agreeTurn {r : MediatorSession} (agree : Agree s r) : s.currentTurn = r.currentTurn := by
  have blind (q : MediatorSession) : q.currentTurn = (q.withFlags false false).currentTurn := rfl
  rw [blind s, blind r, agree.1]

theorem agreeFlags (ackedA ackedB : Bool) (elsewhere : s.state ≠ .waitingForFinalReceiptAck) :
    Agree s (s.withFlags ackedA ackedB) := ⟨rfl, fun waiting => absurd waiting elsewhere⟩

theorem advancedAgree (ackedA ackedB : Bool) : Agree s.advanced (s.withFlags ackedA ackedB).advanced := by
  have left := advanceAfterReceiptRun s
  have right := advanceAfterReceiptRun (s.withFlags ackedA ackedB)
  generalize s.advanced = t at left ⊢
  generalize (s.withFlags ackedA ackedB).advanced = u at right ⊢
  simp only [advanceAfterReceipt, bind_run, get_run, set_run, ite_run, withFlags] at left right
  split_ifs at left right <;> (cases left; cases right; simp [Agree, withFlags])

/- Two sessions that agree take the same steps. -/
theorem agreeStep {r : MediatorSession} {op : Operation} (agree : Agree s r) (step : Step s op t) :
    ∃ u, Step r op u ∧ Agree t u := by
  by_cases gate : s.state = .waitingForFinalReceiptAck
  · rw [← agree.2 gate]
    exact ⟨t, step, rfl, fun _ => rfl⟩
  · obtain ⟨ackedA, ackedB, rfl⟩ : ∃ ackedA ackedB, r = s.withFlags ackedA ackedB := by
      refine ⟨r.finalReceiptAckedA, r.finalReceiptAckedB, ?_⟩
      have whole := congrArg (fun q => q.withFlags r.finalReceiptAckedA r.finalReceiptAckedB) agree.1
      exact whole.symm
    have settled : s.onceFeeSettled ≠ .waitingForFinalReceiptAck ∧ s.onceFeeReported ≠ .waitingForFinalReceiptAck := by
      unfold onceFeeReported onceFeeSettled
      split_ifs <;> simp
    cases step with
    | joined message waiting room address =>
        refine ⟨_, Step.joined message waiting room address, rfl, ?_⟩
        simp only [joinedBy]
        split <;> simp
    | feeSent waiting => exact ⟨_, Step.feeSent waiting, rfl, fun state => absurd state settled.2⟩
    | confirmed waiting => exact ⟨_, Step.confirmed waiting, rfl, fun state => absurd state settled.1⟩
    | sent party waiting sender => exact ⟨_, Step.sent party waiting sender, rfl, by simp⟩
    | received party waiting sender => exact ⟨_, Step.received party waiting sender, advancedAgree ackedA ackedB⟩
    | aborted reason unfinished => exact ⟨_, Step.aborted reason unfinished, rfl, by simp [abortedWith]⟩
    | acknowledged party waiting first => exact absurd waiting gate

theorem agreeBisimulation : Bisimulation perform Agree where
  symm agree := ⟨agree.1.symm, fun waiting => (agree.2 ((agreeState agree).trans waiting)).symm⟩
  forth agree ok := by
    obtain ⟨u, step, kept⟩ := agreeStep agree (acceptsIff.mp ok)
    exact ⟨u, acceptsIff.mpr step, kept⟩

/- The same continuations, with the same results, for good. -/
structure SameCourse (s r : MediatorSession) : Prop where
  accepts : ∀ more op, accepted perform (exec perform s more) op = accepted perform (exec perform r more) op
  fields : ∀ more, (exec perform s more).withFlags false false = (exec perform r more).withFlags false false
  state : ∀ more, (exec perform s more).state = (exec perform r more).state
  turn : ∀ more, (exec perform s more).currentTurn = (exec perform r more).currentTurn

theorem agreeCourse {r : MediatorSession} (agree : Agree s r) : SameCourse s r := by
  have run (more : List Operation) := agreeBisimulation.exec performAtomic agree more
  exact ⟨fun more op => agreeBisimulation.accepted (run more) op, fun more => (run more).1,
    fun more => agreeState (run more), fun more => agreeTurn (run more)⟩

end Persistable

/- The acknowledgements a session in the gate already holds, given again. -/
def acknowledgements (s : MediatorSession) : List Operation :=
  (if s.finalReceiptAckedA then [.acknowledgeFinalReceipt .a] else []) ++
    (if s.finalReceiptAckedB then [.acknowledgeFinalReceipt .b] else [])

section Gate
variable {s : MediatorSession}

theorem firstAcknowledgement (waiting : s.state = .waitingForFinalReceiptAck) (party : Party) :
    Accepts perform (s.withFlags false false) (.acknowledgeFinalReceipt party)
      ((s.withFlags false false).recordFinalReceiptAck party) := by
  have step := Step.acknowledged (s := s.withFlags false false) party waiting (by cases party <;> rfl)
  have alone : (s.withFlags false false).acknowledged party =
      (s.withFlags false false).recordFinalReceiptAck party := by cases party <;> rfl
  rw [alone] at step
  exact acceptsIff.mpr step

theorem acknowledgedAgain (on : s.OnTrack) (waiting : s.state = .waitingForFinalReceiptAck) :
    (log perform (s.withFlags false false) s.acknowledgements).map Event.call = s.acknowledgements ∧
      exec perform (s.withFlags false false) s.acknowledgements = s := by
  have place := on.placed
  simp only [Placed, waiting] at place
  have again (party : Party) (asked : s.acknowledgements = [.acknowledgeFinalReceipt party])
      (held : (s.withFlags false false).recordFinalReceiptAck party = s) :
      (log perform (s.withFlags false false) s.acknowledgements).map Event.call = s.acknowledgements ∧
        exec perform (s.withFlags false false) s.acknowledgements = s := by
    have ok := firstAcknowledgement waiting party
    rw [asked, log_single, if_pos ok.accepted, exec_cons, exec_nil, ok.next]
    exact ⟨rfl, held⟩
  have whole : s.withFlags s.finalReceiptAckedA s.finalReceiptAckedB = s := rfl
  cases ackedA : s.finalReceiptAckedA <;> cases ackedB : s.finalReceiptAckedB <;> rw [ackedA, ackedB] at whole
  · have none : s.acknowledgements = [] := by simp [acknowledgements, ackedA, ackedB]
    rw [none]
    exact ⟨rfl, whole⟩
  · exact again .b (by simp [acknowledgements, ackedA, ackedB]) whole
  · exact again .a (by simp [acknowledgements, ackedA, ackedB]) whole
  · exact absurd ⟨ackedA, ackedB⟩ place.1

theorem gateElse {op : Operation} (waiting : s.state = .waitingForFinalReceiptAck)
    (other : ∀ party, op ≠ .acknowledgeFinalReceipt party) :
    accepted perform s op = true ↔ ∃ reason, op = .abort reason := by
  constructor
  · intro got
    have step := acceptsIff.mp (accepts_next got)
    generalize next perform s op = t at step
    cases step with
    | aborted reason unfinished => exact ⟨reason, rfl⟩
    | acknowledged party waiting first => exact absurd rfl (other party)
    | _ => simp_all
  · rintro ⟨reason, rfl⟩
    exact acceptedIff.mpr ⟨_, acceptsIff.mpr (Step.aborted reason (by simp [waiting]))⟩

end Gate

/- A restored session goes on as the original would have. In the gate the acknowledgements
already given are asked for once more, and giving them makes it the original again. -/
theorem restoreTransparent {creator : CreateRoomMessage} {roomId : RoomId} {fee : FeeTerms} {confirm : Bool}
    {feePosition : FeePosition} {start : MediatorSession}
    (opened : construct creator roomId fee confirm feePosition = .ok start) (operations : List Operation) :
    let s := exec perform start operations
    ∃ r, s.restarted confirm feePosition = .ok r ∧
      (s.state ≠ .waitingForFinalReceiptAck → SameCourse s r) ∧
      (s.state = .waitingForFinalReceiptAck →
        ((log perform r s.acknowledgements).map Event.call = s.acknowledgements ∧
          exec perform r s.acknowledgements = s) ∧
        ∀ op, (∀ party, op ≠ .acknowledgeFinalReceipt party) →
          accepted perform s op = accepted perform r op ∧
          (accepted perform s op = true → SameCourse (next perform s op) (next perform r op))) := by
  intro s
  have on : s.OnTrack := runOnTrack (constructedOnTrack opened) operations
  have same : SameTerms start s := runSame operations
  obtain ⟨_, _, _, asks, place, _⟩ := constructedTerms opened
  have settings : (s.withFlags false false).withSettings confirm feePosition = s.withFlags false false := by
    rw [← asks, ← place, ← same.requireFeeConfirmation, ← same.feePosition]
    rfl
  have back := restartedOk (runPersistable (constructedPersistable opened) operations) on confirm feePosition
  rw [settings] at back
  refine ⟨_, back, fun elsewhere => agreeCourse (agreeFlags false false elsewhere), fun waiting => ?_⟩
  refine ⟨acknowledgedAgain on waiting, fun op other => ⟨?_, fun got => ?_⟩⟩
  · have left := gateElse waiting other
    have right := gateElse (s := s.withFlags false false) waiting other
    exact Bool.eq_iff_iff.mpr (left.trans right.symm)
  · obtain ⟨reason, rfl⟩ := (gateElse waiting other).mp got
    have unfinished : s.state ≠ .complete := by simp [waiting]
    have left : Accepts perform s (.abort reason) (s.abortedWith reason) :=
      acceptsIff.mpr (Step.aborted reason unfinished)
    have right : Accepts perform (s.withFlags false false) (.abort reason) ((s.withFlags false false).abortedWith reason) :=
      acceptsIff.mpr (Step.aborted reason unfinished)
    rw [left.next, right.next]
    exact agreeCourse ⟨rfl, by simp [abortedWith]⟩

/- The swap in its gate, one acknowledgement given: restored, it waits for that one again. -/
theorem swapRestored :
    let s := exec perform (swap true .beforeLastRound) (cooperation swapAddressB 10 (swap true .beforeLastRound))
    s.state = .waitingForFinalReceiptAck ∧ s.acknowledgements = [.acknowledgeFinalReceipt .a] ∧
      ∃ r, s.restarted true .beforeLastRound = .ok r ∧ exec perform r s.acknowledgements = s := by
  intro s
  have waiting : s.state = .waitingForFinalReceiptAck := by decide
  obtain ⟨r, back, _, gate⟩ := restoreTransparent (swapOpened true .beforeLastRound)
    (cooperation swapAddressB 10 (swap true .beforeLastRound))
  exact ⟨waiting, by decide, r, back, (gate waiting).1.2⟩

end TradeP2P.MediatorSession
