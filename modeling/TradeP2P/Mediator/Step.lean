import TradeP2P.Mediator.Session

/-! What one accepted operation does, as a relation. Each method gets the exact shape of
the calls it accepts and of the session it leaves; nothing after this module unfolds a
method again. -/
namespace TradeP2P.MediatorSession
open Wire (Bytes ascii)
open Machine

def rounds (s : MediatorSession) : Nat := s.creator.terms.rounds.toNat
def round (s : MediatorSession) : Nat := s.roundIndex.toNat
def leg (s : MediatorSession) : Nat := s.legIndex.toNat

def ChargesFee (s : MediatorSession) : Prop := 0 < s.fee.amount
instance (s) : Decidable (ChargesFee s) := by unfold ChargesFee; infer_instance

-- The fee leg is the trade's final tranche exactly when it is charged after the last round.
def FeeIsLast (s : MediatorSession) : Prop := s.ChargesFee ∧ s.feePosition = .afterLastRound
instance (s) : Decidable (FeeIsLast s) := by unfold FeeIsLast; infer_instance

def feeDueBeforeAnyRound (s : MediatorSession) : Bool :=
  s.fee.amount > 0 && (s.feePosition = .beforeFirstRound ||
    (s.feePosition = .beforeLastRound && s.creator.terms.rounds ≤ 1))

def onceFeeSettled (s : MediatorSession) : SessionState :=
  if s.feePosition = .afterLastRound then .complete else .waitingForSent

def onceFeeReported (s : MediatorSession) : SessionState :=
  if s.requireFeeConfirmation then .waitingForFeeConfirmation else s.onceFeeSettled

def inState (s : MediatorSession) (state : SessionState) : MediatorSession := { s with state }

def joinedBy (s : MediatorSession) (receiveAddressB : Bytes) : MediatorSession :=
  { s with receiveAddressB, state := if s.feeDueBeforeAnyRound then .waitingForFeeSent else .waitingForSent }

def acknowledged (s : MediatorSession) (party : Party) : MediatorSession :=
  if s.finalReceiptAcked (otherParty party) then
    (s.recordFinalReceiptAck party).inState
      (if s.finalReceiptGateIsFeeLeg then .waitingForFeeSent else .waitingForSent)
  else s.recordFinalReceiptAck party

def advanced (s : MediatorSession) : MediatorSession :=
  match advanceAfterReceipt s with
  | .ok _ t => t
  | .error _ t => t

def abortedWith (s : MediatorSession) (reason : Bytes) : MediatorSession :=
  { s with abortReason := (if reason.isEmpty then ascii "session aborted" else reason).take maxReasonLength
           state := .aborted }

inductive Step (s : MediatorSession) : Operation → MediatorSession → Prop where
  | joined (message : JoinRoomMessage) (waiting : s.state = .waitingForPeer)
      (room : message.roomId = s.roomId) (address : validateAddress message.receiveAddressB = .ok ()) :
      Step s (.join message) (s.joinedBy message.receiveAddressB)
  | feeSent (waiting : s.state = .waitingForFeeSent) :
      Step s (.senderReportedSent .a ⟨s.roomId, s.roundIndex, .a⟩) (s.inState s.onceFeeReported)
  | sent (party : Party) (waiting : s.state = .waitingForSent) (sender : s.currentSender = .ok party) :
      Step s (.senderReportedSent party ⟨s.roomId, s.roundIndex, party⟩) (s.inState .waitingForReceived)
  | received (party : Party) (waiting : s.state = .waitingForReceived)
      (sender : s.currentSender = .ok party) :
      Step s (.receiverReportedReceived (otherParty party) ⟨s.roomId, s.roundIndex, party⟩) s.advanced
  | acknowledged (party : Party) (waiting : s.state = .waitingForFinalReceiptAck)
      (first : s.finalReceiptAcked party = false) :
      Step s (.acknowledgeFinalReceipt party) (s.acknowledged party)
  | confirmed (waiting : s.state = .waitingForFeeConfirmation) :
      Step s .confirmFeeReceived (s.inState s.onceFeeSettled)
  | aborted (reason : Bytes) (unfinished : s.state ≠ .complete) :
      Step s (.abort reason) (s.abortedWith reason)

theorem validateSignalOk {s : MediatorSession} {m : RoundSignalMessage} :
    s.validateSignal m = .ok () ↔
      m.roomId = s.roomId ∧ m.roundIndex = s.roundIndex ∧ s.currentSender = .ok m.sender := by
  cases sender : s.currentSender with
  | error e => simp [validateSignal, sender, bind, Except.bind, throw, throwThe, MonadExceptOf.throw]; grind
  | ok p => simp [validateSignal, sender, bind, Except.bind, throw, throwThe, MonadExceptOf.throw, pure, Except.pure]; grind

theorem advanceAfterReceiptRun (s : MediatorSession) : advanceAfterReceipt s = .ok () s.advanced := by
  unfold advanced advanceAfterReceipt
  simp only [bind_run, get_run, set_run, ite_run]
  split_ifs <;> rfl

theorem joinStep {s t : MediatorSession} {m : JoinRoomMessage} :
    join m s = .ok () t ↔ Step s (.join m) t := by
  constructor
  · intro ok
    cases address : validateAddress m.receiveAddressB with
    | error e =>
        simp only [join, bind_run, throw_run, get_run, lift_run, ite_run, address] at ok
        split_ifs at ok
    | ok u =>
        simp only [join, bind_run, throw_run, get_run, set_run, lift_run, ite_run, address] at ok
        split_ifs at ok with waiting room due <;> try contradiction
        all_goals
          cases ok
          have step := Step.joined m (not_not.mp waiting) (not_not.mp room) address
          simpa [joinedBy, feeDueBeforeAnyRound, due] using step
  · rintro ⟨⟩
    rename_i waiting room address
    simp [join, bind_run, get_run, set_run, lift_run, address, waiting, room, joinedBy, feeDueBeforeAnyRound]

theorem currentReceiverOk {s : MediatorSession} {p : Party} (sender : s.currentSender = .ok p) :
    s.currentReceiver = .ok (otherParty p) := by
  simp [currentReceiver, sender, bind, Except.bind, pure, Except.pure]

theorem reportFeeRun {s : MediatorSession} (waiting : s.state = .waitingForFeeSent) :
    senderReportedSent .a ⟨s.roomId, s.roundIndex, .a⟩ s = .ok () (s.inState s.onceFeeReported) := by
  by_cases confirm : s.requireFeeConfirmation <;>
    simp [senderReportedSent, bind_run, get_run, set_run, waiting, onceFeeReported, onceFeeSettled, inState, confirm]

theorem senderReportedSentStep {s t : MediatorSession} {p : Party} {m : RoundSignalMessage} :
    senderReportedSent p m s = .ok () t ↔ Step s (.senderReportedSent p m) t := by
  constructor
  · intro ok
    obtain ⟨roomId, roundIndex, sender⟩ := m
    by_cases fee : s.state = .waitingForFeeSent
    · obtain ⟨rfl, rfl, rfl, rfl⟩ :
          roomId = s.roomId ∧ roundIndex = s.roundIndex ∧ p = .a ∧ sender = .a := by
        simp only [senderReportedSent, bind_run, throw_run, get_run, set_run, ite_run, if_pos fee] at ok
        split_ifs at ok <;> simp_all
      rw [reportFeeRun fee] at ok
      cases ok
      exact Step.feeSent fee
    · cases signal : s.validateSignal ⟨roomId, roundIndex, sender⟩ with
      | error e =>
          simp only [senderReportedSent, bind_run, throw_run, get_run, lift_run, ite_run, if_neg fee,
            signal] at ok
          split_ifs at ok
      | ok u =>
          obtain ⟨rfl, rfl, current⟩ := validateSignalOk.mp signal
          simp only [senderReportedSent, bind_run, throw_run, get_run, set_run, lift_run, ite_run,
            if_neg fee, signal, current] at ok
          split_ifs at ok with waiting party
          cases ok
          obtain rfl := not_not.mp party
          exact Step.sent _ (not_not.mp waiting) current
  · rintro ⟨⟩
    case feeSent waiting => exact reportFeeRun waiting
    case sent waiting sender =>
      have signal := validateSignalOk (m := ⟨s.roomId, s.roundIndex, p⟩) |>.mpr ⟨rfl, rfl, sender⟩
      simp [senderReportedSent, bind_run, get_run, set_run, lift_run, waiting, signal, sender, inState]

theorem receiverReportedReceivedStep {s t : MediatorSession} {p : Party} {m : RoundSignalMessage} :
    receiverReportedReceived p m s = .ok () t ↔ Step s (.receiverReportedReceived p m) t := by
  constructor
  · intro ok
    obtain ⟨roomId, roundIndex, sender⟩ := m
    cases signal : s.validateSignal ⟨roomId, roundIndex, sender⟩ with
    | error e =>
        simp only [receiverReportedReceived, bind_run, throw_run, get_run, lift_run, ite_run,
          signal] at ok
        split_ifs at ok
    | ok u =>
        obtain ⟨rfl, rfl, current⟩ := validateSignalOk.mp signal
        simp only [receiverReportedReceived, bind_run, throw_run, get_run, lift_run, ite_run, signal,
          currentReceiverOk current, advanceAfterReceiptRun] at ok
        split_ifs at ok with waiting party
        cases ok
        obtain rfl := not_not.mp party
        exact Step.received _ (not_not.mp waiting) current
  · rintro ⟨⟩
    rename_i party waiting sender
    have signal := validateSignalOk (m := ⟨s.roomId, s.roundIndex, party⟩) |>.mpr ⟨rfl, rfl, sender⟩
    simp [receiverReportedReceived, bind_run, get_run, lift_run, waiting, signal,
      currentReceiverOk sender, advanceAfterReceiptRun]

theorem acknowledgeFinalReceiptStep {s t : MediatorSession} {p : Party} :
    acknowledgeFinalReceipt p s = .ok () t ↔ Step s (.acknowledgeFinalReceipt p) t := by
  have run (waiting : s.state = .waitingForFinalReceiptAck) (first : s.finalReceiptAcked p = false) :
      acknowledgeFinalReceipt p s = .ok () (s.acknowledged p) := by
    cases p <;>
      (simp_all [acknowledgeFinalReceipt, bind_run, get_run, acknowledged,
        recordFinalReceiptAck, finalReceiptAcked, otherParty, inState, finalReceiptGateIsFeeLeg]
       split_ifs <;> rfl)
  constructor
  · intro ok
    by_cases waiting : s.state = .waitingForFinalReceiptAck
    · cases first : s.finalReceiptAcked p with
      | false =>
          rw [run waiting first] at ok
          cases ok
          exact Step.acknowledged p waiting first
      | true => simp [acknowledgeFinalReceipt, bind_run, get_run, throw_run, waiting, first] at ok
    · simp [acknowledgeFinalReceipt, bind_run, get_run, throw_run, waiting] at ok
  · rintro ⟨⟩
    exact run ‹_› ‹_›

theorem confirmFeeReceivedStep {s t : MediatorSession} :
    confirmFeeReceived s = .ok () t ↔ Step s .confirmFeeReceived t := by
  constructor
  · intro ok
    have waiting : s.state = .waitingForFeeConfirmation := by
      by_contra other
      simp [confirmFeeReceived, bind_run, throw_run, get_run, other] at ok
    have step := Step.confirmed waiting
    simp only [confirmFeeReceived, bind_run, get_run, waiting] at ok
    cases ok
    simpa [inState, onceFeeSettled] using step
  · rintro ⟨⟩
    rename_i waiting
    simp [confirmFeeReceived, bind_run, get_run, set_run, waiting, inState, onceFeeSettled]

theorem abortStep {s t : MediatorSession} {reason : Bytes} :
    abort reason s = .ok () t ↔ Step s (.abort reason) t := by
  constructor
  · intro ok
    have unfinished : s.state ≠ .complete := by
      intro finished
      simp [abort, bind_run, throw_run, get_run, finished] at ok
    have step := Step.aborted reason unfinished
    simp only [abort, bind_run, get_run, set_run, if_neg unfinished] at ok
    cases ok
    exact step
  · rintro ⟨⟩
    rename_i unfinished
    simp [abort, bind_run, get_run, set_run, unfinished, abortedWith]

theorem acceptsIff {s t : MediatorSession} {op : Operation} :
    Accepts perform s op t ↔ Step s op t := by
  cases op with
  | join m => exact joinStep
  | senderReportedSent p m => exact senderReportedSentStep
  | receiverReportedReceived p m => exact receiverReportedReceivedStep
  | acknowledgeFinalReceipt p => exact acknowledgeFinalReceiptStep
  | confirmFeeReceived => exact confirmFeeReceivedStep
  | abort reason => exact abortStep

/- Every method throws before its first assignment. -/
theorem performAtomic : Atomic perform := by
  intro s op e t thrown
  cases op with
  | join m =>
      simp only [perform, join, bind_run, throw_run, get_run, set_run, lift_run, ite_run] at thrown
      split_ifs at thrown <;> grind
  | senderReportedSent p m =>
      simp only [perform, senderReportedSent, bind_run, throw_run, get_run, set_run, lift_run, ite_run] at thrown
      split_ifs at thrown <;> grind
  | receiverReportedReceived p m =>
      simp only [perform, receiverReportedReceived, bind_run, throw_run, get_run, lift_run, ite_run,
        advanceAfterReceiptRun] at thrown
      split_ifs at thrown <;> grind
  | acknowledgeFinalReceipt p =>
      simp only [perform, acknowledgeFinalReceipt, bind_run, throw_run, get_run, set_run, ite_run] at thrown
      split_ifs at thrown <;> grind
  | confirmFeeReceived =>
      simp only [perform, confirmFeeReceived, bind_run, throw_run, get_run, set_run, ite_run] at thrown
      split_ifs at thrown; grind
  | abort reason =>
      simp only [perform, abort, bind_run, throw_run, get_run, set_run, ite_run] at thrown
      split_ifs at thrown; grind

end TradeP2P.MediatorSession
