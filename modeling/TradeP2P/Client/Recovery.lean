import TradeP2P.Hub.Tables
import TradeP2P.Journal.Records
import TradeP2P.Mediator.Restore

/-! What a client does with its last journal entry once the mediator has said where the room
stands. The classification reads the entry's round and acknowledgement; the message itself is
judged by the session when it is sent again. -/
namespace TradeP2P
open Wire (Bytes ascii)
open Machine

namespace MessageType

def sent : UInt16 := 12
def received : UInt16 := 13
def abort : UInt16 := 15
def receiptAck : UInt16 := 34

end MessageType

namespace MessageDirection

def outbound : UInt8 := 0
def inbound : UInt8 := 1

end MessageDirection

namespace AcknowledgementState

def notApplicable : UInt8 := 0
def pending : UInt8 := 1
def acknowledged : UInt8 := 2

end AcknowledgementState

inductive RecoveryActionCategory where
  | safeIdempotentRetry
  | unsafeRequiresConfirmation
  | alreadyCommitted
  | unknownRequiresReconciliation
  deriving DecidableEq, Repr

structure RecoveryClassification where
  category : RecoveryActionCategory
  explanation : String
  deriving DecidableEq, Repr

def isValueBearingMessageType (type : UInt16) : Bool := type == MessageType.sent

def classifyRecoveryAction (lastLocalEntry : Option JournalEntry)
    (mediatorState : Option RecoveryStateResponseMessage) : RecoveryClassification :=
  match lastLocalEntry, mediatorState with
  | none, _ => ⟨.unknownRequiresReconciliation,
      "no local journal entry exists for this trade; there is nothing recorded locally to reconcile against"⟩
  | some _, none => ⟨.unknownRequiresReconciliation,
      "the mediator could not be reached to confirm its side of this room; only the local journal entry is available"⟩
  | some entry, some remote =>
      if !remote.found then
        if entry.fields.localState = SessionState.complete.toByte ∨
            entry.fields.localState = SessionState.aborted.toByte then
          ⟨.alreadyCommitted,
            "the local journal already shows this trade as finished; the mediator prunes finished rooms from its " ++
              "persisted state, so its absence here is expected, not a loss"⟩
        else
          ⟨.unknownRequiresReconciliation,
            "the mediator has no record of this room even though the local journal shows it as still in progress; " ++
              "the room may have been lost before the mediator's persistence recorded it, or this room id is stale - " ++
              "do not resend a value-bearing action based on local state alone"⟩
      else if remote.roundIndex > entry.fields.round then
        ⟨.alreadyCommitted,
          "the mediator reports further round progress than the local journal does; the intervening round(s) are " ++
            "already committed on the mediator's side, so nothing for the earlier round should be resent"⟩
      else if remote.roundIndex < entry.fields.round then
        ⟨.unknownRequiresReconciliation,
          "the local journal shows more round progress than the mediator currently reports; this can happen if the " ++
            "mediator crashed just before persisting an already-acknowledged round advance - reconcile manually " ++
            "before acting"⟩
      else if entry.fields.ackState = AcknowledgementState.acknowledged then
        ⟨.alreadyCommitted,
          "the local journal already recorded this round's acknowledgement; there is nothing to retry"⟩
      else if entry.fields.ackState = AcknowledgementState.pending then
        if entry.fields.direction = MessageDirection.outbound ∧ isValueBearingMessageType entry.fields.messageType then
          ⟨.unsafeRequiresConfirmation,
            "the last recorded local action was reporting this client's own value transfer as sent, with no " ++
              "confirmation that the mediator ever received it; resignaling would falsely claim the transfer happened " ++
              "again if it already completed off-protocol - ask the user to confirm the underlying transfer's status " ++
              "before retrying"⟩
        else
          ⟨.safeIdempotentRetry,
            "the last recorded local action does not itself move value and matches the mediator's current round; it " ++
              "is safe to resend or re-request"⟩
      else
        ⟨.unknownRequiresReconciliation,
          "no acknowledgement tracking applies to the local journal's last entry for this round; manual review is " ++
            "needed before taking any action"⟩

namespace Recovery
open MediatorSession

/- What the classification calls safe: the mediator has the room, in the round of the entry, and the
entry is no unacknowledged claim of the client's own. -/
theorem safeIff {entry : JournalEntry} {response : RecoveryStateResponseMessage} :
    (classifyRecoveryAction entry response).category = .safeIdempotentRetry ↔
      response.found = true ∧ response.roundIndex = entry.fields.round ∧
        entry.fields.ackState = AcknowledgementState.pending ∧
        ¬(entry.fields.direction = MessageDirection.outbound ∧ entry.fields.messageType = MessageType.sent) := by
  have apart : AcknowledgementState.acknowledged ≠ AcknowledgementState.pending := by decide
  have exact : response.roundIndex = entry.fields.round ↔
      ¬response.roundIndex > entry.fields.round ∧ ¬response.roundIndex < entry.fields.round := by
    rw [← UInt32.toNat_inj, gt_iff_lt, UInt32.lt_iff_toNat_lt, UInt32.lt_iff_toNat_lt]
    omega
  simp only [classifyRecoveryAction, isValueBearingMessageType, beq_iff_eq, exact]
  split_ifs with missing finished ahead behind acknowledged waiting claim <;> simp_all

/-! A session over the life of the mediator. -/

inductive Occurrence where
  | call (op : Operation)
  | restart
  deriving DecidableEq, Repr

/- What a mediator started again under its old settings makes of the persisted room: the addresses
are not on file. -/
def restart : Method := do
  let s ← get
  set (← restore s.roomId s.creator.terms [] [] s.fee s.state s.roundIndex s.legIndex s.abortReason
    s.requireFeeConfirmation s.feePosition)

def live : Object Error MediatorSession Occurrence
  | .call op => perform op
  | .restart => restart

def reopened (s : MediatorSession) : MediatorSession :=
  { s with creator := ⟨s.creator.terms, []⟩, receiveAddressB := []
           finalReceiptAckedA := false, finalReceiptAckedB := false }

theorem restartAccepts {s t : MediatorSession} (ok : Accepts live s .restart t) : t = reopened s := by
  simp only [Accepts, live, restart, bind_returns, get_returns, lift_returns, set_returns] at ok
  obtain ⟨_, _, ⟨rfl, rfl⟩, restored, _, ⟨ok, rfl⟩, rfl⟩ := ok
  simp only [restore, List.isEmpty_nil, Bool.not_true, Bool.false_eq_true, if_false, Checks.bind_ok,
    Checks.pure_ok] at ok
  obtain ⟨_, _, _, _, _, _, _, _, _, _, rfl⟩ := ok
  rfl

theorem liveAtomic : Atomic live := by
  intro s a e t rejected
  cases a with
  | call op => exact performAtomic s op e t rejected
  | restart =>
      simp only [live, restart, bind_run, get_run, lift_run] at rejected
      split at rejected
      · cases rejected
      · cases rejected
        rename_i failed
        split at failed <;> cases failed
        rfl

theorem reopenedOnTrack {s : MediatorSession} (on : s.OnTrack) : (reopened s).OnTrack := by
  refine ⟨on.rounds, ?_⟩
  have placed := on.placed
  cases state : s.state <;> simp_all [Placed, reopened, MediatorSession.rounds, MediatorSession.round,
    MediatorSession.leg, ChargesFee, FeeIsLast]

/-! The journaled message, sent again. -/

/- What a client sends into a room. Of the other types none reaches a session that is there. -/
inductive RoomMessage where
  | sent (message : RoundSignalMessage)
  | received (message : RoundSignalMessage)
  | receiptAck (message : ReceiptAckMessage)
  | abort (message : AbortMessage)
  | other (type : UInt16)
      (elsewhere : type ∉ [MessageType.sent, MessageType.received, MessageType.receiptAck, MessageType.abort])
  deriving DecidableEq

def RoomMessage.type : RoomMessage → UInt16
  | .sent _ => MessageType.sent
  | .received _ => MessageType.received
  | .receiptAck _ => MessageType.receiptAck
  | .abort _ => MessageType.abort
  | .other type _ => type

/- A signal names the party that pays, so one that came in was reported by the peer. -/
def RoomMessage.FromPeer (own : Party) : RoomMessage → Prop
  | .sent message => message.sender = otherParty own
  | .received message => message.sender = own
  | _ => True

structure Journaled (own : Party) (fields : JournalEntryFields) (message : RoomMessage) : Prop where
  type : message.type = fields.messageType
  relayed : fields.direction ≠ MessageDirection.outbound → message.FromPeer own

/- What the mediator relays to the other party is what an inbound entry stands for. -/
theorem relayedSent {s t : MediatorSession} {reporter : Party} {m : RoundSignalMessage}
    (step : Step s (.senderReportedSent reporter m) t) : (RoomMessage.sent m).FromPeer (otherParty reporter) := by
  cases step <;> simp [RoomMessage.FromPeer]

theorem relayedReceived {s t : MediatorSession} {reporter : Party} {m : RoundSignalMessage}
    (step : Step s (.receiverReportedReceived reporter m) t) :
    (RoomMessage.received m).FromPeer (otherParty reporter) := by
  cases step
  simp [RoomMessage.FromPeer]

def inRoom (roomId : RoomId) (method : Method) : Method := do
  let s ← get
  if roomId ≠ s.roomId then throw (.invalidArgument "room does not exist")
  method

/- What the handler of each message does to the session of its room. -/
def resend (own : Party) : RoomMessage → Method
  | .sent message => inRoom message.roomId (senderReportedSent own message)
  | .received message => inRoom message.roomId (receiverReportedReceived own message)
  | .receiptAck message => inRoom message.roomId (acknowledgeFinalReceipt own)
  | .abort message => inRoom message.roomId do
      let s ← get
      if s.state ≠ .complete ∧ s.state ≠ .aborted then MediatorSession.abort (Hub.safeReason message.reason)
  | .other _ _ => return

theorem inRoomRun (s : MediatorSession) (roomId : RoomId) (method : Method) :
    inRoom roomId method s =
      if roomId = s.roomId then method s else .error (.invalidArgument "room does not exist") s := by
  simp only [inRoom, bind_run, get_run, ite_run, throw_run]
  split_ifs <;> simp_all

/- The session part of what the mediator answers. -/
structure Reported (s : MediatorSession) (response : RecoveryStateResponseMessage) : Prop where
  terms : response.terms = s.creator.terms
  state : response.state = s.state.toByte
  roundIndex : response.roundIndex = s.roundIndex
  legIndex : response.legIndex = s.legIndex

/- The answer is filled in room by room: the session's part under one lock, and kept from then on. -/
theorem recoverReported {n place : Nat} {response : RecoveryStateResponseMessage} {room : RoomEntry}
    {s t : Lobby.Tables} {task : Lobby.Task} (found : s.entries[place]? = some room)
    (ok : Lobby.recover n place response .state s = .ok task t) :
    ∃ filled, task = .recovering n place .fee filled ∧ Reported room.session filled := by
  simp only [Lobby.recover, bind_returns, get_returns] at ok
  obtain ⟨_, _, ⟨rfl, rfl⟩, ok⟩ := ok
  simp only [found, pure_returns] at ok
  exact ⟨_, ok.1.symm, rfl, rfl, rfl, rfl⟩

section Runs
variable {start s t : MediatorSession}

/- What every run keeps: the receipts it has accepted lie behind the position, and an accepted abort
is final. -/
structure Kept (start : MediatorSession) (h : List (Event MediatorSession Occurrence)) (s : MediatorSession) :
    Prop where
  on : s.OnTrack
  terms : s.creator.terms = start.creator.terms
  passed : ∀ reporter m, Occurrence.call (.receiverReportedReceived reporter m) ∈ h.map Event.call →
    ∃ k < s.position, m.roundIndex.toNat = k / 2 ∧ m.sender = start.senderOfLeg k
  closed : ∀ reason, Occurrence.call (.abort reason) ∈ h.map Event.call → s.state = .aborted

theorem sameSender (terms : s.creator.terms = start.creator.terms) (k : Nat) :
    s.senderOfLeg k = start.senderOfLeg k := by simp only [senderOfLeg, terms]

/- The leg a receipt is accepted for is the one its signal names. -/
theorem receiptLeg {reporter : Party} {m : RoundSignalMessage} (on : s.OnTrack)
    (step : Step s (.receiverReportedReceived reporter m) t) :
    t = s.advanced ∧ m.roundIndex.toNat = s.position / 2 ∧ m.sender = s.senderOfLeg s.position ∧
      t.position = s.position + 1 := by
  cases step with
  | received party waiting sender =>
      obtain ⟨more, leg, _⟩ := onTranche on (.inr waiting)
      rw [senderAtLeg (.inr waiting) leg] at sender
      exact ⟨rfl, (positionSplit leg).1, (Except.ok.inj sender).symm, (advancedReaches more leg).position⟩

theorem Kept.step {h : List (Event MediatorSession Occurrence)} {a : Occurrence} (kept : Kept start h s)
    (ok : Accepts live s a t) : Kept start (h ++ [⟨s, a, t⟩]) t := by
  cases a with
  | restart =>
      obtain rfl := restartAccepts ok
      refine ⟨reopenedOnTrack kept.on, kept.terms, ?_, ?_⟩
      · intro reporter m mem
        exact kept.passed reporter m (by simpa using mem)
      · intro reason mem
        exact kept.closed reason (by simpa using mem)
  | call op =>
      have accepts : Accepts perform s op t := ok
      have step : Step s op t := acceptsIff.mp accepts
      refine ⟨step.onTrack kept.on, ?_, ?_, ?_⟩
      · rw [step.same.creator]
        exact kept.terms
      · intro reporter m mem
        simp only [List.map_append, List.map_cons, List.map_nil, List.mem_append, List.mem_singleton] at mem
        rcases mem with earlier | now
        · obtain ⟨k, behind, leg⟩ := kept.passed reporter m earlier
          exact ⟨k, Nat.lt_of_lt_of_le behind (step.forward kept.on), leg⟩
        · obtain rfl := Occurrence.call.inj now
          obtain ⟨_, round, sender, moved⟩ := receiptLeg kept.on step
          exact ⟨s.position, by omega, round, sender.trans (sameSender kept.terms _)⟩
      · intro reason mem
        simp only [List.map_append, List.map_cons, List.map_nil, List.mem_append, List.mem_singleton] at mem
        rcases mem with earlier | now
        · have stays := abortedStays (kept.closed reason earlier) accepts.accepted
          rwa [accepts.next] at stays
        · obtain rfl := Occurrence.call.inj now
          cases step
          rfl

theorem runKept (on : start.OnTrack) (run : List Occurrence) : Kept start (log live start run) (exec live start run) :=
  liveAtomic.history ⟨on, rfl, by simp, by simp⟩ (fun _ _ _ _ kept ok => kept.step ok) run

/- What sending a message again may come to: nothing, or the first time it counts. No case is a
claim to have sent. -/
inductive Retried (start : MediatorSession) (run : List Occurrence) (own : Party) (s : MediatorSession) :
    RoomMessage → Prop where
  | refused {message : RoomMessage} (e : Error) (rejected : resend own message s = .error e s) :
      Retried start run own s message
  | ignored {message : RoomMessage} (same : resend own message s = .ok () s) : Retried start run own s message
  | receipt {m : RoundSignalMessage} (accepted : resend own (.received m) s = .ok () s.advanced)
      (round : m.roundIndex.toNat = s.position / 2) (sender : m.sender = s.senderOfLeg s.position)
      (first : ∀ reporter again, again.roundIndex = m.roundIndex → again.sender = m.sender →
        Occurrence.call (.receiverReportedReceived reporter again) ∉ (log live start run).map Event.call) :
      Retried start run own s (.received m)
  | acknowledgement {m : ReceiptAckMessage} (accepted : resend own (.receiptAck m) s = .ok () (s.acknowledged own))
      (first : s.finalReceiptAcked own = false) (stays : (s.acknowledged own).position = s.position) :
      Retried start run own s (.receiptAck m)
  | abort {m : AbortMessage}
      (accepted : resend own (.abort m) s = .ok () (s.abortedWith (Hub.safeReason m.reason)))
      (first : ∀ reason, Occurrence.call (.abort reason) ∉ (log live start run).map Event.call)
      (stays : (s.abortedWith (Hub.safeReason m.reason)).position = s.position) :
      Retried start run own s (.abort m)

section Retry
variable {start s : MediatorSession} {run : List Occurrence} {own : Party}

theorem refusedOf {method : Method} {roomId : RoomId} (op : Operation) (same : method = perform op)
    (never : ∀ t, ¬Step s op t) : ∃ e, inRoom roomId method s = .error e s := by
  rw [inRoomRun]
  split_ifs
  · cases got : method s with
    | ok u t =>
        rw [same] at got
        exact absurd (acceptsIff.mp got) (never t)
    | error e t =>
        rw [same] at got
        exact ⟨e, by rw [performAtomic s op e t got]⟩
  · exact ⟨_, rfl⟩

theorem retriedSent {m : RoundSignalMessage} (peer : m.sender = otherParty own) :
    Retried start run own s (.sent m) := by
  obtain ⟨e, rejected⟩ : ∃ e, resend own (.sent m) s = .error e s := by
    refine refusedOf (.senderReportedSent own m) rfl ?_
    intro t step
    have self : m.sender = own := by cases step <;> rfl
    rw [self] at peer
    cases own <;> cases peer
  exact .refused e rejected

theorem retriedReceived (kept : Kept start (log live start run) s) (m : RoundSignalMessage) :
    Retried start run own s (.received m) := by
  by_cases accepts : ∃ t, Step s (.receiverReportedReceived own m) t
  · obtain ⟨t, step⟩ := accepts
    obtain ⟨rfl, round, sender, moved⟩ := receiptLeg kept.on step
    have room : m.roomId = s.roomId := by cases step; rfl
    refine .receipt ?_ round sender ?_
    · rw [resend, inRoomRun, if_pos room]
      exact acceptsIff.mpr step
    · intro reporter again sameRound samePayer mem
      obtain ⟨k, behind, leg, payer⟩ := kept.passed reporter again mem
      have halves : k / 2 = s.position / 2 := by rw [← leg, sameRound, round]
      have payers : s.senderOfLeg k = s.senderOfLeg s.position := by
        rw [← sender, ← samePayer, payer, sameSender kept.terms]
      have one := legOfSender halves payers
      omega
  · obtain ⟨e, rejected⟩ : ∃ e, resend own (.received m) s = .error e s :=
      refusedOf (.receiverReportedReceived own m) rfl (fun t step => accepts ⟨t, step⟩)
    exact .refused e rejected

theorem retriedAck (m : ReceiptAckMessage) : Retried start run own s (.receiptAck m) := by
  by_cases accepts : m.roomId = s.roomId ∧ ∃ t, Step s (.acknowledgeFinalReceipt own) t
  · obtain ⟨room, t, step⟩ := accepts
    have accepted := acceptsIff.mpr step
    cases step with
    | acknowledged party waiting first =>
        refine .acknowledgement ?_ first (acknowledgedPosition own)
        rw [resend, inRoomRun, if_pos room]
        exact accepted
  · obtain ⟨e, rejected⟩ : ∃ e, resend own (.receiptAck m) s = .error e s := by
      by_cases room : m.roomId = s.roomId
      · exact refusedOf (.acknowledgeFinalReceipt own) rfl (fun t step => accepts ⟨room, t, step⟩)
      · rw [resend, inRoomRun, if_neg room]
        exact ⟨_, rfl⟩
    exact .refused e rejected

theorem retriedAbort (kept : Kept start (log live start run) s) (m : AbortMessage) :
    Retried start run own s (.abort m) := by
  by_cases room : m.roomId = s.roomId
  · by_cases unfinished : s.state ≠ .complete ∧ s.state ≠ .aborted
    · have step := Step.aborted (s := s) (Hub.safeReason m.reason) unfinished.1
      refine .abort ?_ (fun reason mem => unfinished.2 (kept.closed reason mem)) rfl
      rw [resend, inRoomRun, if_pos room, bind_run, get_run]
      simp only [ite_run, if_pos unfinished]
      exact acceptsIff.mpr step
    · refine .ignored ?_
      rw [resend, inRoomRun, if_pos room, bind_run, get_run]
      simp only [ite_run, if_neg unfinished]
      rfl
  · refine .refused (.invalidArgument "room does not exist") ?_
    rw [resend, inRoomRun, if_neg room]

end Retry

/- A retry called safe never repeats a claim to have sent, and what it acknowledges it acknowledges for
the first time. -/
theorem retryCountsOnce {creator : CreateRoomMessage} {roomId : RoomId} {fee : FeeTerms} {confirm : Bool}
    {feePosition : FeePosition} {start : MediatorSession}
    (opened : construct creator roomId fee confirm feePosition = .ok start) (run : List Occurrence) (own : Party)
    (entry : JournalEntry) (message : RoomMessage) (journaled : Journaled own entry.fields message)
    (response : RecoveryStateResponseMessage)
    (reported : response.found = true → Reported (exec live start run) response)
    (safe : (classifyRecoveryAction entry response).category = .safeIdempotentRetry) :
    entry.fields.round = (exec live start run).roundIndex ∧ Retried start run own (exec live start run) message := by
  obtain ⟨found, round, _, noClaim⟩ := safeIff.mp safe
  have kept := runKept (constructedOnTrack opened) run
  refine ⟨round.symm.trans (reported found).roundIndex, ?_⟩
  cases message with
  | sent m =>
      have inward : entry.fields.direction ≠ MessageDirection.outbound :=
        fun outward => noClaim ⟨outward, journaled.type.symm⟩
      exact retriedSent (journaled.relayed inward)
  | received m => exact retriedReceived kept m
  | receiptAck m => exact retriedAck m
  | abort m => exact retriedAbort kept m
  | other type elsewhere => exact .ignored rfl

/-! One entry of each kind against the same room. -/

def reportOf (s : MediatorSession) : RecoveryStateResponseMessage where
  roomId := s.roomId
  found := true
  terms := s.creator.terms
  fee := s.fee
  state := s.state.toByte
  roundIndex := s.roundIndex
  legIndex := s.legIndex

def pendingEntry (type : UInt16) (round : UInt32) : JournalEntry where
  index := 0
  fields := { roomId := swapRoom, tradeId := Vector.replicate 16 0, mediatorId := []
              counterpartyFingerprint := Vector.replicate 32 0, termsCommitment := Vector.replicate 32 0, round
              direction := MessageDirection.outbound, messageType := type, messageHash := Vector.replicate 32 0
              ackState := AcknowledgementState.pending, localState := 1, timestamp := 1 }
  previousHash := Vector.replicate 32 0
  entryHash := Vector.replicate 32 0

def swapStart : MediatorSession := swap false .afterLastRound

/- A has reported the first tranche, and the mediator was started again since. -/
def swapRun : List Occurrence :=
  [.call (.join ⟨swapRoom, swapAddressB⟩), .call (.senderReportedSent .a ⟨swapRoom, 0, .a⟩), .restart]

theorem swapRetryCountsOnce :
    (pendingEntry MessageType.received 0).fields.round = (exec live swapStart swapRun).roundIndex ∧
      Retried swapStart swapRun .b (exec live swapStart swapRun) (.received ⟨swapRoom, 0, .a⟩) :=
  retryCountsOnce (swapOpened false .afterLastRound) swapRun .b (pendingEntry MessageType.received 0)
    (.received ⟨swapRoom, 0, .a⟩) ⟨rfl, fun inward => absurd rfl inward⟩ (reportOf (exec live swapStart swapRun))
    (fun _ => ⟨rfl, rfl, rfl, rfl⟩) (by decide)

/- An unacknowledged abort is safe to send again: the room that was going on is closed, with no leg accepted. -/
theorem swapAbortTakesEffect :
    let s := exec live swapStart swapRun
    let message := RoomMessage.abort ⟨swapRoom, ascii "too slow"⟩
    Journaled .b (pendingEntry MessageType.abort 0).fields message ∧ Reported s (reportOf s) ∧
      (classifyRecoveryAction (pendingEntry MessageType.abort 0) (reportOf s)).category = .safeIdempotentRetry ∧
      resend .b message s = .ok () (s.abortedWith (ascii "too slow")) ∧ s.abortedWith (ascii "too slow") ≠ s ∧
      (s.abortedWith (ascii "too slow")).state = .aborted ∧ (s.abortedWith (ascii "too slow")).position = s.position :=
  ⟨⟨rfl, fun inward => absurd rfl inward⟩, ⟨rfl, rfl, rfl, rfl⟩, by decide, rfl, by decide, rfl, rfl⟩

end Runs
end Recovery
end TradeP2P
