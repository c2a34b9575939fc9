import TradeP2P.Hub.Room
import TradeP2P.Lib.Contracts
import TradeP2P.Lib.Schedules
import TradeP2P.Protocol.SecureChannel

/-! The thread of one connection, from its welcome to its close. Every other thread may put a frame on its queue at any point; the
thread itself takes what is queued, writes it, and hands the frames that come in to a dispatcher, which may refuse them. What the
dispatcher does is left open, and so are the answers of `poll` and what the connection does. -/
namespace TradeP2P.ClientLoop
open Wire (Bytes)
open Machine
open SecureChannel (receiveFrame receiveAll sendFrame stream numbered Sendable)

abbrev QueuedFrame := MessageType × Bytes

def maxQueuedFrames : Nat := 128
def errorType : MessageType := 16
def disconnectType : MessageType := 17

structure Client where
  channel : SecureChannel := {}
  outgoing : List QueuedFrame := []
  alive : Bool := true
  badMessages : Nat := 0
  deriving DecidableEq, Repr

def Client.enqueue (queued : QueuedFrame) (client : Client) : Bool × Client :=
  if client.alive = false then (false, client)
  else if client.outgoing.length ≥ maxQueuedFrames then (false, { client with alive := false })
  else (true, { client with outgoing := client.outgoing ++ [queued] })

def Client.takeOutgoing (client : Client) : List QueuedFrame × Client := (client.outgoing, { client with outgoing := [] })

/- How a dispatch ends: a benign rejection is not held against the client. -/
inductive Dispatched where
  | returned
  | benign (reason : Bytes)
  | threw (reason : Bytes)
  deriving DecidableEq, Repr

/- Why the loop of its own accord ends a connection, and how a connection comes to its end. -/
inductive Cause where | disconnect | strikes
  deriving DecidableEq, Repr

inductive Ending where | ended | hungUp | failed
  deriving DecidableEq, Repr

/- Where the thread is. A flush is either the one after a wake-up or the last thing of a round. -/
inductive Place where
  | welcoming (frame : QueuedFrame)
  | top
  | polling
  | woken
  | checked
  | receiving (processed : Nat)
  | dispatching (processed : Nat) (frame : SecureChannel.Frame)
  | striking (processed : Nat)
  | counted (processed : Nat)
  | taking
  | flushing (left : List QueuedFrame) (last : Bool)
  | closing (ending : Ending) (lost : List QueuedFrame)
  | closed (ending : Ending) (lost : List QueuedFrame)
  deriving DecidableEq, Repr

/- Taken off the queue and not written. -/
def Place.held : Place → List QueuedFrame
  | .welcoming frame => [frame]
  | .flushing left _ => left
  | .closing _ lost | .closed _ lost => lost
  | _ => []

/- The fields after the place say what has happened: every frame that was due, those written, the bytes and the frames that came
in, how each dispatch ended, whether a frame met a full queue, why the loop ended, and how many dispatches the last flush is ago. -/
structure Connection where
  client : Client := {}
  place : Place
  line : List QueuedFrame
  sent : List QueuedFrame := []
  arrived : Bytes := []
  received : List SecureChannel.Frame := []
  outcomes : List Dispatched := []
  overflowed : Bool := false
  cause : Option Cause := none
  unflushed : Nat := 0
  deriving DecidableEq, Repr

def start (welcome : QueuedFrame) : Connection := { place := .welcoming welcome, line := [welcome] }

inductive Event where
  | put (queued : QueuedFrame)
  | arrive (bytes : Bytes)
  | iterate
  | interrupted
  | polled (wake : Bool)
  | hangUp
  | readable
  | quiet
  | receive
  | dispatched (outcome : Dispatched)
  | struck
  | again (pending : Bool)
  | take
  | send
  | flushed
  | sendFails (written : Nat)
  | fails
  | close
  deriving DecidableEq, Repr

namespace Connection
variable (c : Connection)

def put (queued : QueuedFrame) : Connection :=
  match c.client.enqueue queued with
  | (true, client) => { c with client, line := c.line ++ [queued] }
  | (false, client) => { c with client, overflowed := c.overflowed || c.client.alive }

def kill : Connection := { c with client := { c.client with alive := false } }

def sendError (reason : Bytes) : Connection :=
  match encodeError ⟨Hub.safeReason reason⟩ with
  | .ok payload => c.put (errorType, payload)
  | .error _ => c.kill

def arrive (bytes : Bytes) : Connection :=
  { c with client := { c.client with channel := { c.client.channel with input := c.client.channel.input ++ bytes } }
           arrived := c.arrived ++ bytes }

def take (last : Bool) : Connection :=
  let (frames, client) := c.client.takeOutgoing
  { c with client, place := .flushing frames last, unflushed := 0 }

def send (frame : QueuedFrame) (next : Place) : Option Connection :=
  match sendFrame frame.1 frame.2 c.client.channel with
  | .ok _ channel => some { c with client := { c.client with channel }, place := next, sent := c.sent ++ [frame] }
  | .error _ _ => none

-- A write that throws may have got some of its bytes out; the frames behind it are gone with it.
def sendFails (frame : QueuedFrame) (rest : List QueuedFrame) (written : Nat) : Connection :=
  let bytes := if validateMessageType frame.1 = .ok () ∧ frame.2.length ≤ maxFramePayload then
    SecureChannel.Frame.bytes ⟨frame.1, c.client.channel.sendSequence, frame.2⟩ else []
  { c with client := { c.client with channel := { c.client.channel with output := c.client.channel.output ++ bytes.take written } }
           place := .closing .failed (frame :: rest) }

def receive (processed : Nat) : Connection :=
  match receiveFrame c.client.channel with
  | .ok frame channel =>
      let c := { c with client := { c.client with channel }, received := c.received ++ [frame] }
      if frame.type = disconnectType then { c.kill with place := .taking, cause := some .disconnect }
      else { c with place := .dispatching processed frame }
  | .error _ channel => { c with client := { c.client with channel }, place := .closing .failed [] }

def dispatched (processed : Nat) (outcome : Dispatched) : Connection :=
  let c := { c with outcomes := c.outcomes ++ [outcome], unflushed := c.unflushed + 1 }
  match outcome with
  | .returned => { c with place := .counted (processed + 1) }
  | .benign reason => { c.sendError reason with place := .counted (processed + 1) }
  | .threw reason =>
      let c := { c with client := { c.client with badMessages := c.client.badMessages + 1 } }
      { c.sendError reason with place := .striking processed }

def struck (processed : Nat) : Connection :=
  if c.client.badMessages ≥ 3 then { c.kill with place := .taking, cause := some .strikes }
  else { c with place := .counted (processed + 1) }

def again (processed : Nat) (pending : Bool) : Connection :=
  { c with place := if c.client.alive ∧ pending ∧ processed < 16 then .receiving processed else .taking }

end Connection

def fire (c : Connection) (event : Event) : Option Connection :=
  match event, c.place with
  | .put queued, _ => some (c.put queued)
  | .arrive bytes, _ => some (c.arrive bytes)
  | .send, .welcoming frame => c.send frame .top
  | .sendFails written, .welcoming frame => some (c.sendFails frame [] written)
  | .iterate, .top => some { c with place := if c.client.alive then .polling else .closing .ended [] }
  | .interrupted, .polling => some { c with place := .top }
  | .fails, .polling => some { c with place := .closing .failed [] }
  | .polled true, .polling => some { c with place := .woken }
  | .polled false, .polling => some { c with place := .checked }
  | .take, .woken => some (c.take false)
  | .take, .taking => some (c.take true)
  | .send, .flushing (frame :: rest) last => c.send frame (.flushing rest last)
  | .sendFails written, .flushing (frame :: rest) _ => some (c.sendFails frame rest written)
  | .flushed, .flushing [] last => some { c with place := if last then .top else .checked }
  | .hangUp, .checked => some { c with place := .closing .hungUp [] }
  | .readable, .checked => some { c with place := .receiving 0 }
  | .quiet, .checked => some { c with place := .taking }
  | .receive, .receiving processed => some (c.receive processed)
  | .fails, .receiving _ => some { c with place := .closing .failed [] }
  | .dispatched outcome, .dispatching processed _ => some (c.dispatched processed outcome)
  | .struck, .striking processed => some (c.struck processed)
  | .again pending, .counted processed => some (c.again processed pending)
  | .close, .closing ending lost => some { c.kill with place := .closed ending lost }
  | _, _ => none

/-! What is on the wire. -/
section Wires
variable {first sequence : UInt64} {a b : List QueuedFrame} {x y : QueuedFrame} {rest more : Bytes}

/- The bytes of a frame say what the frame is. -/
theorem frameFront (smallX : x.2.length ≤ maxFramePayload) (smallY : y.2.length ≤ maxFramePayload)
    (same : SecureChannel.Frame.bytes ⟨x.1, sequence, x.2⟩ ++ rest = SecureChannel.Frame.bytes ⟨y.1, sequence, y.2⟩ ++ more) :
    x = y ∧ rest = more := by
  simp only [SecureChannel.Frame.bytes, List.append_assoc] at same
  obtain ⟨headers, tails⟩ := List.append_inj same (by rw [SecureChannel.headerLength, SecureChannel.headerLength])
  simp only [SecureChannel.header, List.append_cancel_left_eq] at headers
  obtain ⟨kind, headers⟩ := List.append_inj headers (by simp)
  have length := List.append_cancel_left headers
  have narrow : x.1 = y.1 := UInt16.toNat_inj.mp
    (Wire.bigEndianInjective (by simpa using x.1.toNat_lt) (by simpa using y.1.toNat_lt) kind)
  simp only [maxFramePayload] at smallX smallY
  have long := Wire.bigEndianInjective (by omega) (by omega) length
  obtain ⟨payload, after⟩ := List.append_inj tails long
  exact ⟨Prod.ext narrow payload, after⟩

/- What is read from the front of a stream was put at the front of it. -/
theorem streamFront (smallA : ∀ x ∈ a, x.2.length ≤ maxFramePayload) (smallB : ∀ x ∈ b, x.2.length ≤ maxFramePayload)
    (front : stream (numbered first a) <+: stream (numbered first b)) : a <+: b := by
  induction a generalizing first b with
  | nil => exact List.nil_prefix
  | cons x a ih =>
      obtain ⟨rest, same⟩ := front
      cases b with
      | nil =>
          have none_ := congrArg List.length same
          simp [numbered, SecureChannel.Frame.bytes, SecureChannel.headerLength, stream, frameHeaderSize] at none_
      | cons y b =>
          simp only [numbered, SecureChannel.streamCons, List.append_assoc] at same
          obtain ⟨rfl, tails⟩ := frameFront (smallA x List.mem_cons_self) (smallB y List.mem_cons_self) same
          exact List.cons_prefix_cons.mpr ⟨rfl, ih (fun z mem => smallA z (List.mem_cons_of_mem x mem))
            (fun z mem => smallB z (List.mem_cons_of_mem x mem)) ⟨rest, tails⟩⟩

theorem numberedAppend (first : UInt64) (a b : List QueuedFrame) :
    numbered first (a ++ b) = numbered first a ++ numbered (first + UInt64.ofNat a.length) b := by
  induction a generalizing first with
  | nil =>
      have none_ : first + UInt64.ofNat 0 = first := UInt64.add_zero first
      rw [List.length_nil, none_]
      rfl
  | cons x a ih => rw [List.cons_append, numbered, ih, SecureChannel.nextNumber, List.length_cons]; rfl

theorem streamAppend (s t : List SecureChannel.Frame) : stream (s ++ t) = stream s ++ stream t := List.flatMap_append

end Wires

/-! What a rejection is answered. -/

def answerTo (reason : Bytes) : Option QueuedFrame :=
  match encodeError ⟨Hub.safeReason reason⟩ with
  | .ok payload => some (errorType, payload)
  | .error _ => none

def Dispatched.reason : Dispatched → Option Bytes
  | .returned => none
  | .benign reason | .threw reason => some reason

def Dispatched.answer (outcome : Dispatched) : Option QueuedFrame := outcome.reason.bind answerTo

def Dispatched.strikes : Dispatched → Bool
  | .threw _ => true
  | _ => false

/- Whatever the text of an exception is, it can be told. -/
theorem safeReasonValid (text : Bytes) : validateReason (Hub.safeReason text) = .ok () := by
  have some_ : Hub.safeReason text ≠ [] := by
    unfold Hub.safeReason
    split
    · decide
    next more =>
      rw [List.isEmpty_iff] at more
      simp [maxReasonLength, more]
  have short : (Hub.safeReason text).length ≤ maxReasonLength := by
    simp only [Hub.safeReason, List.length_map, List.length_take]
    omega
  have printable : (Hub.safeReason text).all (fun c => (0x21 ≤ c && c ≤ 0x7e) || (true && c == 0x20)) = true := by
    rw [List.all_eq_true]
    intro c mem
    obtain ⟨b, _, rfl⟩ := List.mem_map.mp mem
    split
    · decide
    next inside =>
      simp only [Bool.or_eq_true, decide_eq_true_iff, not_or, UInt8.not_lt, UInt8.le_iff_toNat_le] at inside
      simp only [Bool.or_eq_true, Bool.and_eq_true, decide_eq_true_iff, beq_iff_eq, UInt8.le_iff_toNat_le, ← UInt8.toNat_inj, true_and]
      have low : (0x20 : UInt8).toNat = 32 := rfl
      have next_ : (0x21 : UInt8).toNat = 33 := rfl
      have high : (0x7e : UInt8).toNat = 126 := rfl
      omega
  have fine : ¬((Hub.safeReason text).isEmpty = true ∨ (Hub.safeReason text).length > maxReasonLength) := by
    rw [List.isEmpty_iff]
    exact not_or.mpr ⟨some_, not_lt.mpr short⟩
  rw [validateReason, validatePrintable, Checks.throwIf_not fine, Checks.bind_next, Checks.throwIf_not (not_not.mpr printable)]

theorem answered (reason : Bytes) : ∃ payload, encodeError ⟨Hub.safeReason reason⟩ = .ok payload ∧ answerTo reason = some (errorType, payload) := by
  have short : (Hub.safeReason reason).length ≤ maxReasonLength := by
    simp only [Hub.safeReason, List.length_map, List.length_take]
    omega
  have encoded : encodeError ⟨Hub.safeReason reason⟩ = .ok (framed (Hub.safeReason reason)) := by
    rw [encodeError, safeReasonValid, Checks.bind_next, shortStringOk]
    exact ⟨⟨short, short.trans (by decide)⟩, rfl⟩
  exact ⟨_, encoded, by rw [answerTo, encoded]⟩

theorem sendErrorPuts (c : Connection) (reason : Bytes) : ∃ frame, answerTo reason = some frame ∧ c.sendError reason = c.put frame := by
  obtain ⟨payload, encoded, is⟩ := answered reason
  exact ⟨_, is, by rw [Connection.sendError, encoded]⟩

/-! What every run keeps. -/

def Place.left : Place → Bool
  | .closing _ _ | .closed _ _ => true
  | _ => false

/- Nothing but the frames sent is on the wire, and nothing after them but a piece of the next one. -/
structure Output (c : Connection) : Prop where
  small : ∀ x ∈ c.sent, x.2.length ≤ maxFramePayload
  written : ∃ part, c.client.channel.output = stream (numbered 1 c.sent) ++ part ∧ (c.place.left = false → part = []) ∧
    (part ≠ [] → ∃ next rest, c.place.held = next :: rest ∧ next.2.length ≤ maxFramePayload ∧
      part <+: SecureChannel.Frame.bytes ⟨next.1, 1 + UInt64.ofNat c.sent.length, next.2⟩)
  sequence : c.place.left = false → c.client.channel.sendSequence = 1 + UInt64.ofNat c.sent.length

/- Every frame received stands at the front of what has come in. -/
structure Input (c : Connection) : Prop where
  small : ∀ frame ∈ c.received, frame.payload.length ≤ maxFramePayload
  consecutive : c.received = numbered 1 (c.received.map SecureChannel.Frame.content)
  unread : ∃ rest, c.arrived = stream c.received ++ rest ∧ (c.place.left = false → rest = c.client.channel.input)
  sequence : c.place.left = false → c.client.channel.receiveSequence = 1 + UInt64.ofNat c.received.length

/- The loop has not ended the connection, or it has, and says why. -/
def Running (c : Connection) : Prop := c.cause = none ∧ c.client.badMessages < 3 ∧ c.received.length = c.outcomes.length

def Stopped (c : Connection) : Prop := c.client.alive = false ∧
  ((c.cause = some .strikes ∧ c.client.badMessages = 3 ∧ c.received.length = c.outcomes.length) ∨
    (c.cause = some .disconnect ∧ c.client.badMessages < 3 ∧ c.received.length = c.outcomes.length + 1 ∧
      ∃ frame, c.received.getLast? = some frame ∧ frame.type = disconnectType))

def Settles (c : Connection) : Prop := Running c ∨ Stopped c ∧ c.client.outgoing = []

def Stands (c : Connection) : Prop :=
  match c.place with
  | .welcoming _ | .polling | .woken | .checked | .flushing _ false => c.unflushed = 0 ∧ Running c
  | .receiving processed => c.unflushed = processed ∧ processed < 16 ∧ Running c
  | .dispatching processed _ => c.unflushed = processed ∧ processed < 16 ∧ c.cause = none ∧ c.client.badMessages < 3 ∧
      c.received.length = c.outcomes.length + 1
  | .striking processed => c.unflushed = processed + 1 ∧ processed < 16 ∧ c.cause = none ∧ c.client.badMessages ≤ 3 ∧
      c.received.length = c.outcomes.length
  | .counted processed => c.unflushed = processed ∧ processed ≤ 16 ∧ Running c
  | .taking => c.unflushed ≤ 16 ∧ (Running c ∨ Stopped c)
  | .flushing _ true | .top => c.unflushed = 0 ∧ Settles c
  | .closing .ended lost | .closed .ended lost => c.unflushed ≤ 16 ∧ lost = [] ∧ c.client.alive = false ∧
      (c.overflowed = true ∧ Running c ∨ Stopped c ∧ c.client.outgoing = [])
  | .closing _ _ | .closed _ _ => c.unflushed ≤ 16 ∧ Settles c

structure Kept (c : Connection) : Prop where
  room : c.client.outgoing.length ≤ maxQueuedFrames
  batch : c.place.held.length ≤ maxQueuedFrames
  line : c.sent ++ c.place.held ++ c.client.outgoing = c.line
  output : Output c
  input : Input c
  strikes : c.client.badMessages = c.outcomes.countP Dispatched.strikes
  answered : c.overflowed = true ∨ (c.outcomes.filterMap Dispatched.answer).Sublist c.line
  dead : c.client.alive = false → c.overflowed = true ∨ c.cause.isSome = true ∨ ∃ ending lost, c.place = .closed ending lost
  stands : Stands c

section Steps
variable {c : Connection}

theorem keptStart (welcome : QueuedFrame) : Kept (start welcome) where
  room := Nat.zero_le _
  batch := Nat.le_add_left 1 127
  line := rfl
  output := ⟨by simp [start], ⟨[], rfl, fun _ => rfl, fun none_ => absurd rfl none_⟩, fun _ => rfl⟩
  input := ⟨by simp [start], rfl, ⟨[], rfl, fun _ => rfl⟩, fun _ => rfl⟩
  strikes := rfl
  answered := .inr (List.nil_sublist _)
  dead := by simp [start]
  stands := ⟨rfl, rfl, Nat.succ_pos 2, rfl⟩

/- The three ways of putting a frame on the queue. -/
theorem putCases (c : Connection) (queued : QueuedFrame) :
    (c.client.alive = false ∧ c.put queued = c) ∨
      (c.client.alive = true ∧ maxQueuedFrames ≤ c.client.outgoing.length ∧ c.put queued = { c.kill with overflowed := true }) ∨
        (c.client.alive = true ∧ c.client.outgoing.length < maxQueuedFrames ∧
          c.put queued = { c with client := { c.client with outgoing := c.client.outgoing ++ [queued] }, line := c.line ++ [queued] }) := by
  by_cases dead : c.client.alive = false
  · have none_ : c.client.enqueue queued = (false, c.client) := if_pos dead
    refine .inl ⟨dead, ?_⟩
    rw [Connection.put, none_]
    simp only [dead, Bool.or_false]
  · have alive : c.client.alive = true := by simpa using dead
    by_cases full : c.client.outgoing.length ≥ maxQueuedFrames
    · have none_ : c.client.enqueue queued = (false, { c.client with alive := false }) := by rw [Client.enqueue, if_neg dead, if_pos full]
      refine .inr (.inl ⟨alive, full, ?_⟩)
      rw [Connection.put, none_, Connection.kill]
      simp only [alive, Bool.or_true]
    · have some_ : c.client.enqueue queued = (true, { c.client with outgoing := c.client.outgoing ++ [queued] }) := by
        rw [Client.enqueue, if_neg dead, if_neg full]
      refine .inr (.inr ⟨alive, by omega, ?_⟩)
      rw [Connection.put, some_]

theorem Settles.live (settles : Settles c) (alive : c.client.alive = true) : Running c := by
  rcases settles with running | ⟨⟨dead, _⟩, _⟩
  · exact running
  · rw [alive] at dead
    cases dead

/- While the client is alive, what stands depends on neither the queue nor the channel. -/
theorem Stands.live {d : Connection} (stands : Stands c) (alive : c.client.alive = true) (place : d.place = c.place)
    (unflushed : d.unflushed = c.unflushed) (cause : d.cause = c.cause) (bad : d.client.badMessages = c.client.badMessages)
    (received : d.received = c.received) (outcomes : d.outcomes = c.outcomes) : Stands d := by
  have running (was : Running c) : Running d := by rwa [Running, cause, bad, received, outcomes]
  have settles (was : Settles c) : Settles d := .inl (running (was.live alive))
  unfold Stands at stands ⊢
  rw [place, unflushed]
  split at stands
  · exact ⟨stands.1, running stands.2⟩
  · exact ⟨stands.1, running stands.2⟩
  · exact ⟨stands.1, running stands.2⟩
  · exact ⟨stands.1, running stands.2⟩
  · exact ⟨stands.1, running stands.2⟩
  · exact ⟨stands.1, stands.2.1, running stands.2.2⟩
  · rwa [cause, bad, received, outcomes]
  · rwa [cause, bad, received, outcomes]
  · exact ⟨stands.1, stands.2.1, running stands.2.2⟩
  · refine ⟨stands.1, .inl ?_⟩
    rcases stands.2 with was | ⟨dead, _⟩
    · exact running was
    · rw [alive] at dead
      cases dead
  · exact ⟨stands.1, settles stands.2⟩
  · exact ⟨stands.1, settles stands.2⟩
  · rw [alive] at stands
    cases stands.2.2.1
  · rw [alive] at stands
    cases stands.2.2.1
  · exact ⟨stands.1, settles stands.2⟩
  · exact ⟨stands.1, settles stands.2⟩

theorem Kept.put (kept : Kept c) (queued : QueuedFrame) : Kept (c.put queued) := by
  rcases putCases c queued with ⟨_, same⟩ | ⟨alive, _, killed⟩ | ⟨alive, room, added⟩
  · rwa [same]
  · rw [killed]
    exact ⟨kept.room, kept.batch, kept.line, ⟨kept.output.small, kept.output.written, kept.output.sequence⟩,
      ⟨kept.input.small, kept.input.consecutive, kept.input.unread, kept.input.sequence⟩, kept.strikes, .inl rfl, fun _ => .inl rfl,
      kept.stands.live alive rfl rfl rfl rfl rfl rfl⟩
  · rw [added]
    refine ⟨?_, kept.batch, ?_, ⟨kept.output.small, kept.output.written, kept.output.sequence⟩,
      ⟨kept.input.small, kept.input.consecutive, kept.input.unread, kept.input.sequence⟩, kept.strikes, ?_, fun dead => ?_,
      kept.stands.live alive rfl rfl rfl rfl rfl rfl⟩
    · rw [List.length_append]
      exact room
    · rw [← List.append_assoc, kept.line]
    · exact kept.answered.imp id fun told => told.trans (List.sublist_append_left _ _)
    · exact absurd (alive.symm.trans dead) (by decide)

theorem Kept.arrive (kept : Kept c) (bytes : Bytes) : Kept (c.arrive bytes) := by
  obtain ⟨rest, arrived, unread⟩ := kept.input.unread
  exact ⟨kept.room, kept.batch, kept.line, ⟨kept.output.small, kept.output.written, kept.output.sequence⟩,
    ⟨kept.input.small, kept.input.consecutive, ⟨rest ++ bytes, by rw [Connection.arrive, arrived, List.append_assoc],
      fun stays => by rw [Connection.arrive, unread stays]⟩, kept.input.sequence⟩, kept.strikes, kept.answered, kept.dead, kept.stands⟩

/- To another place, with nothing in hand at either. -/
theorem Kept.move (kept : Kept c) (here : c.place.held = []) (stays : c.place.left = false) {place : Place} (held : place.held = [])
    (stands : Stands { c with place }) : Kept { c with place } := by
  obtain ⟨part, output, none_, some_⟩ := kept.output.written
  obtain ⟨rest, arrived, unread⟩ := kept.input.unread
  refine ⟨kept.room, ?_, ?_, ⟨kept.output.small, ⟨part, output, fun _ => none_ stays, fun piece => absurd (none_ stays) piece⟩,
    fun _ => kept.output.sequence stays⟩, ⟨kept.input.small, kept.input.consecutive, ⟨rest, arrived, fun _ => unread stays⟩,
    fun _ => kept.input.sequence stays⟩, kept.strikes, kept.answered, fun dead => ?_, stands⟩
  · rw [held]
    exact Nat.zero_le _
  · rw [held, ← here]
    exact kept.line
  · rcases kept.dead dead with full | caused | ⟨ending, lost, closed⟩
    · exact .inl full
    · exact .inr (.inl caused)
    · rw [closed] at stays
      cases stays

theorem Kept.take (kept : Kept c) (here : c.place.held = []) (stays : c.place.left = false) (last : Bool)
    (stands : Stands (c.take last)) : Kept (c.take last) := by
  obtain ⟨part, output, none_, some_⟩ := kept.output.written
  obtain ⟨rest, arrived, unread⟩ := kept.input.unread
  have line := kept.line
  rw [here, List.append_nil] at line
  refine ⟨Nat.zero_le _, kept.room, (List.append_nil _).trans line, ⟨kept.output.small, ⟨part, output, fun _ => none_ stays, fun piece =>
    absurd (none_ stays) piece⟩, fun _ => kept.output.sequence stays⟩, ⟨kept.input.small, kept.input.consecutive,
    ⟨rest, arrived, fun _ => unread stays⟩, fun _ => kept.input.sequence stays⟩, kept.strikes, kept.answered, fun dead => ?_, stands⟩
  rcases kept.dead dead with full | caused | ⟨ending, lost, closed⟩
  · exact .inl full
  · exact .inr (.inl caused)
  · rw [closed] at stays
    cases stays

theorem streamSent (sent : List QueuedFrame) (frame : QueuedFrame) : stream (numbered 1 (sent ++ [frame])) =
    stream (numbered 1 sent) ++ SecureChannel.Frame.bytes ⟨frame.1, 1 + UInt64.ofNat sent.length, frame.2⟩ := by
  rw [numberedAppend, streamAppend]
  congr 1
  rw [numbered, numbered, SecureChannel.streamCons]
  exact List.append_nil _

theorem nextSequence (count : Nat) : (1 : UInt64) + UInt64.ofNat count + 1 = 1 + UInt64.ofNat (count + 1) := by
  rw [UInt64.ofNat_add, UInt64.add_assoc]
  rfl

theorem Kept.send (kept : Kept c) {frame : QueuedFrame} {rest : List QueuedFrame} (here : c.place.held = frame :: rest)
    (stays : c.place.left = false) {next : Place} (held : next.held = rest) {d : Connection}
    (sent : c.send frame next = some d) (stands : ∀ channel, Stands { c with client := { c.client with channel }, place := next }) : Kept d := by
  obtain ⟨part, output, none_, some_⟩ := kept.output.written
  obtain ⟨unreadBytes, arrived, unread⟩ := kept.input.unread
  obtain rfl := none_ stays
  rw [List.append_nil] at output
  rw [Connection.send] at sent
  split at sent
  next u channel wrote =>
    cases sent
    obtain ⟨_, sendable, _, rfl⟩ := SecureChannel.sendFrameOk.mp wrote
    have line := kept.line
    rw [here] at line
    have batch := kept.batch
    rw [here, List.length_cons] at batch
    refine ⟨kept.room, ?_, ?_, ⟨fun x mem => ?_, ⟨[], ?_, fun _ => rfl, fun piece => absurd rfl piece⟩, fun _ => ?_⟩,
      ⟨kept.input.small, kept.input.consecutive, ⟨unreadBytes, arrived, fun _ => unread stays⟩, fun _ => kept.input.sequence stays⟩,
      kept.strikes, kept.answered, fun dead => ?_, stands _⟩
    · rw [held]
      omega
    · simp only [held]
      rw [← line, List.append_assoc c.sent, List.singleton_append]
    · rcases List.mem_append.mp mem with before | last
      · exact kept.output.small x before
      · rw [List.mem_singleton.mp last]
        exact sendable.2
    · rw [List.append_nil, streamSent, ← output, ← kept.output.sequence stays]
    · simp only [kept.output.sequence stays, List.length_append, List.length_singleton]
      exact nextSequence _
    · rcases kept.dead dead with full | caused | ⟨ending, lost, closed⟩
      · exact .inl full
      · exact .inr (.inl caused)
      · rw [closed] at stays
        cases stays
  next => cases sent

theorem Kept.sendFails (kept : Kept c) {frame : QueuedFrame} {rest : List QueuedFrame} (here : c.place.held = frame :: rest)
    (stays : c.place.left = false) (few : c.unflushed ≤ 16) (settles : Settles c) (written : Nat) : Kept (c.sendFails frame rest written) := by
  obtain ⟨part, output, none_, some_⟩ := kept.output.written
  obtain ⟨unreadBytes, arrived, unread⟩ := kept.input.unread
  obtain rfl := none_ stays
  rw [List.append_nil] at output
  have line := kept.line
  rw [here] at line
  have batch := kept.batch
  rw [here] at batch
  have gone {P : Prop} : (Place.closing .failed (frame :: rest)).left = false → P := fun never => by cases never
  refine ⟨kept.room, batch, line, ⟨kept.output.small, ?_, gone⟩, ⟨kept.input.small, kept.input.consecutive, ⟨unreadBytes, arrived, gone⟩,
    gone⟩, kept.strikes, kept.answered, fun dead => ?_, ⟨few, settles⟩⟩
  · by_cases valid : validateMessageType frame.1 = .ok () ∧ frame.2.length ≤ maxFramePayload
    · refine ⟨_, ?_, gone, fun _ => ⟨frame, rest, rfl, valid.2, List.take_prefix written _⟩⟩
      simp only [Connection.sendFails, if_pos valid, output, kept.output.sequence stays]
    · refine ⟨[], ?_, gone, fun piece => absurd rfl piece⟩
      simp only [Connection.sendFails, if_neg valid, List.take_nil, output]
  · rcases kept.dead dead with full | caused | ⟨ending, lost, closed⟩
    · exact .inl full
    · exact .inr (.inl caused)
    · rw [closed] at stays
      cases stays

theorem alreadyDead (kept : Kept c) (stays : c.place.left = false) (dead : c.client.alive = false) (caused : c.cause = none) :
    c.overflowed = true := by
  rcases kept.dead dead with full | some_ | ⟨ending, lost, closed⟩
  · exact full
  · rw [caused] at some_
    cases some_
  · rw [closed] at stays
    cases stays

/- Reading writes nothing, whether it comes to a frame or not. -/
def SameOutput (channel left : SecureChannel) : Prop := left.output = channel.output

instance sameOutputTrans : Trans SameOutput SameOutput SameOutput := ⟨fun first second => second.trans first⟩
instance sameOutputRefl : Std.Refl SameOutput := ⟨fun _ => rfl⟩

theorem readAlong (count : Nat) : Along SameOutput (SecureChannel.sslReadExact count) := by
  intro channel
  unfold Ensures SecureChannel.sslReadExact
  cases Wire.take (Error.runtimeError "peer closed TLS connection") count channel.input <;> rfl

theorem receiveAlong : Along SameOutput receiveFrame := by
  unfold receiveFrame
  refine alongGet.bind fun _ => (alongLift _).bind fun _ => (readAlong _).bind fun _ => (alongLift _).bind fun _ => (readAlong _).bind fun _ =>
    (alongLift _).bind fun _ => Along.bind ?_ fun _ => alongPure _
  exact alongModify fun _ => rfl

theorem receiveFails {channel left : SecureChannel} {e : Error} (failed : receiveFrame channel = .error e left) :
    left.output = channel.output := by
  have along := receiveAlong channel
  rwa [Ensures, failed] at along

theorem Kept.receive (kept : Kept c) {processed : Nat} (here : c.place = .receiving processed) : Kept (c.receive processed) := by
  have stays : c.place.left = false := by rw [here]; rfl
  obtain ⟨part, output, none_, some_⟩ := kept.output.written
  obtain rfl := none_ stays
  obtain ⟨rest, arrived, unread⟩ := kept.input.unread
  obtain rfl := unread stays
  have held : c.place.held = [] := by rw [here]; rfl
  have line := kept.line
  rw [held] at line
  obtain ⟨paced, few, caused, bad, level⟩ : c.unflushed = processed ∧ processed < 16 ∧ Running c := by
    have stands := kept.stands
    rwa [Stands, here] at stands
  have full (dead : c.client.alive = false) := alreadyDead kept stays dead caused
  rw [Connection.receive]
  split
  next frame channel received =>
    obtain ⟨left, _, sendable, _, number, input, rfl⟩ := SecureChannel.receiveFrameOk.mp received
    have small : ∀ f ∈ c.received ++ [frame], f.payload.length ≤ maxFramePayload := by
      intro f mem
      rcases List.mem_append.mp mem with before | last
      · exact kept.input.small f before
      · rw [List.mem_singleton.mp last]
        exact sendable.2
    have consecutive : c.received ++ [frame] = numbered 1 ((c.received ++ [frame]).map SecureChannel.Frame.content) := by
      rw [List.map_append, numberedAppend, ← kept.input.consecutive, List.length_map, ← kept.input.sequence stays, ← number]
      rfl
    have came : c.arrived = stream (c.received ++ [frame]) ++ left := by
      rw [streamAppend, arrived, input, List.append_assoc, SecureChannel.streamCons]
      rw [List.append_assoc]
      rfl
    have next_ : c.client.channel.receiveSequence + 1 = 1 + UInt64.ofNat (c.received ++ [frame]).length := by
      rw [kept.input.sequence stays, List.length_append, List.length_singleton, nextSequence]
    split
    next disconnect =>
      exact ⟨kept.room, Nat.zero_le _, line, ⟨kept.output.small, ⟨[], output, fun _ => rfl, fun piece => absurd rfl piece⟩,
        fun _ => kept.output.sequence stays⟩, ⟨small, consecutive, ⟨left, came, fun _ => rfl⟩, fun _ => next_⟩, kept.strikes, kept.answered,
        fun _ => .inr (.inl rfl), (paced.trans_le few.le), .inr ⟨rfl, .inr ⟨rfl, bad, by simp [Connection.kill, level], frame, by simp [Connection.kill],
          disconnect⟩⟩⟩
    next other =>
      exact ⟨kept.room, Nat.zero_le _, line, ⟨kept.output.small, ⟨[], output, fun _ => rfl, fun piece => absurd rfl piece⟩,
        fun _ => kept.output.sequence stays⟩, ⟨small, consecutive, ⟨left, came, fun _ => rfl⟩, fun _ => next_⟩, kept.strikes, kept.answered,
        fun dead => .inl (full dead), paced, few, caused, bad, by simp [level]⟩
  next e channel failed =>
    have gone {P : Prop} : (Place.closing .failed []).left = false → P := fun never => by cases never
    exact ⟨kept.room, Nat.zero_le _, line, ⟨kept.output.small, ⟨[], (receiveFails failed).trans output, gone, fun piece => absurd rfl piece⟩, gone⟩,
      ⟨kept.input.small, kept.input.consecutive, ⟨_, arrived, gone⟩, gone⟩, kept.strikes, kept.answered,
      fun dead => .inl (full dead), (paced.trans_le few.le), .inl ⟨caused, bad, level⟩⟩

/- A dispatch, once its answer is on the queue. -/
def Connection.noted (c : Connection) (processed : Nat) (outcome : Dispatched) : Connection :=
  { c with client := { c.client with badMessages := c.client.badMessages + if outcome.strikes then 1 else 0 }
           outcomes := c.outcomes ++ [outcome]
           unflushed := c.unflushed + 1
           place := if outcome.strikes then .striking processed else .counted (processed + 1) }

theorem dispatchedNoted (c : Connection) (processed : Nat) (outcome : Dispatched) :
    (outcome.answer = none ∧ c.dispatched processed outcome = c.noted processed outcome) ∨
      ∃ frame, outcome.answer = some frame ∧ c.dispatched processed outcome = (c.put frame).noted processed outcome := by
  cases outcome with
  | returned => exact .inl ⟨rfl, rfl⟩
  | benign reason =>
      obtain ⟨frame, told, puts⟩ := sendErrorPuts { c with outcomes := c.outcomes ++ [.benign reason], unflushed := c.unflushed + 1 } reason
      refine .inr ⟨frame, told, ?_⟩
      simp only [Connection.dispatched, puts]
      unfold Connection.put Client.enqueue
      split_ifs <;> rfl
  | threw reason =>
      obtain ⟨frame, told, puts⟩ := sendErrorPuts { c with
        client := { c.client with badMessages := c.client.badMessages + 1 }
        outcomes := c.outcomes ++ [.threw reason]
        unflushed := c.unflushed + 1 } reason
      refine .inr ⟨frame, told, ?_⟩
      simp only [Connection.dispatched, puts]
      unfold Connection.put Client.enqueue
      split_ifs <;> rfl

theorem Kept.noted (kept : Kept c) {processed : Nat} {frame : SecureChannel.Frame} (here : c.place = .dispatching processed frame)
    {outcome : Dispatched} (told : c.overflowed = true ∨ ((c.outcomes ++ [outcome]).filterMap Dispatched.answer).Sublist c.line) :
    Kept (c.noted processed outcome) := by
  have stays : c.place.left = false := by rw [here]; rfl
  have held : c.place.held = [] := by rw [here]; rfl
  obtain ⟨part, output, none_, some_⟩ := kept.output.written
  obtain ⟨rest, arrived, unread⟩ := kept.input.unread
  obtain ⟨paced, few, caused, bad, level⟩ : c.unflushed = processed ∧ processed < 16 ∧ c.cause = none ∧ c.client.badMessages < 3 ∧
      c.received.length = c.outcomes.length + 1 := by
    have stands := kept.stands
    rwa [Stands, here] at stands
  have full (dead : c.client.alive = false) := alreadyDead kept stays dead caused
  have line := kept.line
  rw [held] at line
  have next_ : (c.noted processed outcome).place.held = [] := by
    rw [Connection.noted]
    dsimp only
    split <;> rfl
  refine ⟨kept.room, by rw [next_]; exact Nat.zero_le _, by rw [next_]; exact line,
    ⟨kept.output.small, ⟨part, output, fun _ => none_ stays, fun piece => absurd (none_ stays) piece⟩, fun _ => kept.output.sequence stays⟩,
    ⟨kept.input.small, kept.input.consecutive, ⟨rest, arrived, fun _ => unread stays⟩, fun _ => kept.input.sequence stays⟩, ?_, told,
    fun dead => .inl (full dead), ?_⟩
  · rw [Connection.noted]
    dsimp only
    rw [kept.strikes, List.countP_append, List.countP_singleton]
  · rw [Connection.noted, Stands]
    dsimp only
    cases strikes : outcome.strikes with
    | true => exact ⟨by rw [paced], few, caused, bad, by simp [level]⟩
    | false => exact ⟨by rw [paced], few, caused, bad, by simp [level]⟩

theorem Kept.dispatched (kept : Kept c) {processed : Nat} {frame : SecureChannel.Frame} (here : c.place = .dispatching processed frame)
    (outcome : Dispatched) : Kept (c.dispatched processed outcome) := by
  have stays : c.place.left = false := by rw [here]; rfl
  have caused : c.cause = none := by
    have stands := kept.stands
    rw [Stands, here] at stands
    exact stands.2.2.1
  rcases dispatchedNoted c processed outcome with ⟨none_, same⟩ | ⟨answer, some_, same⟩
  · rw [same]
    refine kept.noted here (kept.answered.imp id fun told => ?_)
    rwa [List.filterMap_append, List.filterMap_cons_none none_, List.filterMap_nil, List.append_nil]
  · rw [same]
    refine @Kept.noted (c.put answer) (kept.put answer) processed frame ?_ outcome ?_
    · rcases putCases c answer with ⟨_, is⟩ | ⟨_, _, is⟩ | ⟨_, _, is⟩ <;> rw [is] <;> exact here
    · rcases putCases c answer with ⟨dead, is⟩ | ⟨_, _, is⟩ | ⟨_, _, is⟩
      · rw [is]
        exact .inl (alreadyDead kept stays dead caused)
      · rw [is]
        exact .inl rfl
      · rw [is]
        refine kept.answered.imp id fun told => ?_
        rw [List.filterMap_append, List.filterMap_cons_some some_, List.filterMap_nil]
        exact told.append (List.Sublist.refl _)

theorem Kept.struck (kept : Kept c) {processed : Nat} (here : c.place = .striking processed) : Kept (c.struck processed) := by
  have stays : c.place.left = false := by rw [here]; rfl
  have held : c.place.held = [] := by rw [here]; rfl
  obtain ⟨paced, few, caused, bad, level⟩ : c.unflushed = processed + 1 ∧ processed < 16 ∧ c.cause = none ∧ c.client.badMessages ≤ 3 ∧
      c.received.length = c.outcomes.length := by
    have stands := kept.stands
    rwa [Stands, here] at stands
  rw [Connection.struck]
  split
  next third =>
    obtain ⟨part, output, none_, some_⟩ := kept.output.written
    obtain ⟨rest, arrived, unread⟩ := kept.input.unread
    have line := kept.line
    rw [held] at line
    exact ⟨kept.room, Nat.zero_le _, line, ⟨kept.output.small, ⟨part, output, fun _ => none_ stays, fun piece => absurd (none_ stays) piece⟩,
      fun _ => kept.output.sequence stays⟩, ⟨kept.input.small, kept.input.consecutive, ⟨rest, arrived, fun _ => unread stays⟩,
      fun _ => kept.input.sequence stays⟩, kept.strikes, kept.answered, fun _ => .inr (.inl rfl),
      paced.trans_le few, .inr ⟨rfl, .inl ⟨rfl, le_antisymm bad third, level⟩⟩⟩
  next fewer => exact kept.move held stays rfl ⟨paced, few, caused, Nat.lt_of_not_le fewer, level⟩

theorem Kept.again (kept : Kept c) {processed : Nat} (here : c.place = .counted processed) (pending : Bool) : Kept (c.again processed pending) := by
  have stays : c.place.left = false := by rw [here]; rfl
  have held : c.place.held = [] := by rw [here]; rfl
  obtain ⟨paced, few, running⟩ : c.unflushed = processed ∧ processed ≤ 16 ∧ Running c := by
    have stands := kept.stands
    rwa [Stands, here] at stands
  rw [Connection.again]
  split
  next more => exact kept.move held stays rfl ⟨paced, more.2.2, running⟩
  next enough => exact kept.move held stays rfl ⟨paced.trans_le few, .inl running⟩

theorem Kept.close (kept : Kept c) {ending : Ending} {lost : List QueuedFrame} (here : c.place = .closing ending lost) :
    Kept { c.kill with place := .closed ending lost } := by
  obtain ⟨part, output, _, some_⟩ := kept.output.written
  obtain ⟨rest, arrived, _⟩ := kept.input.unread
  have line := kept.line
  have batch := kept.batch
  have stands := kept.stands
  rw [here] at line batch some_
  rw [Stands, here] at stands
  have gone {P : Prop} : (Place.closed ending lost).left = false → P := fun never => by cases never
  have settles (was : Settles c) : Settles { c.kill with place := .closed ending lost } :=
    was.imp id fun stopped => ⟨⟨rfl, stopped.1.2⟩, stopped.2⟩
  refine ⟨kept.room, batch, line, ⟨kept.output.small, ⟨part, output, gone, some_⟩, gone⟩, ⟨kept.input.small, kept.input.consecutive,
    ⟨rest, arrived, gone⟩, gone⟩, kept.strikes, kept.answered, fun _ => .inr (.inr ⟨ending, lost, rfl⟩), ?_⟩
  cases ending with
  | ended => exact ⟨stands.1, stands.2.1, rfl, stands.2.2.2.imp id fun stopped => ⟨⟨rfl, stopped.1.2⟩, stopped.2⟩⟩
  | hungUp => exact ⟨stands.1, settles stands.2⟩
  | failed => exact ⟨stands.1, settles stands.2⟩

theorem keptFired (kept : Kept c) {event : Event} {d : Connection} (fired : fire c event = some d) : Kept d := by
  have stands := kept.stands
  unfold fire at fired
  split at fired
  next _ queued => cases fired; exact kept.put queued
  next _ bytes => cases fired; exact kept.arrive bytes
  next frame here =>
    rw [Stands, here] at stands
    exact kept.send (by rw [here]; rfl) (by rw [here]; rfl) rfl fired fun _ => ⟨stands.1, .inl stands.2⟩
  next written frame here =>
    cases fired
    rw [Stands, here] at stands
    exact kept.sendFails (by rw [here]; rfl) (by rw [here]; rfl) (stands.1.trans_le (Nat.zero_le 16)) (.inl stands.2) written
  next here =>
    cases fired
    rw [Stands, here] at stands
    split
    next alive => exact kept.move (by rw [here]; rfl) (by rw [here]; rfl) rfl ⟨stands.1, stands.2.live alive⟩
    next dead =>
      have dead : c.client.alive = false := by simpa using dead
      have full := alreadyDead kept (by rw [here]; rfl) dead
      refine kept.move (by rw [here]; rfl) (by rw [here]; rfl) rfl ⟨stands.1.trans_le (Nat.zero_le 16), rfl, dead, ?_⟩
      exact stands.2.imp (fun running => ⟨full running.1, running⟩) id
  next here =>
    cases fired
    rw [Stands, here] at stands
    exact kept.move (by rw [here]; rfl) (by rw [here]; rfl) rfl ⟨stands.1, .inl stands.2⟩
  next here =>
    cases fired
    rw [Stands, here] at stands
    exact kept.move (by rw [here]; rfl) (by rw [here]; rfl) rfl ⟨stands.1.trans_le (Nat.zero_le 16), .inl stands.2⟩
  next here =>
    cases fired
    rw [Stands, here] at stands
    exact kept.move (by rw [here]; rfl) (by rw [here]; rfl) rfl stands
  next here =>
    cases fired
    rw [Stands, here] at stands
    exact kept.move (by rw [here]; rfl) (by rw [here]; rfl) rfl stands
  next here =>
    cases fired
    rw [Stands, here] at stands
    exact kept.take (by rw [here]; rfl) (by rw [here]; rfl) false ⟨rfl, stands.2⟩
  next here =>
    cases fired
    rw [Stands, here] at stands
    exact kept.take (by rw [here]; rfl) (by rw [here]; rfl) true ⟨rfl, stands.2.imp id fun stopped => ⟨stopped, rfl⟩⟩
  next frame rest last here =>
    rw [Stands, here] at stands
    refine kept.send (by rw [here]; rfl) (by rw [here]; rfl) rfl fired fun _ => ?_
    cases last with
    | true => exact stands
    | false => exact stands
  next written frame rest last here =>
    cases fired
    rw [Stands, here] at stands
    refine kept.sendFails (by rw [here]; rfl) (by rw [here]; rfl) ?_ ?_ written
    · cases last <;> exact stands.1.trans_le (Nat.zero_le 16)
    · cases last with
      | true => exact stands.2
      | false => exact .inl stands.2
  next last here =>
    cases fired
    rw [Stands, here] at stands
    cases last with
    | true => exact kept.move (by rw [here]; rfl) (by rw [here]; rfl) rfl stands
    | false => exact kept.move (by rw [here]; rfl) (by rw [here]; rfl) rfl stands
  next here =>
    cases fired
    rw [Stands, here] at stands
    exact kept.move (by rw [here]; rfl) (by rw [here]; rfl) rfl ⟨stands.1.trans_le (Nat.zero_le 16), .inl stands.2⟩
  next here =>
    cases fired
    rw [Stands, here] at stands
    exact kept.move (by rw [here]; rfl) (by rw [here]; rfl) rfl ⟨stands.1, Nat.succ_pos 15, stands.2⟩
  next here =>
    cases fired
    rw [Stands, here] at stands
    exact kept.move (by rw [here]; rfl) (by rw [here]; rfl) rfl ⟨stands.1.trans_le (Nat.zero_le 16), .inl stands.2⟩
  next processed here => cases fired; exact kept.receive here
  next processed here =>
    cases fired
    rw [Stands, here] at stands
    exact kept.move (by rw [here]; rfl) (by rw [here]; rfl) rfl ⟨stands.1.trans_le stands.2.1.le, .inl stands.2.2⟩
  next outcome processed frame here => cases fired; exact kept.dispatched here outcome
  next processed here => cases fired; exact kept.struck here
  next pending processed here => cases fired; exact kept.again here pending
  next ending lost here => cases fired; exact kept.close here
  next => cases fired

theorem putDead (dead : c.client.alive = false) (queued : QueuedFrame) : c.put queued = c := by
  rcases putCases c queued with ⟨_, same⟩ | ⟨alive, _⟩ | ⟨alive, _⟩
  · exact same
  · cases alive.symm.trans dead
  · cases alive.symm.trans dead

theorem sendOnly {d : Connection} {frame : QueuedFrame} {next : Place} (sent : c.send frame next = some d) :
    ∃ channel, d = { c with client := { c.client with channel }, place := next, sent := c.sent ++ [frame] } := by
  rw [Connection.send] at sent
  split at sent
  · cases sent
    exact ⟨_, rfl⟩
  · cases sent

theorem putLine (queued : QueuedFrame) : c.line <+: (c.put queued).line := by
  rcases putCases c queued with ⟨_, same⟩ | ⟨_, _, same⟩ | ⟨_, _, same⟩
  · exact ⟨[], by rw [same, List.append_nil]⟩
  · exact ⟨[], by rw [same]; exact List.append_nil _⟩
  · rw [same]
    exact List.prefix_append _ _

/- What is due stays due, and a client that is not alive gets no more. -/
theorem lineFired {event : Event} {d : Connection} (fired : fire c event = some d) :
    c.line <+: d.line ∧ (c.client.alive = false → d.line = c.line ∧ d.client.alive = false) := by
  have same : c.line <+: c.line := List.prefix_rfl
  unfold fire at fired
  split at fired
  case h_1 queued => cases fired; exact ⟨putLine queued, fun dead => by rw [putDead dead]; exact ⟨rfl, dead⟩⟩
  case h_3 | h_12 =>
    obtain ⟨_, rfl⟩ := sendOnly fired
    exact ⟨same, fun dead => ⟨rfl, dead⟩⟩
  case h_18 =>
    cases fired
    rw [Connection.receive]
    split
    · split
      · exact ⟨same, fun _ => ⟨rfl, rfl⟩⟩
      · exact ⟨same, fun dead => ⟨rfl, dead⟩⟩
    · exact ⟨same, fun dead => ⟨rfl, dead⟩⟩
  case h_20 outcome processed _ _ =>
    cases fired
    rcases dispatchedNoted c processed outcome with ⟨_, is⟩ | ⟨frame, _, is⟩
    · rw [is]
      exact ⟨same, fun dead => ⟨rfl, dead⟩⟩
    · rw [is]
      exact ⟨putLine frame, fun dead => by rw [putDead dead]; exact ⟨rfl, dead⟩⟩
  case h_21 =>
    cases fired
    rw [Connection.struck]
    split
    · exact ⟨same, fun _ => ⟨rfl, rfl⟩⟩
    · exact ⟨same, fun dead => ⟨rfl, dead⟩⟩
  case h_23 => cases fired; exact ⟨same, fun _ => ⟨rfl, rfl⟩⟩
  case h_24 => cases fired
  all_goals
    cases fired
    exact ⟨same, fun dead => ⟨rfl, dead⟩⟩

/- Where the loop has ended the connection, nothing more is received or dispatched. -/
theorem stoppedFired (kept : Kept c) {event : Event} {d : Connection} (fired : fire c event = some d) (stopped : c.cause.isSome = true) :
    d.received = c.received ∧ d.outcomes = c.outcomes ∧ d.cause = c.cause := by
  have stands := kept.stands
  unfold fire at fired
  split at fired
  case h_1 queued =>
    cases fired
    rcases putCases c queued with ⟨_, same⟩ | ⟨_, _, same⟩ | ⟨_, _, same⟩ <;> rw [same] <;> exact ⟨rfl, rfl, rfl⟩
  case h_3 | h_12 =>
    obtain ⟨_, rfl⟩ := sendOnly fired
    exact ⟨rfl, rfl, rfl⟩
  case h_18 here =>
    rw [Stands, here] at stands
    rw [stands.2.2.1] at stopped
    cases stopped
  case h_20 here =>
    rw [Stands, here] at stands
    rw [stands.2.2.1] at stopped
    cases stopped
  case h_21 here =>
    rw [Stands, here] at stands
    rw [stands.2.2.1] at stopped
    cases stopped
  case h_24 => cases fired
  all_goals
    cases fired
    exact ⟨rfl, rfl, rfl⟩

end Steps

/-! Runs. -/
section Runs
variable {welcome : QueuedFrame} {c d : Connection}

abbrev Run := Schedules.Run fire fun _ _ => True

theorem runKept (run : Run (start welcome) c) : Kept c :=
  run.keeps (keptStart welcome) fun _ _ _ kept _ fired => keptFired kept fired

theorem runWelcomed (run : Run (start welcome) c) : [welcome] <+: c.line :=
  run.keeps (P := fun c => [welcome] <+: c.line) List.prefix_rfl fun _ _ _ before _ fired => before.trans (lineFired fired).1

theorem runDead (run : Run c d) (dead : c.client.alive = false) : d.line = c.line ∧ d.client.alive = false := by
  refine run.keeps (P := fun d => d.line = c.line ∧ d.client.alive = false) ⟨rfl, dead⟩ fun t u event before _ fired => ?_
  obtain ⟨line, stays⟩ := (lineFired fired).2 before.2
  exact ⟨line.trans before.1, stays⟩

theorem runStopped (run : Run c d) (kept : Kept c) (stopped : c.cause.isSome = true) :
    d.received = c.received ∧ d.outcomes = c.outcomes := by
  have held : Kept d ∧ d.received = c.received ∧ d.outcomes = c.outcomes ∧ d.cause = c.cause := by
    refine run.keeps (P := fun d => Kept d ∧ d.received = c.received ∧ d.outcomes = c.outcomes ∧ d.cause = c.cause) ⟨kept, rfl, rfl, rfl⟩
      fun t u event before _ fired => ?_
    obtain ⟨keptT, received, outcomes, cause⟩ := before
    obtain ⟨received', outcomes', cause'⟩ := stoppedFired keptT fired (cause ▸ stopped)
    exact ⟨keptFired keptT fired, received'.trans received, outcomes'.trans outcomes, cause'.trans cause⟩
  exact ⟨held.2.1, held.2.2.1⟩

/- What a peer reads from what is on the wire. -/
theorem heardInOrder (kept : Kept c) {peer after : SecureChannel} {count : Nat} {frames : List SecureChannel.Frame}
    (connected : peer.connected = true) (fresh : peer.receiveSequence = 1) (input : peer.input <+: c.client.channel.output)
    (received : receiveAll count peer = .ok frames after) : frames.map SecureChannel.Frame.content <+: c.line := by
  obtain ⟨unread, _, accepted, consecutive, came, _⟩ := (SecureChannel.receiveAllOk connected).mp received
  rw [fresh] at accepted consecutive
  have smallA : ∀ x ∈ frames.map SecureChannel.Frame.content, x.2.length ≤ maxFramePayload := fun x mem => (accepted.sendable x mem).2
  obtain ⟨part, output, _, piece⟩ := kept.output.written
  have onWire : stream (numbered 1 (frames.map SecureChannel.Frame.content)) <+: c.client.channel.output := by
    rw [← consecutive]
    exact (came ▸ List.prefix_append _ _ : stream frames <+: peer.input).trans input
  by_cases none_ : part = []
  · rw [none_, List.append_nil] at output
    rw [output] at onWire
    exact (streamFront smallA kept.output.small onWire).trans (kept.line ▸ by rw [List.append_assoc]; exact List.prefix_append _ _)
  · obtain ⟨next, rest, held, small, front⟩ := piece none_
    have smallB : ∀ x ∈ c.sent ++ [next], x.2.length ≤ maxFramePayload := by
      intro x mem
      rcases List.mem_append.mp mem with before | last
      · exact kept.output.small x before
      · rwa [List.mem_singleton.mp last]
    have within : c.client.channel.output <+: stream (numbered 1 (c.sent ++ [next])) := by
      rw [output, streamSent]
      exact (List.prefix_append_right_inj _).mpr front
    refine (streamFront smallA smallB (onWire.trans within)).trans ?_
    rw [← kept.line, held]
    exact ⟨rest ++ c.client.outgoing, by simp⟩

/- What the client has sent so far is what is dispatched, in its order. -/
theorem handledInOrder (kept : Kept c) {contents : List QueuedFrame} (small : ∀ x ∈ contents, x.2.length ≤ maxFramePayload)
    (came : c.arrived <+: stream (numbered 1 contents)) : c.received.map SecureChannel.Frame.content <+: contents := by
  obtain ⟨rest, arrived, _⟩ := kept.input.unread
  have smallA : ∀ x ∈ c.received.map SecureChannel.Frame.content, x.2.length ≤ maxFramePayload := by
    intro x mem
    obtain ⟨frame, inside, rfl⟩ := List.mem_map.mp mem
    exact kept.input.small frame inside
  refine streamFront smallA small (List.IsPrefix.trans ?_ came)
  rw [← kept.input.consecutive, arrived]
  exact List.prefix_append _ _

/- What is counted. -/
structure Counts (c : Connection) : Prop where
  outcomes : c.outcomes.length ≤ c.received.length ∧ c.received.length ≤ c.outcomes.length + 1
  strikes : c.client.badMessages ≤ 3
  paced : c.unflushed ≤ 16
  struck : c.cause = some .strikes → c.client.badMessages = 3
  left : c.cause = some .disconnect → ∃ frame, c.received.getLast? = some frame ∧ frame.type = disconnectType

theorem Running.counts (running : Running c) (few : c.unflushed ≤ 16) : Counts c := by
  obtain ⟨caused, bad, level⟩ := running
  refine ⟨⟨level.ge, by omega⟩, bad.le, few, fun never => ?_, fun never => ?_⟩
  · rw [caused] at never
    cases never
  · rw [caused] at never
    cases never

theorem Stopped.counts (stopped : Stopped c) (few : c.unflushed ≤ 16) : Counts c := by
  rcases stopped with ⟨_, ⟨caused, bad, level⟩ | ⟨caused, bad, more, last⟩⟩
  · refine ⟨⟨level.ge, by omega⟩, bad.le, few, fun _ => bad, fun never => ?_⟩
    rw [caused] at never
    cases never
  · refine ⟨⟨by omega, more.le⟩, bad.le, few, fun never => ?_, fun _ => last⟩
    rw [caused] at never
    cases never

theorem Settles.counts (settles : Settles c) (few : c.unflushed ≤ 16) : Counts c := by
  rcases settles with running | ⟨stopped, _⟩
  · exact running.counts few
  · exact stopped.counts few

theorem standsCounts (stands : Stands c) : Counts c := by
  have none_ (zero : c.unflushed = 0) : c.unflushed ≤ 16 := zero.trans_le (Nat.zero_le 16)
  have open_ (caused : c.cause = none) (bad : c.client.badMessages ≤ 3) (few : c.unflushed ≤ 16)
      (level : c.outcomes.length ≤ c.received.length ∧ c.received.length ≤ c.outcomes.length + 1) : Counts c := by
    refine ⟨level, bad, few, fun never => ?_, fun never => ?_⟩
    · rw [caused] at never
      cases never
    · rw [caused] at never
      cases never
  unfold Stands at stands
  split at stands
  · exact stands.2.counts (none_ stands.1)
  · exact stands.2.counts (none_ stands.1)
  · exact stands.2.counts (none_ stands.1)
  · exact stands.2.counts (none_ stands.1)
  · exact stands.2.counts (none_ stands.1)
  · exact stands.2.2.counts (stands.1.trans_le stands.2.1.le)
  · obtain ⟨paced, few, caused, bad, more⟩ := stands
    exact open_ caused bad.le (paced.trans_le few.le) ⟨by omega, more.le⟩
  · obtain ⟨paced, few, caused, bad, level⟩ := stands
    exact open_ caused bad (paced.trans_le few) ⟨level.ge, by omega⟩
  · exact stands.2.2.counts (stands.1.trans_le stands.2.1)
  · rcases stands with ⟨few, running | stopped⟩
    · exact running.counts few
    · exact stopped.counts few
  · exact stands.2.counts (none_ stands.1)
  · exact stands.2.counts (none_ stands.1)
  · rcases stands with ⟨few, _, _, ⟨_, running⟩ | ⟨stopped, _⟩⟩
    · exact running.counts few
    · exact stopped.counts few
  · rcases stands with ⟨few, _, _, ⟨_, running⟩ | ⟨stopped, _⟩⟩
    · exact running.counts few
    · exact stopped.counts few
  · exact stands.2.counts stands.1
  · exact stands.2.counts stands.1

/- How a connection stands with its client. -/
structure Served (c : Connection) : Prop where
  room : c.client.outgoing.length ≤ maxQueuedFrames ∧ c.place.held.length ≤ maxQueuedFrames
  line : c.sent ++ c.place.held ++ c.client.outgoing = c.line
  heard : ∀ peer count frames after, peer.connected = true → peer.receiveSequence = 1 → peer.input <+: c.client.channel.output →
    receiveAll count peer = .ok frames after → frames.map SecureChannel.Frame.content <+: c.line
  handled : ∀ contents : List QueuedFrame, (∀ x ∈ contents, x.2.length ≤ maxFramePayload) → c.arrived <+: stream (numbered 1 contents) →
    c.received.map SecureChannel.Frame.content <+: contents
  counts : Counts c
  strikes : c.client.badMessages = c.outcomes.countP Dispatched.strikes
  answered : c.overflowed = true ∨ (c.outcomes.filterMap Dispatched.answer).Sublist c.line
  ended : ∀ lost, c.place = .closed .ended lost → c.cause = none ∧ c.overflowed = true ∨ c.cause.isSome = true ∧ c.sent = c.line

theorem Kept.served (kept : Kept c) : Served c where
  room := ⟨kept.room, kept.batch⟩
  line := kept.line
  heard _ _ _ _ connected fresh input received := heardInOrder kept connected fresh input received
  handled _ small came := handledInOrder kept small came
  counts := standsCounts kept.stands
  strikes := kept.strikes
  answered := kept.answered
  ended lost here := by
    have stands := kept.stands
    have line := kept.line
    rw [Stands, here] at stands
    rw [here] at line
    obtain ⟨_, rfl, _, ⟨full, running⟩ | ⟨⟨_, caused⟩, none_⟩⟩ := stands
    · exact .inl ⟨running.1, full⟩
    · refine .inr ⟨?_, by simpa [Place.held, none_] using line⟩
      rcases caused with ⟨caused, _⟩ | ⟨caused, _⟩ <;> rw [caused] <;> rfl

/- Whatever the other threads put on the queue, whatever comes in and wherever the connection breaks: what the client reads is what
was due to it, in its order and without gaps, and what it sent is dispatched in its order, with nothing after a disconnect or a third
strike. A connection that ends of its own accord has told the client everything, unless its queue has overflowed. -/
theorem clientServed (run : Run (start welcome) c) : Served c ∧ [welcome] <+: c.line ∧
    ∀ d, Run c d → (c.client.alive = false → d.line = c.line ∧ d.client.alive = false) ∧
      (c.cause.isSome = true → d.received = c.received ∧ d.outcomes = c.outcomes) := by
  have kept := runKept run
  exact ⟨kept.served, runWelcomed run, fun d later => ⟨runDead later, runStopped later kept⟩⟩

end Runs

/-! Three frames that are each rejected: the client is told three times before the connection is closed. -/

def strikeOut : List Event :=
  let rejected : List Event := [.receive, .dispatched (.threw (Wire.ascii "no"))]
  [.send, .iterate, .polled false, .arrive (stream (numbered 1 [(24, [7]), (24, [8]), (24, [9])])), .readable] ++ rejected ++
    [.struck, .again true] ++ rejected ++ [.struck, .again true] ++ rejected ++
    [.struck, .take, .send, .send, .send, .flushed, .iterate, .close]

theorem strikesTold : ∃ c, Run (start (1, [])) c ∧ Served c ∧ c.place = .closed .ended [] ∧ c.cause = some .strikes ∧ c.sent.length = 4 := by
  cases played : Schedules.play fire (fun _ _ => True) (start (1, [])) strikeOut with
  | none =>
      have some_ : (Schedules.play fire (fun _ _ => True) (start (1, [])) strikeOut).isSome = true := by decide +kernel
      rw [played] at some_
      cases some_
  | some c =>
      have seen : (Schedules.play fire (fun _ _ => True) (start (1, [])) strikeOut).map (fun c => (c.place, c.cause, c.sent.length)) =
          some (.closed .ended [], some .strikes, 4) := by decide +kernel
      rw [played, Option.map_some, Option.some.injEq, Prod.mk.injEq, Prod.mk.injEq] at seen
      have run : Run (start (1, [])) c := Schedules.playRun played
      exact ⟨c, run, (clientServed run).1, seen⟩

end TradeP2P.ClientLoop
