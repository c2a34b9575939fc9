import TradeP2P.Lib.Machine
import TradeP2P.Protocol.Inversion

/-! Frames on a channel. Each side counts the frames it has sent and, apart from that, those it has
received; both counters start at one. What goes wrong on the connection itself is an error of the
call, and the bytes read until then are gone. -/
namespace TradeP2P
open Wire (Bytes Reader ascii bigEndian u16 u32 u64 fixed)
open Checks Machine

def frameHeaderSize : Nat := 20

-- An enumerator cast from the wire may be any number; these are the first and the last.
abbrev MessageType := UInt16
def MessageType.welcome : MessageType := 1
def MessageType.q7933BlindSigTicketPoll : MessageType := 49

def validateMessageType (type : MessageType) : Except Error Unit :=
  throwIf (type < MessageType.welcome ∨ type > MessageType.q7933BlindSigTicketPoll) (.invalidArgument "unknown message type")

/- One side of a connection: `input` is what the other side has written and this one not yet read. -/
structure SecureChannel where
  connected : Bool := true
  sendSequence : UInt64 := 1
  receiveSequence : UInt64 := 1
  input : Bytes := []
  output : Bytes := []
  deriving DecidableEq, Repr

namespace SecureChannel

structure Frame where
  type : MessageType
  sequence : UInt64
  payload : Bytes
  deriving DecidableEq, Repr

abbrev ChannelM := EStateM Error SecureChannel

def lastSequence : UInt64 := 0xffffffffffffffff

def sslWriteAll (bytes : Bytes) : ChannelM Unit := modify fun channel => { channel with output := channel.output ++ bytes }

def sslReadExact (count : Nat) : ChannelM Bytes := fun channel =>
  match Wire.take (.runtimeError "peer closed TLS connection") count channel.input with
  | .ok (bytes, rest) => .ok bytes { channel with input := rest }
  | .error e => .error e { channel with input := [] }

def magic : Bytes := ascii "TP2P"

def header (type : MessageType) (sequence : UInt64) (length : Nat) : Bytes :=
  magic ++ (bigEndian 2 protocolVersion.toNat ++ (bigEndian 2 type.toNat ++ (bigEndian 8 sequence.toNat ++
    bigEndian 4 length)))

def sendFrame (type : MessageType) (payload : Bytes) : ChannelM Unit := do
  let channel ← get
  throwIf (¬channel.connected) (Error.logicError "channel is closed")
  validateMessageType type
  throwIf (payload.length > maxFramePayload) (Error.invalidArgument "frame payload exceeds hard limit")
  sslWriteAll (header type channel.sendSequence payload.length)
  sslWriteAll payload
  throwIf (channel.sendSequence = lastSequence) (Error.runtimeError "send sequence exhausted")
  modify fun channel => { channel with sendSequence := channel.sendSequence + 1 }

-- The fields of a header, each checked before the next one is looked at.
def readHeader (expected : UInt64) : Reader Error (MessageType × UInt64 × UInt32) := do
  let front ← fixed truncated 4
  throwIf (front.toList ≠ magic) (Error.runtimeError "invalid frame magic")
  let version ← u16 truncated
  throwIf (version ≠ protocolVersion) (Error.runtimeError "unsupported wire version")
  let type ← u16 truncated
  validateMessageType type
  let sequence ← u64 truncated
  throwIf (sequence ≠ expected) (Error.runtimeError "unexpected frame sequence")
  let length ← u32 truncated
  throwIf (length.toNat > maxFramePayload) (Error.runtimeError "incoming frame exceeds hard limit")
  return (type, sequence, length)

def receiveFrame : ChannelM Frame := do
  let channel ← get
  throwIf (¬channel.connected) (Error.logicError "channel is closed")
  let bytes ← sslReadExact frameHeaderSize
  let fields ← Wire.readAll trailing (readHeader channel.receiveSequence) bytes
  let payload ← sslReadExact fields.2.2.toNat
  throwIf (channel.receiveSequence = lastSequence) (Error.runtimeError "receive sequence exhausted")
  modify fun channel => { channel with receiveSequence := channel.receiveSequence + 1 }
  return { type := fields.1, sequence := fields.2.1, payload }

/- Calls one after the other, all of them accepted. -/

def sendAll : List (MessageType × Bytes) → ChannelM Unit
  | [] => return
  | (type, payload) :: rest => do
      sendFrame type payload
      sendAll rest

def receiveAll : Nat → ChannelM (List Frame)
  | 0 => return []
  | count+1 => do
      let frame ← receiveFrame
      let rest ← receiveAll count
      return frame :: rest

/-! One frame. -/

def Frame.bytes (frame : Frame) : Bytes := header frame.type frame.sequence frame.payload.length ++ frame.payload

def Sendable (type : MessageType) (payload : Bytes) : Prop :=
  validateMessageType type = .ok () ∧ payload.length ≤ maxFramePayload

section Calls
variable {channel left : SecureChannel} {type : MessageType} {payload : Bytes} {frame : Frame}

theorem readReturns {count : Nat} {bytes : Bytes} : sslReadExact count channel = .ok bytes left ↔
    ∃ rest, bytes.length = count ∧ channel.input = bytes ++ rest ∧ left = { channel with input := rest } := by
  unfold sslReadExact
  cases took : Wire.take (Error.runtimeError "peer closed TLS connection") count channel.input with
  | ok read =>
    obtain ⟨front, rest⟩ := read
    obtain ⟨long, input⟩ := Wire.takeRead.mp took
    constructor
    · intro ok
      obtain ⟨rfl, rfl⟩ := EStateM.Result.ok.inj ok
      exact ⟨rest, long, input, rfl⟩
    · rintro ⟨rest', short, same, rfl⟩
      obtain ⟨rfl, rfl⟩ := List.append_inj (input.symm.trans same) (long.trans short.symm)
      rfl
  | error e =>
    refine iff_of_false (by rintro ⟨⟩) ?_
    rintro ⟨rest, short, same, _⟩
    rw [Wire.takeRead.mpr ⟨short, same⟩] at took
    contradiction

theorem readHeaderOk {expected sequence : UInt64} {length : UInt32} {bytes : Bytes} :
    Wire.readAll trailing (readHeader expected) bytes = .ok (type, sequence, length) ↔
      sequence = expected ∧ validateMessageType type = .ok () ∧ length.toNat ≤ maxFramePayload ∧
        bytes = header type sequence length.toNat := by
  have tp2p : ∀ front : Vector UInt8 4, front.toList = magic ↔ front = ⟨magic.toArray, rfl⟩ := by
    intro front
    rw [← Vector.toArray_inj, ← Array.toList_inj]
    rfl
  simp only [Wire.readAllOk, readHeader, Wire.bindRead, Wire.fixedRead, Wire.checkRead, Wire.pureRead, Wire.u16Read,
    Wire.u32Read, Wire.u64Read, throwIf_ok, not_not, tp2p, header]
  constructor
  · rintro ⟨_, _, rfl, _, _, ⟨rfl, rfl⟩, _, _, rfl, _, _, ⟨rfl, rfl⟩, _, _, rfl, _, _, ⟨valid, rfl⟩, _, _, rfl, _, _,
      ⟨rfl, rfl⟩, _, _, rfl, _, _, ⟨small, rfl⟩, same, rfl⟩
    obtain ⟨rfl, rfl, rfl⟩ := Prod.mk.inj same
    exact ⟨rfl, valid, by omega, by rw [List.append_nil]; rfl⟩
  · rintro ⟨rfl, valid, small, rfl⟩
    exact ⟨_, _, rfl, (), _, ⟨rfl, rfl⟩, _, _, rfl, (), _, ⟨rfl, rfl⟩, _, _, rfl, (), _, ⟨valid, rfl⟩, _, _, rfl, (), _,
      ⟨rfl, rfl⟩, _, _, (List.append_nil _).symm, (), _, ⟨by omega, rfl⟩, rfl, rfl⟩

theorem headerLength (type : MessageType) (sequence : UInt64) (length : Nat) :
    (header type sequence length).length = frameHeaderSize := by
  simp [header, magic, ascii, frameHeaderSize]

theorem sendFrameOk {u : Unit} : sendFrame type payload channel = .ok u left ↔
    channel.connected = true ∧ Sendable type payload ∧ channel.sendSequence ≠ lastSequence ∧
      left = { channel with output := channel.output ++ Frame.bytes ⟨type, channel.sendSequence, payload⟩
                            sendSequence := channel.sendSequence + 1 } := by
  simp only [sendFrame, bind_returns, get_returns, lift_returns, throwIf_ok, sslWriteAll, modify_returns, Frame.bytes,
    Sendable, not_not]
  constructor
  · rintro ⟨_, _, ⟨rfl, rfl⟩, _, _, ⟨connected, rfl⟩, _, _, ⟨valid, rfl⟩, _, _, ⟨small, rfl⟩, _, _, rfl, _, _, rfl, _, _,
      ⟨more, rfl⟩, rfl⟩
    exact ⟨connected, ⟨valid, by omega⟩, more, by rw [List.append_assoc]⟩
  · rintro ⟨connected, ⟨valid, small⟩, more, rfl⟩
    exact ⟨_, _, ⟨rfl, rfl⟩, (), _, ⟨connected, rfl⟩, (), _, ⟨valid, rfl⟩, (), _, ⟨by omega, rfl⟩, (), _, rfl, (), _, rfl,
      (), _, ⟨more, rfl⟩, by rw [List.append_assoc]⟩

theorem receiveFrameOk : receiveFrame channel = .ok frame left ↔
    ∃ rest, channel.connected = true ∧ Sendable frame.type frame.payload ∧ channel.receiveSequence ≠ lastSequence ∧
      frame.sequence = channel.receiveSequence ∧ channel.input = frame.bytes ++ rest ∧
      left = { channel with input := rest, receiveSequence := channel.receiveSequence + 1 } := by
  simp only [receiveFrame, bind_returns, get_returns, lift_returns, throwIf_ok, readReturns, modify_returns, pure_returns,
    Frame.bytes, Sendable, not_not]
  constructor
  · rintro ⟨_, _, ⟨rfl, rfl⟩, _, _, ⟨connected, rfl⟩, bytes, _, ⟨unread, _, input, rfl⟩, ⟨type, sequence, length⟩, _,
      ⟨fields, rfl⟩, payload, _, ⟨rest, size, more, rfl⟩, _, _, ⟨room, rfl⟩, _, _, rfl, rfl, rfl⟩
    obtain ⟨rfl, valid, small, rfl⟩ := readHeaderOk.mp fields
    dsimp only at size more ⊢
    exact ⟨rest, connected, ⟨valid, by omega⟩, room, rfl, by rw [input, more, size, List.append_assoc], rfl⟩
  · rintro ⟨rest, connected, ⟨valid, small⟩, room, same, input, rfl⟩
    have length : (UInt32.ofNat frame.payload.length).toNat = frame.payload.length :=
      UInt32.toNat_ofNat_of_lt' (by simp only [maxFramePayload, UInt32.size] at small ⊢; omega)
    have fields := readHeaderOk.mpr ⟨same, valid, by rw [length]; exact small, rfl⟩
    rw [length] at fields
    exact ⟨_, _, ⟨rfl, rfl⟩, (), _, ⟨connected, rfl⟩, header frame.type frame.sequence frame.payload.length, _,
      ⟨frame.payload ++ rest, headerLength _ _ _, by rw [input, List.append_assoc], rfl⟩, _, _, ⟨fields, rfl⟩,
      frame.payload, _, ⟨rest, length.symm, rfl, rfl⟩, (), _, ⟨room, rfl⟩, (), _, rfl, rfl, rfl⟩

end Calls

/-! Streams. -/

/- Frames with consecutive numbers. -/
def numbered : UInt64 → List (MessageType × Bytes) → List Frame
  | _, [] => []
  | sequence, (type, payload) :: rest => ⟨type, sequence, payload⟩ :: numbered (sequence + 1) rest

def stream (frames : List Frame) : Bytes := frames.flatMap Frame.bytes

def Frame.content (frame : Frame) : MessageType × Bytes := (frame.type, frame.payload)

/- What a channel accepts from a number on. -/
structure Accepted (first : UInt64) (contents : List (MessageType × Bytes)) : Prop where
  sendable : ∀ content ∈ contents, Sendable content.1 content.2
  enough : first.toNat + contents.length ≤ lastSequence.toNat

section Streams
variable {channel left : SecureChannel} {first : UInt64} {type : MessageType} {payload : Bytes}
  {contents : List (MessageType × Bytes)}

theorem afterNumber (more : first ≠ lastSequence) : (first + 1).toNat = first.toNat + 1 := by
  have bound := first.toNat_lt
  have below : first.toNat ≠ lastSequence.toNat := fun same => more (UInt64.toNat_inj.mp same)
  have last : lastSequence.toNat = 18446744073709551615 := rfl
  rw [UInt64.toNat_add, UInt64.toNat_one, Nat.mod_eq_of_lt (by omega)]

theorem nextNumber (count : Nat) : first + 1 + UInt64.ofNat count = first + UInt64.ofNat (count + 1) := by
  rw [UInt64.ofNat_add, UInt64.add_assoc, UInt64.add_comm (UInt64.ofNat count)]
  rfl

theorem acceptedNil : Accepted first [] := by
  refine ⟨by simp, ?_⟩
  have bound := first.toNat_lt
  have last : lastSequence.toNat = 18446744073709551615 := rfl
  rw [List.length_nil]
  omega

theorem acceptedCons : Accepted first ((type, payload) :: contents) ↔
    Sendable type payload ∧ first ≠ lastSequence ∧ Accepted (first + 1) contents := by
  have bound := first.toNat_lt
  have last : lastSequence.toNat = 18446744073709551615 := rfl
  constructor
  · rintro ⟨sendable, enough⟩
    rw [List.length_cons] at enough
    have more : first ≠ lastSequence := by
      rintro rfl
      omega
    obtain ⟨front, rest⟩ := List.forall_mem_cons.mp sendable
    exact ⟨front, more, rest, by rw [afterNumber more]; omega⟩
  · rintro ⟨front, more, rest, enough⟩
    rw [afterNumber more] at enough
    exact ⟨List.forall_mem_cons.mpr ⟨front, rest⟩, by rw [List.length_cons]; omega⟩

theorem numberAfter (accepted : Accepted first contents) :
    (first + UInt64.ofNat contents.length).toNat = first.toNat + contents.length := by
  have enough := accepted.enough
  have last : lastSequence.toNat = 18446744073709551615 := rfl
  rw [UInt64.toNat_add, UInt64.toNat_ofNat_of_lt' (by simp only [UInt64.size]; omega), Nat.mod_eq_of_lt (by omega)]

theorem streamCons (frame : Frame) (rest : List Frame) : stream (frame :: rest) = frame.bytes ++ stream rest := rfl

theorem sendAllOk {u : Unit} (connected : channel.connected = true) :
    sendAll contents channel = .ok u left ↔ Accepted channel.sendSequence contents ∧
      left = { channel with output := channel.output ++ stream (numbered channel.sendSequence contents)
                            sendSequence := channel.sendSequence + UInt64.ofNat contents.length } := by
  induction contents generalizing channel with
  | nil =>
      have none : channel.sendSequence + UInt64.ofNat 0 = channel.sendSequence := UInt64.add_zero _
      simp only [sendAll, pure_returns, numbered, stream, List.flatMap_nil, List.append_nil, List.length_nil, none,
        acceptedNil, true_and, eq_comm]
  | cons content rest ih =>
      obtain ⟨type, payload⟩ := content
      simp only [sendAll, bind_returns, sendFrameOk, acceptedCons, numbered, streamCons, List.length_cons]
      constructor
      · rintro ⟨_, _, ⟨_, sendable, more, rfl⟩, sent⟩
        obtain ⟨others, after⟩ := (ih (by exact connected)).mp sent
        rw [nextNumber] at after
        exact ⟨⟨sendable, more, others⟩, by rw [after, List.append_assoc]⟩
      · rintro ⟨⟨sendable, more, others⟩, after⟩
        refine ⟨(), _, ⟨connected, sendable, more, rfl⟩, (ih (by exact connected)).mpr ⟨others, ?_⟩⟩
        rw [after, nextNumber, List.append_assoc]

theorem receiveAllOk {count : Nat} {frames : List Frame} (connected : channel.connected = true) :
    receiveAll count channel = .ok frames left ↔ ∃ rest, frames.length = count ∧
      Accepted channel.receiveSequence (frames.map Frame.content) ∧
      frames = numbered channel.receiveSequence (frames.map Frame.content) ∧ channel.input = stream frames ++ rest ∧
      left = { channel with input := rest, receiveSequence := channel.receiveSequence + UInt64.ofNat count } := by
  induction count generalizing channel frames with
  | zero =>
      have none : channel.receiveSequence + UInt64.ofNat 0 = channel.receiveSequence := UInt64.add_zero _
      simp only [receiveAll, pure_returns, List.length_eq_zero_iff, none]
      constructor
      · rintro ⟨rfl, rfl⟩
        exact ⟨channel.input, rfl, acceptedNil, rfl, rfl, rfl⟩
      · rintro ⟨rest, rfl, _, _, input, rfl⟩
        exact ⟨rfl, by rw [show rest = channel.input from input.symm]⟩
  | succ count ih =>
      simp only [receiveAll, bind_returns, receiveFrameOk, pure_returns]
      constructor
      · rintro ⟨frame, _, ⟨unread, _, sendable, more, same, input, rfl⟩, others, _, received, rfl, rfl⟩
        obtain ⟨rest, size, accepted, consecutive, unread', after⟩ := (ih (by exact connected)).mp received
        dsimp only at accepted consecutive unread' after
        refine ⟨rest, by rw [List.length_cons, size], acceptedCons.mpr ⟨sendable, more, accepted⟩, ?_, ?_, ?_⟩
        · exact congrArg₂ List.cons (by rw [← same]) consecutive
        · rw [input, unread', streamCons, List.append_assoc]
        · rw [after, nextNumber]
      · rintro ⟨rest, size, accepted, consecutive, input, after⟩
        cases frames with
        | nil => contradiction
        | cons frame others =>
          obtain ⟨sendable, more, accepted⟩ := acceptedCons.mp accepted
          obtain ⟨same, consecutive⟩ := List.cons.inj consecutive
          have number : frame.sequence = channel.receiveSequence := congrArg Frame.sequence same
          refine ⟨frame, _, ⟨stream others ++ rest, connected, sendable, more, number, ?_, rfl⟩, others, left,
            (ih (by exact connected)).mpr ⟨rest, Nat.succ.inj size, accepted, consecutive, rfl, ?_⟩, rfl, rfl⟩
          · rw [input, streamCons, List.append_assoc]
          · rw [after, nextNumber]

theorem numberedContents (first : UInt64) (contents : List (MessageType × Bytes)) :
    (numbered first contents).map Frame.content = contents := by
  induction contents generalizing first with
  | nil => rfl
  | cons content rest ih => rw [numbered, List.map_cons, ih]; rfl

theorem numberedNumbers (accepted : Accepted first contents) :
    (numbered first contents).map (fun frame => frame.sequence.toNat) = List.range' first.toNat contents.length := by
  induction contents generalizing first with
  | nil => rfl
  | cons content rest ih =>
      obtain ⟨_, more, others⟩ := acceptedCons.mp accepted
      rw [numbered, List.map_cons, ih others, List.length_cons, List.range'_succ, afterNumber more]

end Streams

/- The twenty bytes in front of a payload, whatever they say. -/
structure RawHeader where
  magic : Vector UInt8 4
  version : UInt16
  type : MessageType
  sequence : UInt64
  length : UInt32
  deriving DecidableEq, Repr

def RawHeader.bytes (raw : RawHeader) : Bytes :=
  raw.magic.toList ++ (bigEndian 2 raw.version.toNat ++ (bigEndian 2 raw.type.toNat ++
    (bigEndian 8 raw.sequence.toNat ++ bigEndian 4 raw.length.toNat)))

/- What the header of the frame with this number must say. -/
structure RawHeader.Expected (raw : RawHeader) (number : Nat) : Prop where
  magic : raw.magic.toList = SecureChannel.magic
  version : raw.version = protocolVersion
  type : validateMessageType raw.type = .ok ()
  sequence : raw.sequence.toNat = number
  length : raw.length.toNat ≤ maxFramePayload

theorem headerInjective {raw : RawHeader} {type : MessageType} {sequence : UInt64} {length : Nat}
    (small : length ≤ maxFramePayload) (same : raw.bytes = header type sequence length) :
    raw.magic.toList = magic ∧ raw.version = protocolVersion ∧ raw.type = type ∧ raw.sequence = sequence ∧
      raw.length.toNat = length := by
  obtain ⟨front, same⟩ := List.append_inj same (by simp [magic, ascii])
  obtain ⟨version, same⟩ := List.append_inj same (by simp)
  obtain ⟨kind, same⟩ := List.append_inj same (by simp)
  obtain ⟨number, size⟩ := List.append_inj same (by simp)
  have narrow {a b : UInt16} (digits : bigEndian 2 a.toNat = bigEndian 2 b.toNat) : a = b :=
    UInt16.toNat_inj.mp (Wire.bigEndianInjective (by simpa using a.toNat_lt) (by simpa using b.toNat_lt) digits)
  refine ⟨front, narrow version, narrow kind, UInt64.toNat_inj.mp ?_, ?_⟩
  · exact Wire.bigEndianInjective (by simpa using raw.sequence.toNat_lt) (by simpa using sequence.toNat_lt) number
  · simp only [maxFramePayload] at small
    exact Wire.bigEndianInjective (by simpa using raw.length.toNat_lt) (by omega) size

theorem receivesExpected {channel left : SecureChannel} {frame : Frame} {raw : RawHeader} {rest : Bytes}
    (front : channel.input = raw.bytes ++ rest) (received : receiveFrame channel = .ok frame left) :
    raw.Expected channel.receiveSequence.toNat := by
  obtain ⟨unread, _, ⟨valid, small⟩, _, number, input, _⟩ := receiveFrameOk.mp received
  have long : raw.bytes.length = (header frame.type frame.sequence frame.payload.length).length := by
    rw [headerLength]
    simp [RawHeader.bytes, frameHeaderSize]
  rw [front, Frame.bytes, List.append_assoc] at input
  obtain ⟨same, version, type, sequence, length⟩ := headerInjective small (List.append_inj input long).1
  exact ⟨same, version, by rw [type, valid], by rw [sequence, number], by rw [length]; exact small⟩

section Runs
variable (sender receiver : SecureChannel)

/- What one side sends the other receives, in order and numbered from one; what is received was sent
that way; and a header that is not the expected one stops the receiver there. -/
theorem streamsAgree (sending : sender.connected = true ∧ sender.sendSequence = 1)
    (receiving : receiver.connected = true ∧ receiver.receiveSequence = 1) :
    (∀ contents left, sendAll contents sender = .ok () left → ∃ sent, left.output = sender.output ++ sent ∧
      ∀ rest, receiver.input = sent ++ rest → ∃ frames after, receiveAll contents.length receiver = .ok frames after ∧
        frames.map Frame.content = contents ∧ after.input = rest) ∧
    (∀ count frames after, receiveAll count receiver = .ok frames after →
      frames.map (fun frame => frame.sequence.toNat) = List.range' 1 count ∧
      (∃ sent left, sendAll (frames.map Frame.content) sender = .ok () left ∧ left.output = sender.output ++ sent ∧
        receiver.input = sent ++ after.input) ∧
      ∀ raw rest frame last, after.input = RawHeader.bytes raw ++ rest → receiveFrame after = .ok frame last →
        raw.Expected (count + 1)) := by
  obtain ⟨connected, first⟩ := sending
  obtain ⟨connected', first'⟩ := receiving
  constructor
  · intro contents left sent
    obtain ⟨accepted, rfl⟩ := (sendAllOk connected).mp sent
    rw [first] at accepted
    refine ⟨_, rfl, fun rest input => ?_⟩
    rw [first] at input
    have same := numberedContents 1 contents
    refine ⟨numbered 1 contents, _, (receiveAllOk connected').mpr ⟨rest, ?_, ?_, ?_, input, rfl⟩, same, rfl⟩
    · rw [← List.length_map Frame.content, same]
    · rwa [same, first']
    · rw [same, first']
  · intro count frames after received
    obtain ⟨rest, size, accepted, consecutive, input, rfl⟩ := (receiveAllOk connected').mp received
    rw [first'] at accepted consecutive
    have long : (frames.map Frame.content).length = count := by rw [List.length_map, size]
    refine ⟨?_, ⟨stream frames, _, (sendAllOk connected).mpr ⟨by rwa [first], rfl⟩, ?_, input⟩, ?_⟩
    · rw [consecutive, numberedNumbers accepted, long]
      rfl
    · rw [first, ← consecutive]
    · intro raw unread frame last front next
      have expected := receivesExpected front next
      rw [first'] at expected
      have number := numberAfter accepted
      rw [long] at number
      rwa [number, Nat.add_comm] at expected

end Runs

/-! A list request and an error, sent and received. -/

def twoFrames : List (MessageType × Bytes) := [(24, [0, 0, 1]), (16, [0, 2, 110, 111])]

def twoSent : Bytes :=
  ascii "TP2P" ++ ([0, 5, 0, 24, 0, 0, 0, 0, 0, 0, 0, 1, 0, 0, 0, 3, 0, 0, 1] ++ (ascii "TP2P" ++
    [0, 5, 0, 16, 0, 0, 0, 0, 0, 0, 0, 2, 0, 0, 0, 4, 0, 2, 110, 111]))

theorem twoAgree : ∃ sent, twoSent = [] ++ sent ∧ ∀ rest, twoSent = sent ++ rest → ∃ frames after,
    receiveAll 2 { input := twoSent } = .ok frames after ∧ frames.map Frame.content = twoFrames ∧ after.input = rest :=
  (streamsAgree {} { input := twoSent } ⟨rfl, rfl⟩ ⟨rfl, rfl⟩).1 twoFrames { sendSequence := 3, output := twoSent } rfl

/- Numbers start at one. -/
theorem firstNumber : ∃ frames after, receiveAll 2 { input := twoSent } = .ok frames after ∧
    frames.map (fun frame => frame.sequence.toNat) ≠ List.range 2 :=
  ⟨[⟨24, 1, [0, 0, 1]⟩, ⟨16, 2, [0, 2, 110, 111]⟩], { receiveSequence := 3 }, rfl, by decide⟩

end SecureChannel
end TradeP2P
