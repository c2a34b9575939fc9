import TradeP2P.Credential.Assembling
import TradeP2P.Credential.IssuancePath

/-! The chunk streams of a connection, and what a rejection leaves of them. The handler of a chunk forgets its assembler
when a request has been decoded, and only then. -/
namespace TradeP2P.Credential
open Wire (Bytes Reader Reads bigEndian fixed readAll)
open Checks Machine Methods BlindSigChunkAssembler

/-! The request of the other signer, whose chunks go the same way. -/

structure BlindSigAssembledRequest where
  c : RingArray
  rho : Vector UInt8 32
  encA : RingArray
  encPk : RingArray
  ct1R : RingArray
  ct2R : RingArray
  ct1Mu : RingArray
  ct2Mu : RingArray
  pi1Receipt : Bytes

def encodeBlindsigAssembledRequest (request : BlindSigAssembledRequest) : Except Error Bytes := do
  throwIf (request.pi1Receipt.length > maxBlindSigRequestBytes)
    (Error.invalidArgument "blind-sig assembled request's receipt exceeds protocol limit")
  let receipt ← byteField request.pi1Receipt
  return u16Array request.c ++ (request.rho.toList ++ (u16Array request.encA ++ (u16Array request.encPk ++
    (u16Array request.ct1R ++ (u16Array request.ct2R ++ (u16Array request.ct1Mu ++ (u16Array request.ct2Mu ++ receipt)))))))

def readBlindsigAssembledRequest : Reader Error BlindSigAssembledRequest := do
  let c ← readU16Array ringDegree
  let rho ← fixed truncated 32
  let encA ← readU16Array ringDegree
  let encPk ← readU16Array ringDegree
  let ct1R ← readU16Array ringDegree
  let ct2R ← readU16Array ringDegree
  let ct1Mu ← readU16Array ringDegree
  let ct2Mu ← readU16Array ringDegree
  let pi1Receipt ← readBytes maxBlindSigRequestBytes
  return { c, rho, encA, encPk, ct1R, ct2R, ct1Mu, ct2Mu, pi1Receipt }

def decodeBlindsigAssembledRequest (bytes : Bytes) : Except Error BlindSigAssembledRequest :=
  readAll trailing readBlindsigAssembledRequest bytes

/-! The handler of a chunk. -/

/- A signer's handler: how it decodes a request that has been put together, and what it does with it. -/
structure ChunkHandler (α β : Type) where
  enabled : Bool
  refusal : String
  decode : Bytes → Except Error α
  finish : α → Except Error β

/- A connection, with what its complete requests came to. -/
structure ChunkConnection (β : Type) where
  assembler : Option BlindSigChunkAssembler := none
  handled : List β := []

namespace ChunkConnection
variable {β : Type}

/- The assembler is made when there is none. -/
def emplaced (connection : ChunkConnection β) : BlindSigChunkAssembler := connection.assembler.getD {}

def holding (assembler : BlindSigChunkAssembler) (connection : ChunkConnection β) : ChunkConnection β :=
  { connection with assembler := some assembler }

def reset (connection : ChunkConnection β) : ChunkConnection β := { connection with assembler := none }

def hands (result : β) (connection : ChunkConnection β) : ChunkConnection β :=
  { connection with handled := connection.handled ++ [result] }

def addChunk (chunk : BlindSigRequestChunk) : EStateM Error (ChunkConnection β) Bool := fun connection =>
  match BlindSigChunkAssembler.addChunk chunk connection.emplaced with
  | .ok complete left => .ok complete (connection.holding left)
  | .error e left => .error e (connection.holding left)

end ChunkConnection

namespace ChunkHandler
variable {α β : Type}
open ChunkConnection

/- A frame with a chunk: it is decoded before the handler is called. -/
def handle (handler : ChunkHandler α β) : Object Error (ChunkConnection β) Bytes := fun payload => do
  let chunk ← decodeBlindsigRequestChunk payload
  throwIf (handler.enabled = false) (Error.runtimeError handler.refusal)
  let complete ← ChunkConnection.addChunk chunk
  if complete then do
    let connection ← get
    let request ← handler.decode connection.emplaced.buffer
    modify reset
    let result ← handler.finish request
    modify (hands result)
  else return ()

end ChunkHandler

def handleQ7933BlindsigRequestChunk (config : IssuerConfig) (enabled : Bool) : ChunkHandler SessionRequest Handled where
  enabled
  refusal := "q7933 blind-signature signer is not enabled on this mediator"
  decode := decodeAssembledRequest
  finish := handleAssembledRequest config

def handleBlindsigRequestChunk (enabled : Bool) : ChunkHandler BlindSigAssembledRequest BlindSigAssembledRequest where
  enabled
  refusal := "blind-signature signer is not enabled on this mediator"
  decode := decodeBlindsigAssembledRequest
  finish request := .ok request

namespace ChunkHandler
variable {α β : Type} (handler : ChunkHandler α β)
open ChunkConnection

/-! What is asked of a connection after a rejection. -/

/- What can be sent as a request and is handled without an error. -/
def Serves (whole : Bytes) (result : β) : Prop :=
  1 ≤ whole.length ∧ whole.length ≤ maxBlindSigRequestBytes ∧
    ∃ request, handler.decode whole = .ok request ∧ handler.finish request = .ok result

/- A request sent from its first chunk on is accepted chunk by chunk and handled. -/
def Recovers (connection : ChunkConnection β) : Prop :=
  ∀ whole result chunks payloads, handler.Serves whole result → sendChunked whole = .ok chunks →
    chunks.mapM encodeBlindsigRequestChunk = .ok payloads →
    ∃ left, completes handler.handle connection payloads = some left ∧ left.handled = connection.handled ++ [result]

/- Whatever is sent from now on is accepted, put together and handled as on a connection of its own. -/
def AsNew (connection : ChunkConnection β) : Prop :=
  ∀ later, (exec handler.handle connection later).handled = connection.handled ++ (exec handler.handle {} later).handled ∧
    ∀ payload, accepted handler.handle (exec handler.handle connection later) payload =
      accepted handler.handle (exec handler.handle {} later) payload

/- Each rejection of a connection's life leaves it fit for the next request, and without a trace in what comes after. -/
def Recovering (payloads : List Bytes) : Prop :=
  ∀ before payload later, payloads = before ++ payload :: later →
    accepted handler.handle (exec handler.handle {} before) payload = false →
    handler.Recovers (exec handler.handle {} (before ++ [payload])) ∧ handler.AsNew (exec handler.handle {} (before ++ [payload]))

/- The signer is there, and the frame either goes on with the stream, to a request that can be decoded if it is the last
one, or it is refused while no stream has been started. -/
def Harmless (connection : ChunkConnection β) (payload : Bytes) : Prop :=
  handler.enabled = true ∧
    ((∃ chunk, decodeBlindsigRequestChunk payload = .ok chunk ∧ connection.emplaced.Continues chunk ∧
        (connection.emplaced.Last chunk → connection.emplaced.Full chunk ∧
          ∃ request, handler.decode (connection.emplaced.buffer ++ chunk.data) = .ok request)) ∨
      (connection.emplaced.started = false ∧
        ∀ chunk, decodeBlindsigRequestChunk payload = .ok chunk → ¬connection.emplaced.Opens chunk))

/-! What a frame does, case by case. -/

section Frames
variable {handler} {connection : ChunkConnection β} {payload : Bytes} {chunk : BlindSigRequestChunk} {left : BlindSigChunkAssembler}
  {e : Error}

theorem handleUndecoded (undecoded : decodeBlindsigRequestChunk payload = .error e) :
    handler.handle payload connection = .error e connection := by
  rw [handle, bind_run, lift_run, undecoded]

variable (decoded : decodeBlindsigRequestChunk payload = .ok chunk)
include decoded

theorem handleDisabled (disabled : handler.enabled = false) :
    handler.handle payload connection = .error (.runtimeError handler.refusal) connection := by
  rw [handle, bind_run, lift_run, decoded]
  dsimp only
  rw [checkThen, if_pos disabled]

variable (enabled : handler.enabled = true)
include enabled

theorem handleEnabled : handler.handle payload connection = (do
    let complete ← ChunkConnection.addChunk chunk
    if complete then do
      let connection ← get
      let request ← handler.decode connection.emplaced.buffer
      modify reset
      let result ← handler.finish request
      modify (hands result)
    else return () : EStateM Error (ChunkConnection β) Unit) connection := by
  rw [handle, bind_run, lift_run, decoded]
  dsimp only
  rw [checkThen, if_neg (by simp [enabled])]

theorem handleThrows (added : BlindSigChunkAssembler.addChunk chunk connection.emplaced = .error e left) :
    handler.handle payload connection = .error e (connection.holding left) := by
  have called : ChunkConnection.addChunk chunk connection = .error e (connection.holding left) := by
    rw [ChunkConnection.addChunk, added]
  rw [handleEnabled decoded enabled, bind_run, called]

theorem handleWaits (added : BlindSigChunkAssembler.addChunk chunk connection.emplaced = .ok false left) :
    handler.handle payload connection = .ok () (connection.holding left) := by
  have called : ChunkConnection.addChunk chunk connection = .ok false (connection.holding left) := by
    rw [ChunkConnection.addChunk, added]
  rw [handleEnabled decoded enabled, bind_run, called]
  rfl

variable (added : BlindSigChunkAssembler.addChunk chunk connection.emplaced = .ok true left)
include added

theorem handleComplete : handler.handle payload connection = (do
      let request ← handler.decode left.buffer
      modify reset
      let result ← handler.finish request
      modify (hands result) : EStateM Error (ChunkConnection β) Unit) (connection.holding left) := by
  have called : ChunkConnection.addChunk chunk connection = .ok true (connection.holding left) := by
    rw [ChunkConnection.addChunk, added]
  rw [handleEnabled decoded enabled, bind_run, called]
  rfl

theorem handleUnread (unread : handler.decode left.buffer = .error e) :
    handler.handle payload connection = .error e (connection.holding left) := by
  rw [handleComplete decoded enabled added, bind_run, lift_run, unread]

variable {request : α} (read : handler.decode left.buffer = .ok request)
include read

theorem handleFails (failed : handler.finish request = .error e) :
    handler.handle payload connection = .error e connection.reset := by
  rw [handleComplete decoded enabled added, bind_run, lift_run, read]
  dsimp only
  rw [modifyThen, bind_run, lift_run, failed]
  rfl

theorem handleDone {result : β} (done : handler.finish request = .ok result) :
    handler.handle payload connection = .ok () (connection.reset.hands result) := by
  rw [handleComplete decoded enabled added, bind_run, lift_run, read]
  dsimp only
  rw [modifyThen, bind_run, lift_run, done]
  rfl

end Frames

/- Every way a frame can go, and what it leaves. -/
inductive Goes (handler : ChunkHandler α β) (connection : ChunkConnection β) (payload : Bytes) :
    EStateM.Result Error (ChunkConnection β) Unit → Prop where
  | undecoded {e} (undecoded : decodeBlindsigRequestChunk payload = .error e) : Goes handler connection payload (.error e connection)
  | disabled {chunk} (decoded : decodeBlindsigRequestChunk payload = .ok chunk) (disabled : handler.enabled = false) :
      Goes handler connection payload (.error (.runtimeError handler.refusal) connection)
  | refused {chunk e} (decoded : decodeBlindsigRequestChunk payload = .ok chunk) (enabled : handler.enabled = true)
      (refused : ¬connection.emplaced.Opens chunk) : Goes handler connection payload (.error e (connection.holding connection.emplaced))
  | misplaced {chunk e} (decoded : decodeBlindsigRequestChunk payload = .ok chunk) (enabled : handler.enabled = true)
      (opens : connection.emplaced.Opens chunk) (misplaced : ¬connection.emplaced.Continues chunk) :
      Goes handler connection payload (.error e (connection.holding (connection.emplaced.opened chunk)))
  | short {chunk e} (decoded : decodeBlindsigRequestChunk payload = .ok chunk) (enabled : handler.enabled = true)
      (continues : connection.emplaced.Continues chunk) (last : connection.emplaced.Last chunk)
      (short : ¬connection.emplaced.Full chunk) :
      Goes handler connection payload (.error e (connection.holding (connection.emplaced.filled chunk)))
  | unread {chunk e} (decoded : decodeBlindsigRequestChunk payload = .ok chunk) (enabled : handler.enabled = true)
      (continues : connection.emplaced.Continues chunk) (last : connection.emplaced.Last chunk)
      (full : connection.emplaced.Full chunk) (unread : handler.decode (connection.emplaced.buffer ++ chunk.data) = .error e) :
      Goes handler connection payload (.error e (connection.holding { connection.emplaced.filled chunk with complete := true }))
  | failed {chunk request e} (decoded : decodeBlindsigRequestChunk payload = .ok chunk) (enabled : handler.enabled = true)
      (continues : connection.emplaced.Continues chunk) (last : connection.emplaced.Last chunk)
      (full : connection.emplaced.Full chunk) (read : handler.decode (connection.emplaced.buffer ++ chunk.data) = .ok request)
      (failed : handler.finish request = .error e) : Goes handler connection payload (.error e connection.reset)
  | waits {chunk} (decoded : decodeBlindsigRequestChunk payload = .ok chunk) (enabled : handler.enabled = true)
      (continues : connection.emplaced.Continues chunk) (more : ¬connection.emplaced.Last chunk) :
      Goes handler connection payload (.ok () (connection.holding (connection.emplaced.filled chunk)))
  | done {chunk request result} (decoded : decodeBlindsigRequestChunk payload = .ok chunk) (enabled : handler.enabled = true)
      (continues : connection.emplaced.Continues chunk) (last : connection.emplaced.Last chunk)
      (full : connection.emplaced.Full chunk) (read : handler.decode (connection.emplaced.buffer ++ chunk.data) = .ok request)
      (done : handler.finish request = .ok result) : Goes handler connection payload (.ok () (connection.reset.hands result))

theorem goes (connection : ChunkConnection β) (payload : Bytes) :
    Goes handler connection payload (handler.handle payload connection) := by
  cases decoded : decodeBlindsigRequestChunk payload with
  | error e =>
    rw [handleUndecoded decoded]
    exact .undecoded decoded
  | ok chunk =>
  cases enabled : handler.enabled with
  | false =>
    rw [handleDisabled decoded enabled]
    exact .disabled decoded enabled
  | true =>
  by_cases opens : connection.emplaced.Opens chunk
  case neg =>
    obtain ⟨e, refused⟩ := addRefuses opens
    rw [handleThrows decoded enabled refused]
    exact .refused decoded enabled opens
  by_cases continues : connection.emplaced.Continues chunk
  case neg =>
    obtain ⟨e, misplaced⟩ := addMisplaced opens continues
    rw [handleThrows decoded enabled misplaced]
    exact .misplaced decoded enabled opens continues
  by_cases last : connection.emplaced.Last chunk
  case neg =>
    rw [handleWaits decoded enabled (addGoesOn continues last)]
    exact .waits decoded enabled continues last
  by_cases full : connection.emplaced.Full chunk
  case neg =>
    obtain ⟨e, short⟩ := addShort continues last full
    rw [handleThrows decoded enabled short]
    exact .short decoded enabled continues last full
  have added := addCompletes continues last full
  cases read : handler.decode (connection.emplaced.buffer ++ chunk.data) with
  | error e =>
    rw [handleUnread decoded enabled added read]
    exact .unread decoded enabled continues last full read
  | ok request =>
  cases done : handler.finish request with
  | error e =>
    rw [handleFails decoded enabled added read done]
    exact .failed decoded enabled continues last full read done
  | ok result =>
    rw [handleDone decoded enabled added read done]
    exact .done decoded enabled continues last full read done

/-! What a rejection leaves. -/

section Steps
variable {handler} {connection left : ChunkConnection β} {payload : Bytes} {e : Error}

theorem acceptedOk (ran : handler.handle payload connection = .ok () left) :
    accepted handler.handle connection payload = true ∧ next handler.handle connection payload = left := by
  rw [accepted, next, ran]
  exact ⟨rfl, rfl⟩

theorem rejectedError (ran : handler.handle payload connection = .error e left) :
    accepted handler.handle connection payload = false ∧ next handler.handle connection payload = left := by
  rw [accepted, next, ran]
  exact ⟨rfl, rfl⟩

/- A stream that has not been started has nothing of one. -/
def Settled (connection : ChunkConnection β) : Prop := connection.emplaced.started = false → connection.emplaced = {}

theorem openedStarted {assembler : BlindSigChunkAssembler} {chunk : BlindSigRequestChunk} : (assembler.opened chunk).started = true := by
  unfold BlindSigChunkAssembler.opened
  split
  next started => exact started
  next => rfl

theorem Settled.next (settled : Settled connection) : Settled (next handler.handle connection payload) := by
  have way := handler.goes connection payload
  generalize ran : handler.handle payload connection = result at way
  cases way with
  | undecoded _ | disabled _ _ =>
    rw [(rejectedError ran).2]
    exact settled
  | refused _ _ _ =>
    rw [(rejectedError ran).2]
    exact settled
  | misplaced _ _ _ _ =>
    rw [(rejectedError ran).2]
    exact fun never => absurd (openedStarted.symm.trans never) (by decide)
  | short _ _ _ _ _ | unread _ _ _ _ _ _ =>
    rw [(rejectedError ran).2]
    exact fun never => (by cases never)
  | failed _ _ _ _ _ _ _ =>
    rw [(rejectedError ran).2]
    exact fun _ => rfl
  | waits _ _ _ _ =>
    rw [(acceptedOk ran).2]
    exact fun never => (by cases never)
  | done _ _ _ _ _ _ _ =>
    rw [(acceptedOk ran).2]
    exact fun _ => rfl

theorem settledAlways (payloads : List Bytes) : Settled (exec handler.handle {} payloads) := by
  refine exec_history (I := fun _ => Settled) (fun _ => rfl) (fun _ _ settled => settled.next) payloads

/- A harmless frame that is rejected leaves nothing behind. -/
theorem rejectedFresh (settled : Settled connection) (harmless : handler.Harmless connection payload)
    (rejected : accepted handler.handle connection payload = false) : (Machine.next handler.handle connection payload).emplaced = {} := by
  obtain ⟨able, fits⟩ := harmless
  have way := handler.goes connection payload
  generalize ran : handler.handle payload connection = result at way
  cases way with
  | undecoded undecoded =>
    rw [(rejectedError ran).2]
    rcases fits with ⟨chunk, decoded, _⟩ | ⟨unstarted, _⟩
    · rw [undecoded] at decoded
      cases decoded
    · exact settled unstarted
  | disabled _ disabled =>
    rw [able] at disabled
    cases disabled
  | refused decoded _ refused =>
    rw [(rejectedError ran).2]
    rcases fits with ⟨chunk, same, continues, _⟩ | ⟨unstarted, _⟩
    · obtain rfl := Except.ok.inj (decoded.symm.trans same)
      exact absurd continues.toOpens refused
    · exact settled unstarted
  | misplaced decoded _ opens misplaced =>
    rcases fits with ⟨chunk, same, continues, _⟩ | ⟨_, none_⟩
    · obtain rfl := Except.ok.inj (decoded.symm.trans same)
      exact absurd continues misplaced
    · exact absurd opens (none_ _ decoded)
  | short decoded _ continues last short =>
    rcases fits with ⟨chunk, same, _, full⟩ | ⟨_, none_⟩
    · obtain rfl := Except.ok.inj (decoded.symm.trans same)
      exact absurd (full last).1 short
    · exact absurd continues.toOpens (none_ _ decoded)
  | unread decoded _ continues last _ unread =>
    rcases fits with ⟨chunk, same, _, full⟩ | ⟨_, none_⟩
    · obtain rfl := Except.ok.inj (decoded.symm.trans same)
      obtain ⟨request, read⟩ := (full last).2
      rw [unread] at read
      cases read
    · exact absurd continues.toOpens (none_ _ decoded)
  | failed _ _ _ _ _ _ _ =>
    rw [(rejectedError ran).2]
    rfl
  | waits _ _ _ _ =>
    rw [(acceptedOk ran).1] at rejected
    cases rejected
  | done _ _ _ _ _ _ _ =>
    rw [(acceptedOk ran).1] at rejected
    cases rejected

/- Any other frame is rejected, and the stream it stands in, or has opened, stays. -/
theorem harmfulStays (harmful : ¬handler.Harmless connection payload) : accepted handler.handle connection payload = false ∧
    (handler.enabled = false ∨ (Machine.next handler.handle connection payload).emplaced.started = true) := by
  have way := handler.goes connection payload
  generalize ran : handler.handle payload connection = result at way
  cases way with
  | undecoded undecoded =>
    refine ⟨(rejectedError ran).1, ?_⟩
    rw [(rejectedError ran).2]
    by_contra none_
    simp only [not_or, Bool.not_eq_false, Bool.not_eq_true] at none_
    refine harmful ⟨none_.1, .inr ⟨none_.2, fun chunk decoded => ?_⟩⟩
    rw [undecoded] at decoded
    cases decoded
  | disabled _ disabled => exact ⟨(rejectedError ran).1, .inl disabled⟩
  | refused decoded enabled refused =>
    refine ⟨(rejectedError ran).1, .inr ?_⟩
    rw [(rejectedError ran).2]
    by_contra unstarted
    refine harmful ⟨enabled, .inr ⟨Bool.not_eq_true _ ▸ unstarted, fun chunk same => ?_⟩⟩
    obtain rfl := Except.ok.inj (decoded.symm.trans same)
    exact refused
  | misplaced _ _ _ _ =>
    refine ⟨(rejectedError ran).1, .inr ?_⟩
    rw [(rejectedError ran).2]
    exact openedStarted
  | short _ _ _ _ _ | unread _ _ _ _ _ _ =>
    refine ⟨(rejectedError ran).1, .inr ?_⟩
    rw [(rejectedError ran).2]
    rfl
  | failed decoded enabled continues _ full read _ | done decoded enabled continues _ full read _ =>
    exact absurd ⟨enabled, .inl ⟨_, decoded, continues, fun _ => ⟨full, _, read⟩⟩⟩ harmful
  | waits decoded enabled continues more =>
    exact absurd ⟨enabled, .inl ⟨_, decoded, continues, fun last => absurd last more⟩⟩ harmful

end Steps

/-! What a connection without a stream does next. -/

section Fresh
variable {handler} {connection : ChunkConnection β}

/- The frames of a stream, up to the one that completes it. -/
theorem streamHandled (enabled : handler.enabled = true) {more : Nat} {chunks : List BlindSigRequestChunk} {frames : List Bytes}
    {done : BlindSigChunkAssembler} {request : α} {result : β} (received : frames.mapM decodeBlindsigRequestChunk = .ok chunks)
    (returned : addChunks chunks connection.emplaced = .ok (List.replicate more false ++ [true]) done)
    (read : handler.decode done.buffer = .ok request) (finished : handler.finish request = .ok result) :
    completes handler.handle connection frames = some (connection.reset.hands result) := by
  induction frames generalizing connection chunks more with
  | nil =>
    rw [List.mapM_nil] at received
    obtain rfl := pure_ok.mp received
    simp only [addChunks, pure_returns] at returned
    exact absurd returned.1.symm (by simp)
  | cons frame rest ih =>
    rw [List.mapM_cons] at received
    simp only [bind_ok, pure_ok] at received
    obtain ⟨chunk, decoded, others, later, rfl⟩ := received
    simp only [addChunks, bind_returns, pure_returns] at returned
    obtain ⟨complete, mid, first, flags, last, after, same, rfl⟩ := returned
    cases more with
    | zero =>
      obtain ⟨rfl, rfl⟩ := List.cons.inj same
      have none_ : others = [] := by
        cases others with
        | nil => rfl
        | cons other tail =>
          simp only [addChunks, bind_returns, pure_returns] at after
          obtain ⟨_, _, _, _, _, _, never, _⟩ := after
          cases never
      subst none_
      simp only [addChunks, pure_returns] at after
      obtain ⟨_, rfl⟩ := after
      obtain rfl : rest = [] := by
        cases rest with
        | nil => rfl
        | cons frame tail =>
          rw [List.mapM_cons] at later
          simp only [bind_ok, pure_ok] at later
          obtain ⟨_, _, _, _, never⟩ := later
          cases never
      rw [completes, handleDone decoded enabled first read finished]
      rfl
    | succ more =>
      obtain ⟨rfl, rfl⟩ := List.cons.inj same
      rw [completes, handleWaits decoded enabled first]
      have held : addChunks others (connection.holding mid).emplaced = .ok (List.replicate more false ++ [true]) _ := after
      exact ih later held

theorem freshRecovers (enabled : handler.enabled = true) (fresh : connection.emplaced = {}) : handler.Recovers connection := by
  intro whole result chunks payloads serves sent encoded
  obtain ⟨some_, few, request, read, finished⟩ := serves
  obtain ⟨chunks', frames, more, done, sent', encoded', received, returned, buffer⟩ := wayThrough some_ few
  obtain rfl := Except.ok.inj (sent.symm.trans sent')
  obtain rfl := Except.ok.inj (encoded.symm.trans encoded')
  exact ⟨_, streamHandled enabled received (fresh ▸ returned) (buffer ▸ read) finished, rfl⟩

/- Connections that hold the same, of which one has handled more before. -/
structure Alike (before : List β) (one other : ChunkConnection β) : Prop where
  emplaced : one.emplaced = other.emplaced
  handled : one.handled = before ++ other.handled

theorem Alike.returns {before : List β} {one other one' other' : ChunkConnection β} {payload : Bytes} (left : Alike before one' other')
    (ran : handler.handle payload one = .ok () one') (ranOther : handler.handle payload other = .ok () other') :
    accepted handler.handle one payload = accepted handler.handle other payload ∧
      Alike before (Machine.next handler.handle one payload) (Machine.next handler.handle other payload) := by
  rw [(acceptedOk ran).1, (acceptedOk ranOther).1, (acceptedOk ran).2, (acceptedOk ranOther).2]
  exact ⟨rfl, left⟩

theorem Alike.throws {before : List β} {one other one' other' : ChunkConnection β} {payload : Bytes} {e e' : Error}
    (left : Alike before one' other') (ran : handler.handle payload one = .error e one')
    (ranOther : handler.handle payload other = .error e' other') :
    accepted handler.handle one payload = accepted handler.handle other payload ∧
      Alike before (Machine.next handler.handle one payload) (Machine.next handler.handle other payload) := by
  rw [(rejectedError ran).1, (rejectedError ranOther).1, (rejectedError ran).2, (rejectedError ranOther).2]
  exact ⟨rfl, left⟩

theorem Alike.next {before : List β} {one other : ChunkConnection β} (alike : Alike before one other) (payload : Bytes) :
    accepted handler.handle one payload = accepted handler.handle other payload ∧
      Alike before (Machine.next handler.handle one payload) (Machine.next handler.handle other payload) := by
  cases decoded : decodeBlindsigRequestChunk payload with
  | error e => exact alike.throws (handleUndecoded decoded) (handleUndecoded decoded)
  | ok chunk =>
  cases enabled : handler.enabled with
  | false => exact alike.throws (handleDisabled decoded enabled) (handleDisabled decoded enabled)
  | true =>
  have holding (left : BlindSigChunkAssembler) : Alike before (one.holding left) (other.holding left) := ⟨rfl, alike.handled⟩
  cases added : BlindSigChunkAssembler.addChunk chunk other.emplaced with
  | error e left =>
    have same := alike.emplaced ▸ added
    exact (holding left).throws (handleThrows decoded enabled same) (handleThrows decoded enabled added)
  | ok complete left =>
  have same := alike.emplaced ▸ added
  cases complete with
  | false => exact (holding left).returns (handleWaits decoded enabled same) (handleWaits decoded enabled added)
  | true =>
  cases read : handler.decode left.buffer with
  | error e =>
    exact (holding left).throws (handleUnread decoded enabled same read) (handleUnread decoded enabled added read)
  | ok request =>
  cases finished : handler.finish request with
  | error e =>
    have reset : Alike before one.reset other.reset := ⟨rfl, alike.handled⟩
    exact reset.throws (handleFails decoded enabled same read finished) (handleFails decoded enabled added read finished)
  | ok result =>
    have handed : Alike before (one.reset.hands result) (other.reset.hands result) := by
      refine ⟨rfl, ?_⟩
      show one.handled ++ [result] = before ++ (other.handled ++ [result])
      rw [alike.handled, List.append_assoc]
    exact handed.returns (handleDone decoded enabled same read finished) (handleDone decoded enabled added read finished)

theorem Alike.run {before : List β} {one other : ChunkConnection β} (alike : Alike before one other) (payloads : List Bytes) :
    Alike before (exec handler.handle one payloads) (exec handler.handle other payloads) := by
  induction payloads generalizing one other with
  | nil => exact alike
  | cons payload rest ih => exact ih (alike.next payload).2

theorem freshAsNew (fresh : connection.emplaced = {}) : handler.AsNew connection := by
  have alike : Alike connection.handled connection {} := ⟨fresh, (List.append_nil _).symm⟩
  exact fun later => ⟨(alike.run later).handled, fun payload => ((alike.run later).next payload).1⟩

/-! What a connection with a stream in the way does next. -/

/- Whatever length a stream has declared, a request of another one can be sent. -/
theorem stuck {one other : Bytes} {result result' : β} (serves : handler.Serves one result) (serves' : handler.Serves other result')
    (lengths : one.length ≠ other.length) (blocked : handler.enabled = false ∨ connection.emplaced.started = true) :
    ¬handler.Recovers connection := by
  obtain ⟨whole, result, serves, unlike⟩ : ∃ whole result, handler.Serves whole result ∧
      whole.length ≠ connection.emplaced.expectedTotalLength.toNat := by
    by_cases same : one.length = connection.emplaced.expectedTotalLength.toNat
    · exact ⟨other, result', serves', fun same' => lengths (same.trans same'.symm)⟩
    · exact ⟨one, result, serves, same⟩
  intro recovers
  obtain ⟨chunks, frames, more, done, sent_, encoded, received, returned, buffer⟩ := wayThrough serves.1 serves.2.1
  obtain ⟨left, ran, _⟩ := recovers whole result chunks frames serves sent_ encoded
  obtain ⟨_, _, declared, _, full⟩ := assembled returned (by simp)
  cases frames with
  | nil =>
    rw [List.mapM_nil] at received
    obtain rfl := pure_ok.mp received
    simp only [addChunks, pure_returns] at returned
    exact absurd returned.1.symm (by simp)
  | cons frame rest =>
    rw [List.mapM_cons] at received
    simp only [bind_ok, pure_ok] at received
    obtain ⟨chunk, decoded, others, _, rfl⟩ := received
    have length : chunk.totalLength.toNat = whole.length := by
      rw [declared chunk List.mem_cons_self, ← full, buffer]
    have throws : ∃ e left, handler.handle frame connection = .error e left := by
      cases enabled : handler.enabled with
      | false => exact ⟨_, _, handleDisabled decoded enabled⟩
      | true =>
        have started := blocked.resolve_left (by simp [enabled])
        have refused : ¬connection.emplaced.Opens chunk := fun opens =>
          unlike (length.symm.trans (congrArg UInt32.toNat (opens.stream started).1))
        obtain ⟨e, threw⟩ := addRefuses refused
        exact ⟨_, _, handleThrows decoded enabled threw⟩
    obtain ⟨e, _, threw⟩ := throws
    rw [completes, threw] at ran
    cases ran

end Fresh

/- For a handler that takes requests of two lengths, rejections leave its connections fit exactly when each frame of their
lives is harmless. -/
theorem recovering {one other : Bytes} {result result' : β}
    (serves : handler.Serves one result) (serves' : handler.Serves other result')
    (lengths : one.length ≠ other.length) (payloads : List Bytes) :
    handler.Recovering payloads ↔ Throughout handler.handle handler.Harmless {} payloads := by
  rw [throughoutSplits]
  constructor
  · intro recovering before payload later split
    by_contra harmful
    obtain ⟨rejected, blocked⟩ := harmfulStays harmful
    have fit := (recovering before payload later split rejected).1
    rw [exec_snoc] at fit
    exact stuck serves serves' lengths blocked fit
  · intro harmless before payload later split rejected
    have able := harmless before payload later split
    have fresh := rejectedFresh (settledAlways before) able rejected
    rw [exec_snoc]
    exact ⟨freshRecovers able.1 fresh, freshAsNew fresh⟩

end ChunkHandler

/-! Requests that each handler takes. -/

def plainRequest (pi1Receipt : Bytes) : SessionRequest where
  c := Vector.replicate 512 0
  b := Vector.replicate 512 0
  encA := Vector.replicate 512 0
  encPk := Vector.replicate 512 0
  ct1R := Vector.replicate 512 0
  ct2R := Vector.replicate 512 0
  ct1Mu := Vector.replicate 512 0
  ct2Mu := Vector.replicate 512 0
  issuanceRoomId := Vector.replicate 32 0
  pi1Receipt

theorem plainServed (config : IssuerConfig) (enabled : Bool) (pi1Receipt : Bytes) (short : pi1Receipt.length ≤ 1) :
    ∃ whole result, (handleQ7933BlindsigRequestChunk config enabled).Serves whole result ∧ whole.length = 8233 + pi1Receipt.length := by
  have receipt : ¬(plainRequest pi1Receipt).pi1Receipt.length > maxBlindSigRequestBytes :=
    Nat.not_lt.mpr (short.trans (by decide))
  have free : checkIssuance (plainRequest pi1Receipt) = .ok () := rawFree rfl rfl rfl rfl rfl rfl
  obtain ⟨whole, encoded⟩ := rawEncoded rfl receipt free
  have length : whole.length = 8233 + pi1Receipt.length := by
    rw [encodedLengthIs encoded, SessionRequest.encodedLength]
    show 8 * 1024 + (1 + (32 + (4 + (0 + (4 + pi1Receipt.length))))) = _
    omega
  refine ⟨whole, .submits ⟨(plainRequest pi1Receipt).toAssembledRequest, none⟩ none, ⟨?_, ?_, plainRequest pi1Receipt,
    decodeRequestEncoded encoded, rfl⟩, length⟩
  · omega
  · simp only [maxBlindSigRequestBytes]
    omega

def earlierRequest (pi1Receipt : Bytes) : BlindSigAssembledRequest where
  c := Vector.replicate 512 0
  rho := Vector.replicate 32 0
  encA := Vector.replicate 512 0
  encPk := Vector.replicate 512 0
  ct1R := Vector.replicate 512 0
  ct2R := Vector.replicate 512 0
  ct1Mu := Vector.replicate 512 0
  ct2Mu := Vector.replicate 512 0
  pi1Receipt

theorem earlierDecoded {request : BlindSigAssembledRequest} (short : request.pi1Receipt.length ≤ maxBlindSigRequestBytes) :
    ∃ whole, encodeBlindsigAssembledRequest request = .ok whole ∧ decodeBlindsigAssembledRequest whole = .ok request ∧
      whole.length = 7204 + request.pi1Receipt.length := by
  have field := byteFieldOk (short.trans (by decide))
  have encoded : encodeBlindsigAssembledRequest request = .ok (u16Array request.c ++ (request.rho.toList ++ (u16Array request.encA ++
      (u16Array request.encPk ++ (u16Array request.ct1R ++ (u16Array request.ct2R ++ (u16Array request.ct1Mu ++
      (u16Array request.ct2Mu ++ (bigEndian 4 request.pi1Receipt.length ++ request.pi1Receipt))))))))) := by
    rw [encodeBlindsigAssembledRequest, throwIf_not (Nat.not_lt.mpr short), field]
    rfl
  refine ⟨_, encoded, ?_, ?_⟩
  · suffices reads : Reads readBlindsigAssembledRequest _ request from reads.exhausts.readAll _
    refine (readsU16Array request.c).bind ((Wire.readsFixed _ request.rho).bind ((readsU16Array request.encA).bind ?_))
    refine (readsU16Array request.encPk).bind ((readsU16Array request.ct1R).bind ((readsU16Array request.ct2R).bind ?_))
    refine (readsU16Array request.ct1Mu).bind ((readsU16Array request.ct2Mu).bind ?_)
    exact (readsBytes (by decide) short).returns fun pi1Receipt => { request with pi1Receipt }
  · simp only [List.length_append, u16ArrayLength, Vector.length_toList, Wire.bigEndianLength]
    omega

theorem earlierServed (enabled : Bool) (pi1Receipt : Bytes) (short : pi1Receipt.length ≤ 1) :
    ∃ whole result, (handleBlindsigRequestChunk enabled).Serves whole result ∧ whole.length = 7204 + pi1Receipt.length := by
  have receipt : (earlierRequest pi1Receipt).pi1Receipt.length ≤ maxBlindSigRequestBytes := short.trans (by decide)
  obtain ⟨whole, _, decoded, length⟩ := earlierDecoded receipt
  have same : whole.length = 7204 + pi1Receipt.length := length
  refine ⟨whole, earlierRequest pi1Receipt, ⟨?_, ?_, earlierRequest pi1Receipt, decoded, rfl⟩, same⟩
  · omega
  · simp only [maxBlindSigRequestBytes]
    omega

/- The connections of either signer stay fit for the next request through exactly the lives in which every frame goes on
with the stream that there is, or is refused while there is none. -/
theorem chunkStreamRecovers (config : IssuerConfig) (enabled : Bool) (payloads : List Bytes) :
    ((handleQ7933BlindsigRequestChunk config enabled).Recovering payloads ↔
      Throughout (handleQ7933BlindsigRequestChunk config enabled).handle (handleQ7933BlindsigRequestChunk config enabled).Harmless
        {} payloads) ∧
    ((handleBlindsigRequestChunk enabled).Recovering payloads ↔
      Throughout (handleBlindsigRequestChunk enabled).handle (handleBlindsigRequestChunk enabled).Harmless {} payloads) := by
  obtain ⟨_, _, serves, length⟩ := plainServed config enabled [] (Nat.zero_le 1)
  obtain ⟨_, _, serves', length'⟩ := plainServed config enabled [0] (Nat.le_refl 1)
  obtain ⟨_, _, earlier, extent⟩ := earlierServed enabled [] (Nat.zero_le 1)
  obtain ⟨_, _, earlier', extent'⟩ := earlierServed enabled [0] (Nat.le_refl 1)
  constructor
  · exact ChunkHandler.recovering _ serves serves' (by rw [length, length']; decide) payloads
  · exact ChunkHandler.recovering _ earlier earlier' (by rw [extent, extent']; decide) payloads

/- A chunk with the index 1 opens the stream that it is not the first chunk of. -/
def outOfOrder : Bytes := [0, 0, 0, 1, 0, 0, 0, 1, 0, 0, 0, 2, 0, 0, 0, 0]

theorem outOfOrderHarmful {α β : Type} (handler : ChunkHandler α β) :
    ¬Throughout handler.handle handler.Harmless {} [outOfOrder] := by
  have decoded : decodeBlindsigRequestChunk outOfOrder = .ok ⟨1, 1, 2, []⟩ := rfl
  have opens : BlindSigChunkAssembler.Opens {} ⟨1, 1, 2, []⟩ :=
    ⟨rfl, by decide, by decide, fun never => (by cases never)⟩
  intro harmless
  obtain ⟨_, ⟨chunk, same, continues, _⟩ | ⟨_, refused⟩⟩ := harmless.1
  · obtain rfl := Except.ok.inj (decoded.symm.trans same)
    have never : (1 : UInt32) = 0 := continues.next
    exact absurd never (by decide)
  · exact refused _ decoded opens

theorem outOfOrderStuck : ¬(handleBlindsigRequestChunk true).Recovering [outOfOrder] ∧
    ∀ config, ¬(handleQ7933BlindsigRequestChunk config true).Recovering [outOfOrder] := by
  obtain ⟨_, _, earlier, extent⟩ := earlierServed true [] (Nat.zero_le 1)
  obtain ⟨_, _, earlier', extent'⟩ := earlierServed true [0] (Nat.le_refl 1)
  refine ⟨fun fit => ?_, fun config fit => ?_⟩
  · exact outOfOrderHarmful _ ((ChunkHandler.recovering _ earlier earlier' (by rw [extent, extent']; decide) _).mp fit)
  · obtain ⟨_, _, serves, length⟩ := plainServed config true [] (Nat.zero_le 1)
    obtain ⟨_, _, serves', length'⟩ := plainServed config true [0] (Nat.le_refl 1)
    exact outOfOrderHarmful _ ((ChunkHandler.recovering _ serves serves' (by rw [length, length']; decide) _).mp fit)

end TradeP2P.Credential
