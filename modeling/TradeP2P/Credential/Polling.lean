import TradeP2P.Credential.Signer
import TradeP2P.Blind.Completeness

/-! The way of a signature to its client. The operator signs a ticket, a client polls for it: the
response goes to the queue of the connection, the file is removed, and later the queue is sent.
Workers, the operator and the connections take their steps in any order; a connection may end and
the process may restart at any of them. -/
namespace TradeP2P.Credential
open Wire (Bytes)
open Checks
open Prover (ints q7933PolyToI16Array)

namespace Polling

def maxQueuedFrames : Nat := 128

inductive Frame where
  | response (response : BlindSigResponse)
  | error (reason : String)
  | other (payload : Bytes)
  deriving DecidableEq, Repr

/- A frame on its way. The ticket whose signature it carries is not on the wire; it stands here for what
is said about it. -/
structure QueuedFrame where
  frame : Frame
  ticketId : Option TicketId := none
  deriving DecidableEq, Repr

/- Where the thread of a connection is. -/
inductive Phase where
  | closed
  | serving
  | polling (id : TicketId)
  | answering (response : BlindSigResponse) (collects : Option TicketId)
  | refusing (reason : String)
  | removing (id : TicketId)
  | flushing
  deriving DecidableEq, Repr

structure Client where
  phase : Phase := .closed
  alive : Bool := true
  outgoing : List QueuedFrame := []
  sending : List QueuedFrame := []
  badMessages : Nat := 0

def Client.enqueue (client : Client) (queued : QueuedFrame) : Client :=
  if !client.alive then client
  else if client.outgoing.length ≥ maxQueuedFrames then { client with alive := false }
  else { client with outgoing := client.outgoing ++ [queued] }

def Client.takeOutgoing (client : Client) : Client := { client with outgoing := [], sending := client.outgoing }

/- A third bad message ends the session. -/
def Client.sendError (client : Client) (reason : String) : Client :=
  let sent := { client with badMessages := client.badMessages + 1 }.enqueue ⟨.error reason, none⟩
  { sent with alive := sent.alive && sent.badMessages < 3 }

def signedResponse (signature : Signature) : Except Error BlindSigResponse := do
  let s0 ← q7933PolyToI16Array (ints signature.s0) "q7933 signature s0"
  let s1 ← q7933PolyToI16Array (ints signature.s1) "q7933 signature s1"
  return { status := .ok, s0, s1 }

/- What a poll is answered, and the ticket that is collected with the answer. -/
def handleTicketPoll (tickets : Tickets) (id : TicketId) : Except TicketStoreError (BlindSigResponse × Option TicketId) := do
  match ← find tickets id with
  | none => return ({ status := .error, reason := "unknown or expired ticket" }, none)
  | some ticket =>
      if ticket.status = .pending then return ({ status := .pending, ticketId := ticket.ticketId }, none)
      else match ticket.signature with
        | none => throw (.other (.logicError "signed q7933 ticket missing signature payload"))
        | some signature =>
            let response ← (signedResponse signature).mapError .other
            return (response, some ticket.ticketId)

structure Config where
  signer : Signer.Config
  t : Blns7933.PolyQ

/- What `verify_target` says of a signature that `sign_target` has just made. -/
def verified (config : Config) (c : PolyQ) (signature : Signature) : Bool :=
  match Blns7933.signerVerifyTarget Blns7933.productionRing ⟨config.t⟩ (ints c) ⟨ints signature.s0, ints signature.s1⟩
      Blns7933.productionNormBoundSquared with
  | .ok accepted => accepted
  | .error _ => false

inductive Event (κ : Type) where
  | signed (id : TicketId) (signature : Signature)
  | sent (client : κ) (queued : QueuedFrame)
  | removed (id : TicketId)
  deriving DecidableEq, Repr

structure State (ω κ : Type) where
  signer : Signer.State ω
  operator : Option (TicketId × Ticket) := none
  clients : κ → Client := fun _ => {}
  history : List (Event κ) := []

inductive Action (ω κ : Type) where
  | worker (action : Signer.Action ω)
  | trySign (id : TicketId)
  | markSigned (signature : Signature)
  | signFails
  | connect (client : κ)
  | notify (client : κ) (payload : Bytes)
  | poll (client : κ) (id : TicketId)
  | lookUp (client : κ)
  | answer (client : κ)
  | refuse (client : κ)
  | remove (client : κ)
  | removeFails (client : κ)
  | flush (client : κ)
  | send (client : κ)
  | flushed (client : κ)
  | close (client : κ)
  | restart

/- The directory of tickets belongs to the operator and the connections here. -/
def ofWorkers {ω : Type} : Signer.Action ω → Bool
  | .sign _ _ | .collect _ | .crash => false
  | _ => true

def afterAnswer : Option TicketId → Phase
  | none => .serving
  | some id => .removing id

variable {ω κ : Type} [DecidableEq ω] [DecidableEq κ]

def State.put (s : State ω κ) (k : κ) (client : Client) : State ω κ := { s with clients := Function.update s.clients k client }
def State.remembers (s : State ω κ) (event : Event κ) : State ω κ := { s with history := event :: s.history }
def State.store (s : State ω κ) (tickets : Tickets) : State ω κ := { s with signer := { s.signer with tickets } }

def step (config : Config) (s : State ω κ) : Action ω κ → Option (State ω κ)
  | .worker action =>
      if ofWorkers action then (Signer.step config.signer s.signer action).map fun signer => { s with signer } else none
  | .trySign id =>
      match s.operator, find s.signer.tickets id with
      | some _, _ => none
      | none, .ok (some ticket) => if ticket.status = .pending then some { s with operator := some (id, ticket) } else some s
      | none, _ => some s
  | .markSigned signature =>
      match s.operator with
      | none => none
      | some (id, ticket) =>
          -- `sign_target` makes polynomials of the ring's degree.
          if signature.s0.length = ringDegree ∧ signature.s1.length = ringDegree then
            if verified config ticket.c signature then
              match markSigned s.signer.tickets id signature with
              | .ok tickets => some (({ s with operator := none }.store tickets).remembers (.signed id signature))
              | .error _ => some { s with operator := none }
            else some { s with operator := none }
          else none
  | .signFails => some { s with operator := none }
  | .connect k =>
      match (s.clients k).phase with
      | .closed => some (s.put k { phase := .serving })
      | _ => none
  | .notify k payload =>
      match (s.clients k).phase with
      | .closed => none
      | _ => some (s.put k ((s.clients k).enqueue ⟨.other payload, none⟩))
  | .poll k id =>
      match (s.clients k).phase with
      | .serving => some (s.put k { s.clients k with phase := .polling id })
      | _ => none
  | .lookUp k =>
      match (s.clients k).phase with
      | .polling id =>
          match handleTicketPoll s.signer.tickets id with
          | .ok (response, collects) => some (s.put k { s.clients k with phase := .answering response collects })
          | .error error => some (s.put k { s.clients k with phase := .refusing error.text })
      | _ => none
  | .answer k =>
      match (s.clients k).phase with
      | .answering response collects =>
          some (s.put k { (s.clients k).enqueue ⟨.response response, collects⟩ with phase := afterAnswer collects })
      | _ => none
  | .refuse k =>
      match (s.clients k).phase with
      | .refusing reason => some (s.put k { (s.clients k).sendError reason with phase := .serving })
      | _ => none
  | .remove k =>
      match (s.clients k).phase with
      | .removing id =>
          some (((s.put k { s.clients k with phase := .serving }).store (remove s.signer.tickets id)).remembers (.removed id))
      | _ => none
  | .removeFails k =>
      match (s.clients k).phase with
      | .removing _ => some (s.put k { s.clients k with phase := .serving })
      | _ => none
  | .flush k =>
      match (s.clients k).phase, (s.clients k).sending with
      | .serving, [] => some (s.put k { (s.clients k).takeOutgoing with phase := .flushing })
      | _, _ => none
  | .send k =>
      match (s.clients k).phase, (s.clients k).sending with
      | .flushing, queued :: rest => some ((s.put k { s.clients k with sending := rest }).remembers (.sent k queued))
      | _, _ => none
  | .flushed k =>
      match (s.clients k).phase, (s.clients k).sending with
      | .flushing, [] => some (s.put k { s.clients k with phase := .serving })
      | _, _ => none
  -- The peer hangs up, or a frame cannot be received or sent: what is queued goes with the connection.
  | .close k =>
      match (s.clients k).phase with
      | .serving | .flushing => some (s.put k {})
      | _ => none
  | .restart => (Signer.step config.signer s.signer .crash).map fun signer => { signer, history := s.history }

def run (config : Config) (s : State ω κ) : List (Action ω κ) → Option (State ω κ)
  | [] => some s
  | action :: rest => do
      let t ← step config s action
      run config t rest

def start (ω κ : Type) : State ω κ := { signer := { tickets := [] } }

/-! What is promised of a signature, and when it is kept. -/

def Client.waiting (client : Client) : List QueuedFrame := client.sending ++ client.outgoing

/- The frame that hands a signature over was sent, or waits on an open connection. -/
def HandedOver (s : State ω κ) (id : TicketId) (signature : Signature) : Prop :=
  ∃ response, signedResponse signature = .ok response ∧
    ∃ k, .sent k ⟨.response response, some id⟩ ∈ s.history ∨ ⟨.response response, some id⟩ ∈ (s.clients k).waiting

/- A poll of any connection that can take a frame puts the signature on its queue. -/
def Retrievable (config : Config) (s : State ω κ) (id : TicketId) (signature : Signature) : Prop :=
  ∃ response, signedResponse signature = .ok response ∧
    ∀ k, (s.clients k).phase = .serving → (s.clients k).alive = true → (s.clients k).outgoing.length < maxQueuedFrames →
      ∃ t, run config s [.poll k id, .lookUp k, .answer k] = some t ∧
        ⟨.response response, some id⟩ ∈ (t.clients k).outgoing

/- No signature is lost. -/
structure Kept (config : Config) (s : State ω κ) : Prop where
  retrievable : ∀ id signature, .signed id signature ∈ s.history → ¬HandedOver s id signature →
    (∃ ticket, find s.signer.tickets id = .ok (some ticket) ∧ ticket.status = .signed ∧ ticket.signature = some signature) ∧
      Retrievable config s id signature
  stored : ∀ claim id, .ticketed claim id ∈ s.signer.history → .removed id ∉ s.history →
    ∃ ticket, find s.signer.tickets id = .ok (some ticket) ∧ ticket.ticketId = id
  handedOver : ∀ id, .removed id ∈ s.history → ∃ signature, .signed id signature ∈ s.history ∧ HandedOver s id signature
  gone : ∀ id, .removed id ∈ s.history → find s.signer.tickets id = .ok none

/- What the connection's end takes with it: a signature whose file is gone. -/
def loses (s : State ω κ) (k : κ) : Prop :=
  ∃ queued ∈ (s.clients k).waiting, ∃ id, queued.ticketId = some id ∧ Directory.read s.signer.tickets (ticketPath id) = none

/- The steps that lose nothing: a signature finds its queue open, and no connection ends, and the
process does not restart, while a collected signature waits unsent. -/
def Careful (s : State ω κ) : Action ω κ → Prop
  | .answer k => ∀ response id, (s.clients k).phase = .answering response (some id) →
      (s.clients k).alive = true ∧ (s.clients k).outgoing.length < maxQueuedFrames
  | .close k => ¬loses s k
  | .restart => ∀ k, ¬loses s k
  | _ => True

def CarefulRun (config : Config) : State ω κ → List (Action ω κ) → Prop
  | _, [] => True
  | s, action :: rest => Careful s action ∧ ∀ t, step config s action = some t → CarefulRun config t rest

/- The ids drawn in a run, in their order. -/
def drawn : List (Action ω κ) → List TicketId
  | [] => []
  | .worker (.draw _ id _) :: rest => id :: drawn rest
  | _ :: rest => drawn rest

/-! What a worker does to the files. -/
section Workers
variable {config : Signer.Config} {s t : Signer.State ω} {action : Signer.Action ω}

inductive Filed (s t : Signer.State ω) (action : Signer.Action ω) : Prop where
  | quiet (tickets : t.tickets = s.tickets)
      (placing : ∀ worker claim ticket, t.workers worker = .placing claim ticket → s.workers worker = .placing claim ticket)
      (history : ∀ claim id, .ticketed claim id ∈ t.history → .ticketed claim id ∈ s.history)
  | drew (worker : ω) (id : TicketId) (now : UInt64) (claim : Option IssuanceContext) (c : Vector UInt16 512)
      (draws : action = .draw worker id now) (absent : Directory.read s.tickets (ticketPath id) = none)
      (same : t = s.goes worker (.placing claim { ticketId := id, c := arrayToPoly c, receivedAtUnixSeconds := now }))
  | placed (worker : ω) (claim : Option IssuanceContext) (ticket : Ticket) (bytes : Bytes) (response : BlindSigResponse)
      (was : s.workers worker = .placing claim ticket) (encoded : ticket.encode = .ok bytes)
      (same : t = ({ s with tickets := Directory.replace s.tickets (ticketPath ticket.ticketId) bytes }.goes worker
        (.replying response)).remembers (.ticketed claim ticket.ticketId))

def isPlacing : Signer.Phase → Bool
  | .placing _ _ => true
  | _ => false

/- A worker that goes on, and neither comes to a place nor leaves one with a ticket. -/
theorem Filed.going {phase : Signer.Phase} (worker : ω) (elsewhere : isPlacing phase = false)
    (tickets : t.tickets = s.tickets) (workers : t.workers = Function.update s.workers worker phase)
    (history : ∀ claim id, .ticketed claim id ∈ t.history → .ticketed claim id ∈ s.history) : Filed s t action := by
  refine .quiet tickets (fun other claim ticket placing => ?_) history
  rw [workers, Function.update_apply] at placing
  split at placing
  · rw [placing] at elsewhere
    cases elsewhere
  · exact placing

theorem verificationElsewhere (job : Job) (outcome : Sidecar) : isPlacing (Signer.afterVerification job outcome) = false := by
  unfold Signer.afterVerification
  repeat' split
  all_goals rfl

theorem workerFiles (own : ofWorkers action = true) (ran : Signer.step config s action = some t) : Filed s t action := by
  have kept {r : Signer.State ω} {event : Signer.Event} (quiet : ∀ claim id, event ≠ .ticketed claim id) (claim : Option IssuanceContext)
      (id : TicketId) (mem : .ticketed claim id ∈ (r.remembers event).history) : .ticketed claim id ∈ r.history := by
    rcases List.mem_cons.mp mem with same | older
    · exact absurd same.symm (quiet claim id)
    · exact older
  cases action with
  | submit job =>
      simp only [Signer.step] at ran
      split at ran <;> cases ran
      · exact .quiet rfl (fun _ _ _ placing => placing) (kept fun _ _ => by simp)
      · exact .quiet rfl (fun _ _ _ placing => placing) fun _ _ mem => mem
  | take worker =>
      simp only [Signer.step] at ran
      split at ran <;> cases ran
      exact .going worker rfl rfl rfl fun _ _ mem => mem
  | check worker =>
      simp only [Signer.step] at ran
      split at ran <;> try contradiction
      split at ran <;> cases ran <;> exact .going worker rfl rfl rfl fun _ _ mem => mem
  | verify worker outcome =>
      simp only [Signer.step] at ran
      split at ran <;> try contradiction
      split at ran <;> cases ran
      exact .going worker (verificationElsewhere _ outcome) rfl rfl fun _ _ mem => mem
  | claim worker =>
      simp only [Signer.step] at ran
      split at ran <;> try contradiction
      split at ran <;> cases ran
      · exact .going worker rfl rfl rfl fun _ _ mem => mem
      · exact .going worker rfl rfl rfl (kept fun _ _ => by simp)
  | claimFails worker text | inspect worker | writeFails worker text =>
      simp only [Signer.step] at ran
      split at ran <;> cases ran
      exact .going worker rfl rfl rfl fun _ _ mem => mem
  | write worker count | close worker =>
      simp only [Signer.step] at ran
      split at ran <;> try contradiction
      split at ran <;> cases ran
      exact .going worker rfl rfl rfl fun _ _ mem => mem
  | count worker =>
      simp only [Signer.step] at ran
      split at ran <;> try contradiction
      split at ran <;> cases ran <;> exact .going worker rfl rfl rfl fun _ _ mem => mem
  | draw worker id now =>
      simp only [Signer.step] at ran
      split at ran <;> try contradiction
      rename_i job claim attempt phase
      split at ran
      · rename_i absent
        cases ran
        exact .drew worker id now claim job.request.c rfl absent rfl
      · split at ran <;> cases ran <;> exact .going worker rfl rfl rfl fun _ _ mem => mem
  | place worker =>
      simp only [Signer.step] at ran
      split at ran <;> try contradiction
      rename_i claim ticket phase
      split at ran <;> cases ran
      · exact .going worker rfl rfl rfl fun _ _ mem => mem
      · rename_i bytes encoded
        exact .placed worker claim ticket bytes _ phase encoded rfl
  | createFails worker text =>
      simp only [Signer.step] at ran
      split at ran <;> cases ran <;> exact .going worker rfl rfl rfl fun _ _ mem => mem
  | rollback worker =>
      simp only [Signer.step] at ran
      split at ran <;> cases ran
      · exact .going worker rfl rfl rfl fun _ _ mem => mem
      · exact .going worker rfl rfl rfl (kept fun _ _ => by simp)
  | reply worker =>
      simp only [Signer.step] at ran
      split at ran <;> cases ran
      exact .going worker rfl rfl rfl (kept fun _ _ => by simp)
  | sign | collect | crash => cases own

end Workers

/-! A queue. -/
section Queues
variable {client : Client} {queued other : QueuedFrame}

theorem enqueueKeeps : other ∈ client.outgoing → other ∈ (client.enqueue queued).outgoing := by
  intro there
  unfold Client.enqueue
  split
  · exact there
  · split
    · exact there
    · exact List.mem_append_left _ there

theorem enqueueAdds : other ∈ (client.enqueue queued).outgoing → other ∈ client.outgoing ∨ other = queued := by
  intro there
  unfold Client.enqueue at there
  split at there
  · exact .inl there
  · split at there
    · exact .inl there
    · rcases List.mem_append.mp there with before | here
      · exact .inl before
      · exact .inr (List.mem_singleton.mp here)

theorem enqueueTakes (open_ : client.alive = true) (room : client.outgoing.length < maxQueuedFrames) :
    queued ∈ (client.enqueue queued).outgoing := by
  simp [Client.enqueue, open_, Nat.not_le.mpr room]

@[simp] theorem enqueueSending : (client.enqueue queued).sending = client.sending := by
  unfold Client.enqueue
  split
  · rfl
  · split <;> rfl

@[simp] theorem enqueuePhase : (client.enqueue queued).phase = client.phase := by
  unfold Client.enqueue
  split
  · rfl
  · split <;> rfl

@[simp] theorem memWaiting : other ∈ client.waiting ↔ other ∈ client.sending ∨ other ∈ client.outgoing := List.mem_append

end Queues

/-! The life of one id, from its draw to the collected signature. An id whose worker fails or dies is lost. -/

inductive Standing (ω : Type) where
  | unused
  | drawn (worker : ω)
  | lost
  | stored (ticket : Ticket)
  | collected (signature : Signature)

def Standing.file : Standing ω → Option Ticket
  | .stored ticket => some ticket
  | _ => none

def Standing.signature : Standing ω → Option Signature
  | .stored ticket => ticket.signature
  | .collected signature => some signature
  | _ => none

structure Holds (tickets : Tickets) (id : TicketId) (ticket : Ticket) : Prop where
  fine : ticket.WellFormed
  own : ticket.ticketId = id
  written : ∃ bytes, ticket.encode = .ok bytes ∧ Directory.read tickets (ticketPath id) = some bytes

structure Stands (s : State ω κ) (used : List TicketId) (id : TicketId) (standing : Standing ω) : Prop where
  used : standing ≠ .unused → id ∈ used
  placing : ∀ worker claim ticket, s.signer.workers worker = .placing claim ticket → ticket.ticketId = id →
    standing = .drawn worker ∧ ticket.WellFormed ∧ ticket.status = .pending
  absent : standing.file = none → Directory.read s.signer.tickets (ticketPath id) = none
  stored : ∀ ticket, standing = .stored ticket → Holds s.signer.tickets id ticket
  signed : ∀ signature, .signed id signature ∈ s.history ↔ standing.signature = some signature
  removed : .removed id ∈ s.history ↔ ∃ signature, standing = .collected signature
  ticketed : ∀ claim, .ticketed claim id ∈ s.signer.history → standing.file.isSome ∨ standing.signature.isSome
  deliverable : ∀ signature, standing.signature = some signature → ∃ response, signedResponse signature = .ok response
  handed : ∀ signature, standing = .collected signature → HandedOver s id signature

/- What a connection carries, it carries for a signed ticket; and it removes none that it does not carry. -/
structure Carries (history : List (Event κ)) (client : Client) : Prop where
  waits : ∀ queued ∈ client.waiting, ∀ id, queued.ticketId = some id → ∃ signature response, .signed id signature ∈ history ∧
    signedResponse signature = .ok response ∧ queued.frame = .response response
  answering : ∀ response id, client.phase = .answering response (some id) → ∃ signature, .signed id signature ∈ history ∧
    signedResponse signature = .ok response
  removing : ∀ id, client.phase = .removing id → ∃ queued ∈ client.outgoing, queued.ticketId = some id
  closed : client.phase = .closed → client.waiting = []

structure Sound (s : State ω κ) (used : List TicketId) : Prop where
  stands : ∀ id, ∃ standing, Stands s used id standing
  carries : ∀ k, Carries s.history (s.clients k)

section Lives
variable {config : Config} {s t : State ω κ} {used : List TicketId} {id : TicketId} {standing : Standing ω} {k : κ}

theorem Holds.found {tickets : Tickets} {ticket : Ticket} (holds : Holds tickets id ticket) :
    find tickets id = .ok (some ticket) := by
  obtain ⟨bytes, encoded, there⟩ := holds.written
  exact findWritten holds.fine encoded there

theorem findAbsent {tickets : Tickets} (absent : Directory.read tickets (ticketPath id) = none) : find tickets id = .ok none := by
  rw [find, absent]

theorem Carries.grows {history more : List (Event κ)} {client : Client} (carries : Carries history client)
    (subset : ∀ event ∈ history, event ∈ more) : Carries more client where
  waits queued mem id own := by
    obtain ⟨signature, response, signed, rest⟩ := carries.waits queued mem id own
    exact ⟨signature, response, subset _ signed, rest⟩
  answering response id phase := by
    obtain ⟨signature, signed, rest⟩ := carries.answering response id phase
    exact ⟨signature, subset _ signed, rest⟩
  removing := carries.removing
  closed := carries.closed

/- A connection that only changes its phase, to one that neither answers nor removes. -/
theorem Carries.turns {history : List (Event κ)} {client other : Client} (carries : Carries history client)
    (waiting : ∀ queued ∈ other.waiting, queued ∈ client.waiting ∨ queued.ticketId = none)
    (answering : ∀ response id, other.phase ≠ .answering response (some id)) (removing : ∀ id, other.phase ≠ .removing id)
    (closed : other.phase = .closed → other.waiting = []) : Carries history other where
  waits queued mem id own := by
    rcases waiting queued mem with before | nothing
    · exact carries.waits queued before id own
    · rw [nothing] at own
      cases own
  answering response id phase := absurd phase (answering response id)
  removing id phase := absurd phase (removing id)
  closed := closed

/- One connection moves on: nothing that hands over a collected signature is dropped. -/
theorem Sound.serves {client : Client} {events : List (Event κ)} (sound : Sound s used)
    (sends : ∀ event ∈ events, ∃ queued, event = .sent k queued)
    (keeps : ∀ queued ∈ (s.clients k).waiting, queued ∈ client.waiting ∨ .sent k queued ∈ events ∨
      ∀ id, queued.ticketId = some id → Directory.read s.signer.tickets (ticketPath id) ≠ none)
    (carries : Carries s.history client) : Sound { s.put k client with history := events ++ s.history } used where
  stands id := by
    obtain ⟨standing, stands⟩ := sound.stands id
    have silent (event : Event κ) (other : ∀ queued, event ≠ .sent k queued) : event ∈ events ++ s.history ↔ event ∈ s.history := by
      rw [List.mem_append, or_iff_right]
      intro mem
      obtain ⟨queued, same⟩ := sends event mem
      exact other queued same
    refine ⟨standing, stands.used, stands.placing, stands.absent, stands.stored, fun signature => ?_, ?_, stands.ticketed,
      stands.deliverable, fun signature collected => ?_⟩
    · rw [silent _ fun _ => by simp]
      exact stands.signed signature
    · rw [silent _ fun _ => by simp]
      exact stands.removed
    · obtain ⟨response, made, holder, handed⟩ := stands.handed signature collected
      have absent := stands.absent (by rw [collected]; rfl)
      refine ⟨response, made, holder, ?_⟩
      rcases handed with sent | waiting
      · exact .inl (List.mem_append_right _ sent)
      · by_cases here : holder = k
        · subst here
          rcases keeps _ waiting with stays | sent | there
          · exact .inr (by simpa [State.put] using stays)
          · exact .inl (List.mem_append_left _ sent)
          · exact absurd absent (there id rfl)
        · exact .inr (by simpa [State.put, here] using waiting)
  carries other := by
    have grown : ∀ event ∈ s.history, event ∈ events ++ s.history := fun event mem => List.mem_append_right _ mem
    by_cases here : other = k
    · subst here
      simpa [State.put] using carries.grows grown
    · simpa [State.put, here] using (sound.carries other).grows grown

/- The workers: an id is drawn once, placed by the worker that drew it, and lost when that worker fails. -/
theorem Sound.works {action : Signer.Action ω} {signer : Signer.State ω} (sound : Sound s used) (own : ofWorkers action = true)
    (ran : Signer.step config.signer s.signer action = some signer)
    (fresh : ∀ worker id now, action = .draw worker id now → id ∉ used) :
    Sound { s with signer } (used ++ drawn [(.worker action : Action ω κ)]) where
  carries := sound.carries
  stands id := by
    obtain ⟨standing, stands⟩ := sound.stands id
    have wider : standing ≠ .unused → id ∈ used ++ drawn [(.worker action : Action ω κ)] := fun known =>
      List.mem_append_left _ (stands.used known)
    cases workerFiles own ran with
    | quiet tickets placing history =>
        refine ⟨standing, wider, fun worker claim ticket at_ => stands.placing worker claim ticket (placing worker claim ticket at_),
          ?_, ?_, stands.signed, stands.removed, fun claim mem => stands.ticketed claim (history claim id mem), stands.deliverable,
          stands.handed⟩
        · simpa only [tickets] using stands.absent
        · simpa only [tickets] using stands.stored
    | drew worker drawnId now claim c draws absent same =>
        subst same draws
        by_cases this : drawnId = id
        · subst this
          have unused : standing = .unused := by
            by_contra known
            exact fresh worker drawnId now rfl (stands.used known)
          subst unused
          refine ⟨.drawn worker, fun _ => by simp [drawn], fun someone claim' ticket at_ same => ?_, fun _ => absent,
            fun _ stored => (by cases stored), stands.signed, ?_, stands.ticketed, fun _ made => (by cases made),
            fun _ collected => (by cases collected)⟩
          · rw [Signer.goesWorkers] at at_
            split at at_
            · rename_i here
              cases at_
              exact ⟨by rw [here], ⟨Signer.arrayToPolyDegree c, fun _ => rfl, fun signed => (by cases signed)⟩, rfl⟩
            · obtain ⟨known, _⟩ := stands.placing someone claim' ticket at_ same
              cases known
          · rw [stands.removed]
            simp
        · refine ⟨standing, wider, fun someone claim' ticket at_ same => ?_, stands.absent, stands.stored, stands.signed, stands.removed,
            stands.ticketed, stands.deliverable, stands.handed⟩
          rw [Signer.goesWorkers] at at_
          split at at_
          · cases at_
            exact absurd same this
          · exact stands.placing someone claim' ticket at_ same
    | placed worker claim ticket bytes response was encoded same =>
        subst same
        by_cases this : ticket.ticketId = id
        · obtain ⟨known, fine, pending⟩ := stands.placing worker claim ticket was this
          subst known this
          have unsigned := fine.pending pending
          refine ⟨.stored ticket, fun _ => wider (by simp), fun someone claim' other at_ same => ?_, fun none => (by cases none),
            fun _ stored => ?_, fun signature => ?_, ?_, fun _ _ => .inl rfl, fun signature made => ?_, fun _ collected => by cases collected⟩
          · rw [Signer.State.remembers, Signer.goesWorkers] at at_
            split at at_
            · cases at_
            · rename_i away
              obtain ⟨known, _⟩ := stands.placing someone claim' other at_ same
              exact absurd (Standing.drawn.inj known).symm away
          · cases stored
            exact ⟨fine, rfl, bytes, encoded, Directory.readReplaced⟩
          · simp only [stands.signed, Standing.signature, unsigned]
          · rw [stands.removed]
            simp
          · rw [Standing.signature, unsigned] at made
            cases made
        · have apart : ticketPath id ≠ ticketPath ticket.ticketId := fun same => this (ticketPathInj same).symm
          have elsewhere : Directory.read (Directory.replace s.signer.tickets (ticketPath ticket.ticketId) bytes) (ticketPath id) =
              Directory.read s.signer.tickets (ticketPath id) := Directory.readReplacedOther apart
          refine ⟨standing, wider, fun someone claim' other at_ same => ?_, fun none => elsewhere.trans (stands.absent none),
            fun stored there => ?_, stands.signed, stands.removed, fun claim' mem => ?_, stands.deliverable, stands.handed⟩
          · rw [Signer.State.remembers, Signer.goesWorkers] at at_
            split at at_
            · cases at_
            · exact stands.placing someone claim' other at_ same
          · obtain ⟨fine, own, bytes', encoded', read⟩ := stands.stored stored there
            exact ⟨fine, own, bytes', encoded', elsewhere.trans read⟩
          · rcases List.mem_cons.mp mem with now | before
            · cases now
              exact absurd rfl this
            · exact stands.ticketed claim' before

/- What has been verified fits the wire. -/
theorem verifiedDelivers {c : PolyQ} {signature : Signature} (width0 : signature.s0.length = ringDegree)
    (width1 : signature.s1.length = ringDegree) (accepted : verified config c signature = true) :
    ∃ response, signedResponse signature = .ok response := by
  have checked : Blns7933.signerVerifyTarget Blns7933.productionRing ⟨config.t⟩ (ints c) ⟨ints signature.s0, ints signature.s1⟩
      Blns7933.productionNormBoundSquared = .ok true := by
    unfold verified at accepted
    split at accepted
    · rename_i outcome
      rw [outcome, accepted]
    · cases accepted
  simp only [Blns7933.signerVerifyTarget, check_ok] at checked
  obtain ⟨small0, small1⟩ := Prover.coefficientsSmall (Prover.verifiedMeaning checked.2).1
  have width {v : PolyQ} (same : v.length = ringDegree) : (ints v).length = 512 := by
    rw [ints, List.length_map, same]
    rfl
  obtain ⟨s0, converted0, _⟩ := Prover.i16Converts "q7933 signature s0" (width width0) small0
  obtain ⟨s1, converted1, _⟩ := Prover.i16Converts "q7933 signature s1" (width width1) small1
  refine ⟨{ status := .ok, s0, s1 }, ?_⟩
  rw [signedResponse, converted0]
  dsimp only [bind, Except.bind]
  rw [converted1]
  rfl

theorem HandedOver.grows {signature : Signature} (handed : HandedOver s id signature)
    (waiting : ∀ k, (t.clients k).waiting = (s.clients k).waiting) (history : ∀ event ∈ s.history, event ∈ t.history) :
    HandedOver t id signature := by
  obtain ⟨response, made, holder, here⟩ := handed
  refine ⟨response, made, holder, ?_⟩
  rw [waiting]
  rcases here with sent | waiting
  · exact .inl (history _ sent)
  · exact .inr waiting

theorem Stands.found {ticket : Ticket} (stands : Stands s used id standing) (found : find s.signer.tickets id = .ok (some ticket)) :
    standing = .stored ticket ∧ Holds s.signer.tickets id ticket := by
  cases file : standing.file with
  | none =>
      rw [findAbsent (stands.absent file)] at found
      cases found
  | some stored =>
      cases standing with
      | stored there =>
          have holds := stands.stored there rfl
          rw [holds.found] at found
          cases found
          exact ⟨rfl, holds⟩
      | unused | drawn _ | lost | collected _ => cases file

theorem Sound.signs {ticketId : TicketId} {signature : Signature} {c : PolyQ} {tickets : Tickets} (sound : Sound s used)
    (width0 : signature.s0.length = ringDegree) (width1 : signature.s1.length = ringDegree)
    (accepted : verified config c signature = true) (marked : markSigned s.signer.tickets ticketId signature = .ok tickets) :
    Sound (({ s with operator := none }.store tickets).remembers (.signed ticketId signature)) used where
  carries k := (sound.carries k).grows fun event mem => List.mem_cons_of_mem _ mem
  stands id := by
    obtain ⟨standing, stands⟩ := sound.stands id
    unfold markSigned at marked
    obtain ⟨found, lookedUp, marked⟩ := bind_ok.mp marked
    cases found with
    | none => cases marked
    | some ticket =>
        obtain ⟨checked, marked⟩ := check_ok.mp marked
        obtain ⟨bytes, encoded, marked⟩ := bind_ok.mp marked
        have pending := not_not.mp (throwIf_ok.mp checked)
        obtain rfl := pure_ok.mp marked
        by_cases this : ticketId = id
        · subst this
          obtain ⟨rfl, holds⟩ := stands.found lookedUp
          have unsigned := holds.fine.pending pending
          have stored : Holds (Directory.replace s.signer.tickets (ticketPath ticketId) bytes) ticketId
              { ticket with status := .signed, signature := some signature } :=
            ⟨⟨holds.fine.c, fun other => (by cases other), fun _ => ⟨signature, rfl, width0, width1⟩⟩, holds.own, bytes, encoded,
              Directory.readReplaced⟩
          refine ⟨.stored { ticket with status := .signed, signature := some signature }, fun _ => stands.used (by simp),
            fun worker claim other at_ same => ?_, fun none => (by cases none), fun other same => ?_, fun other => ?_, ?_,
            fun _ _ => .inl rfl, fun other made => ?_, fun _ collected => (by cases collected)⟩
          · obtain ⟨known, _⟩ := stands.placing worker claim other at_ same
            cases known
          · cases same
            exact stored
          · have before := stands.signed other
            simp only [Standing.signature, unsigned, reduceCtorEq, iff_false] at before
            simp only [State.remembers, State.store, List.mem_cons, Event.signed.injEq, true_and, before, or_false, Standing.signature,
              Option.some.injEq]
            exact eq_comm
          · have before := stands.removed
            simp only [reduceCtorEq, exists_false, iff_false] at before
            simp [State.remembers, State.store, before]
          · cases made
            exact verifiedDelivers width0 width1 accepted
        · have apart : ticketPath id ≠ ticketPath ticketId := fun same => this (ticketPathInj same).symm
          have elsewhere : Directory.read (Directory.replace s.signer.tickets (ticketPath ticketId) bytes) (ticketPath id) =
              Directory.read s.signer.tickets (ticketPath id) := Directory.readReplacedOther apart
          refine ⟨standing, stands.used, stands.placing, fun none => elsewhere.trans (stands.absent none), fun stored there => ?_,
            fun other => ?_, ?_, stands.ticketed, stands.deliverable, fun other collected => ?_⟩
          · obtain ⟨fine, own, bytes', encoded', read⟩ := stands.stored stored there
            exact ⟨fine, own, bytes', encoded', elsewhere.trans read⟩
          · rw [← stands.signed]
            simp [State.remembers, State.store, Ne.symm this]
          · rw [← stands.removed]
            simp [State.remembers, State.store]
          · exact (stands.handed other collected).grows (fun _ => rfl) fun event mem => List.mem_cons_of_mem _ mem

/- The connection that has its answer on the queue removes the file. -/
theorem Sound.removes {ticketId : TicketId} (sound : Sound s used) (phase : (s.clients k).phase = .removing ticketId) :
    Sound (((s.put k { s.clients k with phase := .serving }).store (remove s.signer.tickets ticketId)).remembers
      (.removed ticketId)) used := by
  have waiting (other : κ) : ((s.put k { s.clients k with phase := .serving }).clients other).waiting = (s.clients other).waiting := by
    by_cases here : other = k
    · subst here
      simp [State.put, Client.waiting]
    · simp [State.put, here]
  have later : ∀ event ∈ s.history, event ∈ Event.removed ticketId :: s.history := fun event mem => List.mem_cons_of_mem _ mem
  constructor
  · intro id
    obtain ⟨standing, stands⟩ := sound.stands id
    by_cases this : ticketId = id
    · subst this
      obtain ⟨queued, there, own⟩ := (sound.carries k).removing ticketId phase
      obtain ⟨signature, response, signed, made, frame⟩ := (sound.carries k).waits queued (List.mem_append_right _ there) ticketId own
      have known := (stands.signed signature).mp signed
      have handed : HandedOver s ticketId signature := by
        refine ⟨response, made, k, .inr ?_⟩
        have same : queued = ⟨.response response, some ticketId⟩ := by rw [← frame, ← own]
        rw [← same]
        exact List.mem_append_right _ there
      refine ⟨.collected signature, fun _ => stands.used (fun unused => by rw [unused] at known; cases known),
        fun worker claim ticket at_ same => ?_, fun _ => Directory.readUnlinked, fun _ stored => (by cases stored), fun other => ?_, ?_,
        fun _ _ => .inr rfl, fun other same => ?_, fun other same => ?_⟩
      · obtain ⟨drawn, _⟩ := stands.placing worker claim ticket at_ same
        rw [drawn] at known
        cases known
      · have before := stands.signed other
        rw [known] at before
        simp only [State.remembers, State.store, State.put, List.mem_cons, reduceCtorEq, false_or]
        exact before
      · simp [State.remembers]
      · cases same
        exact ⟨response, made⟩
      · cases same
        exact handed.grows waiting later
    · have apart : ticketPath id ≠ ticketPath ticketId := fun same => this (ticketPathInj same).symm
      have elsewhere : Directory.read (remove s.signer.tickets ticketId) (ticketPath id) =
          Directory.read s.signer.tickets (ticketPath id) := Directory.readUnlinkedOther apart
      refine ⟨standing, stands.used, stands.placing, fun none => elsewhere.trans (stands.absent none), fun stored there => ?_,
        fun other => ?_, ?_, stands.ticketed, stands.deliverable, fun other collected => ?_⟩
      · obtain ⟨fine, own, bytes', encoded', read⟩ := stands.stored stored there
        exact ⟨fine, own, bytes', encoded', elsewhere.trans read⟩
      · rw [← stands.signed]
        simp [State.remembers, State.store, State.put]
      · rw [← stands.removed]
        simp [State.remembers, State.store, State.put, Ne.symm this]
      · exact (stands.handed other collected).grows waiting later
  · intro other
    have before := (sound.carries other).grows later
    by_cases here : other = k
    · subst here
      refine Carries.turns before (fun queued mem => .inl ?_) ?_ ?_ ?_
      · rw [← waiting other]
        exact mem
      · simp [State.remembers, State.store, State.put]
      · simp [State.remembers, State.store, State.put]
      · simp [State.remembers, State.store, State.put]
    · simpa [State.remembers, State.store, State.put, here] using before

/- A restart: the workers are gone, and so are the connections. -/
theorem Sound.restarts {signer : Signer.State ω} (sound : Sound s used) (keeps : ∀ k, ¬loses s k)
    (ran : Signer.step config.signer s.signer .crash = some signer) : Sound { signer, history := s.history } used := by
  cases ran
  constructor
  · intro id
    obtain ⟨standing, stands⟩ := sound.stands id
    have handed (signature : Signature) (collected : standing = .collected signature) :
        ∃ response, signedResponse signature = .ok response ∧ ∃ k, .sent k ⟨.response response, some id⟩ ∈ s.history := by
      obtain ⟨response, made, k, sent | waiting⟩ := stands.handed signature collected
      · exact ⟨response, made, k, sent⟩
      · exact absurd ⟨_, waiting, id, rfl, stands.absent (by rw [collected]; rfl)⟩ (keeps k)
    have ticketed (claim : Option IssuanceContext) (mem : .ticketed claim id ∈ Signer.Event.crashed :: s.signer.history) :
        .ticketed claim id ∈ s.signer.history := by simpa using mem
    have survives (other : Standing ω) (same : other.file = standing.file ∧ other.signature = standing.signature)
        (known : other ≠ .unused → id ∈ used) (still : ∀ ticket, other = .stored ticket → standing = .stored ticket)
        (gone : (∃ signature, other = .collected signature) ↔ ∃ signature, standing = .collected signature)
        (was : ∀ signature, other = .collected signature → standing = .collected signature) :
        Stands (κ := κ) { signer := { s.signer with queue := [], workers := fun _ => .idle }.remembers .crashed, history := s.history }
          used id other :=
      ⟨known, fun _ _ _ at_ => (by cases at_), fun none => stands.absent (same.1 ▸ none), fun ticket there => stands.stored ticket
        (still ticket there), fun signature => by rw [same.2]; exact stands.signed signature, stands.removed.trans gone.symm,
        fun claim mem => by rw [same.1, same.2]; exact stands.ticketed claim (ticketed claim mem),
        fun signature made => stands.deliverable signature (same.2 ▸ made), fun signature collected => by
          obtain ⟨response, made, k, sent⟩ := handed signature (was signature collected)
          exact ⟨response, made, k, .inl sent⟩⟩
    cases standing with
    | drawn worker => exact ⟨.lost, survives .lost ⟨rfl, rfl⟩ (fun _ => stands.used (by simp)) (by simp) (by simp) (by simp)⟩
    | unused | lost | stored _ | collected _ => exact ⟨_, survives _ ⟨rfl, rfl⟩ stands.used (fun _ same => same) Iff.rfl fun _ same => same⟩
  · intro k
    refine ⟨fun queued mem => ?_, fun _ _ phase => (by cases phase), fun _ phase => (by cases phase), fun _ => rfl⟩
    simp at mem

theorem Sound.quiet {client : Client} (sound : Sound s used)
    (keeps : ∀ queued ∈ (s.clients k).waiting, queued ∈ client.waiting ∨
      ∀ id, queued.ticketId = some id → Directory.read s.signer.tickets (ticketPath id) ≠ none)
    (carries : Carries s.history client) : Sound (s.put k client) used := by
  have moved : Sound { s.put k client with history := [] ++ s.history } used :=
    sound.serves (by simp) (fun queued mem => (keeps queued mem).imp_right .inr) carries
  exact moved

theorem Sound.operates (sound : Sound s used) (operator : Option (TicketId × Ticket)) : Sound { s with operator } used where
  carries := sound.carries
  stands id := by
    obtain ⟨standing, stands⟩ := sound.stands id
    exact ⟨standing, stands.used, stands.placing, stands.absent, stands.stored, stands.signed, stands.removed, stands.ticketed,
      stands.deliverable, stands.handed⟩

/- One more frame on a queue, for a signed ticket or for none. -/
theorem Carries.enqueues {history : List (Event κ)} {client : Client} {queued : QueuedFrame} (carries : Carries history client)
    (opened : client.phase ≠ .closed)
    (own : ∀ id, queued.ticketId = some id → ∃ signature response, .signed id signature ∈ history ∧
      signedResponse signature = .ok response ∧ queued.frame = .response response) : Carries history (client.enqueue queued) where
  waits other mem id same := by
    rcases memWaiting.mp mem with sending | outgoing
    · rw [enqueueSending] at sending
      exact carries.waits other (memWaiting.mpr (.inl sending)) id same
    · rcases enqueueAdds outgoing with before | rfl
      · exact carries.waits other (memWaiting.mpr (.inr before)) id same
      · exact own id same
  answering response id phase := carries.answering response id (by rwa [enqueuePhase] at phase)
  removing id phase := by
    rw [enqueuePhase] at phase
    obtain ⟨other, there, same⟩ := carries.removing id phase
    exact ⟨other, enqueueKeeps there, same⟩
  closed phase := absurd (by rwa [enqueuePhase] at phase) opened

theorem enqueueWaits {client : Client} {queued other : QueuedFrame} (mem : other ∈ client.waiting) :
    other ∈ (client.enqueue queued).waiting := by
  rw [memWaiting, enqueueSending]
  rcases memWaiting.mp mem with sending | outgoing
  · exact .inl sending
  · exact .inr (enqueueKeeps outgoing)

theorem sendErrorWaits {client : Client} {reason : String} {other : QueuedFrame} (mem : other ∈ client.waiting) :
    other ∈ (client.sendError reason).waiting := by
  have same : (client.sendError reason).waiting =
      (Client.enqueue { client with badMessages := client.badMessages + 1 } ⟨.error reason, none⟩).waiting := rfl
  rw [same]
  exact enqueueWaits mem

/- A connection whose thread goes to another place, its queue as it was. -/
theorem Sound.turns {client : Client} (sound : Sound s used) (waiting : client.waiting = (s.clients k).waiting)
    (answering : ∀ response id, client.phase ≠ .answering response (some id)) (removing : ∀ id, client.phase ≠ .removing id)
    (opened : client.phase ≠ .closed) : Sound (s.put k client) used :=
  sound.quiet (fun queued mem => .inl (waiting ▸ mem))
    ((sound.carries k).turns (fun queued mem => .inl (waiting ▸ mem)) answering removing fun closed => absurd closed opened)

/- A poll finds nothing, or the signature that was made for its id. -/
theorem Stands.polls {response : BlindSigResponse} {collected : TicketId} (stands : Stands s used id standing)
    (polled : handleTicketPoll s.signer.tickets id = .ok (response, some collected)) :
    collected = id ∧ ∃ signature, .signed id signature ∈ s.history ∧ signedResponse signature = .ok response := by
  unfold handleTicketPoll at polled
  obtain ⟨found, lookedUp, polled⟩ := bind_ok.mp polled
  cases found with
  | none => cases polled
  | some ticket =>
      obtain ⟨rfl, holds⟩ := stands.found lookedUp
      dsimp only at polled
      split at polled
      · cases polled
      · split at polled
        · cases polled
        · rename_i signature made
          obtain ⟨answer, converted, same⟩ := bind_ok.mp polled
          cases pure_ok.mp same
          refine ⟨holds.own, signature, (stands.signed signature).mpr made, ?_⟩
          cases outcome : signedResponse signature with
          | error _ =>
              rw [outcome] at converted
              cases converted
          | ok answer' =>
              rw [outcome] at converted
              cases converted
              rfl

theorem stepSound {action : Action ω κ} (sound : Sound s used) (careful : Careful s action)
    (fresh : ∀ id ∈ drawn [action], id ∉ used) (stepped : step config s action = some t) : Sound t (used ++ drawn [action]) := by
  cases action with
  | worker action =>
      simp only [step] at stepped
      split at stepped
      · rename_i own
        obtain ⟨signer, ran, rfl⟩ := Option.map_eq_some_iff.mp stepped
        exact sound.works own ran fun worker id now draws => fresh id (by rw [draws]; simp [drawn])
      · cases stepped
  | trySign id =>
      simp only [step] at stepped
      simp only [drawn, List.append_nil]
      split at stepped
      · cases stepped
      · split at stepped <;> cases stepped
        · exact sound.operates _
        · exact sound
      · cases stepped
        exact sound
  | markSigned signature =>
      simp only [step] at stepped
      simp only [drawn, List.append_nil]
      split at stepped
      · cases stepped
      · split at stepped
        · rename_i widths
          split at stepped
          · rename_i accepted
            split at stepped <;> cases stepped
            · rename_i marked
              exact sound.signs widths.1 widths.2 accepted marked
            · exact sound.operates none
          · cases stepped
            exact sound.operates none
        · cases stepped
  | signFails =>
      cases stepped
      simpa only [drawn, List.append_nil] using sound.operates none
  | connect k =>
      simp only [step] at stepped
      simp only [drawn, List.append_nil]
      split at stepped <;> cases stepped
      rename_i closed
      have nothing := (sound.carries k).closed closed
      exact sound.turns (by rw [nothing]; rfl) (by simp) (by simp) (by simp)
  | notify k payload =>
      simp only [step] at stepped
      simp only [drawn, List.append_nil]
      split at stepped <;> cases stepped
      rename_i opened
      exact sound.quiet (fun queued mem => .inl (enqueueWaits mem))
        ((sound.carries k).enqueues (fun closed => opened closed) fun id same => (by cases same))
  | poll k id =>
      simp only [step] at stepped
      simp only [drawn, List.append_nil]
      split at stepped <;> cases stepped
      exact sound.turns rfl (by simp) (by simp) (by simp)
  | lookUp k =>
      simp only [step] at stepped
      simp only [drawn, List.append_nil]
      split at stepped <;> try contradiction
      rename_i id phase
      obtain ⟨standing, stands⟩ := sound.stands id
      split at stepped <;> cases stepped
      · rename_i response collects polled
        cases collects with
        | none => exact sound.turns rfl (by simp) (by simp) (by simp)
        | some collected =>
            obtain ⟨rfl, signature, signed, made⟩ := stands.polls polled
            refine sound.quiet (fun queued mem => .inl mem) ⟨(sound.carries k).waits, fun answer id same => ?_,
              fun id same => (by cases same), fun closed => (by cases closed)⟩
            cases same
            exact ⟨signature, signed, made⟩
      · exact sound.turns rfl (by simp) (by simp) (by simp)
  | answer k =>
      simp only [step] at stepped
      simp only [drawn, List.append_nil]
      split at stepped <;> cases stepped
      rename_i response collects phase
      have carries : Carries s.history ((s.clients k).enqueue ⟨.response response, collects⟩) := by
        refine (sound.carries k).enqueues (by simp [phase]) fun id same => ?_
        cases same
        obtain ⟨signature, signed, made⟩ := (sound.carries k).answering response id phase
        exact ⟨signature, response, signed, made, rfl⟩
      refine sound.quiet (fun queued mem => .inl (enqueueWaits mem)) ⟨carries.waits, fun answer id same => ?_, fun id same => ?_, fun closed => ?_⟩
      · cases collects <;> cases same
      · cases collects <;> cases same
        obtain ⟨open_, room⟩ := careful response id phase
        exact ⟨_, enqueueTakes open_ room, rfl⟩
      · cases collects <;> cases closed
  | refuse k =>
      simp only [step] at stepped
      simp only [drawn, List.append_nil]
      split at stepped <;> cases stepped
      rename_i reason phase
      have noted : Carries s.history { s.clients k with badMessages := (s.clients k).badMessages + 1 } :=
        ⟨(sound.carries k).waits, (sound.carries k).answering, (sound.carries k).removing, (sound.carries k).closed⟩
      have carries : Carries s.history
          (Client.enqueue { s.clients k with badMessages := (s.clients k).badMessages + 1 } ⟨.error reason, none⟩) :=
        noted.enqueues (by simp [phase]) fun id same => (by cases same)
      exact sound.quiet (fun queued mem => .inl (sendErrorWaits mem)) ⟨carries.waits, fun _ _ same => (by cases same), fun _ same => (by cases same), fun closed => (by cases closed)⟩
  | remove k =>
      simp only [step] at stepped
      simp only [drawn, List.append_nil]
      split at stepped <;> cases stepped
      rename_i phase
      exact sound.removes phase
  | removeFails k =>
      simp only [step] at stepped
      simp only [drawn, List.append_nil]
      split at stepped <;> cases stepped
      exact sound.turns rfl (by simp) (by simp) (by simp)
  | flush k =>
      simp only [step] at stepped
      simp only [drawn, List.append_nil]
      split at stepped <;> cases stepped
      rename_i phase nothing
      refine sound.turns ?_ (by simp) (by simp) (by simp)
      simp [Client.waiting, Client.takeOutgoing, nothing]
  | send k =>
      simp only [step] at stepped
      simp only [drawn, List.append_nil]
      split at stepped <;> cases stepped
      rename_i queued rest phase sending
      change Sound { s.put k { s.clients k with sending := rest } with history := [.sent k queued] ++ s.history } used
      refine sound.serves ?_ (fun other mem => ?_) ?_
      · intro event mem
        exact ⟨queued, List.mem_singleton.mp mem⟩
      · rcases memWaiting.mp mem with before | outgoing
        · rw [sending] at before
          rcases List.mem_cons.mp before with rfl | later
          · exact .inr (.inl List.mem_cons_self)
          · exact .inl (memWaiting.mpr (.inl later))
        · exact .inl (memWaiting.mpr (.inr outgoing))
      · refine (sound.carries k).turns (fun other mem => .inl ?_) (by simp [phase]) (by simp [phase]) (by simp [phase])
        rw [memWaiting, sending]
        rcases memWaiting.mp mem with later | outgoing
        · exact .inl (List.mem_cons_of_mem _ later)
        · exact .inr outgoing
  | flushed k =>
      simp only [step] at stepped
      simp only [drawn, List.append_nil]
      split at stepped <;> cases stepped
      exact sound.turns rfl (by simp) (by simp) (by simp)
  | close k =>
      simp only [step] at stepped
      simp only [drawn, List.append_nil]
      have ended : Sound (s.put k {}) used := by
        refine sound.quiet (fun queued mem => .inr fun id own absent => careful ⟨queued, mem, id, own, absent⟩) ?_
        exact ⟨fun queued mem => by simp at mem, fun _ _ same => (by cases same), fun _ same => (by cases same), fun _ => rfl⟩
      split at stepped <;> cases stepped <;> exact ended
  | restart =>
      simp only [step] at stepped
      obtain ⟨signer, ran, rfl⟩ := Option.map_eq_some_iff.mp stepped
      simpa only [drawn, List.append_nil] using sound.restarts careful ran

theorem drawnCons (action : Action ω κ) (rest : List (Action ω κ)) : drawn (action :: rest) = drawn [action] ++ drawn rest := by
  cases action with
  | worker action => cases action <;> rfl
  | _ => rfl

theorem runSound {actions : List (Action ω κ)} (ran : run config s actions = some t) (sound : Sound s used)
    (fresh : (used ++ drawn actions).Nodup) (careful : CarefulRun config s actions) : Sound t (used ++ drawn actions) := by
  induction actions generalizing s used with
  | nil =>
      cases ran
      simpa only [drawn, List.append_nil] using sound
  | cons action rest ih =>
      obtain ⟨u, stepped, ran⟩ := Option.bind_eq_some_iff.mp ran
      rw [drawnCons, ← List.append_assoc] at fresh ⊢
      have apart := (List.nodup_append.mp (List.nodup_append.mp fresh).1).2.2
      have next := stepSound sound careful.1 (fun id now before => apart id before id now rfl) stepped
      exact ih ran next fresh (careful.2 u stepped)

theorem startSound : Sound (start ω κ) [] where
  stands id := by
    refine ⟨.unused, fun used => absurd rfl used, fun _ _ _ at_ => (by cases at_), fun _ => rfl, fun _ same => (by cases same),
      fun signature => ?_, ?_, fun _ mem => (by cases mem), fun _ same => (by cases same), fun _ same => (by cases same)⟩
    · simp [start, Standing.signature]
    · simp [start]
  carries k := by
    refine ⟨fun queued mem => ?_, fun _ _ same => (by cases same), fun _ same => (by cases same), fun _ => rfl⟩
    simp [start] at mem

theorem Holds.polled {tickets : Tickets} {ticket : Ticket} {signature : Signature} {response : BlindSigResponse}
    (holds : Holds tickets id ticket) (made : ticket.signature = some signature) (converted : signedResponse signature = .ok response) :
    ticket.status = .signed ∧ handleTicketPoll tickets id = .ok (response, some id) := by
  cases status : ticket.status with
  | pending =>
      rw [holds.fine.pending status] at made
      cases made
  | signed =>
      refine ⟨rfl, ?_⟩
      unfold handleTicketPoll
      rw [holds.found]
      simp only [bind, Except.bind, status, reduceCtorEq, if_false, made, converted, Except.mapError, holds.own]
      rfl

/- A poll up to its answer, where the queue has room. -/
theorem polledAnswers {response : BlindSigResponse} (polled : handleTicketPoll s.signer.tickets id = .ok (response, some id))
    (serving : (s.clients k).phase = .serving) (open_ : (s.clients k).alive = true)
    (room : (s.clients k).outgoing.length < maxQueuedFrames) :
    ∃ t, run config s [.poll k id, .lookUp k, .answer k] = some t ∧ ⟨.response response, some id⟩ ∈ (t.clients k).outgoing := by
  simp only [run, step, serving, State.put, Function.update_self, polled, Option.bind_eq_bind, Option.bind_some, Option.some.injEq,
    exists_eq_left']
  exact enqueueTakes open_ room

theorem Sound.kept (sound : Sound s used) : Kept config s where
  retrievable id signature signed missing := by
    obtain ⟨standing, stands⟩ := sound.stands id
    have known := (stands.signed signature).mp signed
    obtain ⟨response, converted⟩ := stands.deliverable signature known
    cases standing with
    | stored ticket =>
        have holds := stands.stored ticket rfl
        obtain ⟨status, polled⟩ := holds.polled known converted
        exact ⟨⟨ticket, holds.found, status, known⟩, response, converted, fun k serving open_ room => polledAnswers polled serving open_ room⟩
    | collected other =>
        cases known
        exact absurd (stands.handed signature rfl) missing
    | unused | drawn _ | lost => cases known
  stored claim id ticketed staying := by
    obtain ⟨standing, stands⟩ := sound.stands id
    have known := stands.ticketed claim ticketed
    cases standing with
    | stored ticket =>
        have holds := stands.stored ticket rfl
        exact ⟨ticket, holds.found, holds.own⟩
    | collected signature => exact absurd (stands.removed.mpr ⟨signature, rfl⟩) staying
    | unused | drawn _ | lost => simp [Standing.file, Standing.signature] at known
  handedOver id removed := by
    obtain ⟨standing, stands⟩ := sound.stands id
    obtain ⟨signature, rfl⟩ := stands.removed.mp removed
    exact ⟨signature, (stands.signed signature).mpr rfl, stands.handed signature rfl⟩
  gone id removed := by
    obtain ⟨standing, stands⟩ := sound.stands id
    obtain ⟨signature, rfl⟩ := stands.removed.mp removed
    exact findAbsent (stands.absent rfl)

theorem keptWhenCareful {actions : List (Action ω κ)} (ran : run config (start ω κ) actions = some s) (fresh : (drawn actions).Nodup)
    (careful : CarefulRun config (start ω κ) actions) : Kept config s :=
  (runSound ran startSound fresh careful).kept

/-! A signature on its way, step by step. -/

theorem workersRun {actions : List (Signer.Action ω)} (own : ∀ action ∈ actions, ofWorkers action = true) :
    run config s (actions.map .worker) = (Signer.run config.signer s.signer actions).map fun signer => { s with signer } := by
  induction actions generalizing s with
  | nil => rfl
  | cons action rest ih =>
      have first := own action List.mem_cons_self
      rw [List.map_cons, run, step, if_pos first, Signer.run]
      cases Signer.step config.signer s.signer action with
      | none => rfl
      | some signer => exact ih fun other mem => own other (List.mem_cons_of_mem _ mem)

theorem Holds.marked {tickets : Tickets} {ticket : Ticket} {signature : Signature} (holds : Holds tickets id ticket)
    (pending : ticket.status = .pending) (width0 : signature.s0.length = ringDegree) (width1 : signature.s1.length = ringDegree) :
    ∃ tickets', markSigned tickets id signature = .ok tickets' ∧
      Holds tickets' id { ticket with status := .signed, signature := some signature } := by
  have fine : Ticket.WellFormed { ticket with status := .signed, signature := some signature } :=
    ⟨holds.fine.c, fun other => (by cases other), fun _ => ⟨signature, rfl, width0, width1⟩⟩
  obtain ⟨bytes, encoded⟩ := Ticket.encodeOk fine
  refine ⟨Directory.replace tickets (ticketPath id) bytes, ?_, fine, holds.own, bytes, encoded, Directory.readReplaced⟩
  rw [markSigned, holds.found]
  exact check_ok.mpr ⟨throwIf_ok.mpr (not_not.mpr pending), bind_ok.mpr ⟨bytes, encoded, rfl⟩⟩

/- The steps that cannot lose anything. -/
def harmless : Action ω κ → Bool
  | .answer _ | .close _ | .restart => false
  | _ => true

theorem harmlessCareful {actions : List (Action ω κ)} (quiet : ∀ action ∈ actions, harmless action = true) :
    CarefulRun config s actions := by
  induction actions generalizing s with
  | nil => trivial
  | cons action rest ih =>
      refine ⟨?_, fun t _ => ih fun other mem => quiet other (List.mem_cons_of_mem _ mem)⟩
      have first := quiet action List.mem_cons_self
      cases action with
      | answer _ | close _ | restart => cases first
      | _ => trivial

theorem carefulAppend {xs ys : List (Action ω κ)} (first : CarefulRun config s xs)
    (second : ∀ t, run config s xs = some t → CarefulRun config t ys) : CarefulRun config s (xs ++ ys) := by
  induction xs generalizing s with
  | nil => exact second s rfl
  | cons action rest ih =>
      refine ⟨first.1, fun t stepped => ih (first.2 t stepped) fun u ran => second u ?_⟩
      rw [run, stepped]
      exact ran

/- A pending ticket is signed, and a new connection polls for it. -/
theorem comesToAnswer {ticket : Ticket} {signature : Signature} {tickets : Tickets} {response : BlindSigResponse}
    (free : s.operator = none) (found : find s.signer.tickets id = .ok (some ticket)) (pending : ticket.status = .pending)
    (width0 : signature.s0.length = ringDegree) (width1 : signature.s1.length = ringDegree)
    (accepted : verified config ticket.c signature = true) (marked : markSigned s.signer.tickets id signature = .ok tickets)
    (polled : handleTicketPoll tickets id = .ok (response, some id)) (closed : (s.clients k).phase = .closed) :
    ∃ t, run config s [.trySign id, .markSigned signature, .connect k, .poll k id, .lookUp k] = some t ∧
      t.history = .signed id signature :: s.history ∧
      t.clients = Function.update s.clients k { phase := .answering response (some id) } := by
  simp only [run, step, free, found, pending, if_true, width0, width1, accepted, marked, and_self, State.store, State.remembers, State.put,
    closed, Function.update_self, polled, Function.update_idem, Option.bind_eq_bind, Option.bind_some, Option.some.injEq,
    exists_eq_left', true_and]

/- A response on its way out: queued, its file removed, taken to be sent. -/
theorem goesOut (config : Config) {response : BlindSigResponse} (answering : s.clients k = { phase := .answering response (some id) }) :
    ∃ t, run config s [.answer k, .remove k, .flush k] = some t ∧ t.history = .removed id :: s.history ∧
      t.clients = Function.update s.clients k { phase := .flushing, sending := [⟨.response response, some id⟩] } := by
  have queued : Client.enqueue { phase := .answering response (some id) } ⟨.response response, some id⟩ =
      { phase := .answering response (some id), outgoing := [⟨.response response, some id⟩] } := rfl
  simp only [run, step, answering, queued, afterAnswer, State.put, State.store, State.remembers, Function.update_self,
    Client.takeOutgoing, Function.update_idem, Option.bind_eq_bind, Option.bind_some, Option.some.injEq, exists_eq_left', true_and]

theorem runAppend (xs ys : List (Action ω κ)) : run config s (xs ++ ys) = (run config s xs).bind fun t => run config t ys := by
  induction xs generalizing s with
  | nil => rfl
  | cons action rest ih =>
      rw [List.cons_append, run, run]
      cases step config s action with
      | none => rfl
      | some t => exact ih

end Lives

namespace Example

def request : AssembledRequest := { Signer.askedRequest with credentialIssuance := false }
def someId : TicketId := Vector.replicate 32 5
def signature : Signature := ⟨1 :: List.replicate 511 0, List.replicate 512 0⟩
def settings : Config := ⟨Signer.smallStore, List.replicate 512 7⟩
def ticket : Ticket := { ticketId := someId, c := arrayToPoly request.c, receivedAtUnixSeconds := 1000 }

/- A request without an issuance, up to its ticket. -/
def placing : List (Signer.Action Bool) :=
  [.submit ⟨request, none⟩, .take true, .check true, .verify true (.answered true "unknown" true ""), .count true, .draw true someId 1000,
    .place true, .reply true]

def toAnswer : List (Action Bool Bool) :=
  placing.map .worker ++ [.trySign someId, .markSigned signature, .connect true, .poll true someId, .lookUp true]

theorem evaluated : ((Signer.run settings.signer { tickets := [] } placing).map fun signer => (find signer.tickets someId).toOption) =
      some (some (some ticket)) ∧ ints ticket.c = List.replicate 512 7 ∧ ints signature.s0 = Prover.Example.unit 511 ∧
      ints signature.s1 = List.replicate 512 0 := by
  decide +kernel

theorem targetCanonical : Blns7933.Canonical Blns7933.productionRing (List.replicate 512 7) := by
  refine ⟨List.length_replicate .., fun x mem => ?_⟩
  obtain rfl := List.eq_of_mem_replicate mem
  decide

theorem signatureVerified : verified settings ticket.c signature = true := by
  obtain ⟨_, target, s0, s1⟩ := evaluated
  have signed : Blns7933.verifyTarget Blns7933.productionRing ⟨List.replicate 512 7⟩ (List.replicate 512 7)
      ⟨Prover.Example.unit 511, List.replicate 512 0⟩ Blns7933.productionNormBoundSquared = .ok true :=
    Prover.unitSigns targetCanonical (Prover.Example.unitShort 511 512) (by rw [Prover.Example.unit, List.length_cons, List.length_replicate]; rfl)
      (List.length_replicate ..).le (Prover.Example.unitResidue _ 511) (Prover.Example.zeroResidue _ 512)
  have checked : Blns7933.signerVerifyTarget Blns7933.productionRing ⟨settings.t⟩ (ints ticket.c) ⟨ints signature.s0, ints signature.s1⟩
      Blns7933.productionNormBoundSquared = .ok true := by
    rw [target, s0, s1]
    exact check_ok.mpr ⟨Blns7933.validateOk.mpr targetCanonical, signed⟩
  rw [verified, checked]

/- The signature has been made, and the handler of a poll holds its response. -/
theorem answered : ∃ s response, run settings (start Bool Bool) toAnswer = some s ∧ s.history = [.signed someId signature] ∧
    s.clients = Function.update (fun _ => {}) true { phase := .answering response (some someId) } ∧
    signedResponse signature = .ok response := by
  obtain ⟨signer, ran, found⟩ := Option.map_eq_some_iff.mp evaluated.1
  have worked : run settings (start Bool Bool) (placing.map .worker) = some { start Bool Bool with signer } := by
    have own : ∀ action ∈ placing, ofWorkers action = true := by decide
    rw [workersRun own, start, ran]
    rfl
  obtain ⟨standing, stands⟩ := (runSound worked startSound (by decide) (harmlessCareful (by decide))).stands someId
  have lookedUp : find signer.tickets someId = .ok (some ticket) := by
    cases outcome : find signer.tickets someId with
    | error _ =>
        rw [outcome] at found
        cases found
    | ok there =>
        rw [outcome] at found
        rw [Option.some.inj found]
  obtain ⟨_, holds⟩ := stands.found lookedUp
  have width0 : signature.s0.length = ringDegree := by
    rw [signature, List.length_cons, List.length_replicate, ringDegree]
  have width1 : signature.s1.length = ringDegree := List.length_replicate ..
  obtain ⟨tickets, marked, holds⟩ := holds.marked rfl width0 width1
  obtain ⟨response, made⟩ := verifiedDelivers width0 width1 signatureVerified
  obtain ⟨_, polled⟩ := holds.polled rfl made
  obtain ⟨s, came, history, clients⟩ := comesToAnswer (k := true) (s := { start Bool Bool with signer }) rfl lookedUp rfl width0 width1
    signatureVerified marked polled rfl
  refine ⟨s, response, ?_, history, clients, made⟩
  rw [toAnswer, runAppend, worked]
  exact came

/- The answer goes to the queue, the file goes, and the queue is taken out to be sent. -/
def toSending : List (Action Bool Bool) := toAnswer ++ [.answer true, .remove true, .flush true]

theorem sending : ∃ s response, run settings (start Bool Bool) toSending = some s ∧
    s.history = [.removed someId, .signed someId signature] ∧ signedResponse signature = .ok response ∧
    s.clients = Function.update (fun _ => {}) true { phase := .flushing, sending := [⟨.response response, some someId⟩] } ∧
    CarefulRun settings (start Bool Bool) toSending := by
  obtain ⟨s, response, ran, history, clients, made⟩ := answered
  have here : s.clients true = { phase := .answering response (some someId) } := by rw [clients, Function.update_self]
  obtain ⟨t, went, after, left⟩ := goesOut settings here
  refine ⟨t, response, ?_, by rw [after, history], made, by rw [left, clients, Function.update_idem],
    carefulAppend (harmlessCareful (by decide)) fun u reached => ?_⟩
  · rw [toSending, runAppend, ran]
    exact went
  · rw [ran] at reached
    cases reached
    refine ⟨fun other collected phase => ?_, fun v _ => harmlessCareful (by decide)⟩
    rw [here]
    exact ⟨rfl, Nat.zero_lt_succ _⟩

end Example

theorem sentIsKept : ∃ s, run Example.settings (start Bool Bool) (Example.toSending ++ [.send true]) = some s ∧
    (∃ queued, .sent true queued ∈ s.history ∧ queued.ticketId = some Example.someId) ∧ Kept Example.settings s := by
  obtain ⟨s, response, ran, history, made, clients, careful⟩ := Example.sending
  have here : s.clients true = { phase := .flushing, sending := [⟨.response response, some Example.someId⟩] } := by
    rw [clients, Function.update_self]
  have sent : run Example.settings (start Bool Bool) (Example.toSending ++ [.send true]) =
      some ((s.put true { s.clients true with sending := [] }).remembers (.sent true ⟨.response response, some Example.someId⟩)) := by
    rw [runAppend, ran]
    simp only [Option.bind_some, run, step, here, Option.bind_eq_bind]
  refine ⟨_, sent, ⟨_, List.mem_cons_self, rfl⟩, keptWhenCareful sent (by decide) ?_⟩
  exact carefulAppend careful fun t _ => harmlessCareful (by decide)

/- The peer is gone before its answer is sent: the signature is nowhere, and its ticket is gone. -/
theorem signatureLost : ∃ s, run Example.settings (start Bool Bool) (Example.toSending ++ [.close true]) = some s ∧
    (drawn (Example.toSending ++ [(.close true : Action Bool Bool)])).Nodup ∧ ¬Kept Example.settings s := by
  obtain ⟨s, response, ran, history, made, clients, careful⟩ := Example.sending
  have here : (s.clients true).phase = .flushing := by rw [clients, Function.update_self]
  have closed : run Example.settings (start Bool Bool) (Example.toSending ++ [.close true]) = some (s.put true {}) := by
    rw [runAppend, ran]
    simp only [Option.bind_some, run, step, here, Option.bind_eq_bind]
  refine ⟨_, closed, by decide, fun kept => ?_⟩
  obtain ⟨signature, signed, response, _, holder, handed⟩ := kept.handedOver Example.someId (by
    rw [State.put, history]
    exact List.mem_cons_self)
  rcases handed with sent | waiting
  · simp [State.put, history] at sent
  · rw [State.put, clients, Function.update_idem] at waiting
    simp at waiting

end Polling
end TradeP2P.Credential
