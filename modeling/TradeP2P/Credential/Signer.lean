import TradeP2P.Credential.TicketStore
import Mathlib.Logic.Function.Basic
import Mathlib.Data.List.Count

/-! The signer's workers. A worker takes a verified request through the marker of its completed
room, party and epoch to a ticket; the marker and the ticket are two files, created one after the
other, and any number of workers take their steps in any order. -/
namespace TradeP2P.Credential
open Wire (Bytes ascii bigEndian)
open Checks
open Directory (Files)

structure AssembledRequest where
  c : Vector UInt16 512
  encA : Vector UInt16 512
  encPk : Vector UInt16 512
  ct1R : Vector UInt16 512
  ct2R : Vector UInt16 512
  ct1Mu : Vector UInt16 512
  ct2Mu : Vector UInt16 512
  credentialIssuance : Bool := false
  issuanceRoomId : RoomId
  credentialEpoch : UInt32 := 0
  pi1Receipt : Bytes
  deriving DecidableEq, Repr

inductive ResponseStatus where | ok | rejected | busy | error | pending
  deriving DecidableEq, Repr

structure BlindSigResponse where
  status : ResponseStatus := .error
  s0 : Vector Int16 512 := Vector.replicate 512 0
  s1 : Vector Int16 512 := Vector.replicate 512 0
  ticketId : TicketId := Vector.replicate 32 0
  reason : String := ""
  deriving DecidableEq, Repr

def arrayToPoly (value : Vector UInt16 512) : PolyQ := value.toList.map fun coefficient => Int64.ofNat coefficient.toNat

/- What the verifier is told to expect of a receipt. -/
structure Expected where
  b : PolyQ
  c : PolyQ
  encA : PolyQ
  encPk : PolyQ
  ct1R : PolyQ
  ct2R : PolyQ
  ct1Mu : PolyQ
  ct2Mu : PolyQ
  deriving DecidableEq, Repr

/- The verifier is a process of its own: it fails, or prints an answer. -/
inductive Sidecar where
  | failed (text : String)
  | answered (ok : Bool) (error : String) (verified : Bool) (reason : String)
  deriving DecidableEq, Repr

structure Job where
  request : AssembledRequest
  issuanceContext : Option IssuanceContext
  deriving DecidableEq, Repr

namespace Signer

structure Config where
  b : PolyQ
  queueCapacity : Nat
  maxPendingTickets : Nat
  answers : Bytes → Expected → Sidecar → Bool

inductive Phase where
  | idle
  | checking (job : Job)
  | verifying (job : Job)
  | claiming (job : Job) (context : IssuanceContext)
  | inspecting (context : IssuanceContext)
  | writing (job : Job) (context : IssuanceContext) (written : Nat)
  | counting (job : Job) (claim : Option IssuanceContext)
  | drawing (job : Job) (claim : Option IssuanceContext) (attempt : Nat)
  | placing (claim : Option IssuanceContext) (ticket : Ticket)
  | failing (claim : Option IssuanceContext) (error : TicketStoreError)
  | replying (response : BlindSigResponse)
  deriving DecidableEq, Repr

inductive Event where
  | claimed (context : IssuanceContext)
  | ticketed (claim : Option IssuanceContext) (id : TicketId)
  | rolledBack (context : IssuanceContext)
  | answered (response : BlindSigResponse)
  | crashed
  deriving DecidableEq, Repr

structure State (ω : Type) where
  records : Records := []
  tickets : Tickets
  queue : List Job := []
  workers : ω → Phase := fun _ => .idle
  history : List Event := []

/- A worker's next step, or one of the other things that happen to the two directories: the operator
signs a ticket, a poll collects one, the process dies. -/
inductive Action (ω : Type) where
  | submit (job : Job)
  | take (worker : ω)
  | check (worker : ω)
  | verify (worker : ω) (outcome : Sidecar)
  | claim (worker : ω)
  | claimFails (worker : ω) (text : String)
  | inspect (worker : ω)
  | write (worker : ω) (count : Nat)
  | writeFails (worker : ω) (text : String)
  | close (worker : ω)
  | count (worker : ω)
  | draw (worker : ω) (id : TicketId) (now : UInt64)
  | place (worker : ω)
  | createFails (worker : ω) (text : String)
  | rollback (worker : ω)
  | reply (worker : ω)
  | sign (id : TicketId) (signature : Signature)
  | collect (id : TicketId)
  | crash

def rejected (reason : String) : BlindSigResponse := { status := .rejected, reason }
def internalError (text : String) : BlindSigResponse := { status := .error, reason := "internal error: " ++ text }

def busyResponse : BlindSigResponse :=
  { status := .busy, reason := "q7933 blind-signature signer is at capacity, try again shortly" }

def expected (b : PolyQ) (request : AssembledRequest) : Expected where
  b := b
  c := arrayToPoly request.c
  encA := arrayToPoly request.encA
  encPk := arrayToPoly request.encPk
  ct1R := arrayToPoly request.ct1R
  ct2R := arrayToPoly request.ct2R
  ct1Mu := arrayToPoly request.ct1Mu
  ct2Mu := arrayToPoly request.ct2Mu

def checkMetadata (job : Job) : Option BlindSigResponse :=
  if job.request.credentialIssuance ≠ job.issuanceContext.isSome then
    some (rejected "q7933 credential authorization metadata mismatch")
  else match job.issuanceContext with
    | none => none
    | some context =>
        if context.roomId ≠ job.request.issuanceRoomId ∨ context.epoch ≠ job.request.credentialEpoch then
          some (rejected "q7933 credential authorization context mismatch")
        else none

def afterVerification (job : Job) : Sidecar → Phase
  | .failed text => .replying (internalError text)
  | .answered ok error verified reason =>
      if !ok then .replying { status := .error, reason := "signer-verify-nizk1 tool error: " ++ error }
      else if !verified then .replying (rejected reason)
      else match job.issuanceContext with
        | none => .counting job none
        | some context => .claiming job context

def afterInspection (records : Records) (context : IssuanceContext) : BlindSigResponse :=
  match hasBeenIssued records context with
  | .ok _ => rejected "credential already issued for this completed room/party/epoch"
  | .error (.store text) | .error (.format text) => internalError text

def afterFailure : TicketStoreError → BlindSigResponse
  | .full text => { status := .busy, reason := text }
  | error => internalError error.text

-- The descriptor writes to the file that was created, wherever it is named by now.
def append (records : Records) (name chunk : Bytes) : Records :=
  match Directory.read records name with
  | none => records
  | some data => Directory.replace records name (data ++ chunk)

def storeFull (config : Config) : TicketStoreError :=
  .full ("q7933 ticket store is at capacity (" ++ toString config.maxPendingTickets ++ " tickets)")

def noUniqueId : TicketStoreError :=
  .other (.runtimeError "q7933 ticket store: failed to allocate a unique ticket id after 8 attempts")

variable {ω : Type} [DecidableEq ω]

def State.goes (s : State ω) (worker : ω) (phase : Phase) : State ω :=
  { s with workers := Function.update s.workers worker phase }

def State.remembers (s : State ω) (event : Event) : State ω := { s with history := event :: s.history }

def step (config : Config) (s : State ω) : Action ω → Option (State ω)
  | .submit job =>
      if s.queue.length ≥ config.queueCapacity then some (s.remembers (.answered busyResponse))
      else some { s with queue := s.queue ++ [job] }
  | .take worker =>
      match s.workers worker, s.queue with
      | .idle, job :: rest => some ({ s with queue := rest }.goes worker (.checking job))
      | _, _ => none
  | .check worker =>
      match s.workers worker with
      | .checking job =>
          match checkMetadata job with
          | some response => some (s.goes worker (.replying response))
          | none => some (s.goes worker (.verifying job))
      | _ => none
  | .verify worker outcome =>
      match s.workers worker with
      | .verifying job =>
          if config.answers job.request.pi1Receipt (expected config.b job.request) outcome then
            some (s.goes worker (afterVerification job outcome))
          else none
      | _ => none
  | .claim worker =>
      match s.workers worker with
      | .claiming job context =>
          match Directory.read s.records (computeRecordPath context) with
          | some _ => some (s.goes worker (.inspecting context))
          | none =>
              let records := Directory.replace s.records (computeRecordPath context) []
              some ({ s with records }.goes worker (.writing job context 0) |>.remembers (.claimed context))
      | _ => none
  | .claimFails worker text =>
      match s.workers worker with
      | .claiming _ _ => some (s.goes worker (.replying (internalError text)))
      | _ => none
  | .inspect worker =>
      match s.workers worker with
      | .inspecting context => some (s.goes worker (.replying (afterInspection s.records context)))
      | _ => none
  | .write worker count =>
      match s.workers worker with
      | .writing job context written =>
          if 0 < count ∧ written + count ≤ context.encode.length then
            let records := append s.records (computeRecordPath context) ((context.encode.drop written).take count)
            some ({ s with records }.goes worker (.writing job context (written + count)))
          else none
      | _ => none
  | .writeFails worker text =>
      match s.workers worker with
      | .writing _ _ _ => some (s.goes worker (.replying (internalError text)))
      | _ => none
  | .close worker =>
      match s.workers worker with
      | .writing job context written =>
          if written = context.encode.length then some (s.goes worker (.counting job (some context))) else none
      | _ => none
  | .count worker =>
      match s.workers worker with
      | .counting job claim =>
          if existing s.tickets ≥ config.maxPendingTickets then some (s.goes worker (.failing claim (storeFull config)))
          else some (s.goes worker (.drawing job claim 0))
      | _ => none
  | .draw worker id now =>
      match s.workers worker with
      | .drawing job claim attempt =>
          match Directory.read s.tickets (ticketPath id) with
          | none =>
              let ticket : Ticket := { ticketId := id, c := arrayToPoly job.request.c, receivedAtUnixSeconds := now }
              some (s.goes worker (.placing claim ticket))
          | some _ =>
              if attempt + 1 < 8 then some (s.goes worker (.drawing job claim (attempt + 1)))
              else some (s.goes worker (.failing claim noUniqueId))
      | _ => none
  | .place worker =>
      match s.workers worker with
      | .placing claim ticket =>
          match ticket.encode with
          | .error error => some (s.goes worker (.failing claim error))
          | .ok bytes =>
              let tickets := Directory.replace s.tickets (ticketPath ticket.ticketId) bytes
              let response : BlindSigResponse := { status := .pending, ticketId := ticket.ticketId }
              some ({ s with tickets }.goes worker (.replying response) |>.remembers (.ticketed claim ticket.ticketId))
      | _ => none
  | .createFails worker text =>
      match s.workers worker with
      | .counting _ claim | .drawing _ claim _ | .placing claim _ =>
          some (s.goes worker (.failing claim (.other (.runtimeError text))))
      | _ => none
  | .rollback worker =>
      match s.workers worker with
      | .failing none error => some (s.goes worker (.replying (afterFailure error)))
      | .failing (some context) error =>
          let records := rollbackUncommittedIssuance s.records context
          some ({ s with records }.goes worker (.replying (afterFailure error)) |>.remembers (.rolledBack context))
      | _ => none
  | .reply worker =>
      match s.workers worker with
      | .replying response => some (s.goes worker .idle |>.remembers (.answered response))
      | _ => none
  | .sign id signature =>
      match markSigned s.tickets id signature with
      | .ok tickets => some { s with tickets }
      | .error _ => none
  | .collect id => some { s with tickets := remove s.tickets id }
  | .crash => some ({ s with queue := [], workers := fun _ => .idle }.remembers .crashed)

def run (config : Config) (s : State ω) : List (Action ω) → Option (State ω)
  | [] => some s
  | action :: rest => do
      let t ← step config s action
      run config t rest

def start (ω : Type) (tickets : Tickets) : State ω := { tickets }

/-! The right behind a marker: one ticket for one completed room, party and epoch. A worker takes it
up by creating the marker, and spends it on a ticket or gives it back; a worker that cannot finish
its marker, or dies on the way, loses it. -/

inductive Right (ω : Type) where
  | free
  | held (worker : ω)
  | spent
  | lost
  deriving DecidableEq, Repr

/- The marker a phase has created, with what it has written to it. -/
def holding : Phase → Option (IssuanceContext × Bytes)
  | .writing _ context written => some (context, context.encode.take written)
  | .counting _ claim | .drawing _ claim _ | .placing claim _ | .failing claim _ =>
      claim.map fun context => (context, context.encode)
  | _ => none

def isTicketOf (context : IssuanceContext) : Event → Bool
  | .ticketed (some claim) _ => claim = context
  | _ => false

/- The context whose right an event is about. -/
def concerns : Event → Option IssuanceContext
  | .claimed context | .rolledBack context => some context
  | .ticketed claim _ => claim
  | .answered _ | .crashed => none

def tickets (context : IssuanceContext) (history : List Event) : Nat := history.countP (isTicketOf context)
def claims (context : IssuanceContext) (history : List Event) : Nat := history.count (.claimed context)
def rollbacks (context : IssuanceContext) (history : List Event) : Nat := history.count (.rolledBack context)

structure SameTally (context : IssuanceContext) (before after : List Event) : Prop where
  tickets : tickets context after = tickets context before
  claims : claims context after = claims context before
  rollbacks : rollbacks context after = rollbacks context before

section Rights
variable {config : Config} {s t : State ω} {context other : IssuanceContext} {right : Right ω}

structure Accounted (s : State ω) (context : IssuanceContext) (right : Right ω) : Prop where
  free : right = .free ↔ Directory.read s.records (computeRecordPath context) = none
  held : ∀ worker, right = .held worker ↔ ∃ bytes, holding (s.workers worker) = some (context, bytes)
  written : ∀ worker bytes, holding (s.workers worker) = some (context, bytes) →
    Directory.read s.records (computeRecordPath context) = some bytes
  spent : right = .spent → Directory.read s.records (computeRecordPath context) = some context.encode
  tickets : tickets context s.history = if right = .spent then 1 else 0
  balance : claims context s.history = rollbacks context s.history + if right = .free then 0 else 1

/- All that a step can do. -/
inductive Move (s t : State ω) : Prop where
  | quiet (records : t.records = s.records) (workers : ∀ worker, holding (t.workers worker) = holding (s.workers worker))
      (tally : ∀ context, SameTally context s.history t.history)
  | claimed (worker : ω) (context : IssuanceContext) (phase : Phase) (was : holding (s.workers worker) = none)
      (absent : Directory.read s.records (computeRecordPath context) = none) (now : holding phase = some (context, []))
      (same : t = ({ s with records := Directory.replace s.records (computeRecordPath context) [] }.goes worker
        phase).remembers (.claimed context))
  | wrote (worker : ω) (context : IssuanceContext) (before chunk : Bytes) (phase : Phase)
      (was : holding (s.workers worker) = some (context, before)) (now : holding phase = some (context, before ++ chunk))
      (same : t = { s with records := append s.records (computeRecordPath context) chunk }.goes worker phase)
  | lost (worker : ω) (context : IssuanceContext) (bytes : Bytes) (phase : Phase)
      (was : holding (s.workers worker) = some (context, bytes)) (now : holding phase = none) (same : t = s.goes worker phase)
  | ticketed (worker : ω) (context : IssuanceContext) (id : TicketId) (tickets : Tickets) (phase : Phase)
      (was : holding (s.workers worker) = some (context, context.encode)) (now : holding phase = none)
      (same : t = ({ s with tickets }.goes worker phase).remembers (.ticketed (some context) id))
  | rolledBack (worker : ω) (context : IssuanceContext) (phase : Phase)
      (was : holding (s.workers worker) = some (context, context.encode)) (now : holding phase = none)
      (same : t = ({ s with records := rollbackUncommittedIssuance s.records context }.goes worker
        phase).remembers (.rolledBack context))
  | crashed (same : t = { s with queue := [], workers := fun _ => .idle }.remembers .crashed)

/- Every other event leaves a context's tally alone. -/
theorem tallyApart {event : Event} {history : List Event} (apart : concerns event ≠ some context) :
    SameTally context history (event :: history) := by
  cases event with
  | claimed claim | rolledBack claim =>
      have other : claim ≠ context := fun same => apart (congrArg some same)
      constructor <;> simp [tickets, claims, rollbacks, isTicketOf, other]
  | ticketed claim id =>
      constructor
      · cases claim with
        | none => simp [tickets, isTicketOf]
        | some claim =>
            have other : claim ≠ context := fun same => apart (congrArg some same)
            simp [tickets, isTicketOf, other]
      · simp [claims]
      · simp [rollbacks]
  | answered response | crashed => constructor <;> simp [tickets, claims, rollbacks, isTicketOf]

theorem sameTally (history : List Event) : SameTally context history history := ⟨rfl, rfl, rfl⟩

/- A worker that goes on without touching a marker. -/
theorem Move.going {worker : ω} {phase : Phase} (same : holding phase = holding (s.workers worker)) :
    Move s (s.goes worker phase) := by
  refine .quiet rfl (fun other => ?_) fun _ => sameTally _
  by_cases here : other = worker
  · subst here
    simpa [State.goes] using same
  · simp [State.goes, here]

theorem afterVerificationHolds (outcome : Sidecar) (job : Job) : holding (afterVerification job outcome) = none := by
  unfold afterVerification
  split
  · rfl
  · split
    · rfl
    · split
      · rfl
      · split <;> rfl

theorem stepMoves {action : Action ω} (ran : step config s action = some t) : Move s t := by
  cases action with
  | submit job =>
      simp only [step] at ran
      split at ran <;> cases ran
      · exact .quiet rfl (fun _ => rfl) fun _ => tallyApart (by simp [concerns])
      · exact .quiet rfl (fun _ => rfl) fun _ => sameTally _
  | take worker =>
      simp only [step] at ran
      split at ran <;> cases ran
      rename_i job rest phase queue
      refine .quiet rfl (fun other => ?_) fun _ => sameTally _
      by_cases here : other = worker <;> simp [State.goes, here, phase, holding]
  | check worker =>
      simp only [step] at ran
      split at ran <;> try contradiction
      rename_i phase
      split at ran <;> cases ran <;> exact .going (by rw [phase]; rfl)
  | verify worker outcome =>
      simp only [step] at ran
      split at ran <;> try contradiction
      rename_i phase
      split at ran <;> cases ran
      exact .going (by rw [phase, afterVerificationHolds]; rfl)
  | claim worker =>
      simp only [step] at ran
      split at ran <;> try contradiction
      rename_i job context phase
      split at ran <;> cases ran
      · exact .going (by rw [phase]; rfl)
      · rename_i absent
        exact .claimed worker context _ (by rw [phase]; rfl) absent rfl rfl
  | claimFails worker text =>
      simp only [step] at ran
      split at ran <;> cases ran
      rename_i phase
      exact .going (by rw [phase]; rfl)
  | inspect worker =>
      simp only [step] at ran
      split at ran <;> cases ran
      rename_i phase
      exact .going (by rw [phase]; rfl)
  | write worker count =>
      simp only [step] at ran
      split at ran <;> try contradiction
      rename_i job context written phase
      split at ran <;> cases ran
      exact .wrote worker context (context.encode.take written) _ _ (by rw [phase]; rfl)
        (by rw [holding, List.take_add]) rfl
  | writeFails worker text =>
      simp only [step] at ran
      split at ran <;> cases ran
      rename_i job context written phase
      exact .lost worker context _ _ (by rw [phase]; rfl) rfl rfl
  | close worker =>
      simp only [step] at ran
      split at ran <;> try contradiction
      rename_i job context written phase
      split at ran <;> cases ran
      rename_i whole
      exact .going (by rw [phase, holding, holding, whole, List.take_length, Option.map_some])
  | count worker =>
      simp only [step] at ran
      split at ran <;> try contradiction
      rename_i phase
      split at ran <;> cases ran <;> exact .going (by rw [phase]; rfl)
  | draw worker id now =>
      simp only [step] at ran
      split at ran <;> try contradiction
      rename_i phase
      split at ran
      · cases ran
        exact .going (by rw [phase]; rfl)
      · split at ran <;> cases ran <;> exact .going (by rw [phase]; rfl)
  | place worker =>
      simp only [step] at ran
      split at ran <;> try contradiction
      rename_i claim ticket phase
      split at ran <;> cases ran
      · exact .going (by rw [phase]; rfl)
      · cases claim with
        | none =>
            refine .quiet rfl (fun other => ?_) fun _ => tallyApart (by simp [concerns])
            by_cases here : other = worker <;> simp [State.goes, State.remembers, here, phase, holding]
        | some context => exact .ticketed worker context _ _ _ (by rw [phase]; rfl) rfl rfl
  | createFails worker text =>
      simp only [step] at ran
      split at ran <;> cases ran <;> rename_i phase <;> exact .going (by rw [phase]; rfl)
  | rollback worker =>
      simp only [step] at ran
      split at ran <;> cases ran
      · rename_i phase
        exact .going (by rw [phase]; rfl)
      · rename_i context error phase
        exact .rolledBack worker context _ (by rw [phase]; rfl) rfl rfl
  | reply worker =>
      simp only [step] at ran
      split at ran <;> cases ran
      rename_i phase
      refine .quiet rfl (fun other => ?_) fun _ => tallyApart (by simp [concerns])
      by_cases here : other = worker <;> simp [State.goes, State.remembers, here, phase, holding]
  | sign id signature =>
      simp only [step] at ran
      split at ran <;> cases ran
      exact .quiet rfl (fun _ => rfl) fun _ => sameTally _
  | collect id =>
      cases ran
      exact .quiet rfl (fun _ => rfl) fun _ => sameTally _
  | crash =>
      cases ran
      exact .crashed rfl

@[simp] theorem goesWorkers {worker someone : ω} {phase : Phase} :
    (s.goes worker phase).workers someone = if someone = worker then phase else s.workers someone := by
  simp [State.goes, Function.update_apply]

theorem Accounted.alone {worker someone : ω} {bytes bytes' : Bytes} (fine : Accounted s context right)
    (one : holding (s.workers worker) = some (context, bytes)) (two : holding (s.workers someone) = some (context, bytes')) :
    someone = worker := by
  have first := (fine.held worker).mpr ⟨bytes, one⟩
  have second := (fine.held someone).mpr ⟨bytes', two⟩
  rw [first] at second
  exact (Right.held.inj second).symm

/- A step that leaves a context's marker, its holder and its tally alone leaves its right as it was. -/
theorem Accounted.stays (fine : Accounted s context right)
    (records : Directory.read t.records (computeRecordPath context) = Directory.read s.records (computeRecordPath context))
    (workers : ∀ worker bytes, holding (t.workers worker) = some (context, bytes) ↔
      holding (s.workers worker) = some (context, bytes))
    (tally : SameTally context s.history t.history) : Accounted t context right where
  free := by rw [records, fine.free]
  held worker := by
    rw [fine.held worker]
    simp only [workers]
  written worker bytes holds := by
    rw [records]
    exact fine.written worker bytes ((workers worker bytes).mp holds)
  spent done := by rw [records, fine.spent done]
  tickets := by rw [tally.tickets, fine.tickets]
  balance := by rw [tally.claims, tally.rollbacks, fine.balance]

/- A worker that changes its own claim does not touch the holder of another context. -/
theorem heldApart {worker : ω} {phase : Phase} (was : ∀ bytes, holding (s.workers worker) ≠ some (context, bytes))
    (now : ∀ bytes, holding phase ≠ some (context, bytes)) (someone : ω) (bytes : Bytes) :
    holding ((s.goes worker phase).workers someone) = some (context, bytes) ↔
      holding (s.workers someone) = some (context, bytes) := by
  rw [goesWorkers]
  split
  · rename_i here
    subst here
    exact ⟨fun hit => absurd hit (now bytes), fun hit => absurd hit (was bytes)⟩
  · exact Iff.rfl

/- The one who held a context lets go of it: nobody holds it. -/
theorem Accounted.letGo {worker : ω} {phase : Phase} {bytes : Bytes} (fine : Accounted s context right)
    (was : holding (s.workers worker) = some (context, bytes)) (now : holding phase = none) (someone : ω) (bytes' : Bytes) :
    holding ((s.goes worker phase).workers someone) ≠ some (context, bytes') := by
  rw [goesWorkers]
  split
  · simp [now]
  · rename_i other
    exact fun holds => other (fine.alone was holds)

/- A right nobody holds. -/
theorem accountedUnheld (nobody : ∀ someone bytes, holding (t.workers someone) ≠ some (context, bytes))
    (unheld : ∀ worker, right ≠ .held worker)
    (free : right = .free ↔ Directory.read t.records (computeRecordPath context) = none)
    (spent : right = .spent → Directory.read t.records (computeRecordPath context) = some context.encode)
    (ticketed : Signer.tickets context t.history = if right = .spent then 1 else 0)
    (balance : claims context t.history = rollbacks context t.history + if right = .free then 0 else 1) :
    Accounted t context right where
  free := free
  held worker := ⟨fun held => absurd held (unheld worker), fun holds => absurd holds.choose_spec (nobody worker _)⟩
  written worker bytes holds := absurd holds (nobody worker bytes)
  spent := spent
  tickets := ticketed
  balance := balance

/- A right one worker holds. -/
theorem accountedHeld {worker : ω} {data : Bytes}
    (holder : ∀ someone bytes, holding (t.workers someone) = some (context, bytes) ↔ someone = worker ∧ bytes = data)
    (there : Directory.read t.records (computeRecordPath context) = some data)
    (ticketed : Signer.tickets context t.history = 0)
    (balance : claims context t.history = rollbacks context t.history + 1) : Accounted t context (.held worker) where
  free := by simp [there]
  held someone := by
    simp only [holder, exists_and_left, exists_eq, and_true, Right.held.injEq]
    exact eq_comm
  written someone bytes holds := by
    rw [there, ((holder someone bytes).mp holds).2]
  spent done := by cases done
  tickets := ticketed
  balance := balance

theorem Move.accounted (move : Move s t) (fine : Accounted s context right) : ∃ right', Accounted t context right' := by
  cases move with
  | quiet records workers tally =>
      refine ⟨right, fine.stays (by rw [records]) (fun worker bytes => ?_) (tally context)⟩
      rw [workers worker]
  | claimed worker claim phase was absent now same =>
      subst same
      by_cases own : claim = context
      · subst own
        have free := fine.free.mpr absent
        subst free
        have nobody (someone : ω) (bytes : Bytes) : holding (s.workers someone) ≠ some (claim, bytes) := by
          intro holds
          have held := (fine.held someone).mpr ⟨bytes, holds⟩
          cases held
        have holder (someone : ω) (bytes : Bytes) : holding ((s.goes worker phase).workers someone) = some (claim, bytes) ↔
            someone = worker ∧ bytes = [] := by
          rw [goesWorkers]
          split
          · rename_i here
            simp [now, here, eq_comm]
          · rename_i away
            simpa [away] using nobody someone bytes
        refine ⟨.held worker, accountedHeld holder Directory.readReplaced ?_ ?_⟩
        · simpa [Signer.tickets, isTicketOf, State.goes, State.remembers] using fine.tickets
        · simpa [claims, rollbacks, State.goes, State.remembers] using fine.balance
      · have others : computeRecordPath context ≠ computeRecordPath claim := fun same => own (recordPathInj same).symm
        refine ⟨right, fine.stays (Directory.readReplacedOther others) (heldApart ?_ ?_) (tallyApart ?_)⟩
        · simp [was]
        · simp [now, own]
        · simpa [concerns] using own
  | wrote worker claim before chunk phase was now same =>
      subst same
      by_cases own : claim = context
      · subst own
        have there := fine.written worker before was
        obtain rfl := (fine.held worker).mpr ⟨before, was⟩
        have appended : append s.records (computeRecordPath claim) chunk =
            Directory.replace s.records (computeRecordPath claim) (before ++ chunk) := by
          unfold append
          rw [there]
        have holder (someone : ω) (bytes : Bytes) : holding ((s.goes worker phase).workers someone) = some (claim, bytes) ↔
            someone = worker ∧ bytes = before ++ chunk := by
          rw [goesWorkers]
          split
          · rename_i here
            simp [now, here, eq_comm]
          · rename_i away
            simp only [away, false_and, iff_false]
            exact fun holds => away (fine.alone was holds)
        exact ⟨.held worker, accountedHeld holder (by simp [State.goes, appended]) fine.tickets fine.balance⟩
      · have others : computeRecordPath context ≠ computeRecordPath claim := fun same => own (recordPathInj same).symm
        refine ⟨right, fine.stays ?_ (heldApart ?_ ?_) (sameTally _)⟩
        · show Directory.read (append _ _ _) _ = _
          unfold append
          split
          · rfl
          · exact Directory.readReplacedOther others
        · simp [was, own]
        · simp [now, own]
  | lost worker claim bytes phase was now same =>
      subst same
      by_cases own : claim = context
      · subst own
        have nobody := fine.letGo was now
        have there := fine.written worker bytes was
        obtain rfl := (fine.held worker).mpr ⟨bytes, was⟩
        exact ⟨.lost, accountedUnheld nobody (by simp) (by simp [State.goes, there]) (by simp) fine.tickets fine.balance⟩
      · exact ⟨right, fine.stays rfl (heldApart (by simp [was, own]) (by simp [now])) (sameTally _)⟩
  | ticketed worker claim id tickets phase was now same =>
      subst same
      by_cases own : claim = context
      · subst own
        have nobody := fine.letGo was now
        have there := fine.written worker _ was
        obtain rfl := (fine.held worker).mpr ⟨_, was⟩
        have none := fine.tickets
        refine ⟨.spent, accountedUnheld nobody (by simp) (by simp [State.goes, State.remembers, there]) (fun _ => there) ?_ ?_⟩
        · simpa [Signer.tickets, isTicketOf, State.goes, State.remembers] using none
        · simpa [claims, rollbacks, State.goes, State.remembers] using fine.balance
      · exact ⟨right, fine.stays rfl (heldApart (by simp [was, own]) (by simp [now])) (tallyApart (by simpa [concerns] using own))⟩
  | rolledBack worker claim phase was now same =>
      subst same
      by_cases own : claim = context
      · subst own
        have nobody := fine.letGo was now
        obtain rfl := (fine.held worker).mpr ⟨_, was⟩
        refine ⟨.free, accountedUnheld nobody (by simp) ?_ (by simp) ?_ ?_⟩
        · simp [State.goes, State.remembers, rollbackUncommittedIssuance]
        · simpa [Signer.tickets, isTicketOf, State.goes, State.remembers] using fine.tickets
        · simpa [claims, rollbacks, State.goes, State.remembers] using fine.balance
      · have others : computeRecordPath context ≠ computeRecordPath claim := fun same => own (recordPathInj same).symm
        refine ⟨right, fine.stays (Directory.readUnlinkedOther others) (heldApart ?_ ?_) (tallyApart ?_)⟩
        · simp [was, own]
        · simp [now]
        · simpa [concerns] using own
  | crashed same =>
      subst same
      have nobody (someone : ω) (bytes : Bytes) : holding Phase.idle ≠ some (context, bytes) := by simp [holding]
      have tally : SameTally context s.history (.crashed :: s.history) := tallyApart (by simp [concerns])
      have ticketed := fine.tickets
      have balance := fine.balance
      have free := fine.free
      rw [← tally.tickets] at ticketed
      rw [← tally.claims, ← tally.rollbacks] at balance
      cases right with
      | held worker =>
          exact ⟨.lost, accountedUnheld nobody (by simp) (by simpa [State.remembers] using free) (by simp) ticketed balance⟩
      | free | spent | lost =>
          exact ⟨_, accountedUnheld nobody (by simp) free fine.spent ticketed balance⟩

theorem runAccounted {actions : List (Action ω)} (ran : run config s actions = some t) (fine : Accounted s context right) :
    ∃ right', Accounted t context right' := by
  induction actions generalizing s right with
  | nil =>
      cases ran
      exact ⟨right, fine⟩
  | cons action rest ih =>
      obtain ⟨u, stepped, ran⟩ := Option.bind_eq_some_iff.mp ran
      obtain ⟨_, fine⟩ := (stepMoves stepped).accounted fine
      exact ih ran fine

theorem startAccounted (context : IssuanceContext) (tickets : Tickets) : Accounted (start ω tickets) context .free :=
  accountedUnheld (fun _ _ => by simp [start, holding]) (by simp) (by simp [start, Directory.read]) (by simp) rfl rfl

/- Every claim on a context was given back. -/
def Settled (context : IssuanceContext) (history : List Event) : Prop :=
  claims context history = rollbacks context history

theorem Accounted.settled (fine : Accounted s context right) : Settled context s.history ↔
    Directory.read s.records (computeRecordPath context) = none := by
  have balance := fine.balance
  rw [← fine.free]
  unfold Settled
  split at balance <;> simp_all

theorem arrayToPolyDegree (value : Vector UInt16 512) : (arrayToPoly value).length = ringDegree := by
  simp [arrayToPoly, ringDegree]

/- A job whose marker is not there yet goes all the way to its ticket, if the store takes it. -/
theorem issues {worker : ω} {job : Job} {rest : List Job} {error reason : String} {id : TicketId} (now : UInt64)
    (absent : Directory.read s.records (computeRecordPath context) = none) (idle : s.workers worker = .idle)
    (next : s.queue = job :: rest) (asked : job.issuanceContext = some context) (checked : checkMetadata job = none)
    (verified : config.answers job.request.pi1Receipt (expected config.b job.request) (.answered true error true reason))
    (room : existing s.tickets < config.maxPendingTickets) (unused : Directory.read s.tickets (ticketPath id) = none) :
    ∃ actions u, run config s actions = some u ∧ Event.ticketed (some context) id ∈ u.history ∧
      find u.tickets id = .ok (some { ticketId := id, c := arrayToPoly job.request.c, receivedAtUnixSeconds := now }) := by
  have fine : Ticket.WellFormed { ticketId := id, c := arrayToPoly job.request.c, receivedAtUnixSeconds := now } :=
    ⟨arrayToPolyDegree _, fun _ => rfl, fun signed => by cases signed⟩
  obtain ⟨bytes, encoded⟩ := Ticket.encodeOk fine
  refine ⟨[.take worker, .check worker, .verify worker (.answered true error true reason), .claim worker,
    .write worker context.encode.length, .close worker, .count worker, .draw worker id now, .place worker], ?_⟩
  have positive : 0 < context.encode.length := by simp [IssuanceContext.encodeLength]
  have space : ¬config.maxPendingTickets ≤ existing s.tickets := Nat.not_le.mpr room
  simp only [run, step, idle, next, State.goes, checked, verified, afterVerification, asked, absent, positive, space, unused,
    encoded, append, State.remembers, Function.update_self, Directory.readReplaced, Option.bind_eq_bind, Option.bind_some,
    Function.update_idem, Bool.not_true, Bool.false_eq_true, if_false, if_true, ge_iff_le, Nat.zero_add, le_refl, and_self,
    List.drop_zero, List.take_length, List.nil_append, Option.some.injEq, exists_eq_left']
  exact ⟨List.mem_cons_self, findWritten fine encoded Directory.readReplaced⟩

/- What the marker and the ticket are worth together, in one state of a run. -/
structure IssuedOnce (config : Config) (s : State ω) : Prop where
  once : ∀ context, tickets context s.history ≤ 1
  marked : ∀ context, tickets context s.history = 1 →
    Directory.read s.records (computeRecordPath context) = some context.encode
  ownMarker : ∀ worker t context, step config s (.rollback worker) = some t →
    Directory.read t.records (computeRecordPath context) ≠ Directory.read s.records (computeRecordPath context) →
    holding (s.workers worker) = some (context, context.encode) ∧ tickets context s.history = 0 ∧
      ∀ someone bytes, holding (s.workers someone) = some (context, bytes) → someone = worker
  givenBack : ∀ worker context error, s.workers worker = .failing (some context) error →
    ∃ t, step config s (.rollback worker) = some t ∧ Settled context t.history
  reissued : ∀ context worker job rest error reason id now, Settled context s.history → s.workers worker = .idle →
    s.queue = job :: rest → job.issuanceContext = some context → checkMetadata job = none →
    config.answers job.request.pi1Receipt (expected config.b job.request) (.answered true error true reason) →
    existing s.tickets < config.maxPendingTickets → Directory.read s.tickets (ticketPath id) = none →
    ∃ actions u, run config s actions = some u ∧ Event.ticketed (some context) id ∈ u.history ∧
      find u.tickets id = .ok (some { ticketId := id, c := arrayToPoly job.request.c, receivedAtUnixSeconds := now })

theorem oneTicketPerContext {files : Tickets} {actions : List (Action ω)}
    (ran : run config (start ω files) actions = some s) : IssuedOnce config s where
  once context := by
    obtain ⟨right, fine⟩ := runAccounted ran (startAccounted context files)
    rw [fine.tickets]
    split <;> omega
  marked context one := by
    obtain ⟨right, fine⟩ := runAccounted ran (startAccounted context files)
    have ticketed := fine.tickets
    rw [one] at ticketed
    split at ticketed
    · rename_i spent
      exact fine.spent spent
    · contradiction
  ownMarker worker t context stepped changed := by
    obtain ⟨right, fine⟩ := runAccounted ran (startAccounted context files)
    simp only [step] at stepped
    split at stepped <;> cases stepped
    · exact absurd rfl changed
    · rename_i claim error phase
      by_cases own : claim = context
      · subst own
        have holds : holding (s.workers worker) = some (claim, claim.encode) := by rw [phase]; rfl
        have held := (fine.held worker).mpr ⟨_, holds⟩
        have ticketed := fine.tickets
        rw [if_neg (by simp [held])] at ticketed
        exact ⟨holds, ticketed, fun someone bytes also => fine.alone holds also⟩
      · have others : computeRecordPath context ≠ computeRecordPath claim := fun same => own (recordPathInj same).symm
        exact absurd (Directory.readUnlinkedOther others) changed
  givenBack worker context error failing := by
    obtain ⟨right, fine⟩ := runAccounted ran (startAccounted context files)
    have stepped : ∃ t, step config s (.rollback worker) = some t ∧
        Directory.read t.records (computeRecordPath context) = none := by
      simp only [step, failing]
      exact ⟨_, rfl, Directory.readUnlinked⟩
    obtain ⟨t, stepped, gone⟩ := stepped
    obtain ⟨_, after⟩ := (stepMoves stepped).accounted fine
    exact ⟨t, stepped, after.settled.mpr gone⟩
  reissued context worker job rest error reason id now settled idle next asked checked verified room unused := by
    obtain ⟨right, fine⟩ := runAccounted ran (startAccounted context files)
    exact issues now (fine.settled.mp settled) idle next asked checked verified room unused

end Rights

def askedRequest : AssembledRequest where
  c := Vector.replicate 512 7
  encA := Vector.replicate 512 0
  encPk := Vector.replicate 512 0
  ct1R := Vector.replicate 512 0
  ct2R := Vector.replicate 512 0
  ct1Mu := Vector.replicate 512 0
  ct2Mu := Vector.replicate 512 0
  credentialIssuance := true
  issuanceRoomId := Vector.replicate 32 9
  pi1Receipt := []

def askedContext : IssuanceContext where
  roomId := Vector.replicate 32 9
  party := 1

def askedJob : Job := ⟨askedRequest, some askedContext⟩

def smallStore : Config where
  b := []
  queueCapacity := 4
  maxPendingTickets := 1
  answers := fun _ _ outcome => outcome = .answered true "unknown" true ""

def toTicket (worker : Bool) : List (Action Bool) :=
  [.take worker, .check worker, .verify worker (.answered true "unknown" true ""), .claim worker, .write worker 39,
    .close worker, .count worker]

/- Two workers have the same right to grant; the first cannot make its ticket, the second comes after it. -/
def twoWorkers : List (Action Bool) :=
  [.submit askedJob, .submit askedJob] ++ toTicket true ++ [.createFails true "disk full", .rollback true] ++
    toTicket false ++ [.draw false (Vector.replicate 32 5) 1000, .place false, .reply false, .reply true, .crash]

theorem secondWorkerIssues : ∃ s, run smallStore (start Bool []) twoWorkers = some s ∧ tickets askedContext s.history = 1 ∧
    IssuedOnce smallStore s := by
  have ran : ((run smallStore (start Bool []) twoWorkers).map fun s => tickets askedContext s.history) = some 1 := by
    decide +kernel
  obtain ⟨s, there, one⟩ := Option.map_eq_some_iff.mp ran
  exact ⟨s, there, one, oneTicketPerContext there⟩

end Signer
end TradeP2P.Credential
