import Mathlib.Combinatorics.Enumerative.DoubleCounting
import Mathlib.Data.List.ReduceOption
import TradeP2P.Lib.Schedules
import TradeP2P.Protocol.Escape
import TradeP2P.Blind.Acceptance
import TradeP2P.Credential.IssuancePath

/-! How many credentials there can be. Every accepted one opens a target that was signed, every signed target had a
ticket, and a ticket was either for an authorized party of a completed room or for a raw request. -/
namespace TradeP2P.Credential
open Wire (Bytes)
open Checks
open Schedules

/- The context a worker is at. -/
def Signer.Phase.context : Signer.Phase → Option IssuanceContext
  | .checking job | .verifying job => job.issuanceContext
  | .claiming _ context | .inspecting context | .writing _ context _ => some context
  | .counting _ claim | .drawing _ claim _ | .placing claim _ | .failing claim _ => claim
  | .idle | .replying _ => none

namespace Signer
variable {ω : Type} [DecidableEq ω] {config : Config} {s t : State ω} {action : Action ω} {P Q : IssuanceContext → Prop}

/- All that a step does to the jobs and the contexts. -/
inductive Passes (s t : State ω) (action : Action ω) : Prop where
  | went (worker : ω) (phase : Phase) (queue : t.queue = s.queue) (workers : t.workers = Function.update s.workers worker phase)
      (context : phase.context = none ∨ phase.context = (s.workers worker).context)
  | took (worker : ω) (job : Job) (rest : List Job) (queue : s.queue = job :: rest) (left : t.queue = rest)
      (workers : t.workers = Function.update s.workers worker (.checking job))
  | submitted (job : Job) (is : action = .submit job) (queue : ∀ one ∈ t.queue, one ∈ s.queue ∨ one = job) (workers : t.workers = s.workers)
  | stayed (queue : t.queue = s.queue) (workers : t.workers = s.workers)
  | crashed (queue : t.queue = []) (workers : t.workers = fun _ => .idle)

theorem verificationContext (job : Job) (outcome : Sidecar) :
    (afterVerification job outcome).context = none ∨ (afterVerification job outcome).context = job.issuanceContext := by
  unfold afterVerification
  split
  · exact .inl rfl
  · split
    · exact .inl rfl
    · split
      · exact .inl rfl
      · split
        next none_ => exact .inl rfl
        next context some_ => exact .inr some_.symm

theorem stepPasses (ran : step config s action = some t) : Passes s t action := by
  cases action with
  | submit job =>
    simp only [step] at ran
    split at ran <;> cases ran
    · exact .submitted job rfl (fun one among => .inl among) rfl
    · refine .submitted job rfl (fun one among => ?_) rfl
      rcases List.mem_append.mp among with before | new
      · exact .inl before
      · exact .inr (List.mem_singleton.mp new)
  | take worker =>
    simp only [step] at ran
    split at ran <;> cases ran
    next job rest idle queue => exact .took worker job rest queue rfl rfl
  | check worker =>
    simp only [step] at ran
    split at ran <;> try contradiction
    next job at_ =>
      split at ran <;> cases ran
      · exact .went worker _ rfl rfl (.inl rfl)
      · exact .went worker _ rfl rfl (.inr (by rw [at_]; rfl))
  | verify worker outcome =>
    simp only [step] at ran
    split at ran <;> try contradiction
    next job at_ =>
      split at ran <;> cases ran
      refine .went worker _ rfl rfl ?_
      rw [at_]
      exact verificationContext job outcome
  | claim worker =>
    simp only [step] at ran
    split at ran <;> try contradiction
    next job context at_ =>
      split at ran <;> cases ran <;> exact .went worker _ rfl rfl (.inr (by rw [at_]; rfl))
  | claimFails worker text | inspect worker | writeFails worker text | reply worker =>
    simp only [step] at ran
    split at ran <;> cases ran
    exact .went worker _ rfl rfl (.inl rfl)
  | write worker count | close worker =>
    simp only [step] at ran
    split at ran <;> try contradiction
    next job context written at_ =>
      split at ran <;> cases ran
      exact .went worker _ rfl rfl (.inr (by rw [at_]; rfl))
  | count worker =>
    simp only [step] at ran
    split at ran <;> try contradiction
    next job claim at_ =>
      split at ran <;> cases ran <;> exact .went worker _ rfl rfl (.inr (by rw [at_]; rfl))
  | draw worker id now =>
    simp only [step] at ran
    split at ran <;> try contradiction
    next job claim attempt at_ =>
      split at ran
      · cases ran
        exact .went worker _ rfl rfl (.inr (by rw [at_]; rfl))
      · split at ran <;> cases ran <;> exact .went worker _ rfl rfl (.inr (by rw [at_]; rfl))
  | place worker =>
    simp only [step] at ran
    split at ran <;> try contradiction
    next claim ticket at_ =>
      split at ran <;> cases ran
      · exact .went worker _ rfl rfl (.inr (by rw [at_]; rfl))
      · exact .went worker _ rfl rfl (.inl rfl)
  | createFails worker text =>
    simp only [step] at ran
    split at ran <;> cases ran
    all_goals
      next at_ => exact .went worker _ rfl rfl (.inr (by rw [at_]; rfl))
  | rollback worker =>
    simp only [step] at ran
    split at ran <;> cases ran <;> exact .went worker _ rfl rfl (.inl rfl)
  | sign id signature =>
    simp only [step] at ran
    split at ran <;> cases ran
    exact .stayed rfl rfl
  | collect id =>
    cases ran
    exact .stayed rfl rfl
  | crash =>
    cases ran
    exact .crashed rfl rfl

/- Every context in a state is one of `P`. -/
structure From (P : IssuanceContext → Prop) (s : State ω) : Prop where
  queued : ∀ job ∈ s.queue, ∀ context, job.issuanceContext = some context → P context
  working : ∀ worker context, (s.workers worker).context = some context → P context

omit [DecidableEq ω] in
theorem From.mono (from_ : From P s) (implies : ∀ context, P context → Q context) : From Q s :=
  ⟨fun job among context own => implies context (from_.queued job among context own),
    fun worker context own => implies context (from_.working worker context own)⟩

theorem From.update {worker : ω} {phase : Phase} (from_ : From P s) (queue : ∀ job ∈ t.queue, job ∈ s.queue)
    (workers : t.workers = Function.update s.workers worker phase) (own : ∀ context, phase.context = some context → P context) :
    From P t := by
  refine ⟨fun job among => from_.queued job (queue job among), fun other context at_ => ?_⟩
  rw [workers, Function.update_apply] at at_
  split at at_
  · exact own context at_
  · exact from_.working other context at_

/- A context comes with its job. -/
theorem From.step (from_ : From P s) (ran : step config s action = some t)
    (submitted : ∀ job, action = .submit job → ∀ context, job.issuanceContext = some context → P context) : From P t := by
  cases stepPasses ran with
  | went worker phase queue workers context =>
    refine from_.update (by rw [queue]; exact fun job among => among) workers fun own at_ => ?_
    rcases context with none_ | same
    · cases none_.symm.trans at_
    · exact from_.working worker own (same ▸ at_)
  | took worker job rest queue left workers =>
    have head : job ∈ s.queue := queue ▸ List.mem_cons_self
    refine from_.update (fun one among => ?_) workers fun own at_ => from_.queued job head own at_
    rw [queue]
    exact List.mem_cons_of_mem _ (left ▸ among)
  | submitted job is queue workers =>
    refine ⟨fun one among context own => ?_, fun worker context at_ => from_.working worker context (workers ▸ at_)⟩
    rcases queue one among with before | rfl
    · exact from_.queued one before context own
    · exact submitted one is context own
  | stayed queue workers => exact ⟨by rw [queue]; exact from_.queued, by rw [workers]; exact from_.working⟩
  | crashed queue workers =>
    constructor
    · simp [queue]
    · simp [workers, Phase.context]

/-! The tickets of a history. -/

def claimOf : Event → Option (Option IssuanceContext)
  | .ticketed claim _ => some claim
  | _ => none

def claimsOf (history : List Event) : List (Option IssuanceContext) := history.filterMap claimOf

theorem claimsCons (event : Event) (history : List Event) : claimsOf (event :: history) = (claimOf event).toList ++ claimsOf history := by
  unfold claimsOf
  cases at_ : claimOf event with
  | none => rw [List.filterMap_cons_none at_]; rfl
  | some claim => rw [List.filterMap_cons_some at_]; rfl

theorem claimsCount (context : IssuanceContext) (history : List Event) : (claimsOf history).count (some context) = tickets context history := by
  induction history with
  | nil => rfl
  | cons event rest ih =>
    unfold tickets at ih ⊢
    rw [claimsCons, List.count_append, List.countP_cons, ih]
    cases event with
    | ticketed claim id =>
      cases claim with
      | none => simp [claimOf, isTicketOf]
      | some own => simp [claimOf, isTicketOf, List.count_singleton, add_comm]
    | _ => simp [claimOf, isTicketOf]

theorem rawCount (history : List Event) : (claimsOf history).count none = history.countP IssuerState.isRawTicket := by
  induction history with
  | nil => rfl
  | cons event rest ih =>
    rw [claimsCons, List.count_append, List.countP_cons, ih]
    cases event with
    | ticketed claim id => cases claim <;> simp [claimOf, IssuerState.isRawTicket, add_comm]
    | _ => simp [claimOf, IssuerState.isRawTicket]

theorem claimsSplit (claims : List (Option IssuanceContext)) : claims.length = claims.count none + claims.reduceOption.length := by
  induction claims with
  | nil => rfl
  | cons claim rest ih =>
    cases claim with
    | none =>
      rw [List.reduceOption_cons_of_none, List.count_cons_self, List.length_cons, ih]
      omega
    | some own =>
      rw [List.reduceOption_cons_of_some, List.count_cons_of_ne (by simp), List.length_cons, List.length_cons, ih]
      omega

theorem countReduced (context : IssuanceContext) (claims : List (Option IssuanceContext)) :
    claims.reduceOption.count context = claims.count (some context) := by
  induction claims with
  | nil => rfl
  | cons claim rest ih =>
    cases claim with
    | none => rw [List.reduceOption_cons_of_none, ih, List.count_cons_of_ne (by simp)]
    | some own => simp [List.reduceOption_cons_of_some, List.count_cons, ih]

/- A step puts a ticket into the history where it puts one into the store, for the context its worker is at. -/
inductive Enters (s t : State ω) (action : Action ω) : Prop where
  | none (history : claimsOf t.history = claimsOf s.history) (placed : IssuerState.placed s action = [])
  | one (worker : ω) (claim : Option IssuanceContext) (ticket : Ticket) (bytes : Bytes) (response : BlindSigResponse)
      (was : s.workers worker = .placing claim ticket) (encoded : ticket.encode = .ok bytes)
      (tickets : t.tickets = Directory.replace s.tickets (ticketPath ticket.ticketId) bytes)
      (workers : t.workers = Function.update s.workers worker (.replying response))
      (history : claimsOf t.history = claim :: claimsOf s.history) (placed : IssuerState.placed s action = [ticket.c])

theorem stepEnters (ran : step config s action = some t) : Enters s t action := by
  cases action with
  | submit job =>
    simp only [step] at ran
    split at ran <;> cases ran <;> exact .none rfl rfl
  | take worker =>
    simp only [step] at ran
    split at ran <;> cases ran
    exact .none rfl rfl
  | check worker =>
    simp only [step] at ran
    split at ran <;> try contradiction
    split at ran <;> cases ran <;> exact .none rfl rfl
  | verify worker outcome =>
    simp only [step] at ran
    split at ran <;> try contradiction
    split at ran <;> cases ran
    exact .none rfl rfl
  | claim worker | count worker =>
    simp only [step] at ran
    split at ran <;> try contradiction
    split at ran <;> cases ran <;> exact .none rfl rfl
  | claimFails worker text | inspect worker | writeFails worker text | reply worker | createFails worker text =>
    simp only [step] at ran
    split at ran <;> cases ran <;> exact .none rfl rfl
  | write worker count | close worker =>
    simp only [step] at ran
    split at ran <;> try contradiction
    split at ran <;> cases ran
    exact .none rfl rfl
  | draw worker id now =>
    simp only [step] at ran
    split at ran <;> try contradiction
    split at ran
    · cases ran
      exact .none rfl rfl
    · split at ran <;> cases ran <;> exact .none rfl rfl
  | place worker =>
    simp only [step] at ran
    split at ran <;> try contradiction
    next claim ticket at_ =>
      split at ran
      next error failed =>
        cases ran
        exact .none rfl (by simp only [IssuerState.placed, at_, failed])
      next bytes encoded =>
        cases ran
        exact .one worker claim ticket bytes _ at_ encoded rfl rfl rfl (by simp only [IssuerState.placed, at_, encoded])
  | rollback worker =>
    simp only [step] at ran
    split at ran <;> cases ran <;> exact .none rfl rfl
  | sign id signature =>
    simp only [step] at ran
    split at ran <;> cases ran
    exact .none rfl rfl
  | collect id | crash =>
    cases ran
    exact .none rfl rfl

end Signer

/-! The files, and what the operator signs of them. -/
namespace Polling
variable {ω κ : Type} [DecidableEq ω] [DecidableEq κ] {config : Config} {s t : State ω κ} {action : Action ω κ}
  {tickets tickets' : Tickets} {ticketed : List PolyQ} {id : TicketId} {ticket : Ticket} {signature : Signature}

open IssuerState (ticketsOf signsOf)

/- Every file of a store is a whole ticket, for a target that was ticketed. -/
def Filled (tickets : Tickets) (ticketed : List PolyQ) : Prop :=
  ∀ path bytes, Directory.read tickets path = some bytes →
    ∃ ticket : Ticket, ticket.WellFormed ∧ ticket.encode = .ok bytes ∧ ticket.c ∈ ticketed

theorem Filled.replaced {path bytes : Bytes} (filled : Filled tickets ticketed) (fine : ticket.WellFormed) (encoded : ticket.encode = .ok bytes)
    (among : ticket.c ∈ ticketed) : Filled (Directory.replace tickets path bytes) ticketed := by
  intro other there read
  by_cases here : other = path
  · subst here
    rw [Directory.readReplaced] at read
    cases read
    exact ⟨ticket, fine, encoded, among⟩
  · exact filled other there ((Directory.readReplacedOther here).symm.trans read)

theorem Filled.removed (filled : Filled tickets ticketed) : Filled (remove tickets id) ticketed := by
  intro other there read
  by_cases here : other = ticketPath id
  · rw [here, remove, Directory.readUnlinked] at read
    cases read
  · exact filled other there ((Directory.readUnlinkedOther here).symm.trans read)

theorem Filled.mono {more : List PolyQ} (filled : Filled tickets ticketed) (grows : ticketed ⊆ more) : Filled tickets more := by
  intro path bytes read
  obtain ⟨ticket, fine, encoded, among⟩ := filled path bytes read
  exact ⟨ticket, fine, encoded, grows among⟩

theorem Filled.found (filled : Filled tickets ticketed) (found : find tickets id = .ok (some ticket)) :
    ticket.WellFormed ∧ ticket.c ∈ ticketed := by
  cases read : Directory.read tickets (ticketPath id) with
  | none =>
    rw [find, read] at found
    cases found
  | some bytes =>
    obtain ⟨whole, fine, encoded, among⟩ := filled _ _ read
    have same := found.symm.trans (findWritten fine encoded read)
    cases same
    exact ⟨fine, among⟩

/- A signature changes nothing of a ticket but its status. -/
theorem Filled.marked (filled : Filled tickets ticketed) (marked : markSigned tickets id signature = .ok tickets')
    (width0 : signature.s0.length = ringDegree) (width1 : signature.s1.length = ringDegree) : Filled tickets' ticketed := by
  simp only [markSigned, bind_ok] at marked
  obtain ⟨found, looked, marked⟩ := marked
  cases found with
  | none => cases marked
  | some ticket =>
    simp only [bind_ok, pure_ok] at marked
    obtain ⟨_, _, bytes, encoded, rfl⟩ := marked
    obtain ⟨fine, among⟩ := filled.found looked
    have signed : Ticket.WellFormed { ticket with status := .signed, signature := some signature } :=
      ⟨fine.c, fun pending => (by cases pending), fun _ => ⟨signature, rfl, width0, width1⟩⟩
    exact filled.replaced signed encoded among

structure Stored (s : State ω κ) (ticketed : List PolyQ) : Prop where
  files : Filled s.signer.tickets ticketed
  placing : ∀ worker claim ticket, s.signer.workers worker = .placing claim ticket → ticket.WellFormed
  operator : ∀ id ticket, s.operator = some (id, ticket) → ticket.c ∈ ticketed

/- Where a step leaves the workers alone. -/
omit [DecidableEq ω] [DecidableEq κ] in
theorem Stored.same (stored : Stored s ticketed) (files : Filled t.signer.tickets ticketed) (workers : t.signer.workers = s.signer.workers)
    (operator : t.operator = s.operator ∨ t.operator = none) : Stored t ticketed := by
  refine ⟨files, by rw [workers]; exact stored.placing, fun id ticket operates => ?_⟩
  rcases operator with same | none_
  · exact stored.operator id ticket (same.symm.trans operates)
  · cases none_.symm.trans operates

omit [DecidableEq κ] in
theorem Stored.worked {own : Signer.Action ω} (stored : Stored s ticketed) (ofWorker : ofWorkers own = true)
    (ran : Signer.step config.signer s.signer own = some t.signer) (operator : t.operator = s.operator) :
    Stored t (IssuerState.placed s.signer own ++ ticketed) := by
  cases Signer.stepEnters ran with
  | none history placed =>
    rw [placed]
    have operates : ∀ id ticket, t.operator = some (id, ticket) → ticket.c ∈ ticketed := fun id ticket operates =>
      stored.operator id ticket (operator.symm.trans operates)
    cases workerFiles ofWorker ran with
    | quiet tickets placing _ =>
      exact ⟨by rw [tickets]; exact stored.files, fun worker claim ticket at_ => stored.placing worker claim ticket (placing _ _ _ at_), operates⟩
    | drew worker id now claim c _ _ same =>
      refine ⟨by rw [same]; exact stored.files, fun other own ticket at_ => ?_, operates⟩
      rw [same, Signer.goesWorkers] at at_
      split at at_
      · cases at_
        exact ⟨by simp [arrayToPoly, ringDegree], fun _ => rfl, fun signed => (by cases signed)⟩
      · exact stored.placing other own ticket at_
    | placed worker claim ticket bytes response _ _ same =>
      rw [same] at history
      have longer := congrArg List.length history
      simp [Signer.State.remembers, Signer.claimsCons, Signer.claimOf, Signer.State.goes] at longer
  | one worker claim ticket bytes response was encoded tickets workers history placed =>
    rw [placed]
    have grows : ticketed ⊆ [ticket.c] ++ ticketed := List.subset_append_right _ _
    refine ⟨?_, fun other own there at_ => ?_, fun id there operates => grows (stored.operator id there (operator.symm.trans operates))⟩
    · rw [tickets]
      exact (stored.files.mono grows).replaced (stored.placing worker claim ticket was) encoded List.mem_cons_self
    · rw [workers, Function.update_apply] at at_
      split at at_
      · cases at_
      · exact stored.placing other own there at_

/- All that a step does to the signer, and to the ticket that the operator is at. -/
inductive Touches (config : Config) (s t : State ω κ) (action : Action ω κ) : Prop where
  | works (own : Signer.Action ω) (is : action = .worker own) (ofWorker : ofWorkers own = true)
      (ran : Signer.step config.signer s.signer own = some t.signer) (operator : t.operator = s.operator)
  | reads (id : TicketId) (ticket : Ticket) (is : action = .trySign id) (found : find s.signer.tickets id = .ok (some ticket))
      (signer : t.signer = s.signer) (operator : t.operator = some (id, ticket))
  | marks (id : TicketId) (signature : Signature) (tickets : Tickets) (is : action = .markSigned signature)
      (marked : markSigned s.signer.tickets id signature = .ok tickets) (width0 : signature.s0.length = ringDegree)
      (width1 : signature.s1.length = ringDegree) (signer : t.signer = { s.signer with tickets }) (operator : t.operator = none)
  | removes (id : TicketId) (quiet : ticketsOf s action = []) (signer : t.signer = { s.signer with tickets := remove s.signer.tickets id })
      (operator : t.operator = s.operator)
  | crashes (is : action = .restart) (ran : Signer.step config.signer s.signer .crash = some t.signer) (operator : t.operator = none)
  | others (quiet : ticketsOf s action = []) (signer : t.signer = s.signer) (operator : t.operator = s.operator ∨ t.operator = none)

theorem stepTouches (ran : step config s action = some t) : Touches config s t action := by
  cases action with
  | worker own =>
    simp only [step] at ran
    split at ran <;> try contradiction
    next ofWorker =>
      obtain ⟨signer, worked, made⟩ := Option.map_eq_some_iff.mp ran
      cases made
      exact .works own rfl ofWorker worked rfl
  | trySign id =>
    simp only [step] at ran
    split at ran <;> try contradiction
    next ticket free found =>
      split at ran <;> cases ran
      · exact .reads id ticket rfl found rfl rfl
      · exact .others rfl rfl (.inl rfl)
    next =>
      cases ran
      exact .others rfl rfl (.inl rfl)
  | markSigned signature =>
    simp only [step] at ran
    split at ran <;> try contradiction
    next id ticket operates =>
      split at ran <;> try contradiction
      next widths =>
        split at ran
        · split at ran <;> cases ran
          next tickets marked => exact .marks id signature tickets rfl marked widths.1 widths.2 rfl rfl
          next => exact .others rfl rfl (.inr rfl)
        · cases ran
          exact .others rfl rfl (.inr rfl)
  | signFails =>
    cases ran
    exact .others rfl rfl (.inr rfl)
  | connect k | poll k id | answer k | refuse k | removeFails k | flush k | send k | flushed k | close k | notify k payload =>
    simp only [step] at ran
    split at ran <;> cases ran <;> exact .others rfl rfl (.inl rfl)
  | lookUp k =>
    simp only [step] at ran
    split at ran <;> try contradiction
    split at ran <;> cases ran <;> exact .others rfl rfl (.inl rfl)
  | remove k =>
    simp only [step] at ran
    split at ran <;> cases ran
    exact .removes _ rfl rfl rfl
  | restart =>
    simp only [step] at ran
    obtain ⟨signer, crashed, made⟩ := Option.map_eq_some_iff.mp ran
    cases made
    exact .crashes rfl crashed rfl

theorem Stored.step (stored : Stored s ticketed) (ran : step config s action = some t) : Stored t (ticketsOf s action ++ ticketed) := by
  cases stepTouches ran with
  | works own is ofWorker worked operator =>
    subst is
    exact stored.worked ofWorker worked operator
  | reads id ticket is found signer operator =>
    subst is
    refine ⟨by rw [signer]; exact stored.files, by rw [signer]; exact stored.placing, fun other there operates => ?_⟩
    cases operator.symm.trans operates
    exact (stored.files.found found).2
  | marks id signature tickets is marked width0 width1 signer operator =>
    subst is
    exact stored.same (by rw [signer]; exact stored.files.marked marked width0 width1) (by rw [signer]) (.inr operator)
  | removes id quiet signer operator =>
    rw [quiet]
    exact stored.same (by rw [signer]; exact stored.files.removed) (by rw [signer]) (.inl operator)
  | crashes is crashed operator =>
    subst is
    cases signer : t.signer
    rw [signer] at crashed
    cases crashed
    refine ⟨by rw [signer]; exact stored.files, fun worker claim ticket at_ => ?_, fun id ticket operates => ?_⟩
    · rw [signer] at at_
      cases at_
    · cases operator.symm.trans operates
  | others quiet signer operator =>
    rw [quiet]
    exact stored.same (by rw [signer]; exact stored.files) (by rw [signer]) operator

/- The operator signs nothing but what it has read from a ticket. -/
omit [DecidableEq ω] [DecidableEq κ] in
theorem Stored.signs (stored : Stored s ticketed) : signsOf config s action ⊆ ticketed := by
  intro c among
  cases action with
  | markSigned signature =>
    simp only [signsOf] at among
    split at among
    next id ticket operates =>
      split at among
      · rw [List.mem_singleton.mp among]
        exact stored.operator id ticket operates
      · cases among
    next => cases among
  | _ => cases among

end Polling

/-! The mediator as a whole. -/
namespace IssuerState
variable {ω κ : Type} [DecidableEq ω] [DecidableEq κ] {config : IssuerConfig} {s t : IssuerState ω κ} {action : IssuerAction ω κ}
  {authorized more : List (RoomId × Party)} {context : IssuanceContext}

/- The first version of credentials has one epoch. -/
def Pinned (_ : IssuerState ω κ) : IssuerAction ω κ → Prop
  | .request request => request.credentialIssuance = true → request.credentialEpoch = 0
  | .goes _ => True

/- A context that stands for an authorized party of a room. -/
structure Granted (authorized : List (RoomId × Party)) (context : IssuanceContext) : Prop where
  version : context.version = credentialVersion
  scope : context.issuerScope = 0
  epoch : context.epoch = 0
  party : ∃ party, (context.roomId, party) ∈ authorized ∧ context.party = issuanceParty party

theorem Granted.mono (granted : Granted authorized context) (grows : authorized ⊆ more) : Granted more context := by
  obtain ⟨party, among, own⟩ := granted.party
  exact ⟨granted.version, granted.scope, granted.epoch, party, grows among, own⟩

theorem Granted.unique {context' : IssuanceContext} {room : RoomId} {party : Party} (granted : Granted authorized context)
    (granted' : Granted authorized context') (one : context.roomId = room ∧ context.party = issuanceParty party)
    (other : context'.roomId = room ∧ context'.party = issuanceParty party) : context = context' := by
  cases context
  cases context'
  simp only [IssuanceContext.mk.injEq]
  exact ⟨granted.version.trans granted'.version.symm, granted.scope.trans granted'.scope.symm, granted.epoch.trans granted'.epoch.symm,
    one.1.trans other.1.symm, one.2.trans other.2.symm⟩

/- A credential's job has the context of the party that was verified. -/
theorem handledGranted {request : SessionRequest} {job : Job} {authorizedParty : Option Party}
    (handled : handleAssembledRequest config request = .ok (.submits job authorizedParty))
    (pinned : request.credentialIssuance = true → request.credentialEpoch = 0) (own : job.issuanceContext = some context) :
    Granted (authorizedParty.map fun party => (request.issuanceRoomId, party)).toList context := by
  simp only [handleAssembledRequest] at handled
  split at handled
  · cases handled
    cases own
  next credential =>
    simp only [bind_ok] at handled
    obtain ⟨receipt, _, verified, _, handled⟩ := handled
    cases verified with
    | none => cases handled
    | some party =>
      cases handled
      cases own
      exact ⟨rfl, rfl, pinned (by simpa using credential), party, by simp, rfl⟩

structure Sound (s : IssuerState ω κ) : Prop where
  rights : ∀ context, ∃ right, Signer.Accounted s.polling.signer context right
  origins : Signer.From (Granted s.authorized) s.polling.signer
  claims : ∀ context, some context ∈ Signer.claimsOf s.polling.signer.history → Granted s.authorized context
  files : Polling.Stored s.polling s.ticketed
  signed : s.signed ⊆ s.ticketed
  counted : (Signer.claimsOf s.polling.signer.history).length = s.ticketed.length

omit [DecidableEq κ] in
theorem startSound : Sound ({} : IssuerState ω κ) where
  rights context := ⟨_, Signer.startAccounted context []⟩
  origins := ⟨fun _ among => (by cases among), fun _ _ at_ => (by cases at_)⟩
  claims _ among := by cases among
  files := ⟨fun _ _ read => (by cases read), fun _ _ _ at_ => (by cases at_), fun _ _ operates => (by cases operates)⟩
  signed _ among := by cases among
  counted := rfl

/- A step of the signer's keeps what is known of its jobs and its tickets. -/
omit [DecidableEq κ] in
theorem Sound.works {own : Signer.Action ω} {signer : Signer.State ω} (sound : Sound s) (grows : s.authorized ⊆ authorized)
    (ran : Signer.step config.polling.signer s.polling.signer own = some signer)
    (submitted : ∀ job, own = .submit job → ∀ context, job.issuanceContext = some context → Granted authorized context) :
    (∀ context, ∃ right, Signer.Accounted signer context right) ∧ Signer.From (Granted authorized) signer ∧
      (∀ context, some context ∈ Signer.claimsOf signer.history → Granted authorized context) ∧
      (Signer.claimsOf signer.history).length = (placed s.polling.signer own ++ s.ticketed).length := by
  have origins := sound.origins.mono fun context granted => granted.mono grows
  refine ⟨fun context => ?_, origins.step ran submitted, ?_⟩
  · obtain ⟨right, accounted⟩ := sound.rights context
    exact (Signer.stepMoves ran).accounted accounted
  · cases Signer.stepEnters ran with
    | none history placed =>
      rw [history, placed]
      exact ⟨fun context among => (sound.claims context among).mono grows, sound.counted⟩
    | one worker claim ticket bytes response was encoded tickets workers history placed =>
      rw [history, placed]
      refine ⟨fun context among => ?_, by simpa using sound.counted⟩
      rcases List.mem_cons.mp among with new | old
      · exact origins.working worker context (by rw [was]; exact new.symm)
      · exact (sound.claims context old).mono grows

/- A step that leaves the signer alone, but for the files. -/
omit [DecidableEq κ] in
theorem Sound.rests {signer : Signer.State ω} {tickets : Tickets} (sound : Sound s) (grows : s.authorized ⊆ authorized)
    (same : signer = { s.polling.signer with tickets }) :
    (∀ context, ∃ right, Signer.Accounted signer context right) ∧ Signer.From (Granted authorized) signer ∧
      (∀ context, some context ∈ Signer.claimsOf signer.history → Granted authorized context) ∧
      (Signer.claimsOf signer.history).length = s.ticketed.length := by
  subst same
  refine ⟨fun context => ?_, ?_, fun context among => (sound.claims context among).mono grows, sound.counted⟩
  · obtain ⟨right, accounted⟩ := sound.rights context
    exact ⟨right, accounted.stays rfl (fun _ _ => Iff.rfl) (Signer.sameTally _)⟩
  · have origins := sound.origins.mono fun context granted => granted.mono grows
    exact ⟨origins.queued, origins.working⟩

theorem Sound.went {own : Polling.Action ω κ} {polling : Polling.State ω κ} (sound : Sound s) (grows : s.authorized ⊆ authorized)
    (ran : Polling.step config.polling s.polling own = some polling)
    (submitted : ∀ job, own = .worker (.submit job) → ∀ context, job.issuanceContext = some context → Granted authorized context) :
    Sound { polling, authorized, ticketed := ticketsOf s.polling own ++ s.ticketed, signed := signsOf config.polling s.polling own ++ s.signed } := by
  have signed : signsOf config.polling s.polling own ++ s.signed ⊆ ticketsOf s.polling own ++ s.ticketed := by
    refine List.append_subset.mpr ⟨?_, ?_⟩
    · exact List.subset_append_of_subset_right _ sound.files.signs
    · exact List.subset_append_of_subset_right _ sound.signed
  have files := sound.files.step ran
  cases Polling.stepTouches ran with
  | works worker is ofWorker worked operator =>
    subst is
    obtain ⟨rights, origins, claims, counted⟩ := sound.works grows worked fun job is => submitted job (by rw [is])
    exact ⟨rights, origins, claims, files, signed, counted⟩
  | crashes is crashed operator =>
    subst is
    obtain ⟨rights, origins, claims, counted⟩ := sound.works grows crashed fun job is => (by cases is)
    exact ⟨rights, origins, claims, files, signed, counted⟩
  | reads id ticket is found signer operator =>
    subst is
    obtain ⟨rights, origins, claims, counted⟩ := sound.rests grows (show _ = { s.polling.signer with tickets := s.polling.signer.tickets } from signer)
    exact ⟨rights, origins, claims, files, signed, counted⟩
  | marks id signature tickets is marked width0 width1 signer operator =>
    subst is
    obtain ⟨rights, origins, claims, counted⟩ := sound.rests grows signer
    exact ⟨rights, origins, claims, files, signed, counted⟩
  | removes id quiet signer operator =>
    obtain ⟨rights, origins, claims, counted⟩ := sound.rests grows signer
    rw [quiet] at files signed ⊢
    exact ⟨rights, origins, claims, files, signed, counted⟩
  | others quiet signer operator =>
    obtain ⟨rights, origins, claims, counted⟩ := sound.rests grows (show _ = { s.polling.signer with tickets := s.polling.signer.tickets } from signer)
    rw [quiet] at files signed ⊢
    exact ⟨rights, origins, claims, files, signed, counted⟩

theorem Sound.step (sound : Sound s) (pinned : Pinned s action) (ran : step config s action = some t) : Sound t := by
  cases action with
  | request request =>
    simp only [step] at ran
    split at ran
    next job authorizedParty handled =>
      obtain ⟨polling, worked, made⟩ := Option.map_eq_some_iff.mp ran
      cases made
      refine sound.went (List.subset_append_right _ _) worked fun other is context own => ?_
      cases is
      exact (handledGranted handled pinned own).mono (List.subset_append_left _ _)
    all_goals
      cases ran
      exact sound
  | goes own =>
    simp only [step] at ran
    split at ran <;> try contradiction
    next quiet =>
      obtain ⟨polling, worked, made⟩ := Option.map_eq_some_iff.mp ran
      cases made
      refine sound.went (List.Subset.refl _) worked fun job is => ?_
      rw [is] at quiet
      exact absurd rfl quiet

theorem runSound (ran : Run (step config) Pinned s t) (sound : Sound s) : Sound t :=
  ran.keeps sound fun _ _ _ sound pinned stepped => sound.step pinned stepped

/- Every ticket has its own right: a room's party, or a raw request. -/
omit [DecidableEq κ] in
theorem Sound.ticketsBounded (sound : Sound s) : s.ticketed.length ≤ s.authorized.toFinset.card + rawTickets s := by
  have contexts := Signer.claimsSplit (Signer.claimsOf s.polling.signer.history)
  rw [sound.counted, Signer.rawCount] at contexts
  have apart : (Signer.claimsOf s.polling.signer.history).reduceOption.Nodup := by
    refine List.nodup_iff_count_le_one.mpr fun context => ?_
    obtain ⟨right, accounted⟩ := sound.rights context
    rw [Signer.countReduced, Signer.claimsCount, accounted.tickets]
    split <;> omega
  have granted (context : IssuanceContext) (among : context ∈ (Signer.claimsOf s.polling.signer.history).reduceOption.toFinset) :
      Granted s.authorized context :=
    sound.claims context (List.reduceOption_mem_iff.mp (List.mem_toFinset.mp among))
  have fits : (Signer.claimsOf s.polling.signer.history).reduceOption.toFinset.card ≤ s.authorized.toFinset.card := by
    refine Finset.card_le_card_of_forall_subsingleton
      (fun context right => context.roomId = right.1 ∧ context.party = issuanceParty right.2) (fun context among => ?_) ?_
    · obtain ⟨party, among, own⟩ := (granted context among).party
      exact ⟨(context.roomId, party), List.mem_toFinset.mpr among, rfl, own⟩
    · rintro right - context ⟨among, own⟩ other ⟨among', own'⟩
      exact (granted context among).unique (granted other among') own own'
  rw [List.toFinset_card_of_nodup apart] at fits
  unfold rawTickets
  omega

/-! What is presented. -/
open Prover (Hashes CredentialPresentationInput)
open Prover.Presentation (TargetOf presentedMu)

/- The guest accepts an input for the mediator's key, in the only scope and the only epoch. -/
structure Accepted (hashes : Hashes) (config : IssuerConfig) (b : List UInt16) (input : CredentialPresentationInput) : Prop where
  t : Prover.ints (Prover.ofU16 input.t) = config.polling.t
  b : input.b = b
  scope : input.issuerScope = 0
  valid : ∃ draws out, Prover.Presentation.main hashes draws input = some out ∧ out.valid = true

/- A signature that is presented is valid on nothing but what was signed. -/
def Unforged (config : IssuerConfig) (s : IssuerState ω κ) (presented : Finset CredentialPresentationInput) : Prop :=
  ∀ input ∈ presented, ∀ c, Prover.Canonical c →
    Blns7933.verifyTarget Blns7933.productionRing ⟨config.polling.t⟩ (Prover.ints c)
      ⟨Prover.ints (Prover.ofI32 input.s0), Prover.ints (Prover.ofI32 input.s1)⟩ Blns7933.productionNormBoundSquared = .ok true →
    c ∈ s.signed

/- What is presented of one target is one message. -/
def CollisionFree (hashes : Hashes) (presented : Finset CredentialPresentationInput) : Prop :=
  ∀ input ∈ presented, ∀ other ∈ presented, ∀ c, TargetOf hashes input c → TargetOf hashes other c →
    presentedMu input = presentedMu other

variable {hashes : Hashes} {b : List UInt16} {presented : Finset CredentialPresentationInput}

theorem credentialsBounded (ran : Run (step config) Pinned {} s) (accepted : ∀ input ∈ presented, Accepted hashes config b input)
    (serials : Set.InjOn (fun input : CredentialPresentationInput => input.serial) presented) (unforged : Unforged config s presented)
    (collisionFree : CollisionFree hashes presented) : presented.card ≤ s.authorized.toFinset.card + rawTickets s := by
  have sound := runSound ran startSound
  have targets : presented.card ≤ s.signed.toFinset.card := by
    refine Finset.card_le_card_of_forall_subsingleton (TargetOf hashes) (fun input among => ?_) ?_
    · obtain ⟨own, _, _, draws, out, presents, valid⟩ := accepted input among
      obtain ⟨c, target, canonical, signed⟩ := Prover.Presentation.acceptedSigned presents valid
      rw [own] at signed
      exact ⟨c, List.mem_toFinset.mpr (unforged input among c canonical signed), target⟩
    · rintro c - input ⟨among, target⟩ other ⟨among', target'⟩
      have messages := collisionFree input among other among' c target target'
      exact serials among among' (Prover.Presentation.credentialMuInj messages).2.2
  have tickets : s.signed.toFinset ⊆ s.ticketed.toFinset := by
    intro c among
    exact List.mem_toFinset.mpr (sound.signed (List.mem_toFinset.mp among))
  calc presented.card ≤ s.signed.toFinset.card := targets
    _ ≤ s.ticketed.toFinset.card := Finset.card_le_card tickets
    _ ≤ s.ticketed.length := List.toFinset_card_le _
    _ ≤ s.authorized.toFinset.card + rawTickets s := sound.ticketsBounded

/-! A raw request is signed with the same key. -/

instance (s : IssuerState ω κ) : ∀ action, Decidable (Pinned s action)
  | .request request => inferInstanceAs (Decidable (request.credentialIssuance = true → request.credentialEpoch = 0))
  | .goes _ => inferInstanceAs (Decidable True)

def rawRun (request : SessionRequest) (id : TicketId) (signature : Signature) : List (IssuerAction Unit Unit) :=
  [.request request, .goes (.worker (.take ())), .goes (.worker (.check ())), .goes (.worker (.verify () (.answered true "unknown" true ""))),
    .goes (.worker (.count ())), .goes (.worker (.draw () id 1000)), .goes (.worker (.place ())), .goes (.trySign id),
    .goes (.markSigned signature)]

theorem rawSigned {request : SessionRequest} {signature : Signature} (raw : request.credentialIssuance = false) (id : TicketId)
    (room : 0 < config.polling.signer.queueCapacity) (space : 0 < config.polling.signer.maxPendingTickets)
    (answers : config.polling.signer.answers request.pi1Receipt (Signer.expected config.polling.signer.b request.toAssembledRequest)
      (.answered true "unknown" true "") = true)
    (width0 : signature.s0.length = ringDegree) (width1 : signature.s1.length = ringDegree)
    (verified : Polling.verified config.polling (arrayToPoly request.c) signature = true) :
    ∃ s : IssuerState Unit Unit, Run (step config) Pinned {} s ∧ s.signed = [arrayToPoly request.c] ∧ s.authorized = [] ∧ rawTickets s = 1 := by
  have handled : handleAssembledRequest config request = .ok (.submits ⟨request.toAssembledRequest, none⟩ none) := by
    rw [handleAssembledRequest, raw]
    rfl
  have fine : Ticket.WellFormed { ticketId := id, c := arrayToPoly request.c, receivedAtUnixSeconds := 1000 } :=
    ⟨by simp [arrayToPoly, ringDegree], fun _ => rfl, fun signed => (by cases signed)⟩
  obtain ⟨bytes, encoded⟩ := Ticket.encodeOk fine
  have holds : Polling.Holds (Directory.replace [] (ticketPath id) bytes) id _ := ⟨fine, rfl, bytes, encoded, Directory.readReplaced⟩
  obtain ⟨tickets, marked, _⟩ := holds.marked rfl width0 width1
  have empty : existing [] = 0 := rfl
  have absent : Directory.read ([] : Tickets) (ticketPath id) = none := rfl
  have played : ∃ s, play (step config) Pinned {} (rawRun request id signature) = some s ∧ s.signed = [arrayToPoly request.c] ∧
      s.authorized = [] ∧ rawTickets s = 1 := by
    simp only [play, rawRun, Pinned, raw, false_implies, if_true, step, handled, Option.map_none, Option.toList_none, List.nil_append,
      Polling.step, Polling.ofWorkers, Signer.step, Polling.start, List.length_nil, ge_iff_le, Nat.not_le_of_lt room, Nat.not_le_of_lt space,
      if_false, Option.map_some, Option.bind_some, submits, Bool.false_eq_true, Signer.State.goes, Function.update_self,
      Function.update_idem, Signer.checkMetadata, Option.isSome_none, ne_eq, not_true_eq_false, answers, Signer.afterVerification,
      Bool.not_true, empty, absent, ticketsOf, signsOf, placed, encoded, Signer.State.remembers, holds.found, width0, width1, verified,
      and_self, marked, Polling.State.store, Polling.State.remembers]
    exact ⟨_, rfl, rfl, rfl, rfl⟩
  obtain ⟨s, ran, rest⟩ := played
  exact ⟨s, playRun ran, rest⟩

namespace Example
open Blns7933 (productionRing productionNormBoundSquared verifyTarget)

def zeros : RingArray := Vector.replicate 512 0

def rawRequest (c : RingArray) : SessionRequest where
  c
  b := zeros
  encA := zeros
  encPk := zeros
  ct1R := zeros
  ct2R := zeros
  ct1Mu := zeros
  ct2Mu := zeros
  issuanceRoomId := Vector.replicate 32 0
  pi1Receipt := []

def issuer (t : Blns7933.PolyQ) : IssuerConfig :=
  ⟨⟨Signer.smallStore, t⟩, unsignedCrypto, [], Vector.replicate 32 0, Vector.replicate 1952 0⟩

def unitSignature : Blns7933.Signature := ⟨Prover.Example.unit 511, List.replicate 512 0⟩

theorem unitSignatureShort : Blns7933.normSquared unitSignature ≤ productionNormBoundSquared := Prover.Example.unitShort 511 512

theorem unitSignatureSigns {c : List Int64} (canonical : Prover.Canonical c) :
    verifyTarget productionRing ⟨Prover.ints c⟩ (Prover.ints c) unitSignature productionNormBoundSquared = .ok true :=
  Prover.unitSigns (Prover.canonicalInts rfl rfl canonical) unitSignatureShort
    (by rw [Prover.Example.unit, List.length_cons, List.length_replicate]; rfl) (List.length_replicate ..).le
    (Prover.Example.unitResidue _ 511) (Prover.Example.zeroResidue _ 512)

/- A blinded target is the key whose unit signature opens it. -/
theorem blindedAccepted : ∃ c input, Prover.Canonical c ∧ Accepted Prover.standardHashes (issuer (Prover.ints c)) Prover.Example.b input ∧
    Prover.ints (Prover.ofI32 input.s0) = unitSignature.s0 ∧ Prover.ints (Prover.ofI32 input.s1) = unitSignature.s1 := by
  obtain ⟨instance_, built, _⟩ := Prover.Example.prepared
  obtain ⟨point, c, a, pk, ct, blinded⟩ := Prover.blindMade Prover.zerosCanonical16 built
  have sameT : Prover.ints (Prover.ofU16 (Prover.toU16 c)) = Prover.ints c := by rw [Prover.canonicalBack blinded.target]
  have signs : verifyTarget productionRing ⟨Prover.ints c⟩ (Prover.arrayToPoly instance_.request.c) unitSignature
      productionNormBoundSquared = .ok true := by
    rw [blinded.made, Prover.arrayInts, sameT]
    exact unitSignatureSigns blinded.target
  obtain ⟨small0, small1⟩ := Prover.coefficientsSmall unitSignatureShort
  have width0 : unitSignature.s0.length = 512 := by rw [unitSignature, Prover.Example.unit, List.length_cons, List.length_replicate]
  have width1 : unitSignature.s1.length = 512 := List.length_replicate ..
  obtain ⟨w0, _, same0⟩ := Prover.i16Converts "q7933 signature s0" width0 small0
  obtain ⟨w1, _, same1⟩ := Prover.i16Converts "q7933 signature s1" width1 small1
  obtain ⟨short, relation⟩ := Prover.blindedSigned blinded sameT same0 same1 signs
  have scope : ([] : Bytes).length ≤ 4096 := Nat.zero_le _
  obtain ⟨nullifier, _, draws, out, presents, valid, _⟩ := Prover.blindedPresents blinded Prover.zerosCanonical16
    (Prover.toU16Canonical blinded.target) (Prover.widenedSmall same0 small0) (Prover.widenedSmall same1 small1) short relation scope
  refine ⟨c, _, blinded.target, ⟨sameT, ?_, rfl, draws, out, presents, valid⟩, Prover.widenedInts same0, Prover.widenedInts same1⟩
  rw [blinded.made]
  rfl

theorem unitSignatureSame : Prover.ints Polling.Example.signature.s0 = unitSignature.s0 ∧
    Prover.ints Polling.Example.signature.s1 = unitSignature.s1 := Polling.Example.evaluated.2.2

/- A client of a raw request blinds a credential. -/
theorem rawPresented : ∃ config, ∃ s : IssuerState Unit Unit, ∃ presented : Finset CredentialPresentationInput,
    Run (step config) Pinned {} s ∧ (∀ input ∈ presented, Accepted Prover.standardHashes config Prover.Example.b input) ∧
    Set.InjOn (fun input : CredentialPresentationInput => input.serial) presented ∧ Unforged config s presented ∧
    CollisionFree Prover.standardHashes presented ∧ presented.card = 1 ∧ s.authorized = [] ∧ rawTickets s = 1 := by
  obtain ⟨c, input, canonical, accepted, same0, same1⟩ := blindedAccepted
  have width : (Prover.toU16 c).toArray.size = 512 := Prover.toU16Width canonical
  let target : RingArray := ⟨(Prover.toU16 c).toArray, width⟩
  have poly : arrayToPoly target = c := Prover.canonicalBack canonical
  have signs := unitSignatureSigns canonical
  have verified : Polling.verified (issuer (Prover.ints c)).polling (arrayToPoly target) Polling.Example.signature = true := by
    have checked : Blns7933.signerVerifyTarget productionRing ⟨Prover.ints c⟩ (Prover.ints c)
        ⟨Prover.ints Polling.Example.signature.s0, Prover.ints Polling.Example.signature.s1⟩ productionNormBoundSquared = .ok true := by
      rw [unitSignatureSame.1, unitSignatureSame.2]
      exact check_ok.mpr ⟨Blns7933.validateOk.mpr (Prover.canonicalInts rfl rfl canonical), signs⟩
    rw [poly, Polling.verified, issuer, checked]
  have width0 : Polling.Example.signature.s0.length = ringDegree := by
    rw [Polling.Example.signature, List.length_cons, List.length_replicate, ringDegree]
  have width1 : Polling.Example.signature.s1.length = ringDegree := List.length_replicate ..
  obtain ⟨s, ran, signed, authorized, raw⟩ := @rawSigned (issuer (Prover.ints c)) (rawRequest target) Polling.Example.signature rfl
    Polling.Example.someId (Nat.zero_lt_succ 3) (Nat.zero_lt_succ 0) rfl width0 width1 verified
  refine ⟨_, s, {input}, ran, fun one only => ?_, by simp, fun one only other canonicalOther accepts => ?_, fun one only two only' _ _ _ => ?_,
    Finset.card_singleton input, authorized, raw⟩
  · rw [Finset.mem_singleton.mp only]
    exact accepted
  · rw [Finset.mem_singleton.mp only, same0, same1] at accepts
    have same : Prover.ints other = Prover.ints c := Blns7933.canonicalInj (Prover.canonicalInts rfl rfl canonicalOther)
      (Prover.canonicalInts rfl rfl canonical) ((Prover.verifiedMeaning accepts).2.symm.trans (Prover.verifiedMeaning signs).2)
    have injective : Function.Injective Int64.toInt := fun _ _ => Int64.toInt_inj.mp
    rw [signed, List.mem_singleton, rawRequest, poly]
    exact List.map_injective_iff.mpr injective same
  · rw [Finset.mem_singleton.mp only, Finset.mem_singleton.mp only']

end Example

/- No right stood behind the credential: its request had been a raw one. -/
theorem rawCredentialPresented : ∃ config, ∃ s : IssuerState Unit Unit, ∃ presented : Finset CredentialPresentationInput,
    Run (step config) Pinned {} s ∧ (∀ input ∈ presented, Accepted Prover.standardHashes config Prover.Example.b input) ∧
    Set.InjOn (fun input : CredentialPresentationInput => input.serial) presented ∧ Unforged config s presented ∧
    CollisionFree Prover.standardHashes presented ∧ ¬presented.card ≤ s.authorized.toFinset.card := by
  obtain ⟨config, s, presented, ran, accepted, serials, unforged, collisionFree, one, authorized, _⟩ := Example.rawPresented
  exact ⟨config, s, presented, ran, accepted, serials, unforged, collisionFree, by simp [one, authorized]⟩

theorem rawCredentialBounded : ∃ config, ∃ s : IssuerState Unit Unit, ∃ presented : Finset CredentialPresentationInput,
    Run (step config) Pinned {} s ∧ presented.card = 1 ∧ s.authorized.toFinset.card = 0 ∧ rawTickets s = 1 ∧
    presented.card ≤ s.authorized.toFinset.card + rawTickets s := by
  obtain ⟨config, s, presented, ran, accepted, serials, unforged, collisionFree, one, authorized, raw⟩ := Example.rawPresented
  exact ⟨config, s, presented, ran, one, by simp [authorized], raw, credentialsBounded ran accepted serials unforged collisionFree⟩

end IssuerState
end TradeP2P.Credential
