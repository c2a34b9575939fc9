import TradeP2P.Lib.Schedules
import TradeP2P.Credential.Polling
import TradeP2P.Credential.Chunking

/-! Responses and the worker, in any order. A response can come between the last chunk of a request and the stage that
waits for it, and an answer to a question about the parameters can come at any time. -/
namespace TradeP2P.Credential
open Wire (Bytes bigEndian)
open Checks
open Schedules

/- Waiting for the mediator. -/
def BlindSigClientStage.waits : BlindSigClientStage → Bool
  | .awaitingInfo | .awaitingInitialResponse | .awaitingPolledSignature => true
  | _ => false

/- On its way with a request, up to the stage that is stored. -/
def SessionWorker.asking : SessionWorker → Bool
  | .starting _ | .blinding _ _ | .proving _ | .sending _ => true
  | _ => false

/- The last chunk is sent and the stage is not stored. -/
def SessionWorker.unstored : SessionWorker → Bool
  | .sending [] => true
  | _ => false

/- What the signature that is finalised answered. -/
def SessionWorker.finalising : SessionWorker → Option Asked
  | .finalizing asked _ | .provingNizk2 asked _ | .verifying asked _ | .verifyingOwn asked _ _ => some asked
  | _ => none

/- Past the reading of the parameters for the blinding, and before the end of the finalisation. -/
def SessionWorker.blinded : SessionWorker → Bool
  | .idle | .starting _ | .crediting _ | .finished => false
  | _ => true

/- The parameters a finalisation has read. -/
def SessionWorker.finalisingUnder : SessionWorker → Option SignerParams
  | .provingNizk2 _ params | .verifyingOwn _ _ params => some params
  | _ => none

def Asked.ticket : Asked → Option TicketId
  | .poll id => some id
  | _ => none

namespace SessionState

/- What the signer has been asked and has not answered. -/
def signers (s : SessionState) : List Asked := s.asked.filter (· ≠ .info)

/- A response is waited for in the stage as it is. -/
def Awaited (s : SessionState) : Prop := s.signers ≠ [] ∧ s.worker.unstored = false

instance (s : SessionState) : Decidable s.Awaited := inferInstanceAs (Decidable (_ ∧ _))

/- A signature has come and its finalisation is not over. -/
def Finalising (s : SessionState) : Prop := s.handler.isSome ∨ s.worker.finalising.isSome

instance (s : SessionState) : Decidable s.Finalising := inferInstanceAs (Decidable (_ ∨ _))

/- Between a blinding and the end of its finalisation. -/
def InProgress (s : SessionState) : Prop :=
  s.worker.blinded ∨ s.handler.isSome ∨ s.signers ≠ [] ∨ s.session.pendingTicketId.isSome

instance (s : SessionState) : Decidable s.InProgress := inferInstanceAs (Decidable (_ ∨ _ ∨ _ ∨ _))

/- Responses keep out of the gap before the stage is stored, the session is asked nothing else while one is awaited,
and the parameters stay as they were blinded under. -/
def Keeps (s : SessionState) : SessionEvent → Prop
  | .requestInfo => ¬s.Awaited
  | .hearsInfo info => ¬s.Awaited ∧ (s.InProgress → info.enabled → SignerParams.mk info.t info.b = s.session.params)
  | .startRequest _ => s.session.stage = .idle → s.session.pendingTicketId = none ∧ s.worker.asking = false
  | .pollTicket => s.session.pendingTicketId.isSome → ¬s.Finalising
  | .hearsResponse asked response =>
      s.worker.unstored = false ∧ (response.status ≠ .pending → s.signers.erase asked = [])
  | _ => True

/- It waits for a response that has come. -/
def Stranded (s : SessionState) : Prop :=
  s.handler = none ∧
    (s.session.stage = .awaitingInfo ∧ .info ∉ s.asked ∨ s.session.stage = .awaitingInitialResponse ∧ .request ∉ s.asked ∨
      s.session.stage = .awaitingPolledSignature ∧ ∀ id, .poll id ∉ s.asked)

end SessionState

/- Where a request is, in what the threads, the ticket and the signer's unanswered questions are. -/
inductive Turn : SessionWorker → Option (Asked × BlindSigResponse) → Option StartRequest → Option TicketId → List Asked → Prop where
  | resting {worker : SessionWorker} {caller : Option StartRequest} (joined : worker.joined) : Turn worker none caller none []
  | asking {worker : SessionWorker} (asking : worker.asking) (before : worker.unstored = false) : Turn worker none none none []
  | sent : Turn (.sending []) none none none [.request]
  | awaiting {worker : SessionWorker} (joined : worker.joined) : Turn worker none none none [.request]
  | ticketed {worker : SessionWorker} (id : TicketId) {polls : List Asked} (joined : worker.joined)
      (only : ∀ one ∈ polls, one = .poll id) : Turn worker none none (some id) polls
  | handling {worker : SessionWorker} (asked : Asked) (response : BlindSigResponse) (joined : worker.joined) :
      Turn worker (some (asked, response)) none asked.ticket []
  | finalising {worker : SessionWorker} {caller : Option StartRequest} (asked : Asked) (at_ : worker.finalising = some asked)
      (free : caller.isSome → asked.ticket = none) : Turn worker none caller asked.ticket []
  | crediting {caller : Option StartRequest} (asked : Asked) : Turn (.crediting asked) none caller none []

/-! What the threads are at, read off a turn. -/

section Turns
variable {worker : SessionWorker} {handler : Option (Asked × BlindSigResponse)} {caller : Option StartRequest}
  {pending : Option TicketId} {signers : List Asked} {asked : Asked} {response : BlindSigResponse}

/- A worker that can be joined is at nothing. -/
theorem joinedRests (joined : worker.joined = true) : worker.asking = false ∧ worker.unstored = false ∧
    worker.finalising = none ∧ worker.blinded = false ∧ worker.finalisingUnder = none := by
  cases worker with
  | idle => exact ⟨rfl, rfl, rfl, rfl, rfl⟩
  | finished => exact ⟨rfl, rfl, rfl, rfl, rfl⟩
  | _ => cases joined

theorem stored (resting : worker.asking = false) : worker.unstored = false := by
  cases worker with
  | sending => cases resting
  | _ => rfl

theorem askingOnly (asking : worker.asking = true) :
    worker.joined = false ∧ worker.finalising = none ∧ worker.finalisingUnder = none := by
  cases worker with
  | starting | blinding | proving | sending => exact ⟨rfl, rfl, rfl⟩
  | _ => cases asking

theorem Turn.whileAsking (turn : Turn worker handler caller pending signers) (asking : worker.asking = true)
    (before : worker.unstored = false) : handler = none ∧ caller = none ∧ pending = none ∧ signers = [] := by
  have busy := askingOnly asking
  cases turn with
  | asking => exact ⟨rfl, rfl, rfl, rfl⟩
  | sent => cases before
  | finalising other here => cases busy.2.1.symm.trans here
  | crediting => cases asking
  | resting joined | awaiting joined | ticketed id joined | handling other response joined => cases busy.1.symm.trans joined

theorem Turn.whileFinalising (turn : Turn worker handler caller pending signers) (at_ : worker.finalising = some asked) :
    handler = none ∧ (caller.isSome → asked.ticket = none) ∧ pending = asked.ticket ∧ signers = [] := by
  cases turn with
  | asking asking => cases (askingOnly asking).2.1.symm.trans at_
  | sent | crediting => cases at_
  | finalising other here free =>
    cases here.symm.trans at_
    exact ⟨rfl, free, rfl, rfl⟩
  | resting joined | awaiting joined | ticketed id joined | handling other response joined =>
    cases (joinedRests joined).2.2.1.symm.trans at_

/- With nothing asked and no call, the session rests, with or without a ticket. -/
theorem Turn.rested (joined : worker.joined = true) (pending : Option TicketId) : Turn worker none none pending [] := by
  cases pending with
  | none => exact .resting joined
  | some id => exact .ticketed id joined (List.forall_mem_nil _)

/- With its worker joined, a call that waits finds nothing asked. -/
theorem Turn.whileCalling {request : StartRequest} (turn : Turn worker handler (some request) pending signers)
    (joined : worker.joined = true) : handler = none ∧ pending = none ∧ signers = [] := by
  cases turn with
  | resting => exact ⟨rfl, rfl, rfl⟩
  | finalising other here => cases (joinedRests joined).2.2.1.symm.trans here
  | crediting => cases joined

theorem Turn.whileUnstored (turn : Turn (.sending []) handler caller pending signers) :
    handler = none ∧ caller = none ∧ pending = none ∧ signers = [.request] := by
  cases turn with
  | resting joined | awaiting joined | ticketed id joined | handling other response joined => cases joined
  | asking asking before => cases before
  | sent => exact ⟨rfl, rfl, rfl, rfl⟩
  | finalising other here => cases here

theorem Turn.whileCrediting (turn : Turn (.crediting asked) handler caller pending signers) :
    handler = none ∧ pending = none ∧ signers = [] := by
  cases turn with
  | resting joined | awaiting joined | ticketed id joined | handling other response joined => cases joined
  | asking asking => cases asking
  | finalising other here => cases here
  | crediting => exact ⟨rfl, rfl, rfl⟩

theorem Turn.whileHandling (turn : Turn worker (some (asked, response)) caller pending signers) :
    worker.joined = true ∧ caller = none ∧ pending = asked.ticket ∧ signers = [] := by
  cases turn with
  | handling _ _ joined => exact ⟨joined, rfl, rfl, rfl⟩

/- A ticket that is polled for, while no signature for it is at hand. -/
theorem Turn.whileTicketed {id : TicketId} (turn : Turn worker handler none (some id) signers)
    (idle : ¬(handler.isSome ∨ worker.finalising.isSome)) : worker.joined = true ∧ handler = none ∧ ∀ one ∈ signers, one = .poll id := by
  generalize here : some id = pending at turn
  cases turn with
  | resting | asking | sent | awaiting | crediting => cases here
  | ticketed other joined only =>
    cases here
    exact ⟨joined, rfl, only⟩
  | handling asked response => exact absurd (.inl rfl) idle
  | finalising asked at_ => exact absurd (.inr (by rw [at_]; rfl)) idle

/- A question is answered while the worker rests, about a ticket that is still kept. -/
theorem Turn.whileAsked (turn : Turn worker handler caller pending signers) (stored : worker.unstored = false)
    (among : asked ∈ signers) : worker.joined = true ∧ handler = none ∧ caller = none ∧ pending = asked.ticket ∧
      ∀ one ∈ signers.erase asked, one = asked ∧ asked.ticket.isSome := by
  cases turn with
  | resting | asking | handling | finalising | crediting => cases among
  | sent => cases stored
  | awaiting joined =>
    cases List.mem_singleton.mp among
    exact ⟨joined, rfl, rfl, rfl, by simp⟩
  | ticketed id joined only =>
    cases only _ among
    exact ⟨joined, rfl, rfl, rfl, fun one left => ⟨only one (List.mem_of_mem_erase left), rfl⟩⟩

/- A call that finds the session at rest, or at a signature that no ticket is kept for. -/
theorem Turn.called {request : StartRequest} (turn : Turn worker handler caller pending signers) (none_ : pending = none)
    (resting : worker.asking = false) (unasked : signers = []) (unhandled : handler = none) :
    Turn worker handler (some request) pending signers := by
  cases turn with
  | resting joined => exact .resting joined
  | asking asking => cases resting.symm.trans asking
  | sent => cases unasked
  | awaiting => cases unasked
  | ticketed => cases none_
  | handling => cases unhandled
  | finalising asked at_ => exact .finalising asked at_ fun _ => none_
  | crediting asked => exact .crediting asked

end Turns

namespace SessionState

def InTurn (s : SessionState) : Prop := Turn s.worker s.handler s.caller s.session.pendingTicketId s.signers

/- The mediator's answer to a poll names the ticket, where the store keeps tickets under their ids. -/
theorem polledAllowed {tickets : Tickets} {id : TicketId} {response : BlindSigResponse} {collects : Option TicketId}
    (named : ∀ ticket, find tickets id = .ok (some ticket) → ticket.ticketId = id)
    (polled : Polling.handleTicketPoll tickets id = .ok (response, collects)) : (Asked.poll id).allows response = true := by
  simp only [Polling.handleTicketPoll, bind_ok] at polled
  obtain ⟨found, looked, polled⟩ := polled
  cases found with
  | none =>
    simp only [pure_ok] at polled
    cases polled
    rfl
  | some ticket =>
    simp only at polled
    split_ifs at polled with waiting
    · simp only [pure_ok] at polled
      cases polled
      simp [Asked.allows, named ticket looked]
    · cases signed : ticket.signature with
      | none =>
        rw [signed] at polled
        cases polled
      | some signature =>
        rw [signed] at polled
        simp only [bind_ok, pure_ok] at polled
        obtain ⟨_, made, polled⟩ := polled
        cases polled
        cases answer : Polling.signedResponse signature with
        | error e =>
          rw [answer] at made
          cases made
        | ok signed =>
          rw [answer] at made
          cases made
          simp only [Polling.signedResponse, bind_ok, pure_ok] at answer
          obtain ⟨s0, _, s1, _, rfl⟩ := answer
          rfl

/- What each stage that waits is sure of. -/
structure Staged (s : SessionState) : Prop where
  taken : s.Awaited → s.session.stage.takesResponse = true
  info : s.session.stage = .awaitingInfo → .info ∈ s.asked
  initial : s.session.stage = .awaitingInitialResponse → .request ∈ s.signers ∨ s.handler.isSome
  polled : s.session.stage = .awaitingPolledSignature → (∃ id, .poll id ∈ s.signers) ∨ s.handler.isSome
  handled : s.handler.isSome → s.session.stage ≠ .idle

structure Recorded (s : SessionState) : Prop where
  unrejected : ∀ asked, .rejected asked ∉ s.notes
  kept : ∀ id, .returned id ∈ s.notes → s.session.pendingTicketId = some id ∨ .finalised (.poll id) ∈ s.notes

structure Blinded (s : SessionState) : Prop where
  params : s.InProgress → s.session.params = s.blindedUnder
  used : ∀ params, s.worker.finalisingUnder = some params → params = s.blindedUnder

structure Sound (s : SessionState) : Prop where
  turn : s.InTurn
  staged : s.Staged
  recorded : s.Recorded
  blinded : s.Blinded

/-! The calls. -/

section Steps
variable {s t : SessionState} {asked : Asked} {response : BlindSigResponse} {info : BlindSigInfoResponse}

theorem unansweredErased (s : SessionState) (one : Asked) : (s.asked.erase one).filter (· ≠ .info) = s.signers.erase one :=
  List.erase_filter.symm

theorem signersInfo (s : SessionState) : (s.asked.erase .info).filter (· ≠ .info) = s.signers := by
  rw [unansweredErased]
  exact List.erase_of_not_mem (by simp [signers])

theorem amongSigners (among : asked ∈ s.asked) (signer : asked ≠ .info) : asked ∈ s.signers := by
  simp [signers, among, signer]

/- A thread's own step leaves what is said of tickets and rejections alone. -/
theorem Recorded.same (recorded : s.Recorded) (pending : t.session.pendingTicketId = s.session.pendingTicketId)
    (notes : t.notes = s.notes) : t.Recorded := by
  constructor
  · rw [notes]
    exact recorded.unrejected
  · rw [notes, pending]
    exact recorded.kept

/- In a stage that waits for nothing, with nothing asked, nothing is due. -/
theorem Staged.still (unasked : s.signers = []) (unhandled : s.handler = none) (still : s.session.stage.waits = false) : s.Staged := by
  refine ⟨fun awaited => absurd unasked awaited.1, fun at_ => ?_, fun at_ => ?_, fun at_ => ?_, fun handled => ?_⟩
  · cases at_ ▸ still
  · cases at_ ▸ still
  · cases at_ ▸ still
  · cases unhandled ▸ handled

theorem Blinded.same (blinded : s.Blinded) (progress : t.InProgress → s.InProgress)
    (params : t.session.params = s.session.params) (under : t.blindedUnder = s.blindedUnder)
    (used : t.worker.finalisingUnder = s.worker.finalisingUnder) : t.Blinded := by
  constructor
  · intro going
    rw [params, under]
    exact blinded.params (progress going)
  · rw [used, under]
    exact blinded.used

theorem soundFirst : Sound {} where
  turn := .resting rfl
  staged := .still rfl rfl rfl
  recorded := ⟨by simp, by simp⟩
  blinded := ⟨fun _ => rfl, fun _ h => (by cases h)⟩

theorem Sound.requestInfo (sound : s.Sound) (kept : ¬s.Awaited) : s.requestInfo.Sound where
  turn := sound.turn
  staged :=
    { taken := fun awaited => absurd awaited kept
      info := fun _ => List.mem_cons_self
      initial := fun h => (by cases h)
      polled := fun h => (by cases h)
      handled := fun _ h => (by cases h) }
  recorded := sound.recorded.same rfl rfl
  blinded := sound.blinded.same (fun going => going) rfl rfl rfl

theorem Sound.startRequest {request : StartRequest} (sound : s.Sound)
    (kept : s.session.stage = .idle → s.session.pendingTicketId = none ∧ s.worker.asking = false) :
    (s.startRequest request).Sound := by
  unfold SessionState.startRequest
  split_ifs with refused
  · exact sound
  · have idle : s.session.stage = .idle := by
      by_contra other
      exact refused (.inl other)
    obtain ⟨none_, resting⟩ := kept idle
    have staged := sound.staged
    have unasked : s.signers = [] := by
      by_contra asked
      have taken := staged.taken ⟨asked, stored resting⟩
      rw [idle] at taken
      cases taken
    have unhandled : s.handler = none := by
      by_contra some_
      exact staged.handled (Option.isSome_iff_ne_none.mpr some_) idle
    exact ⟨sound.turn.called none_ resting unasked unhandled, ⟨staged.taken, staged.info, staged.initial, staged.polled, staged.handled⟩,
      sound.recorded.same rfl rfl, sound.blinded.same (fun going => going) rfl rfl rfl⟩

theorem Sound.begins {request : StartRequest} (sound : s.Sound) (waits : s.caller = some request) (joined : s.worker.joined = true) :
    (s.begins request).Sound := by
  have turn := sound.turn
  rw [InTurn, waits] at turn
  obtain ⟨unhandled, none_, unasked⟩ := turn.whileCalling joined
  constructor
  · have asking : Turn (.starting request.message) none none none [] := .asking rfl rfl
    rw [← unhandled, ← unasked] at asking
    exact asking
  · exact .still unasked unhandled rfl
  · refine ⟨sound.recorded.unrejected, fun id returned => ?_⟩
    have kept := sound.recorded.kept id returned
    rw [none_] at kept
    exact kept
  · refine ⟨fun going => ?_, fun params h => (by cases h)⟩
    rcases going with going | going | going | going
    · cases going
    · rw [SessionState.begins, unhandled] at going
      cases going
    · exact absurd unasked going
    · cases going

theorem Sound.pollTicket (sound : s.Sound) (free : s.caller = none)
    (kept : s.session.pendingTicketId.isSome → ¬s.Finalising) : s.pollTicket.Sound := by
  unfold SessionState.pollTicket
  split
  · exact sound
  next id pending =>
    have idle : ¬s.Finalising := kept (by rw [pending]; rfl)
    have turn := sound.turn
    rw [InTurn, free, pending] at turn
    obtain ⟨joined, unhandled, only⟩ := turn.whileTicketed fun still => idle (still.imp_left fun handled => handled)
    have polls : (Asked.poll id :: s.asked).filter (· ≠ .info) = .poll id :: s.signers := by simp [signers]
    constructor
    · rw [InTurn, signers]
      simp only [polls, pending, free]
      rw [unhandled]
      exact .ticketed id joined (List.forall_mem_cons.mpr ⟨rfl, only⟩)
    · refine ⟨fun _ => rfl, fun h => (by cases h), fun h => (by cases h), fun _ => .inl ⟨id, ?_⟩, fun _ h => (by cases h)⟩
      rw [signers]
      simp only [polls]
      exact List.mem_cons_self
    · exact sound.recorded.same rfl rfl
    · exact sound.blinded.same (fun _ => .inr (.inr (.inr (by rw [pending]; rfl)))) rfl rfl rfl

/-! The messages. -/

theorem keptTicket (info : BlindSigInfoResponse) (session : BlindSigClientSession) :
    (session.onInfoResponse info).pendingTicketId = session.pendingTicketId := by
  unfold BlindSigClientSession.onInfoResponse
  split <;> rfl

theorem afterInfo (info : BlindSigInfoResponse) (session : BlindSigClientSession) :
    (session.onInfoResponse info).stage = .failed ∨ (session.onInfoResponse info).stage = .idle := by
  unfold BlindSigClientSession.onInfoResponse
  split
  · exact .inl rfl
  · exact .inr rfl

theorem Sound.hearsInfo (sound : s.Sound) (unhandled : s.handler = none) (quiet : ¬s.Awaited)
    (same : s.InProgress → info.enabled → SignerParams.mk info.t info.b = s.session.params) :
    Sound { s with session := s.session.onInfoResponse info, asked := s.asked.erase .info } := by
  have stage := afterInfo info s.session
  constructor
  · have turn := sound.turn
    rw [InTurn, ← keptTicket info s.session, ← signersInfo s] at turn
    exact turn
  · constructor
    · intro awaited
      have unasked := awaited.1
      rw [signers, signersInfo] at unasked
      exact absurd ⟨unasked, awaited.2⟩ quiet
    · intro asks
      rcases stage with at_ | at_ <;> cases at_.symm.trans asks
    · intro waits
      rcases stage with at_ | at_ <;> cases at_.symm.trans waits
    · intro waits
      rcases stage with at_ | at_ <;> cases at_.symm.trans waits
    · intro handled
      rw [unhandled] at handled
      cases handled
  · exact sound.recorded.same (keptTicket info s.session) rfl
  · refine ⟨fun going => ?_, sound.blinded.used⟩
    have before : s.InProgress := by
      rwa [InProgress, signers, signersInfo, keptTicket] at going
    rw [← sound.blinded.params before]
    unfold BlindSigClientSession.onInfoResponse
    split
    · rfl
    next enabled => exact same before (by simpa using enabled)

/- What a response to a question of the session's finds. -/
structure Expecting (s : SessionState) (asked : Asked) : Prop where
  joined : s.worker.joined = true
  unhandled : s.handler = none
  uncalled : s.caller = none
  pending : s.session.pendingTicketId = asked.ticket
  others : ∀ one ∈ s.signers.erase asked, one = asked ∧ asked.ticket.isSome
  takes : s.session.stage.takesResponse = true
  params : s.session.params = s.blindedUnder

theorem Sound.expecting (sound : s.Sound) (stored : s.worker.unstored = false) (among : asked ∈ s.asked)
    (allowed : asked.allows response = true) : s.Expecting asked := by
  have signer : asked ∈ s.signers := amongSigners among (by
    rintro rfl
    cases allowed)
  obtain ⟨joined, unhandled, uncalled, pending, others⟩ := Turn.whileAsked sound.turn stored signer
  exact ⟨joined, unhandled, uncalled, pending, others, sound.staged.taken ⟨List.ne_nil_of_mem signer, stored⟩,
    sound.blinded.params (.inr (.inr (.inl (List.ne_nil_of_mem signer))))⟩

/- A response to the session that is not a ticket. -/
theorem Recorded.answered (recorded : s.Recorded) (signed : response.status ≠ .pending) (same : t.notes = s.notes ++ returns response)
    (pending : t.session.pendingTicketId = s.session.pendingTicketId) : t.Recorded := by
  refine recorded.same pending ?_
  rw [same, returns, if_neg signed, List.append_nil]

theorem Recorded.ticketed (recorded : s.Recorded) (expecting : s.Expecting asked) (allowed : asked.allows response = true)
    (ticket : response.status = .pending) (same : t.notes = s.notes ++ returns response)
    (pending : t.session.pendingTicketId = some response.ticketId) : t.Recorded := by
  rw [returns, if_pos ticket] at same
  constructor
  · intro one
    simpa [same] using recorded.unrejected one
  · intro id returned
    rw [same, List.mem_append, List.mem_singleton] at returned
    rw [same, pending]
    rcases returned with earlier | now
    · rcases recorded.kept id earlier with held | done
      · rw [expecting.pending] at held
        cases asked with
        | info => cases held
        | request => cases held
        | poll polled =>
          cases held
          simp only [Asked.allows, ticket, ne_eq, not_true_eq_false, false_or, decide_eq_true_eq] at allowed
          exact .inl (congrArg some allowed)
      · exact .inr (List.mem_append_left _ done)
    · cases now
      exact .inl rfl

theorem Sound.tickets (sound : s.Sound) (expecting : s.Expecting asked) (allowed : asked.allows response = true)
    (ticket : response.status = .pending) :
    Sound { s with asked := s.asked.erase asked, notes := s.notes ++ returns response
                   session := { s.session with pendingTicketId := some response.ticketId, lastError := ""
                                               stage := .awaitingOperatorApproval } } := by
  have left := unansweredErased s asked
  constructor
  · rw [InTurn, signers]
    simp only [expecting.unhandled, expecting.uncalled, left]
    refine .ticketed _ expecting.joined fun one other => ?_
    obtain ⟨rfl, polled⟩ := expecting.others one other
    cases one with
    | info => cases polled
    | request => cases polled
    | poll id =>
      simp only [Asked.allows, ticket, ne_eq, not_true_eq_false, false_or, decide_eq_true_eq] at allowed
      rw [allowed]
  · exact ⟨fun _ => rfl, fun h => (by cases h), fun h => (by cases h), fun h => (by cases h), fun _ h => (by cases h)⟩
  · exact sound.recorded.ticketed expecting allowed ticket rfl rfl
  · exact ⟨fun _ => expecting.params, sound.blinded.used⟩

theorem Sound.handles (sound : s.Sound) (expecting : s.Expecting asked) (signed : response.status ≠ .pending)
    (last : s.signers.erase asked = []) :
    Sound { s with asked := s.asked.erase asked, notes := s.notes ++ returns response, handler := some (asked, response) } := by
  have left := (unansweredErased s asked).trans last
  have takes := expecting.takes
  constructor
  · rw [InTurn, signers]
    simp only [expecting.uncalled, left, expecting.pending]
    exact .handling asked response expecting.joined
  · refine ⟨fun awaited => absurd left awaited.1, fun asks => ?_, fun _ => .inr rfl, fun _ => .inr rfl, fun _ idle => ?_⟩
    · rw [asks] at takes
      cases takes
    · rw [idle] at takes
      cases takes
  · exact sound.recorded.answered signed rfl rfl
  · exact ⟨fun _ => expecting.params, sound.blinded.used⟩

theorem Sound.refuses (sound : s.Sound) (expecting : s.Expecting asked) (signed : response.status ≠ .pending)
    (last : s.signers.erase asked = []) (reason : String) :
    Sound { s with asked := s.asked.erase asked, notes := s.notes ++ returns response, session := s.session.fail reason } := by
  have left := (unansweredErased s asked).trans last
  constructor
  · rw [InTurn, signers]
    simp only [expecting.unhandled, expecting.uncalled, left]
    exact .rested expecting.joined _
  · exact .still left expecting.unhandled rfl
  · exact sound.recorded.answered signed rfl rfl
  · exact ⟨fun _ => expecting.params, sound.blinded.used⟩

theorem Sound.hearsResponse (sound : s.Sound) (stored : s.worker.unstored = false)
    (last : response.status ≠ .pending → s.signers.erase asked = []) (among : asked ∈ s.asked)
    (allowed : asked.allows response = true) : (s.hearsResponse asked response).Sound := by
  have expecting := sound.expecting stored among allowed
  unfold SessionState.hearsResponse SessionState.onSignerResponse
  simp only [expecting.takes, Bool.not_true, Bool.false_eq_true, if_false]
  split
  next ticket => exact sound.tickets expecting allowed ticket
  next signed =>
    have other : response.status ≠ .pending := by simp [signed]
    exact sound.handles expecting other (last other)
  all_goals
    next refused =>
      have other : response.status ≠ .pending := by simp [refused]
      exact sound.refuses expecting other (last other) _

theorem Sound.resumes (sound : s.Sound) (handles : s.handler = some (asked, response)) : (s.resumes asked response).Sound := by
  have turn := sound.turn
  rw [InTurn, handles] at turn
  obtain ⟨joined, uncalled, pending, unasked⟩ := turn.whileHandling
  constructor
  · have finalising : Turn (.finalizing asked response) none none asked.ticket [] :=
      .finalising asked rfl fun called => (by cases called)
    rw [← uncalled, ← pending, ← unasked] at finalising
    exact finalising
  · exact .still unasked rfl rfl
  · exact sound.recorded.same rfl rfl
  · refine ⟨fun _ => sound.blinded.params (.inr (.inl ?_)), fun params h => (by cases h)⟩
    rw [handles]
    rfl

/-! The worker. -/

/- The worker ends, with nothing asked. -/
theorem Sound.fails (sound : s.Sound) (unhandled : s.handler = none) (unasked : s.signers = [])
    (free : s.caller.isSome → s.session.pendingTicketId = none) (reason : String) : (s.workerFails reason).Sound := by
  constructor
  · have rests : Turn .finished none s.caller s.session.pendingTicketId [] := by
      cases called : s.caller with
      | none => exact .rested rfl _
      | some request =>
        rw [free (by rw [called]; rfl)]
        exact .resting rfl
    rw [← unhandled, ← unasked] at rests
    exact rests
  · exact .still unasked unhandled rfl
  · exact sound.recorded.same rfl rfl
  · refine ⟨fun going => sound.blinded.params ?_, fun params h => (by cases h)⟩
    rcases going with going | going
    · cases going
    · exact .inr going

/- What the worker finds on its way with a request. -/
structure OnItsWay (s : SessionState) : Prop where
  unhandled : s.handler = none
  uncalled : s.caller = none
  none_ : s.session.pendingTicketId = none
  unasked : s.signers = []

theorem Sound.onItsWay (sound : s.Sound) (asking : s.worker.asking = true) (before : s.worker.unstored = false) : s.OnItsWay := by
  obtain ⟨unhandled, uncalled, none_, unasked⟩ := Turn.whileAsking sound.turn asking before
  exact ⟨unhandled, uncalled, none_, unasked⟩

theorem Sound.gives (sound : s.Sound) (way : s.OnItsWay) (reason : String) : (s.workerFails reason).Sound :=
  sound.fails way.unhandled way.unasked (fun _ => way.none_) reason

/- On its way the worker goes from one run of the prover to the next, or from one chunk to the next. -/
theorem Sound.moves {session : BlindSigClientSession} {worker : SessionWorker} {frames : List SessionFrame} {under : SignerParams}
    (sound : s.Sound) (way : s.OnItsWay) (asking : worker.asking = true) (before : worker.unstored = false)
    (stage : session.stage = s.session.stage) (pending : session.pendingTicketId = s.session.pendingTicketId)
    (params : session.params = under) : Sound { s with session, worker, frames, blindedUnder := under } := by
  constructor
  · show Turn worker s.handler s.caller session.pendingTicketId s.signers
    rw [way.unhandled, way.uncalled, pending, way.none_, way.unasked]
    exact .asking asking before
  · have staged := sound.staged
    refine ⟨fun awaited => absurd way.unasked awaited.1, ?_, ?_, ?_, ?_⟩
    · rw [stage]
      exact staged.info
    · rw [stage]
      exact staged.initial
    · rw [stage]
      exact staged.polled
    · rw [stage]
      exact staged.handled
  · exact sound.recorded.same pending rfl
  · refine ⟨fun _ => params, fun read used => ?_⟩
    rw [(askingOnly asking).2.2] at used
    cases used

theorem Sound.blinds {message : Bytes} {b : RingArray} {answer : ProverAnswer BlindResult} (sound : s.Sound)
    (at_ : s.worker = .blinding message b) : (s.blinds message answer).Sound := by
  have way := sound.onItsWay (by rw [at_]; rfl) (by rw [at_]; rfl)
  cases answer with
  | answered blind => exact sound.moves way rfl rfl rfl rfl (sound.blinded.params (.inl (by rw [at_]; rfl)))
  | refused error => exact sound.gives way _
  | threw what => exact sound.gives way _

/- A request is never empty. -/
theorem someChunk {assembled : Bytes} {chunks : List BlindSigRequestChunk} (some_ : assembled ≠ [])
    (sent : sendChunked assembled = .ok chunks) : chunks ≠ [] := by
  simp only [sendChunked, check_ok, throwIf_ok, pure_ok] at sent
  obtain ⟨_, rfl⟩ := sent
  have long := List.length_pos_of_ne_nil some_
  have full : 0 < (assembled.length + chunkPayloadSize - 1) / chunkPayloadSize := by
    simp only [chunkPayloadSize]
    omega
  simpa using full.ne'

theorem someRequest {blind : BlindResult} {pi1Receipt : Except Error Bytes} {session : BlindSigClientSession}
    {chunks : List BlindSigRequestChunk} (made : session.requestChunks blind pi1Receipt = .ok chunks) : chunks ≠ [] := by
  simp only [BlindSigClientSession.requestChunks, bind_ok] at made
  obtain ⟨request, _, encoded, written, sent⟩ := made
  refine someChunk (fun empty => ?_) sent
  rw [empty] at written
  simp only [encodeAssembledRequest, bind_ok, pure_ok] at written
  obtain ⟨_, _, _, _, issuance, _, receipt, _, fields⟩ := written
  simp at fields

theorem Sound.proves {blind : BlindResult} {pi1Path : Bytes} {pi1Receipt : Except Error Bytes} {answer : ProverAnswer Unit}
    (sound : s.Sound) (at_ : s.worker = .proving blind) : (s.proves blind pi1Path pi1Receipt answer).Sound := by
  have way := sound.onItsWay (by rw [at_]; rfl) (by rw [at_]; rfl)
  have params := sound.blinded.params (.inl (by rw [at_]; rfl))
  cases answer with
  | answered _ =>
    simp only [SessionState.proves]
    split
    next failed =>
      have proved : Sound { s with session := { s.session with pi1Path } } :=
        sound.moves way (by rw [at_]; rfl) (by rw [at_]; rfl) rfl rfl params
      exact proved.gives ⟨way.unhandled, way.uncalled, way.none_, way.unasked⟩ _
    next chunks made =>
      have stored : (SessionWorker.sending chunks).unstored = false := by
        cases chunks with
        | nil => exact absurd rfl (someRequest made)
        | cons chunk rest => rfl
      exact sound.moves way rfl stored rfl rfl params
  | refused error => exact sound.gives way _
  | threw what => exact sound.gives way _

theorem Sound.sends {chunk : BlindSigRequestChunk} {rest : List BlindSigRequestChunk} {queued : Except Error Unit}
    (sound : s.Sound) (at_ : s.worker = .sending (chunk :: rest)) : (s.sends chunk rest queued).Sound := by
  have way := sound.onItsWay (by rw [at_]; rfl) (by rw [at_]; rfl)
  have params := sound.blinded.params (.inl (by rw [at_]; rfl))
  cases queued with
  | error e => exact sound.gives way _
  | ok _ =>
    cases rest with
    | cons next rest => exact sound.moves way rfl rfl rfl rfl params
    | nil =>
      have asked : (Asked.request :: s.asked).filter (· ≠ .info) = .request :: s.signers := by simp [signers]
      rw [way.unasked] at asked
      have staged := sound.staged
      constructor
      · show Turn (.sending []) s.handler s.caller s.session.pendingTicketId ((Asked.request :: s.asked).filter (· ≠ .info))
        rw [way.unhandled, way.uncalled, way.none_, asked]
        exact .sent
      · refine ⟨fun awaited => (by cases awaited.2), fun asks => List.mem_cons_of_mem _ (staged.info asks), fun _ => .inl ?_,
          fun waits => ?_, staged.handled⟩
        · show Asked.request ∈ (Asked.request :: s.asked).filter (· ≠ .info)
          rw [asked]
          exact List.mem_singleton_self _
        · rcases staged.polled waits with ⟨id, among⟩ | handled
          · cases way.unasked ▸ among
          · exact .inr handled
      · exact sound.recorded.same rfl rfl
      · exact ⟨fun _ => params, fun read used => (by cases used)⟩

theorem Sound.stores (sound : s.Sound) (at_ : s.worker = .sending []) : s.stores.Sound := by
  have turn := sound.turn
  rw [InTurn, at_] at turn
  obtain ⟨unhandled, uncalled, none_, asked⟩ := turn.whileUnstored
  constructor
  · show Turn .finished s.handler s.caller s.session.pendingTicketId s.signers
    rw [unhandled, uncalled, none_, asked]
    exact .awaiting rfl
  · refine ⟨fun _ => rfl, fun h => (by cases h), fun _ => .inl ?_, fun h => (by cases h), fun _ h => (by cases h)⟩
    show Asked.request ∈ s.signers
    rw [asked]
    exact List.mem_singleton_self _
  · exact sound.recorded.same rfl rfl
  · exact sound.blinded.same (fun _ => .inl (by rw [at_]; rfl)) rfl rfl (by rw [at_]; rfl)

/- While a signature is finalised the worker goes from one run of the prover to the next. -/
structure Finishing (s : SessionState) (asked : Asked) : Prop where
  unhandled : s.handler = none
  free : s.caller.isSome → asked.ticket = none
  pending : s.session.pendingTicketId = asked.ticket
  unasked : s.signers = []
  params : s.session.params = s.blindedUnder

theorem finalisingBlinded {worker : SessionWorker} (at_ : worker.finalising = some asked) : worker.blinded = true := by
  cases worker with
  | finalizing | provingNizk2 | verifying | verifyingOwn => rfl
  | _ => cases at_

theorem Sound.finishing (sound : s.Sound) (at_ : s.worker.finalising = some asked) : s.Finishing asked := by
  obtain ⟨unhandled, free, pending, unasked⟩ := Turn.whileFinalising sound.turn at_
  exact ⟨unhandled, free, pending, unasked, sound.blinded.params (.inl (finalisingBlinded at_))⟩

theorem Sound.stops (sound : s.Sound) (finishing : s.Finishing asked) (reason : String) : (s.workerFails reason).Sound :=
  sound.fails finishing.unhandled finishing.unasked (fun called => finishing.pending.trans (finishing.free called)) reason

theorem Sound.finalizes {pi2Path : Bytes} {params : SignerParams} {answer : ProverAnswer Unit} (sound : s.Sound)
    (at_ : s.worker = .provingNizk2 asked params) : (s.finalizes asked pi2Path answer).Sound := by
  have finishing := sound.finishing (by rw [at_]; rfl)
  cases answer with
  | answered _ =>
    constructor
    · show Turn (.verifying asked pi2Path) s.handler s.caller s.session.pendingTicketId s.signers
      rw [finishing.unhandled, finishing.pending, finishing.unasked]
      exact .finalising asked rfl finishing.free
    · exact .still finishing.unasked finishing.unhandled rfl
    · exact sound.recorded.same rfl rfl
    · exact ⟨fun _ => finishing.params, fun read used => (by cases used)⟩
  | refused error => exact sound.stops finishing _
  | threw what => exact sound.stops finishing _

/- A ticket goes with the end of its finalisation. -/
theorem Recorded.finalised (recorded : s.Recorded) (pending : s.session.pendingTicketId = asked.ticket)
    (same : t.notes = s.notes ++ [.finalised asked]) : t.Recorded := by
  constructor
  · intro one
    simpa [same] using recorded.unrejected one
  · intro id returned
    have earlier : .returned id ∈ s.notes := by simpa [same] using returned
    rw [same]
    right
    rcases recorded.kept id earlier with held | done
    · rw [pending] at held
      cases asked with
      | info => cases held
      | request => cases held
      | poll polled =>
        cases held
        exact List.mem_append_right _ List.mem_cons_self
    · exact List.mem_append_left _ done

theorem Sound.verifies {pi2Path : Bytes} {params : SignerParams} {answer : ProverAnswer Bool} (sound : s.Sound)
    (at_ : s.worker = .verifyingOwn asked pi2Path params) : (s.verifies asked pi2Path answer).Sound := by
  have finishing := sound.finishing (by rw [at_]; rfl)
  cases answer with
  | answered verified =>
    cases verified with
    | false => exact sound.stops finishing _
    | true =>
      constructor
      · show Turn (.crediting asked) s.handler s.caller none s.signers
        rw [finishing.unhandled, finishing.unasked]
        exact .crediting asked
      · have staged := sound.staged
        exact ⟨fun awaited => absurd finishing.unasked awaited.1, staged.info, staged.initial, staged.polled, staged.handled⟩
      · exact sound.recorded.finalised finishing.pending rfl
      · exact ⟨fun _ => finishing.params, fun read used => (by cases used)⟩
  | refused error => exact sound.stops finishing _
  | threw what => exact sound.stops finishing _

theorem Sound.credits (sound : s.Sound) (at_ : s.worker = .crediting asked) :
    Sound { s with session := { s.session with stage := .ready }, worker := .finished } := by
  have turn := sound.turn
  rw [InTurn, at_] at turn
  obtain ⟨unhandled, none_, unasked⟩ := turn.whileCrediting
  constructor
  · show Turn .finished s.handler s.caller s.session.pendingTicketId s.signers
    rw [unhandled, none_, unasked]
    exact .resting rfl
  · exact .still unasked unhandled rfl
  · exact sound.recorded.same rfl rfl
  · refine ⟨fun going => ?_, fun read used => (by cases used)⟩
    rcases going with going | going | going | going
    · cases going
    · cases unhandled ▸ going
    · exact absurd unasked going
    · cases none_ ▸ going

/- What is read for a finalisation was blinded under. -/
theorem Sound.reading {worker : SessionWorker} (sound : s.Sound) (at_ : s.worker.finalising = some asked)
    (same : worker.finalising = some asked) (read : worker.finalisingUnder = some s.session.params) : Sound { s with worker } := by
  have finishing := sound.finishing at_
  have staged := sound.staged
  constructor
  · show Turn worker s.handler s.caller s.session.pendingTicketId s.signers
    rw [finishing.unhandled, finishing.pending, finishing.unasked]
    exact .finalising asked same finishing.free
  · exact ⟨fun awaited => absurd finishing.unasked awaited.1, staged.info, staged.initial, staged.polled, staged.handled⟩
  · exact sound.recorded.same rfl rfl
  · refine ⟨fun _ => finishing.params, fun params used => ?_⟩
    cases read.symm.trans used
    exact finishing.params

theorem Sound.reads (sound : s.Sound) (read : s.reads = some t) : t.Sound := by
  unfold SessionState.reads at read
  split at read
  next message at_ =>
    cases read
    exact sound.moves (sound.onItsWay (by rw [at_]; rfl) (by rw [at_]; rfl)) rfl rfl rfl rfl rfl
  next asked response at_ =>
    cases read
    exact sound.reading (by rw [at_]; rfl) rfl rfl
  next asked pi2Path at_ =>
    cases read
    exact sound.reading (by rw [at_]; rfl) rfl rfl
  next => cases read

/- Each event is one of the steps above. -/
theorem Sound.fired {event : SessionEvent} (sound : s.Sound) (kept : s.Keeps event) (fired : s.fire event = some t) : t.Sound := by
  cases event with
  | requestInfo =>
    simp only [fire] at fired
    split_ifs at fired
    cases fired
    exact sound.requestInfo kept
  | startRequest request =>
    simp only [fire] at fired
    split_ifs at fired
    cases fired
    exact sound.startRequest kept
  | begins =>
    simp only [fire] at fired
    split at fired
    next request waits =>
      split_ifs at fired with joined
      cases fired
      exact sound.begins waits joined
    next => cases fired
  | pollTicket =>
    simp only [fire] at fired
    split_ifs at fired with free
    cases fired
    exact sound.pollTicket (Option.isNone_iff_eq_none.mp free) kept
  | hearsInfo info =>
    simp only [fire] at fired
    split_ifs at fired with hears
    cases fired
    exact sound.hearsInfo (Option.isNone_iff_eq_none.mp hears.1) kept.1 kept.2
  | hearsResponse asked response =>
    simp only [fire] at fired
    split_ifs at fired with hears
    cases fired
    exact sound.hearsResponse kept.1 kept.2 hears.2.1 hears.2.2
  | resumes =>
    simp only [fire] at fired
    split at fired
    next asked response handles =>
      split_ifs at fired
      cases fired
      exact sound.resumes handles
    next => cases fired
  | reads => exact sound.reads fired
  | blinds answer =>
    simp only [fire] at fired
    split at fired
    next message b at_ =>
      cases fired
      exact sound.blinds at_
    next => cases fired
  | proves pi1Path answer pi1Receipt =>
    simp only [fire] at fired
    split at fired
    next blind at_ =>
      cases fired
      exact sound.proves at_
    next => cases fired
  | sends queued =>
    simp only [fire] at fired
    split at fired
    next chunk rest at_ =>
      cases fired
      exact sound.sends at_
    next => cases fired
  | stores =>
    simp only [fire] at fired
    split at fired
    next at_ =>
      cases fired
      exact sound.stores at_
    next => cases fired
  | finalizes pi2Path answer =>
    simp only [fire] at fired
    split at fired
    next asked params at_ =>
      cases fired
      exact sound.finalizes at_
    next => cases fired
  | verifies answer =>
    simp only [fire] at fired
    split at fired
    next asked pi2Path params at_ =>
      cases fired
      exact sound.verifies at_
    next => cases fired
  | credits =>
    simp only [fire] at fired
    split at fired
    next asked at_ =>
      cases fired
      exact sound.credits at_
    next => cases fired

theorem Staged.waiting (staged : s.Staged) : ¬s.Stranded := by
  rintro ⟨unhandled, ⟨at_, gone⟩ | ⟨at_, gone⟩ | ⟨at_, gone⟩⟩
  · exact gone (staged.info at_)
  · rcases staged.initial at_ with among | handled
    · exact gone (List.mem_of_mem_filter among)
    · cases unhandled ▸ handled
  · rcases staged.polled at_ with ⟨id, among⟩ | handled
    · exact gone id (List.mem_of_mem_filter among)
    · cases unhandled ▸ handled

end Steps

/- In every run that keeps to the condition no response is out of sequence, a ticket is kept until its signature is
finalised, a response that came is not waited for, and a signature is finalised under what it was blinded under. -/
theorem sessionOrdered (s : SessionState) (run : Run fire Keeps {} s) :
    (∀ asked, .rejected asked ∉ s.notes) ∧
    (∀ id, .returned id ∈ s.notes → s.session.pendingTicketId = some id ∨ .finalised (.poll id) ∈ s.notes) ∧
    ¬s.Stranded ∧ ∀ params, s.worker.finalisingUnder = some params → params = s.blindedUnder := by
  have sound : s.Sound := run.keeps soundFirst fun _ _ _ sound kept fired => sound.fired kept fired
  exact ⟨sound.recorded.unrejected, sound.recorded.kept, sound.staged.waiting, sound.blinded.used⟩

instance keepsDecides (s : SessionState) : ∀ event, Decidable (s.Keeps event)
  | .requestInfo => inferInstanceAs (Decidable (¬s.Awaited))
  | .hearsInfo info => inferInstanceAs (Decidable (¬s.Awaited ∧ (s.InProgress → info.enabled → _ = _)))
  | .startRequest _ => inferInstanceAs (Decidable (_ = _ → _ ∧ _))
  | .pollTicket => inferInstanceAs (Decidable (_ → ¬s.Finalising))
  | .hearsResponse _ _ => inferInstanceAs (Decidable (_ ∧ (_ → _)))
  | .begins | .resumes | .reads | .blinds _ | .proves _ _ _ | .sends _ | .stores | .finalizes _ _ | .verifies _ | .credits =>
      inferInstanceAs (Decidable True)

/- A proof of a blinding and what is sent after it. -/
section Chunks

def proven (s : SessionState) (pi1Path : Bytes) (chunks : List BlindSigRequestChunk) : SessionState :=
  let session := { s.session with pi1Path }
  { s with session := { session with credentialAuthorizationProvider :=
                          if session.credentialIssuance then none else session.credentialAuthorizationProvider }
           worker := .sending chunks }

theorem provenSends {s : SessionState} {blind : BlindResult} {pi1Path : Bytes} {pi1Receipt : Except Error Bytes}
    {chunks : List BlindSigRequestChunk} (at_ : s.worker = .proving blind)
    (made : { s.session with pi1Path }.requestChunks blind pi1Receipt = .ok chunks) :
    s.fire (.proves pi1Path (.answered ()) pi1Receipt) = some (s.proven pi1Path chunks) := by
  simp only [fire, at_, SessionState.proves, made]
  rfl

theorem oneChunk {assembled : Bytes} (some_ : assembled ≠ []) (short : assembled.length ≤ chunkPayloadSize) :
    ∃ chunk, sendChunked assembled = .ok [chunk] := by
  have long := List.length_pos_of_ne_nil some_
  have count : (assembled.length + chunkPayloadSize - 1) / chunkPayloadSize = 1 := by
    simp only [chunkPayloadSize] at short ⊢
    omega
  have fits : ¬assembled.length > 4294967295 := Nat.not_lt.mpr (short.trans (by decide))
  refine ⟨⟨.ofNat assembled.length, .ofNat 0, .ofNat 1, (assembled.drop (0 * chunkPayloadSize)).take chunkPayloadSize⟩, ?_⟩
  simp only [sendChunked, throwIf_not fits, count]
  rfl

/- A raw request with a receipt that leaves room for the rest of it. -/
theorem rawFits {request : SessionRequest} (raw : request.credentialIssuance = false) (free : checkIssuance request = .ok ())
    (short : request.pi1Receipt.length ≤ 57303) :
    ∃ encoded chunk, encodeAssembledRequest request = .ok encoded ∧ sendChunked encoded = .ok [chunk] := by
  have small : ¬request.pi1Receipt.length > maxBlindSigRequestBytes := Nat.not_lt.mpr (short.trans (by decide))
  have issuance : issuanceFields request = .ok [] := by
    rw [issuanceFields, raw]
    rfl
  have receipt := byteFieldOk (short.trans (by decide))
  obtain ⟨encoded, written, length⟩ : ∃ encoded, encodeAssembledRequest request = .ok encoded ∧
      encoded.length = 8233 + request.pi1Receipt.length := by
    refine ⟨_, by
      rw [encodeAssembledRequest, throwIf_not small, free, issuance, receipt]
      rfl, ?_⟩
    simp only [List.length_append, u16ArrayLength, Vector.length_toList, Wire.bigEndianLength, List.length_singleton, List.length_nil]
    omega
  have some_ : encoded ≠ [] := List.ne_nil_of_length_pos (by omega)
  obtain ⟨chunk, sent⟩ := oneChunk some_ (by rw [length, chunkPayloadSize]; omega)
  exact ⟨encoded, chunk, written, sent⟩

end Chunks

/- One request: its ticket comes before the stage is stored, and after it. -/
section Request

def ringOf (coefficient : UInt16) : RingArray := Vector.replicate 512 coefficient

def blindAnswer : BlindResult where
  rhoHex := [0x61]
  r := [0x5b]
  c := ringOf 1
  b := ringOf 2
  encA := ringOf 3
  encPk := ringOf 4
  ct1R := ringOf 5
  ct2R := ringOf 6
  ct1Mu := ringOf 7
  ct2Mu := ringOf 8

def ticketId : TicketId := Vector.replicate 32 9
def ticketResponse : BlindSigResponse := { status := .pending, ticketId }

def untilBlinded : List SessionEvent := [.requestInfo, .hearsInfo ⟨true, ringOf 1, ringOf 2⟩, .startRequest { message := [0x6d] }, .begins,
  .reads, .blinds (.answered blindAnswer)]

def proving : SessionState where
  session := { stage := .blindingAndProvingNizk1, t := ringOf 1, b := ringOf 2, mu := [0x6d], rJson := [0x5b], rhoHex := [0x61] }
  worker := .proving blindAnswer
  frames := [.infoRequest]
  blindedUnder := ⟨ringOf 1, ringOf 2⟩

def proved : SessionEvent := .proves [0x70] (.answered ()) (.ok [0x31])

def sending (chunk : BlindSigRequestChunk) : SessionState := proving.proven [0x70] [chunk]

theorem blindFits : ∃ chunk, { proving.session with pi1Path := [0x70] }.requestChunks blindAnswer (.ok [0x31]) = .ok [chunk] := by
  let request : SessionRequest := { c := ringOf 1, b := ringOf 2, encA := ringOf 3, encPk := ringOf 4, ct1R := ringOf 5, ct2R := ringOf 6
                                    ct1Mu := ringOf 7, ct2Mu := ringOf 8, issuanceRoomId := Vector.replicate 32 0, pi1Receipt := [0x31] }
  have free : checkIssuance request = .ok () := rawFree rfl rfl rfl rfl rfl rfl
  obtain ⟨encoded, chunk, written, sent⟩ := rawFits (rfl : request.credentialIssuance = false) free (by simp [request])
  refine ⟨chunk, bind_ok.mpr ⟨request, rfl, bind_ok.mpr ⟨encoded, written, sent⟩⟩⟩

/- The request of a run, up to its last chunk. -/
theorem sendingRun (meets : SessionState → SessionEvent → Prop) [∀ s event, Decidable (meets s event)]
    (started : play fire meets {} untilBlinded = some proving) (met : meets proving proved) : ∃ chunk, Run fire meets {} (sending chunk) := by
  obtain ⟨chunk, fits⟩ := blindFits
  have first : Run fire meets {} proving := playRun started
  exact ⟨chunk, first.step met (provenSends rfl fits)⟩

def overtaken : List SessionEvent := [.sends (.ok ()), .hearsResponse .request ticketResponse, .stores]

def inOrder : List SessionEvent := [.sends (.ok ()), .stores, .hearsResponse .request ticketResponse, .pollTicket,
  .hearsResponse (.poll ticketId) { status := .ok }, .resumes, .reads, .finalizes [0x32] (.answered ()), .reads]

theorem overtakenPlayed (chunk : BlindSigRequestChunk) :
    (play fire (fun _ _ => True) (sending chunk) overtaken).map (fun s =>
        ((s.session.stage, s.session.pendingTicketId), (s.asked, s.handler.isNone), s.notes)) =
      some ((.awaitingInitialResponse, none), ([], true), [.returned ticketId, .rejected .request]) := rfl

theorem inOrderPlayed (chunk : BlindSigRequestChunk) :
    (play fire Keeps (sending chunk) inOrder).map (fun s => s.worker.finalisingUnder) = some (some ⟨ringOf 1, ringOf 2⟩) := rfl

/- The response that overtakes the stage is rejected, its ticket is lost and it is waited for all the same. -/
theorem responseOvertakes : ∃ s, Run fire (fun _ _ => True) {} s ∧ .rejected .request ∈ s.notes ∧ s.Stranded ∧
    .returned ticketId ∈ s.notes ∧ s.session.pendingTicketId = none ∧ .finalised (.poll ticketId) ∉ s.notes := by
  obtain ⟨chunk, run⟩ := sendingRun (fun _ _ => True) rfl trivial
  obtain ⟨s, ran, view⟩ := Option.map_eq_some_iff.mp (overtakenPlayed chunk)
  simp only [Prod.mk.injEq] at view
  obtain ⟨⟨stage, pending⟩, ⟨asked, unhandled⟩, notes⟩ := view
  refine ⟨s, run.append (playRun ran), by simp [notes], ⟨Option.isNone_iff_eq_none.mp unhandled, .inr (.inl ⟨stage, by simp [asked]⟩)⟩,
    by simp [notes], pending, by simp [notes]⟩

theorem responseAwaited : ∃ s, Run fire Keeps {} s ∧ ¬s.Stranded ∧ s.blindedUnder = ⟨ringOf 1, ringOf 2⟩ := by
  obtain ⟨chunk, run⟩ := sendingRun Keeps rfl trivial
  obtain ⟨s, ran, read⟩ := Option.map_eq_some_iff.mp (inOrderPlayed chunk)
  have ordered : Run fire Keeps {} s := run.append (playRun ran)
  obtain ⟨_, _, waiting, under⟩ := sessionOrdered s ordered
  exact ⟨s, ordered, waiting, (under _ read).symm⟩

end Request
end SessionState
end TradeP2P.Credential
