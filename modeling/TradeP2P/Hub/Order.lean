import TradeP2P.Client.RoomView
import TradeP2P.Mediator.Turns

/-! In which order a room's frames come to a party. The session goes through its legs one after the
other, and what a handler says is said of the leg it left the session at. So the queues are in order as
long as no handler overtakes another one with what it puts there. -/
namespace TradeP2P
open Wire (Bytes ascii)
open Checks Machine Queueing
open MediatorSession (Operation Step SameTerms OnTrack)

/- The leg of a round whose tranche a party sends, for the party that sends first in the first round. -/
def legOf (first : Party) (roundIndex : UInt32) (sender : Party) : Nat :=
  2 * roundIndex.toNat + if sender = (if roundIndex.toNat % 2 = 0 then first else otherParty first) then 0 else 1

/- What a frame means for the order: the turn of leg `k` stands at `3 * k + 2` and its Sent after it, a fee
before the turn of the leg it is due at. -/
inductive Standing where
  | ready
  | placed (n : Nat)
  | final
  | loose
  deriving DecidableEq, Repr

def RoomFrame.standing (first : Party) : RoomFrame → Standing
  | .tradeReady _ => .ready
  | .told (.turn turn) => .placed (if turn.isFee then 6 * turn.roundIndex.toNat + 1
      else 3 * legOf first turn.roundIndex turn.sender + 2)
  | .told (.sent message) => .placed (3 * legOf first message.roundIndex message.sender + 3)
  | .told (.complete _) | .told (.abort _) => .final
  | .told _ | .relayed _ => .loose

/- Nothing stands before TradeReady, no Turn or Sent before one of an earlier leg, and after the end of a
room neither. -/
def Standing.mayPrecede : Standing → Standing → Bool
  | _, .ready => false
  | .placed m, .placed n => m ≤ n
  | .final, .placed _ => false
  | _, _ => true

def InOrder (first : Party) (queue : List RoomFrame) : Prop :=
  queue.Pairwise fun f g => (f.standing first).mayPrecede (g.standing first) = true

namespace MediatorSession

/- The last place of a frame that was said by now. -/
def reach (s : MediatorSession) : Nat :=
  match s.state with
  | .waitingForFeeSent | .waitingForFeeConfirmation => 3 * s.position + 1
  | .waitingForSent => 3 * s.position + 2
  | .waitingForReceived => 3 * s.position + 3
  | _ => 3 * s.position

section Places
variable {s t : MediatorSession} {op : Operation}

theorem legOfTurn (leg : s.leg ≤ 1) :
    legOf s.creator.terms.firstSender s.roundIndex (s.senderOfLeg s.position) = s.position := by
  obtain ⟨round, parity⟩ := positionSplit leg
  have index : s.roundIndex.toNat = s.round := rfl
  simp only [legOf, senderOfLeg, index, ← round, ← parity]
  have whole : s.position = 2 * s.round + s.leg := rfl
  have legs : s.leg = 0 ∨ s.leg = 1 := by omega
  rcases legs with first | second
  · have here : s.position = 2 * s.round := by omega
    simp [first, here]
  · have here : s.position = 2 * s.round + 1 := by omega
    rcases Nat.mod_two_eq_zero_or_one s.round with even | odd
    · have next : (s.round + 1) % 2 = 1 := by omega
      simp [second, here, even, next]
    · have next : (s.round + 1) % 2 = 0 := by omega
      simp [second, here, odd, next, (otherPartyNe _).symm]

theorem tranchePlace (valid : ValidTerms s.creator.terms) (on : s.OnTrack)
    (waiting : s.state = .waitingForSent ∨ s.state = .waitingForReceived) :
    ∃ turn, s.currentTurn = .ok turn ∧
      (RoomFrame.told (.turn turn)).standing s.creator.terms.firstSender = .placed (3 * s.position + 2) := by
  obtain ⟨turn, due, noFee, index, sender, _⟩ := turnAtLeg valid on waiting
  refine ⟨turn, due, ?_⟩
  simp [RoomFrame.standing, noFee, index, sender, legOfTurn (onTranche on waiting).2.1]

/- The turn that is due stands at the end of what was said, or right before the Sent that was. -/
theorem turnPlace (valid : ValidTerms s.creator.terms) (on : s.OnTrack) {turn : TurnMessage}
    (due : s.currentTurn = .ok turn) :
    ∃ n, (RoomFrame.told (.turn turn)).standing s.creator.terms.firstSender = .placed n ∧
      (n = s.reach ∨ s.state = .waitingForReceived ∧ n + 1 = s.reach) := by
  have tranche (waiting : s.state = .waitingForSent ∨ s.state = .waitingForReceived) :
      (RoomFrame.told (.turn turn)).standing s.creator.terms.firstSender = .placed (3 * s.position + 2) := by
    obtain ⟨turn', due', place⟩ := tranchePlace valid on waiting
    obtain rfl : turn = turn' := Except.ok.inj (due.symm.trans due')
    exact place
  cases state : s.state with
  | waitingForSent => exact ⟨_, tranche (.inl state), .inl (by simp [reach, state])⟩
  | waitingForReceived => exact ⟨_, tranche (.inr state), .inr ⟨rfl, by simp [reach, state]⟩⟩
  | waitingForFeeSent =>
      obtain rfl := Except.ok.inj (due.symm.trans (turnAtFee state))
      have placed := on.placed
      simp only [Placed, state] at placed
      have here : s.position = 2 * s.roundIndex.toNat := by
        simp only [position, placed.2.1]
        rfl
      refine ⟨6 * s.roundIndex.toNat + 1, rfl, .inl ?_⟩
      simp only [reach, state, here]
      omega
  | _ => simp [currentTurn, currentSender, state, bind, Except.bind, throw, throwThe, MonadExceptOf.throw] at due

/- What a step says is further on than all that was said before it. -/
theorem Step.reaches (on : s.OnTrack) (step : Step s op t) (unfinished : t.state ≠ .complete)
    (open_ : t.state ≠ .aborted) :
    s.reach ≤ t.reach ∧ (t.state = .waitingForSent ∨ t.state = .waitingForFeeSent ∨ t.state = .waitingForReceived →
      s.reach < t.reach) := by
  cases step with
  | joined message waiting room address =>
      have state : (s.joinedBy message.receiveAddressB).state =
          if s.feeDueBeforeAnyRound then .waitingForFeeSent else .waitingForSent := rfl
      cases due : s.feeDueBeforeAnyRound <;> simp [reach, waiting, state, due]
  | feeSent waiting =>
      simp only [reach, waiting, inStateState, inStatePosition] at unfinished ⊢
      unfold onceFeeReported onceFeeSettled at *
      split_ifs at * <;> simp at *
  | sent party waiting sender => simp [reach, waiting]
  | received party waiting sender =>
      obtain ⟨more, leg, _⟩ := onTranche on (.inr waiting)
      have next := (advancedReaches more leg).position
      cases state : s.advanced.state <;> simp [reach, waiting, state, next] <;> omega
  | acknowledged party waiting first =>
      unfold MediatorSession.acknowledged at *
      split_ifs at * with other gate <;> simp [reach, waiting]
  | confirmed waiting =>
      simp only [reach, waiting, inStateState, inStatePosition] at unfinished ⊢
      unfold onceFeeSettled at *
      split_ifs at * <;> simp at *
  | aborted reason unfinished => exact absurd rfl open_

/- The turn after a step is not behind what was said before it. -/
theorem Step.turnsOn (valid : ValidTerms s.creator.terms) (on : s.OnTrack) (step : Step s op t) {turn : TurnMessage}
    (due : t.currentTurn = .ok turn) :
    ∃ n, (RoomFrame.told (.turn turn)).standing s.creator.terms.firstSender = .placed n ∧ s.reach ≤ n ∧ n ≤ t.reach := by
  have same := step.same.creator
  obtain ⟨n, place, stands⟩ := turnPlace (same ▸ valid) (step.onTrack on) due
  have unfinished : t.state ≠ .complete := by
    intro state
    simp [currentTurn, currentSender, state, bind, Except.bind, throw, throwThe, MonadExceptOf.throw] at due
  have open_ : t.state ≠ .aborted := by
    intro state
    simp [currentTurn, currentSender, state, bind, Except.bind, throw, throwThe, MonadExceptOf.throw] at due
  obtain ⟨further, beyond⟩ := step.reaches on unfinished open_
  refine ⟨n, same ▸ place, ?_⟩
  rcases stands with here | ⟨reported, before⟩
  · omega
  · have := beyond (.inr (.inr reported))
    omega

theorem arrivalUnreported {p : Plan} {k : Nat} : arrival p k ≠ .waitingForReceived := by
  unfold arrival
  split_ifs <;> decide

theorem Step.reportsOnly (on : s.OnTrack) (step : Step s op t) (reported : t.state = .waitingForReceived) :
    ∃ party message, op = .senderReportedSent party message := by
  cases step with
  | feeSent waiting => exact ⟨_, _, rfl⟩
  | sent party waiting sender => exact ⟨_, _, rfl⟩
  | joined message waiting room address =>
      simp only [joinedBy] at reported
      split at reported <;> contradiction
  | received party waiting sender =>
      obtain ⟨more, leg, _⟩ := onTranche on (.inr waiting)
      exact absurd ((advancedReaches more leg).state.symm.trans reported) arrivalUnreported
  | acknowledged party waiting first =>
      unfold MediatorSession.acknowledged at reported
      split_ifs at reported <;> simp [waiting] at reported
  | confirmed waiting =>
      simp only [inStateState, onceFeeSettled] at reported
      split at reported <;> contradiction
  | aborted reason unfinished => simp [abortedWith] at reported

/- A turn that a step makes due is new. -/
theorem Step.newTurn (valid : ValidTerms s.creator.terms) (on : s.OnTrack) (step : Step s op t)
    (unreported : t.state ≠ .waitingForReceived) {turn : TurnMessage} (due : t.currentTurn = .ok turn) :
    (RoomFrame.told (.turn turn)).standing s.creator.terms.firstSender = .placed t.reach ∧ s.reach < t.reach := by
  have same := step.same.creator
  obtain ⟨n, place, stands⟩ := turnPlace (same ▸ valid) (step.onTrack on) due
  rcases stands with rfl | ⟨reported, _⟩
  · refine ⟨same ▸ place, ?_⟩
    cases state : t.state with
    | waitingForSent => exact (step.reaches on (by simp [state]) (by simp [state])).2 (.inl state)
    | waitingForFeeSent => exact (step.reaches on (by simp [state]) (by simp [state])).2 (.inr (.inl state))
    | waitingForReceived => exact absurd state unreported
    | _ => simp [currentTurn, currentSender, state, bind, Except.bind, throw, throwThe, MonadExceptOf.throw] at due
  · exact absurd reported unreported

/- The Sent of a leg comes right after its turn. -/
theorem Step.sentPlace (on : s.OnTrack) {party : Party} {message : RoundSignalMessage}
    (step : Step s (.senderReportedSent party message) t) :
    t.state = .complete ∨ t.state = .waitingForFeeConfirmation ∨ t.state = .waitingForSent ∨
      t.state = .waitingForReceived ∧
        (RoomFrame.told (.sent message)).standing s.creator.terms.firstSender = .placed t.reach ∧ s.reach < t.reach := by
  cases step with
  | feeSent waiting =>
      simp only [inStateState, onceFeeReported, onceFeeSettled]
      split_ifs <;> simp
  | sent party waiting sender =>
      have leg := (onTranche on (.inl waiting)).2.1
      have mine : s.senderOfLeg s.position = party := Except.ok.inj ((senderAtLeg (.inl waiting) leg).symm.trans sender)
      refine .inr (.inr (.inr ⟨rfl, ?_, by simp [reach, waiting]⟩))
      simp [RoomFrame.standing, ← mine, legOfTurn leg, reach]

end Places
end MediatorSession

namespace Delivery
open MediatorSession (reach)

variable (first : Party)

/-! What a thread has left to put on the queue of a party. -/

def Errand.left (party : Party) : Errand → List Standing
  | .lookUp frame => [frame.standing first]
  | .tell peer frame | .put peer frame => if peer = party then [frame.standing first] else []
  | _ => []

-- A join still has to read the turn that is due.
def turnLeft (s : MediatorSession) : List Standing :=
  match s.currentTurn with
  | .ok turn => [(RoomFrame.told (.turn turn)).standing first]
  | .error _ => []

def Thread.decided (party : Party) : Thread → List Standing
  | .telling errands => errands.flatMap (Errand.left first party)
  | .handingOn peer message => if peer = party then [(RoomFrame.relayed message).standing first] else []
  | .persisting | .announcing => [.ready]
  | .announced left => (left.filter (·.1 = party)).map fun _ => .ready
  | _ => []

def Thread.readsTurn : Thread → Bool
  | .persisting | .announcing | .announced _ => true
  | _ => false

def Thread.left (s : MediatorSession) (party : Party) (thread : Thread) : List Standing :=
  thread.decided first party ++ if thread.readsTurn then turnLeft first s else []

def State.session (s : State) : MediatorSession := s.shared.room.entry.session

def State.left (s : State) (party : Party) (worker : Worker) : List Standing :=
  (s.threads worker).left first s.session party

-- The frame the next step of a thread puts on a queue.
def Thread.puts : Thread → Option (Party × RoomFrame)
  | .telling (.tell party frame :: _) | .telling (.put party frame :: _) => some (party, frame)
  | .announced ((party, ready) :: _) => some (party, .tradeReady ready)
  | _ => none

/- A frame is put on the queue of a party only when no other thread has something left for that queue
that has to stand before it. -/
def InTurn (s : State) : Event → Prop
  | .acts worker _ => ∀ party frame, (s.threads worker).puts = some (party, frame) → s.shared.alive party = true →
      ¬Overtakes (fun x y => Standing.mayPrecede x y = true) (s.left first party) worker (frame.standing first)
  | _ => True

/-! What one locked section does to the room, and what it leaves to be put. -/

inductive Changed (e e' : RoomEntry) (next : Thread) : Prop where
  | still (session : e'.session = e.session) (active : e'.active = e.active)
      (new : ∀ party, ∀ x ∈ next.decided first party, x = .loose)
  | moved (op : Operation) (step : Step e.session op e'.session) (before : e.active = true) (after : e'.active = true)
      (unfinished : e'.session.state ≠ .complete) (open_ : e'.session.state ≠ .aborted)
      (new : ∀ party, ∀ x ∈ next.decided first party, x = .loose ∨ x = .placed e'.session.reach ∧
        e.session.reach < e'.session.reach)
  | closed (before : e.active = true) (after : e'.active = false) (same : SameTerms e.session e'.session)
      (turns : ∀ turn, e'.session.currentTurn = .ok turn → ∃ op, Step e.session op e'.session)
      (new : ∀ party, ∀ x ∈ next.decided first party, x = .loose ∨ x = .final)

def Ends (e : RoomEntry) (x : HubM Thread) (room : Room) : Prop :=
  Ensures x room (fun next t => Changed first e t.entry next ∧ next.readsTurn = false)
    (fun _ t => Changed first e t.entry idle)

variable {first} {hub : HubConfig} {env : HubEnv}

@[simp] theorem leftIdle (party : Party) : idle.decided first party = [] := rfl

@[simp] theorem leftTelling (party : Party) (errand : Errand) (rest : List Errand) :
    (Thread.telling (errand :: rest)).decided first party =
      errand.left first party ++ (Thread.telling rest).decided first party := rfl

section Sections
variable {α : Type} {e : RoomEntry} {room : Room} {next : Thread} {op : Operation} {session : MediatorSession}
open Hub

theorem Changed.givesUp {e' : RoomEntry} (changed : Changed first e e' next) : Changed first e e' idle := by
  cases changed with
  | still session active => exact .still session active (by simp)
  | moved op step before after unfinished open_ => exact .moved op step before after unfinished open_ (by simp)
  | closed before after same turns => exact .closed before after same turns (by simp)

theorem endsQuiet {x : HubM α} {k : α → HubM Thread} (quiet : Emits (fun _ => True) x)
    (changed : Changed first e room.entry next) (rest : ∀ a t, t.entry = room.entry → Ends first e (k a) t) :
    Ends first e (x >>= k) room := by
  rw [Ends, ensuresBind]
  refine (quiet room).weaken (fun a t _ grows => rest a t grows.entry) (fun _ t _ grows => ?_)
  rw [grows.entry]
  exact changed.givesUp

theorem endsActive {k : Unit → HubM Thread} (rest : room.entry.active = true → Ends first room.entry (k ()) room) :
    Ends first room.entry (requireActive >>= k) room := by
  simp only [Ends, requireActive, ensuresBind, ensuresGet, ensuresLift, throwIf_ok, not_not]
  exact ⟨fun _ active => rest active, fun _ _ => .still rfl rfl (by simp)⟩

theorem endsGet {e : RoomEntry} {k : Room → HubM Thread} (rest : Ends first e (k room) room) :
    Ends first e (do let room ← get; k room) room :=
  rest

theorem endsSession (op : Operation) {k : Unit → HubM Thread}
    (rest : ∀ session, Step room.entry.session op session →
      Ends first room.entry (k ()) { room with entry := { room.entry with session } }) :
    Ends first room.entry (onSession (MediatorSession.perform op) >>= k) room := by
  rw [Ends, ensuresBind]
  unfold Ensures onSession
  cases performed : MediatorSession.perform op room.entry.session with
  | ok u session => exact rest session (MediatorSession.acceptsIff.mp performed)
  | error e session =>
      obtain rfl := MediatorSession.performAtomic _ _ _ _ performed
      exact .still rfl rfl (by simp)

theorem noTurnOnceOver {s : MediatorSession} (over_ : s.state = .complete ∨ s.state = .aborted) {turn : TurnMessage} :
    s.currentTurn ≠ .ok turn := by
  rcases over_ with state | state <;>
    simp [MediatorSession.currentTurn, MediatorSession.currentSender, state, bind, Except.bind, throw, throwThe,
      MonadExceptOf.throw]

/- A section that settles the trade closes the room, with its receipt and the end left to be told. -/
theorem endsSettled {k : IssuedReceipt → HubM Thread} (before : e.active = true) (same : SameTerms e.session room.entry.session)
    (turns : ∀ turn, room.entry.session.currentTurn = .ok turn → ∃ op, Step e.session op room.entry.session)
    (rest : ∀ receipt t, t.entry = { room.entry with active := false } → (∀ next : Thread,
      (∀ party, ∀ x ∈ next.decided first party, x = .loose ∨ x = .final) → Changed first e t.entry next) →
      Ends first e (k receipt) t) :
    Ends first e (settle hub env >>= k) room := by
  rw [Ends, ensuresBind]
  refine (settleEnsures room).weaken (fun receipt t _ settled => ?_) (fun _ t _ left => ?_)
  · refine rest receipt t (by rw [settled.2]) fun next new => ?_
    rw [settled.2]
    exact .closed before rfl same turns new
  · rw [left]
    exact .closed before rfl same turns (by simp)

theorem completionLeft (receipt : IssuedReceipt) (roomId : RoomId) (party : Party) :
    ∀ x ∈ (Thread.telling (completion receipt roomId)).decided first party, x = .loose ∨ x = .final := by
  simp [completion, Errand.left, RoomFrame.standing, Thread.decided]

/- An abort in a section: the session, if it went on, is aborted. -/
theorem endsDeactivated {reason : Bytes} {k : Unit → HubM Thread} (before : room.entry.active = true)
    (rest : ∀ t, (∀ next : Thread, (∀ party, ∀ x ∈ next.decided first party, x = .loose ∨ x = .final) →
      Changed first room.entry t.entry next) → Ends first room.entry (k ()) t) :
    Ends first room.entry (deactivate reason >>= k) room := by
  have finished (session : MediatorSession) (same : SameTerms room.entry.session session)
      (over_ : session.state = .complete ∨ session.state = .aborted) (next : Thread)
      (new : ∀ party, ∀ x ∈ next.decided first party, x = .loose ∨ x = .final) :
      Changed first room.entry { room.entry with active := false, session } next :=
    .closed before rfl same (fun turn due => absurd due (noTurnOnceOver over_)) new
  simp only [Ends, deactivate, onEntry, ensuresBind, ensuresModify, ensuresGet, ensuresIte, ensuresPure]
  constructor
  · intro goesOn
    unfold Ensures onSession
    have aborts : MediatorSession.abort reason room.entry.session = .ok () (room.entry.session.abortedWith reason) :=
      MediatorSession.abortStep.mpr (.aborted reason goesOn.1)
    simp only [aborts]
    exact rest _ fun next new => finished _ (Step.aborted reason goesOn.1).same (.inr rfl) next new
  · intro over_
    refine rest _ fun next new => ?_
    have over_ : room.entry.session.state = .complete ∨ room.entry.session.state = .aborted := by
      by_contra goesOn
      exact over_ (not_or.mp goesOn)
    exact finished room.entry.session MediatorSession.sameRefl over_ next new

theorem endsPure (changed : Changed first e room.entry next) (decided : next.readsTurn = false := by rfl) :
    Ends first e (pure next) room :=
  ⟨changed, decided⟩

theorem endsTurn {k : TurnMessage → HubM Thread} (changed : Changed first e room.entry next)
    (rest : ∀ turn, room.entry.session.currentTurn = .ok turn → Ends first e (k turn) room) :
    Ends first e (currentTurn >>= k) room := by
  simp only [Ends, currentTurn, ensuresBind, ensuresGet, ensuresLift, rejectedOk]
  exact ⟨rest, fun _ _ => changed.givesUp⟩

theorem endsUpsert {k : Unit → HubM Thread} (changed : Changed first e room.entry next)
    (rest : ∀ t, t.entry = room.entry → Ends first e (k ()) t) : Ends first e (persistRoomUpsert hub env >>= k) room :=
  endsQuiet (emitsUpsert fun _ => trivial) changed fun _ t same => rest t same

-- The room is persisted, and what was decided is told.
theorem endsPersisted (changed : Changed first e room.entry next) (decided : next.readsTurn = false := by rfl) :
    Ends first e (do persistRoomUpsert hub env; return next) room :=
  endsUpsert changed fun t same => endsPure (by rwa [same]) decided

/- What a section may rely on while the room is active. -/
structure Fit (first : Party) (e : RoomEntry) : Prop where
  valid : ValidTerms e.session.creator.terms
  sender : e.session.creator.terms.firstSender = first
  track : e.active = true → e.session.OnTrack

theorem movedTo (next : Thread) (before : e.active = true) (step : Step e.session op session) (unfinished : session.state ≠ .complete)
    (open_ : session.state ≠ .aborted) (new : ∀ party, ∀ x ∈ next.decided first party,
      x = .loose ∨ x = .placed session.reach ∧ e.session.reach < session.reach) :
    Changed first e { e with session } next :=
  .moved op step before before unfinished open_ new

theorem handleSentEnds (fit : Fit first room.entry) (party : Party) (message : RoundSignalMessage) :
    Ends first room.entry (handleSent hub env party message) room := by
  refine endsActive fun active => endsSession (.senderReportedSent party message) fun session step => ?_
  have on := fit.track active
  have open_ : session.state ≠ .aborted := by
    intro closed
    obtain ⟨_, aborts⟩ := step.abortsOnly on closed
    cases aborts
  refine endsGet ?_
  dsimp only
  rcases step.sentPlace on with state | state | state | ⟨state, place, beyond⟩ <;> simp only [state]
  · refine endsSettled active step.same (fun _ due => absurd due (noTurnOnceOver (.inl state)))
      fun receipt t _ closes => ?_
    exact endsPure (closes _ (completionLeft receipt _))
  · refine endsPersisted (.moved _ step active active (by simp [state]) open_ ?_)
    simp [Errand.left, RoomFrame.standing, Thread.decided]
  · refine endsTurn (movedTo idle active step (by simp [state]) open_ (by simp)) fun turn due => ?_
    refine endsPersisted (.moved _ step active active (by simp [state]) open_ ?_)
    have new := step.newTurn fit.valid on (by simp [state]) due
    rw [fit.sender] at new
    simp [Errand.left, new, Thread.decided]
  · refine endsUpsert (movedTo idle active step (by simp [state]) open_ (by simp)) fun t same => ?_
    rw [Ends, ensuresIte]
    constructor
    · intro _
      refine endsPure ?_
      rw [same]
      refine .moved _ step active active (by simp [state]) open_ ?_
      rw [fit.sender] at place
      simp only [Errand.left, Thread.decided, List.flatMap_cons, List.flatMap_nil, List.append_nil, place]
      intro p x left
      split at left
      · exact .inr ⟨List.mem_singleton.mp left, beyond⟩
      · simp at left
    · intro _
      refine endsPure ?_
      rw [same]
      exact .moved _ step active active (by simp [state]) open_ (by simp [Thread.decided])

theorem telledLoose {errands : List Errand} (party : Party)
    (loose : ∀ errand ∈ errands, ∀ x ∈ errand.left first party, x = .loose) :
    ∀ x ∈ (Thread.telling errands).decided first party, x = .loose := by
  intro x left
  obtain ⟨errand, mem, left⟩ := List.mem_flatMap.mp left
  exact loose errand mem x left

theorem leftAppend (party : Party) (front back : List Errand) : (Thread.telling (front ++ back)).decided first party =
    (Thread.telling front).decided first party ++ (Thread.telling back).decided first party :=
  List.flatMap_append

/- Telling of a receipt does not matter for the order. -/
theorem receivedLoose (first : Party) (connected : Bool) (peer : Party) (message : RoundSignalMessage) (party : Party) :
    ∀ x ∈ (Thread.telling (if connected then [.tell peer (.told (.received message))] else [])).decided first party,
      x = .loose := by
  refine telledLoose party fun errand mem x left => ?_
  split at mem
  · rw [List.mem_singleton.mp mem] at left
    simp only [Errand.left, RoomFrame.standing] at left
    split at left <;> simp at left
    exact left
  · simp at mem

theorem handleReceivedEnds (fit : Fit first room.entry) (party : Party) (message : RoundSignalMessage) :
    Ends first room.entry (handleReceived hub env party message) room := by
  refine endsActive fun active => endsSession (.receiverReportedReceived party message) fun session step => ?_
  have on := fit.track active
  have open_ : session.state ≠ .aborted := by
    intro closed
    obtain ⟨_, aborts⟩ := step.abortsOnly on closed
    cases aborts
  have unreported : session.state ≠ .waitingForReceived := by
    intro reported
    obtain ⟨_, _, reports⟩ := step.reportsOnly on reported
    cases reports
  have relayed := receivedLoose first (env.connected (otherParty party)) (otherParty party) message
  refine endsGet ?_
  dsimp only
  generalize (if env.connected (otherParty party) then [Errand.tell (otherParty party) (.told (.received message))]
    else []) = relay at relayed ⊢
  split
  · rename_i complete
    refine endsSettled active step.same (fun _ due => absurd due (noTurnOnceOver (.inl complete)))
      fun receipt t _ closes => endsPure (closes _ fun p x left => ?_)
    rw [leftAppend, List.mem_append] at left
    rcases left with before | after
    · exact .inl (relayed p x before)
    · exact completionLeft receipt _ p x after
  · rename_i gate
    refine endsPersisted (.moved _ step active active (by simp [gate]) open_ fun p x left => .inl ?_)
    rw [leftAppend, List.mem_append] at left
    rcases left with before | after
    · exact relayed p x before
    · simpa [Errand.left, RoomFrame.standing, Thread.decided] using after
  · rename_i complete gate
    refine endsTurn (movedTo idle active step complete open_ (by simp)) fun turn due => ?_
    refine endsPersisted (.moved _ step active active complete open_ fun p x left => ?_)
    have new := step.newTurn fit.valid on unreported due
    rw [fit.sender] at new
    rw [leftAppend, List.mem_append] at left
    rcases left with before | after
    · exact .inl (relayed p x before)
    · simp only [Errand.left, new.1, Thread.decided, List.flatMap_cons, List.flatMap_nil, List.append_nil] at after
      exact .inr ⟨List.mem_singleton.mp after, new.2⟩

theorem announceSession (room : RoomEntry) (key : Ed25519PublicKey) (keyMldsa65 : MlDsa65PublicKey) (party : Party) :
    (room.announce key keyMldsa65 party).session = room.session ∧
      (room.announce key keyMldsa65 party).active = room.active := by
  cases party <;> exact ⟨rfl, rfl⟩

theorem handleTradeEphemeralKeyEnds (clientId : ClientId) (party : Party) (message : TradeEphemeralKeyMessage) :
    Ends first room.entry (handleTradeEphemeralKey clientId party message) room := by
  have same := announceSession room.entry message.ephemeralPublicKey message.ephemeralPublicKeyMldsa65 party
  simp only [Ends, handleTradeEphemeralKey, onEntry, ensuresBind, ensuresModify, ensuresPure]
  exact ⟨.still same.1 same.2 (by simp [Thread.decided]), rfl⟩

theorem endsChecked {x : Except HubError α} {k : α → HubM Thread} (rest : ∀ a, Ends first room.entry (k a) room) :
    Ends first room.entry (liftM x >>= k) room := by
  rw [Ends, ensuresBind, ensuresLift]
  exact ⟨fun a _ => rest a, fun _ _ => .still rfl rfl (by simp)⟩

/- The receipt of the gate leaves the session as it is. -/
theorem endsIssued {stage : ReceiptStage} {completed : Bool} {k : IssuedReceipt → HubM Thread}
    (changed : Changed first e room.entry next)
    (rest : ∀ receipt t, t.entry.session = room.entry.session → t.entry.active = room.entry.active →
      Ends first e (k receipt) t) :
    Ends first e (issueReceipt hub env stage completed >>= k) room := by
  simp only [Ends, issueReceipt, onEntry, emit, ensuresBind, ensuresGet, ensuresLift, ensuresIte, ensuresModify]
  refine ⟨fun receipt built => ⟨fun _ => ?_, fun _ => ?_⟩, fun _ _ => changed.givesUp⟩
  · exact rest receipt _ rfl rfl
  · exact rest receipt _ rfl rfl

theorem handleReceiptAckEnds (fit : Fit first room.entry) (party : Party) (message : ReceiptAckMessage) :
    Ends first room.entry (handleReceiptAck hub env party message) room := by
  refine endsActive fun active => ?_
  show Ends first room.entry (liftM _ >>= _) room
  refine endsChecked fun _ => endsChecked fun _ => endsChecked fun _ => ?_
  refine endsSession (.acknowledgeFinalReceipt party) fun session step => ?_
  have on := fit.track active
  have open_ : session.state ≠ .aborted := by
    intro closed
    obtain ⟨_, aborts⟩ := step.abortsOnly on closed
    cases aborts
  have unreported : session.state ≠ .waitingForReceived := by
    intro reported
    obtain ⟨_, _, reports⟩ := step.reportsOnly on reported
    cases reports
  have unfinished : session.state ≠ .complete := by
    cases step with
    | acknowledged party waiting _ =>
        unfold MediatorSession.acknowledged
        split_ifs <;> simp [waiting]
  have kept := @movedTo first _ _ _ idle active step unfinished open_ (by simp)
  show Ends first room.entry (ite _ _ _) _
  rw [Ends, ensuresIte]
  refine ⟨fun opens => endsIssued kept fun receipt t same active' => ?_, fun _ => endsPersisted kept⟩
  have moved (next : Thread) (new : ∀ p, ∀ x ∈ next.decided first p,
      x = .loose ∨ x = .placed session.reach ∧ room.entry.session.reach < session.reach) :
      Changed first room.entry t.entry next := by
    have session' : t.entry.session = session := same
    refine .moved _ (session' ▸ step) active (active'.trans active) (by rwa [session']) (by rwa [session']) ?_
    rwa [session']
  refine endsTurn (moved idle (by simp)) fun turn due => endsPersisted (moved _ fun p x left => ?_)
  have session' : t.entry.session = session := same
  rw [session'] at due
  have new := step.newTurn fit.valid on unreported due
  rw [fit.sender] at new
  simp only [leftTelling, Errand.left, RoomFrame.standing, List.cons_append, List.nil_append, List.mem_cons] at left
  rcases left with receipt | turn | none
  · exact .inl receipt
  · exact .inr ⟨turn.trans new.1, new.2⟩
  · simp at none

theorem abortRoomEnds (reason : Bytes) : Ends first room.entry (abortRoom reason) room := by
  show Ends first room.entry (ite _ _ _) room
  rw [Ends, ensuresIte]
  refine ⟨fun active => endsDeactivated active fun t closes => endsPure (closes _ ?_), fun _ => ?_⟩
  · simp [Errand.left, RoomFrame.standing, Thread.decided]
  · exact endsPure (.still rfl rfl (by simp))

theorem removeClientEnds : Ends first room.entry removeClient room := by
  show Ends first room.entry (ite _ _ _) room
  rw [Ends, ensuresIte]
  refine ⟨fun active => endsDeactivated active fun t closes => endsPure (closes _ ?_), fun _ => ?_⟩
  · simp [Errand.left, RoomFrame.standing, Thread.decided]
  · exact endsPure (.still rfl rfl (by simp))

theorem tryConfirmFeeLockedEnds : Ends first room.entry (tryConfirmFeeLocked hub env) room := by
  show Ends first room.entry (ite _ _ _) room
  rw [Ends, ensuresIte]
  refine ⟨fun confirms => ?_, fun _ => endsPure (.still rfl rfl (by simp))⟩
  refine endsSession .confirmFeeReceived fun session step => ?_
  refine endsSettled confirms.1 step.same (fun _ _ => ⟨_, step⟩) fun receipt t _ closes => ?_
  exact endsPure (closes _ (completionLeft receipt _))

theorem lockedEnds (fit : Fit first room.entry) (locked : Locked) : Ends first room.entry (locked.run hub env) room := by
  cases locked with
  | sent party message => exact handleSentEnds fit party message
  | received party message => exact handleReceivedEnds fit party message
  | tradeEphemeralKey clientId party message => exact handleTradeEphemeralKeyEnds clientId party message
  | receiptAck party message => exact handleReceiptAckEnds fit party message
  | abort reason => exact abortRoomEnds reason
  | confirmFee => exact tryConfirmFeeLockedEnds
  | disconnect => exact removeClientEnds

end Sections

/-! The invariant. -/

abbrev Precedes (x y : Standing) : Prop := x.mayPrecede y = true

-- What is on the queue of a party, or will be.
def Said (first : Party) (s : State) (party : Party) (x : Standing) : Prop :=
  x ∈ (s.shared.queues party).map (RoomFrame.standing first) ∨ ∃ worker, x ∈ s.left first party worker

structure Kept (first : Party) (s : State) : Prop where
  fit : Fit first s.shared.room.entry
  line : ∀ party, InLine Precedes ((s.shared.queues party).map (RoomFrame.standing first)) (s.left first party)
  reached : s.shared.room.entry.active = true → ∀ party x, Said first s party x →
    x ≠ .final ∧ ∀ n, x = .placed n → n ≤ s.session.reach

section Steps
variable {s t : State} {worker : Worker} {thread next : Thread} {party : Party} {x : Standing}

theorem placedTurn {session : MediatorSession} (left : x ∈ turnLeft first session) :
    ∃ turn, session.currentTurn = .ok turn ∧ x = (RoomFrame.told (.turn turn)).standing first := by
  unfold turnLeft at left
  split at left
  · rename_i turn due
    exact ⟨turn, due, List.mem_singleton.mp left⟩
  · simp at left

theorem pairwiseTurn (session : MediatorSession) : (turnLeft first session).Pairwise Precedes := by
  unfold turnLeft
  split
  · exact List.pairwise_singleton ..
  · exact .nil

theorem decidedReady (reads : thread.readsTurn = true) (left : x ∈ thread.decided first party) : x = .ready := by
  cases thread with
  | persisting => exact List.mem_singleton.mp left
  | announcing => exact List.mem_singleton.mp left
  | announced left' =>
      obtain ⟨_, _, rfl⟩ := List.mem_map.mp left
      rfl
  | _ => simp [Thread.readsTurn] at reads

theorem pairwiseEnd (end_ : ∀ x ∈ next.decided first party, x = .loose ∨ x = .final) :
    (next.decided first party).Pairwise Precedes := by
  refine List.Pairwise.imp_of_mem (R := fun _ _ => True) (fun {x y} memX memY _ => ?_) (List.pairwise_of_forall fun _ _ => trivial)
  rcases end_ x memX with rfl | rfl <;> rcases end_ y memY with rfl | rfl <;> rfl

theorem pairwisePlaced {n : Nat} (new : ∀ x ∈ next.decided first party, x = .loose ∨ x = .placed n) :
    (next.decided first party).Pairwise Precedes := by
  refine List.Pairwise.imp_of_mem (R := fun _ _ => True) (fun {x y} memX memY _ => ?_) (List.pairwise_of_forall fun _ _ => trivial)
  rcases new x memX with rfl | rfl <;> rcases new y memY with rfl | rfl <;> simp [Precedes, Standing.mayPrecede]

/- Something may be left out of what is left, and nothing else changes. -/
theorem Kept.thin (kept : Kept first s) (entry : t.shared.room.entry = s.shared.room.entry)
    (queues : t.shared.queues = s.shared.queues)
    (fewer : ∀ party worker, List.Sublist (t.left first party worker) (s.left first party worker)) : Kept first t where
  fit := entry ▸ kept.fit
  line party := by
    rw [queues]
    exact (kept.line party).thin (fewer party)
  reached active party x said := by
    rw [entry] at active
    rw [State.session, entry]
    refine kept.reached active party x ?_
    rcases said with queued | ⟨worker, left⟩
    · rw [queues] at queued
      exact .inl queued
    · exact .inr ⟨worker, (fewer party worker).subset left⟩

theorem Changed.fit {e e' : RoomEntry} (changed : Changed first e e' next) (fit : Fit first e) : Fit first e' := by
  cases changed with
  | still session active new =>
      exact ⟨by rw [session]; exact fit.valid, by rw [session]; exact fit.sender,
        fun running => by rw [session]; exact fit.track (active ▸ running)⟩
  | moved op step before after =>
      exact ⟨by rw [step.same.creator]; exact fit.valid, by rw [step.same.creator]; exact fit.sender,
        fun _ => step.onTrack (fit.track before)⟩
  | closed before after same =>
      exact ⟨by rw [same.creator]; exact fit.valid, by rw [same.creator]; exact fit.sender, by simp [after]⟩

/- Anything from here on may still come. -/
theorem Kept.precedes (kept : Kept first s) (active : s.shared.room.entry.active = true) (said : Said first s party x)
    {n : Nat} (beyond : s.session.reach ≤ n) : Precedes x (.placed n) := by
  obtain ⟨notFinal, bound⟩ := kept.reached active party x said
  cases x with
  | placed m => exact decide_eq_true ((bound m rfl).trans beyond)
  | final => contradiction
  | ready => rfl
  | loose => rfl

section Change
variable {e' : RoomEntry}

theorem Kept.newAhead (kept : Kept first s) (changed : Changed first s.shared.room.entry e' next)
    (queued : x ∈ (s.shared.queues party).map (RoomFrame.standing first)) {y : Standing}
    (left : y ∈ next.decided first party) : Precedes x y := by
  cases changed with
  | still session active new =>
      rw [new party y left]
      cases x <;> rfl
  | closed before after same turns new => rcases new party y left with rfl | rfl <;> cases x <;> rfl
  | moved op step before after unfinished open_ new =>
      rcases new party y left with rfl | ⟨rfl, beyond⟩
      · cases x <;> rfl
      · exact kept.precedes before (.inl queued) beyond.le

/- The turn that a join still has to read stays ahead of what is on the queues. -/
theorem Kept.turnAhead (kept : Kept first s) (changed : Changed first s.shared.room.entry e' next)
    (queued : x ∈ (s.shared.queues party).map (RoomFrame.standing first)) {u : Worker}
    (reads : (s.threads u).readsTurn = true) {y : Standing} (left : y ∈ turnLeft first e'.session) : Precedes x y := by
  have later (active : s.shared.room.entry.active = true) {op : Operation} (step : Step s.session op e'.session) :
      Precedes x y := by
    obtain ⟨turn, due, rfl⟩ := placedTurn left
    obtain ⟨n, place, beyond, _⟩ := step.turnsOn kept.fit.valid (kept.fit.track active) due
    have place : (RoomFrame.told (.turn turn)).standing first = .placed n := by
      rw [← kept.fit.sender]
      exact place
    rw [place]
    exact kept.precedes active (.inl queued) beyond
  cases changed with
  | still session active new =>
      refine (kept.line party).ahead u x queued y (List.mem_append_right _ ?_)
      rw [if_pos reads]
      rwa [session] at left
  | moved op step before => exact later before step
  | closed before after same turns =>
      obtain ⟨turn, due, _⟩ := placedTurn left
      obtain ⟨op, step⟩ := turns turn due
      exact later before step

theorem pairwiseChanged {e : RoomEntry} (changed : Changed first e e' next) :
    (next.decided first party).Pairwise Precedes := by
  cases changed with
  | still session active new => exact pairwiseEnd fun x left => .inl (new party x left)
  | closed before after same turns new => exact pairwiseEnd (new party)
  | moved op step before after unfinished open_ new =>
      exact pairwisePlaced fun x left => (new party x left).imp id And.left

theorem pairwiseLeft {session session' : MediatorSession} (own : (thread.left first session party).Pairwise Precedes) :
    (thread.left first session' party).Pairwise Precedes := by
  simp only [Thread.left, List.pairwise_append] at own ⊢
  refine ⟨own.1, ?_, fun x before y turn => ?_⟩
  · split
    · exact pairwiseTurn _
    · exact .nil
  · split at turn
    · rename_i reads
      rw [decidedReady reads before]
      obtain ⟨turn, _, rfl⟩ := placedTurn turn
      rfl
    · simp at turn

end Change

/- What a thread that had nothing left decided is in order with all that was said. -/
theorem Kept.changed (kept : Kept first s) (changed : Changed first s.shared.room.entry t.shared.room.entry next)
    (decided : next.readsTurn = false) (queues : t.shared.queues = s.shared.queues)
    (others : ∀ u, u ≠ worker → t.threads u = s.threads u) (here : t.threads worker = next) : Kept first t := by
  have leftHere (party : Party) : t.left first party worker = next.decided first party := by
    simp [State.left, Thread.left, here, decided]
  refine ⟨changed.fit kept.fit, fun party => ⟨?_, fun u => ?_, fun u x queued y left => ?_⟩,
    fun active party x said => ?_⟩
  · rw [queues]
    exact (kept.line party).queued
  · by_cases mine : u = worker
    · rw [mine, leftHere]
      exact pairwiseChanged changed
    · rw [State.left, others u mine]
      exact pairwiseLeft ((kept.line party).own u)
  · rw [queues] at queued
    by_cases mine : u = worker
    · rw [mine, leftHere] at left
      exact kept.newAhead changed queued left
    · rw [State.left, others u mine, Thread.left, List.mem_append] at left
      rcases left with before | turn
      · exact (kept.line party).ahead u x queued y (List.mem_append_left _ before)
      · split at turn
        · rename_i reads
          exact kept.turnAhead changed queued reads turn
        · simp at turn
  · cases changed with
    | still session same new =>
        rw [State.session, session]
        rw [same] at active
        rcases said with queued | ⟨u, left⟩
        · exact kept.reached active party x (.inl (queues ▸ queued))
        · by_cases mine : u = worker
          · rw [mine, leftHere] at left
            rw [new party x left]
            simp
          · refine kept.reached active party x (.inr ⟨u, ?_⟩)
            simpa only [State.left, State.session, others u mine, session] using left
    | closed before after => simp [after] at active
    | moved op step before after unfinished open_ new =>
        have further := (step.reaches (kept.fit.track before) unfinished open_).1
        have old (said : Said first s party x) : x ≠ .final ∧ ∀ n, x = .placed n → n ≤ t.session.reach := by
          obtain ⟨notFinal, bound⟩ := kept.reached before party x said
          exact ⟨notFinal, fun n here => (bound n here).trans further⟩
        rcases said with queued | ⟨u, left⟩
        · exact old (.inl (queues ▸ queued))
        by_cases mine : u = worker
        · rw [mine, leftHere] at left
          rcases new party x left with rfl | ⟨rfl, _⟩
          · simp
          · refine ⟨by simp, fun n here => ?_⟩
            cases here
            exact le_rfl
        · rw [State.left, others u mine, Thread.left, List.mem_append] at left
          rcases left with before' | turn
          · exact old (.inr ⟨u, List.mem_append_left _ before'⟩)
          · split at turn
            · obtain ⟨turn, due, rfl⟩ := placedTurn turn
              obtain ⟨n, place, _, within⟩ := step.turnsOn kept.fit.valid (kept.fit.track before) due
              rw [kept.fit.sender] at place
              rw [place]
              refine ⟨by simp, fun m here => ?_⟩
              cases here
              exact within
            · simp at turn

/- A thread that changes nothing but itself, and puts nothing new in its place. -/
theorem Kept.goesOn (kept : Kept first s) (entry : t.shared.room.entry = s.shared.room.entry)
    (queues : t.shared.queues = s.shared.queues) (others : ∀ u, u ≠ worker → t.threads u = s.threads u)
    (fewer : ∀ party, List.Sublist ((t.threads worker).left first s.session party) (s.left first party worker)) :
    Kept first t := by
  refine kept.thin entry queues fun party u => ?_
  by_cases mine : u = worker
  · rw [mine, State.left, State.session, entry]
    exact fewer party
  · rw [State.left, State.session, others u mine, entry]
    exact List.Sublist.refl _

theorem Kept.puts (kept : Kept first s) (party : Party) (frame : RoomFrame)
    (inTurn : s.shared.alive party = true → ¬Overtakes Precedes (s.left first party) worker (frame.standing first))
    (entry : t.shared.room.entry = s.shared.room.entry)
    (queues : t.shared.queues = if s.shared.alive party then
      Function.update s.shared.queues party (s.shared.queues party ++ [frame]) else s.shared.queues)
    (others : ∀ u, u ≠ worker → t.threads u = s.threads u)
    (here : s.left first party worker = frame.standing first :: t.left first party worker)
    (elsewhere : ∀ q, q ≠ party → t.left first q worker = s.left first q worker) : Kept first t := by
  have othersLeft (q : Party) (u : Worker) (differ : u ≠ worker) : t.left first q u = s.left first q u := by
    rw [State.left, State.left, State.session, State.session, others u differ, entry]
  have fewer (q : Party) (u : Worker) : List.Sublist (t.left first q u) (s.left first q u) := by
    by_cases mine : u = worker
    · subst mine
      by_cases same : q = party
      · rw [same, here]
        exact List.sublist_cons_self ..
      · rw [elsewhere q same]
    · rw [othersLeft q u mine]
  cases alive : s.shared.alive party with
  | false =>
      refine kept.thin entry ?_ fewer
      simpa [alive] using queues
  | true =>
      rw [alive, if_pos rfl] at queues
      refine ⟨entry ▸ kept.fit, fun q => ?_, fun active q x said => ?_⟩
      · by_cases same : q = party
        · subst same
          rw [queues, Function.update_self, List.map_append]
          exact (kept.line q).put here rfl (othersLeft q) (inTurn alive)
        · rw [queues, Function.update_of_ne same]
          exact (kept.line q).thin (fewer q)
      · rw [entry] at active
        rw [State.session, entry]
        refine kept.reached active q x ?_
        rcases said with queued | ⟨u, left⟩
        · rw [queues] at queued
          by_cases same : q = party
          · subst same
            rw [Function.update_self, List.map_append, List.mem_append] at queued
            rcases queued with before | now
            · exact .inl before
            · obtain rfl := List.mem_singleton.mp now
              exact .inr ⟨worker, here ▸ List.mem_cons_self ..⟩
          · rw [Function.update_of_ne same] at queued
            exact .inl queued
        · exact .inr ⟨u, (fewer q u).subset left⟩

/-! One step of a thread. -/

theorem ensuresOnRoom {α : Type} {x : HubM α} {shared : Shared} {returns : α → Shared → Prop}
    {throws : HubError → Shared → Prop} :
    Ensures (onRoom x) shared returns throws ↔
      Ensures x shared.room (fun a room => returns a { shared with room }) (fun e room => throws e { shared with room }) := by
  unfold Ensures onRoom
  cases x shared.room <;> rfl

-- The state after the worker's step, whether its handler goes on or throws.
def Goes (hub : HubConfig) (env : HubEnv) (s : State) (worker : Worker) (P : State → Prop) : Prop :=
  Ensures ((s.threads worker).run hub env) s.shared
    (fun next shared => P ⟨shared, Function.update s.threads worker next⟩)
    (fun _ shared => P ⟨shared, Function.update s.threads worker idle⟩)

theorem Goes.fired {P : State → Prop} (goes : Goes hub env s worker P) (fired : fire hub s (.acts worker env) = some t) :
    P t := by
  unfold Goes Ensures at goes
  unfold fire at fired
  cases ran : (s.threads worker).run hub env s.shared with
  | ok next shared =>
      rw [ran] at goes
      simp only [ran, Option.some.injEq] at fired
      exact fired ▸ goes
  | error e shared =>
      rw [ran] at goes
      simp only [ran, Option.some.injEq] at fired
      exact fired ▸ goes

section Acts
variable {shared : Shared}

theorem otherThreads (next : Thread) : ∀ u, u ≠ worker → Function.update s.threads worker next u = s.threads u :=
  fun _ differ => Function.update_of_ne differ ..

theorem Kept.steps (kept : Kept first s) (entry : shared.room.entry = s.shared.room.entry)
    (queues : shared.queues = s.shared.queues)
    (fewer : ∀ party, List.Sublist (next.left first s.session party) (s.left first party worker)) :
    Kept first ⟨shared, Function.update s.threads worker next⟩ :=
  kept.goesOn entry queues (otherThreads next) fun party => by
    dsimp only
    rw [Function.update_self]
    exact fewer party

theorem Kept.throws (kept : Kept first s) (entry : shared.room.entry = s.shared.room.entry)
    (queues : shared.queues = s.shared.queues) : Kept first ⟨shared, Function.update s.threads worker idle⟩ :=
  kept.steps entry queues fun party => by simp [Thread.left, Thread.readsTurn]

theorem Kept.decides (kept : Kept first s) (entry : shared.room.entry = s.shared.room.entry)
    (queues : shared.queues = s.shared.queues) (decided : next.readsTurn = false)
    (loose : ∀ party, ∀ x ∈ next.decided first party, x = .loose) :
    Kept first ⟨shared, Function.update s.threads worker next⟩ :=
  kept.changed (.still (by rw [entry]) (by rw [entry]) loose) decided queues (otherThreads next)
    (Function.update_self ..)

theorem ensuresEnqueue {p : Party} {frame : RoomFrame} {returns : Unit → Shared → Prop}
    {throws : HubError → Shared → Prop} :
    Ensures (enqueue p frame) shared returns throws ↔ returns () (if shared.alive p then
      { shared with queues := Function.update shared.queues p (shared.queues p ++ [frame]) } else shared) := Iff.rfl

open Hub in
/- The first section of a handler only finds the room. -/
theorem startEnsures (first : Party) (call : Call) : Ensures (start call) shared
    (fun next t => t.room.entry = shared.room.entry ∧ t.queues = shared.queues ∧ next.readsTurn = false ∧
      ∀ party, next.decided first party = [])
    (fun _ t => t.room.entry = shared.room.entry ∧ t.queues = shared.queues) := by
  have found (clientId : ClientId) (roomId : RoomId) {k : Party → SharedM Thread}
      (rest : ∀ party, ∃ next : Thread, k party = pure next ∧ next.readsTurn = false ∧
        ∀ party, next.decided first party = []) :
      Ensures (onRoom (findRoomFor clientId roomId) >>= k) shared
        (fun next t => t.room.entry = shared.room.entry ∧ t.queues = shared.queues ∧ next.readsTurn = false ∧
          ∀ party, next.decided first party = [])
        (fun _ t => t.room.entry = shared.room.entry ∧ t.queues = shared.queues) := by
    simp only [ensuresBind, ensuresOnRoom, findRoomFor, ensuresGet, ensuresLift]
    refine ⟨fun _ _ => ⟨fun party _ => ?_, fun _ _ => by simp⟩, fun _ _ => by simp⟩
    obtain ⟨next, goesOn, decided, nothing⟩ := rest party
    rw [goesOn]
    exact ⟨rfl, rfl, decided, nothing⟩
  cases call with
  | sent clientId message => exact found _ _ fun party => ⟨_, rfl, rfl, fun _ => rfl⟩
  | received clientId message => exact found _ _ fun party => ⟨_, rfl, rfl, fun _ => rfl⟩
  | receiptAck clientId message => exact found _ _ fun party => ⟨_, rfl, rfl, fun _ => rfl⟩
  | abort clientId message => exact found _ _ fun party => ⟨_, rfl, rfl, fun _ => rfl⟩
  | tradeEphemeralKey clientId message =>
      rw [start, ensuresBind, ensuresLift]
      refine ⟨fun _ _ => ?_, fun _ _ => ⟨rfl, rfl⟩⟩
      rw [ensuresBind, ensuresLift]
      exact ⟨fun _ _ => found _ _ fun party => ⟨_, rfl, rfl, fun _ => rfl⟩, fun _ _ => ⟨rfl, rfl⟩⟩
  | confirmFee roomId =>
      rw [start, ensuresBind, ensuresGet, ensuresPure]
      refine ⟨rfl, rfl, ?_, fun _ => ?_⟩ <;> split <;> rfl
  | disconnect clientId =>
      rw [start, ensuresBind, ensuresModify, ensuresBind, ensuresGet, ensuresIte]
      refine ⟨fun _ => ?_, fun _ => ⟨rfl, rfl, rfl, fun _ => rfl⟩⟩
      rw [ensuresBind, ensuresOnRoom]
      exact ⟨rfl, rfl, rfl, fun _ => rfl⟩

open Hub in
/- The part of an errand that touches neither the session nor a queue. -/
theorem Kept.works (kept : Kept first s) {x : HubM Unit} (quiet : Emits (fun _ => True) x) {errand : Errand}
    {rest : List Errand} (here : s.threads worker = .telling (errand :: rest))
    (run : errand.run hub env = (onRoom x >>= fun _ => pure [])) : Goes hub env s worker (Kept first) := by
  rw [Goes, here, Thread.run, run]
  simp only [ensuresBind, ensuresPure, ensuresOnRoom]
  refine (quiet s.shared.room).weaken (fun _ t _ grows => ?_) (fun _ t _ grows => kept.throws grows.entry rfl)
  refine kept.steps grows.entry rfl fun p => ?_
  rw [State.left, here]
  simp only [Thread.left, Thread.readsTurn, List.nil_append, leftTelling]
  exact (List.sublist_append_right ..).append (List.Sublist.refl _)

theorem leftOf (telling : List Errand) (session : MediatorSession) (p : Party) :
    (Thread.telling telling).left first session p = (Thread.telling telling).decided first p := by
  simp [Thread.left, Thread.readsTurn]

/- An errand that puts its frame on one queue. -/
theorem Kept.putsOne (kept : Kept first s) {errand : Errand} {rest : List Errand} {p : Party} {frame : RoomFrame}
    (here : s.threads worker = .telling (errand :: rest)) (puts : (s.threads worker).puts = some (p, frame))
    (left : ∀ q, errand.left first q = if p = q then [frame.standing first] else [])
    (inTurn : InTurn first s (.acts worker env)) :
    Kept first ⟨if s.shared.alive p then
      { s.shared with queues := Function.update s.shared.queues p (s.shared.queues p ++ [frame]) } else s.shared,
      Function.update s.threads worker (.telling rest)⟩ := by
  refine kept.puts p frame (inTurn p frame puts) ?_ ?_ (otherThreads _) ?_ fun q differ => ?_
  · dsimp only
    split <;> rfl
  · dsimp only
    split <;> rfl
  · simp only [State.left, here, Function.update_self, leftOf, leftTelling, left, if_pos, List.singleton_append]
  · simp only [State.left, here, Function.update_self, leftOf, leftTelling, left, if_neg differ.symm, List.nil_append]

open Hub in
theorem Kept.tells (kept : Kept first s) {errand : Errand} {rest : List Errand}
    (here : s.threads worker = .telling (errand :: rest)) (inTurn : InTurn first s (.acts worker env)) :
    Goes hub env s worker (Kept first) := by
  cases errand with
  | recordTrade => exact kept.works (.bind emitsGet fun _ => emitsEmit trivial) here rfl
  | unpersist => exact kept.works (emitsRemove trivial) here rfl
  | erase => exact kept.works (emitsErase trivial) here rfl
  | lookUp frame =>
      rw [Goes, here, Thread.run, Errand.run]
      simp only [ensuresBind, ensuresLift, ensuresGet, ensuresPure]
      refine ⟨fun _ _ => kept.steps rfl rfl fun p => ?_, fun _ _ => kept.throws rfl rfl⟩
      rw [State.left, here, leftOf, leftOf, leftAppend, leftTelling]
      refine List.Sublist.append ?_ (List.Sublist.refl _)
      cases s.shared.registered .a <;> cases s.shared.registered .b <;> cases p <;>
        simp [Thread.decided, Errand.left]
  | tell p frame =>
      rw [Goes, here, Thread.run, Errand.run]
      simp only [ensuresBind, ensuresLift, ensuresEnqueue, ensuresPure]
      refine ⟨fun _ _ => ?_, fun _ _ => kept.throws rfl rfl⟩
      exact kept.putsOne here (by simp [here, Thread.puts]) (fun q => rfl) inTurn
  | put p frame =>
      rw [Goes, here, Thread.run, Errand.run]
      simp only [ensuresBind, ensuresEnqueue, ensuresPure]
      exact kept.putsOne here (by simp [here, Thread.puts]) (fun q => rfl) inTurn

/- A join tells the parties of the room one after the other, and then reads the turn. -/
theorem Kept.announces (kept : Kept first s) {waiting : List (Party × TradeReadyMessage)}
    (here : s.threads worker = .announced waiting) (inTurn : InTurn first s (.acts worker env)) :
    Goes hub env s worker (Kept first) := by
  cases waiting with
  | nil =>
      rw [Goes, here, Thread.run]
      simp only [Hub.currentTurn, ensuresBind, ensuresOnRoom, ensuresGet, ensuresLift, ensuresPure, rejectedOk]
      refine ⟨fun turn due => kept.steps rfl rfl fun p => ?_, fun _ _ => kept.throws rfl rfl⟩
      have due : s.session.currentTurn = .ok turn := due
      simp [State.left, here, Thread.left, Thread.readsTurn, Thread.decided, Errand.left, turnLeft, due]
  | cons now later =>
      obtain ⟨p, ready⟩ := now
      rw [Goes, here, Thread.run]
      simp only [ensuresBind, ensuresLift, ensuresEnqueue, ensuresPure]
      refine ⟨fun _ _ => ?_, fun _ _ => kept.throws rfl rfl⟩
      refine kept.puts p (.tradeReady ready) (inTurn p _ (by simp [here, Thread.puts])) ?_ ?_
        (otherThreads _) ?_ fun q differ => ?_
      · dsimp only
        split <;> rfl
      · dsimp only
        split <;> rfl
      · have same : (State.session ⟨if s.shared.alive p then { s.shared with
            queues := Function.update s.shared.queues p (s.shared.queues p ++ [.tradeReady ready]) } else s.shared,
            Function.update s.threads worker (.announced later)⟩) = s.session := by
          simp only [State.session]
          split <;> rfl
        simp [State.left, same, here, Thread.left, Thread.readsTurn, Thread.decided, RoomFrame.standing]
      · have same : (State.session ⟨if s.shared.alive p then { s.shared with
            queues := Function.update s.shared.queues p (s.shared.queues p ++ [.tradeReady ready]) } else s.shared,
            Function.update s.threads worker (.announced later)⟩) = s.session := by
          simp only [State.session]
          split <;> rfl
        simp [State.left, same, here, Thread.left, Thread.readsTurn, Thread.decided, differ.symm]

open Hub in
theorem Kept.acts (kept : Kept first s) (inTurn : InTurn first s (.acts worker env)) :
    Goes hub env s worker (Kept first) := by
  cases here : s.threads worker with
  | starting call =>
      rw [Goes, here, Thread.run]
      refine (startEnsures first call).weaken ?_ ?_
      · intro next t _ found
        obtain ⟨entry, queues, decided, nothing⟩ := found
        exact kept.decides entry queues decided (by simp [nothing])
      · intro _ t _ left
        exact kept.throws left.1 left.2
  | relaying clientId message =>
      rw [Goes, here, Thread.run]
      simp only [ensuresBind, ensuresOnRoom, findRoomFor, ensuresGet, ensuresLift, ensuresPure]
      refine ⟨fun _ _ => ⟨fun party _ => kept.decides rfl rfl rfl fun p => ?_, fun _ _ => kept.throws rfl rfl⟩,
        fun _ _ => kept.throws rfl rfl⟩
      intro x left
      simp only [Thread.decided, RoomFrame.standing] at left
      split at left <;> simp at left
      exact left
  | handingOn peer message =>
      rw [Goes, here, Thread.run]
      simp only [ensuresBind, ensuresLift, ensuresGet, ensuresPure]
      refine ⟨fun _ _ => kept.steps rfl rfl fun p => ?_, fun _ _ => kept.throws rfl rfl⟩
      rw [State.left, here]
      simp [Thread.left, Thread.readsTurn, Thread.decided, Errand.left]
  | locking locked =>
      rw [Goes, here, Thread.run]
      simp only [ensuresBind, ensuresGet, ensuresOnRoom]
      refine (lockedEnds kept.fit locked).weaken (fun next t _ ends => ?_) (fun _ t _ changed => ?_)
      · exact kept.changed ends.1 ends.2 rfl (otherThreads next) (Function.update_self ..)
      · exact kept.changed changed rfl rfl (otherThreads idle) (Function.update_self ..)
  | telling errands =>
      cases errands with
      | nil =>
          rw [Goes, here, Thread.run, ensuresPure]
          exact kept.throws rfl rfl
      | cons errand rest => exact kept.tells here inTurn
  | persisting =>
      rw [Goes, here, Thread.run]
      simp only [ensuresBind, ensuresOnRoom, ensuresPure]
      refine (emitsUpsert (P := fun _ => True) (fun _ => trivial) s.shared.room).weaken ?_ ?_
      · intro _ t _ grows
        refine kept.steps grows.entry rfl fun p => ?_
        rw [State.left, here]
        exact List.Sublist.refl _
      · intro _ t _ grows
        exact kept.throws grows.entry rfl
  | announcing =>
      rw [Goes, here, Thread.run]
      simp only [ensuresBind, ensuresGet, ensuresLift, ensuresPure]
      refine ⟨fun readyA _ => ⟨fun readyB _ => kept.steps rfl rfl fun p => ?_, fun _ _ => kept.throws rfl rfl⟩,
        fun _ _ => kept.throws rfl rfl⟩
      rw [State.left, here]
      cases p <;> exact List.Sublist.refl _
  | announced waiting => exact kept.announces here inTurn

end Acts

/-! Runs. -/

theorem Kept.fires (kept : Kept first s) {event : Event} (inTurn : InTurn first s event)
    (fired : fire hub s event = some t) : Kept first t := by
  cases event with
  | begins worker request =>
      simp only [fire] at fired
      split at fired
      · rename_i ready
        cases fired
        refine kept.steps rfl rfl fun p => ?_
        cases request <;> simp [Request.thread, Thread.left, Thread.decided, Thread.readsTurn]
      · contradiction
  | acts worker env => exact (kept.acts inTurn).fired fired
  | hangsUp p =>
      cases fired
      exact kept.thin rfl rfl fun _ _ => List.Sublist.refl _

theorem Kept.runs (kept : Kept first s) (run : Run hub (InTurn first) s t) : Kept first t := by
  induction run with
  | refl => exact kept
  | tail _ last ih =>
      obtain ⟨event, inTurn, fired⟩ := last
      exact ih.fires inTurn fired

theorem keptJoined {session : MediatorSession} {room : RoomEntry} (opened : Joined session room) :
    Kept room.session.creator.terms.firstSender (joined room) := by
  obtain ⟨creator, roomId, fee, confirm, feePosition, constructed⟩ := joinedConstructed opened
  obtain ⟨whole, message, step⟩ := joinedEntry opened
  have valid : ValidTerms room.session.creator.terms := by
    rw [step.same.creator]
    exact MediatorSession.constructedValid constructed
  have nothing (party : Party) (worker : Worker) (x : Standing)
      (left : x ∈ (joined room).left room.session.creator.terms.firstSender party worker) :
      x = .ready ∨ x ∈ turnLeft room.session.creator.terms.firstSender room.session := by
    change x ∈ Thread.left _ room.session party (if worker = .client room.partyB then .persisting else idle) at left
    split at left
    · simpa [Thread.left, Thread.decided, Thread.readsTurn] using left
    · simp [Thread.left, Thread.decided, Thread.readsTurn] at left
  have on := step.onTrack (MediatorSession.constructedOnTrack constructed)
  refine ⟨⟨valid, rfl, fun _ => on⟩, fun party => inLineEmpty fun worker => ?_, fun _ party x said => ?_⟩
  · simp only [State.left, joined]
    split
    · rw [Thread.left]
      simp only [Thread.decided, Thread.readsTurn, if_true, List.singleton_append, List.pairwise_cons]
      refine ⟨fun x turn => ?_, pairwiseTurn _⟩
      obtain ⟨turn, _, rfl⟩ := placedTurn turn
      rfl
    · simp [Thread.left, Thread.decided, Thread.readsTurn]
  · rcases said with queued | ⟨worker, left⟩
    · simp [joined] at queued
    · rcases nothing party worker x left with rfl | turn
      · simp
      · obtain ⟨turn, due, rfl⟩ := placedTurn turn
        obtain ⟨n, place, stands⟩ := MediatorSession.turnPlace valid on due
        rw [place]
        refine ⟨by simp, fun m here => ?_⟩
        cases here
        show n ≤ room.session.reach
        omega

end Steps

/-! A client that is gone: it stays gone, and its queue stays as it is. -/

structure Frozen (s t : Shared) : Prop where
  stays : ∀ party, s.alive party = false → t.alive party = false
  queue : ∀ party, s.alive party = false → t.queues party = s.queues party

def Freezes {α : Type} (x : SharedM α) : Prop := ∀ s, Ensures x s (fun _ t => Frozen s t) (fun _ t => Frozen s t)

section Freezing
variable {α β : Type} {s t u : Shared}

theorem Frozen.refl : Frozen s s := ⟨fun _ => id, fun _ _ => rfl⟩

theorem Frozen.trans (before : Frozen s t) (after : Frozen t u) : Frozen s u where
  stays party gone := after.stays party (before.stays party gone)
  queue party gone := (after.queue party (before.stays party gone)).trans (before.queue party gone)

theorem Freezes.bind {x : SharedM α} {k : α → SharedM β} (first : Freezes x) (second : ∀ a, Freezes (k a)) :
    Freezes (x >>= k) := by
  intro s
  rw [ensuresBind]
  refine (first s).weaken (fun a t _ frozen => ?_) (fun _ _ _ frozen => frozen)
  exact (second a t).weaken (fun _ _ _ more => frozen.trans more) (fun _ _ _ more => frozen.trans more)

theorem freezesPure (a : α) : Freezes (pure a : SharedM α) := fun _ => .refl
theorem freezesGet : Freezes (get : SharedM Shared) := fun _ => .refl

theorem freezesLift (x : Except HubError α) : Freezes (liftM x : SharedM α) := by
  intro s
  rw [ensuresLift]
  exact ⟨fun _ _ => .refl, fun _ _ => .refl⟩

theorem freezesIf {c : Prop} [Decidable c] {x y : SharedM α} (yes : Freezes x) (no : Freezes y) :
    Freezes (if c then x else y) := by
  split
  · exact yes
  · exact no

theorem freezesRoom (x : HubM α) : Freezes (onRoom x) := by
  intro s
  rw [ensuresOnRoom]
  unfold Ensures
  cases x s.room <;> exact ⟨fun _ => id, fun _ _ => rfl⟩

theorem freezesEnqueue (party : Party) (frame : RoomFrame) : Freezes (enqueue party frame) := by
  intro s
  rw [ensuresEnqueue]
  split
  · rename_i alive
    refine ⟨fun _ => id, fun other gone => Function.update_of_ne ?_ ..⟩
    rintro rfl
    simp [alive] at gone
  · exact .refl

theorem freezesErrand (hub : HubConfig) (env : HubEnv) (errand : Errand) : Freezes (errand.run hub env) := by
  cases errand with
  | recordTrade => exact .bind (freezesRoom _) fun _ => freezesPure _
  | unpersist => exact .bind (freezesRoom _) fun _ => freezesPure _
  | erase => exact .bind (freezesRoom _) fun _ => freezesPure _
  | lookUp frame => exact .bind (freezesLift _) fun _ => .bind freezesGet fun _ => freezesPure _
  | tell party frame => exact .bind (freezesLift _) fun _ => .bind (freezesEnqueue _ _) fun _ => freezesPure _
  | put party frame => exact .bind (freezesEnqueue _ _) fun _ => freezesPure _

theorem freezesStart (call : Hub.Call) : Freezes (start call) := by
  cases call with
  | tradeEphemeralKey clientId message =>
      exact .bind (freezesLift _) fun _ => .bind (freezesLift _) fun _ => .bind (freezesRoom _) fun _ => freezesPure _
  | confirmFee roomId => exact .bind freezesGet fun _ => freezesPure _
  | disconnect clientId =>
      refine .bind (fun s => ?_) fun _ => .bind freezesGet fun _ => freezesIf
        (.bind (freezesRoom _) fun _ => freezesPure _) (freezesPure _)
      exact ⟨fun party gone => by simp [gone], fun _ _ => rfl⟩
  | _ => exact .bind (freezesRoom _) fun _ => freezesPure _

theorem freezesThread (hub : HubConfig) (env : HubEnv) (thread : Thread) : Freezes (thread.run hub env) := by
  cases thread with
  | starting call => exact freezesStart call
  | relaying clientId message => exact .bind (freezesRoom _) fun _ => freezesPure _
  | handingOn party message => exact .bind freezesGet fun _ => .bind (freezesLift _) fun _ => freezesPure _
  | locking locked => exact .bind freezesGet fun _ => freezesRoom _
  | telling errands =>
      cases errands with
      | nil => exact freezesPure _
      | cons errand rest => exact .bind (freezesErrand hub env errand) fun _ => freezesPure _
  | persisting => exact .bind (freezesRoom _) fun _ => freezesPure _
  | announcing =>
      exact .bind freezesGet fun _ => .bind (freezesLift _) fun _ => .bind (freezesLift _) fun _ => freezesPure _
  | announced waiting =>
      cases waiting with
      | nil => exact .bind (freezesRoom _) fun _ => freezesPure _
      | cons now later =>
          exact .bind (freezesLift _) fun _ => .bind (freezesEnqueue _ _) fun _ => freezesPure _

theorem firedFrozen {hub : HubConfig} {s t : State} {event : Event} (fired : fire hub s event = some t) :
    Frozen s.shared t.shared := by
  cases event with
  | begins worker request =>
      simp only [fire] at fired
      split at fired
      · cases fired
        exact .refl
      · contradiction
  | acts worker env => exact Goes.fired (P := fun t => Frozen s.shared t.shared) (freezesThread hub env _ _) fired
  | hangsUp party =>
      cases fired
      refine ⟨fun other gone => ?_, fun _ _ => rfl⟩
      by_cases same : other = party
      · rw [same]
        exact Function.update_self ..
      · exact (Function.update_of_ne same ..).trans gone

theorem runFrozen {hub : HubConfig} {P : State → Event → Prop} {s t : State} (run : Run hub P s t) :
    Frozen s.shared t.shared := by
  induction run with
  | refl => exact .refl
  | tail _ last ih =>
      obtain ⟨_, _, fired⟩ := last
      exact ih.trans (firedFrozen fired)

end Freezing

/- However the threads take turns, a run in which nothing overtakes keeps both queues in order. -/
theorem runInOrder {hub : HubConfig} {s t : State} (opened : Opened s)
    (run : Run hub (InTurn s.session.creator.terms.firstSender) s t) (party : Party) :
    InOrder s.session.creator.terms.firstSender (t.shared.queues party) := by
  cases opened with
  | joined session room opened others =>
      have kept := (keptJoined opened).runs run
      exact List.pairwise_map.mp (kept.line party).queued
  | reloaded room restored =>
      rw [(runFrozen run).queue party rfl]
      exact List.Pairwise.nil

end Delivery
end TradeP2P
