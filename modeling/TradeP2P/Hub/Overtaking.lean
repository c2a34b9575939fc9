import TradeP2P.Client.Shown
import TradeP2P.Hub.Completion

/-! No handler waits for another one before it puts its frames. As long as none overtakes, each party is
told of the room in the order of the session's transitions, and its client shows it so. -/
namespace TradeP2P
namespace Delivery
open Wire (Bytes ascii)
open Checks

theorem deliveredInOrder (hub : HubConfig) (s t : State) (opened : Opened s)
    (run : Run hub (InTurn s.session.creator.terms.firstSender) s t) (party : Party) :
    InOrder s.session.creator.terms.firstSender (t.shared.queues party) ∧
      NeverRevives (t.shared.queues party) ∧ NeverForgets (t.shared.queues party) := by
  have ordered := runInOrder opened run party
  exact ⟨ordered, neverRevives ordered, neverForgets ordered⟩

/-! A schedule is a list of events. -/

def fires (hub : HubConfig) (s : State) : List Event → Option State
  | [] => some s
  | event :: later => (fire hub s event).bind fun t => fires hub t later

section Schedules
variable {hub : HubConfig} {P : State → Event → Prop} {s t : State} {events : List Event} {worker : Worker} {env : HubEnv}

theorem firesRun (fired : fires hub s events = some t) : Run hub (fun _ _ => True) s t := by
  induction events generalizing s with
  | nil =>
      cases fired
      exact .refl
  | cons event later ih =>
      obtain ⟨u, first, rest⟩ := Option.bind_eq_some_iff.mp fired
      exact .head ⟨event, trivial, first⟩ (ih rest)

/- A thread that is the only one with something left to put overtakes none. -/
theorem aloneRun {first : Party} (alone : ∀ u, u ≠ worker → s.threads u = idle) (n : Nat)
    (fired : fires hub s (List.replicate n (.acts worker env)) = some t) : Run hub (InTurn first) s t := by
  induction n generalizing s with
  | zero =>
      cases fired
      exact .refl
  | succ n ih =>
      obtain ⟨next, acted, rest⟩ := Option.bind_eq_some_iff.mp fired
      have inTurn : InTurn first s (.acts worker env) := fun party frame _ _ overtakes => by
        obtain ⟨u, other, x, left, _⟩ := overtakes
        simp [State.left, alone u other, Thread.left, Thread.readsTurn, Thread.decided] at left
      refine .head ⟨_, inTurn, acted⟩ (ih (fun u other => ?_) rest)
      have others (thread : Thread) : Function.update s.threads worker thread u = idle := by
        rw [Function.update_of_ne other, alone u other]
      simp only [fire] at acted
      split at acted <;> cases acted <;> exact others _

end Schedules

section Swap
open Hub MediatorSession

def swapPaidLast : RoomEntry where
  id := swapRoom
  partyA := swapClientA
  partyB := swapClientB
  session := (swap true .afterLastRound).joinedBy swapAddressB

theorem swapPaidLastJoined : Joined (swap true .afterLastRound) swapPaidLast :=
  ⟨⟨swapRoom, swapClientA, swapCreator.terms, swapCreator.receiveAddressA⟩, swapClientB, swapAddressB, swapFee, true,
    .afterLastRound, swapOpened true .afterLastRound, by rfl⟩

theorem swapPaidLastOpened : Opened (joined swapPaidLast) := .joined _ _ swapPaidLastJoined (by decide)

def joiner : Worker := .client swapClientB
def creator : Worker := .client swapClientA

-- The joining client's handler tells both of the room, reads the turn, and tells it to A.
def joining : List Event := List.replicate 7 (.acts joiner swapEnv)

def served (request : Request) (acts : Nat) : List Event :=
  .begins creator request :: List.replicate acts (.acts creator swapEnv)

def lateTurn : Event := .acts joiner swapEnv

def sentOvertakes : List Event := joining ++ served (.call (.sent swapClientA ⟨swapRoom, 0, .a⟩)) 3 ++ [lateTurn]

def abortOvertakes : List Event :=
  joining ++ served (.call (.abort swapClientA ⟨swapRoom, ascii "user"⟩)) 7 ++ [lateTurn]

def queueAfter (events : List Event) : Option (List RoomFrame) :=
  (fires swapHub (joined swapPaidLast) events).map fun t => t.shared.queues .b

def readyB : RoomFrame := .tradeReady
  { roomId := swapRoom, assignedParty := .b, peerId := swapClientA, terms := swapCreator.terms
    receiveAddressA := swapCreator.receiveAddressA, receiveAddressB := swapAddressB, fee := swapFee }

def firstTurn : TurnMessage :=
  { roomId := swapRoom, roundIndex := 0, sender := .a, asset := ascii "BTC", amount := 3, destination := swapAddressB
    isFee := false }

theorem swapQueues :
    queueAfter (joining ++ [lateTurn]) = some [readyB, .told (.turn firstTurn)] ∧
    queueAfter sentOvertakes = some [readyB, .told (.sent ⟨swapRoom, 0, .a⟩), .told (.turn firstTurn)] ∧
    queueAfter abortOvertakes = some [readyB, .told (.abort ⟨swapRoom, ascii "user"⟩), .told (.turn firstTurn)] := by
  decide +kernel

theorem queueReached {events : List Event} {queue : List RoomFrame} (left : queueAfter events = some queue) :
    ∃ t, fires swapHub (joined swapPaidLast) events = some t ∧ t.shared.queues .b = queue :=
  Option.map_eq_some_iff.mp left

theorem swapOvertaken :
    Opened (joined swapPaidLast) ∧
    (∃ t, Run swapHub (fun _ _ => True) (joined swapPaidLast) t ∧ ¬InOrder .a (t.shared.queues .b) ∧
      ¬NeverForgets (t.shared.queues .b)) ∧
    ∃ t, Run swapHub (fun _ _ => True) (joined swapPaidLast) t ∧ ¬InOrder .a (t.shared.queues .b) ∧
      ¬NeverRevives (t.shared.queues .b) := by
  obtain ⟨_, sent, abort⟩ := swapQueues
  refine ⟨swapPaidLastOpened, ?_, ?_⟩
  · obtain ⟨t, fired, queue⟩ := queueReached sent
    refine ⟨t, firesRun fired, ?_, fun never => ?_⟩
    · rw [queue]
      simp [InOrder, readyB, firstTurn, RoomFrame.standing, Standing.mayPrecede, legOf]
    · rw [queue] at never
      have remembered := never _ (List.prefix_refl _) _ firstTurn ⟨swapRoom, 0, .a⟩ rfl rfl rfl (by simp) ⟨rfl, rfl, rfl⟩
      cases remembered
  · obtain ⟨t, fired, queue⟩ := queueReached abort
    refine ⟨t, firesRun fired, ?_, fun never => ?_⟩
    · rw [queue]
      simp [InOrder, readyB, firstTurn, RoomFrame.standing, Standing.mayPrecede, legOf]
    · rw [queue] at never
      have ends : RoomFrame.EndsRoom (.told (.abort ⟨swapRoom, ascii "user"⟩)) := trivial
      obtain ⟨view, shows, ended⟩ := never _ (List.prefix_refl _) ⟨_, by simp, ends⟩
      cases shows
      exact ended rfl

/- A join that is left alone delivers in order. -/
theorem swapDelivered : ∃ t, Run swapHub (InTurn .a) (joined swapPaidLast) t ∧
    t.shared.queues .b = [readyB, .told (.turn firstTurn)] ∧ InOrder .a (t.shared.queues .b) ∧
      NeverRevives (t.shared.queues .b) ∧ NeverForgets (t.shared.queues .b) := by
  obtain ⟨t, fired, queue⟩ := queueReached swapQueues.1
  have alone : ∀ u, u ≠ joiner → (joined swapPaidLast).threads u = idle := fun u other => if_neg other
  have run : Run swapHub (InTurn .a) (joined swapPaidLast) t := aloneRun alone 8 fired
  exact ⟨t, run, queue, deliveredInOrder swapHub (joined swapPaidLast) t swapPaidLastOpened run .b⟩

end Swap
end Delivery
end TradeP2P
