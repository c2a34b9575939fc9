import TradeP2P.Hub.Locks
import Mathlib.Data.Fintype.Basic

/-! Deadlocks of the hub. A report holds its room and goes for the hub; a disconnect holds the hub and
goes for the rooms of its client. Where no two threads are caught between the two, none waits for good. -/
namespace TradeP2P.Hub.Locks
open Locking

variable {Id : Type}

-- A room ranks below the hub while a thread goes from it to the hub, and above it otherwise.
open Classical in
noncomputable def rank (s : State Id HubLock) : HubLock → Nat
  | .hub => 1
  | .room id => if ∃ t, Heads s t (.room id) .hub then 0 else 2
  | _ => 3

section States
variable {s : State Id HubLock}

theorem rankBound (l : HubLock) : rank s l ≤ 3 := by
  cases l <;> simp only [rank] <;> (try split) <;> omega

theorem rankRoom (id : RoomId) : rank s (.room id) < 3 := by
  simp only [rank]
  split <;> omega

theorem ranked (nested : Nested nests s) (apart : ∀ t u l m, t ≠ u → ¬Crossed s t u l m) (t : Id) (l : HubLock)
    (waits : Waits s t l) (m : HubLock) (holds : m ∈ (s t).held) : rank s m < rank s l := by
  have goes := waitsHeads waits holds
  obtain ⟨held, kinds⟩ := nestsUnder (nested.waits waits) holds
  rcases kinds with ⟨rfl, ⟨id, rfl⟩ | rfl | rfl⟩ | ⟨⟨id, rfl⟩, rfl | rfl⟩
  · have free : ¬∃ u, Heads s u (.room id) .hub := by
      intro other
      obtain ⟨u, back⟩ := other
      have differ : t ≠ u := by
        rintro rfl
        have own := back.holds
        simp [held] at own
      exact apart t u _ _ differ ⟨goes, back⟩
    simp only [rank, if_neg free]
    omega
  · simp [rank]
  · simp [rank]
  · have goesOn : ∃ u, Heads s u (.room id) .hub := ⟨t, goes⟩
    simp only [rank, if_pos goesOn]
    omega
  · exact rankRoom id

end States

/- What a thread does next neither takes the hub on the way to a room whose holder is on its way to the
hub, nor takes such a room while the hub's holder is on its way to it. -/
structure Apart (s : State Id HubLock) (t : Id) : Prop where
  disconnect : ∀ rest id, (s t).todo = .lock .hub :: rest → Ahead .hub rest (.room id) →
    ∀ u, u ≠ t → ¬Heads s u (.room id) .hub
  report : ∀ rest id, (s t).todo = .lock (.room id) :: rest → Ahead (.room id) rest .hub →
    ∀ u, u ≠ t → ¬Heads s u .hub (.room id)

section Runs
variable {s s' : State Id HubLock} {t u : Id}

-- Of the locks that nest, only the hub and a room nest both ways.
theorem bothWays {below above : List HubLock} {l m : HubLock} (inBelow : l ∈ below) (under : nests below m = true)
    (inAbove : m ∈ above) (over_ : nests above l = true) :
    (∃ id, l = .hub ∧ m = .room id) ∨ ∃ id, l = .room id ∧ m = .hub := by
  rcases (nestsUnder under inBelow).2 with ⟨rfl, ⟨id, rfl⟩ | rfl | rfl⟩ | ⟨⟨id, rfl⟩, rfl | rfl⟩
  · exact .inl ⟨id, rfl, rfl⟩
  · simpa using (nestsUnder over_ inAbove).2
  · simpa using (nestsUnder over_ inAbove).2
  · exact .inr ⟨id, rfl, rfl⟩
  · simpa using (nestsUnder over_ inAbove).2

theorem apartClear (nested : Nested nests s) (apart : Apart s t) : Clear s t := by
  intro l rest next m takes u differ heads
  have here := nested.follows t
  rw [next] at here
  obtain ⟨below, inBelow, under⟩ := aheadNests here.2 (List.mem_cons_self ..) takes
  obtain ⟨above, inAbove, over_⟩ := aheadNests (nested.follows u) heads.holds heads.takes
  rcases bothWays inBelow under inAbove over_ with ⟨id, rfl, rfl⟩ | ⟨id, rfl, rfl⟩
  · exact apart.disconnect rest id next takes u differ heads
  · exact apart.report rest id next takes u differ heads

theorem apartRun [DecidableEq Id] (nested : Nested nests s) (apart : ∀ t u l m, t ≠ u → ¬Crossed s t u l m)
    (run : Run Apart s s') : Nested nests s' ∧ ∀ t u l m, t ≠ u → ¬Crossed s' t u l m := by
  induction run with
  | refl => exact ⟨nested, apart⟩
  | tail _ last ih =>
      obtain ⟨nested, apart⟩ := ih
      obtain ⟨v, keeps, step⟩ := last
      exact ⟨nested.step step, clearStep (nested.distinct v) apart (apartClear nested keeps) step⟩

/- After a step that does cross another thread, neither of the two ever gives its lock back. -/
theorem crossedForGood [DecidableEq Id] {P : State Id HubLock → Id → Prop} {after : State Id HubLock} {id : RoomId}
    {rest : List (Action HubLock)} (step : Step s t s') (next : (s t).todo = .lock .hub :: rest)
    (takes : Ahead .hub rest (.room id)) (differ : t ≠ u) (heads : Heads s u (.room id) .hub) (run : Run P s' after) :
    Crossed after t u .hub (.room id) := by
  refine crossedRun run differ ?_
  cases step with
  | lock here free =>
      rw [here] at next
      obtain ⟨same, rfl⟩ := List.cons.inj next
      cases same
      constructor
      · exact ⟨by rw [Function.update_self]; exact List.mem_cons_self .., by rwa [Function.update_self]⟩
      · exact ⟨by rw [Function.update_of_ne differ.symm]; exact heads.holds, by
          rw [Function.update_of_ne differ.symm]; exact heads.takes⟩
  | unlock here =>
      rw [here] at next
      cases (List.cons.inj next).1

end Runs

/- However many threads there are and whatever they meet, a run whose steps keep the hub and the rooms
apart comes to no deadlock. -/
theorem deadlockFree [DecidableEq Id] (persists : Bool) (threads : Id → HubThread) (bits : Id → List Bool)
    {s : State Id HubLock} (run : Run Apart (start (fun t => (threads t).code persists) bits) s) (waiting : Set Id) :
    ¬Deadlocked s waiting := by
  have nested : Nested nests (start (fun t => (threads t).code persists) bits) :=
    .start (fun t => keepsThread (threads t)) bits
  have idle : ∀ t u l m, t ≠ u → ¬Crossed (start (fun t => (threads t).code persists) bits) t u l m := by
    intro t u l m _ crossed
    simpa [start] using crossed.left.holds
  obtain ⟨nested, apart⟩ := apartRun nested idle run
  exact notDeadlocked (rank s) 3 rankBound (ranked nested apart) waiting

/-! Two clients, a room, and one of them leaving while the other reports. -/

def pairRoom : Members := ⟨Vector.replicate 32 1, Vector.replicate 16 2, Vector.replicate 16 3⟩

def pairThreads : Fin 2 → HubThread
  | 0 => .client pairRoom.partyA [.createOffer, .sent pairRoom .a] [pairRoom] []
  | 1 => .client pairRoom.partyB [.joinOffer pairRoom] [pairRoom] []

-- Both are accepted, nothing throws, both parties are there for the turn, and the report ends no trade.
def pairBits : Fin 2 → List Bool
  | 0 => true :: List.replicate 13 false ++ [true]
  | 1 => true :: List.replicate 9 false ++ [true, true]

def pairStart : State (Fin 2) HubLock := start (fun t => (pairThreads t).code true) pairBits

-- The offer, the join, the report up to its room, the disconnect up to the hub.
def crossingTurns : List (Fin 2) := List.replicate 8 0 ++ List.replicate 22 1 ++ List.replicate 3 0 ++ [1]

/- The report waits for the hub and the disconnect for the room, each held by the other. -/
theorem reportMeetsDisconnect :
    ∃ s, Run (fun _ _ => True) pairStart s ∧ Deadlocked s {t | t = (0 : Fin 2) ∨ t = 1} := by
  have found : (schedule (fun _ _ => True) pairStart crossingTurns).map (fun s =>
      ((s 0).held, (s 0).todo.head?, (s 1).held, (s 1).todo.head?)) =
      some ([.room pairRoom.id], some (.lock .hub), [.hub], some (.lock (.room pairRoom.id))) := by decide +kernel
  obtain ⟨s, ran, view⟩ := Option.map_eq_some_iff.mp found
  simp only [Prod.mk.injEq] at view
  obtain ⟨held0, next0, held1, next1⟩ := view
  refine ⟨s, scheduleRun ran, ⟨0, .inl rfl⟩, fun t _ => ?_⟩
  obtain ⟨rest0, waits0⟩ := List.head?_eq_some_iff.mp next0
  obtain ⟨rest1, waits1⟩ := List.head?_eq_some_iff.mp next1
  match t with
  | 0 => exact ⟨.hub, ⟨rest0, waits0⟩, 1, .inr rfl, by decide, by simp [held1]⟩
  | 1 => exact ⟨.room pairRoom.id, ⟨rest1, waits1⟩, 0, .inl rfl, by decide, by simp [held0]⟩

-- Every other thread is outside its locks.
def Alone (s : State (Fin 2) HubLock) (t : Fin 2) : Prop := ∀ u, u ≠ t → (s u).held = []

instance decidableAlone (s : State (Fin 2) HubLock) (t : Fin 2) : Decidable (Alone s t) :=
  inferInstanceAs (Decidable (∀ u, u ≠ t → (s u).held = []))

theorem aloneApart {s : State (Fin 2) HubLock} {t : Fin 2} (alone : Alone s t) : Apart s t := by
  constructor
  · intro _ _ _ _ u differ heads
    have holds := heads.holds
    rw [alone u differ] at holds
    contradiction
  · intro _ _ _ _ u differ heads
    have holds := heads.holds
    rw [alone u differ] at holds
    contradiction

-- The same, with the report left to finish before the disconnect.
def patientTurns : List (Fin 2) := List.replicate 8 0 ++ List.replicate 22 1 ++ List.replicate 8 0 ++ [1]

theorem patientPair : ∃ s, Run Apart pairStart s ∧ (s 1).held = [.hub] ∧ ∀ waiting, ¬Deadlocked s waiting := by
  have found : (schedule Alone pairStart patientTurns).map (fun s => (s 1).held) = some [.hub] := by decide +kernel
  obtain ⟨s, ran, held⟩ := Option.map_eq_some_iff.mp found
  have run : Run Apart pairStart s := (scheduleRun ran).mono (fun _ _ => aloneApart)
  exact ⟨s, run, held, deadlockFree true pairThreads pairBits run⟩

end TradeP2P.Hub.Locks
