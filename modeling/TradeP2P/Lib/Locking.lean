import Mathlib.Data.Set.Basic
import Mathlib.Data.Fintype.Defs
import Mathlib.Logic.Function.Basic
import Mathlib.Logic.Relation

/-! Threads that take exclusive locks in scopes. Code says which locks a body takes and in what order;
what it computes only decides its branches. A thread waits when its next action is to take a lock that
is held. -/
namespace Locking

variable {Id Lock : Type}

inductive Action (Lock : Type) where
  | lock (l : Lock)
  | unlock (l : Lock)
  deriving DecidableEq, Repr

/- A body of code, for its locks: a throw leaves every scope it is in, up to the nearest handler. -/
inductive Code (Lock : Type) where
  | skip
  | throw
  | scopedLock (l : Lock) (body : Code Lock)
  | seq (first next : Code Lock)
  | choose (left right : Code Lock)
  | attempt (body handler : Code Lock)
  deriving Repr

namespace Code

def all : List (Code Lock) → Code Lock
  | [] => skip
  | c :: rest => seq c (all rest)

def oneOf (first : Code Lock) : List (Code Lock) → Code Lock
  | [] => first
  | c :: rest => choose first (oneOf c rest)

def maybe (c : Code Lock) : Code Lock := choose skip c
def mayThrow : Code Lock := choose skip throw

structure Trace (Lock : Type) where
  actions : List (Action Lock) := []
  thrown : Bool := false
  bits : List Bool
  deriving Repr

/- The actions of a body whose branches go as the bits say, and the bits left over. -/
def trace : Code Lock → List Bool → Trace Lock
  | skip, bits => { bits }
  | throw, bits => { thrown := true, bits }
  | scopedLock l body, bits =>
      let inner := body.trace bits
      { inner with actions := .lock l :: (inner.actions ++ [.unlock l]) }
  | seq first next, bits =>
      let front := first.trace bits
      if front.thrown then front
      else
        let back := next.trace front.bits
        { back with actions := front.actions ++ back.actions }
  | choose left right, bits =>
      match bits with
      | true :: rest => right.trace rest
      | _ => left.trace bits.tail
  | attempt body handler, bits =>
      let front := body.trace bits
      if front.thrown then
        let back := handler.trace front.bits
        { back with actions := front.actions ++ back.actions }
      else front

/- Every lock is taken where the nesting allows it. -/
def Keeps (nests : List Lock → Lock → Bool) : List Lock → Code Lock → Prop
  | _, skip => True
  | _, throw => True
  | held, scopedLock l body => nests held l = true ∧ Keeps nests (l :: held) body
  | held, seq first next => Keeps nests held first ∧ Keeps nests held next
  | held, choose left right => Keeps nests held left ∧ Keeps nests held right
  | held, attempt body handler => Keeps nests held body ∧ Keeps nests held handler

section Keeping
variable {nests : List Lock → Lock → Bool} {held : List Lock} {first next left right body handler : Code Lock} {l : Lock}

@[simp] theorem keepsSkip : Keeps nests held skip := trivial
@[simp] theorem keepsThrow : Keeps nests held throw := trivial
@[simp] theorem keepsScopedLock : Keeps nests held (scopedLock l body) ↔ nests held l = true ∧ Keeps nests (l :: held) body :=
  Iff.rfl
@[simp] theorem keepsSeq : Keeps nests held (seq first next) ↔ Keeps nests held first ∧ Keeps nests held next := Iff.rfl
@[simp] theorem keepsChoose : Keeps nests held (choose left right) ↔ Keeps nests held left ∧ Keeps nests held right :=
  Iff.rfl
@[simp] theorem keepsAttempt :
    Keeps nests held (attempt body handler) ↔ Keeps nests held body ∧ Keeps nests held handler := Iff.rfl
@[simp] theorem keepsMayThrow : Keeps nests held mayThrow := ⟨trivial, trivial⟩
@[simp] theorem keepsMaybe : Keeps nests held (maybe body) ↔ Keeps nests held body := by
  simp [maybe]

@[simp] theorem keepsAll {bodies : List (Code Lock)} : Keeps nests held (all bodies) ↔ ∀ c ∈ bodies, Keeps nests held c := by
  induction bodies with
  | nil => simp [all]
  | cons c rest ih => simp [all, ih]

@[simp] theorem keepsOneOf {bodies : List (Code Lock)} :
    Keeps nests held (oneOf first bodies) ↔ Keeps nests held first ∧ ∀ c ∈ bodies, Keeps nests held c := by
  induction bodies generalizing first with
  | nil => simp [oneOf]
  | cons c rest ih => simp [oneOf, ih]

end Keeping
end Code

/-! Threads. -/

structure Thread (Lock : Type) where
  held : List Lock := []
  todo : List (Action Lock)
  deriving DecidableEq, Repr

abbrev State (Id Lock : Type) := Id → Thread Lock

def Free (s : State Id Lock) (l : Lock) : Prop := ∀ t, l ∉ (s t).held

inductive Step [DecidableEq Id] [DecidableEq Lock] (s : State Id Lock) (t : Id) : State Id Lock → Prop where
  | lock {l : Lock} {rest : List (Action Lock)} (next : (s t).todo = .lock l :: rest) (free : Free s l) :
      Step s t (Function.update s t ⟨l :: (s t).held, rest⟩)
  | unlock {l : Lock} {rest : List (Action Lock)} (next : (s t).todo = .unlock l :: rest) :
      Step s t (Function.update s t ⟨(s t).held.erase l, rest⟩)

def start (code : Id → Code Lock) (bits : Id → List Bool) : State Id Lock :=
  fun t => { todo := ((code t).trace (bits t)).actions }

def Waits (s : State Id Lock) (t : Id) (l : Lock) : Prop := ∃ rest, (s t).todo = .lock l :: rest

/- Each thread of the set waits for a lock that another one of the set holds. -/
def Deadlocked (s : State Id Lock) (threads : Set Id) : Prop :=
  threads.Nonempty ∧ ∀ t ∈ threads, ∃ l, Waits s t l ∧ ∃ u ∈ threads, u ≠ t ∧ l ∈ (s u).held

/- No deadlock where what a thread holds ranks below what it waits for. -/
theorem notDeadlocked {s : State Id Lock} (rank : Lock → Nat) (highest : Nat) (bound : ∀ l, rank l ≤ highest)
    (ordered : ∀ t l, Waits s t l → ∀ m ∈ (s t).held, rank m < rank l) (threads : Set Id) : ¬Deadlocked s threads := by
  intro deadlocked
  obtain ⟨⟨first, inside⟩, waiting⟩ := deadlocked
  have climb : ∀ n, ∃ t ∈ threads, ∃ l, Waits s t l ∧ n ≤ rank l := by
    intro n
    induction n with
    | zero =>
        obtain ⟨l, waits, _⟩ := waiting first inside
        exact ⟨first, inside, l, waits, Nat.zero_le _⟩
    | succ n ih =>
        obtain ⟨t, mem, l, waits, high⟩ := ih
        obtain ⟨m, waits', u, holder, _, held⟩ := waiting t mem
        obtain ⟨k, next, _⟩ := waiting u holder
        obtain ⟨rest, here⟩ := waits
        obtain ⟨rest', here'⟩ := waits'
        rw [here, List.cons.injEq, Action.lock.injEq] at here'
        have lower := ordered u k next m held
        rw [← here'.1] at lower
        exact ⟨u, holder, k, next, Nat.lt_of_le_of_lt high lower⟩
  obtain ⟨t, _, l, _, above⟩ := climb (highest + 1)
  have below := bound l
  omega

-- Among the actions up to the one that gives the first lock back, the second is taken.
def Ahead (l : Lock) : List (Action Lock) → Lock → Prop
  | [], _ => False
  | .lock k :: rest, m => k = m ∨ Ahead l rest m
  | .unlock k :: rest, m => k ≠ l ∧ Ahead l rest m

/-! What stays of a body's nesting while it runs. -/
section Nesting
variable {nests : List Lock → Lock → Bool}

-- The rest of a body, from the locks it still holds, last taken first, to the locks it holds at its end.
def Follows (nests : List Lock → Lock → Bool) : List Lock → List (Action Lock) → List Lock → Prop
  | held, [], final => held = final
  | held, .lock l :: rest, final => nests held l = true ∧ Follows nests (l :: held) rest final
  | held, .unlock l :: rest, final => ∃ below, held = l :: below ∧ Follows nests below rest final

theorem Follows.append {front back : List (Action Lock)} {held middle final : List Lock}
    (first : Follows nests held front middle) (then_ : Follows nests middle back final) :
    Follows nests held (front ++ back) final := by
  induction front generalizing held with
  | nil =>
      unfold Follows at first
      rwa [first]
  | cons a rest ih =>
      cases a with
      | lock l => exact ⟨first.1, ih first.2⟩
      | unlock l =>
          obtain ⟨below, same, later⟩ := first
          exact ⟨below, same, ih later⟩

/- A body gives back every lock it took, thrown out of or not. -/
theorem traceFollows {c : Code Lock} {held : List Lock} (keeps : c.Keeps nests held) (bits : List Bool) :
    Follows nests held (c.trace bits).actions held := by
  induction c generalizing held bits with
  | skip => rfl
  | throw => rfl
  | scopedLock l body ih =>
      obtain ⟨allowed, inner⟩ := keeps
      exact ⟨allowed, (ih inner bits).append ⟨held, rfl, rfl⟩⟩
  | seq first next ihFirst ihNext =>
      obtain ⟨front, back⟩ := keeps
      simp only [Code.trace]
      split
      · exact ihFirst front bits
      · exact (ihFirst front bits).append (ihNext back _)
  | choose left right ihLeft ihRight =>
      obtain ⟨keepsLeft, keepsRight⟩ := keeps
      unfold Code.trace
      split
      · exact ihRight keepsRight _
      · exact ihLeft keepsLeft _
  | attempt body handler ihBody ihHandler =>
      obtain ⟨front, back⟩ := keeps
      simp only [Code.trace]
      split
      · exact (ihBody front bits).append (ihHandler back _)
      · exact ihBody front bits

structure Nested (nests : List Lock → Lock → Bool) (s : State Id Lock) : Prop where
  follows : ∀ t, Follows nests (s t).held (s t).todo []
  distinct : ∀ t, (s t).held.Nodup

theorem Nested.start {code : Id → Code Lock} (keeps : ∀ t, (code t).Keeps nests []) (bits : Id → List Bool) :
    Nested nests (start code bits) where
  follows t := traceFollows (keeps t) (bits t)
  distinct _ := List.nodup_nil

theorem Nested.waits {s : State Id Lock} {t : Id} {l : Lock} (nested : Nested nests s) (waits : Waits s t l) :
    nests (s t).held l = true := by
  obtain ⟨rest, next⟩ := waits
  have here := nested.follows t
  rw [next] at here
  exact here.1

variable [DecidableEq Id] {s s' : State Id Lock} {t : Id}

theorem Nested.update {thread : Thread Lock} (nested : Nested nests s) (follows : Follows nests thread.held thread.todo [])
    (distinct : thread.held.Nodup) : Nested nests (Function.update s t thread) := by
  constructor
  · intro v
    rcases eq_or_ne v t with rfl | other
    · rwa [Function.update_self]
    · rw [Function.update_of_ne other]
      exact nested.follows v
  · intro v
    rcases eq_or_ne v t with rfl | other
    · rwa [Function.update_self]
    · rw [Function.update_of_ne other]
      exact nested.distinct v

theorem Nested.step [DecidableEq Lock] (nested : Nested nests s) (step : Step s t s') : Nested nests s' := by
  have here := nested.follows t
  have distinct := nested.distinct t
  cases step with
  | lock next free =>
      rw [next] at here
      exact nested.update here.2 (List.nodup_cons.mpr ⟨free t, distinct⟩)
  | unlock next =>
      rw [next] at here
      obtain ⟨below, same, later⟩ := here
      rw [same] at distinct ⊢
      rw [List.erase_cons_head]
      exact nested.update later distinct.of_cons

/- What a thread takes before it gives a lock back nests under that lock. -/
theorem aheadNests {held final : List Lock} {todo : List (Action Lock)} {l m : Lock}
    (follows : Follows nests held todo final) (holds : l ∈ held) (takes : Ahead l todo m) :
    ∃ below, l ∈ below ∧ nests below m = true := by
  induction todo generalizing held with
  | nil => contradiction
  | cons a rest ih =>
      cases a with
      | lock k =>
          rcases takes with rfl | later
          · exact ⟨held, holds, follows.1⟩
          · exact ih follows.2 (List.mem_cons_of_mem _ holds) later
      | unlock k =>
          obtain ⟨below, rfl, after⟩ := follows
          exact ih after (List.mem_of_ne_of_mem takes.1.symm holds) takes.2

end Nesting

/-! Two threads cross when each holds a lock that the other takes before it gives back its own. -/
section Crossing
variable {s : State Id Lock} {t u v : Id} {l m : Lock}

structure Heads (s : State Id Lock) (t : Id) (l m : Lock) : Prop where
  holds : l ∈ (s t).held
  takes : Ahead l (s t).todo m

structure Crossed (s : State Id Lock) (t u : Id) (l m : Lock) : Prop where
  left : Heads s t l m
  right : Heads s u m l

/- What the thread does next does not make it cross another thread. -/
def Clear (s : State Id Lock) (t : Id) : Prop :=
  ∀ l rest, (s t).todo = .lock l :: rest → ∀ m, Ahead l rest m → ∀ u, u ≠ t → ¬Heads s u m l

theorem waitsHeads (waits : Waits s t l) (held : m ∈ (s t).held) : Heads s t m l := by
  obtain ⟨rest, next⟩ := waits
  refine ⟨held, ?_⟩
  rw [next]
  exact .inl rfl

variable [DecidableEq Id] [DecidableEq Lock] {s' : State Id Lock}

theorem headsStep (distinct : (s t).held.Nodup) (step : Step s t s') (heads : Heads s' v l m) :
    Heads s v l m ∨ v = t ∧ ∃ rest, (s t).todo = .lock l :: rest ∧ Ahead l rest m := by
  obtain ⟨holds, takes⟩ := heads
  rcases eq_or_ne v t with rfl | other
  · cases step with
    | @lock k rest next free =>
        rw [Function.update_self] at holds takes
        rcases List.mem_cons.mp holds with rfl | old
        · exact .inr ⟨rfl, rest, next, takes⟩
        · exact .inl ⟨old, by rw [next]; exact .inr takes⟩
    | @unlock k rest next =>
        rw [Function.update_self] at holds takes
        have kept := (List.Nodup.mem_erase_iff distinct).mp holds
        exact .inl ⟨kept.2, by rw [next]; exact ⟨kept.1.symm, takes⟩⟩
  · cases step <;> (rw [Function.update_of_ne other] at holds takes; exact .inl ⟨holds, takes⟩)

theorem clearStep (distinct : (s t).held.Nodup) (apart : ∀ u v l m, u ≠ v → ¬Crossed s u v l m) (clear : Clear s t)
    (step : Step s t s') : ∀ u v l m, u ≠ v → ¬Crossed s' u v l m := by
  intro u v l m differ crossed
  rcases headsStep distinct step crossed.left with left | ⟨rfl, rest, next, takes⟩
  · rcases headsStep distinct step crossed.right with right | ⟨rfl, rest, next, takes⟩
    · exact apart u v l m differ ⟨left, right⟩
    · exact clear m rest next l takes u differ left
  · rcases headsStep distinct step crossed.right with right | ⟨rfl, _⟩
    · exact clear l rest next m takes v differ.symm right
    · exact differ rfl

/- Two threads that cross never get on: neither gives its lock back. -/
theorem crossedStep (step : Step s v s') (differ : t ≠ u) (crossed : Crossed s t u l m) : Crossed s' t u l m := by
  have stays {t u : Id} {l m : Lock} (differ : t ≠ u) (heads : Heads s t l m) (other : m ∈ (s u).held) : Heads s' t l m := by
    obtain ⟨holds, takes⟩ := heads
    rcases eq_or_ne t v with rfl | elsewhere
    · cases step with
      | @lock k rest next free =>
          rw [next] at takes
          rcases takes with rfl | later
          · exact absurd other (free u)
          · exact ⟨by rw [Function.update_self]; exact List.mem_cons_of_mem _ holds, by
              rw [Function.update_self]; exact later⟩
      | @unlock k rest next =>
          rw [next] at takes
          exact ⟨by rw [Function.update_self]; exact (List.mem_erase_of_ne takes.1.symm).mpr holds, by
            rw [Function.update_self]; exact takes.2⟩
    · cases step <;> exact ⟨by rwa [Function.update_of_ne elsewhere], by rwa [Function.update_of_ne elsewhere]⟩
  exact ⟨stays differ crossed.left crossed.right.holds, stays differ.symm crossed.right crossed.left.holds⟩

end Crossing

/-! Runs of steps that meet a condition. -/
section Runs
variable [DecidableEq Id] [DecidableEq Lock] {s s' : State Id Lock} {P Q : State Id Lock → Id → Prop}

def Run (P : State Id Lock → Id → Prop) (s s' : State Id Lock) : Prop :=
  Relation.ReflTransGen (fun s s' => ∃ t, P s t ∧ Step s t s') s s'

theorem Run.mono (run : Run P s s') (weaker : ∀ s t, P s t → Q s t) : Run Q s s' := by
  refine Relation.ReflTransGen.mono ?_ s s' run
  intro a b taken
  obtain ⟨t, meets, step⟩ := taken
  exact ⟨t, weaker a t meets, step⟩

theorem crossedRun {t u : Id} {l m : Lock} (run : Run P s s') (differ : t ≠ u) (crossed : Crossed s t u l m) :
    Crossed s' t u l m := by
  induction run with
  | refl => exact crossed
  | tail _ last ih =>
      obtain ⟨v, _, step⟩ := last
      exact crossedStep step differ ih

variable [Fintype Id]

/- The step of a thread, where it can take one. -/
def fire (s : State Id Lock) (t : Id) : Option (State Id Lock) :=
  match (s t).todo with
  | [] => none
  | .lock l :: rest => if ∀ u, l ∉ (s u).held then some (Function.update s t ⟨l :: (s t).held, rest⟩) else none
  | .unlock l :: rest => some (Function.update s t ⟨(s t).held.erase l, rest⟩)

theorem fireStep {t : Id} (fired : fire s t = some s') : Step s t s' := by
  unfold fire at fired
  cases next : (s t).todo with
  | nil => simp [next] at fired
  | cons a rest =>
      rw [next] at fired
      cases a with
      | lock l =>
          dsimp only at fired
          split at fired
          · next free =>
              obtain rfl := Option.some.inj fired
              exact .lock next free
          · contradiction
      | unlock l =>
          obtain rfl := Option.some.inj fired
          exact .unlock next

def schedule (P : State Id Lock → Id → Prop) [∀ s t, Decidable (P s t)] (s : State Id Lock) (turns : List Id) :
    Option (State Id Lock) :=
  turns.foldlM (fun s t => if P s t then fire s t else none) s

theorem scheduleRun [∀ s t, Decidable (P s t)] {turns : List Id} (ran : schedule P s turns = some s') : Run P s s' := by
  induction turns generalizing s with
  | nil =>
      obtain rfl := Option.some.inj ran
      exact .refl
  | cons t rest ih =>
      simp only [schedule, List.foldlM_cons] at ran
      obtain ⟨next, taken, later⟩ := Option.bind_eq_some_iff.mp ran
      split at taken
      · next meets => exact .head ⟨t, meets, fireStep taken⟩ (ih later)
      · contradiction

end Runs
end Locking
