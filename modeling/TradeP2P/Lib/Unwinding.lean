import TradeP2P.Lib.Contracts

/-! Two runs that somebody who looks on is not to tell apart. What happens inside happens in one run and not in the
other; all the rest happens in both. -/
namespace Unwinding

variable {σ ι : Type}

structure System (σ ι : Type) where
  fire : σ → ι → Option σ
  inner : σ → ι → Prop
  -- What is asked of every step of either run.
  meets : σ → ι → σ → Prop

/- The states that two runs from one state come to, when they differ in inner steps only. -/
inductive Alike (system : System σ ι) (start : σ) : σ → σ → Prop where
  | start : Alike system start start start
  | both {s t s' t' : σ} {event : ι} (alike : Alike system start s t) (fired : system.fire s event = some s')
      (met : system.meets s event s') (fired' : system.fire t event = some t') (met' : system.meets t event t') :
      Alike system start s' t'
  | left {s t s' : σ} {event : ι} (alike : Alike system start s t) (inner : system.inner s event)
      (fired : system.fire s event = some s') (met : system.meets s event s') : Alike system start s' t
  | right {s t t' : σ} {event : ι} (alike : Alike system start s t) (inner : system.inner t event)
      (fired : system.fire t event = some t') (met : system.meets t event t') : Alike system start s t'

section Runs
variable {system : System σ ι} {start s t : σ}

/- A relation that an inner step of one run does not break, and no step of both, holds of the two runs. -/
theorem Alike.related {r : σ → σ → Prop} (symmetric : ∀ s t, r s t → r t s) (alike : Alike system start s t) (begins : r start start)
    (hidden : ∀ s t event s', r s t → system.inner s event → system.fire s event = some s' → system.meets s event s' → r s' t)
    (shown : ∀ s t event s' t', r s t → system.fire s event = some s' → system.meets s event s' →
      system.fire t event = some t' → system.meets t event t' → r s' t') : r s t := by
  induction alike with
  | start => exact begins
  | both _ fired met fired' met' held => exact shown _ _ _ _ _ held fired met fired' met'
  | left _ inner fired met held => exact hidden _ _ _ _ held inner fired met
  | right _ inner fired met held => exact symmetric _ _ (hidden _ _ _ _ (symmetric _ _ held) inner fired met)

end Runs

/-! Such runs, as they are played. What a step is asked is checked by a test that may refuse more. -/

inductive Move (ι : Type) where
  | both (event : ι)
  | left (event : ι)
  | right (event : ι)

structure Test (system : System σ ι) where
  inner : σ → ι → Bool
  meets : σ → ι → σ → Bool
  innerSound : ∀ s event, inner s event = true → system.inner s event
  meetsSound : ∀ s event t, meets s event t = true → system.meets s event t

section Play
variable {system : System σ ι} (test : Test system)

def Test.step (s : σ) (event : ι) : Option σ := (system.fire s event).filter (test.meets s event)

def Test.move (runs : σ × σ) : Move ι → Option (σ × σ)
  | .both event => (test.step runs.1 event).bind fun s => (test.step runs.2 event).map fun t => (s, t)
  | .left event => if test.inner runs.1 event then (test.step runs.1 event).map fun s => (s, runs.2) else none
  | .right event => if test.inner runs.2 event then (test.step runs.2 event).map fun t => (runs.1, t) else none

def Test.play (runs : σ × σ) : List (Move ι) → Option (σ × σ)
  | [] => some runs
  | move :: later => (test.move runs move).bind fun runs => Test.play runs later

variable {test} {start s t : σ} {runs runs' : σ × σ}

theorem Test.stepped {event : ι} (stepped : test.step s event = some t) : system.fire s event = some t ∧ system.meets s event t := by
  obtain ⟨fired, met⟩ := Option.filter_eq_some_iff.mp stepped
  exact ⟨fired, test.meetsSound _ _ _ met⟩

theorem Test.moveAlike {move : Move ι} (alike : Alike system start runs.1 runs.2) (moved : test.move runs move = some runs') :
    Alike system start runs'.1 runs'.2 := by
  cases move with
  | both event =>
    obtain ⟨s, stepped, moved⟩ := Option.bind_eq_some_iff.mp moved
    obtain ⟨t, stepped', rfl⟩ := Option.map_eq_some_iff.mp moved
    exact .both alike (Test.stepped stepped).1 (Test.stepped stepped).2 (Test.stepped stepped').1 (Test.stepped stepped').2
  | left event =>
    obtain ⟨inner, moved⟩ := Option.ite_none_right_eq_some.mp moved
    obtain ⟨s, stepped, rfl⟩ := Option.map_eq_some_iff.mp moved
    exact .left alike (test.innerSound _ _ inner) (Test.stepped stepped).1 (Test.stepped stepped).2
  | right event =>
    obtain ⟨inner, moved⟩ := Option.ite_none_right_eq_some.mp moved
    obtain ⟨t, stepped, rfl⟩ := Option.map_eq_some_iff.mp moved
    exact .right alike (test.innerSound _ _ inner) (Test.stepped stepped).1 (Test.stepped stepped).2

theorem Test.playAlike {moves : List (Move ι)} (alike : Alike system start runs.1 runs.2) (played : test.play runs moves = some runs') :
    Alike system start runs'.1 runs'.2 := by
  induction moves generalizing runs with
  | nil =>
    cases played
    exact alike
  | cons move later ih =>
    obtain ⟨next, moved, rest⟩ := Option.bind_eq_some_iff.mp played
    exact ih (Test.moveAlike alike moved) rest

end Play
end Unwinding

/-! Two bodies from two states: they come to one answer, and to states that are related again. -/
namespace Machine

variable {ε σ α β : Type}

def Twins (r : σ → σ → Prop) (x y : EStateM ε σ α) (s t : σ) : Prop :=
  match x s, y t with
  | .ok a s', .ok b t' => a = b ∧ r s' t'
  | .error e s', .error f t' => e = f ∧ r s' t'
  | _, _ => False

section Twins
variable {r : σ → σ → Prop} {s t : σ}

theorem Twins.bind {x y : EStateM ε σ α} {k l : α → EStateM ε σ β} (first : Twins r x y s t)
    (rest : ∀ a s' t', r s' t' → Twins r (k a) (l a) s' t') : Twins r (x >>= k) (y >>= l) s t := by
  unfold Twins at first ⊢
  rw [bind_run, bind_run]
  cases left : x s with
  | ok a s' =>
      cases right : y t with
      | ok b t' =>
          rw [left, right] at first
          obtain ⟨rfl, related⟩ := first
          exact rest a s' t' related
      | error f t' =>
          rw [left, right] at first
          exact first.elim
  | error e s' =>
      cases right : y t with
      | ok b t' =>
          rw [left, right] at first
          exact first.elim
      | error f t' =>
          rw [left, right] at first
          exact first

theorem twinsGet {k l : σ → EStateM ε σ β} : Twins r (get >>= k) (get >>= l) s t ↔ Twins r (k s) (l t) s t := Iff.rfl

theorem twinsPure (related : r s t) (a : α) : Twins r (pure a : EStateM ε σ α) (pure a) s t := ⟨rfl, related⟩

theorem twinsThrow (related : r s t) (e : ε) : Twins r (throw e : EStateM ε σ α) (throw e) s t := ⟨rfl, related⟩

theorem twinsLift (related : r s t) (x : Except ε α) : Twins r (liftM x : EStateM ε σ α) (liftM x) s t := by
  unfold Twins
  rw [lift_run, lift_run]
  cases x with
  | ok a => exact ⟨rfl, related⟩
  | error e => exact ⟨rfl, related⟩

theorem twinsSet {s' t' : σ} (related : r s' t') : Twins r (set s' : EStateM ε σ PUnit) (set t') s t := ⟨rfl, related⟩

theorem twinsModify {f g : σ → σ} (related : r (f s) (g t)) : Twins r (modify f : EStateM ε σ PUnit) (modify g) s t := ⟨rfl, related⟩

end Twins
end Machine
