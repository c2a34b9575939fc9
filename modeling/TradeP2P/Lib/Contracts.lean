import TradeP2P.Lib.Machine

/-! Contracts of method bodies. A body ensures a pair of postconditions, one for a return and one
for a throw; it is read off the body one primitive at a time. -/
namespace Machine

variable {ε σ α β : Type}

def Ensures (x : EStateM ε σ α) (s : σ) (returns : α → σ → Prop) (throws : ε → σ → Prop) : Prop :=
  match x s with
  | .ok a t => returns a t
  | .error e t => throws e t

section Rules
variable {s : σ} {throws : ε → σ → Prop}

theorem ensuresBind {x : EStateM ε σ α} {k : α → EStateM ε σ β} {returns : β → σ → Prop} :
    Ensures (x >>= k) s returns throws ↔ Ensures x s (fun a t => Ensures (k a) t returns throws) throws := by
  unfold Ensures
  rw [bind_run]
  cases x s <;> rfl

theorem ensuresPure {a : α} {returns : α → σ → Prop} :
    Ensures (pure a : EStateM ε σ α) s returns throws ↔ returns a s := Iff.rfl

theorem ensuresGet {returns : σ → σ → Prop} :
    Ensures (get : EStateM ε σ σ) s returns throws ↔ returns s s := Iff.rfl

theorem ensuresSet {t : σ} {returns : PUnit → σ → Prop} :
    Ensures (set t : EStateM ε σ PUnit) s returns throws ↔ returns ⟨⟩ t := Iff.rfl

theorem ensuresModify {f : σ → σ} {returns : PUnit → σ → Prop} :
    Ensures (modify f : EStateM ε σ PUnit) s returns throws ↔ returns ⟨⟩ (f s) := Iff.rfl

theorem ensuresLift {x : Except ε α} {returns : α → σ → Prop} :
    Ensures (liftM x : EStateM ε σ α) s returns throws ↔
      (∀ a, x = .ok a → returns a s) ∧ (∀ e, x = .error e → throws e s) := by
  cases x <;> simp [Ensures, lift_run]

theorem ensuresIte {c : Prop} [Decidable c] {x y : EStateM ε σ α} {returns : α → σ → Prop} :
    Ensures (if c then x else y) s returns throws ↔
      (c → Ensures x s returns throws) ∧ (¬c → Ensures y s returns throws) := by
  split <;> simp [*]

/- Weaker postconditions, with the call at hand. -/
theorem Ensures.weaken {x : EStateM ε σ α} {before after : α → σ → Prop} {throws' : ε → σ → Prop}
    (h : Ensures x s before throws) (returned : ∀ a t, x s = .ok a t → before a t → after a t)
    (thrown : ∀ e t, x s = .error e t → throws e t → throws' e t) : Ensures x s after throws' := by
  unfold Ensures at h ⊢
  cases call : x s with
  | ok a t =>
      rw [call] at h
      exact returned a t call h
  | error e t =>
      rw [call] at h
      exact thrown e t call h

end Rules

/- A body that takes the state along a relation, whether it returns or throws. -/
def Along (R : σ → σ → Prop) (x : EStateM ε σ α) : Prop := ∀ s, Ensures x s (fun _ t => R s t) (fun _ t => R s t)

section Along
variable {R : σ → σ → Prop}

theorem Along.bind [Trans R R R] {x : EStateM ε σ α} {k : α → EStateM ε σ β} (first : Along R x) (second : ∀ a, Along R (k a)) :
    Along R (x >>= k) := by
  intro s
  rw [ensuresBind]
  refine (first s).weaken (fun a t _ moved => ?_) (fun _ _ _ moved => moved)
  exact (second a t).weaken (fun _ _ _ more => Trans.trans moved more) (fun _ _ _ more => Trans.trans moved more)

theorem alongIf {c : Prop} [Decidable c] {x y : EStateM ε σ α} (yes : Along R x) (no : Along R y) :
    Along R (if c then x else y) := by
  split
  · exact yes
  · exact no

theorem alongModify {f : σ → σ} (moves : ∀ s, R s (f s)) : Along R (modify f : EStateM ε σ PUnit) := moves

variable [Std.Refl R]

theorem alongPure (a : α) : Along R (pure a : EStateM ε σ α) := fun s => Std.Refl.refl s

theorem alongThrow (e : ε) : Along R (throw e : EStateM ε σ α) := fun s => Std.Refl.refl s

theorem alongGet : Along R (get : EStateM ε σ σ) := fun s => Std.Refl.refl s

theorem alongLift (x : Except ε α) : Along R (liftM x : EStateM ε σ α) := by
  intro s
  rw [ensuresLift]
  exact ⟨fun _ _ => Std.Refl.refl s, fun _ _ => Std.Refl.refl s⟩

end Along

/- A body whose every return is of a kind, in whatever state it is called. -/
def Returns (P : α → Prop) (x : EStateM ε σ α) : Prop := ∀ s, Ensures x s (fun a _ => P a) (fun _ _ => True)

section Returns
variable {P : β → Prop}

theorem Returns.bind {x : EStateM ε σ α} {k : α → EStateM ε σ β} (last : ∀ a, Returns P (k a)) : Returns P (x >>= k) := by
  intro s
  rw [ensuresBind]
  unfold Ensures
  cases x s with
  | ok a t => exact last a t
  | error e t => trivial

theorem returnsPure {b : β} (holds : P b) : Returns P (pure b : EStateM ε σ β) := fun _ => holds

theorem returnsIf {c : Prop} [Decidable c] {x y : EStateM ε σ β} (yes : Returns P x) (no : Returns P y) :
    Returns P (if c then x else y) := by
  split
  · exact yes
  · exact no

end Returns
end Machine
