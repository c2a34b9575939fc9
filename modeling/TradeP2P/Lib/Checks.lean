/-! Chains of checks, each of which may throw. What a chain that came through established is
read off one check at a time. -/
namespace Checks

variable {ε α β : Type}

/- One `if (bad) throw e;` of a chain. -/
def throwIf (bad : Prop) [Decidable bad] (e : ε) : Except ε Unit := if bad then .error e else .ok ()

theorem throwIf_ok {bad : Prop} [Decidable bad] {e : ε} {u : Unit} : throwIf bad e = .ok u ↔ ¬bad := by
  unfold throwIf
  split <;> simp [*]

theorem throwIf_not {bad : Prop} [Decidable bad] {e : ε} (fine : ¬bad) : throwIf bad e = .ok () := if_neg fine

theorem throwIf_bad {bad : Prop} [Decidable bad] {e : ε} (hit : bad) : throwIf bad e = .error e := if_pos hit

theorem throwIf_error {bad : Prop} [Decidable bad] {e f : ε} : throwIf bad e = .error f ↔ bad ∧ e = f := by
  unfold throwIf
  split <;> simp [*]

theorem bind_ok {x : Except ε α} {f : α → Except ε β} {b : β} :
    (x >>= f) = .ok b ↔ ∃ a, x = .ok a ∧ f a = .ok b := by
  cases x <;> simp [bind, Except.bind]

theorem check_ok {x : Except ε Unit} {f : Unit → Except ε β} {b : β} :
    (x >>= f) = .ok b ↔ x = .ok () ∧ f () = .ok b := by
  cases x <;> simp [bind, Except.bind]

theorem pure_ok {a b : α} : (pure a : Except ε α) = .ok b ↔ a = b := by simp [pure, Except.pure]

/- A step that came through, and one that did not. -/
theorem bind_next {a : α} {f : α → Except ε β} : ((.ok a : Except ε α) >>= f) = f a := rfl

theorem bind_stops {e : ε} {f : α → Except ε β} : ((.error e : Except ε α) >>= f) = .error e := rfl

/- A list whose elements all come through: as what they come to, as something, and so that another loop finds them again. -/
theorem mapM_ok {f : α → Except ε β} {g : α → β} {items : List α} (each : ∀ a ∈ items, f a = .ok (g a)) :
    items.mapM f = .ok (items.map g) := by
  induction items with
  | nil => rfl
  | cons a rest ih =>
      rw [List.mapM_cons, each a List.mem_cons_self, ih fun b mem => each b (List.mem_cons_of_mem a mem)]
      rfl

theorem mapM_back {f : α → Except ε β} {g : β → Except ε α} {items : List α}
    (back : ∀ item ∈ items, ∃ value, f item = .ok value ∧ g value = .ok item) :
    ∃ values, items.mapM f = .ok values ∧ values.mapM g = .ok items := by
  induction items with
  | nil => exact ⟨[], rfl, rfl⟩
  | cons item rest ih =>
      obtain ⟨value, there, again⟩ := back item List.mem_cons_self
      obtain ⟨values, others, returned⟩ := ih fun item mem => back item (List.mem_cons_of_mem _ mem)
      refine ⟨value :: values, ?_, ?_⟩
      · rw [List.mapM_cons, there, others]
        rfl
      · rw [List.mapM_cons, again, returned]
        rfl

theorem mapM_total {f : α → Except ε β} {items : List α} (each : ∀ item ∈ items, ∃ value, f item = .ok value) :
    ∃ values, items.mapM f = .ok values := by
  induction items with
  | nil => exact ⟨[], rfl⟩
  | cons item rest ih =>
      obtain ⟨value, there⟩ := each item List.mem_cons_self
      obtain ⟨values, others⟩ := ih fun item mem => each item (List.mem_cons_of_mem _ mem)
      refine ⟨value :: values, ?_⟩
      rw [List.mapM_cons, there, others]
      rfl

/- A loop whose rounds all come through, as the loop without the checks. -/
theorem foldl_ok {ι : Type} {f : β → ι → Except ε β} {g : β → ι → β} (keeps : β → Prop) {items : List ι}
    (round : ∀ out i, i ∈ items → keeps out → f out i = .ok (g out i) ∧ keeps (g out i)) {out : β} (start : keeps out) :
    items.foldlM f out = .ok (items.foldl g out) ∧ keeps (items.foldl g out) := by
  induction items generalizing out with
  | nil => exact ⟨rfl, start⟩
  | cons i rest ih =>
      obtain ⟨ran, kept⟩ := round out i List.mem_cons_self start
      rw [List.foldlM_cons, ran]
      exact ih (fun out j mem => round out j (List.mem_cons_of_mem i mem)) kept

/- A loop over an index whose rounds all come through, under an invariant of the index. -/
theorem foldRange_ok {f : β → Nat → Except ε β} (keeps : Nat → β → Prop) (count : Nat)
    (round : ∀ i < count, ∀ out, keeps i out → ∃ out', f out i = .ok out' ∧ keeps (i + 1) out') {out : β} (start : keeps 0 out) :
    ∃ out', (List.range count).foldlM f out = .ok out' ∧ keeps count out' := by
  induction count with
  | zero => exact ⟨out, rfl, start⟩
  | succ count ih =>
      obtain ⟨mid, ran, kept⟩ := ih fun i inside => round i (by omega)
      obtain ⟨out', last, kept⟩ := round count (by omega) mid kept
      refine ⟨out', ?_, kept⟩
      rw [List.range_succ, List.foldlM_append, ran]
      show List.foldlM f mid [count] = .ok out'
      rw [List.foldlM_cons, last]
      rfl

end Checks
