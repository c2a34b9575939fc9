import Mathlib.Data.List.Basic

/-! Two texts around a separator. Where the separator is missing from one side of both, the sides
are read off the whole. -/
namespace Separators

variable {α : Type} {separator : α} {a b c d : List α}

theorem first (same : a ++ separator :: b = c ++ separator :: d) (left : separator ∉ a) (right : separator ∉ c) :
    a = c ∧ b = d := by
  rcases List.append_eq_append_iff.mp same with ⟨middle, rfl, rest⟩ | ⟨middle, rfl, rest⟩
  · cases middle with
    | nil => exact ⟨(List.append_nil a).symm, (List.cons.inj rest).2⟩
    | cons front middle =>
        obtain ⟨rfl, _⟩ := List.cons.inj rest
        simp at right
  · cases middle with
    | nil => exact ⟨List.append_nil c, (List.cons.inj rest).2.symm⟩
    | cons front middle =>
        obtain ⟨rfl, _⟩ := List.cons.inj rest
        simp at left

theorem last (same : a ++ separator :: b = c ++ separator :: d) (left : separator ∉ b) (right : separator ∉ d) :
    a = c ∧ b = d := by
  have turned := congrArg List.reverse same
  simp only [List.reverse_append, List.reverse_cons, List.append_assoc, List.singleton_append] at turned
  obtain ⟨back, front⟩ := first turned (by simpa using left) (by simpa using right)
  exact ⟨List.reverse_injective front, List.reverse_injective back⟩

end Separators
