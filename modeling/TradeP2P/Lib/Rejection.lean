import Mathlib.Data.Nat.Nth

/-! Rejection sampling. Out of an endless sequence of draws, those that pass a test are kept, in their order. -/
namespace Rejection

variable {α : Type} (keep : Nat → Prop) (draw : Nat → α)

/- The first `count` draws that are kept. -/
noncomputable def first (count : Nat) : List α := (List.range count).map fun i => draw (Nat.nth keep i)

theorem firstLength (count : Nat) : (first keep draw count).length = count := by simp [first]

variable [DecidablePred keep]

/- What has been kept of the draws before `k`, and one draw more. -/
theorem firstKept {k : Nat} (kept : keep k) : first keep draw (Nat.count keep (k + 1)) = first keep draw (Nat.count keep k) ++ [draw k] := by
  rw [Nat.count_succ, if_pos kept, first, first, List.range_succ, List.map_append, List.map_singleton, Nat.nth_count kept]

theorem firstRejected {k : Nat} (rejected : ¬keep k) :
    first keep draw (Nat.count keep (k + 1)) = first keep draw (Nat.count keep k) := by
  rw [Nat.count_succ, if_neg rejected, add_zero]

/- The draw after which enough have been kept. -/
theorem firstReached {count : Nat} {k : Nat} (enough : count ≤ Nat.count keep k) : ∃ j ≤ k, Nat.count keep j = count := by
  induction k with
  | zero => exact ⟨0, le_rfl, (Nat.le_zero.mp (by simpa using enough)).symm ▸ by simp⟩
  | succ k ih =>
      by_cases before : count ≤ Nat.count keep k
      · obtain ⟨j, le, same⟩ := ih before
        exact ⟨j, by omega, same⟩
      · refine ⟨k + 1, le_rfl, ?_⟩
        have one : Nat.count keep (k + 1) ≤ Nat.count keep k + 1 := by
          rw [Nat.count_succ]
          split <;> omega
        omega

end Rejection
