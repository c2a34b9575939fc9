import Mathlib.LinearAlgebra.FiniteDimensional.Lemmas
import Mathlib.LinearAlgebra.Matrix.ToLin
import TradeP2P.Lib.Elimination

/-! Elimination below the diagonal, and the way back up. Where no pivot is left in a column the system has a kernel; and where
there is one in every column the system is solved from its last row on. -/
namespace Pivoting
open Elimination

variable {K : Type} [Field K] {size col p : Nat} {m : Cells K} {x : Nat → K}

/- The columns before `col` have nothing below the diagonal, and something on it. -/
structure Triangular (size col : Nat) (m : Cells K) : Prop where
  below : ∀ c < col, ∀ r < size, c < r → m r c = 0
  diagonal : ∀ c < col, m c c ≠ 0

def reduced (m : Cells K) (col : Nat) : Cells K := fun r j => if col < r then m r j - m r col / m col col * m col j else m r j

theorem killsReduced (inside : col < size) : Kills size (reduced m col) x ↔ Kills size m x := by
  have lower (r : Nat) (below : col < r) : reduced m col r = fun j => m r j - m r col / m col col * m col j := funext fun j => if_pos below
  have upper (r : Nat) (above : ¬col < r) : reduced m col r = m r := funext fun j => if_neg above
  constructor
  · intro kills r near
    have pivot := kills col inside
    rw [upper col (lt_irrefl col)] at pivot
    have row := kills r near
    by_cases below : col < r
    · rwa [lower r below, pairSubtracted, pivot, mul_zero, sub_zero] at row
    · rwa [upper r below] at row
  · intro kills r near
    by_cases below : col < r
    · rw [lower r below, pairSubtracted, kills r near, kills col inside, mul_zero, sub_zero]
    · rw [upper r below]
      exact kills r near

/- One column: the pivot is brought up, and what is below it goes. -/
theorem triangularNext (triangular : Triangular size col m) (lower : col ≤ p) (insideP : p < size) (pivot : m p col ≠ 0) :
    Triangular size (col + 1) (reduced (swapped m p col) col) := by
  have inside : col < size := by omega
  have swappedBelow (c : Nat) (before : c < col) (r : Nat) (near : r < size) (below : c < r) : swapped m p col r c = 0 := by
    unfold swapped
    by_cases first : r = col
    · rw [if_pos first]
      exact triangular.below c before p insideP (by omega)
    · rw [if_neg first]
      by_cases second : r = p
      · rw [if_pos second]
        exact triangular.below c before col inside before
      · rw [if_neg second]
        exact triangular.below c before r near below
  have top : swapped m p col col = m p := if_pos rfl
  refine ⟨fun c before r near below => ?_, fun c before => ?_⟩
  · rcases Nat.lt_succ_iff_lt_or_eq.mp before with earlier | rfl
    · unfold reduced
      by_cases under : col < r
      · rw [if_pos under, swappedBelow c earlier r near below, swappedBelow c earlier col inside earlier, mul_zero, sub_zero]
      · rw [if_neg under]
        exact swappedBelow c earlier r near below
    · rw [reduced, if_pos below, top, div_mul_cancel₀ _ pivot, sub_self]
  · rcases Nat.lt_succ_iff_lt_or_eq.mp before with earlier | rfl
    · have apart : c ≠ p := by omega
      rw [reduced, if_neg (by omega), swapped, if_neg (by omega), if_neg apart]
      exact triangular.diagonal c earlier
    · rw [reduced, if_neg (lt_irrefl c), top]
      exact pivot

/- Without a pivot the first columns have more unknowns than equations. -/
theorem stuckKernel (triangular : Triangular size col m) (inside : col < size) (stuck : ∀ r, col ≤ r → r < size → m r col = 0) :
    ∃ x, Kills size m x ∧ x size = 0 ∧ ∃ c < size, x c ≠ 0 := by
  let f := Matrix.mulVecLin (Matrix.of fun (r : Fin col) (j : Fin (col + 1)) => m r j)
  have less : Module.finrank K (Fin col → K) < Module.finrank K (Fin (col + 1) → K) := by simp
  obtain ⟨v, kernel, some_⟩ := Submodule.exists_mem_ne_zero_of_ne_bot (LinearMap.ker_ne_bot_of_finrank_lt (f := f) less)
  let x : Nat → K := fun j => if near : j < col + 1 then v ⟨j, near⟩ else 0
  have front (j : Fin (col + 1)) : x j = v j := dif_pos j.isLt
  have past (r j : Nat) (far : col + 1 ≤ j) : m r j * x j = 0 := by
    simp only [x, dif_neg (not_lt.mpr far), mul_zero]
  refine ⟨x, fun r near => ?_, dif_neg (by omega), ?_⟩
  · rw [pair, sumCut (by omega) (past r)]
    by_cases upper : r < col
    · have row := congrFun (LinearMap.mem_ker.mp kernel) ⟨r, upper⟩
      rw [← Fin.sum_univ_eq_sum_range (fun j => m r j * x j)]
      simp only [front]
      exact row
    · refine Finset.sum_eq_zero fun j mem => ?_
      have small := Finset.mem_range.mp mem
      rcases Nat.lt_succ_iff_lt_or_eq.mp small with earlier | rfl
      · rw [triangular.below j earlier r near (by omega), zero_mul]
      · rw [stuck r (not_lt.mp upper) near, zero_mul]
  · obtain ⟨c, apart⟩ := Function.ne_iff.mp some_
    exact ⟨c, by omega, fun zero => apart ((front c).symm.trans zero)⟩

/- The rows from `i` on are solved, one row further up at a time. -/
theorem backKills (triangular : Triangular size size m) {i : Nat} (inside : i < size)
    (later : ∀ r, i < r → r < size → pair size (m r) x = 0)
    (own : x i = (-(m i size * x size) - Finset.sum (Finset.Ico (i + 1) size) fun j => m i j * x j) / m i i) :
    ∀ r, i ≤ r → r < size → pair size (m r) x = 0 := by
  intro r least near
  rcases Nat.eq_or_lt_of_le least with rfl | past
  · have front : Finset.sum (Finset.range i) (fun j => m i j * x j) = 0 :=
      Finset.sum_eq_zero fun j mem => by rw [triangular.below j (by have := Finset.mem_range.mp mem; omega) i inside
        (Finset.mem_range.mp mem), zero_mul]
    have solved : m i i * x i = -(m i size * x size) - Finset.sum (Finset.Ico (i + 1) size) fun j => m i j * x j := by
      rw [own, mul_div_cancel₀ _ (triangular.diagonal i inside)]
    rw [pair, Finset.sum_range_succ, ← Finset.sum_range_add_sum_Ico _ (show i + 1 ≤ size by omega), Finset.sum_range_succ, front, solved]
    ring
  · exact later r past near

end Pivoting
