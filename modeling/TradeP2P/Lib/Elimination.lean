import Mathlib.Algebra.BigOperators.Group.Finset.Basic
import Mathlib.Algebra.BigOperators.Ring.Finset
import Mathlib.Algebra.Field.Basic
import Mathlib.Data.List.GetD
import Mathlib.Tactic.Ring

/-! Elimination on a square system with its right-hand side as one more column. Rows are functions of the
column. A vector has one place more too: there it is `-1` for the system itself and `0` for the one without
a right-hand side, so that one notion of solution serves both. -/
namespace Elimination

variable {K : Type} [Field K] {size : Nat}

abbrev Cells (K : Type) := Nat → Nat → K

def pair (size : Nat) (row x : Nat → K) : K := Finset.sum (Finset.range (size + 1)) fun j => row j * x j

def Kills (size : Nat) (m : Cells K) (x : Nat → K) : Prop := ∀ r < size, pair size (m r) x = 0

/- The columns before `col` are those of the identity. -/
def Cleared (size col : Nat) (m : Cells K) : Prop := ∀ r < size, ∀ c < col, m r c = if r = c then 1 else 0

def swapped (m : Cells K) (p col : Nat) : Cells K := fun r => if r = col then m p else if r = p then m col else m r
def scaled (m : Cells K) (col : Nat) (factor : K) : Cells K := fun r j => if r = col then m r j * factor else m r j
def subtracted (m : Cells K) (col : Nat) : Cells K := fun r j => if r = col then m r j else m r j - m r col * m col j

theorem pairScaled (row x : Nat → K) (factor : K) : pair size (fun j => row j * factor) x = pair size row x * factor := by
  rw [pair, pair, Finset.sum_mul]
  exact Finset.sum_congr rfl fun j _ => by ring

theorem pairSubtracted (row other x : Nat → K) (factor : K) :
    pair size (fun j => row j - factor * other j) x = pair size row x - factor * pair size other x := by
  rw [pair, pair, pair, Finset.mul_sum, ← Finset.sum_sub_distrib]
  exact Finset.sum_congr rfl fun j _ => by ring

/-! The three moves keep the solutions. -/
section Moves
variable {m : Cells K} {x : Nat → K} {col p : Nat}

omit [Field K] in
theorem swappedTwice : swapped (swapped m p col) p col = m := by
  funext r
  unfold swapped
  by_cases first : r = col
  · subst first
    by_cases same : p = r
    · simp [same]
    · simp [same]
  · by_cases second : r = p
    · subst second
      simp [first]
    · simp [first, second]

theorem swappedKills (insideP : p < size) (inside : col < size) (kills : Kills size m x) : Kills size (swapped m p col) x := by
  intro r near
  unfold swapped
  by_cases first : r = col
  · rw [if_pos first]
    exact kills p insideP
  · rw [if_neg first]
    by_cases second : r = p
    · rw [if_pos second]
      exact kills col inside
    · rw [if_neg second]
      exact kills r near

theorem killsSwapped (insideP : p < size) (inside : col < size) : Kills size (swapped m p col) x ↔ Kills size m x := by
  refine ⟨fun kills => ?_, swappedKills insideP inside⟩
  have back := swappedKills insideP inside kills
  rwa [swappedTwice] at back

theorem killsScaled {factor : K} (nonzero : factor ≠ 0) : Kills size (scaled m col factor) x ↔ Kills size m x := by
  have row (r : Nat) : pair size (scaled m col factor r) x = 0 ↔ pair size (m r) x = 0 := by
    by_cases here : r = col
    · have scales : scaled m col factor r = fun j => m r j * factor := funext fun j => if_pos here
      rw [scales, pairScaled]
      exact mul_eq_zero_iff_right nonzero
    · have stays : scaled m col factor r = m r := funext fun j => if_neg here
      rw [stays]
  exact forall₂_congr fun r _ => row r

theorem killsSubtracted (inside : col < size) : Kills size (subtracted m col) x ↔ Kills size m x := by
  have same : subtracted m col col = m col := funext fun j => if_pos rfl
  have others (r : Nat) (apart : r ≠ col) : subtracted m col r = fun j => m r j - m r col * m col j := funext fun j => if_neg apart
  constructor
  · intro kills r near
    have pivot := kills col inside
    rw [same] at pivot
    by_cases here : r = col
    · rwa [here]
    · have row := kills r near
      rwa [others r here, pairSubtracted, pivot, mul_zero, sub_zero] at row
  · intro kills r near
    by_cases here : r = col
    · rw [here, same]
      exact kills col inside
    · rw [others r here, pairSubtracted, kills r near, kills col inside, mul_zero, sub_zero]

/- One column: the pivot is brought up and made one, and the column is cleared with it. -/
theorem clearedNext (cleared : Cleared size col m) (lower : col ≤ p) (insideP : p < size) (pivot : m p col ≠ 0) :
    Cleared size (col + 1) (subtracted (scaled (swapped m p col) col (m p col)⁻¹) col) := by
  have inside : col < size := by omega
  have early (r c : Nat) (near : r < size) (before : c < col) : swapped m p col r c = if r = c then 1 else 0 := by
    unfold swapped
    by_cases first : r = col
    · rw [if_pos first, cleared p insideP c before, if_neg (by omega), if_neg (by omega)]
    · rw [if_neg first]
      by_cases second : r = p
      · rw [if_pos second, cleared col inside c before, if_neg (by omega), if_neg (by omega)]
      · rw [if_neg second, cleared r near c before]
  have one : scaled (swapped m p col) col (m p col)⁻¹ col col = 1 := by
    simp [scaled, swapped, mul_inv_cancel₀ pivot]
  have zero (c : Nat) (before : c < col) : scaled (swapped m p col) col (m p col)⁻¹ col c = 0 := by
    rw [scaled, if_pos rfl, early col c inside before, if_neg (by omega), zero_mul]
  intro r near c before
  unfold subtracted
  rcases Nat.lt_succ_iff_lt_or_eq.mp before with earlier | rfl
  · by_cases here : r = col
    · rw [if_pos here, here, zero c earlier, if_neg (by omega)]
    · rw [if_neg here, zero c earlier, mul_zero, sub_zero, scaled, if_neg here, early r c near earlier]
  · by_cases here : r = c
    · rw [if_pos here, if_pos here, here, one]
    · rw [if_neg here, if_neg here, one, mul_one, sub_self]

end Moves

/-! The two ends. -/

theorem sumCut {k count : Nat} {f : Nat → K} (within : k ≤ count) (past : ∀ j, k ≤ j → f j = 0) :
    Finset.sum (Finset.range count) f = Finset.sum (Finset.range k) f := by
  refine (Finset.sum_subset (Finset.range_subset_range.mpr within) fun j _ far => past j ?_).symm
  exact not_lt.mp fun near => far (Finset.mem_range.mpr near)

/- Columns of the identity pick one place out of a vector. -/
theorem sumPicked {row x : Nat → K} {r k : Nat} (unit : ∀ c < k, row c = if r = c then 1 else 0) :
    Finset.sum (Finset.range k) (fun j => row j * x j) = if r < k then x r else 0 := by
  have picked : Finset.sum (Finset.range k) (fun j => row j * x j) = Finset.sum (Finset.range k) fun j => if r = j then x j else 0 := by
    refine Finset.sum_congr rfl fun j mem => ?_
    rw [unit j (Finset.mem_range.mp mem), ite_mul, one_mul, zero_mul]
  rw [picked, Finset.sum_ite_eq]
  exact if_congr Finset.mem_range rfl rfl

/- With every column cleared the last one is the solution. -/
def solution (size : Nat) (m : Cells K) : Nat → K := fun j => if j < size then m j size else -1

theorem solutionKills {m : Cells K} (cleared : Cleared size size m) : Kills size m (solution size m) := by
  intro r near
  have last : solution size m size = -1 := if_neg (lt_irrefl size)
  rw [pair, Finset.sum_range_succ, sumPicked (cleared r near), if_pos near, last, solution, if_pos near]
  ring

/- With no pivot left in a column, that column is a combination of the ones before it. -/
def kernel (m : Cells K) (col : Nat) : Nat → K := fun j => if j < col then -m j col else if j = col then 1 else 0

theorem kernelKills {m : Cells K} {col : Nat} (cleared : Cleared size col m) (inside : col < size)
    (stuck : ∀ r, col ≤ r → r < size → m r col = 0) : Kills size m (kernel m col) := by
  intro r near
  have past (j : Nat) (far : col + 1 ≤ j) : m r j * kernel m col j = 0 := by
    rw [kernel, if_neg (by omega), if_neg (by omega), mul_zero]
  have own : kernel m col col = 1 := (if_neg (lt_irrefl col)).trans (if_pos rfl)
  rw [pair, sumCut (by omega) past, Finset.sum_range_succ, sumPicked (cleared r near), own, kernel]
  by_cases upper : r < col
  · rw [if_pos upper, if_pos upper]
    ring
  · rw [if_neg upper, stuck r (by omega) near]
    ring

/-! Rows as lists. -/

theorem setRow {α : Type} {rows : List (List α)} {k : Nat} (inside : k < rows.length) (row : List α) (r : Nat) :
    (rows.set k row).getD r [] = if r = k then row else rows.getD r [] := by
  simp only [List.getD_eq_getElem?_getD, List.getElem?_set]
  by_cases here : k = r
  · subst here
    simp [inside]
  · simp [here, Ne.symm here]

theorem swapRows {α : Type} {rows : List (List α)} {p k : Nat} (insideP : p < rows.length) (inside : k < rows.length) (r : Nat) :
    ((rows.set p (rows.getD k [])).set k (rows.getD p [])).getD r [] =
      if r = k then rows.getD p [] else if r = p then rows.getD k [] else rows.getD r [] := by
  rw [setRow (by rwa [List.length_set]), setRow insideP]

end Elimination
