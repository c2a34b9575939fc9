import TradeP2P.Blind.Sampling
import TradeP2P.Lib.Adjoint
import TradeP2P.Lib.Pivoting

/-! The real ring under the signing tree, with the reals taken as exact: any ordered field. A quotient is the solution of a
system; the elimination finds a pivot in every column as long as the divisor divides nothing but zero into zero. -/
namespace TradeP2P.Blns7933.RealRingArithmetic
open Checks
open Coefficients (Negacyclic element elementInj elementSum elementTerms)
open Elimination (Cells Kills pair setRow)
open Pivoting (Triangular)

section Definitions
variable {K : Type} [Field K]

def add (degree : Nat) (a b : List K) : Except Error (List K) := exactAdd realTooLong degree a b
def sub (degree : Nat) (a b : List K) : Except Error (List K) := exactSub realTooLong degree a b
def mul (degree : Nat) (a b : List K) : Except Error (List K) := exactMul realTooLong degree a b

def adjointList (degree : Nat) (aa : List K) : List K :=
  (List.range degree).map fun k => if k = 0 then aa.getD 0 0 else -aa.getD (degree - k) 0

def hermitianAdjoint (degree : Nat) (a : List K) : Except Error (List K) := do
  let aa ← canonicalSize realTooLong degree a
  return adjointList degree aa

def split (f : List K) : Except Error (List K × List K) := do
  throwIf (f = [] ∨ f.length % 2 ≠ 0) (.invalidArgument "split() requires a non-empty, even-length polynomial")
  return ((List.range (f.length / 2)).map fun i => f.getD (2 * i) 0,
    (List.range (f.length / 2)).map fun i => f.getD (2 * i + 1) 0)

/- The matrix of a system with the right-hand side as its last column. -/
abbrev RealMatrix (K : Type) := List (List K)

def cell (m : RealMatrix K) (row col : Nat) : K := (m.getD row []).getD col 0

variable [LinearOrder K]

def realAbs (value : K) : K := if value < 0 then -value else value

-- The first of the largest entries on or below the diagonal.
def choosePivot (size : Nat) (m : RealMatrix K) (col : Nat) : Nat × K :=
  (List.range' (col + 1) (size - (col + 1))).foldl
    (fun chosen row => if realAbs (cell m row col) > chosen.2 then (row, realAbs (cell m row col)) else chosen)
    (col, realAbs (cell m col col))

def swapRows (m : RealMatrix K) (pivot col : Nat) : RealMatrix K := (m.set pivot (m.getD col [])).set col (m.getD pivot [])

def reduceRow (col : Nat) (pivot row : List K) : List K :=
  let factor := row.getD col 0 / pivot.getD col 0
  if factor = 0 then row else row.mapIdx fun j v => if col ≤ j then v - factor * pivot.getD j 0 else v

def singular : Error := .runtimeError "BLNS7933 real-ring division is singular (divisor vanishes at some root)"

def eliminateColumn (size : Nat) (m : RealMatrix K) (col : Nat) : Except Error (RealMatrix K) := do
  let (pivot, best) := choosePivot size m col
  throwIf (best = 0) singular
  let m := if pivot ≠ col then swapRows m pivot col else m
  return m.mapIdx fun row values => if col < row then reduceRow col (m.getD col []) values else values

def solveRow (size : Nat) (m : RealMatrix K) (x : List K) (i : Nat) : List K :=
  let sum := (List.range' (i + 1) (size - (i + 1))).foldl (fun sum j => sum - cell m i j * x.getD j 0) (cell m i size)
  x.set i (sum / cell m i i)

def solveRealSystem (size : Nat) (m : RealMatrix K) : Except Error (List K) := do
  let m ← (List.range size).foldlM (eliminateColumn size) m
  return (List.range size).reverse.foldl (solveRow size m) (List.replicate size 0)

def div (degree : Nat) (a b : List K) : Except Error (List K) := do
  let aa ← canonicalSize realTooLong degree a
  let bb ← canonicalSize realTooLong degree b
  let columns ← (List.range degree).mapM fun col => mul degree bb ((List.replicate degree 0).set col 1)
  solveRealSystem degree ((List.range degree).map fun row => (columns.map fun column => column.getD row 0) ++ [aa.getD row 0])

end Definitions

/-! Over the rationals these are the operations of the sampler. -/

theorem mulSampler : (mul : Nat → RealPoly → RealPoly → Except Error RealPoly) = RealRing.mul := rfl
theorem splitSampler : (split : RealPoly → Except Error (RealPoly × RealPoly)) = Blns7933.split := rfl

/-! The rows as cells. -/
section Cells
variable {K : Type} [Field K] {size : Nat} {m : RealMatrix K}

structure Shaped (size : Nat) (m : RealMatrix K) : Prop where
  height : m.length = size
  width : ∀ row ∈ m, row.length = size + 1

def cells (m : RealMatrix K) : Cells K := cell m

omit [Field K] in
theorem Shaped.row (shaped : Shaped size m) {r : Nat} (inside : r < size) : (m.getD r []).length = size + 1 := by
  rw [List.getD_eq_getElem _ _ (by rw [shaped.height]; exact inside)]
  exact shaped.width _ (List.getElem_mem _)

theorem Shaped.outside (shaped : Shaped size m) {r j : Nat} (outside : ¬(r < size ∧ j < size + 1)) : cell m r j = 0 := by
  by_cases inside : r < size
  · rw [cell, List.getD_eq_default _ _ (by rw [shaped.row inside]; omega)]
  · rw [cell, List.getD_eq_default m _ (by rw [shaped.height]; omega), List.getD_nil]

omit [Field K] in
theorem Shaped.set (shaped : Shaped size m) (k : Nat) {row : List K} (width : row.length = size + 1) : Shaped size (m.set k row) := by
  refine ⟨by rw [List.length_set, shaped.height], fun other mem => ?_⟩
  rcases List.mem_or_eq_of_mem_set mem with old | rfl
  · exact shaped.width other old
  · exact width

theorem swappedCells (shaped : Shaped size m) {p col : Nat} (insideP : p < size) (inside : col < size) :
    Shaped size (swapRows m p col) ∧ cells (swapRows m p col) = Elimination.swapped (cells m) p col := by
  have height := shaped.height
  refine ⟨(shaped.set p (shaped.row inside)).set col (shaped.row insideP), ?_⟩
  funext r j
  rw [cells, cell, swapRows, Elimination.swapRows (by omega) (by omega), Elimination.swapped]
  split_ifs <;> rfl

variable [LinearOrder K]

/- A row with the pivot's row taken off it. Before the pivot there is nothing to take. -/
theorem reduceRowEntry {col : Nat} {pivot row : List K} (same : pivot.length = row.length) (clear : ∀ c < col, pivot.getD c 0 = 0)
    (j : Nat) : (reduceRow col pivot row).getD j 0 = row.getD j 0 - row.getD col 0 / pivot.getD col 0 * pivot.getD j 0 := by
  unfold reduceRow
  dsimp only
  by_cases nothing : row.getD col 0 / pivot.getD col 0 = 0
  · rw [if_pos nothing, nothing, zero_mul, sub_zero]
  · rw [if_neg nothing]
    simp only [List.getD_eq_getElem?_getD, List.getElem?_mapIdx]
    by_cases inside : j < row.length
    · by_cases near : col ≤ j
      · simp [inside, near]
      · have zero := clear j (not_le.mp near)
        rw [List.getD_eq_getElem?_getD] at zero
        simp [inside, near, zero]
    · have past : pivot[j]? = none := List.getElem?_eq_none (by omega)
      simp [inside, past]

omit [LinearOrder K] in
theorem cellMapIdx (f : Nat → List K → List K) {r : Nat} (inside : r < m.length) (j : Nat) :
    cell (m.mapIdx f) r j = (f r (m.getD r [])).getD j 0 := by
  rw [cell, List.getD_eq_getElem (m.mapIdx f) _ (by rwa [List.length_mapIdx]), List.getElem_mapIdx, List.getD_eq_getElem _ _ inside]

theorem reducedCells (shaped : Shaped size m) {col : Nat} (inside : col < size) (clear : ∀ c < col, cell m col c = 0) :
    Shaped size (m.mapIdx fun row values => if col < row then reduceRow col (m.getD col []) values else values) ∧
      cells (m.mapIdx fun row values => if col < row then reduceRow col (m.getD col []) values else values) =
        Pivoting.reduced (cells m) col := by
  have height := shaped.height
  have width (r : Nat) (near : r < size) : (if col < r then reduceRow col (m.getD col []) (m.getD r []) else m.getD r []).length = size + 1 := by
    split
    · unfold reduceRow
      dsimp only
      split
      · exact shaped.row near
      · rw [List.length_mapIdx, shaped.row near]
    · exact shaped.row near
  have shapedNext : Shaped size (m.mapIdx fun row values => if col < row then reduceRow col (m.getD col []) values else values) := by
    refine ⟨by rw [List.length_mapIdx, height], fun row mem => ?_⟩
    obtain ⟨r, near, rfl⟩ := List.mem_mapIdx.mp mem
    have wide := width r (height ▸ near)
    rwa [List.getD_eq_getElem _ _ near] at wide
  refine ⟨shapedNext, ?_⟩
  funext r j
  by_cases near : r < size
  · rw [cells, cellMapIdx _ (by omega), Pivoting.reduced]
    by_cases below : col < r
    · rw [if_pos below, if_pos below, reduceRowEntry ((shaped.row inside).trans (shaped.row near).symm) clear]
      rfl
    · rw [if_neg below, if_neg below]
      rfl
  · have zero (c : Nat) : cell m r c = 0 := shaped.outside fun both => near both.1
    rw [cells, shapedNext.outside fun both => near both.1, Pivoting.reduced, cells, zero, zero, zero_div, zero_mul, sub_zero, ite_self]

/-! The pivot. -/
variable [IsStrictOrderedRing K]

theorem realAbsValue (value : K) : realAbs value = |value| := by
  unfold realAbs
  split
  next negative => exact (abs_of_neg negative).symm
  next positive => exact (abs_of_nonneg (not_lt.mp positive)).symm

/- The largest entry of the column in the rows that have been looked at. -/
structure Chosen (m : RealMatrix K) (col seen : Nat) (chosen : Nat × K) : Prop where
  lower : col ≤ chosen.1
  upper : chosen.1 ≤ col + seen
  best : chosen.2 = realAbs (cell m chosen.1 col)
  most : ∀ r, col ≤ r → r ≤ col + seen → realAbs (cell m r col) ≤ chosen.2

omit [IsStrictOrderedRing K] in
theorem chosenAmong (m : RealMatrix K) (col seen : Nat) : Chosen m col seen ((List.range' (col + 1) seen).foldl
    (fun chosen row => if realAbs (cell m row col) > chosen.2 then (row, realAbs (cell m row col)) else chosen)
    (col, realAbs (cell m col col))) := by
  induction seen with
  | zero =>
    refine ⟨le_rfl, le_rfl, rfl, fun r least most => ?_⟩
    obtain rfl : r = col := by omega
    exact le_rfl
  | succ seen ih =>
    rw [List.range'_1_concat, List.foldl_append, List.foldl_cons, List.foldl_nil]
    have next : col + 1 + seen = col + (seen + 1) := by omega
    rw [next]
    split
    next larger =>
      refine ⟨by simp, le_rfl, rfl, fun r least most => ?_⟩
      rcases Nat.lt_or_ge r (col + (seen + 1)) with earlier | last
      · exact (ih.most r least (by omega)).trans larger.le
      · obtain rfl : r = col + (seen + 1) := by omega
        exact le_rfl
    next smaller =>
      refine ⟨ih.lower, ih.upper.trans (by omega), ih.best, fun r least most => ?_⟩
      rcases Nat.lt_or_ge r (col + (seen + 1)) with earlier | last
      · exact ih.most r least (by omega)
      · obtain rfl : r = col + (seen + 1) := by omega
        exact not_lt.mp smaller

/- A column: either there is nothing on or below the diagonal, or the column is cleared below it. -/
theorem columnGoes (shaped : Shaped size m) {col : Nat} (inside : col < size) (triangular : Triangular size col (cells m)) :
    (∀ r, col ≤ r → r < size → cells m r col = 0) ∨
    ∃ m', eliminateColumn size m col = .ok m' ∧ Shaped size m' ∧ Triangular size (col + 1) (cells m') ∧
      ∀ x, Kills size (cells m') x ↔ Kills size (cells m) x := by
  have chosen : Chosen m col (size - (col + 1)) (choosePivot size m col) := chosenAmong m col _
  obtain ⟨lower, upper, best, most⟩ := chosen
  have insideP : (choosePivot size m col).1 < size := by omega
  by_cases none_ : (choosePivot size m col).2 = 0
  · refine .inl fun r least near => ?_
    have small := most r least (by omega)
    rw [none_, realAbsValue] at small
    exact abs_nonpos_iff.mp small
  · refine .inr ?_
    have pivot : cells m (choosePivot size m col).1 col ≠ 0 := fun zero => none_ (by
      rw [best, realAbsValue]
      exact abs_eq_zero.mpr zero)
    have brought : ∃ m1, (if (choosePivot size m col).1 ≠ col then swapRows m (choosePivot size m col).1 col else m) = m1 ∧
        Shaped size m1 ∧ cells m1 = Elimination.swapped (cells m) (choosePivot size m col).1 col := by
      by_cases same : (choosePivot size m col).1 = col
      · refine ⟨m, if_neg (fun apart : (choosePivot size m col).1 ≠ col => apart same), shaped, ?_⟩
        funext r j
        rw [same, Elimination.swapped]
        by_cases here : r = col
        · rw [if_pos here, here]
        · rw [if_neg here, if_neg here]
      · obtain ⟨shapedNext, swaps⟩ := swappedCells shaped insideP inside
        exact ⟨_, if_pos same, shapedNext, swaps⟩
    obtain ⟨m1, is, shaped1, swaps⟩ := brought
    have clear : ∀ c < col, cell m1 col c = 0 := by
      intro c before
      have top : cells m1 col c = cells m (choosePivot size m col).1 c := by
        rw [swaps, Elimination.swapped, if_pos rfl]
      exact top.trans (triangular.below c before _ insideP (by omega))
    obtain ⟨shaped2, reduces⟩ := reducedCells shaped1 inside clear
    refine ⟨_, ?_, shaped2, ?_, fun x => ?_⟩
    · simp only [eliminateColumn, throwIf_not none_, is, bind, Except.bind]
      rfl
    · rw [reduces, swaps]
      exact Pivoting.triangularNext triangular lower insideP pivot
    · rw [reduces, swaps, Pivoting.killsReduced inside, Elimination.killsSwapped insideP inside]

/- A system whose kernel is trivial is brought into its triangle. -/
theorem sweepGoes (shaped : Shaped size m)
    (trivial : ∀ x, Kills size (cells m) x → x size = 0 → ∀ c < size, x c = 0) {count : Nat} (within : count ≤ size) :
    ∃ m', (List.range count).foldlM (eliminateColumn size) m = .ok m' ∧ Shaped size m' ∧ Triangular size count (cells m') ∧
      ∀ x, Kills size (cells m') x ↔ Kills size (cells m) x := by
  induction count with
  | zero =>
    refine ⟨m, rfl, shaped, ⟨fun c before => absurd before (Nat.not_lt_zero c), fun c before => absurd before (Nat.not_lt_zero c)⟩, fun x => Iff.rfl⟩
  | succ count ih =>
    obtain ⟨m1, ran, shaped1, triangular, same⟩ := ih (by omega)
    rcases columnGoes shaped1 (by omega) triangular with stuck | ⟨m2, stepped, shaped2, next, same2⟩
    · obtain ⟨x, kills, last, c, inside, apart⟩ := Pivoting.stuckKernel triangular (by omega) stuck
      exact absurd (trivial x ((same x).mp kills) last c inside) apart
    · refine ⟨m2, ?_, shaped2, next, fun x => (same2 x).trans (same x)⟩
      rw [List.range_succ, List.foldlM_append, ran]
      exact (bind_pure _).trans stepped

/-! The way back up. -/

/- The unknowns next to the coefficient of the right-hand side. -/
def unknowns (size : Nat) (x : List K) : Nat → K := fun j => if j = size then -1 else x.getD j 0

omit [LinearOrder K] [IsStrictOrderedRing K] in
theorem rowSum (m : RealMatrix K) (x : List K) (i count start : Nat) (sum : K) :
    (List.range' start count).foldl (fun sum j => sum - cell m i j * x.getD j 0) sum =
      sum - Finset.sum (Finset.Ico start (start + count)) fun j => cell m i j * x.getD j 0 := by
  induction count generalizing sum start with
  | zero => simp
  | succ count ih =>
    rw [List.range'_succ, List.foldl_cons, ih, Finset.sum_eq_sum_Ico_succ_bot (show start < start + (count + 1) by omega),
      show start + 1 + count = start + (count + 1) by omega]
    ring

omit [LinearOrder K] [IsStrictOrderedRing K] in
theorem solvedRow (triangular : Triangular size size (cells m)) {x : List K} (width : x.length = size) {i : Nat} (inside : i < size)
    (later : ∀ r, i < r → r < size → pair size (cells m r) (unknowns size x) = 0) :
    (solveRow size m x i).length = size ∧
      ∀ r, i ≤ r → r < size → pair size (cells m r) (unknowns size (solveRow size m x i)) = 0 := by
  have value : ∃ v, solveRow size m x i = x.set i v ∧ v = (cell m i size - Finset.sum (Finset.Ico (i + 1) size)
      fun j => cell m i j * x.getD j 0) / cell m i i := by
    refine ⟨_, rfl, ?_⟩
    rw [rowSum, show i + 1 + (size - (i + 1)) = size by omega]
  obtain ⟨v, is, worth⟩ := value
  have long : (x.set i v).length = size := by rw [List.length_set, width]
  have other (j : Nat) (apart : j ≠ i) : unknowns size (x.set i v) j = unknowns size x j := by
    simp [unknowns, List.getD_eq_getElem?_getD, Ne.symm apart]
  have own : unknowns size (x.set i v) i = v := by
    simp [unknowns, List.getD_eq_getElem?_getD, width, inside, inside.ne]
  refine ⟨is ▸ long, ?_⟩
  rw [is]
  refine Pivoting.backKills triangular inside (fun r past near => ?_) ?_
  · rw [← later r past near, pair, pair]
    refine Finset.sum_congr rfl fun j _ => ?_
    by_cases here : j = i
    · rw [here, triangular.below i inside r near past, zero_mul, zero_mul]
    · rw [other j here]
  · have last : unknowns size (x.set i v) size = -1 := if_pos rfl
    have sums : Finset.sum (Finset.Ico (i + 1) size) (fun j => cells m i j * unknowns size (x.set i v) j) =
        Finset.sum (Finset.Ico (i + 1) size) fun j => cell m i j * x.getD j 0 := by
      refine Finset.sum_congr rfl fun j mem => ?_
      obtain ⟨past, near⟩ := Finset.mem_Ico.mp mem
      rw [other j (by omega), unknowns, if_neg near.ne]
      rfl
    rw [own, last, sums, worth, mul_neg_one, neg_neg]
    rfl

omit [LinearOrder K] [IsStrictOrderedRing K] in
theorem solvedUp (triangular : Triangular size size (cells m)) {count : Nat} (within : count ≤ size) {x : List K}
    (width : x.length = size) (later : ∀ r, count ≤ r → r < size → pair size (cells m r) (unknowns size x) = 0) :
    ((List.range count).reverse.foldl (solveRow size m) x).length = size ∧
      Kills size (cells m) (unknowns size ((List.range count).reverse.foldl (solveRow size m) x)) := by
  induction count generalizing x with
  | zero => exact ⟨width, fun r near => later r (Nat.zero_le r) near⟩
  | succ count ih =>
    obtain ⟨long, solved⟩ := solvedRow triangular width (show count < size by omega) fun r past near => later r past near
    rw [List.range_succ, List.reverse_append, List.reverse_singleton, List.singleton_append, List.foldl_cons]
    exact ih (by omega) long solved

/- A system whose kernel is trivial is solved. -/
theorem systemSolved (shaped : Shaped size m) (trivial : ∀ x, Kills size (cells m) x → x size = 0 → ∀ c < size, x c = 0) :
    ∃ x, solveRealSystem size m = .ok x ∧ x.length = size ∧ Kills size (cells m) (unknowns size x) := by
  obtain ⟨m', ran, _, triangular, same⟩ := sweepGoes shaped trivial le_rfl
  obtain ⟨width, kills⟩ := solvedUp triangular le_rfl (List.length_replicate (n := size) (a := (0 : K)))
    fun r least near => absurd near (by omega)
  refine ⟨_, ?_, width, (same _).mp kills⟩
  simp only [solveRealSystem, ran, bind, Except.bind]
  rfl

end Cells

/-! What the operations mean in the ring. -/
section Meaning
variable {K : Type} [Field K] {degree : Nat} {a b c : List K}

theorem adjointMeaning (positive : 0 < degree) (ok : hermitianAdjoint degree a = .ok b) :
    b.length = degree ∧ element degree b = Adjoint.inverted positive (element degree a) := by
  simp only [hermitianAdjoint, bind_ok, pure_ok] at ok
  obtain ⟨aa, sized, rfl⟩ := ok
  obtain ⟨width, same⟩ := canonicalSizeMeaning sized
  rw [← same]
  exact ⟨by simp [adjointList], Adjoint.elementAdjoint positive width⟩

theorem adjointTotal (short : a.length ≤ degree) : ∃ b, hermitianAdjoint degree a = .ok b := by
  obtain ⟨aa, sized⟩ := canonicalSizeTotal realTooLong short
  exact ⟨_, by simp only [hermitianAdjoint, bind_ok, pure_ok]; exact ⟨aa, sized, rfl⟩⟩

theorem splitMeaning {half : Nat} (positive : 0 < half) (width : a.length = 2 * half) :
    ∃ e o, split a = .ok (e, o) ∧ e.length = half ∧ o.length = half ∧
      element (2 * half) a = Halving.spread half (element half e) + AdjoinRoot.root _ * Halving.spread half (element half o) := by
  have fine : ¬(a = [] ∨ a.length % 2 ≠ 0) := by
    rintro (none_ | odd)
    · simp [none_] at width
      omega
    · omega
  have middle : a.length / 2 = half := by omega
  refine ⟨_, _, ?_, ?_, ?_, Adjoint.elementMerged width (e := (List.range half).map fun i => a.getD (2 * i) 0)
    (o := (List.range half).map fun i => a.getD (2 * i + 1) 0) (by simp) (by simp) (fun i inside => ?_) fun i inside => ?_⟩
  · rw [split, throwIf_not fine, middle]
    rfl
  · simp
  · simp
  · simp [List.getD_eq_getElem?_getD, inside]
  · simp [List.getD_eq_getElem?_getD, inside]

/- The system of a division, with the multiples of the divisor by the powers as its columns. -/
theorem divisionKills {image : Nat → List K} (positive : 0 < degree) (widthA : a.length = degree)
    (meaning : ∀ c < degree, (image c).length = degree ∧ element degree (image c) = element degree b * AdjoinRoot.root _ ^ c)
    {m : RealMatrix K} (column : ∀ r < degree, ∀ c < degree, cell m r c = (image c).getD r 0)
    (last : ∀ r < degree, cell m r degree = a.getD r 0) (x : Nat → K) :
    Kills degree (cells m) x ↔
      element degree b * element degree ((List.range degree).map x) = AdjoinRoot.of _ (-x degree) * element degree a := by
  have row (r : Nat) (near : r < degree) : pair degree (cells m r) x =
      Finset.sum (Finset.range degree) (fun c => (image c).getD r 0 * x c) + a.getD r 0 * x degree := by
    rw [pair, Finset.sum_range_succ]
    refine congrArg₂ (· + ·) (Finset.sum_congr rfl fun c mem => ?_) (congrArg (· * x degree) (last r near))
    exact congrArg (· * x c) (column r near c (Finset.mem_range.mp mem))
  have product : element degree b * element degree ((List.range degree).map x) = element degree
      ((List.range degree).map fun r => Finset.sum (Finset.range degree) fun c => (image c).getD r 0 * x c) := by
    rw [elementSum, elementSum, Finset.mul_sum]
    simp only [map_sum, Finset.sum_mul]
    rw [Finset.sum_comm]
    refine Finset.sum_congr rfl fun c mem => ?_
    obtain ⟨width, worth⟩ := meaning c (Finset.mem_range.mp mem)
    rw [elementTerms width] at worth
    rw [mul_left_comm, ← worth, Finset.mul_sum]
    refine Finset.sum_congr rfl fun r _ => ?_
    rw [map_mul]
    ring
  have scaled : AdjoinRoot.of (Polynomial.X ^ degree + 1 : Polynomial K) (-x degree) * element degree a =
      element degree ((List.range degree).map fun r => -x degree * a.getD r 0) := by
    rw [elementSum, elementTerms widthA, Finset.mul_sum]
    exact Finset.sum_congr rfl fun r _ => by rw [map_mul, mul_assoc]
  rw [product, scaled]
  constructor
  · intro kills
    refine congrArg _ (List.map_congr_left fun r mem => ?_)
    have near := List.mem_range.mp mem
    have zero := kills r near
    rw [row r near] at zero
    linear_combination zero
  · intro same r near
    have lists := elementInj positive (by simp) (by simp) same
    have entry := congrArg (fun l => l[r]?) lists
    simp only [List.getElem?_map, List.getElem?_range near, Option.map_some, Option.some.injEq] at entry
    rw [row r near, entry]
    ring

variable [LinearOrder K] [IsStrictOrderedRing K]

/- The system of a division is solved where the divisor divides nothing but zero into zero. -/
theorem divisionSolved {image : Nat → List K} (positive : 0 < degree) (widthA : a.length = degree)
    (meaning : ∀ c < degree, (image c).length = degree ∧ element degree (image c) = element degree b * AdjoinRoot.root _ ^ c)
    {m : RealMatrix K} (shaped : Shaped degree m) (column : ∀ r < degree, ∀ c < degree, cell m r c = (image c).getD r 0)
    (last : ∀ r < degree, cell m r degree = a.getD r 0) (cancels : ∀ w, element degree b * w = 0 → w = 0) :
    ∃ e, solveRealSystem degree m = .ok e ∧ e.length = degree ∧ element degree e * element degree b = element degree a := by
  have kills := divisionKills positive widthA meaning column last
  have trivial : ∀ x, Kills degree (cells m) x → x degree = 0 → ∀ c < degree, x c = 0 := by
    intro x solves zero c inside
    have product := (kills x).mp solves
    rw [zero, neg_zero, map_zero, zero_mul] at product
    have none_ : element degree ((List.range degree).map x) = element degree (List.replicate degree (0 : K)) := by
      rw [cancels _ product, Coefficients.elementZeros]
    have entry := congrArg (fun l => l[c]?) (elementInj positive (by simp) (by simp) none_)
    simpa [inside] using entry
  obtain ⟨e, solved, width, solves⟩ := systemSolved shaped trivial
  have product := (kills _).mp solves
  have minusOne : unknowns degree e degree = -1 := if_pos rfl
  have front : (List.range degree).map (unknowns degree e) = e := by
    conv_rhs => rw [Coefficients.listed width]
    exact List.map_congr_left fun i mem => if_neg (List.mem_range.mp mem).ne
  rw [minusOne, neg_neg, map_one, one_mul, front] at product
  exact ⟨e, solved, width, by rw [mul_comm, product]⟩

/- A divisor that divides nothing but zero into zero has every quotient. -/
theorem divMeaning (positive : 0 < degree) (shortA : a.length ≤ degree) (shortB : b.length ≤ degree)
    (cancels : ∀ w, element degree b * w = 0 → w = 0) :
    ∃ e, div degree a b = .ok e ∧ e.length = degree ∧ element degree e * element degree b = element degree a := by
  obtain ⟨aa, sizedA⟩ := canonicalSizeTotal realTooLong shortA
  obtain ⟨bb, sizedB⟩ := canonicalSizeTotal realTooLong shortB
  obtain ⟨widthA, sameA⟩ := canonicalSizeMeaning sizedA
  obtain ⟨widthB, sameB⟩ := canonicalSizeMeaning sizedB
  have each (c : Nat) : ∃ column, mul degree bb ((List.replicate degree 0).set c 1) = .ok column :=
    exactMulTotal realTooLong widthB.le (by simp)
  choose image made using each
  have meaning : ∀ c < degree, (image c).length = degree ∧ element degree (image c) = element degree b * AdjoinRoot.root _ ^ c := by
    intro c inside
    obtain ⟨width, worth⟩ := exactMulMeaning (made c)
    exact ⟨width, by rw [worth, sameB, Coefficients.elementPower inside]⟩
  let m : RealMatrix K := (List.range degree).map fun row => ((List.range degree).map image).map (fun column => column.getD row 0) ++ [aa.getD row 0]
  have rowOf {r : Nat} (near : r < degree) :
      m.getD r [] = ((List.range degree).map image).map (fun column => column.getD r 0) ++ [aa.getD r 0] := by
    simp [m, List.getD_eq_getElem?_getD, near]
  have shaped : Shaped degree m := by
    refine ⟨by simp [m], fun row mem => ?_⟩
    obtain ⟨r, _, rfl⟩ := List.mem_map.mp mem
    simp
  have column : ∀ r < degree, ∀ c < degree, cell m r c = (image c).getD r 0 := by
    intro r near c inside
    rw [cell, rowOf near, List.getD_append _ _ _ _ (by simpa using inside)]
    simp [List.getD_eq_getElem?_getD, inside]
  have last : ∀ r < degree, cell m r degree = aa.getD r 0 := by
    intro r near
    rw [cell, rowOf near, List.getD_append_right _ _ _ _ (by simp)]
    simp
  obtain ⟨e, solved, width, product⟩ := divisionSolved positive widthA meaning shaped column last cancels
  refine ⟨e, ?_, width, by rw [product, sameA]⟩
  simp only [div, sizedA, sizedB, mapM_ok fun c _ => made c, bind, Except.bind]
  exact solved

end Meaning
end TradeP2P.Blns7933.RealRingArithmetic
