import TradeP2P.Blind.NearestPlane
import TradeP2P.Blind.Reduce

/-! The vector that all shifts at once are taken by, with the reals exact: the Gram matrix of the shifts, its elimination and the
rounding. The matrix is never singular, and where the run has settled no real multiple of `(f, g)` is further than half a unit
away in any coefficient from the pair that is returned. -/
namespace TradeP2P.Blns7933.RealRingArithmetic
open Checks
open Coefficients (Negacyclic element elementInj elementTerms)
open Adjoint (conjugation constantPair traceTurned traceMultiples)
open Elimination (Kills pair)
open Pivoting (Triangular)

section Definitions
variable {K : Type} [Field K] [LinearOrder K]

def gramSingular : Error := .logicError "global reducer Gram matrix is singular"

-- The entry under the pivot is set to zero, not computed.
def clearRow (col : Nat) (pivot row : List K) : List K :=
  if row.getD col 0 = 0 then row
  else
    let factor := row.getD col 0 / pivot.getD col 0
    row.mapIdx fun j v => if j = col then 0 else if col < j then v - factor * pivot.getD j 0 else v

def clearColumn (size : Nat) (m : RealMatrix K) (col : Nat) : Except Error (RealMatrix K) := do
  let (pivot, best) := choosePivot size m col
  throwIf (best = 0) gramSingular
  let m := if pivot ≠ col then swapRows m pivot col else m
  return m.mapIdx fun row values => if col < row then clearRow col (m.getD col []) values else values

def backRow (size : Nat) (m : RealMatrix K) (x : List K) (i : Nat) : Except Error (List K) := do
  throwIf (cell m i i = 0) (.logicError "global reducer encountered zero back-substitution pivot")
  return solveRow size m x i

def solveGramSystem (size : Nat) (m : RealMatrix K) : Except Error (List K) := do
  let m ← (List.range size).foldlM (clearColumn size) m
  (List.range size).reverse.foldlM (backRow size m) (List.replicate size 0)

def shiftBasis (degree : Nat) (a : ZPoly) : Except Error (List ZPoly) := (List.range degree).mapM fun shift => negacyclicShift a shift degree

-- Only the upper triangle is computed; what is below it is copied.
def gramEntry (sf sg : List ZPoly) (i j : Nat) : Except Error Int :=
  pairDot (sf.getD (min i j) []) (sg.getD (min i j) []) (sf.getD (max i j) []) (sg.getD (max i j) [])

def projected (K : Type) [Field K] [LinearOrder K] (degree : Nat) (ff gg : ZPoly) (out : NTRUSolution) : Except Error (List K) := do
  let sf ← shiftBasis degree ff
  let sg ← shiftBasis degree gg
  let gram ← (List.range degree).mapM fun i => (List.range degree).mapM (gramEntry sf sg i)
  let rhs ← (List.range degree).mapM fun i => pairDot (sf.getD i []) (sg.getD i []) out.capF out.capG
  solveGramSystem degree ((List.range degree).map fun i => toReal (gram.getD i []) ++ [((rhs.getD i 0 : Int) : K)])

def exactSolver (K : Type) [Field K] [LinearOrder K] [FloorRing K] (degree : Nat) (ff gg : ZPoly) : RealSolver := fun out => do
  let x ← projected K degree ff gg out
  return fun i => roundReal (x.getD i 0)

end Definitions

/-! The elimination is that of a division, but for its texts and for the entries it does not compute. -/
section Solving
variable {K : Type} [Field K] [LinearOrder K] {size : Nat} {m m' : RealMatrix K}

theorem clearRowSame {col : Nat} {pivot : List K} (some_ : pivot.getD col 0 ≠ 0) (row : List K) : clearRow col pivot row = reduceRow col pivot row := by
  unfold clearRow reduceRow
  dsimp only
  by_cases zero : row.getD col 0 = 0
  · rw [if_pos zero, if_pos (by rw [zero, zero_div])]
  · rw [if_neg zero, if_neg (div_ne_zero zero some_)]
    refine List.ext_getElem (by simp) fun j left right => ?_
    have inside : j < row.length := by simpa using left
    simp only [List.getElem_mapIdx]
    by_cases here : j = col
    · subst here
      rw [if_pos rfl, if_pos le_rfl, div_mul_cancel₀ _ some_]
      exact (sub_eq_zero.mpr (List.getD_eq_getElem row 0 inside).symm).symm
    · rw [if_neg here]
      exact if_congr (by omega) rfl rfl

variable [IsStrictOrderedRing K]

theorem clearColumnSame (shaped : Shaped size m) {col : Nat} (inside : col < size) (ran : eliminateColumn size m col = .ok m') :
    clearColumn size m col = .ok m' := by
  have chosen : Chosen m col (size - (col + 1)) (choosePivot size m col) := chosenAmong m col _
  obtain ⟨lower, upper, best, _⟩ := chosen
  simp only [eliminateColumn, check_ok, throwIf_ok, pure_ok] at ran
  obtain ⟨some_, rfl⟩ := ran
  have entry : cell m (choosePivot size m col).1 col ≠ 0 := fun zero => some_ (by rw [best, zero, realAbsValue, abs_zero])
  have pivot : ((if (choosePivot size m col).1 ≠ col then swapRows m (choosePivot size m col).1 col else m).getD col []).getD col 0 ≠ 0 := by
    by_cases same : (choosePivot size m col).1 = col
    · rw [if_neg (not_not.mpr same)]
      rw [same] at entry
      exact entry
    · rw [if_pos same]
      have swaps := congrFun (congrFun (swappedCells shaped (show (choosePivot size m col).1 < size by omega) inside).2 col) col
      rw [Elimination.swapped, if_pos rfl] at swaps
      exact fun zero => entry (swaps.symm.trans zero)
  simp only [clearColumn, throwIf_not some_, bind, Except.bind, clearRowSame pivot]
  rfl

theorem clearSame (shaped : Shaped size m) (trivial : ∀ x, Kills size (cells m) x → x size = 0 → ∀ c < size, x c = 0) {count : Nat}
    (within : count ≤ size) (ran : (List.range count).foldlM (eliminateColumn size) m = .ok m') :
    (List.range count).foldlM (clearColumn size) m = .ok m' := by
  induction count generalizing m' with
  | zero => exact ran
  | succ count ih =>
    obtain ⟨m1, before, shaped1, _⟩ := sweepGoes shaped trivial (show count ≤ size by omega)
    rw [List.range_succ, List.foldlM_append, before] at ran
    rw [List.range_succ, List.foldlM_append, ih (by omega) before]
    have step : eliminateColumn size m1 count = .ok m' := (bind_pure _).symm.trans ran
    exact (bind_pure _).trans (clearColumnSame shaped1 (by omega) step)

omit [IsStrictOrderedRing K] in
theorem backSame (triangular : Triangular size size (cells m)) {rows : List Nat} (inside : ∀ i ∈ rows, i < size) (x : List K) :
    rows.foldlM (backRow size m) x = .ok (rows.foldl (solveRow size m) x) := by
  induction rows generalizing x with
  | nil => rfl
  | cons i rest ih =>
    have diagonal : ¬cell m i i = 0 := triangular.diagonal i (inside i List.mem_cons_self)
    rw [List.foldlM_cons, backRow, throwIf_not diagonal]
    exact ih (fun j mem => inside j (List.mem_cons_of_mem i mem)) _

/- A system whose kernel is trivial is solved. -/
theorem gramSolved (shaped : Shaped size m) (trivial : ∀ x, Kills size (cells m) x → x size = 0 → ∀ c < size, x c = 0) :
    ∃ x, solveGramSystem size m = .ok x ∧ x.length = size ∧ Kills size (cells m) (unknowns size x) := by
  obtain ⟨m', ran, _, triangular, same⟩ := sweepGoes shaped trivial le_rfl
  obtain ⟨width, kills⟩ := solvedUp triangular le_rfl (List.length_replicate (n := size) (a := (0 : K)))
    fun r least near => absurd near (by omega)
  refine ⟨_, ?_, width, (same _).mp kills⟩
  rw [solveGramSystem, clearSame shaped trivial le_rfl ran]
  exact backSame triangular (fun i mem => List.mem_range.mp (List.mem_reverse.mp mem)) _

end Solving

/-! The system of the shifts. Its rows are the forms of the shifts against what a vector leaves of the pair. -/
section Shifts
variable {K : Type} [Field K] {degree : Nat} {ff gg : ZPoly} {q : Int} {s : NTRUSolution}

theorem realWidth {a : List Int} (width : a.length = degree) : (toReal a : List K).length = degree := by simpa [toReal] using width

theorem innerTraced (positive : 0 < degree) {a b : ZPoly} (widthA : a.length = degree) (widthB : b.length = degree) :
    ((innerProduct a b : Int) : K) =
      (conjugation K positive).trace (element degree (toReal a) * (conjugation K positive).adjoint (element degree (toReal b))) := by
  have entry (l : ZPoly) (i : Nat) : (toReal l : List K).getD i 0 = ((l.getD i 0 : Int) : K) := by
    rw [toReal, ← Int.cast_zero, List.getD_map]
  refine Eq.trans ?_ (constantPair positive (realWidth widthA) (realWidth widthB)).symm
  rw [innerSum, widthA, Int.cast_list_sum, List.map_map]
  refine congrArg List.sum (List.map_congr_left fun i _ => ?_)
  rw [Function.comp_apply, entry, entry, Int.cast_mul]

theorem basisMade {a : ZPoly} (width : a.length = degree) : ∃ basis, shiftBasis degree a = .ok basis ∧
    ∀ i < degree, (basis.getD i []).length = degree ∧
      element degree (toReal (basis.getD i []) : List K) = AdjoinRoot.root _ ^ i * element degree (toReal a) := by
  have each (i : Nat) : ∃ shifted, i < degree → negacyclicShift a i degree = .ok shifted ∧ shifted.length = degree ∧
      element degree shifted = AdjoinRoot.root _ ^ i * element degree a := by
    by_cases inside : i < degree
    · obtain ⟨shifted, made⟩ := shiftMeaning width inside
      exact ⟨shifted, fun _ => made⟩
    · exact ⟨[], fun near => absurd near inside⟩
  choose image made using each
  refine ⟨(List.range degree).map image, mapM_ok fun i mem => (made i (List.mem_range.mp mem)).1, fun i inside => ?_⟩
  have read : ((List.range degree).map image).getD i [] = image i := by simp [List.getD_eq_getElem?_getD, inside]
  obtain ⟨_, long, worth⟩ := made i inside
  rw [read]
  refine ⟨long, ?_⟩
  have mapped := Coefficients.elementExtended (Int.castRingHom K) degree (image i)
  have whole := Coefficients.elementExtended (Int.castRingHom K) degree a
  rw [worth, map_mul, map_pow, Coefficients.extendedRoot, ← whole] at mapped
  exact mapped

/- One form of two pairs, over the field. -/
noncomputable def pairing (positive : 0 < degree) (f g k h : Negacyclic K degree) : K :=
  (conjugation K positive).trace (f * (conjugation K positive).adjoint k) + (conjugation K positive).trace (g * (conjugation K positive).adjoint h)

theorem pairingTurned (positive : 0 < degree) (f g k h : Negacyclic K degree) : pairing positive f g k h = pairing positive k h f g := by
  rw [pairing, Forms.traceSwapped (traceTurned positive), Forms.traceSwapped (traceTurned positive) g]
  rfl

theorem pairDotMade (positive : 0 < degree) {a b c d : ZPoly} (widthA : a.length = degree) (widthB : b.length = degree)
    (widthC : c.length = degree) (widthD : d.length = degree) : ∃ v, pairDot a b c d = .ok v ∧
      (v : K) = pairing positive (element degree (toReal a)) (element degree (toReal b)) (element degree (toReal c)) (element degree (toReal d)) := by
  refine ⟨innerProduct a c + innerProduct b d, ?_, ?_⟩
  · simp only [pairDot, dot, throwIf_not (not_not.mpr (widthA.trans widthC.symm)), throwIf_not (not_not.mpr (widthB.trans widthD.symm)),
      bind, Except.bind]
    rfl
  · rw [Int.cast_add, innerTraced positive widthA widthC, innerTraced positive widthB widthD]
    rfl

/- The row of a shift: the form of the shift against what the vector and the pair add up to. -/
theorem rowMeaning (positive : 0 < degree) (f g k h : Negacyclic K degree) (i : Nat) (x : Nat → K) :
    Finset.sum (Finset.range degree) (fun j => pairing positive (AdjoinRoot.root _ ^ i * f) (AdjoinRoot.root _ ^ i * g)
      (AdjoinRoot.root _ ^ j * f) (AdjoinRoot.root _ ^ j * g) * x j) +
        pairing positive (AdjoinRoot.root _ ^ i * f) (AdjoinRoot.root _ ^ i * g) k h * x degree =
      pairing positive (AdjoinRoot.root _ ^ i * f) (AdjoinRoot.root _ ^ i * g)
        (element degree ((List.range degree).map x) * f + AdjoinRoot.of _ (x degree) * k)
        (element degree ((List.range degree).map x) * g + AdjoinRoot.of _ (x degree) * h) := by
  simp only [pairing, map_add, mul_add, traceMultiples, Adjoint.traceScaled, add_mul, Finset.sum_add_distrib, mul_comm (x _)]
  ring

variable [LinearOrder K]

theorem systemMeaning (positive : 0 < degree) (held : Held degree ff gg q s) : ∃ m : RealMatrix K,
    projected K degree ff gg s = solveGramSystem degree m ∧ Shaped degree m ∧ ∀ x, Kills degree (cells m) x ↔ ∀ i < degree,
      pairing positive (AdjoinRoot.root _ ^ i * element degree (toReal ff)) (AdjoinRoot.root _ ^ i * element degree (toReal gg))
        (element degree ((List.range degree).map x) * element degree (toReal ff) + AdjoinRoot.of _ (x degree) * element degree (toReal s.capF))
        (element degree ((List.range degree).map x) * element degree (toReal gg) + AdjoinRoot.of _ (x degree) * element degree (toReal s.capG)) = 0 := by
  obtain ⟨sf, madeF, shiftsF⟩ := basisMade (K := K) held.widthF
  obtain ⟨sg, madeG, shiftsG⟩ := basisMade (K := K) held.widthG
  have entry (i j : Nat) : ∃ v, i < degree → j < degree → gramEntry sf sg i j = .ok v ∧ (v : K) =
      pairing positive (AdjoinRoot.root _ ^ i * element degree (toReal ff)) (AdjoinRoot.root _ ^ i * element degree (toReal gg))
        (AdjoinRoot.root _ ^ j * element degree (toReal ff)) (AdjoinRoot.root _ ^ j * element degree (toReal gg)) := by
    by_cases both : i < degree ∧ j < degree
    · obtain ⟨insideI, insideJ⟩ := both
      obtain ⟨widthFI, isFI⟩ := shiftsF i insideI
      obtain ⟨widthFJ, isFJ⟩ := shiftsF j insideJ
      obtain ⟨widthGI, isGI⟩ := shiftsG i insideI
      obtain ⟨widthGJ, isGJ⟩ := shiftsG j insideJ
      rcases Nat.le_total i j with upper | lower
      · obtain ⟨v, made, worth⟩ := pairDotMade (K := K) positive widthFI widthGI widthFJ widthGJ
        rw [isFI, isGI, isFJ, isGJ] at worth
        exact ⟨v, fun _ _ => ⟨by rw [gramEntry, Nat.min_eq_left upper, Nat.max_eq_right upper, made], worth⟩⟩
      · obtain ⟨v, made, worth⟩ := pairDotMade (K := K) positive widthFJ widthGJ widthFI widthGI
        rw [isFI, isGI, isFJ, isGJ, pairingTurned] at worth
        exact ⟨v, fun _ _ => ⟨by rw [gramEntry, Nat.min_eq_right lower, Nat.max_eq_left lower, made], worth⟩⟩
    · exact ⟨0, fun insideI insideJ => absurd ⟨insideI, insideJ⟩ both⟩
  have side (i : Nat) : ∃ v, i < degree → pairDot (sf.getD i []) (sg.getD i []) s.capF s.capG = .ok v ∧ (v : K) =
      pairing positive (AdjoinRoot.root _ ^ i * element degree (toReal ff)) (AdjoinRoot.root _ ^ i * element degree (toReal gg))
        (element degree (toReal s.capF)) (element degree (toReal s.capG)) := by
    by_cases inside : i < degree
    · obtain ⟨widthF, isF⟩ := shiftsF i inside
      obtain ⟨widthG, isG⟩ := shiftsG i inside
      obtain ⟨v, made, worth⟩ := pairDotMade (K := K) positive widthF widthG held.sized.capF held.sized.capG
      rw [isF, isG] at worth
      exact ⟨v, fun _ => ⟨made, worth⟩⟩
    · exact ⟨0, fun near => absurd near inside⟩
  choose gram madeGram using entry
  choose rhs madeRhs using side
  let row (i : Nat) : List K := toReal ((List.range degree).map (gram i)) ++ [((rhs i : Int) : K)]
  have rowOf {i : Nat} (inside : i < degree) : ((List.range degree).map row).getD i [] = row i := by
    simp [List.getD_eq_getElem?_getD, inside]
  have wide (i : Nat) : (toReal ((List.range degree).map (gram i)) : List K).length = degree := by simp [toReal]
  refine ⟨(List.range degree).map row, ?_, ⟨by simp, fun values mem => ?_⟩, fun x => ?_⟩
  · have rows : (List.range degree).mapM (fun i => (List.range degree).mapM (gramEntry sf sg i)) =
        .ok ((List.range degree).map fun i => (List.range degree).map (gram i)) :=
      mapM_ok fun i memI => mapM_ok fun j memJ => (madeGram i j (List.mem_range.mp memI) (List.mem_range.mp memJ)).1
    have sides : (List.range degree).mapM (fun i => pairDot (sf.getD i []) (sg.getD i []) s.capF s.capG) = .ok ((List.range degree).map rhs) :=
      mapM_ok fun i mem => (madeRhs i (List.mem_range.mp mem)).1
    simp only [projected, madeF, madeG, rows, sides, bind, Except.bind]
    refine congrArg _ (List.map_congr_left fun i mem => ?_)
    have inside := List.mem_range.mp mem
    simp [row, List.getD_eq_getElem?_getD, inside]
  · obtain ⟨i, _, rfl⟩ := List.mem_map.mp mem
    simp [row, toReal]
  · refine forall₂_congr fun i inside => ?_
    rw [← rowMeaning, pair, Finset.sum_range_succ]
    have last : cells ((List.range degree).map row) i degree = ((rhs i : Int) : K) := by
      rw [cells, cell, rowOf inside, List.getD_append_right _ _ _ _ (wide i).le, wide, Nat.sub_self]
      rfl
    have cells : ∀ j ∈ Finset.range degree, cells ((List.range degree).map row) i j * x j = ((gram i j : Int) : K) * x j := by
      intro j mem
      have near := Finset.mem_range.mp mem
      rw [RealRingArithmetic.cells, cell, rowOf inside, List.getD_append _ _ _ _ (by rw [wide]; exact near)]
      simp [toReal, List.getD_eq_getElem?_getD, near]
    rw [last, Finset.sum_congr rfl cells, (madeRhs i inside).2]
    have sums : Finset.sum (Finset.range degree) (fun j => ((gram i j : Int) : K) * x j) = Finset.sum (Finset.range degree) fun j =>
        pairing positive (AdjoinRoot.root _ ^ i * element degree (toReal ff)) (AdjoinRoot.root _ ^ i * element degree (toReal gg))
          (AdjoinRoot.root _ ^ j * element degree (toReal ff)) (AdjoinRoot.root _ ^ j * element degree (toReal gg)) * x j :=
      Finset.sum_congr rfl fun j mem => by rw [(madeGram i j inside (Finset.mem_range.mp mem)).2]
    rw [sums]

omit [LinearOrder K] in
theorem pairingMultiples (positive : 0 < degree) (x : Nat → K) (f g k h : Negacyclic K degree) :
    pairing positive k h (element degree ((List.range degree).map x) * f) (element degree ((List.range degree).map x) * g) =
      Finset.sum (Finset.range degree) fun j => x j * pairing positive k h (AdjoinRoot.root _ ^ j * f) (AdjoinRoot.root _ ^ j * g) := by
  simp only [pairing, traceMultiples, mul_add, Finset.sum_add_distrib]

/- What is orthogonal to the shifts is orthogonal to every multiple. -/
omit [LinearOrder K] in
theorem shiftsOrthogonal (positive : 0 < degree) {f g k h : Negacyclic K degree}
    (shifts : ∀ i < degree, pairing positive (AdjoinRoot.root _ ^ i * f) (AdjoinRoot.root _ ^ i * g) k h = 0) (u : Negacyclic K degree) :
    pairing positive (u * f) (u * g) k h = 0 := by
  obtain ⟨a, width, rfl⟩ := Adjoint.elementSurjective positive u
  rw [Coefficients.listed width, pairingTurned, pairingMultiples]
  exact Finset.sum_eq_zero fun j mem => by rw [pairingTurned, shifts j (Finset.mem_range.mp mem), mul_zero]

omit [LinearOrder K] in
theorem heldReal (held : Held degree ff gg q s) : element degree (toReal ff : List K) * element degree (toReal s.capG) -
    element degree (toReal gg) * element degree (toReal s.capF) = AdjoinRoot.of _ (q : K) := by
  have solves := congrArg (Coefficients.extended (Int.castRingHom K) degree) held.solves
  rw [map_sub, map_mul, map_mul, ← Coefficients.elementExtended, ← Coefficients.elementExtended, ← Coefficients.elementExtended,
    ← Coefficients.elementExtended] at solves
  exact solves.trans (AdjoinRoot.lift_of _)

variable [IsStrictOrderedRing K]

/- Only the zero vector is orthogonal to all shifts, as long as the pair meets the relation. -/
theorem kernelTrivial (positive : 0 < degree) (some_ : q ≠ 0) (held : Held degree ff gg q s) {x : Nat → K} (none_ : x degree = 0)
    (kills : ∀ i < degree,
      pairing positive (AdjoinRoot.root _ ^ i * element degree (toReal ff)) (AdjoinRoot.root _ ^ i * element degree (toReal gg))
        (element degree ((List.range degree).map x) * element degree (toReal ff) + AdjoinRoot.of _ (x degree) * element degree (toReal s.capF))
        (element degree ((List.range degree).map x) * element degree (toReal gg) + AdjoinRoot.of _ (x degree) * element degree (toReal s.capG)) = 0) :
    ∀ c < degree, x c = 0 := by
  rw [none_, map_zero, zero_mul, zero_mul, add_zero, add_zero] at kills
  have flat := shiftsOrthogonal positive kills (element degree ((List.range degree).map x))
  rw [pairing] at flat
  have vanishes {a : Negacyclic K degree} (zero : (conjugation K positive).trace (a * (conjugation K positive).adjoint a) = 0) : a = 0 := by
    by_contra apart
    exact (Adjoint.definite positive a apart).ne' zero
  have nonneg (a : Negacyclic K degree) := Adjoint.traceSquare positive (element degree ((List.range degree).map x) * a)
  have first : element degree ((List.range degree).map x) * element degree (toReal ff) = 0 :=
    vanishes (le_antisymm (by linarith [nonneg (element degree (toReal gg))]) (nonneg _))
  have second : element degree ((List.range degree).map x) * element degree (toReal gg) = 0 :=
    vanishes (le_antisymm (by linarith [nonneg (element degree (toReal ff))]) (nonneg _))
  have none_ : element degree ((List.range degree).map x) = element degree (List.replicate degree (0 : K)) := by
    rw [Coefficients.elementZeros]
    refine constantCancels (Int.cast_ne_zero.mpr some_ : (q : K) ≠ 0) ?_
    rw [← heldReal held]
    linear_combination element degree (toReal s.capG) * first - element degree (toReal s.capF) * second
  intro c inside
  have entry := congrArg (fun l => l[c]?) (elementInj positive (by simp) (by simp) none_)
  simpa [inside] using entry

/- No real multiple of `(f, g)` is nearer to the pair than this one. -/
def Nearest (positive : 0 < degree) (ff gg : ZPoly) (s : NTRUSolution) (x : List K) : Prop := x.length = degree ∧ ∀ other : List K, other.length = degree →
  Forms.farness (conjugation K positive) (element degree (toReal ff)) (element degree (toReal gg)) (element degree (toReal s.capF))
    (element degree (toReal s.capG)) (element degree x) ≤
  Forms.farness (conjugation K positive) (element degree (toReal ff)) (element degree (toReal gg)) (element degree (toReal s.capF))
    (element degree (toReal s.capG)) (element degree other)

theorem projectedMeaning (positive : 0 < degree) (some_ : q ≠ 0) (held : Held degree ff gg q s) :
    ∃ x : List K, projected K degree ff gg s = .ok x ∧ Nearest positive ff gg s x := by
  obtain ⟨m, same, shaped, meaning⟩ := systemMeaning (K := K) positive held
  obtain ⟨x, solved, width, kills⟩ := gramSolved shaped fun x kills none_ => kernelTrivial positive some_ held none_ ((meaning x).mp kills)
  refine ⟨x, same.trans solved, width, fun other _ => ?_⟩
  have minusOne : unknowns degree x degree = -1 := if_pos rfl
  have front : (List.range degree).map (unknowns degree x) = x := by
    conv_rhs => rw [Coefficients.listed width]
    exact List.map_congr_left fun i mem => if_neg (List.mem_range.mp mem).ne
  have orthogonal := (meaning _).mp kills
  rw [minusOne, front] at orthogonal
  refine Forms.nearest (traceTurned positive) (Adjoint.traceSquare positive) (fun u => ?_) _
  have flat := shiftsOrthogonal positive orthogonal u
  have turned (k f : Negacyclic K degree) : element degree x * f + AdjoinRoot.of _ (-1) * k = -(k - element degree x * f) := by
    rw [map_neg, map_one]
    ring
  rw [turned, turned, pairing, map_neg, map_neg, mul_neg, mul_neg, map_neg, map_neg] at flat
  linarith

end Shifts

/-! The run. -/
section Rounds
variable {K : Type} [Field K] [LinearOrder K] [IsStrictOrderedRing K] [FloorRing K] {reducer : NTRUGlobalBabaiReducer} {ff gg : ZPoly}

theorem roundsSmall {c : K} (zero : roundReal c = 0) : |c| < 1 / (2 : Nat) := by
  rw [Nat.cast_ofNat]
  unfold roundReal at zero
  rw [abs_lt]
  split at zero
  next positive =>
    have above := (Int.floor_eq_iff.mp zero).2
    rw [Int.cast_zero] at above
    constructor <;> linarith
  next negative =>
    have below := (Int.ceil_eq_iff.mp zero).1
    rw [Int.cast_zero] at below
    constructor <;> linarith

theorem powerPositive (reducer : NTRUGlobalBabaiReducer) : 0 < reducer.degree := isPowerOfTwoPositive reducer.powerOfTwo

/- The nearest multiple is less than half a unit in every coefficient. -/
def Settled (K : Type) [Field K] [LinearOrder K] {degree : Nat} (positive : 0 < degree) (ff gg : ZPoly) (s : NTRUSolution) : Prop :=
  ∃ x : List K, Nearest positive ff gg s x ∧ ∀ c ∈ x, |c| < 1 / (2 : Nat)

theorem roundsNearest (left : Nat) {now : NTRUGlobalBabaiReducer.Progress} (held : Held reducer.degree ff gg reducer.q now.out) :
    ∃ last, reducer.reduceRounds (exactSolver K reducer.degree ff gg) ff gg left now = .ok last ∧
      Held reducer.degree ff gg reducer.q last.out ∧ last.out.norm + last.acceptedRounds ≤ now.out.norm + now.acceptedRounds ∧
      last.roundsAttempted ≤ now.roundsAttempted + left ∧
      (last.converged = true → now.converged = true ∨ Settled K (powerPositive reducer) ff gg last.out) := by
  induction left generalizing now with
  | zero => exact ⟨now, rfl, held, le_rfl, le_rfl, .inl⟩
  | succ left ih =>
    obtain ⟨x, made, nearest⟩ := projectedMeaning (K := K) (powerPositive reducer) reducer.positive.ne' held
    have proposed : exactSolver K reducer.degree ff gg now.out = .ok fun i => roundReal (x.getD i 0) := by
      rw [exactSolver, made]
      rfl
    rcases NTRUGlobalBabaiReducer.roundMeaning _ left held proposed with ⟨zero, round⟩ | ⟨next, held', round⟩
    · refine ⟨_, round, held, le_rfl, by simp, fun _ => .inr ⟨x, nearest, fun c mem => ?_⟩⟩
      obtain ⟨i, inside, rfl⟩ := List.getElem_of_mem mem
      have each := List.all_eq_true.mp zero (roundReal (x.getD i 0)) (List.mem_map.mpr ⟨i, List.mem_range.mpr (nearest.1 ▸ inside), rfl⟩)
      rw [List.getD_eq_getElem _ _ inside] at each
      exact roundsSmall (of_decide_eq_true each)
    · rw [round]
      by_cases grown : next.norm ≥ now.out.norm
      · exact ⟨_, if_pos grown, held, le_rfl, by simp, .inl⟩
      · obtain ⟨last, ran, kept, shorter, few, settled⟩ := @ih ⟨next, now.roundsAttempted + 1, now.acceptedRounds + 1, now.converged,
          now.stoppedNonDecreasing⟩ held'
        refine ⟨last, (if_neg grown).trans ran, kept, ?_, ?_, settled⟩
        · have less := not_le.mp grown
          push_cast at shorter
          linarith
        · exact few.trans (by simp only; omega)

/- What a run of the reducer starts from and comes to. -/
theorem exactReduced (reducer : NTRUGlobalBabaiReducer) {f g : ZPoly} {input : NTRUSolution}
    (related : verifyNtruRelationExact f g input.capF input.capG reducer.q reducer.degree = .ok true) :
    ∃ (ff gg : ZPoly) (start : NTRUSolution) (last : NTRUGlobalBabaiReducer.Progress),
      IntegerRing.size reducer.degree f = .ok ff ∧ IntegerRing.size reducer.degree g = .ok gg ∧
      IntegerRing.size reducer.degree input.capF = .ok start.capF ∧ IntegerRing.size reducer.degree input.capG = .ok start.capG ∧
      reducer.reduce (exactSolver K reducer.degree ff gg) f g input = .ok (last.out, ⟨last.roundsAttempted, last.acceptedRounds, start.norm,
        last.out.norm, NTRUBasisReducer.maxBits start, NTRUBasisReducer.maxBits last.out, last.converged, last.stoppedNonDecreasing⟩) ∧
      verifyNtruRelationExact f g last.out.capF last.out.capG reducer.q reducer.degree = .ok true ∧
      last.out.norm + last.acceptedRounds ≤ start.norm ∧ last.roundsAttempted ≤ reducer.maxRounds ∧
      (last.converged = true → Settled K (powerPositive reducer) ff gg last.out) := by
  obtain ⟨ff, gg, capF, capG, sizeF, sizeG, sizeCapF, sizeCapG, held, returns⟩ := startHeld reducer.powerOfTwo related
  obtain ⟨last, ran, kept, shorter, few, settled⟩ := @roundsNearest K _ _ _ _ reducer ff gg reducer.maxRounds ⟨⟨capF, capG⟩, 0, 0, false, false⟩ held
  refine ⟨ff, gg, ⟨capF, capG⟩, last, sizeF, sizeG, sizeCapF, sizeCapG, ?_, returns _ kept, by simpa using shorter, by simpa using few,
    fun converged => ?_⟩
  · simp only [NTRUGlobalBabaiReducer.reduce, IntegerRing.make, throwIf_not (powerPositive reducer).ne', sizeF, sizeG, sizeCapF, sizeCapG,
      verifyHeld reducer.powerOfTwo held, squaredNormOk held.sized, ran, verifyHeld reducer.powerOfTwo kept, squaredNormOk kept.sized, bind, Except.bind]
    rfl
  · rcases settled converged with never | rests
    · cases never
    · exact rests

/- With the reals exact the reducer never throws, each round it takes shortens the pair, and where it says that it has converged the
pair that it returns has no real multiple of `(f, g)` left in it of half a unit or more. -/
theorem globalReductionSettles (K : Type) [Field K] [LinearOrder K] [IsStrictOrderedRing K] [FloorRing K] (reducer : NTRUGlobalBabaiReducer)
    (f g : ZPoly) (input : NTRUSolution) (related : verifyNtruRelationExact f g input.capF input.capG reducer.q reducer.degree = .ok true) :
    ∃ (ff gg : ZPoly) (start out : NTRUSolution) (diagnostics : NTRUGlobalReductionDiagnostics),
      IntegerRing.size reducer.degree f = .ok ff ∧ IntegerRing.size reducer.degree g = .ok gg ∧
      IntegerRing.size reducer.degree input.capF = .ok start.capF ∧ IntegerRing.size reducer.degree input.capG = .ok start.capG ∧
      reducer.reduce (exactSolver K reducer.degree ff gg) f g input = .ok (out, diagnostics) ∧
      verifyNtruRelationExact f g out.capF out.capG reducer.q reducer.degree = .ok true ∧
      diagnostics.initialSquaredNorm = start.norm ∧ diagnostics.finalSquaredNorm = out.norm ∧
      out.norm + diagnostics.acceptedRounds ≤ start.norm ∧ diagnostics.roundsAttempted ≤ reducer.maxRounds ∧
      (diagnostics.converged = true → Settled K (powerPositive reducer) ff gg out) := by
  obtain ⟨ff, gg, start, last, sizeF, sizeG, sizeCapF, sizeCapG, ran, solves, shorter, few, settled⟩ := exactReduced (K := K) reducer related
  exact ⟨ff, gg, start, last.out, _, sizeF, sizeG, sizeCapF, sizeCapG, ran, solves, rfl, rfl, shorter, few, settled⟩

end Rounds

/- The small trapdoor again. -/
def smallReducer : NTRUGlobalBabaiReducer where
  degree := 2
  q := 5
  maxRounds := 8
  powerOfTwo := by decide
  positive := by decide
  rounds := by decide

theorem smallSettles : ∃ out diagnostics, smallReducer.reduce (exactSolver ℚ 2 [1, 1] [1, 0]) [1, 1] [1, 0] ⟨[-4, 1], [1, 0]⟩ = .ok (out, diagnostics) ∧
    verifyNtruRelationExact [1, 1] [1, 0] out.capF out.capG 5 2 = .ok true := by
  obtain ⟨ff, gg, _, out, diagnostics, sizeF, sizeG, _, _, ran, related, _⟩ :=
    globalReductionSettles ℚ smallReducer [1, 1] [1, 0] ⟨[-4, 1], [1, 0]⟩ (by decide +kernel)
  cases sizeF
  cases sizeG
  exact ⟨out, diagnostics, ran, related⟩

end TradeP2P.Blns7933.RealRingArithmetic
