import TradeP2P.Blind.Ring
import TradeP2P.Lib.Elimination
import Mathlib.Algebra.Field.ZMod

/-! Inversion finds what there is to find. The elimination runs over a field when the modulus is a prime; it
gets stuck on a column only where the multiplication has a kernel. -/
namespace TradeP2P.Blns7933
open Checks
open Coefficients (Negacyclic element elementInj elementSum)
open Elimination (Cells Cleared Kills pair setRow)

/-! Euclid against the modulus. The two coefficients keep opposite signs, and the cross sums of coefficients
and remainders stay the modulus; so none of them outgrows it. -/

structure Euclid (q : Nat) (a t newT r newR : Int) : Prop where
  left : ((t * a : Int) : ZMod q) = r
  right : ((newT * a : Int) : ZMod q) = newR
  positive : 0 < r
  nonneg : 0 ≤ newR
  coprime : Int.gcd r newR = 1
  signs : t * newT ≤ 0
  sum : r * |newT| + newR * |t| = q
  bounds : r ≤ q ∧ newR ≤ q

namespace Euclid
variable {q : Nat} {a t newT r newR : Int}

theorem remainder (euclid : Euclid q a t newT r newR) : r - r.tdiv newR * newR = r % newR := by
  have whole := Int.mul_ediv_add_emod r newR
  rw [Int.tdiv_eq_ediv_of_nonneg euclid.positive.le, mul_comm]
  omega

theorem quotientNonneg (euclid : Euclid q a t newT r newR) : 0 ≤ r.tdiv newR := by
  rw [Int.tdiv_eq_ediv_of_nonneg euclid.positive.le]
  exact Int.ediv_nonneg euclid.positive.le euclid.nonneg

/- Opposite signs add up. -/
theorem nextSize (euclid : Euclid q a t newT r newR) : |t - r.tdiv newR * newT| = |t| + r.tdiv newR * |newT| := by
  have quotient := euclid.quotientNonneg
  rcases le_total 0 newT with up | down
  · rcases up.eq_or_lt with zero | up
    · rw [← zero]
      simp
    · have low : t ≤ 0 := by
        by_contra high
        have := mul_pos (not_le.mp high) up
        linarith [euclid.signs]
      have slope := mul_nonneg quotient up.le
      rw [abs_of_nonpos low, abs_of_pos up, abs_of_nonpos (by linarith)]
      ring
  · rcases down.eq_or_lt with zero | down
    · rw [zero]
      simp
    · have high : 0 ≤ t := by
        by_contra low
        have := mul_pos_of_neg_of_neg (not_le.mp low) down
        linarith [euclid.signs]
      have slope := mul_nonpos_of_nonneg_of_nonpos quotient down.le
      rw [abs_of_nonneg high, abs_of_neg down, abs_of_nonneg (by linarith)]
      ring

theorem next (euclid : Euclid q a t newT r newR) (more : newR ≠ 0) :
    Euclid q a newT (t - r.tdiv newR * newT) newR (r - r.tdiv newR * newR) := by
  have quotient := euclid.quotientNonneg
  have rest := euclid.remainder
  have positive : 0 < newR := lt_of_le_of_ne euclid.nonneg (Ne.symm more)
  refine ⟨euclid.right, ?_, positive, ?_, ?_, ?_, ?_, euclid.bounds.2, ?_⟩
  · have left := euclid.left
    have right := euclid.right
    push_cast at left right ⊢
    linear_combination left - (r.tdiv newR : ZMod q) * right
  · rw [rest]
    exact Int.emod_nonneg r more
  · rw [rest, Int.gcd_comm, Int.gcd_emod]
    exact euclid.coprime
  · have signs := euclid.signs
    nlinarith [mul_nonneg quotient (mul_self_nonneg newT)]
  · have sum := euclid.sum
    rw [euclid.nextSize]
    linarith [mul_add newR |t| (r.tdiv newR * |newT|), mul_comm newR (r.tdiv newR * |newT|)]
  · have less := Int.emod_lt_of_pos r positive
    have below := euclid.bounds.2
    omega

end Euclid

theorem loopInverse {q : Nat} {a : Int} (rounds : Nat) {t newT r newR : Int} (euclid : Euclid q a t newT r newR) (enough : newR < rounds) :
    ∃ inv, scalarInverseLoop rounds t newT r newR = some inv ∧ ((inv * a : Int) : ZMod q) = 1 := by
  induction rounds generalizing t newT r newR with
  | zero => exact absurd enough (not_lt.mpr euclid.nonneg)
  | succ rounds ih =>
      by_cases last : newR = 0
      · have coprime := euclid.coprime
        have positive := euclid.positive
        rw [last, Int.gcd_zero_right] at coprime
        have one : r = 1 := by omega
        refine ⟨t, by rw [scalarInverseLoop, if_pos last, if_pos one], ?_⟩
        rw [euclid.left, one, Int.cast_one]
      · have less := Int.emod_lt_of_pos r (lt_of_le_of_ne euclid.nonneg (Ne.symm last))
        have next := euclid.next last
        rw [scalarInverseLoop, if_neg last]
        refine ih next ?_
        rw [euclid.remainder]
        push_cast at enough
        omega

theorem startEuclid {q : Nat} (prime : q.Prime) {a : Int} (positive : 0 < a) (small : a < q) : Euclid q a 0 1 q a := by
  refine ⟨by simp, by simp, by exact_mod_cast prime.pos, positive.le, ?_, by simp, by simp, le_rfl, small.le⟩
  have apart : ¬q ∣ a.natAbs := fun divides => by
    have := Nat.le_of_dvd (by omega) divides
    omega
  rw [Int.gcd_def, Int.natAbs_natCast]
  exact (prime.coprime_iff_not_dvd.mpr apart)

theorem scalarInverseMeaning {q : Nat} (prime : q.Prime) {a : Int} (positive : 0 < a) (small : a < q) :
    ∃ inv, scalarInverse a q = some inv ∧ (inv : ZMod q) * (a : ZMod q) = 1 := by
  have same : scalarMod a q = a := by rw [scalarModEmod prime.pos, Int.emod_eq_of_lt positive.le small]
  obtain ⟨inv, found, inverts⟩ := loopInverse (q + 1) (startEuclid prime positive small) (by push_cast; omega)
  refine ⟨scalarMod inv q, by rw [scalarInverse, same, found]; rfl, ?_⟩
  rw [scalarModEmod prime.pos, ZMod.intCast_mod, ← Int.cast_mul]
  exact inverts

/-! The matrix as cells over the field. -/
section Cells
variable {ring : RingArithmetic} {m : RingArithmetic.Matrix}

def Reduced (ring : RingArithmetic) (v : Int) : Prop := 0 ≤ v ∧ v < ring.modulus

structure Shaped (ring : RingArithmetic) (m : RingArithmetic.Matrix) : Prop where
  height : m.length = ring.degree
  width : ∀ row ∈ m, row.length = ring.degree + 1
  reduced : ∀ row ∈ m, ∀ v ∈ row, Reduced ring v

def cells (ring : RingArithmetic) (m : RingArithmetic.Matrix) : Cells (ZMod ring.modulus) :=
  fun r j => (RingArithmetic.entry m r j : ZMod ring.modulus)

theorem zeroReduced : Reduced ring 0 := ⟨le_rfl, by have := ring.large; omega⟩

theorem reducedZero {v : Int} (reduced : Reduced ring v) : (v : ZMod ring.modulus) = 0 ↔ v = 0 := by
  rw [ZMod.intCast_zmod_eq_zero_iff_dvd]
  refine ⟨fun divides => ?_, fun zero => zero ▸ dvd_zero _⟩
  exact Int.eq_zero_of_dvd_of_nonneg_of_lt reduced.1 reduced.2 divides

theorem getDReduced {row : List Int} (reduced : ∀ v ∈ row, Reduced ring v) (j : Nat) : Reduced ring (row.getD j 0) := by
  by_cases inside : j < row.length
  · rw [List.getD_eq_getElem _ _ inside]
    exact reduced _ (List.getElem_mem inside)
  · rw [List.getD_eq_default _ _ (by omega)]
    exact zeroReduced

theorem Shaped.rowMem (shaped : Shaped ring m) {r : Nat} (inside : r < ring.degree) : m.getD r [] ∈ m := by
  rw [List.getD_eq_getElem _ _ (by rw [shaped.height]; exact inside)]
  exact List.getElem_mem _

theorem Shaped.entryReduced (shaped : Shaped ring m) (r j : Nat) : Reduced ring (RingArithmetic.entry m r j) := by
  by_cases inside : r < ring.degree
  · exact getDReduced (shaped.reduced _ (shaped.rowMem inside)) j
  · rw [RingArithmetic.entry, List.getD_eq_default m _ (by rw [shaped.height]; omega), List.getD_nil]
    exact zeroReduced

theorem Shaped.cellZero (shaped : Shaped ring m) (r j : Nat) : cells ring m r j = 0 ↔ RingArithmetic.entry m r j = 0 :=
  reducedZero (shaped.entryReduced r j)

/- Rows put in place of others. -/
theorem Shaped.set (shaped : Shaped ring m) (k : Nat) {row : List Int} (width : row.length = ring.degree + 1)
    (reduced : ∀ v ∈ row, Reduced ring v) : Shaped ring (m.set k row) := by
  refine ⟨by rw [List.length_set, shaped.height], fun other mem => ?_, fun other mem => ?_⟩
  · rcases List.mem_or_eq_of_mem_set mem with old | rfl
    · exact shaped.width other old
    · exact width
  · rcases List.mem_or_eq_of_mem_set mem with old | rfl
    · exact shaped.reduced other old
    · exact reduced

theorem scaleRowEntry (factor : Int) (from_ : Nat) (row : List Int) (j : Nat) :
    (ring.scaleRow factor from_ row).getD j 0 =
      if j < row.length ∧ from_ ≤ j then ring.mod (row.getD j 0 * factor) else row.getD j 0 := by
  simp only [RingArithmetic.scaleRow, List.getD_eq_getElem?_getD, List.getElem?_mapIdx]
  by_cases inside : j < row.length
  · by_cases near : from_ ≤ j <;> simp [inside, near]
  · simp [inside]

theorem subtractRowEntry (factor : Int) (from_ : Nat) (pivot row : List Int) (j : Nat) :
    (ring.subtractRow factor from_ pivot row).getD j 0 =
      if j < row.length ∧ from_ ≤ j then ring.mod (row.getD j 0 - factor * pivot.getD j 0) else row.getD j 0 := by
  simp only [RingArithmetic.subtractRow, List.getD_eq_getElem?_getD, List.getElem?_mapIdx]
  by_cases inside : j < row.length
  · by_cases near : from_ ≤ j <;> simp [inside, near]
  · simp [inside]

theorem mapIdxReduced {f : Nat → Int → Int} {row : List Int} (reduced : ∀ j v, v ∈ row → Reduced ring (f j v)) :
    ∀ v ∈ row.mapIdx f, Reduced ring v := by
  intro v mem
  obtain ⟨j, inside, rfl⟩ := List.mem_mapIdx.mp mem
  exact reduced j _ (List.getElem_mem inside)

theorem scaleRowReduced {factor : Int} {from_ : Nat} {row : List Int} (reduced : ∀ v ∈ row, Reduced ring v) :
    ∀ v ∈ ring.scaleRow factor from_ row, Reduced ring v := by
  refine mapIdxReduced fun j v mem => ?_
  by_cases near : from_ ≤ j
  · rw [if_pos near]
    exact modReduced _
  · rw [if_neg near]
    exact reduced v mem

theorem subtractRowReduced {factor : Int} {from_ : Nat} {pivot row : List Int} (reduced : ∀ v ∈ row, Reduced ring v) :
    ∀ v ∈ ring.subtractRow factor from_ pivot row, Reduced ring v := by
  refine mapIdxReduced fun j v mem => ?_
  by_cases near : from_ ≤ j
  · rw [if_pos near]
    exact modReduced _
  · rw [if_neg near]
    exact reduced v mem

/-! The three moves of a column. -/

theorem swappedCells (shaped : Shaped ring m) {p col : Nat} (insideP : p < ring.degree) (inside : col < ring.degree) :
    Shaped ring ((m.set p (m.getD col [])).set col (m.getD p [])) ∧
      cells ring ((m.set p (m.getD col [])).set col (m.getD p [])) = Elimination.swapped (cells ring m) p col := by
  have rowP := shaped.rowMem insideP
  have rowCol := shaped.rowMem inside
  refine ⟨(shaped.set p (shaped.width _ rowCol) (shaped.reduced _ rowCol)).set col (shaped.width _ rowP) (shaped.reduced _ rowP), ?_⟩
  funext r j
  have height := shaped.height
  rw [cells, RingArithmetic.entry, Elimination.swapRows (by omega) (by omega), Elimination.swapped]
  split_ifs <;> rfl

theorem scaledShaped (shaped : Shaped ring m) {col : Nat} (inside : col < ring.degree) (factor : Int) :
    Shaped ring (m.modify col (ring.scaleRow factor col)) := by
  have row := shaped.rowMem inside
  rw [Coefficients.modifySet (by rw [shaped.height]; exact inside) _ []]
  refine shaped.set col ?_ (scaleRowReduced (shaped.reduced _ row))
  rw [RingArithmetic.scaleRow, List.length_mapIdx, shaped.width _ row]

theorem subtractedShaped (shaped : Shaped ring m) (col : Nat) (pivot : List Int) :
    Shaped ring (m.mapIdx fun row values => if row = col ∨ values.getD col 0 = 0 then values
      else ring.subtractRow (values.getD col 0) col pivot values) := by
  refine ⟨by rw [List.length_mapIdx, shaped.height], fun row mem => ?_, fun row mem => ?_⟩
  · obtain ⟨r, near, rfl⟩ := List.mem_mapIdx.mp mem
    split
    · exact shaped.width _ (List.getElem_mem near)
    · rw [RingArithmetic.subtractRow, List.length_mapIdx, shaped.width _ (List.getElem_mem near)]
  · obtain ⟨r, near, rfl⟩ := List.mem_mapIdx.mp mem
    split
    · exact shaped.reduced _ (List.getElem_mem near)
    · exact subtractRowReduced (shaped.reduced _ (List.getElem_mem near))

variable [Fact ring.modulus.Prime]

/- What stands before the pivot is zero, so it does not matter that the source leaves it alone. -/
theorem scaledCells (shaped : Shaped ring m) {col : Nat} (inside : col < ring.degree) (factor : Int)
    (clear : ∀ c < col, cells ring m col c = 0) :
    cells ring (m.modify col (ring.scaleRow factor col)) = Elimination.scaled (cells ring m) col factor := by
  have height := shaped.height
  rw [Coefficients.modifySet (by omega) _ []]
  funext r j
  rw [cells, RingArithmetic.entry, setRow (by omega), Elimination.scaled]
  by_cases here : r = col
  · subst here
    rw [if_pos rfl, if_pos rfl, scaleRowEntry]
    by_cases within : j < (m.getD r []).length ∧ r ≤ j
    · rw [if_pos within, modCast, Int.cast_mul]
      rfl
    · rw [if_neg within]
      have zero : cells ring m r j = 0 := by
        by_cases before : j < r
        · exact clear j before
        · rw [cells, RingArithmetic.entry, List.getD_eq_default _ _ (by omega), Int.cast_zero]
      rw [zero, zero_mul]
      exact zero
  · rw [if_neg here, if_neg here]
    rfl

theorem subtractedCells (shaped : Shaped ring m) {col : Nat} (inside : col < ring.degree) (clear : ∀ c < col, cells ring m col c = 0) :
    cells ring (m.mapIdx fun row values => if row = col ∨ values.getD col 0 = 0 then values
      else ring.subtractRow (values.getD col 0) col (m.getD col []) values) = Elimination.subtracted (cells ring m) col := by
  have height := shaped.height
  have zeroRow (j : Nat) (outside : ¬(j < ring.degree + 1 ∧ col ≤ j)) : cells ring m col j = 0 := by
    by_cases before : j < col
    · exact clear j before
    · rw [cells, RingArithmetic.entry, List.getD_eq_default _ _ (by rw [shaped.width _ (shaped.rowMem inside)]; omega), Int.cast_zero]
  funext r j
  by_cases near : r < m.length
  · have row : (m.mapIdx fun row values => if row = col ∨ values.getD col 0 = 0 then values
        else ring.subtractRow (values.getD col 0) col (m.getD col []) values).getD r [] =
        if r = col ∨ (m.getD r []).getD col 0 = 0 then m.getD r []
        else ring.subtractRow ((m.getD r []).getD col 0) col (m.getD col []) (m.getD r []) := by
      rw [List.getD_eq_getElem _ _ (by rw [List.length_mapIdx]; exact near), List.getElem_mapIdx, List.getD_eq_getElem _ _ near]
    have width := shaped.width _ (shaped.rowMem (height ▸ near))
    rw [cells, RingArithmetic.entry, row, Elimination.subtracted]
    by_cases here : r = col
    · rw [if_pos (.inl here), if_pos here]
      rfl
    · rw [if_neg here]
      by_cases zero : (m.getD r []).getD col 0 = 0
      · have cell : cells ring m r col = 0 := by rw [cells, RingArithmetic.entry, zero, Int.cast_zero]
        rw [if_pos (.inr zero), cell, zero_mul, sub_zero]
        rfl
      · rw [if_neg (not_or.mpr ⟨here, zero⟩), subtractRowEntry, width]
        by_cases within : j < ring.degree + 1 ∧ col ≤ j
        · rw [if_pos within, modCast, Int.cast_sub, Int.cast_mul]
          rfl
        · rw [if_neg within, zeroRow j within, mul_zero, sub_zero]
          rfl
  · have gone (m' : RingArithmetic.Matrix) (far : m'.length ≤ r) (c : Nat) : cells ring m' r c = 0 := by
      rw [cells, RingArithmetic.entry, List.getD_eq_default m' _ far, List.getD_nil, Int.cast_zero]
    rw [gone _ (by rw [List.length_mapIdx]; omega), Elimination.subtracted, if_neg (by omega), gone m (by omega), gone m (by omega)]
    ring

/-! The sweep. A column either has a pivot, and is cleared without a change to the solutions, or has none. -/

theorem eliminateColumnMeaning (shaped : Shaped ring m) {col : Nat} (inside : col < ring.degree)
    (cleared : Cleared ring.degree col (cells ring m)) :
    (ring.eliminateColumn m col = none ∧ ∀ r, col ≤ r → r < ring.degree → cells ring m r col = 0) ∨
      ∃ m', ring.eliminateColumn m col = some m' ∧ Shaped ring m' ∧ Cleared ring.degree (col + 1) (cells ring m') ∧
        ∀ x, Kills ring.degree (cells ring m') x ↔ Kills ring.degree (cells ring m) x := by
  cases pivot : ((List.range ring.degree).filter fun row => decide (col ≤ row ∧ RingArithmetic.entry m row col ≠ 0)).head? with
  | none =>
      refine .inl ⟨by simp only [RingArithmetic.eliminateColumn, pivot]; rfl, fun r lower near => ?_⟩
      have empty := List.filter_eq_nil_iff.mp (List.head?_eq_none_iff.mp pivot) r (List.mem_range.mpr near)
      rw [shaped.cellZero]
      by_contra apart
      exact empty (decide_eq_true ⟨lower, apart⟩)
  | some p =>
      have found := List.mem_filter.mp (List.mem_of_head? pivot)
      have insideP := List.mem_range.mp found.1
      obtain ⟨lower, apart⟩ := of_decide_eq_true found.2
      have cell : cells ring m p col ≠ 0 := (not_congr (shaped.cellZero p col)).mpr apart
      obtain ⟨shapedSwap, swapCells⟩ := swappedCells shaped insideP inside
      generalize swappedIs : (m.set p (m.getD col [])).set col (m.getD p []) = swap at shapedSwap swapCells
      have pivotCell : cells ring swap col col = cells ring m p col := by
        rw [swapCells]
        exact congrFun (if_pos rfl) col
      have entryReduced := shapedSwap.entryReduced col col
      have entryApart : RingArithmetic.entry swap col col ≠ 0 := fun zero =>
        cell (pivotCell ▸ (shapedSwap.cellZero col col).mpr zero)
      obtain ⟨inv, inverted, inverts⟩ := scalarInverseMeaning (Fact.out : ring.modulus.Prime)
        (lt_of_le_of_ne entryReduced.1 (Ne.symm entryApart)) entryReduced.2
      have invIs : (inv : ZMod ring.modulus) = (cells ring m p col)⁻¹ := by
        rw [← pivotCell]
        exact eq_inv_of_mul_eq_one_left inverts
      have clearSwap (c : Nat) (before : c < col) : cells ring swap col c = 0 := by
        rw [swapCells, Elimination.swapped, if_pos rfl, cleared p insideP c before, if_neg (by omega)]
      have shapedScale := scaledShaped shapedSwap inside inv
      have scaleCells := scaledCells shapedSwap inside inv clearSwap
      generalize scaledIs : swap.modify col (ring.scaleRow inv col) = scale at shapedScale scaleCells
      have clearScale (c : Nat) (before : c < col) : cells ring scale col c = 0 := by
        rw [scaleCells, Elimination.scaled, if_pos rfl, clearSwap c before, zero_mul]
      have lastCells := subtractedCells shapedScale inside clearScale
      refine .inr ⟨_, ?_, subtractedShaped shapedScale col (scale.getD col []), ?_, fun x => ?_⟩
      · simp only [RingArithmetic.eliminateColumn, pivot, Option.bind_eq_bind, Option.bind_some, swappedIs, inverted, scaledIs]
        rfl
      · rw [lastCells, scaleCells, swapCells, invIs]
        exact Elimination.clearedNext cleared lower insideP cell
      · rw [lastCells, scaleCells, swapCells, Elimination.killsSubtracted inside,
          Elimination.killsScaled (by rw [invIs]; exact inv_ne_zero cell), Elimination.killsSwapped insideP inside]

/- Either the whole matrix becomes the identity, or a vector that is not zero is mapped to zero. -/
theorem sweepMeaning (shaped : Shaped ring m) :
    ((List.range ring.degree).foldlM ring.eliminateColumn m = none ∧
        ∃ x, Kills ring.degree (cells ring m) x ∧ x ring.degree = 0 ∧ ∃ c < ring.degree, x c ≠ 0) ∨
      ∃ m', (List.range ring.degree).foldlM ring.eliminateColumn m = some m' ∧ Shaped ring m' ∧
        Cleared ring.degree ring.degree (cells ring m') ∧ ∀ x, Kills ring.degree (cells ring m') x ↔ Kills ring.degree (cells ring m) x := by
  have upTo (count : Nat) (within : count ≤ ring.degree) :
      ((List.range count).foldlM ring.eliminateColumn m = none ∧
          ∃ x, Kills ring.degree (cells ring m) x ∧ x ring.degree = 0 ∧ ∃ c < ring.degree, x c ≠ 0) ∨
        ∃ m', (List.range count).foldlM ring.eliminateColumn m = some m' ∧ Shaped ring m' ∧
          Cleared ring.degree count (cells ring m') ∧ ∀ x, Kills ring.degree (cells ring m') x ↔ Kills ring.degree (cells ring m) x := by
    induction count with
    | zero => exact .inr ⟨m, rfl, shaped, fun r _ c never => absurd never (Nat.not_lt_zero c), fun x => Iff.rfl⟩
    | succ count ih =>
        have append (ran : Option RingArithmetic.Matrix) (is : (List.range count).foldlM ring.eliminateColumn m = ran) :
            (List.range (count + 1)).foldlM ring.eliminateColumn m = ran.bind fun mid => ring.eliminateColumn mid count := by
          rw [List.range_succ, List.foldlM_append, is]
          cases ran with
          | none => rfl
          | some mid =>
              simp
        rcases ih (by omega) with ⟨stopped, kernel⟩ | ⟨mid, ran, shapedMid, cleared, same⟩
        · exact .inl ⟨append none stopped, kernel⟩
        · rcases eliminateColumnMeaning shapedMid (by omega : count < ring.degree) cleared with ⟨stuck, zero⟩ | ⟨m', stepped, shaped', cleared', same'⟩
          · refine .inl ⟨(append _ ran).trans stuck, Elimination.kernel (cells ring mid) count,
              (same _).mp (Elimination.kernelKills cleared (by omega) zero), ?_, count, by omega, ?_⟩
            · rw [Elimination.kernel, if_neg (by omega), if_neg (by omega)]
            · rw [Elimination.kernel, if_neg (lt_irrefl count), if_pos rfl]
              exact one_ne_zero
          · exact .inr ⟨m', (append _ ran).trans stepped, shaped', cleared', fun x => (same' x).trans (same x)⟩
  exact upTo ring.degree le_rfl

end Cells

/-! What the augmented matrix stands for: to solve it is to divide by the polynomial. -/
section Meaning
variable {ring : RingArithmetic} {aa : PolyQ}

theorem basisPower {col : Nat} (inside : col < ring.degree) : residue ring (ring.basis col) = AdjoinRoot.root _ ^ col := by
  have made : (ring.basis col).map (Int.cast : Int → ZMod ring.modulus) = (List.replicate ring.degree 0).set col 1 := by
    simp [RingArithmetic.basis]
  rw [residue, made, Coefficients.elementPower inside]

theorem residueSum (canonical : Canonical ring aa) : residue ring aa =
    Finset.sum (Finset.range ring.degree) fun i =>
      AdjoinRoot.of (Polynomial.X ^ ring.degree + 1 : Polynomial (ZMod ring.modulus)) (aa.getD i 0 : ZMod ring.modulus) * AdjoinRoot.root _ ^ i := by
  have entry (i : Nat) : (aa.map (Int.cast : Int → ZMod ring.modulus)).getD i 0 = (aa.getD i 0 : Int) := by
    rw [← Int.cast_zero, List.getD_map]
  rw [residue, Coefficients.elementTerms (by simpa using canonical.width)]
  exact Finset.sum_congr rfl fun i _ => by rw [entry]

/- The columns are the products with the powers of `x`, and the right-hand side is one. -/
structure Augmented (ring : RingArithmetic) (aa : PolyQ) (start : RingArithmetic.Matrix) (image : Nat → PolyQ) : Prop where
  shaped : Shaped ring start
  canonical : ∀ c < ring.degree, Canonical ring (image c)
  product : ∀ c < ring.degree, residue ring (image c) = residue ring aa * AdjoinRoot.root _ ^ c
  column : ∀ r < ring.degree, ∀ c < ring.degree, cells ring start r c = ((image c).getD r 0 : ZMod ring.modulus)
  last : ∀ r < ring.degree, cells ring start r ring.degree = if r = 0 then 1 else 0

def imageRow (ring : RingArithmetic) (image : Nat → PolyQ) (row : Nat) : List Int :=
  ((List.range ring.degree).map fun c => (image c).getD row 0) ++ [if row = 0 then 1 else 0]

theorem imageCell (image : Nat → PolyQ) {r : Nat} (near : r < ring.degree) (j : Nat) :
    RingArithmetic.entry ((List.range ring.degree).map (imageRow ring image)) r j = (imageRow ring image r).getD j 0 := by
  rw [RingArithmetic.entry, List.getD_eq_getElem ((List.range ring.degree).map (imageRow ring image)) _ (by simpa using near),
    List.getElem_map, List.getElem_range]

theorem augmentedMeaning (canonical : Canonical ring aa) : ∃ start image, ring.augmented aa = .ok start ∧ Augmented ring aa start image := by
  have each (c : Nat) : ∃ image, ring.mul aa (ring.basis c) = .ok image := mulTotal canonical.width.le (basisCanonical c).width.le
  choose image images using each
  have meaning (c : Nat) := mulMeaning (images c)
  have ran : ring.augmented aa = .ok ((List.range ring.degree).map (imageRow ring image)) := by
    rw [RingArithmetic.augmented, mapM_ok (g := image) fun c _ => images c]
    refine congrArg Except.ok (List.map_congr_left fun row _ => ?_)
    rw [imageRow, List.map_map]
    rfl
  refine ⟨_, image, ran, ⟨by simp, fun row mem => ?_, fun row mem v inner => ?_⟩, fun c _ => (meaning c).1, fun c inside => ?_,
    fun r near c inside => ?_, fun r near => ?_⟩
  · obtain ⟨r, _, rfl⟩ := List.mem_map.mp mem
    simp [imageRow]
  · obtain ⟨r, _, rfl⟩ := List.mem_map.mp mem
    rcases List.mem_append.mp inner with front | back
    · obtain ⟨c, _, rfl⟩ := List.mem_map.mp front
      exact getDReduced (meaning c).1.reduced r
    · obtain rfl := List.mem_singleton.mp back
      have large := ring.large
      by_cases top : r = 0
      · rw [if_pos top]
        exact ⟨by omega, by omega⟩
      · rw [if_neg top]
        exact zeroReduced
  · rw [(meaning c).2, basisPower inside]
  · have front : c < ((List.range ring.degree).map fun c => (image c).getD r 0).length := by simpa using inside
    rw [cells, imageCell image near, imageRow, List.getD_eq_getElem?_getD, List.getElem?_append_left front]
    simp [inside]
  · rw [cells, imageCell image near, imageRow]
    by_cases top : r = 0 <;> simp [List.getD_eq_getElem?_getD, top]

theorem killsMeaning {start : RingArithmetic.Matrix} {image : Nat → PolyQ} [Fact ring.modulus.Prime] (augmented : Augmented ring aa start image)
    (x : Nat → ZMod ring.modulus) : Kills ring.degree (cells ring start) x ↔
      residue ring aa * element ring.degree ((List.range ring.degree).map x) = AdjoinRoot.of _ (-x ring.degree) := by
  have large : Fact (1 < ring.modulus) := nontrivialModulus ring
  have row (r : Nat) (near : r < ring.degree) : pair ring.degree (cells ring start r) x =
      Finset.sum (Finset.range ring.degree) (fun c => ((image c).getD r 0 : ZMod ring.modulus) * x c) + if r = 0 then x ring.degree else 0 := by
    rw [pair, Finset.sum_range_succ, augmented.last r near, ite_mul, one_mul, zero_mul]
    congr 1
    exact Finset.sum_congr rfl fun c mem => by rw [augmented.column r near c (Finset.mem_range.mp mem)]
  have product : residue ring aa * element ring.degree ((List.range ring.degree).map x) = element ring.degree
      ((List.range ring.degree).map fun r => Finset.sum (Finset.range ring.degree) fun c => ((image c).getD r 0 : ZMod ring.modulus) * x c) := by
    rw [elementSum, elementSum, Finset.mul_sum]
    simp only [map_sum, Finset.sum_mul]
    rw [Finset.sum_comm]
    refine Finset.sum_congr rfl fun c mem => ?_
    have inside := Finset.mem_range.mp mem
    have column := augmented.product c inside
    rw [residueSum (augmented.canonical c inside)] at column
    rw [mul_left_comm, ← column, Finset.mul_sum]
    refine Finset.sum_congr rfl fun r _ => ?_
    rw [map_mul]
    ring
  have constant : AdjoinRoot.of (Polynomial.X ^ ring.degree + 1 : Polynomial (ZMod ring.modulus)) (-x ring.degree) =
      element ring.degree ((List.range ring.degree).map fun r => if r = 0 then -x ring.degree else 0) := by
    rw [elementSum, Finset.sum_eq_single_of_mem 0 (Finset.mem_range.mpr ring.positive) fun r _ apart => by rw [if_neg apart, map_zero, zero_mul]]
    rw [if_pos rfl, pow_zero, mul_one]
  rw [product, constant]
  constructor
  · intro kills
    refine congrArg _ (List.map_congr_left fun r mem => ?_)
    have near := List.mem_range.mp mem
    have zero := kills r near
    rw [row r near] at zero
    by_cases top : r = 0
    · rw [if_pos top] at zero ⊢
      exact eq_neg_of_add_eq_zero_left zero
    · rw [if_neg top, add_zero] at zero
      rw [if_neg top, zero]
  · intro same r near
    have lists := elementInj ring.positive (by simp) (by simp) same
    have entry := congrArg (fun l => l[r]?) lists
    simp only [List.getElem?_map, List.getElem?_range near, Option.map_some, Option.some.injEq] at entry
    rw [row r near, entry]
    by_cases top : r = 0 <;> simp [top]

theorem lastColumn {m : RingArithmetic.Matrix} (shaped : Shaped ring m) [Fact ring.modulus.Prime] :
    Canonical ring (m.map fun row => row.getD ring.degree 0) ∧ residue ring (m.map fun row => row.getD ring.degree 0) =
      element ring.degree ((List.range ring.degree).map (Elimination.solution ring.degree (cells ring m))) := by
  refine ⟨⟨by rw [List.length_map, shaped.height], fun v mem => ?_⟩, ?_⟩
  · obtain ⟨row, inside, rfl⟩ := List.mem_map.mp mem
    exact getDReduced (shaped.reduced row inside) _
  · rw [residue]
    congr 1
    refine List.ext_getElem (by simp [shaped.height]) fun r left right => ?_
    have near : r < ring.degree := by simpa using right
    rw [List.getElem_map, List.getElem_map, List.getElem_map, List.getElem_range, Elimination.solution, if_pos near, cells, RingArithmetic.entry,
      List.getD_eq_getElem m _ (by rw [shaped.height]; exact near)]

/- Whether there is an inverse is what the elimination finds out. -/
theorem inverseDecides [Fact ring.modulus.Prime] {a : PolyQ} (short : a.length ≤ ring.degree) :
    ∃ found, ring.inverse a = .ok found ∧ (found.isSome = true ↔ IsUnit (residue ring a)) ∧
      ∀ b, found = some b → Canonical ring b ∧ residue ring a * residue ring b = 1 := by
  have large : Fact (1 < ring.modulus) := nontrivialModulus ring
  obtain ⟨aa, canonicalized⟩ := canonicalizeTotal short
  obtain ⟨canonical, sameA⟩ := canonicalizeMeaning canonicalized
  obtain ⟨start, image, made, augmented⟩ := augmentedMeaning canonical
  rcases sweepMeaning augmented.shaped with ⟨stopped, x, kills, last, c, inside, apart⟩ | ⟨reduced, ran, shaped, cleared, same⟩
  · refine ⟨none, ?_, ⟨fun never => (by cases never), fun unit => ?_⟩, fun b is => (by cases is)⟩
    · simp only [RingArithmetic.inverse, canonicalized, made, stopped, bind, Except.bind]
      rfl
    · have product := (killsMeaning augmented x).mp kills
      rw [last, neg_zero, map_zero, sameA] at product
      have zero := unit.mul_right_eq_zero.mp product
      have none_ : element ring.degree ((List.range ring.degree).map x) =
          element ring.degree (List.replicate ring.degree (0 : ZMod ring.modulus)) := by
        rw [zero]
        simp [element]
      have entry := congrArg (fun l => l[c]?) (elementInj ring.positive (by simp) (by simp) none_)
      simp only [List.getElem?_map, List.getElem?_range inside, Option.map_some, List.getElem?_replicate, if_pos inside,
        Option.some.injEq] at entry
      exact absurd entry apart
  · obtain ⟨canonicalResult, resultIs⟩ := lastColumn shaped
    have solves := (same _).mp (Elimination.solutionKills cleared)
    have product := (killsMeaning augmented _).mp solves
    have minusOne : Elimination.solution ring.degree (cells ring reduced) ring.degree = -1 := if_neg (lt_irrefl _)
    rw [minusOne, neg_neg, map_one, ← resultIs] at product
    obtain ⟨check, multiplied⟩ := mulTotal canonical.width.le canonicalResult.width.le
    obtain ⟨canonicalCheck, checkIs⟩ := mulMeaning multiplied
    obtain ⟨equal, compared⟩ := equalTotal canonicalCheck.width.le (@basisCanonical ring 0).width.le
    have one : equal = true := (equalMeaning compared).mpr (by rw [checkIs, product, basisResidue])
    have inverts : residue ring a * residue ring (reduced.map fun row => row.getD ring.degree 0) = 1 := by rw [← sameA, product]
    refine ⟨some (reduced.map fun row => row.getD ring.degree 0), ?_, ⟨fun _ => IsUnit.of_mul_eq_one _ inverts, fun _ => rfl⟩,
      fun b is => ?_⟩
    · simp only [RingArithmetic.inverse, canonicalized, made, ran, multiplied, compared, one, bind, Except.bind]
      rfl
    · cases is
      exact ⟨canonicalResult, inverts⟩

end Meaning
end TradeP2P.Blns7933
