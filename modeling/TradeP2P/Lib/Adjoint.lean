import TradeP2P.Lib.Forms
import TradeP2P.Lib.Halving

/-! The ring modulo `x ^ n + 1` over a field: `x ↦ x⁻¹` as its involution, the constant coefficient as its trace. With these the
ring of twice the degree is doubled over it. -/
namespace Adjoint
open Coefficients (Negacyclic element elementInj elementMk elementSum elementTerms elementZeros polynomial polynomialCoeff rootPow value valueMap valueSum)
open Halving (spread spreadValue sumPairs imageEntry)
open Polynomial (X C)

section Rings
variable {R : Type} [CommRing R] {n : Nat}

theorem inversePow (positive : 0 < n) : (-AdjoinRoot.root (X ^ n + 1 : Polynomial R) ^ (n - 1)) ^ n = -1 := by
  obtain ⟨m, rfl⟩ := Nat.exists_eq_succ_of_ne_zero positive.ne'
  have power : (AdjoinRoot.root (X ^ (m + 1) + 1 : Polynomial R) ^ m) ^ (m + 1) = (-1) ^ m := by
    rw [← pow_mul, mul_comm, pow_mul, rootPow]
  rw [Nat.succ_eq_add_one, Nat.add_sub_cancel, neg_pow, power, ← pow_add]
  exact Odd.neg_one_pow ⟨m, by ring⟩

/- `x ↦ x⁻¹`. -/
noncomputable def inverted (positive : 0 < n) : Negacyclic R n →+* Negacyclic R n :=
  AdjoinRoot.lift (AdjoinRoot.of _) (-AdjoinRoot.root _ ^ (n - 1)) (by
    simp only [Polynomial.eval₂_add, Polynomial.eval₂_X_pow, Polynomial.eval₂_one, inversePow positive, neg_add_cancel])

theorem invertedRoot (positive : 0 < n) : inverted positive (AdjoinRoot.root (X ^ n + 1 : Polynomial R)) = -AdjoinRoot.root _ ^ (n - 1) :=
  AdjoinRoot.lift_root _

theorem invertedConstant (positive : 0 < n) (c : R) : inverted positive (AdjoinRoot.of (X ^ n + 1) c) = AdjoinRoot.of _ c :=
  AdjoinRoot.lift_of _

theorem rootUnit (positive : 0 < n) :
    AdjoinRoot.root (X ^ n + 1 : Polynomial R) * inverted positive (AdjoinRoot.root _) = 1 := by
  rw [invertedRoot, mul_neg, ← pow_succ', Nat.sub_add_cancel positive, rootPow, neg_neg]

/- There is only one inverse. -/
theorem invertedUnique (positive : 0 < n) {k : Nat} {w : Negacyclic R n} (unit : AdjoinRoot.root _ ^ k * w = 1) :
    inverted positive (AdjoinRoot.root _) ^ k = w := by
  have own : AdjoinRoot.root (X ^ n + 1 : Polynomial R) ^ k * inverted positive (AdjoinRoot.root _) ^ k = 1 := by
    rw [← mul_pow, rootUnit, one_pow]
  linear_combination (-inverted positive (AdjoinRoot.root _) ^ k) * unit + w * own

theorem invertedPow (positive : 0 < n) {k : Nat} (inside : k < n) :
    inverted positive (AdjoinRoot.root (X ^ n + 1 : Polynomial R)) ^ k = -AdjoinRoot.root _ ^ (n - k) := by
  refine invertedUnique positive ?_
  rw [mul_neg, ← pow_add, Nat.add_sub_cancel' inside.le, rootPow, neg_neg]

theorem invertedTwice (positive : 0 < n) (w : Negacyclic R n) : inverted positive (inverted positive w) = w := by
  have root : inverted positive (inverted positive (AdjoinRoot.root (X ^ n + 1 : Polynomial R))) = AdjoinRoot.root _ := by
    have unit := rootUnit (R := R) positive
    have turned := congrArg (inverted positive) unit
    rw [map_mul, map_one] at turned
    linear_combination AdjoinRoot.root _ * turned - inverted positive (inverted positive (AdjoinRoot.root _)) * unit
  have same : (inverted positive).comp (inverted positive) = RingHom.id (Negacyclic R n) := by
    refine AdjoinRoot.ringHom_ext (RingHom.ext fun c => ?_) root
    simp only [RingHom.comp_apply, invertedConstant, RingHom.id_apply]
  exact congrArg (fun φ => φ w) same

theorem invertedTerms (positive : 0 < n) {a : List R} (width : a.length = n) : inverted positive (element n a) =
    Finset.sum (Finset.range n) fun i =>
      AdjoinRoot.of (X ^ n + 1 : Polynomial R) (a.getD i 0) * inverted positive (AdjoinRoot.root _) ^ i := by
  rw [elementTerms width, map_sum]
  exact Finset.sum_congr rfl fun i _ => by rw [map_mul, map_pow, invertedConstant]

/- The coefficients of an adjoint: all but the constant one change places and signs. -/
theorem elementAdjoint (positive : 0 < n) {a : List R} (width : a.length = n) :
    element n ((List.range n).map fun k => if k = 0 then a.getD 0 0 else -a.getD (n - k) 0) = inverted positive (element n a) := by
  rw [elementSum, invertedTerms positive width]
  obtain ⟨m, rfl⟩ := Nat.exists_eq_succ_of_ne_zero positive.ne'
  rw [Finset.sum_range_succ', Finset.sum_range_succ', ← Finset.sum_range_reflect]
  refine congrArg₂ (· + ·) (Finset.sum_congr rfl fun k mem => ?_) (by rw [if_pos rfl, pow_zero, pow_zero])
  have inside := Finset.mem_range.mp mem
  have place : m - 1 - k + 1 = m + 1 - (k + 1) := by omega
  rw [place, if_neg (by omega), invertedPow positive (by omega), map_neg, neg_mul, mul_neg, Nat.sub_sub_self (by omega)]

/-! Even and odd places. -/

theorem elementMerged {h : Nat} {p e o : List R} (width : p.length = 2 * h) (widthE : e.length = h) (widthO : o.length = h)
    (evens : ∀ i < h, p.getD (2 * i) 0 = e.getD i 0) (odds : ∀ i < h, p.getD (2 * i + 1) 0 = o.getD i 0) :
    element (2 * h) p = spread h (element h e) + AdjoinRoot.root _ * spread h (element h o) := by
  rw [spreadValue, spreadValue, element, valueSum _ (n := 2 * h) (by simp [width]), valueSum _ (n := h) (by simp [widthE]),
    valueSum _ (n := h) (by simp [widthO]), sumPairs, ← List.sum_map_mul_left, ← List.sum_map_add]
  refine congrArg List.sum (List.map_congr_left fun i mem => ?_)
  have inside := List.mem_range.mp mem
  have next := pow_succ (AdjoinRoot.root (X ^ (2 * h) + 1 : Polynomial R)) (2 * i)
  have square := pow_mul (AdjoinRoot.root (X ^ (2 * h) + 1 : Polynomial R)) 2 i
  rw [imageEntry, imageEntry, imageEntry, imageEntry, evens i inside, odds i inside, next, square]
  ring

/- The two halves next to each other. -/
def merged (h : Nat) (e o : List R) : List R := (List.range (2 * h)).map fun i => if i % 2 = 0 then e.getD (i / 2) 0 else o.getD (i / 2) 0

theorem mergedEntry {h : Nat} (e o : List R) {i : Nat} (inside : i < 2 * h) :
    (merged h e o).getD i 0 = if i % 2 = 0 then e.getD (i / 2) 0 else o.getD (i / 2) 0 := by
  rw [List.getD_eq_getElem _ _ (by simpa [merged] using inside)]
  simp [merged]

theorem elementOfMerged {h : Nat} {e o : List R} (widthE : e.length = h) (widthO : o.length = h) :
    element (2 * h) (merged h e o) = spread h (element h e) + AdjoinRoot.root _ * spread h (element h o) := by
  refine elementMerged (by simp [merged]) widthE widthO (fun i inside => ?_) fun i inside => ?_
  · rw [mergedEntry e o (by omega), if_pos (by omega), Nat.mul_div_cancel_left i Nat.two_pos]
  · have half : (2 * i + 1) / 2 = i := by omega
    rw [mergedEntry e o (by omega), if_neg (by omega), half]

/- Inversion before and behind the way up. -/
theorem invertedSpread {h : Nat} (positive : 0 < h) (doubled : 0 < 2 * h) (w : Negacyclic R h) :
    inverted doubled (spread h w) = spread h (inverted positive w) := by
  have squared : spread h (AdjoinRoot.root (X ^ h + 1 : Polynomial R)) = AdjoinRoot.root _ ^ 2 := AdjoinRoot.lift_root _
  have root : inverted doubled (spread h (AdjoinRoot.root (X ^ h + 1 : Polynomial R))) = spread h (inverted positive (AdjoinRoot.root _)) := by
    have unit := congrArg (spread h) (rootUnit (R := R) positive)
    rw [map_mul, squared, map_one] at unit
    rw [squared, map_pow]
    exact invertedUnique doubled unit
  have same : ((inverted doubled).comp (spread h) : Negacyclic R h →+* Negacyclic R (2 * h)) = (spread h).comp (inverted positive) := by
    refine AdjoinRoot.ringHom_ext (RingHom.ext fun c => ?_) root
    simp only [RingHom.comp_apply, invertedConstant, Halving.spreadConstant]
  exact congrArg (fun φ => φ w) same

end Rings

/-! Over a field. -/
section Fields
variable {K : Type} [Field K] {n : Nat}

theorem monic (positive : 0 < n) : (X ^ n + 1 : Polynomial K).Monic := Polynomial.monic_X_pow_add_C 1 positive.ne'

/- The constant coefficient. -/
noncomputable def constant (positive : 0 < n) : Negacyclic K n →+ K :=
  ((Polynomial.lcoeff K 0).comp (AdjoinRoot.modByMonicHom (monic positive))).toAddMonoidHom

theorem smallPolynomial (positive : 0 < n) {p : Polynomial K} (small : p.degree < n) :
    AdjoinRoot.modByMonicHom (monic positive) (AdjoinRoot.mk _ p) = p := by
  have degree : (X ^ n + 1 : Polynomial K).degree = n := Polynomial.degree_X_pow_add_C positive 1
  rw [AdjoinRoot.modByMonicHom_mk, (Polynomial.modByMonic_eq_self_iff (monic positive)).mpr (by rw [degree]; exact small)]

theorem listDegree {a : List K} (width : a.length = n) : (polynomial a).degree < n := by
  refine (Polynomial.degree_lt_iff_coeff_zero _ _).mpr fun i far => ?_
  rw [polynomialCoeff, List.getD_eq_default _ _ (by omega)]

theorem constantElement (positive : 0 < n) {a : List K} (width : a.length = n) : constant positive (element n a) = a.getD 0 0 := by
  have read := smallPolynomial positive (listDegree width)
  rw [← elementMk] at read
  rw [← polynomialCoeff, ← read]
  rfl

/- Every element has its coefficients. -/
theorem elementSurjective (positive : 0 < n) (w : Negacyclic K n) : ∃ a : List K, a.length = n ∧ element n a = w := by
  refine ⟨(List.range n).map fun i => (AdjoinRoot.modByMonicHom (monic positive) w).coeff i, by simp, ?_⟩
  have degree : (X ^ n + 1 : Polynomial K).degree = n := Polynomial.degree_X_pow_add_C positive 1
  have small : (AdjoinRoot.modByMonicHom (monic positive) w).degree < n := by
    obtain ⟨q, rfl⟩ := AdjoinRoot.mk_surjective w
    rw [AdjoinRoot.modByMonicHom_mk, ← degree]
    exact Polynomial.degree_modByMonic_lt q (monic positive)
  have same : polynomial ((List.range n).map fun i => (AdjoinRoot.modByMonicHom (monic positive) w).coeff i) =
      AdjoinRoot.modByMonicHom (monic positive) w := by
    ext i
    rw [polynomialCoeff]
    by_cases inside : i < n
    · rw [List.getD_eq_getElem _ _ (by simpa using inside)]
      simp
    · rw [List.getD_eq_default _ _ (by simpa using not_lt.mp inside)]
      exact ((Polynomial.degree_lt_iff_coeff_zero _ _).mp small i (not_lt.mp inside)).symm
  rw [elementMk, same]
  exact AdjoinRoot.mk_leftInverse (monic positive) w

theorem constantScaled (positive : 0 < n) (a : K) (w : Negacyclic K n) : constant positive (AdjoinRoot.of _ a * w) = a * constant positive w := by
  have scaled : AdjoinRoot.of (X ^ n + 1 : Polynomial K) a * w = a • w := (Algebra.smul_def a w).symm
  rw [scaled]
  exact ((Polynomial.lcoeff K 0).comp (AdjoinRoot.modByMonicHom (monic positive))).map_smul a w

theorem constantPow (positive : 0 < n) {k : Nat} (inside : k < n) :
    constant positive (AdjoinRoot.root (X ^ n + 1 : Polynomial K) ^ k) = if k = 0 then 1 else 0 := by
  have small : (X ^ k : Polynomial K).degree < n := by
    rw [Polynomial.degree_X_pow]
    exact_mod_cast inside
  have power : AdjoinRoot.root (X ^ n + 1 : Polynomial K) ^ k = AdjoinRoot.mk _ (X ^ k) := by rw [map_pow, AdjoinRoot.mk_X]
  have read : constant positive (AdjoinRoot.root (X ^ n + 1 : Polynomial K) ^ k) = (X ^ k : Polynomial K).coeff 0 := by
    rw [power]
    exact congrArg (fun p => p.coeff 0) (smallPolynomial positive small)
  rw [read, Polynomial.coeff_X_pow]
  exact if_congr eq_comm rfl rfl

/- The powers of `x` are orthonormal. -/
theorem constantPowers (positive : 0 < n) {i j : Nat} (insideI : i < n) (insideJ : j < n) :
    constant positive (AdjoinRoot.root (X ^ n + 1 : Polynomial K) ^ i * inverted positive (AdjoinRoot.root _) ^ j) =
      if i = j then 1 else 0 := by
  have unit (k : Nat) : AdjoinRoot.root (X ^ n + 1 : Polynomial K) ^ k * inverted positive (AdjoinRoot.root _) ^ k = 1 := by
    rw [← mul_pow, rootUnit, one_pow]
  rcases Nat.lt_or_ge i j with before | behind
  · have cancelled : AdjoinRoot.root (X ^ n + 1 : Polynomial K) ^ i * inverted positive (AdjoinRoot.root _) ^ j =
        -AdjoinRoot.root _ ^ (n - (j - i)) := by
      obtain ⟨d, rfl⟩ := Nat.exists_eq_add_of_le before.le
      rw [pow_add, ← mul_assoc, unit, one_mul, Nat.add_sub_cancel_left, invertedPow positive (by omega)]
    rw [cancelled, map_neg, constantPow positive (by omega), if_neg (by omega), if_neg (by omega), neg_zero]
  · have cancelled : AdjoinRoot.root (X ^ n + 1 : Polynomial K) ^ i * inverted positive (AdjoinRoot.root _) ^ j =
        AdjoinRoot.root _ ^ (i - j) := by
      obtain ⟨d, rfl⟩ := Nat.exists_eq_add_of_le behind
      rw [pow_add, mul_right_comm, unit, one_mul, Nat.add_sub_cancel_left]
    rw [cancelled, constantPow positive (by omega)]
    exact if_congr (by omega) rfl rfl

theorem constantPair (positive : 0 < n) {a b : List K} (widthA : a.length = n) (widthB : b.length = n) :
    constant positive (element n a * inverted positive (element n b)) = Finset.sum (Finset.range n) fun i => a.getD i 0 * b.getD i 0 := by
  rw [invertedTerms positive widthB, elementTerms widthA, Finset.sum_mul_sum, map_sum]
  refine Finset.sum_congr rfl fun i memI => ?_
  rw [map_sum]
  have each : ∀ j ∈ Finset.range n, constant positive
      (AdjoinRoot.of (X ^ n + 1 : Polynomial K) (a.getD i 0) * AdjoinRoot.root _ ^ i *
        (AdjoinRoot.of _ (b.getD j 0) * inverted positive (AdjoinRoot.root _) ^ j)) =
      if i = j then a.getD i 0 * b.getD j 0 else 0 := by
    intro j memJ
    rw [mul_mul_mul_comm, ← map_mul, constantScaled, constantPowers positive (Finset.mem_range.mp memI) (Finset.mem_range.mp memJ),
      mul_ite, mul_one, mul_zero]
  rw [Finset.sum_congr rfl each, Finset.sum_ite_eq, if_pos memI]

theorem constantSquare (positive : 0 < n) {a : List K} (width : a.length = n) :
    constant positive (element n a * inverted positive (element n a)) = Finset.sum (Finset.range n) fun i => a.getD i 0 * a.getD i 0 :=
  constantPair positive width width

noncomputable def conjugation (K : Type) [Field K] (positive : 0 < n) : Forms.Conjugation (Negacyclic K n) K where
  adjoint := inverted positive
  twice := invertedTwice positive
  trace := constant positive

theorem definite [LinearOrder K] [IsStrictOrderedRing K] (positive : 0 < n) (w : Negacyclic K n) (some_ : w ≠ 0) :
    0 < (conjugation K positive).trace (w * (conjugation K positive).adjoint w) := by
  obtain ⟨a, width, rfl⟩ := elementSurjective positive w
  have square : (conjugation K positive).trace (element n a * (conjugation K positive).adjoint (element n a)) =
      Finset.sum (Finset.range n) fun i => a.getD i 0 * a.getD i 0 := constantSquare positive width
  rw [square]
  refine Finset.sum_pos' (fun i _ => mul_self_nonneg _) ?_
  by_contra none_
  push Not at none_
  refine some_ ?_
  have zeros : ∀ i ∈ Finset.range n, a.getD i 0 = 0 := fun i mem => mul_self_eq_zero.mp (le_antisymm (none_ i mem) (mul_self_nonneg _))
  rw [elementTerms width]
  exact Finset.sum_eq_zero fun i mem => by rw [zeros i mem, map_zero, zero_mul]

theorem traceSquare [LinearOrder K] [IsStrictOrderedRing K] (positive : 0 < n) (w : Negacyclic K n) :
    0 ≤ (conjugation K positive).trace (w * (conjugation K positive).adjoint w) := by
  by_cases zero : w = 0
  · rw [zero, zero_mul, map_zero]
  · exact (definite positive w zero).le

theorem traceTurned (positive : 0 < n) (w : Negacyclic K n) :
    (conjugation K positive).trace ((conjugation K positive).adjoint w) = (conjugation K positive).trace w := by
  obtain ⟨a, width, rfl⟩ := elementSurjective positive w
  have zeros : ∀ i ∈ Finset.range n, ((List.replicate n (0 : K)).set 0 1).getD i 0 * a.getD i 0 = a.getD i 0 * ((List.replicate n (0 : K)).set 0 1).getD i 0 :=
    fun i _ => mul_comm _ _
  have one : element n ((List.replicate n (0 : K)).set 0 1) = 1 := by rw [Coefficients.elementPower positive, pow_zero]
  have left := constantPair positive (show ((List.replicate n (0 : K)).set 0 1).length = n by simp) width
  have right := constantPair positive width (show ((List.replicate n (0 : K)).set 0 1).length = n by simp)
  rw [Finset.sum_congr rfl zeros, ← right, one, map_one, one_mul, mul_one] at left
  exact left

theorem traceScaled (positive : 0 < n) (a : K) (u v : Negacyclic K n) :
    (conjugation K positive).trace (u * (conjugation K positive).adjoint (AdjoinRoot.of _ a * v)) =
      a * (conjugation K positive).trace (u * (conjugation K positive).adjoint v) := by
  have kept : (conjugation K positive).adjoint (AdjoinRoot.of _ a) = AdjoinRoot.of _ a := invertedConstant positive a
  have outside : u * (conjugation K positive).adjoint (AdjoinRoot.of _ a * v) =
      AdjoinRoot.of _ a * (u * (conjugation K positive).adjoint v) := by
    rw [map_mul, kept]
    ring
  rw [outside]
  exact constantScaled positive a _

/- A form against a sum of multiples is the sum of the multiples of the forms. -/
theorem traceMultiples (positive : 0 < n) (x : Nat → K) (u v : Negacyclic K n) :
    (conjugation K positive).trace (u * (conjugation K positive).adjoint (element n ((List.range n).map x) * v)) =
      Finset.sum (Finset.range n) fun j => x j * (conjugation K positive).trace (u * (conjugation K positive).adjoint (AdjoinRoot.root _ ^ j * v)) := by
  rw [elementSum, Finset.sum_mul, map_sum, Finset.mul_sum, map_sum]
  exact Finset.sum_congr rfl fun j _ => by rw [mul_assoc, traceScaled]

/- Twice the degree. -/
section Doubling
variable {h : Nat} {e o : List K}

theorem constantMerged (twice : 0 < 2 * h) (widthE : e.length = h) (widthO : o.length = h) :
    constant twice (spread h (element h e) + AdjoinRoot.root _ * spread h (element h o)) = e.getD 0 0 := by
  rw [← elementOfMerged widthE widthO, constantElement twice (by simp [merged]), mergedEntry e o twice]
  rfl

theorem mergedZero (twice : 0 < 2 * h) (widthE : e.length = h) (widthO : o.length = h)
    (zero : spread h (element h e) + AdjoinRoot.root _ * spread h (element h o) = 0) : element h e = 0 ∧ element h o = 0 := by
  have lists : merged h e o = List.replicate (2 * h) 0 := by
    refine elementInj twice (by simp [merged]) (by simp) ?_
    rw [elementOfMerged widthE widthO, zero, elementZeros]
  have entry (i : Nat) (inside : i < 2 * h) : (merged h e o).getD i 0 = 0 := by rw [lists]; simp
  have evens : ∀ i ∈ Finset.range h, e.getD i 0 = 0 := by
    intro i mem
    have inside := Finset.mem_range.mp mem
    have place := entry (2 * i) (by omega)
    rwa [mergedEntry e o (by omega), if_pos (by omega), Nat.mul_div_cancel_left i Nat.two_pos] at place
  have odds : ∀ i ∈ Finset.range h, o.getD i 0 = 0 := by
    intro i mem
    have inside := Finset.mem_range.mp mem
    have half : (2 * i + 1) / 2 = i := by omega
    have place := entry (2 * i + 1) (by omega)
    rwa [mergedEntry e o (by omega), if_neg (by omega), half] at place
  rw [elementTerms widthE, elementTerms widthO]
  exact ⟨Finset.sum_eq_zero fun i mem => by rw [evens i mem, map_zero, zero_mul],
    Finset.sum_eq_zero fun i mem => by rw [odds i mem, map_zero, zero_mul]⟩

noncomputable def doubled (positive : 0 < h) (twice : 0 < 2 * h) : Forms.Doubled (conjugation K twice) (conjugation K positive) where
  up := spread h
  x := AdjoinRoot.root _
  y := AdjoinRoot.root _
  square := by
    have squared : spread h (AdjoinRoot.root (X ^ h + 1 : Polynomial K)) = AdjoinRoot.root _ ^ 2 := AdjoinRoot.lift_root _
    rw [squared, sq]
  unit := rootUnit twice
  adjointUp := invertedSpread positive twice
  traceEven := fun w => by
    obtain ⟨a, width, rfl⟩ := elementSurjective positive w
    have read := constantMerged twice width (List.length_replicate (n := h) (a := (0 : K)))
    rw [elementZeros, map_zero, mul_zero, add_zero] at read
    exact read.trans (constantElement positive width).symm
  traceOdd := fun w => by
    obtain ⟨a, width, rfl⟩ := elementSurjective positive w
    have read := constantMerged twice (List.length_replicate (n := h) (a := (0 : K))) width
    rw [elementZeros, map_zero, zero_add] at read
    exact read.trans (by simp)
  apart := fun u v zero => by
    obtain ⟨a, widthA, rfl⟩ := elementSurjective positive u
    obtain ⟨b, widthB, rfl⟩ := elementSurjective positive v
    exact mergedZero twice widthA widthB zero

end Doubling
end Fields
end Adjoint
