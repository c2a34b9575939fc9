import TradeP2P.Lib.Coefficients

/-! Modulo `x ^ n + 1` there is a way to turn the variable around when `n` is even, and a way up from half
the degree, which squares the variable. Both are read off the coefficients. -/
namespace Halving
open Coefficients (Negacyclic element elementInj rootPow value valueMap valueSum)
open Polynomial (X)

variable {R : Type} [CommRing R]

/- `x ↦ -x`. -/
noncomputable def turned {n : Nat} (even : Even n) : Negacyclic R n →+* Negacyclic R n :=
  AdjoinRoot.lift (AdjoinRoot.of _) (-AdjoinRoot.root _) (by
    simp only [Polynomial.eval₂_add, Polynomial.eval₂_X_pow, Polynomial.eval₂_one, even.neg_pow, rootPow, neg_add_cancel])

/- `x ↦ x ^ 2`, from half the degree. -/
noncomputable def spread (h : Nat) : Negacyclic R h →+* Negacyclic R (2 * h) :=
  AdjoinRoot.lift (AdjoinRoot.of _) (AdjoinRoot.root _ ^ 2) (by
    simp only [Polynomial.eval₂_add, Polynomial.eval₂_X_pow, Polynomial.eval₂_one, ← pow_mul, rootPow, neg_add_cancel])

theorem turnedValue {n : Nat} (even : Even n) (a : List R) : turned even (element n a) =
    value (-AdjoinRoot.root (X ^ n + 1 : Polynomial R)) (a.map (AdjoinRoot.of _)) := by
  have mapped := valueMap (AdjoinRoot.root (X ^ n + 1 : Polynomial R)) (turned even) (a.map (AdjoinRoot.of _))
  rw [element, ← mapped, List.map_map]
  simp [turned, Function.comp_def]

theorem spreadValue (h : Nat) (a : List R) : spread h (element h a) =
    value (AdjoinRoot.root (X ^ (2 * h) + 1 : Polynomial R) ^ 2) (a.map (AdjoinRoot.of _)) := by
  have mapped := valueMap (AdjoinRoot.root (X ^ h + 1 : Polynomial R)) (spread h) (a.map (AdjoinRoot.of _))
  rw [element, ← mapped, List.map_map]
  simp [spread, Function.comp_def]

theorem spreadConstant (h : Nat) (c : R) : spread h (AdjoinRoot.of _ c) = AdjoinRoot.of _ c := by simp [spread]

theorem imageEntry {S : Type} [CommRing S] (φ : R →+* S) (a : List R) (i : Nat) : (a.map φ).getD i 0 = φ (a.getD i 0) := by
  rw [← map_zero φ, List.getD_map]

/- Every odd coefficient negated. -/
theorem elementTurned {n : Nat} (even : Even n) {a b : List R} (width : b.length = a.length)
    (entries : ∀ i, b.getD i 0 = if i % 2 = 1 then -a.getD i 0 else a.getD i 0) : element n b = turned even (element n a) := by
  rw [turnedValue, element, valueSum _ (n := a.length) (by simp [width]), valueSum _ (n := a.length) (by simp)]
  refine congrArg List.sum (List.map_congr_left fun i _ => ?_)
  rw [imageEntry, imageEntry, entries]
  by_cases odd : i % 2 = 1
  · rw [if_pos odd, (Nat.odd_iff.mpr odd).neg_pow, map_neg, neg_mul, mul_neg]
  · rw [if_neg odd, (Nat.even_iff.mpr (by omega)).neg_pow]

theorem sumPairs {S : Type} [CommRing S] (f : Nat → S) (h : Nat) :
    ((List.range (2 * h)).map f).sum = ((List.range h).map fun i => f (2 * i) + f (2 * i + 1)).sum := by
  induction h with
  | zero => rfl
  | succ h ih =>
      rw [show 2 * (h + 1) = 2 * h + 1 + 1 by ring, List.range_succ, List.range_succ, List.range_succ]
      simp only [List.map_append, List.sum_append, List.map_cons, List.map_nil, List.sum_cons, List.sum_nil, ih]
      ring

/- Coefficients at even places only. -/
theorem elementSpread {h : Nat} {p a : List R} (coversP : p.length ≤ 2 * h) (coversA : a.length ≤ h)
    (evens : ∀ i < h, p.getD (2 * i) 0 = a.getD i 0) (odds : ∀ i < h, p.getD (2 * i + 1) 0 = 0) :
    element (2 * h) p = spread h (element h a) := by
  rw [spreadValue, element, valueSum _ (n := 2 * h) (by simpa using coversP), valueSum _ (n := h) (by simpa using coversA), sumPairs]
  refine congrArg List.sum (List.map_congr_left fun i mem => ?_)
  have inside := List.mem_range.mp mem
  rw [imageEntry, imageEntry, imageEntry, evens i inside, odds i inside, map_zero, zero_mul, add_zero,
    pow_mul (AdjoinRoot.root (X ^ (2 * h) + 1 : Polynomial R))]

/- What turning does not change has nothing at the odd places. -/
theorem turnedFixed [IsDomain R] [CharZero R] {n : Nat} (positive : 0 < n) (even : Even n) {p q : List R} (width : p.length = n)
    (sameWidth : q.length = n) (entries : ∀ i, q.getD i 0 = if i % 2 = 1 then -p.getD i 0 else p.getD i 0)
    (fixed : turned even (element n p) = element n p) (i : Nat) (odd : i % 2 = 1) : p.getD i 0 = 0 := by
  have same : q = p := by
    refine elementInj positive sameWidth width ?_
    rw [elementTurned even (sameWidth.trans width.symm) entries, fixed]
  have entry := entries i
  rw [same, if_pos odd] at entry
  exact self_eq_neg.mp entry

end Halving
