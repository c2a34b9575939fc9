import Mathlib.Algebra.Polynomial.Degree.Lemmas
import Mathlib.Algebra.BigOperators.Group.List.Lemmas
import Mathlib.Data.List.GetD
import Mathlib.RingTheory.AdjoinRoot

/-! Polynomials as lists of coefficients, the constant one first, and what a list is worth at a point
of a commutative ring. Loops that add into the list are read as sums; modulo `x ^ n + 1` a list of `n`
coefficients stands for one element, and only one. -/
namespace Coefficients
open Polynomial

variable {α ι R S : Type} [CommRing S]

def value (x : S) : List S → S
  | [] => 0
  | c :: rest => c + x * value x rest

section Values
variable (x : S)

@[simp] theorem valueNil : value x [] = 0 := rfl
@[simp] theorem valueCons (c : S) (rest : List S) : value x (c :: rest) = c + x * value x rest := rfl

theorem valueAppend (a b : List S) : value x (a ++ b) = value x a + x ^ a.length * value x b := by
  induction a with
  | nil => simp
  | cons c rest ih =>
      rw [List.cons_append, valueCons, valueCons, ih, List.length_cons, pow_succ]
      ring

@[simp] theorem valueZeros (n : Nat) : value x (List.replicate n 0) = 0 := by
  induction n with
  | zero => rfl
  | succ n ih => rw [List.replicate_succ, valueCons, ih, mul_zero, add_zero]

theorem valueZipWith (f : S → S → S) (u v : S) (linear : ∀ c d, f c d = u * c + v * d) {a b : List S}
    (width : a.length = b.length) : value x (List.zipWith f a b) = u * value x a + v * value x b := by
  induction a generalizing b with
  | nil =>
      obtain rfl := List.eq_nil_of_length_eq_zero width.symm
      simp
  | cons c rest ih =>
      cases b with
      | nil => simp at width
      | cons d more =>
          rw [List.zipWith_cons_cons, valueCons, valueCons, valueCons, ih (by simpa using width), linear]
          ring

theorem valueScale (c : S) (a : List S) : value x (a.map (c * ·)) = c * value x a := by
  induction a with
  | nil => simp
  | cons d rest ih =>
      rw [List.map_cons, valueCons, valueCons, ih]
      ring

theorem valueModify (c : S) {out : List S} {k : Nat} (inside : k < out.length) :
    value x (out.modify k (· + c)) = value x out + c * x ^ k := by
  induction out generalizing k with
  | nil => simp at inside
  | cons d rest ih =>
      cases k with
      | zero =>
          rw [List.modify_zero_cons, valueCons, valueCons, pow_zero]
          ring
      | succ k =>
          rw [List.modify_succ_cons, valueCons, valueCons, ih (by simpa using inside), pow_succ]
          ring

theorem valueMap {T : Type} [CommRing T] (φ : S →+* T) (a : List S) : value (φ x) (a.map φ) = φ (value x a) := by
  induction a with
  | nil => simp
  | cons c rest ih => rw [List.map_cons, valueCons, valueCons, ih, map_add, map_mul]

/- A list is the sum of its terms, read to any length that covers it. -/
theorem valueSum {a : List S} {n : Nat} (covers : a.length ≤ n) :
    value x a = ((List.range n).map fun i => a.getD i 0 * x ^ i).sum := by
  induction n generalizing a with
  | zero =>
      obtain rfl := List.eq_nil_of_length_eq_zero (Nat.le_zero.mp covers)
      rfl
  | succ n ih =>
      rw [List.range_succ_eq_map, List.map_cons, List.sum_cons, List.map_map]
      cases a with
      | nil => simp [Function.comp_def]
      | cons c rest =>
          have tail := ih (a := rest) (by simpa using covers)
          rw [valueCons, tail, List.getD_cons_zero, pow_zero, mul_one, ← List.sum_map_mul_left]
          congr 2
          refine List.map_congr_left fun i _ => ?_
          simp only [Function.comp_apply, List.getD_cons_succ, pow_succ]
          ring

end Values

/-! Loops. Each round adds its own term to what the list is worth. -/

theorem foldAdds {β : Type} (worth : β → S) (keeps : β → Prop) (step : β → ι → β) (term : ι → S) (items : List ι)
    (round : ∀ out i, i ∈ items → keeps out → keeps (step out i) ∧ worth (step out i) = worth out + term i)
    (out : β) (kept : keeps out) :
    keeps (items.foldl step out) ∧ worth (items.foldl step out) = worth out + (items.map term).sum := by
  induction items generalizing out with
  | nil => simpa using kept
  | cons i rest ih =>
      obtain ⟨kept, first⟩ := round out i List.mem_cons_self kept
      obtain ⟨kept, others⟩ := ih (fun out j mem => round out j (List.mem_cons_of_mem i mem)) (step out i) kept
      refine ⟨kept, ?_⟩
      rw [List.foldl_cons, others, first, List.map_cons, List.sum_cons, add_assoc]

/- The same for rounds that may stop, where none of them does. -/
theorem foldAddsSome {β : Type} (worth : β → S) (keeps : β → Prop) (step : β → ι → Option β) (term : ι → S) (items : List ι)
    (round : ∀ out i, i ∈ items → keeps out → ∃ out', step out i = some out' ∧ keeps out' ∧ worth out' = worth out + term i)
    (out : β) (kept : keeps out) :
    ∃ out', items.foldlM step out = some out' ∧ keeps out' ∧ worth out' = worth out + (items.map term).sum := by
  induction items generalizing out with
  | nil => exact ⟨out, rfl, kept, by simp⟩
  | cons i rest ih =>
      obtain ⟨mid, stepped, kept, first⟩ := round out i List.mem_cons_self kept
      obtain ⟨out', ran, kept, others⟩ := ih (fun out j mem => round out j (List.mem_cons_of_mem i mem)) mid kept
      refine ⟨out', ?_, kept, ?_⟩
      · rw [List.foldlM_cons, stepped]
        exact ran
      · rw [others, first, List.map_cons, List.sum_cons, add_assoc]

/- Two loops over the same range that take the same steps as long as an invariant of the index holds. -/
theorem foldRange {β : Type} {f g : β → Nat → Option β} (keeps : Nat → β → Prop) (count : Nat)
    (round : ∀ i < count, ∀ out, keeps i out → ∃ out', f out i = some out' ∧ g out i = some out' ∧ keeps (i + 1) out')
    (out : β) (start : keeps 0 out) :
    ∃ out', (List.range count).foldlM f out = some out' ∧ (List.range count).foldlM g out = some out' ∧ keeps count out' := by
  induction count with
  | zero => exact ⟨out, rfl, rfl, start⟩
  | succ count ih =>
      obtain ⟨mid, first, second, kept⟩ := ih (fun i inside => round i (by omega))
      obtain ⟨out', left, right, kept⟩ := round count (by omega) mid kept
      refine ⟨out', ?_, ?_, kept⟩
      · rw [List.range_succ, List.foldlM_append, first]
        simpa using left
      · rw [List.range_succ, List.foldlM_append, second]
        simpa using right

theorem mapMSome {β γ : Type} {f : β → Option γ} {g : β → γ} {items : List β} (each : ∀ i ∈ items, f i = some (g i)) :
    items.mapM f = some (items.map g) := by
  induction items with
  | nil => rfl
  | cons i rest ih =>
      rw [List.mapM_cons, each i List.mem_cons_self, ih fun j mem => each j (List.mem_cons_of_mem i mem)]
      rfl

/- A product of two lists, term by term. -/
theorem valueProduct (x : S) {a b : List S} {m n : Nat} (coversA : a.length ≤ m) (coversB : b.length ≤ n) :
    ((List.range m).map fun i => ((List.range n).map fun j => a.getD i 0 * b.getD j 0 * x ^ (i + j)).sum).sum =
      value x a * value x b := by
  rw [valueSum x coversA, valueSum x coversB, ← List.sum_map_mul_right]
  congr 1
  refine List.map_congr_left fun i _ => ?_
  rw [← List.sum_map_mul_left]
  congr 1
  refine List.map_congr_left fun j _ => ?_
  rw [pow_add]
  ring

/-! The polynomial of a list. -/
section Polynomials
variable [CommRing R]

noncomputable def polynomial (a : List R) : R[X] := value X (a.map C)

theorem polynomialCoeff (a : List R) (i : Nat) : (polynomial a).coeff i = a.getD i 0 := by
  induction a generalizing i with
  | nil => simp [polynomial]
  | cons c rest ih =>
      rw [polynomial, List.map_cons, valueCons, coeff_add]
      cases i with
      | zero => simp
      | succ i =>
          have tail := ih i
          rw [polynomial] at tail
          simp [coeff_C_succ, coeff_X_mul, tail]

theorem polynomialInj {a b : List R} (width : a.length = b.length) (same : polynomial a = polynomial b) : a = b := by
  refine List.ext_getElem width fun i left right => ?_
  have coeff := congrArg (fun p => p.coeff i) same
  simpa [polynomialCoeff, List.getD_eq_getElem, left, right] using coeff

theorem polynomialCons (c : R) (rest : List R) : polynomial (c :: rest) = C c + X * polynomial rest := rfl

/- Small coefficients stay small: every term of a coefficient of the product is one entry times another. -/
theorem productBound (boundA boundP : ℤ) {a : List ℤ} {p : ℤ[X]} (smallA : ∀ c ∈ a, |c| ≤ boundA) (smallP : ∀ i, |p.coeff i| ≤ boundP)
    (i : Nat) : |(polynomial a * p).coeff i| ≤ a.length * (boundA * boundP) := by
  induction a generalizing i with
  | nil => simp [polynomial]
  | cons c rest ih =>
      have head : |c * p.coeff i| ≤ boundA * boundP := by
        rw [abs_mul]
        exact mul_le_mul (smallA c List.mem_cons_self) (smallP i) (abs_nonneg _) ((abs_nonneg c).trans (smallA c List.mem_cons_self))
      have tail (k : Nat) := ih (fun d mem => smallA d (List.mem_cons_of_mem c mem)) k
      rw [polynomialCons, add_mul, coeff_add, coeff_C_mul, mul_assoc, List.length_cons]
      push_cast
      cases i with
      | zero =>
          rw [coeff_X_mul_zero, add_zero]
          nlinarith [(abs_nonneg _).trans (tail 0)]
      | succ i =>
          rw [coeff_X_mul]
          nlinarith [tail i, abs_add_le (c * p.coeff (i + 1)) ((polynomial rest * p).coeff i)]

/- Modulo `X ^ n + 1`. -/
abbrev Negacyclic (R : Type) [CommRing R] (n : Nat) := AdjoinRoot (X ^ n + 1 : R[X])

noncomputable def element (n : Nat) (a : List R) : Negacyclic R n := value (AdjoinRoot.root _) (a.map (AdjoinRoot.of _))

theorem mapModify {β γ : Type} {f : β → γ} {g : β → β} {h : γ → γ} (natural : ∀ v, f (g v) = h (f v)) (a : List β) (k : Nat) :
    (a.modify k g).map f = (a.map f).modify k h := by
  induction a generalizing k with
  | nil => simp
  | cons c rest ih =>
      cases k with
      | zero => simp [natural]
      | succ k => simp [ih]

theorem elementZeros (n m : Nat) : element n (List.replicate m (0 : R)) = 0 := by simp [element]

theorem elementModify (n : Nat) (c : R) {out : List R} {k : Nat} (inside : k < out.length) :
    element n (out.modify k (· + c)) = element n out + AdjoinRoot.of _ c * AdjoinRoot.root _ ^ k := by
  rw [element, mapModify (h := (· + AdjoinRoot.of _ c)) (fun v => map_add _ v c), valueModify _ _ (by simpa using inside)]
  rfl

/- A one among zeros is a power of `x`. -/
theorem elementPower {n k : Nat} (inside : k < n) : element n ((List.replicate n (0 : R)).set k 1) = AdjoinRoot.root _ ^ k := by
  have added : (List.replicate n (0 : R)).set k 1 = (List.replicate n 0).modify k (· + 1) := by
    rw [List.modify_eq_set_getElem?, List.getElem?_replicate, if_pos inside]
    simp
  rw [added, elementModify _ _ (by simpa using inside), elementZeros, map_one, one_mul, zero_add]

theorem elementAdd (n : Nat) {a b : List R} (width : a.length = b.length) :
    element n (List.zipWith (· + ·) a b) = element n a + element n b := by
  have sum := valueZipWith (AdjoinRoot.root (X ^ n + 1 : R[X])) (· + ·) 1 1 (fun c d => by ring)
    (a := a.map (AdjoinRoot.of _)) (b := b.map (AdjoinRoot.of _)) (by simpa using width)
  simp only [one_mul, List.zipWith_map] at sum
  rw [element, List.map_zipWith, element, element, ← sum]
  simp only [map_add]

theorem elementSub (n : Nat) {a b : List R} (width : a.length = b.length) :
    element n (List.zipWith (· - ·) a b) = element n a - element n b := by
  have difference := valueZipWith (AdjoinRoot.root (X ^ n + 1 : R[X])) (· - ·) 1 (-1) (fun c d => by ring)
    (a := a.map (AdjoinRoot.of _)) (b := b.map (AdjoinRoot.of _)) (by simpa using width)
  simp only [one_mul, neg_mul, ← sub_eq_add_neg, List.zipWith_map] at difference
  rw [element, List.map_zipWith, element, element, ← difference]
  simp only [map_sub]

theorem elementScale (n : Nat) (c : R) (a : List R) : element n (a.map (c * ·)) = AdjoinRoot.of _ c * element n a := by
  have scaled := valueScale (AdjoinRoot.root (X ^ n + 1 : R[X])) (AdjoinRoot.of _ c) (a.map (AdjoinRoot.of _))
  rw [element, element, ← scaled, List.map_map, List.map_map]
  simp only [Function.comp_def, map_mul]

theorem elementProduct (n : Nat) {a b : List R} {m k : Nat} (coversA : a.length ≤ m) (coversB : b.length ≤ k) :
    ((List.range m).map fun i => ((List.range k).map fun j =>
      AdjoinRoot.of (X ^ n + 1 : R[X]) (a.getD i 0 * b.getD j 0) * AdjoinRoot.root _ ^ (i + j)).sum).sum =
      element n a * element n b := by
  have spread (l : List R) (i : Nat) : (l.map (AdjoinRoot.of (X ^ n + 1))).getD i 0 = AdjoinRoot.of _ (l.getD i 0) := by
    rw [← map_zero (AdjoinRoot.of (X ^ n + 1)), List.getD_map]
  rw [element, element, ← valueProduct _ (m := m) (n := k) (by simpa using coversA) (by simpa using coversB)]
  simp only [spread, map_mul]

theorem elementSum {n : Nat} (f : Nat → R) : element n ((List.range n).map f) =
    Finset.sum (Finset.range n) fun i => AdjoinRoot.of (X ^ n + 1 : R[X]) (f i) * AdjoinRoot.root _ ^ i := by
  have whole := valueSum (AdjoinRoot.root (X ^ n + 1 : R[X])) (n := n)
    (a := ((List.range n).map f).map (AdjoinRoot.of _)) (by simp)
  rw [element, whole]
  refine congrArg List.sum (List.map_congr_left fun i mem => ?_)
  have inside := List.mem_range.mp mem
  simp [List.getD_eq_getElem?_getD, inside]

theorem listed {n : Nat} {a : List R} (width : a.length = n) : a = (List.range n).map fun i => a.getD i 0 := by
  refine List.ext_getElem (by simp [width]) fun i left right => ?_
  rw [List.getElem_map, List.getElem_range, List.getD_eq_getElem _ _ left]

theorem elementTerms {n : Nat} {a : List R} (width : a.length = n) : element n a =
    Finset.sum (Finset.range n) fun i => AdjoinRoot.of (X ^ n + 1 : Polynomial R) (a.getD i 0) * AdjoinRoot.root _ ^ i := by
  conv_lhs => rw [listed width]
  exact elementSum _

theorem rootPow (n : Nat) : (AdjoinRoot.root (X ^ n + 1 : R[X])) ^ n = -1 := by
  have zero := AdjoinRoot.eval₂_root (X ^ n + 1 : R[X])
  simp only [eval₂_add, eval₂_X_pow, eval₂_one] at zero
  exact eq_neg_of_add_eq_zero_left zero

/- The ring over other coefficients. -/
noncomputable def extended {S : Type} [CommRing S] (φ : R →+* S) (n : Nat) : Negacyclic R n →+* Negacyclic S n :=
  AdjoinRoot.lift ((AdjoinRoot.of _).comp φ) (AdjoinRoot.root _) (by
    simp only [Polynomial.eval₂_add, Polynomial.eval₂_X_pow, Polynomial.eval₂_one, rootPow, neg_add_cancel])

theorem extendedRoot {S : Type} [CommRing S] (φ : R →+* S) (n : Nat) :
    extended φ n (AdjoinRoot.root (X ^ n + 1 : R[X])) = AdjoinRoot.root _ := AdjoinRoot.lift_root _

theorem elementExtended {S : Type} [CommRing S] (φ : R →+* S) (n : Nat) (a : List R) :
    element n (a.map φ) = extended φ n (element n a) := by
  have mapped := valueMap (AdjoinRoot.root (X ^ n + 1 : R[X])) (extended φ n) (a.map (AdjoinRoot.of _))
  have constant (c : R) : extended φ n (AdjoinRoot.of (X ^ n + 1 : R[X]) c) = AdjoinRoot.of _ (φ c) := AdjoinRoot.lift_of _
  rw [extendedRoot, List.map_map] at mapped
  rw [element, element, ← mapped, List.map_map]
  exact congrArg (value _) (List.map_congr_left fun c _ => (constant c).symm)

theorem elementMk (n : Nat) (a : List R) : element n a = AdjoinRoot.mk _ (polynomial a) := by
  have mapped := valueMap (X : R[X]) (AdjoinRoot.mk (X ^ n + 1)) (a.map C)
  rw [List.map_map] at mapped
  exact mapped

theorem elementInj [Nontrivial R] {n : Nat} (positive : 0 < n) {a b : List R} (widthA : a.length = n) (widthB : b.length = n)
    (same : element n a = element n b) : a = b := by
  refine polynomialInj (widthA.trans widthB.symm) (sub_eq_zero.mp ?_)
  by_contra apart
  rw [elementMk, elementMk, AdjoinRoot.mk_eq_mk] at same
  have monic : (X ^ n + 1 : R[X]).Monic := monic_X_pow_add_C 1 positive.ne'
  refine monic.not_dvd_of_degree_lt apart ?_ same
  have degree : (X ^ n + 1 : R[X]).degree = n := degree_X_pow_add_C positive 1
  rw [degree]
  refine (degree_lt_iff_coeff_zero _ _).mpr fun i far => ?_
  rw [coeff_sub, polynomialCoeff, polynomialCoeff, List.getD_eq_default _ _ (by omega), List.getD_eq_default _ _ (by omega),
    sub_zero]

end Polynomials

theorem modifySet {l : List α} {k : Nat} (inside : k < l.length) (f : α → α) (d : α) : l.modify k f = l.set k (f (l.getD k d)) := by
  rw [List.modify_eq_set_getElem?, List.getD_eq_getElem?_getD, List.getElem?_eq_getElem inside]
  rfl

end Coefficients
