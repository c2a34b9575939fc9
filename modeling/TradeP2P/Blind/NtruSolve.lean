import TradeP2P.Blind.IntegerRing
import TradeP2P.Lib.Halving

/-! The other half of a trapdoor: down through the norms to two integers, their Bezout coefficients, and up
again. The source checks its own work at every level; the checks never fail. -/
namespace TradeP2P.Blns7933
open Checks
open Coefficients (Negacyclic element elementInj)
open Halving (turned spread)

structure BezoutResult where
  gcd : Int
  u : Int
  v : Int

def gcdRounds (oldR r oldS s oldT t : Int) : BezoutResult :=
  if _ : r = 0 then ⟨oldR, oldS, oldT⟩
  else
    let quotient := oldR.tdiv r
    gcdRounds r (oldR - quotient * r) s (oldS - quotient * s) t (oldT - quotient * t)
termination_by r.natAbs
decreasing_by
  have remainder : oldR - oldR.tdiv r * r = oldR.tmod r := by
    have whole := Int.mul_tdiv_add_tmod oldR r
    rw [mul_comm] at whole
    omega
  rw [remainder, Int.natAbs_tmod]
  exact Nat.mod_lt _ (Int.natAbs_pos.mpr ‹¬r = 0›)

def extendedGcd (a b : Int) : BezoutResult :=
  let found := gcdRounds (if a < 0 then -a else a) (if b < 0 then -b else b) 1 0 0 1
  ⟨found.gcd, if a < 0 then -found.u else found.u, if b < 0 then -found.v else found.v⟩

def maxBitsPair (a b : ZPoly) : Nat := max (maxCoefficientBitLength a) (maxCoefficientBitLength b)

structure NTRUSolverLevelDiagnostics where
  degree : Nat
  inputMaxBits : Nat
  normMaxBits : Nat
  outputMaxBits : Nat

structure NTRUEquationSolver where
  degree : Nat
  q : Int
  powerOfTwo : isPowerOfTwo degree = true
  positive : 0 < q

namespace NTRUEquationSolver

def make (degree : Nat) (q : Int) : Except Error NTRUEquationSolver :=
  if power : isPowerOfTwo degree = true then
    if positive : 0 < q then .ok ⟨degree, q, power, positive⟩
    else .error (.invalidArgument "NTRUSolve q must be positive")
  else .error (.invalidArgument "NTRUSolve degree must be a non-zero power of two")

abbrev Found := Option NTRUSolution × List NTRUSolverLevelDiagnostics

def baseCase (q : Int) (ff gg : ZPoly) : Except Error Found :=
  let bezout := extendedGcd (ff.getD 0 0) (gg.getD 0 0)
  if bezout.gcd ≠ 1 then .ok (none, [⟨1, maxBitsPair ff gg, 0, 0⟩])
  else do
    let solution : NTRUSolution := ⟨[-(bezout.v * q)], [bezout.u * q]⟩
    let holds ← verifyNtruRelationExact ff gg solution.capF solution.capG q 1
    throwIf (holds = false) (.logicError "NTRUSolve base-case invariant failed")
    return (some solution, [⟨1, maxBitsPair ff gg, 0, maxBitsPair solution.capF solution.capG⟩])

def lift (q : Int) (degree : Nat) (ff gg : ZPoly) (half : NTRUSolution) : Except Error NTRUSolution := do
  let embeddedF ← IntegerRing.embedHalf degree half.capF
  let embeddedG ← IntegerRing.embedHalf degree half.capG
  let capF ← IntegerRing.mul degree embeddedF (← IntegerRing.conjugate degree gg)
  let capG ← IntegerRing.mul degree embeddedG (← IntegerRing.conjugate degree ff)
  let holds ← verifyNtruRelationExact ff gg capF capG q degree
  throwIf (holds = false) (.logicError "NTRUSolve recursive lift invariant failed")
  return ⟨capF, capG⟩

-- The levels as they were pushed: the outermost first.
def solveRecursive (q : Int) (degree : Nat) (f g : ZPoly) : Except Error Found :=
  if _ : degree = 0 then .error (.invalidArgument "BLNS7933 integer ring degree must be non-zero")
  else do
    let ff ← IntegerRing.size degree f
    let gg ← IntegerRing.size degree g
    if degree = 1 then baseCase q ff gg
    else do
      let normF ← IntegerRing.fieldNorm degree ff
      let normG ← IntegerRing.fieldNorm degree gg
      let (half, levels) ← solveRecursive q (degree / 2) normF normG
      match half with
      | none => return (none, ⟨degree, maxBitsPair ff gg, maxBitsPair normF normG, 0⟩ :: levels)
      | some half => do
          let solution ← lift q degree ff gg half
          return (some solution,
            ⟨degree, maxBitsPair ff gg, maxBitsPair normF normG, maxBitsPair solution.capF solution.capG⟩ :: levels)
termination_by degree
decreasing_by omega

def solve (solver : NTRUEquationSolver) (f g : ZPoly) : Except Error Found := solveRecursive solver.q solver.degree f g

end NTRUEquationSolver

/- The integer that `field_norm`, taken again and again, comes down to. -/
def deepestNorm (degree : Nat) (f : ZPoly) : Except Error Int :=
  if _ : degree = 0 then .error (.invalidArgument "BLNS7933 integer ring degree must be non-zero")
  else do
    let ff ← IntegerRing.size degree f
    if degree = 1 then return ff.getD 0 0
    else do
      let norm ← IntegerRing.fieldNorm degree ff
      deepestNorm (degree / 2) norm
termination_by degree
decreasing_by omega

/-! Euclid, with what the remainders are made of. -/

theorem gcdRoundsMeaning {a b : Int} (oldR r oldS s oldT t : Int) (oldNonneg : 0 ≤ oldR) (nonneg : 0 ≤ r) (old : oldS * a + oldT * b = oldR)
    (new : s * a + t * b = r) :
    (gcdRounds oldR r oldS s oldT t).gcd = Int.gcd oldR r ∧
      (gcdRounds oldR r oldS s oldT t).u * a + (gcdRounds oldR r oldS s oldT t).v * b = (gcdRounds oldR r oldS s oldT t).gcd := by
  induction oldR, r, oldS, s, oldT, t using gcdRounds.induct with
  | case1 oldR oldS s oldT t =>
      rw [gcdRounds, dif_pos rfl, Int.gcd_zero_right]
      exact ⟨(Int.natAbs_of_nonneg oldNonneg).symm, old⟩
  | case2 oldR r oldS s oldT t apart quotient ih =>
      have remainder : oldR - quotient * r = oldR % r := by
        have whole := Int.mul_ediv_add_emod oldR r
        have same : quotient = oldR / r := Int.tdiv_eq_ediv_of_nonneg oldNonneg
        rw [same, mul_comm]
        omega
      rw [gcdRounds, dif_neg apart]
      obtain ⟨greatest, combination⟩ := ih nonneg (by rw [remainder]; exact Int.emod_nonneg _ apart) new (by rw [← old, ← new]; ring)
      refine ⟨greatest.trans ?_, combination⟩
      rw [remainder, Int.gcd_comm, Int.gcd_emod]

theorem extendedGcdMeaning (a b : Int) :
    (extendedGcd a b).gcd = Int.gcd a b ∧ (extendedGcd a b).u * a + (extendedGcd a b).v * b = (extendedGcd a b).gcd := by
  have sign (x : Int) : (if x < 0 then -x else x) = |x| := by
    by_cases negative : x < 0
    · rw [if_pos negative, abs_of_neg negative]
    · rw [if_neg negative, abs_of_nonneg (not_lt.mp negative)]
  have turn (x c : Int) : (if x < 0 then -c else c) * x = c * |x| := by
    by_cases negative : x < 0
    · rw [if_pos negative, abs_of_neg negative]
      ring
    · rw [if_neg negative, abs_of_nonneg (not_lt.mp negative)]
  obtain ⟨greatest, combination⟩ := @gcdRoundsMeaning |a| |b| |a| |b| 1 0 0 1 (abs_nonneg a) (abs_nonneg b) (by ring) (by ring)
  simp only [extendedGcd, sign, turn]
  refine ⟨greatest.trans ?_, combination⟩
  rw [Int.gcd_def, Int.natAbs_abs, Int.natAbs_abs, ← Int.gcd_def]

/-! One level. -/
section Levels
variable {degree : Nat} {a f g : ZPoly} {q : Int}

theorem turnOddEntry (i : Nat) : (IntegerRing.turnOdd a).getD i 0 = if i % 2 = 1 then -a.getD i 0 else a.getD i 0 := by
  simp only [IntegerRing.turnOdd, List.getD_eq_getElem?_getD, List.getElem?_mapIdx]
  cases a[i]? with
  | none => simp
  | some c => by_cases odd : i % 2 = 1 <;> simp [odd]

theorem turnOddWidth : (IntegerRing.turnOdd a).length = a.length := by simp [IntegerRing.turnOdd]

theorem conjugateMeaning (even : Even degree) (width : a.length = degree) :
    ∃ b, IntegerRing.conjugate degree a = .ok b ∧ b.length = degree ∧ element degree b = turned even (element degree a) := by
  obtain ⟨sized, size⟩ := canonicalSizeTotal integerTooLong width.le
  obtain ⟨wide, worth⟩ := canonicalSizeMeaning size
  refine ⟨IntegerRing.turnOdd sized, ?_, turnOddWidth.trans wide, ?_⟩
  · rw [IntegerRing.conjugate, IntegerRing.size, size]
    rfl
  · rw [← worth]
    exact Halving.elementTurned even turnOddWidth turnOddEntry

theorem turnedTwice (even : Even degree) (a : ZPoly) : turned even (turned even (element degree a)) = element degree a := by
  rw [← Halving.elementTurned even turnOddWidth turnOddEntry, ← Halving.elementTurned even turnOddWidth turnOddEntry]
  congr 1
  refine List.ext_getElem (by rw [turnOddWidth, turnOddWidth]) fun i left right => ?_
  rw [← List.getD_eq_getElem _ 0 left, turnOddEntry, turnOddEntry, List.getD_eq_getElem _ 0 right]
  by_cases odd : i % 2 = 1 <;> simp [odd]

/- `f(x) * f(-x)` is its own image under `x ↦ -x`, so it has even powers only. -/
theorem fieldNormMeaning {half : Nat} (positive : 0 < half) (power : isPowerOfTwo (2 * half) = true) (width : a.length = 2 * half) :
    ∃ norm, IntegerRing.fieldNorm (2 * half) a = .ok norm ∧ norm.length = half ∧
      spread half (element half norm) = element (2 * half) a * turned (even_two_mul half) (element (2 * half) a) := by
  have even : Even (2 * half) := even_two_mul half
  obtain ⟨aa, size⟩ := canonicalSizeTotal integerTooLong width.le
  obtain ⟨wide, worth⟩ := canonicalSizeMeaning size
  obtain ⟨other, conjugated, otherWide, otherWorth⟩ := conjugateMeaning even wide
  obtain ⟨product, multiplied⟩ := exactMulTotal integerTooLong wide.le otherWide.le
  obtain ⟨productWide, productWorth⟩ := exactMulMeaning multiplied
  have fixed : turned even (element (2 * half) product) = element (2 * half) product := by
    rw [productWorth, otherWorth, map_mul, turnedTwice]
    exact mul_comm _ _
  have odds (i : Nat) (odd : i % 2 = 1) : product.getD i 0 = 0 :=
    Halving.turnedFixed (by omega) even productWide (turnOddWidth.trans productWide) turnOddEntry fixed i odd
  have clean : ¬∃ i ∈ List.range (2 * half), i % 2 = 1 ∧ product.getD i 0 ≠ 0 := by
    rintro ⟨i, _, odd, apart⟩
    exact apart (odds i odd)
  have halves : 2 * half / 2 = half := by omega
  have entry (i : Nat) (inside : i < half) : product.getD (2 * i) 0 = (IntegerRing.evens (2 * half) product).getD i 0 := by
    rw [IntegerRing.evens, halves, List.getD_eq_getElem ((List.range half).map _) _ (by simpa using inside), List.getElem_map,
      List.getElem_range]
  have valid : ¬(2 * half < 2 ∨ isPowerOfTwo (2 * half) = false) := by
    rw [power]
    simp only [Bool.true_eq_false, or_false]
    omega
  refine ⟨IntegerRing.evens (2 * half) product, ?_, by simp [IntegerRing.evens, halves], ?_⟩
  · simp only [IntegerRing.fieldNorm, throwIf_not valid, IntegerRing.size, size, conjugated, IntegerRing.mul, multiplied,
      throwIf_not clean, bind, Except.bind]
    rfl
  · rw [← worth, ← otherWorth, ← productWorth]
    exact (Halving.elementSpread productWide.le (by simp [IntegerRing.evens, halves]) entry fun i _ => odds _ (by omega)).symm

theorem embeddedEntry (half out : ZPoly) (count i : Nat) (inside : i < out.length) :
    ((List.range count).foldl (fun out i => out.set (2 * i) (half.getD i 0)) out).length = out.length ∧
      ((List.range count).foldl (fun out i => out.set (2 * i) (half.getD i 0)) out).getD i 0 =
        if i % 2 = 0 ∧ i / 2 < count then half.getD (i / 2) 0 else out.getD i 0 := by
  induction count with
  | zero => simp
  | succ count ih =>
      obtain ⟨width, entry⟩ := ih
      rw [List.range_succ, List.foldl_append, List.foldl_cons, List.foldl_nil, List.length_set]
      refine ⟨width, ?_⟩
      rw [List.getD_eq_getElem _ _ (by rw [List.length_set]; omega), List.getElem_set]
      by_cases here : 2 * count = i
      · subst here
        have middle : 2 * count / 2 = count := by omega
        rw [if_pos rfl, middle, if_pos ⟨by omega, by omega⟩]
      · rw [if_neg here, ← List.getD_eq_getElem _ 0, entry]
        refine if_congr ?_ rfl rfl
        omega

theorem embedHalfMeaning {half : Nat} (positive : 0 < half) (power : isPowerOfTwo (2 * half) = true) (width : a.length = half) :
    ∃ b, IntegerRing.embedHalf (2 * half) a = .ok b ∧ b.length = 2 * half ∧ element (2 * half) b = spread half (element half a) := by
  have halves : 2 * half / 2 = half := by omega
  have valid : ¬(2 * half < 2 ∨ isPowerOfTwo (2 * half) = false) := by
    rw [power]
    simp only [Bool.true_eq_false, or_false]
    omega
  have entries (i : Nat) (inside : i < 2 * half) := embeddedEntry a (List.replicate (2 * half) 0) a.length i (by simpa using inside)
  have wide : (IntegerRing.spreadOut (2 * half) a).length = 2 * half := (entries 0 (by omega)).1.trans (by simp)
  refine ⟨IntegerRing.spreadOut (2 * half) a, ?_, wide, Halving.elementSpread wide.le width.le (fun i inside => ?_) fun i inside => ?_⟩
  · rw [IntegerRing.embedHalf, throwIf_not valid, throwIf_not (by omega)]
    rfl
  · have middle : 2 * i / 2 = i := by omega
    rw [IntegerRing.spreadOut, (entries (2 * i) (by omega)).2, middle, if_pos ⟨by omega, by omega⟩]
  · rw [IntegerRing.spreadOut, (entries (2 * i + 1) (by omega)).2, if_neg (by omega),
      List.getD_eq_getElem _ _ (by rw [List.length_replicate]; omega), List.getElem_replicate]

/- `F(x) = F'(x ^ 2) * g(-x)` and `G(x) = G'(x ^ 2) * f(-x)`: each product of the relation is a norm times a half. -/
theorem liftMeaning {half : Nat} {normF normG : ZPoly} {s : NTRUSolution} (positive : 0 < half) (power : isPowerOfTwo (2 * half) = true)
    (widthF : f.length = 2 * half) (widthG : g.length = 2 * half) (sized : s.capF.length = half ∧ s.capG.length = half)
    (worthF : spread half (element half normF) = element (2 * half) f * turned (even_two_mul half) (element (2 * half) f))
    (worthG : spread half (element half normG) = element (2 * half) g * turned (even_two_mul half) (element (2 * half) g))
    (solves : s.Solves half normF normG q) :
    ∃ solution, NTRUEquationSolver.lift q (2 * half) f g s = .ok solution ∧
      (solution.capF.length = 2 * half ∧ solution.capG.length = 2 * half) ∧ solution.Solves (2 * half) f g q := by
  obtain ⟨wideF, embeddedF, wideSizeF, wideWorthF⟩ := embedHalfMeaning positive power sized.1
  obtain ⟨wideG, embeddedG, wideSizeG, wideWorthG⟩ := embedHalfMeaning positive power sized.2
  obtain ⟨turnedG, conjugatedG, turnedSizeG, turnedWorthG⟩ := conjugateMeaning (even_two_mul half) widthG
  obtain ⟨turnedF, conjugatedF, turnedSizeF, turnedWorthF⟩ := conjugateMeaning (even_two_mul half) widthF
  obtain ⟨capF, multipliedF⟩ := exactMulTotal integerTooLong wideSizeF.le turnedSizeG.le
  obtain ⟨capG, multipliedG⟩ := exactMulTotal integerTooLong wideSizeG.le turnedSizeF.le
  obtain ⟨sizeF, meansF⟩ := exactMulMeaning multipliedF
  obtain ⟨sizeG, meansG⟩ := exactMulMeaning multipliedG
  have solved : NTRUSolution.Solves (2 * half) f g q ⟨capF, capG⟩ := by
    have raised := congrArg (spread half) solves
    rw [map_sub, map_mul, map_mul, worthF, worthG, Halving.spreadConstant] at raised
    rw [NTRUSolution.Solves, meansF, meansG, wideWorthF, wideWorthG, turnedWorthF, turnedWorthG]
    refine Eq.trans ?_ raised
    ring
  have checked := (verifyOk (s := ⟨capF, capG⟩) (by omega)).mpr ⟨widthF.le, widthG.le, ⟨sizeF.le, sizeG.le⟩, solved⟩
  refine ⟨⟨capF, capG⟩, ?_, ⟨sizeF, sizeG⟩, solved⟩
  simp only [NTRUEquationSolver.lift, embeddedF, embeddedG, conjugatedG, conjugatedF, IntegerRing.mul, multipliedF, multipliedG, checked,
    bind, Except.bind]
  rfl

end Levels

/-! The tower. -/

theorem elementOne (c : Int) : element 1 [c] = AdjoinRoot.of (Polynomial.X ^ 1 + 1 : Polynomial ℤ) c := by simp [element]

theorem elementSingle {a : ZPoly} (width : a.length = 1) :
    element 1 a = AdjoinRoot.of (Polynomial.X ^ 1 + 1 : Polynomial ℤ) (a.getD 0 0) := by
  obtain ⟨c, rfl⟩ := List.length_eq_one_iff.mp width
  exact elementOne c

theorem baseCaseMeaning (q : Int) {ff gg : ZPoly} (widthF : ff.length = 1) (widthG : gg.length = 1) :
    ∃ found levels, NTRUEquationSolver.baseCase q ff gg = .ok (found, levels) ∧
      (found.isSome = true ↔ Int.gcd (ff.getD 0 0) (gg.getD 0 0) = 1) ∧
      ∀ s, found = some s → (s.capF.length = 1 ∧ s.capG.length = 1) ∧ s.Solves 1 ff gg q := by
  obtain ⟨greatest, combination⟩ := extendedGcdMeaning (ff.getD 0 0) (gg.getD 0 0)
  generalize bezoutIs : extendedGcd (ff.getD 0 0) (gg.getD 0 0) = bezout at greatest combination
  have unit : bezout.gcd = 1 ↔ Int.gcd (ff.getD 0 0) (gg.getD 0 0) = 1 := by
    rw [greatest]
    exact_mod_cast Iff.rfl
  by_cases coprime : bezout.gcd = 1
  · have solves : NTRUSolution.Solves 1 ff gg q ⟨[-(bezout.v * q)], [bezout.u * q]⟩ := by
      rw [NTRUSolution.Solves, elementSingle widthF, elementSingle widthG, elementOne, elementOne, ← map_mul, ← map_mul, ← map_sub]
      congr 1
      rw [coprime] at combination
      linear_combination q * combination
    have checked := (verifyOk (s := ⟨[-(bezout.v * q)], [bezout.u * q]⟩) one_pos).mpr ⟨widthF.le, widthG.le, ⟨le_rfl, le_rfl⟩, solves⟩
    refine ⟨some ⟨[-(bezout.v * q)], [bezout.u * q]⟩, [⟨1, maxBitsPair ff gg, 0, maxBitsPair [-(bezout.v * q)] [bezout.u * q]⟩], ?_,
      ⟨fun _ => unit.mp coprime, fun _ => rfl⟩, fun s is => ?_⟩
    · simp only [NTRUEquationSolver.baseCase, bezoutIs, if_neg (not_not.mpr coprime), checked, bind, Except.bind]
      rfl
    · cases is
      exact ⟨⟨rfl, rfl⟩, solves⟩
  · refine ⟨none, [⟨1, maxBitsPair ff gg, 0, 0⟩], ?_, ⟨fun never => ?_, fun one => absurd (unit.mpr one) coprime⟩, fun s is => ?_⟩
    · simp only [NTRUEquationSolver.baseCase, bezoutIs, if_pos coprime]
    · cases never
    · cases is

theorem isPowerOfTwoIff {degree : Nat} : isPowerOfTwo degree = true ↔ ∃ k, degree = 2 ^ k := by
  rw [isPowerOfTwo, decide_eq_true_iff]
  exact Nat.ne_zero_and_sub_one_eq_zero_iff_isPowerOfTwo

/- Down the tower and up again, by induction on the number of levels. -/
theorem solveRecursiveMeaning (q : Int) (k : Nat) {f g : ZPoly} (shortF : f.length ≤ 2 ^ k) (shortG : g.length ≤ 2 ^ k) :
    ∃ r s found levels, deepestNorm (2 ^ k) f = .ok r ∧ deepestNorm (2 ^ k) g = .ok s ∧
      NTRUEquationSolver.solveRecursive q (2 ^ k) f g = .ok (found, levels) ∧ (found.isSome = true ↔ Int.gcd r s = 1) ∧
      ∀ sol, found = some sol → (sol.capF.length = 2 ^ k ∧ sol.capG.length = 2 ^ k) ∧ sol.Solves (2 ^ k) f g q := by
  obtain ⟨ff, sizeF⟩ := canonicalSizeTotal integerTooLong shortF
  obtain ⟨gg, sizeG⟩ := canonicalSizeTotal integerTooLong shortG
  obtain ⟨widthF, worthF⟩ := canonicalSizeMeaning sizeF
  obtain ⟨widthG, worthG⟩ := canonicalSizeMeaning sizeG
  induction k generalizing f g ff gg with
  | zero =>
      rw [pow_zero] at widthF widthG sizeF sizeG worthF worthG
      obtain ⟨found, levels, ran, coprime, solves⟩ := baseCaseMeaning q widthF widthG
      refine ⟨ff.getD 0 0, gg.getD 0 0, found, levels, ?_, ?_, ?_, coprime, fun sol is => ⟨(solves sol is).1, ?_⟩⟩
      · rw [deepestNorm]
        simp only [pow_zero, one_ne_zero, dite_false, IntegerRing.size, sizeF, bind, Except.bind, if_true]
        rfl
      · rw [deepestNorm]
        simp only [pow_zero, one_ne_zero, dite_false, IntegerRing.size, sizeG, bind, Except.bind, if_true]
        rfl
      · rw [NTRUEquationSolver.solveRecursive]
        simp only [pow_zero, one_ne_zero, dite_false, IntegerRing.size, sizeF, sizeG, bind, Except.bind, if_true, ran]
      · have solved := (solves sol is).2
        rw [NTRUSolution.Solves, worthF, worthG] at solved
        exact solved
  | succ k ih =>
      have positive : 0 < 2 ^ k := Nat.two_pow_pos k
      have double : 2 ^ (k + 1) = 2 * 2 ^ k := by rw [pow_succ, mul_comm]
      have power : isPowerOfTwo (2 * 2 ^ k) = true := isPowerOfTwoIff.mpr ⟨k + 1, double.symm⟩
      rw [double] at widthF widthG sizeF sizeG worthF worthG ⊢
      have notZero : ¬2 * 2 ^ k = 0 := by omega
      have notOne : ¬2 * 2 ^ k = 1 := by omega
      have halves : 2 * 2 ^ k / 2 = 2 ^ k := by omega
      obtain ⟨normF, normedF, normSizeF, normWorthF⟩ := fieldNormMeaning positive power widthF
      obtain ⟨normG, normedG, normSizeG, normWorthG⟩ := fieldNormMeaning positive power widthG
      obtain ⟨nf, sizedF⟩ := canonicalSizeTotal integerTooLong normSizeF.le
      obtain ⟨ng, sizedG⟩ := canonicalSizeTotal integerTooLong normSizeG.le
      obtain ⟨r, s, found, levels, deepF, deepG, ran, coprime, solves⟩ := ih normSizeF.le normSizeG.le nf sizedF ng sizedG
        (canonicalSizeMeaning sizedF).1 (canonicalSizeMeaning sizedF).2 (canonicalSizeMeaning sizedG).1 (canonicalSizeMeaning sizedG).2
      have downF : deepestNorm (2 * 2 ^ k) f = .ok r := by
        rw [deepestNorm, dif_neg notZero]
        simp only [IntegerRing.size, sizeF, bind, Except.bind, if_neg notOne, normedF, halves, deepF]
      have downG : deepestNorm (2 * 2 ^ k) g = .ok s := by
        rw [deepestNorm, dif_neg notZero]
        simp only [IntegerRing.size, sizeG, bind, Except.bind, if_neg notOne, normedG, halves, deepG]
      cases found with
      | none =>
          refine ⟨r, s, none, ⟨2 * 2 ^ k, maxBitsPair ff gg, maxBitsPair normF normG, 0⟩ :: levels, downF, downG, ?_, coprime,
            fun sol is => ?_⟩
          · rw [NTRUEquationSolver.solveRecursive, dif_neg notZero]
            simp only [IntegerRing.size, sizeF, sizeG, bind, Except.bind, if_neg notOne, normedF, normedG, halves, ran]
            rfl
          · cases is
      | some half =>
          obtain ⟨sized, solved⟩ := solves half rfl
          obtain ⟨sol, lifted, wide, correct⟩ := liftMeaning positive power widthF widthG sized normWorthF normWorthG solved
          refine ⟨r, s, some sol, ⟨2 * 2 ^ k, maxBitsPair ff gg, maxBitsPair normF normG, maxBitsPair sol.capF sol.capG⟩ :: levels,
            downF, downG, ?_, coprime, fun other is => ?_⟩
          · rw [NTRUEquationSolver.solveRecursive, dif_neg notZero]
            simp only [IntegerRing.size, sizeF, sizeG, bind, Except.bind, if_neg notOne, normedF, normedG, halves, ran, lifted]
            rfl
          · cases is
            refine ⟨wide, ?_⟩
            rw [NTRUSolution.Solves, worthF, worthG] at correct
            exact correct

/- The solver never throws on polynomials of its ring, finds a solution exactly when the deepest norms have no
common divisor, and what it finds is one. -/
theorem equationSolved (solver : NTRUEquationSolver) (f g : ZPoly) (shortF : f.length ≤ solver.degree) (shortG : g.length ≤ solver.degree) :
    ∃ r s found levels, deepestNorm solver.degree f = .ok r ∧ deepestNorm solver.degree g = .ok s ∧
      solver.solve f g = .ok (found, levels) ∧ (found.isSome = true ↔ Int.gcd r s = 1) ∧
      ∀ sol, found = some sol → verifyNtruRelationExact f g sol.capF sol.capG solver.q solver.degree = .ok true ∧
        sol.Solves solver.degree f g solver.q := by
  obtain ⟨k, degree⟩ := isPowerOfTwoIff.mp solver.powerOfTwo
  rw [NTRUEquationSolver.solve]
  have positive := isPowerOfTwoPositive solver.powerOfTwo
  rw [degree] at shortF shortG positive ⊢
  obtain ⟨r, s, found, levels, deepF, deepG, ran, coprime, solves⟩ := solveRecursiveMeaning solver.q k shortF shortG
  refine ⟨r, s, found, levels, deepF, deepG, ran, coprime, fun sol is => ?_⟩
  obtain ⟨⟨sizeF, sizeG⟩, solved⟩ := solves sol is
  exact ⟨(verifyOk positive).mpr ⟨shortF, shortG, ⟨sizeF.le, sizeG.le⟩, solved⟩, solved⟩

/- Degree two, with a negative coefficient and a zero one. -/
theorem equationSolvedSmall : ∃ r s found levels, deepestNorm 2 [3, -1] = .ok r ∧ deepestNorm 2 [0, 1] = .ok s ∧
    NTRUEquationSolver.solve ⟨2, 7, by decide, by decide⟩ [3, -1] [0, 1] = .ok (found, levels) ∧ (found.isSome = true ↔ Int.gcd r s = 1) ∧
      ∀ sol, found = some sol → verifyNtruRelationExact [3, -1] [0, 1] sol.capF sol.capG 7 2 = .ok true ∧
        sol.Solves 2 [3, -1] [0, 1] 7 :=
  equationSolved ⟨2, 7, by decide, by decide⟩ [3, -1] [0, 1] (by decide) (by decide)

end TradeP2P.Blns7933
