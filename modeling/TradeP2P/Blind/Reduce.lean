import TradeP2P.Blind.IntegerRing

/-! Shortening the second half of a trapdoor: one shift of `(f, g)` at a time by the best whole multiple, or
all shifts at once by a vector that a real-number solver proposes. -/
namespace TradeP2P.Blns7933
open Checks
open Coefficients (Negacyclic element elementModify foldAdds rootPow)

def negacyclicShift (a : ZPoly) (shift degree : Nat) : Except Error ZPoly := do
  throwIf (a.length > degree) (.invalidArgument "reducer polynomial exceeds ring degree")
  throwIf (degree = 0 ∨ shift ≥ degree) (.invalidArgument "invalid reducer negacyclic shift")
  return (List.range a.length).foldl (fun out i => exactPlace degree out (i + shift) (a.getD i 0)) (List.replicate degree 0)

def innerProduct (a b : ZPoly) : Int := (List.range a.length).foldl (fun out i => out + a.getD i 0 * b.getD i 0) 0

def dot (a b : ZPoly) : Except Error Int := do
  throwIf (a.length ≠ b.length) (.invalidArgument "reducer dot-product size mismatch")
  return innerProduct a b

def pairDot (capF capG sf sg : ZPoly) : Except Error Int := do
  let first ← dot capF sf
  let second ← dot capG sg
  return first + second

def pairSquaredNorm (a b : ZPoly) : Except Error Int := do
  let first ← dot a a
  let second ← dot b b
  return first + second

def addScaledInPlace (dst src : ZPoly) (scale : Int) : Except Error ZPoly := do
  throwIf (dst.length ≠ src.length) (.invalidArgument "reducer scaled-add size mismatch")
  return List.zipWith (fun x y => x + scale * y) dst src

def exactDelta (c linear quadratic : Int) : Int := 2 * c * linear + c * c * quadratic

def bestIntegerCoordinate (linear quadratic : Int) : Except Error Int := do
  throwIf (quadratic ≤ 0) (.logicError "reducer encountered non-positive coordinate norm")
  let q := (-linear).tdiv quadratic
  return [q - 1, q + 1].foldl (fun best candidate =>
    let delta := exactDelta candidate linear quadratic
    let bestDelta := exactDelta best linear quadratic
    if delta < bestDelta ∨ (delta = bestDelta ∧ candidate < best) then candidate else best) q

structure NTRUReductionDiagnostics where
  passes : Nat
  acceptedSteps : Nat
  initialSquaredNorm : Int
  finalSquaredNorm : Int
  initialMaxBits : Nat
  finalMaxBits : Nat
  converged : Bool

structure NTRUBasisReducer where
  degree : Nat
  q : Int
  maxPasses : Nat
  powerOfTwo : isPowerOfTwo degree = true
  positive : 0 < q
  passes : maxPasses ≠ 0

namespace NTRUBasisReducer

def make (degree : Nat) (q : Int) (maxPasses : Nat) : Except Error NTRUBasisReducer :=
  if power : isPowerOfTwo degree = true then
    if positive : 0 < q then
      if passes : maxPasses ≠ 0 then .ok ⟨degree, q, maxPasses, power, positive, passes⟩
      else .error (.invalidArgument "NTRU reducer max_passes must be non-zero")
    else .error (.invalidArgument "NTRU reducer q must be positive")
  else .error (.invalidArgument "NTRU reducer degree must be a non-zero power of two")

def squaredNorm (capF capG : ZPoly) : Except Error Int := do
  throwIf (capF.length ≠ capG.length) (.invalidArgument "NTRU reducer norm size mismatch")
  pairSquaredNorm capF capG

structure Progress where
  out : NTRUSolution
  acceptedSteps : Nat
  changed : Bool

variable (reducer : NTRUBasisReducer)

def accept (ff gg sf sg : ZPoly) (c delta : Int) (now : Progress) : Except Error Progress := do
  let before ← squaredNorm now.out.capF now.out.capG
  let capF ← addScaledInPlace now.out.capF sf c
  let capG ← addScaledInPlace now.out.capG sg c
  let after ← squaredNorm capF capG
  throwIf (after ≥ before ∨ after - before ≠ delta) (.logicError "NTRU reducer exact norm-decrease invariant failed")
  let holds ← verifyNtruRelationExact ff gg capF capG reducer.q reducer.degree
  throwIf (holds = false) (.logicError "NTRU reducer changed the exact NTRU relation")
  return { out := ⟨capF, capG⟩, acceptedSteps := now.acceptedSteps + 1, changed := true }

def reduceShift (ff gg : ZPoly) (now : Progress) (shift : Nat) : Except Error Progress := do
  let sf ← negacyclicShift ff shift reducer.degree
  let sg ← negacyclicShift gg shift reducer.degree
  let quadratic ← pairSquaredNorm sf sg
  if quadratic = 0 then return now
  else do
    let linear ← pairDot now.out.capF now.out.capG sf sg
    let c ← bestIntegerCoordinate linear quadratic
    if c = 0 ∨ exactDelta c linear quadratic ≥ 0 then return now
    else reducer.accept ff gg sf sg c (exactDelta c linear quadratic) now

def onePass (ff gg : ZPoly) (now : Progress) : Except Error Progress :=
  (List.range reducer.degree).foldlM (reducer.reduceShift ff gg) { now with changed := false }

-- What is left of `max_passes`, the passes so far, and the pair; the last pass counts although it changes nothing.
def reducePasses (ff gg : ZPoly) : Nat → Nat → Progress → Except Error (Progress × Nat × Bool)
  | 0, passes, now => .ok (now, passes, false)
  | left + 1, passes, now => do
      let after ← reducer.onePass ff gg now
      if after.changed then reducePasses ff gg left (passes + 1) after else return (after, passes + 1, true)

def maxBits (s : NTRUSolution) : Nat := max (maxCoefficientBitLength s.capF) (maxCoefficientBitLength s.capG)

def reduce (f g : ZPoly) (input : NTRUSolution) : Except Error (NTRUSolution × NTRUReductionDiagnostics) := do
  IntegerRing.make reducer.degree
  let ff ← IntegerRing.size reducer.degree f
  let gg ← IntegerRing.size reducer.degree g
  let capF ← IntegerRing.size reducer.degree input.capF
  let capG ← IntegerRing.size reducer.degree input.capG
  let holds ← verifyNtruRelationExact ff gg capF capG reducer.q reducer.degree
  throwIf (holds = false) (.invalidArgument "NTRU reducer input does not satisfy fG-gF=q")
  let initial ← squaredNorm capF capG
  let (last, passes, converged) ← reducer.reducePasses ff gg reducer.maxPasses 0 ⟨⟨capF, capG⟩, 0, false⟩
  let still ← verifyNtruRelationExact ff gg last.out.capF last.out.capG reducer.q reducer.degree
  throwIf (still = false) (.logicError "NTRU reducer final exact relation check failed")
  let final ← squaredNorm last.out.capF last.out.capG
  return (last.out, ⟨passes, last.acceptedSteps, initial, final, maxBits ⟨capF, capG⟩, maxBits last.out, converged⟩)

end NTRUBasisReducer
/-! All shifts at once. The Gram matrix, its elimination and the rounding are over 256-digit reals; what
comes out of them is a vector of integers or a throw, and which one is left open. -/

abbrev RealSolver := NTRUSolution → Except Error (Nat → Int)

structure NTRUGlobalReductionDiagnostics where
  roundsAttempted : Nat
  acceptedRounds : Nat
  initialSquaredNorm : Int
  finalSquaredNorm : Int
  initialMaxBits : Nat
  finalMaxBits : Nat
  converged : Bool
  stoppedOnNonDecreasingRound : Bool

structure NTRUGlobalBabaiReducer where
  degree : Nat
  q : Int
  maxRounds : Nat
  powerOfTwo : isPowerOfTwo degree = true
  positive : 0 < q
  rounds : maxRounds ≠ 0

namespace NTRUGlobalBabaiReducer

def make (degree : Nat) (q : Int) (maxRounds : Nat) : Except Error NTRUGlobalBabaiReducer :=
  if power : isPowerOfTwo degree = true then
    if positive : 0 < q then
      if rounds : maxRounds ≠ 0 then .ok ⟨degree, q, maxRounds, power, positive, rounds⟩
      else .error (.invalidArgument "global NTRU reducer max_rounds must be non-zero")
    else .error (.invalidArgument "global NTRU reducer q must be positive")
  else .error (.invalidArgument "global NTRU reducer degree must be a non-zero power of two")

structure Progress where
  out : NTRUSolution
  roundsAttempted : Nat
  acceptedRounds : Nat
  converged : Bool
  stoppedNonDecreasing : Bool

variable (reducer : NTRUGlobalBabaiReducer) (solver : RealSolver)

def reduceRounds (ff gg : ZPoly) : Nat → Progress → Except Error Progress
  | 0, now => .ok now
  | left + 1, now => do
      let projected ← solver now.out
      let k := (List.range reducer.degree).map projected
      if k.all (· = 0) then return { now with converged := true, roundsAttempted := now.roundsAttempted + 1 }
      else do
        let before ← NTRUBasisReducer.squaredNorm now.out.capF now.out.capG
        let capF ← IntegerRing.sub reducer.degree now.out.capF (← IntegerRing.mul reducer.degree k ff)
        let capG ← IntegerRing.sub reducer.degree now.out.capG (← IntegerRing.mul reducer.degree k gg)
        let holds ← verifyNtruRelationExact ff gg capF capG reducer.q reducer.degree
        throwIf (holds = false) (.logicError "global NTRU reducer changed the exact NTRU relation")
        let after ← NTRUBasisReducer.squaredNorm capF capG
        let counted := { now with roundsAttempted := now.roundsAttempted + 1 }
        if after ≥ before then return { counted with stoppedNonDecreasing := true }
        else reduceRounds ff gg left { counted with out := ⟨capF, capG⟩, acceptedRounds := now.acceptedRounds + 1 }

def reduce (f g : ZPoly) (input : NTRUSolution) : Except Error (NTRUSolution × NTRUGlobalReductionDiagnostics) := do
  IntegerRing.make reducer.degree
  let ff ← IntegerRing.size reducer.degree f
  let gg ← IntegerRing.size reducer.degree g
  let capF ← IntegerRing.size reducer.degree input.capF
  let capG ← IntegerRing.size reducer.degree input.capG
  let holds ← verifyNtruRelationExact ff gg capF capG reducer.q reducer.degree
  throwIf (holds = false) (.invalidArgument "global NTRU reducer input does not satisfy fG-gF=q")
  let initial ← NTRUBasisReducer.squaredNorm capF capG
  let last ← reducer.reduceRounds solver ff gg reducer.maxRounds ⟨⟨capF, capG⟩, 0, 0, false, false⟩
  let still ← verifyNtruRelationExact ff gg last.out.capF last.out.capG reducer.q reducer.degree
  throwIf (still = false) (.logicError "global NTRU reducer final exact relation check failed")
  let final ← NTRUBasisReducer.squaredNorm last.out.capF last.out.capG
  return (last.out, ⟨last.roundsAttempted, last.acceptedRounds, initial, final, NTRUBasisReducer.maxBits ⟨capF, capG⟩,
    NTRUBasisReducer.maxBits last.out, last.converged, last.stoppedNonDecreasing⟩)

end NTRUGlobalBabaiReducer

/-! The best whole multiple: the truncated quotient is less than one away from where the parabola is lowest. -/

theorem deltaBeyond {t d linear quadratic : Int} (positive : 0 < quadratic) (near : -quadratic < linear + t * quadratic)
    (far : t + 1 ≤ d) : exactDelta (t + 1) linear quadratic ≤ exactDelta d linear quadratic := by
  have gap : exactDelta d linear quadratic - exactDelta (t + 1) linear quadratic =
      (d - (t + 1)) * (2 * (linear + t * quadratic) + 3 * quadratic + (d - (t + 2)) * quadratic) := by
    unfold exactDelta
    ring
  rcases far.eq_or_lt with rfl | past
  · exact le_rfl
  · have rest : 0 ≤ (d - (t + 2)) * quadratic := mul_nonneg (by omega) positive.le
    have slope : 0 ≤ 2 * (linear + t * quadratic) + 3 * quadratic + (d - (t + 2)) * quadratic := by linarith
    have grows := mul_nonneg (by omega : 0 ≤ d - (t + 1)) slope
    linarith

theorem deltaBelow {t d linear quadratic : Int} (positive : 0 < quadratic) (near : linear + t * quadratic < quadratic)
    (far : d ≤ t - 1) : exactDelta (t - 1) linear quadratic ≤ exactDelta d linear quadratic := by
  -- Turned around, the parabola is one with the linear part negated.
  have mirror (c : Int) : exactDelta c linear quadratic = exactDelta (-c) (-linear) quadratic := by
    unfold exactDelta
    ring
  have turned := @deltaBeyond (-t) (-d) (-linear) quadratic positive (by linarith) (by omega)
  rw [mirror, mirror d, show -(t - 1) = -t + 1 by ring]
  exact turned

theorem bestCoordinate (linear : Int) {quadratic : Int} (positive : 0 < quadratic) :
    ∃ c, bestIntegerCoordinate linear quadratic = .ok c ∧ ∀ d, exactDelta c linear quadratic ≤ exactDelta d linear quadratic := by
  have better (best candidate : Int) : ∃ c, (if exactDelta candidate linear quadratic < exactDelta best linear quadratic ∨
      (exactDelta candidate linear quadratic = exactDelta best linear quadratic ∧ candidate < best) then candidate else best) = c ∧
      exactDelta c linear quadratic ≤ exactDelta best linear quadratic ∧
      exactDelta c linear quadratic ≤ exactDelta candidate linear quadratic := by
    refine ⟨_, rfl, ?_⟩
    split
    · rename_i wins
      exact ⟨by rcases wins with less | same <;> omega, le_rfl⟩
    · rename_i loses
      exact ⟨le_rfl, by omega⟩
  generalize quotient : (-linear).tdiv quadratic = t
  have whole := Int.mul_tdiv_add_tmod (-linear) quadratic
  have above := Int.tmod_lt_of_pos (-linear) positive
  have below := Int.lt_tmod_of_pos (-linear) positive
  rw [quotient] at whole
  have product : quadratic * t = t * quadratic := mul_comm _ _
  obtain ⟨first, one, first0, first1⟩ := better t (t - 1)
  obtain ⟨second, two, second0, second1⟩ := better first (t + 1)
  refine ⟨second, ?_, fun d => ?_⟩
  · simp only [bestIntegerCoordinate, throwIf_not (not_le.mpr positive), quotient, bind, Except.bind, List.foldl_cons, List.foldl_nil,
      one, two]
    rfl
  · rcases lt_trichotomy d t with low | rfl | high
    · exact (second0.trans first1).trans (deltaBelow positive (by linarith) (by omega))
    · exact second0.trans first0
    · exact second1.trans (deltaBeyond positive (by linarith) (by omega))

/-! Squared lengths. -/

theorem innerSum (a b : ZPoly) : innerProduct a b = ((List.range a.length).map fun i => a.getD i 0 * b.getD i 0).sum := by
  have adds := foldAdds (id : Int → Int) (fun _ => True) (fun out i => out + a.getD i 0 * b.getD i 0)
    (fun i => a.getD i 0 * b.getD i 0) (List.range a.length) (fun out i _ _ => ⟨trivial, rfl⟩) 0 trivial
  have total := adds.2
  rw [id, id, zero_add] at total
  exact total

theorem innerSquare (a : ZPoly) : 0 ≤ innerProduct a a := by
  rw [innerSum]
  exact List.sum_nonneg fun x mem => by
    obtain ⟨i, _, rfl⟩ := List.mem_map.mp mem
    exact mul_self_nonneg _

def scaledSum (dst src : ZPoly) (scale : Int) : ZPoly := List.zipWith (fun x y => x + scale * y) dst src

theorem innerScaled {v w : ZPoly} (width : v.length = w.length) (c : Int) :
    innerProduct (scaledSum v w c) (scaledSum v w c) = innerProduct v v + 2 * c * innerProduct v w + c * c * innerProduct w w := by
  have long : (scaledSum v w c).length = v.length := by simp [scaledSum, width]
  have entry (i : Nat) (inside : i < v.length) : (scaledSum v w c).getD i 0 = v.getD i 0 + c * w.getD i 0 := by
    rw [List.getD_eq_getElem _ _ (by omega), List.getD_eq_getElem _ _ inside, List.getD_eq_getElem _ _ (by omega)]
    simp [scaledSum]
  rw [innerSum, innerSum v v, innerSum v w, innerSum w w, long, ← width, ← List.sum_map_mul_left, ← List.sum_map_mul_left,
    ← List.sum_map_add, ← List.sum_map_add]
  refine congrArg List.sum (List.map_congr_left fun i mem => ?_)
  rw [entry i (List.mem_range.mp mem)]
  ring

theorem scaledElement {degree : Nat} {v w : ZPoly} (width : v.length = w.length) (c : Int) :
    element degree (scaledSum v w c) = element degree v + AdjoinRoot.of _ c * element degree w := by
  have sum := Coefficients.valueZipWith (AdjoinRoot.root (Polynomial.X ^ degree + 1 : Polynomial ℤ)) (fun x y => x + AdjoinRoot.of _ c * y)
    1 (AdjoinRoot.of _ c) (fun x y => by ring) (a := v.map (AdjoinRoot.of _)) (b := w.map (AdjoinRoot.of _)) (by simpa using width)
  rw [one_mul, List.zipWith_map] at sum
  rw [element, scaledSum, List.map_zipWith, element, element, ← sum]
  simp only [map_add, map_mul]

theorem shiftMeaning {degree shift : Nat} {a : ZPoly} (width : a.length = degree) (inside : shift < degree) :
    ∃ s, negacyclicShift a shift degree = .ok s ∧ s.length = degree ∧
      element degree s = AdjoinRoot.root _ ^ shift * element degree a := by
  obtain ⟨kept, worth⟩ := foldAdds (element degree) (fun out => out.length = degree)
    (fun out i => exactPlace degree out (i + shift) (a.getD i 0))
    (fun i => AdjoinRoot.of _ (a.getD i 0) * AdjoinRoot.root _ ^ (i + shift)) (List.range a.length)
    (fun out i mem kept => exactPlaceMeaning kept (by
      have := List.mem_range.mp mem
      omega) _) (List.replicate degree 0) (by simp)
  refine ⟨_, ?_, kept, ?_⟩
  · rw [negacyclicShift, throwIf_not (by omega), throwIf_not (by omega)]
    rfl
  · have zero : element degree (List.replicate degree (0 : Int)) = 0 := by simp [element]
    have entry (i : Nat) : (a.map (AdjoinRoot.of (Polynomial.X ^ degree + 1))).getD i 0 = AdjoinRoot.of _ (a.getD i 0) := by
      rw [← map_zero (AdjoinRoot.of (Polynomial.X ^ degree + 1)), List.getD_map]
    rw [worth, zero, zero_add, element, Coefficients.valueSum _ (n := a.length) (by simp), ← List.sum_map_mul_left]
    refine congrArg List.sum (List.map_congr_left fun i _ => ?_)
    rw [entry, pow_add]
    ring

/-! The run. A pair moves by whole multiples of shifts only, and each move that is taken shortens it. -/

namespace NTRUSolution

structure Sized (degree : Nat) (s : NTRUSolution) : Prop where
  capF : s.capF.length = degree
  capG : s.capG.length = degree

def norm (s : NTRUSolution) : Int := innerProduct s.capF s.capF + innerProduct s.capG s.capG

def moved (s : NTRUSolution) (sf sg : ZPoly) (c : Int) : NTRUSolution := ⟨scaledSum s.capF sf c, scaledSum s.capG sg c⟩

/- No whole multiple of this one shift makes the pair shorter. -/
def Least (degree : Nat) (ff gg : ZPoly) (shift : Nat) (s : NTRUSolution) : Prop :=
  ∀ sf sg, negacyclicShift ff shift degree = .ok sf → negacyclicShift gg shift degree = .ok sg → ∀ c, s.norm ≤ (s.moved sf sg c).norm

end NTRUSolution

/- So many moves, each by a multiple of a shift, each to a shorter pair that meets the relation. -/
inductive Descends (degree : Nat) (ff gg : ZPoly) (q : Int) (start : NTRUSolution) : Nat → NTRUSolution → Prop
  | start : Descends degree ff gg q start 0 start
  | move {steps : Nat} {mid : NTRUSolution} {sf sg : ZPoly} (shift : Nat) (c : Int) (before : Descends degree ff gg q start steps mid)
      (shiftF : negacyclicShift ff shift degree = .ok sf) (shiftG : negacyclicShift gg shift degree = .ok sg)
      (solves : (mid.moved sf sg c).Solves degree ff gg q) (shorter : (mid.moved sf sg c).norm < mid.norm) :
      Descends degree ff gg q start (steps + 1) (mid.moved sf sg c)

theorem Descends.shorter {degree steps : Nat} {ff gg : ZPoly} {q : Int} {start s : NTRUSolution} (run : Descends degree ff gg q start steps s) :
    s.norm + steps ≤ start.norm := by
  induction run with
  | start => simp
  | move shift c before shiftF shiftG solves shorter ih =>
      push_cast
      linarith

/- What every pair of a run is: of full size, and a solution. -/
structure Held (degree : Nat) (ff gg : ZPoly) (q : Int) (s : NTRUSolution) : Prop where
  widthF : ff.length = degree
  widthG : gg.length = degree
  sized : s.Sized degree
  solves : s.Solves degree ff gg q

section Moves
variable {degree : Nat} {ff gg sf sg : ZPoly} {q : Int} {s : NTRUSolution}

theorem normNonneg : 0 ≤ s.norm := add_nonneg (innerSquare _) (innerSquare _)

theorem squaredNormOk (sized : s.Sized degree) : NTRUBasisReducer.squaredNorm s.capF s.capG = .ok s.norm := by
  have same : ¬s.capF.length ≠ s.capG.length := not_not.mpr (sized.capF.trans sized.capG.symm)
  simp only [NTRUBasisReducer.squaredNorm, pairSquaredNorm, dot, throwIf_not same, throwIf_not (not_not.mpr rfl), bind, Except.bind]
  rfl

theorem movedSized (sized : s.Sized degree) (widthF : sf.length = degree) (widthG : sg.length = degree) (c : Int) :
    (s.moved sf sg c).Sized degree :=
  ⟨by simp [NTRUSolution.moved, scaledSum, sized.capF, widthF], by simp [NTRUSolution.moved, scaledSum, sized.capG, widthG]⟩

theorem movedNorm (sized : s.Sized degree) (widthF : sf.length = degree) (widthG : sg.length = degree) (c : Int) :
    (s.moved sf sg c).norm = s.norm + exactDelta c (innerProduct s.capF sf + innerProduct s.capG sg)
      (innerProduct sf sf + innerProduct sg sg) := by
  rw [NTRUSolution.norm, NTRUSolution.moved, innerScaled (sized.capF.trans widthF.symm), innerScaled (sized.capG.trans widthG.symm),
    NTRUSolution.norm, exactDelta]
  ring

/- A shift of `f` times `g` and a shift of `g` times `f` cancel. -/
theorem movedSolves {shift : Nat} (solves : s.Solves degree ff gg q) (sized : s.Sized degree) (widthF : sf.length = degree)
    (widthG : sg.length = degree) (worthF : element degree sf = AdjoinRoot.root _ ^ shift * element degree ff)
    (worthG : element degree sg = AdjoinRoot.root _ ^ shift * element degree gg) (c : Int) :
    (s.moved sf sg c).Solves degree ff gg q := by
  rw [NTRUSolution.Solves] at solves
  rw [NTRUSolution.Solves, ← solves, NTRUSolution.moved, scaledElement (sized.capF.trans widthF.symm),
    scaledElement (sized.capG.trans widthG.symm), worthF, worthG]
  ring

theorem verifyHeld (power : isPowerOfTwo degree = true) (held : Held degree ff gg q s) :
    verifyNtruRelationExact ff gg s.capF s.capG q degree = .ok true :=
  (verifyOk (isPowerOfTwoPositive power)).mpr ⟨held.widthF.le, held.widthG.le, ⟨held.sized.capF.le, held.sized.capG.le⟩, held.solves⟩

/- A reducer brings what it is given to size; what is found for that is a solution for what was given. -/
theorem startHeld (power : isPowerOfTwo degree = true) {f g : ZPoly} {input : NTRUSolution}
    (related : verifyNtruRelationExact f g input.capF input.capG q degree = .ok true) :
    ∃ ff gg capF capG, IntegerRing.size degree f = .ok ff ∧ IntegerRing.size degree g = .ok gg ∧
      IntegerRing.size degree input.capF = .ok capF ∧ IntegerRing.size degree input.capG = .ok capG ∧
      Held degree ff gg q ⟨capF, capG⟩ ∧
      ∀ s : NTRUSolution, Held degree ff gg q s → verifyNtruRelationExact f g s.capF s.capG q degree = .ok true := by
  have positive := isPowerOfTwoPositive power
  obtain ⟨shortF, shortG, fits, solves⟩ := (verifyOk positive).mp related
  obtain ⟨ff, sizeF⟩ := canonicalSizeTotal integerTooLong shortF
  obtain ⟨gg, sizeG⟩ := canonicalSizeTotal integerTooLong shortG
  obtain ⟨capF, sizeCapF⟩ := canonicalSizeTotal integerTooLong fits.capF
  obtain ⟨capG, sizeCapG⟩ := canonicalSizeTotal integerTooLong fits.capG
  obtain ⟨widthF, worthF⟩ := canonicalSizeMeaning sizeF
  obtain ⟨widthG, worthG⟩ := canonicalSizeMeaning sizeG
  obtain ⟨widthCapF, worthCapF⟩ := canonicalSizeMeaning sizeCapF
  obtain ⟨widthCapG, worthCapG⟩ := canonicalSizeMeaning sizeCapG
  refine ⟨ff, gg, capF, capG, sizeF, sizeG, sizeCapF, sizeCapG, ⟨widthF, widthG, ⟨widthCapF, widthCapG⟩, ?_⟩, fun s held => ?_⟩
  · rw [NTRUSolution.Solves, worthF, worthG, worthCapF, worthCapG]
    exact solves
  · refine (verifyOk positive).mpr ⟨shortF, shortG, ⟨held.sized.capF.le, held.sized.capG.le⟩, ?_⟩
    have solved := held.solves
    rw [NTRUSolution.Solves, worthF, worthG] at solved
    exact solved

end Moves

namespace NTRUBasisReducer
variable {reducer : NTRUBasisReducer} {ff gg : ZPoly}

theorem flatLinear (base linear : Int) (above : ∀ c, 0 ≤ base + 2 * c * linear) : linear = 0 := by
  by_contra slope
  have square : 0 < linear * linear := mul_self_pos.mpr slope
  have low := above (-(|base| + 1) * linear)
  nlinarith [le_abs_self base, abs_nonneg base]

theorem acceptOk {now : Progress} {sf sg : ZPoly} {c delta : Int}
    (held : Held reducer.degree ff gg reducer.q now.out) (held' : Held reducer.degree ff gg reducer.q (now.out.moved sf sg c)) (sizeF : sf.length = reducer.degree)
    (sizeG : sg.length = reducer.degree) (along : (now.out.moved sf sg c).norm = now.out.norm + delta) (shorter : delta < 0) :
    reducer.accept ff gg sf sg c delta now = .ok ⟨now.out.moved sf sg c, now.acceptedSteps + 1, true⟩ := by
  have addedF : addScaledInPlace now.out.capF sf c = .ok (now.out.moved sf sg c).capF := by
    rw [addScaledInPlace, throwIf_not (not_not.mpr (held.sized.capF.trans sizeF.symm))]
    rfl
  have addedG : addScaledInPlace now.out.capG sg c = .ok (now.out.moved sf sg c).capG := by
    rw [addScaledInPlace, throwIf_not (not_not.mpr (held.sized.capG.trans sizeG.symm))]
    rfl
  have exact_ : ¬((now.out.moved sf sg c).norm ≥ now.out.norm ∨ (now.out.moved sf sg c).norm - now.out.norm ≠ delta) := by
    rw [along]
    omega
  simp only [accept, squaredNormOk held.sized, addedF, addedG, squaredNormOk held'.sized, throwIf_not exact_,
    verifyHeld reducer.powerOfTwo held', bind, Except.bind]
  rfl

/- One shift: nothing happens and the pair was the shortest along it, or the pair gets shorter. -/
theorem reduceShiftMeaning {now : Progress}
    (held : Held reducer.degree ff gg reducer.q now.out) {shift : Nat} (inside : shift < reducer.degree) :
    ∃ after, reducer.reduceShift ff gg now shift = .ok after ∧ Held reducer.degree ff gg reducer.q after.out ∧
      ((after = now ∧ now.out.Least reducer.degree ff gg shift) ∨
        ∃ sf sg c, negacyclicShift ff shift reducer.degree = .ok sf ∧ negacyclicShift gg shift reducer.degree = .ok sg ∧
          after = ⟨now.out.moved sf sg c, now.acceptedSteps + 1, true⟩ ∧ after.out.norm < now.out.norm) := by
  obtain ⟨sf, shiftF, sizeF, worthF⟩ := shiftMeaning held.widthF inside
  obtain ⟨sg, shiftG, sizeG, worthG⟩ := shiftMeaning held.widthG inside
  have sized := held.sized
  have along := movedNorm sized sizeF sizeG
  have stays (flat : ∀ c, 0 ≤ exactDelta c (innerProduct now.out.capF sf + innerProduct now.out.capG sg)
      (innerProduct sf sf + innerProduct sg sg)) : now.out.Least reducer.degree ff gg shift := by
    intro sf' sg' isF isG c
    rw [shiftF] at isF
    rw [shiftG] at isG
    cases isF
    cases isG
    rw [along]
    linarith [flat c]
  have same : pairSquaredNorm sf sg = .ok (innerProduct sf sf + innerProduct sg sg) := by
    simp only [pairSquaredNorm, dot, throwIf_not (not_not.mpr rfl), bind, Except.bind]
    rfl
  have cross : pairDot now.out.capF now.out.capG sf sg = .ok (innerProduct now.out.capF sf + innerProduct now.out.capG sg) := by
    simp only [pairDot, dot, throwIf_not (not_not.mpr (sized.capF.trans sizeF.symm)), throwIf_not (not_not.mpr (sized.capG.trans sizeG.symm)),
      bind, Except.bind]
    rfl
  generalize linearIs : innerProduct now.out.capF sf + innerProduct now.out.capG sg = linear at along stays cross
  generalize quadraticIs : innerProduct sf sf + innerProduct sg sg = quadratic at along stays same
  have nonneg : 0 ≤ quadratic := quadraticIs ▸ add_nonneg (innerSquare sf) (innerSquare sg)
  rcases nonneg.eq_or_lt with flat | positive
  · refine ⟨now, ?_, held, .inl ⟨rfl, stays ?_⟩⟩
    · simp only [reduceShift, shiftF, shiftG, same, bind, Except.bind, if_pos flat.symm]
      rfl
    · have straight := flatLinear (now.out.norm) linear fun c => by
        have above := @normNonneg (now.out.moved sf sg c)
        rw [along, ← flat, exactDelta, mul_zero, add_zero] at above
        exact above
      intro c
      rw [straight, ← flat, exactDelta]
      simp
  · obtain ⟨c, best, least⟩ := bestCoordinate linear positive
    have ran : reducer.reduceShift ff gg now shift =
        if c = 0 ∨ exactDelta c linear quadratic ≥ 0 then .ok now
        else reducer.accept ff gg sf sg c (exactDelta c linear quadratic) now := by
      simp only [reduceShift, shiftF, shiftG, same, cross, best, bind, Except.bind, if_neg positive.ne']
      rfl
    by_cases rests : c = 0 ∨ exactDelta c linear quadratic ≥ 0
    · rw [if_pos rests] at ran
      refine ⟨now, ran, held, .inl ⟨rfl, stays fun d => ?_⟩⟩
      have lowest : 0 ≤ exactDelta c linear quadratic := by
        rcases rests with rfl | above
        · simp [exactDelta]
        · exact above
      exact lowest.trans (least d)
    · rw [if_neg rests] at ran
      have shorter : exactDelta c linear quadratic < 0 := not_le.mp fun above => rests (.inr above)
      have held' : Held reducer.degree ff gg reducer.q (now.out.moved sf sg c) :=
        ⟨held.widthF, held.widthG, movedSized sized sizeF sizeG c, movedSolves held.solves sized sizeF sizeG worthF worthG c⟩
      refine ⟨_, ran.trans (acceptOk held held' sizeF sizeG (along c) shorter), held', .inr
        ⟨sf, sg, c, shiftF, shiftG, rfl, ?_⟩⟩
      rw [along]
      linarith

/- How far a run has come from where it began, and what one pass, up to a shift, has done to the pair. -/
structure Ran (reducer : NTRUBasisReducer) (ff gg : ZPoly) (start : NTRUSolution) (now : Progress) : Prop where
  held : Held reducer.degree ff gg reducer.q now.out
  descends : Descends reducer.degree ff gg reducer.q start now.acceptedSteps now.out

structure Passed (reducer : NTRUBasisReducer) (ff gg : ZPoly) (start : NTRUSolution) (before : Progress) (count : Nat) (now : Progress) : Prop where
  ran : reducer.Ran ff gg start now
  rested : now.changed = false → now.out = before.out ∧ ∀ shift < count, before.out.Least reducer.degree ff gg shift
  shorter : now.changed = true → now.out.norm < before.out.norm

theorem onePassMeaning {start : NTRUSolution} {before : Progress}
    (ran : reducer.Ran ff gg start before) :
    ∃ after, reducer.onePass ff gg before = .ok after ∧ reducer.Passed ff gg start before reducer.degree after := by
  refine foldRange_ok (reducer.Passed ff gg start before) reducer.degree (fun shift inside now passed => ?_)
    ⟨⟨ran.held, ran.descends⟩, fun _ => ⟨rfl, fun shift inside => by omega⟩, fun changed => (by cases changed)⟩
  obtain ⟨after, stepped, held, result⟩ := reduceShiftMeaning passed.ran.held inside
  refine ⟨after, stepped, ?_⟩
  rcases result with ⟨rfl, least⟩ | ⟨sf, sg, c, shiftF, shiftG, rfl, less⟩
  · refine ⟨passed.ran, fun unchanged => ?_, passed.shorter⟩
    obtain ⟨same, others⟩ := passed.rested unchanged
    refine ⟨same, fun other near => ?_⟩
    rcases (Nat.lt_succ_iff_lt_or_eq.mp near) with earlier | rfl
    · exact others other earlier
    · exact same ▸ least
  · refine ⟨⟨held, .move shift c passed.ran.descends shiftF shiftG held.solves less⟩, fun unchanged => (by cases unchanged), fun _ => ?_⟩
    cases changed : now.changed with
    | false =>
        rw [← (passed.rested changed).1]
        exact less
    | true => exact less.trans (passed.shorter changed)

/- Every pass but the last shortens the pair by one at least, so a pass per unit of squared length is enough. -/
theorem reducePassesMeaning {start : NTRUSolution}
    (left passes : Nat) (now : Progress) (ran : reducer.Ran ff gg start now) :
    ∃ last total converged, reducer.reducePasses ff gg left passes now = .ok (last, total, converged) ∧ reducer.Ran ff gg start last ∧
      (converged = true → ∀ shift < reducer.degree, last.out.Least reducer.degree ff gg shift) ∧
      (now.out.norm < left → converged = true) := by
  induction left generalizing passes now with
  | zero =>
      refine ⟨now, passes, false, rfl, ran, fun never => (by cases never), fun short => ?_⟩
      exact absurd short (not_lt.mpr normNonneg)
  | succ left ih =>
      obtain ⟨after, passed, kept⟩ := onePassMeaning ran
      cases changed : after.changed with
      | false =>
          obtain ⟨same, least⟩ := kept.rested changed
          refine ⟨after, passes + 1, true, ?_, kept.ran, fun _ => same ▸ least, fun _ => rfl⟩
          simp only [reducePasses, passed, bind, Except.bind, changed]
          rfl
      | true =>
          obtain ⟨last, total, converged, rest, ranLast, settled, enough⟩ := ih (passes + 1) after kept.ran
          refine ⟨last, total, converged, ?_, ranLast, settled, fun short => enough ?_⟩
          · simp only [reducePasses, passed, bind, Except.bind, changed, if_true]
            exact rest
          · have less := kept.shorter changed
            push_cast at short
            linarith

/- `reduce` on a pair that meets the relation: what it is given is brought to size first. -/
theorem reduceMeaning (reducer : NTRUBasisReducer) {f g : ZPoly} {input : NTRUSolution}
    (related : verifyNtruRelationExact f g input.capF input.capG reducer.q reducer.degree = .ok true) :
    ∃ ff gg start out diagnostics, IntegerRing.size reducer.degree f = .ok ff ∧ IntegerRing.size reducer.degree g = .ok gg ∧
      IntegerRing.size reducer.degree input.capF = .ok start.capF ∧ IntegerRing.size reducer.degree input.capG = .ok start.capG ∧
      reducer.reduce f g input = .ok (out, diagnostics) ∧
      verifyNtruRelationExact f g out.capF out.capG reducer.q reducer.degree = .ok true ∧
      Descends reducer.degree ff gg reducer.q start diagnostics.acceptedSteps out ∧
      squaredNorm start.capF start.capG = .ok start.norm ∧ squaredNorm out.capF out.capG = .ok out.norm ∧
      (diagnostics.converged = true → ∀ shift < reducer.degree, out.Least reducer.degree ff gg shift) ∧
      (start.norm < reducer.maxPasses → diagnostics.converged = true) := by
  have positive := isPowerOfTwoPositive reducer.powerOfTwo
  obtain ⟨ff, gg, capF, capG, sizeF, sizeG, sizeCapF, sizeCapG, held, returns⟩ := startHeld reducer.powerOfTwo related
  obtain ⟨last, total, converged, passed, ran, settled, enough⟩ := reducePassesMeaning reducer.maxPasses 0
    ⟨⟨capF, capG⟩, 0, false⟩ ⟨held, .start⟩
  have checked := verifyHeld reducer.powerOfTwo held
  have checkedLast := verifyHeld reducer.powerOfTwo ran.held
  refine ⟨ff, gg, ⟨capF, capG⟩, last.out, ⟨total, last.acceptedSteps, NTRUSolution.norm ⟨capF, capG⟩, last.out.norm, maxBits ⟨capF, capG⟩,
    maxBits last.out, converged⟩, sizeF, sizeG, sizeCapF, sizeCapG, ?_, returns _ ran.held, ran.descends, squaredNormOk held.sized,
    squaredNormOk ran.held.sized, settled, enough⟩
  simp only [reduce, IntegerRing.make, throwIf_not positive.ne', sizeF, sizeG, sizeCapF, sizeCapG, checked,
    squaredNormOk held.sized, passed, checkedLast, squaredNormOk ran.held.sized, bind, Except.bind]
  rfl

end NTRUBasisReducer

namespace NTRUGlobalBabaiReducer
variable {reducer : NTRUGlobalBabaiReducer} {ff gg : ZPoly}

/- Whatever the vector is, the same multiple comes off both halves. -/
theorem subtractedHeld {s : NTRUSolution} {k : ZPoly}
    (held : Held reducer.degree ff gg reducer.q s) (width : k.length = reducer.degree) :
    ∃ kf kg capF capG, IntegerRing.mul reducer.degree k ff = .ok kf ∧ IntegerRing.sub reducer.degree s.capF kf = .ok capF ∧
      IntegerRing.mul reducer.degree k gg = .ok kg ∧ IntegerRing.sub reducer.degree s.capG kg = .ok capG ∧
      Held reducer.degree ff gg reducer.q ⟨capF, capG⟩ := by
  obtain ⟨kf, multipliedF⟩ := exactMulTotal integerTooLong width.le held.widthF.le
  obtain ⟨kg, multipliedG⟩ := exactMulTotal integerTooLong width.le held.widthG.le
  obtain ⟨widthKf, worthKf⟩ := exactMulMeaning multipliedF
  obtain ⟨widthKg, worthKg⟩ := exactMulMeaning multipliedG
  obtain ⟨capF, takenF⟩ := exactSubTotal integerTooLong held.sized.capF.le widthKf.le
  obtain ⟨capG, takenG⟩ := exactSubTotal integerTooLong held.sized.capG.le widthKg.le
  obtain ⟨sizeF, worthF⟩ := exactSubMeaning takenF
  obtain ⟨sizeG, worthG⟩ := exactSubMeaning takenG
  refine ⟨kf, kg, capF, capG, multipliedF, takenF, multipliedG, takenG, held.widthF, held.widthG, ⟨sizeF, sizeG⟩, ?_⟩
  have solves := held.solves
  rw [NTRUSolution.Solves] at solves
  rw [NTRUSolution.Solves, ← solves, worthF, worthG, worthKf, worthKg]
  ring

/- One round with the vector that is proposed: it ends the run, or it leads to another pair. -/
theorem roundMeaning (solver : RealSolver) (left : Nat) {now : Progress} (held : Held reducer.degree ff gg reducer.q now.out)
    {entries : Nat → Int} (projected : solver now.out = .ok entries) :
    (((List.range reducer.degree).map entries).all (· = 0) = true ∧ reducer.reduceRounds solver ff gg (left + 1) now =
        .ok { now with converged := true, roundsAttempted := now.roundsAttempted + 1 }) ∨
      ∃ next : NTRUSolution, Held reducer.degree ff gg reducer.q next ∧ reducer.reduceRounds solver ff gg (left + 1) now =
        if next.norm ≥ now.out.norm then .ok { now with stoppedNonDecreasing := true, roundsAttempted := now.roundsAttempted + 1 }
        else reducer.reduceRounds solver ff gg left
          ⟨next, now.roundsAttempted + 1, now.acceptedRounds + 1, now.converged, now.stoppedNonDecreasing⟩ := by
  generalize vector : (List.range reducer.degree).map entries = k
  by_cases zero : k.all (· = 0) = true
  · refine .inl ⟨zero, ?_⟩
    simp only [reduceRounds, projected, bind, Except.bind, vector, zero, if_true]
    rfl
  · obtain ⟨kf, kg, capF, capG, multipliedF, takenF, multipliedG, takenG, held'⟩ := subtractedHeld held (k := k)
      (by rw [← vector]; simp)
    refine .inr ⟨⟨capF, capG⟩, held', ?_⟩
    simp only [reduceRounds, projected, bind, Except.bind, vector, if_neg zero, squaredNormOk held.sized, multipliedF, takenF,
      multipliedG, takenG, verifyHeld reducer.powerOfTwo held', squaredNormOk held'.sized]
    rfl

theorem reduceRoundsMeaning (solver : RealSolver) (left : Nat) (now : Progress)
    (held : Held reducer.degree ff gg reducer.q now.out) :
    (∃ last, reducer.reduceRounds solver ff gg left now = .ok last ∧ Held reducer.degree ff gg reducer.q last.out ∧ last.out.norm ≤ now.out.norm) ∨
      ∃ s e, solver s = .error e ∧ reducer.reduceRounds solver ff gg left now = .error e := by
  induction left generalizing now with
  | zero => exact .inl ⟨now, rfl, held, le_rfl⟩
  | succ left ih =>
      cases projected : solver now.out with
      | error e =>
          refine .inr ⟨now.out, e, projected, ?_⟩
          simp only [reduceRounds, projected, bind, Except.bind]
      | ok entries =>
          rcases roundMeaning solver left held projected with ⟨_, round⟩ | ⟨next, held', round⟩
          · exact .inl ⟨_, round, held, le_rfl⟩
          rw [round]
          by_cases grown : next.norm ≥ now.out.norm
          · rw [if_pos grown]
            exact .inl ⟨_, rfl, held, le_rfl⟩
          · rw [if_neg grown]
            rcases ih ⟨next, now.roundsAttempted + 1, now.acceptedRounds + 1, now.converged, now.stoppedNonDecreasing⟩ held' with ⟨last, ran, kept, shorter⟩ | failed
            · exact .inl ⟨last, ran, kept, shorter.trans (not_le.mp grown).le⟩
            · exact .inr failed

theorem reduceMeaning (reducer : NTRUGlobalBabaiReducer) (solver : RealSolver) {f g : ZPoly} {input : NTRUSolution}
    (related : verifyNtruRelationExact f g input.capF input.capG reducer.q reducer.degree = .ok true) :
    (∃ (start out : NTRUSolution) (diagnostics : NTRUGlobalReductionDiagnostics), IntegerRing.size reducer.degree input.capF = .ok start.capF ∧
      IntegerRing.size reducer.degree input.capG = .ok start.capG ∧ reducer.reduce solver f g input = .ok (out, diagnostics) ∧
      verifyNtruRelationExact f g out.capF out.capG reducer.q reducer.degree = .ok true ∧
      NTRUBasisReducer.squaredNorm start.capF start.capG = .ok start.norm ∧
      NTRUBasisReducer.squaredNorm out.capF out.capG = .ok out.norm ∧ out.norm ≤ start.norm) ∨
      ∃ s e, solver s = .error e ∧ reducer.reduce solver f g input = .error e := by
  have positive := isPowerOfTwoPositive reducer.powerOfTwo
  obtain ⟨ff, gg, capF, capG, sizeF, sizeG, sizeCapF, sizeCapG, held, returns⟩ := startHeld reducer.powerOfTwo related
  have checked := verifyHeld reducer.powerOfTwo held
  rcases reduceRoundsMeaning solver reducer.maxRounds ⟨⟨capF, capG⟩, 0, 0, false, false⟩ held with
    ⟨last, ran, kept, shorter⟩ | ⟨s, e, failed, ran⟩
  · have checkedLast := verifyHeld reducer.powerOfTwo kept
    refine .inl ⟨⟨capF, capG⟩, last.out, ⟨last.roundsAttempted, last.acceptedRounds, NTRUSolution.norm ⟨capF, capG⟩, last.out.norm,
      NTRUBasisReducer.maxBits ⟨capF, capG⟩, NTRUBasisReducer.maxBits last.out, last.converged, last.stoppedNonDecreasing⟩, sizeCapF,
      sizeCapG, ?_, returns _ kept, squaredNormOk held.sized, squaredNormOk kept.sized, shorter⟩
    simp only [reduce, IntegerRing.make, throwIf_not positive.ne', sizeF, sizeG, sizeCapF, sizeCapG, checked,
      squaredNormOk held.sized, ran, checkedLast, squaredNormOk kept.sized, bind, Except.bind]
    rfl
  · refine .inr ⟨s, e, failed, ?_⟩
    simp only [reduce, IntegerRing.make, throwIf_not positive.ne', sizeF, sizeG, sizeCapF, sizeCapG, checked,
      squaredNormOk held.sized, ran, bind, Except.bind]
    rfl

end NTRUGlobalBabaiReducer

/- Neither reducer throws of its own accord, and what they return is a solution that is no longer. One shift at
a time: every move taken is to a strictly shorter solution, so as many passes as the squared length always
settle it, and then no multiple of any one shift helps. All shifts at once: whatever vectors are proposed. -/
theorem reductionsSound :
    (∀ (reducer : NTRUBasisReducer) (f g : ZPoly) (input : NTRUSolution),
      verifyNtruRelationExact f g input.capF input.capG reducer.q reducer.degree = .ok true →
      ∃ ff gg start out diagnostics, IntegerRing.size reducer.degree f = .ok ff ∧ IntegerRing.size reducer.degree g = .ok gg ∧
        IntegerRing.size reducer.degree input.capF = .ok start.capF ∧ IntegerRing.size reducer.degree input.capG = .ok start.capG ∧
        reducer.reduce f g input = .ok (out, diagnostics) ∧
        verifyNtruRelationExact f g out.capF out.capG reducer.q reducer.degree = .ok true ∧
        NTRUBasisReducer.squaredNorm start.capF start.capG = .ok start.norm ∧
        NTRUBasisReducer.squaredNorm out.capF out.capG = .ok out.norm ∧
        Descends reducer.degree ff gg reducer.q start diagnostics.acceptedSteps out ∧
        out.norm + diagnostics.acceptedSteps ≤ start.norm ∧
        (start.norm < reducer.maxPasses → diagnostics.converged = true) ∧
        (diagnostics.converged = true → ∀ shift < reducer.degree, out.Least reducer.degree ff gg shift)) ∧
    (∀ (reducer : NTRUGlobalBabaiReducer) (solver : RealSolver) (f g : ZPoly) (input : NTRUSolution),
      verifyNtruRelationExact f g input.capF input.capG reducer.q reducer.degree = .ok true →
      (∃ (start out : NTRUSolution) (diagnostics : NTRUGlobalReductionDiagnostics), IntegerRing.size reducer.degree input.capF = .ok start.capF ∧
        IntegerRing.size reducer.degree input.capG = .ok start.capG ∧ reducer.reduce solver f g input = .ok (out, diagnostics) ∧
        verifyNtruRelationExact f g out.capF out.capG reducer.q reducer.degree = .ok true ∧
        NTRUBasisReducer.squaredNorm start.capF start.capG = .ok start.norm ∧
        NTRUBasisReducer.squaredNorm out.capF out.capG = .ok out.norm ∧ out.norm ≤ start.norm) ∨
        ∃ s e, solver s = .error e ∧ reducer.reduce solver f g input = .error e) := by
  constructor
  · intro reducer f g input related
    obtain ⟨ff, gg, start, out, diagnostics, sizeF, sizeG, sizeCapF, sizeCapG, ran, solved, descends, initial, final, settled, enough⟩ :=
      reducer.reduceMeaning related
    exact ⟨ff, gg, start, out, diagnostics, sizeF, sizeG, sizeCapF, sizeCapG, ran, solved, initial, final, descends, descends.shorter,
      enough, settled⟩
  · intro reducer solver f g input related
    exact reducer.reduceMeaning solver related

end TradeP2P.Blns7933
