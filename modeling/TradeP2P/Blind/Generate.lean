import TradeP2P.Blind.GlobalReduce
import TradeP2P.Blind.Inverse
import TradeP2P.Blind.NtruSolve

/-! The generator of trapdoors: candidates are drawn until one is invertible, good enough and solvable; the solution is shortened
twice and checked once more. The draw of one coefficient is left open, and so is what a cast to 64 bits makes of a number that does
not fit. -/
namespace TradeP2P.Blns7933.RealRingArithmetic
open Checks
open Coefficients (Negacyclic element elementInj elementScale)
open Adjoint (conjugation)

section Definitions

def integerAdjoint (a : ZPoly) (degree : Nat) : Except Error ZPoly := do
  throwIf (a.length ≠ degree) (.invalidArgument "hermitian_adjoint requires a canonically-sized polynomial")
  return (List.range degree).map fun k => if k = 0 then a.getD 0 0 else -a.getD (degree - k) 0

variable {K : Type} [Field K] [LinearOrder K]

def qualitySingular : Error := .runtimeError ("BLNS7933 trapdoor-quality linear system is singular (f,g share a root - " ++
  "reject this candidate and resample)")

-- The elimination of a division once more, with a text of its own.
def qualitySystem (size : Nat) (m : RealMatrix K) : Except Error (List K) := (solveRealSystem size m).mapError fun _ => qualitySingular

structure TrapdoorQuality (K : Type) where
  gsNorm : K
  threshold : K
  accepted : Bool

def squares (e : List K) : K := (e.map fun x => x * x).sum

def qualityMatrix (degree : Nat) (columns : List ZPoly) (q : Int) (side : ZPoly) : RealMatrix K :=
  (List.range degree).map fun row => (columns.map fun column => ((column.getD row 0 : Int) : K)) ++ [((q * side.getD row 0 : Int) : K)]

def computeTrapdoorQuality (sqrt : K → K) (f g : ZPoly) (degree : Nat) (q : Int) : Except Error (TrapdoorQuality K) := do
  IntegerRing.make degree
  let ff ← IntegerRing.size degree f
  let gg ← IntegerRing.size degree g
  let directNorm := sqrt ((innerProduct ff ff + innerProduct gg gg : Int) : K)
  let fAdj ← integerAdjoint ff degree
  let gAdj ← integerAdjoint gg degree
  let dPoly ← exactAdd integerTooLong degree (← IntegerRing.mul degree ff fAdj) (← IntegerRing.mul degree gg gAdj)
  let columns ← (List.range degree).mapM fun col => IntegerRing.mul degree dPoly ((List.replicate degree 0).set col 1)
  let eF ← qualitySystem degree (qualityMatrix degree columns q fAdj)
  let eG ← qualitySystem degree (qualityMatrix degree columns q gAdj)
  let gamma := if sqrt (squares eF) > directNorm then sqrt (squares eF) else directNorm
  let gamma := if sqrt (squares eG) > gamma then sqrt (squares eG) else gamma
  let threshold := 117 / 100 * sqrt (q : K)
  return ⟨gamma, threshold, gamma ≤ threshold⟩

def relationLost : Error := .logicError ("BLNS7933 TrapGen produced a candidate failing its own final relation check " ++
  "- this should never happen, investigate")

structure Stages where
  solver : NTRUEquationSolver
  globalReducer : NTRUGlobalBabaiReducer
  cleanupReducer : NTRUBasisReducer

def stages (ring : RingArithmetic) : Except Error Stages := do
  let solver ← NTRUEquationSolver.make ring.degree ring.modulus
  let globalReducer ← NTRUGlobalBabaiReducer.make ring.degree ring.modulus 8
  let cleanupReducer ← NTRUBasisReducer.make ring.degree ring.modulus 64
  return ⟨solver, globalReducer, cleanupReducer⟩

variable [FloorRing K] (sqrt : K → K) (narrow : Int → Int)

-- A singular quality system turns the candidate down; any other throw goes on.
def qualityAccepted (ring : RingArithmetic) (f g : ZPoly) : Except Error Bool :=
  match computeTrapdoorQuality sqrt f g ring.degree ring.modulus with
  | .ok quality => .ok quality.accepted
  | .error (.runtimeError _) => .ok false
  | .error e => .error e

def shortened (K : Type) [Field K] [LinearOrder K] [FloorRing K] (stages : Stages) (f g : ZPoly) (solved : NTRUSolution) : Except Error NTRUSolution := do
  let ff ← IntegerRing.size stages.globalReducer.degree f
  let gg ← IntegerRing.size stages.globalReducer.degree g
  let (globallyReduced, _) ← stages.globalReducer.reduce (exactSolver K stages.globalReducer.degree ff gg) f g solved
  let (cleaned, _) ← stages.cleanupReducer.reduce f g globallyReduced
  return cleaned

def returned (ring : RingArithmetic) (f g : ZPoly) (cleaned : NTRUSolution) : Except Error TrapdoorKey := do
  let key : TrapdoorKey := ⟨f, g, cleaned.capF.map narrow, cleaned.capG.map narrow⟩
  let holds ← verifyNtruRelation ring key
  throwIf (holds = false) relationLost
  return key

def candidate (ring : RingArithmetic) (stages : Stages) (f g : ZPoly) : Except Error (Option TrapdoorKey) := do
  let inverse ← ring.inverse g
  if inverse.isNone then return none
  else do
    let accepted ← qualityAccepted sqrt ring f g
    if accepted = false then return none
    else do
      let (solved, _) ← stages.solver.solve f g
      match solved with
      | none => return none
      | some solved => do
          let cleaned ← shortened K stages f g solved
          let key ← returned narrow ring f g cleaned
          return some key

variable {ρ : Type} (sampleDiscreteGaussian : Sampler ρ Int)

def sampleDiscreteGaussianPoly : Nat → Sampler ρ (List Int)
  | 0 => return []
  | count + 1 => do
      let first ← sampleDiscreteGaussian
      let others ← sampleDiscreteGaussianPoly count
      return first :: others

-- So many candidates at the most; the loop of the source has no end of its own.
def generateLoop (ring : RingArithmetic) (stages : Stages) : Nat → Sampler ρ (Option TrapdoorKey)
  | 0 => return none
  | candidates + 1 => do
      let fRaw ← sampleDiscreteGaussianPoly sampleDiscreteGaussian ring.degree
      let gRaw ← sampleDiscreteGaussianPoly sampleDiscreteGaussian ring.degree
      let found ← candidate sqrt narrow ring stages fRaw gRaw
      match found with
      | some key => return some key
      | none => generateLoop ring stages candidates

def generate (ring : RingArithmetic) (candidates : Nat) : Sampler ρ (Option TrapdoorKey) := do
  let stages ← stages ring
  generateLoop sqrt narrow sampleDiscreteGaussian ring stages candidates

end Definitions

/-! The quality of a candidate: the lengths of its two Gram-Schmidt vectors. -/
section Quality
variable {K : Type} [Field K] {degree : Nat} {f g : ZPoly} {q : Int}

/- The element both systems divide by. -/
noncomputable def sumOfSquares (positive : 0 < degree) (f g : ZPoly) : Negacyclic K degree :=
  element degree (toReal f) * (conjugation K positive).adjoint (element degree (toReal f)) +
    element degree (toReal g) * (conjugation K positive).adjoint (element degree (toReal g))

theorem integerAdjointMeaning (positive : 0 < degree) {a : ZPoly} (width : a.length = degree) : ∃ b, integerAdjoint a degree = .ok b ∧
    b.length = degree ∧ element degree (toReal b : List K) = (conjugation K positive).adjoint (element degree (toReal a)) := by
  refine ⟨_, by rw [integerAdjoint, throwIf_not (not_not.mpr width)]; rfl, by simp, ?_⟩
  have entry (i : Nat) : (toReal a : List K).getD i 0 = ((a.getD i 0 : Int) : K) := by
    rw [toReal, ← Int.cast_zero, List.getD_map]
  refine Eq.trans (congrArg _ ?_) (Adjoint.elementAdjoint positive (realWidth width))
  rw [toReal, List.map_map]
  refine List.map_congr_left fun k _ => ?_
  rw [Function.comp_apply, entry, entry]
  split
  · rfl
  · exact Int.cast_neg _

variable [LinearOrder K]

/- What both systems are made of. -/
theorem qualityPrepared (sqrt : K → K) (positive : 0 < degree) (shortF : f.length ≤ degree) (shortG : g.length ≤ degree) (q : Int) :
    ∃ ff gg fAdj gAdj columns, computeTrapdoorQuality sqrt f g degree q = (do
        let eF ← qualitySystem degree (qualityMatrix degree columns q fAdj)
        let eG ← qualitySystem degree (qualityMatrix degree columns q gAdj)
        let gamma := if sqrt (squares eF) > sqrt ((innerProduct ff ff + innerProduct gg gg : Int) : K) then sqrt (squares eF)
          else sqrt ((innerProduct ff ff + innerProduct gg gg : Int) : K)
        let gamma := if sqrt (squares eG) > gamma then sqrt (squares eG) else gamma
        return ⟨gamma, 117 / 100 * sqrt (q : K), gamma ≤ 117 / 100 * sqrt (q : K)⟩) ∧
      IntegerRing.size degree f = .ok ff ∧ IntegerRing.size degree g = .ok gg ∧ fAdj.length = degree ∧ gAdj.length = degree ∧
      element degree (toReal fAdj : List K) = (conjugation K positive).adjoint (element degree (toReal f)) ∧
      element degree (toReal gAdj : List K) = (conjugation K positive).adjoint (element degree (toReal g)) ∧ columns.length = degree ∧
      ∀ c < degree, (columns.getD c []).length = degree ∧
        element degree (toReal (columns.getD c []) : List K) = sumOfSquares positive f g * AdjoinRoot.root _ ^ c := by
  obtain ⟨ff, sizeF⟩ := canonicalSizeTotal integerTooLong shortF
  obtain ⟨gg, sizeG⟩ := canonicalSizeTotal integerTooLong shortG
  obtain ⟨widthF, _⟩ := canonicalSizeMeaning sizeF
  obtain ⟨widthG, _⟩ := canonicalSizeMeaning sizeG
  have sameF := (canonicalSizeMeaning (canonicalSizeMap (Int.castRingHom K) integerTooLong sizeF)).2
  have sameG := (canonicalSizeMeaning (canonicalSizeMap (Int.castRingHom K) integerTooLong sizeG)).2
  obtain ⟨fAdj, adjoinedF, widthFAdj, isF⟩ := integerAdjointMeaning (K := K) positive widthF
  obtain ⟨gAdj, adjoinedG, widthGAdj, isG⟩ := integerAdjointMeaning (K := K) positive widthG
  obtain ⟨fSquare, squaredF⟩ := exactMulTotal integerTooLong widthF.le widthFAdj.le
  obtain ⟨gSquare, squaredG⟩ := exactMulTotal integerTooLong widthG.le widthGAdj.le
  obtain ⟨dPoly, summed⟩ := exactAddTotal integerTooLong (exactMulMeaning squaredF).1.le (exactMulMeaning squaredG).1.le
  have squaredF' := (exactMulMeaning (exactMulMap (Int.castRingHom K) realTooLong squaredF)).2
  have squaredG' := (exactMulMeaning (exactMulMap (Int.castRingHom K) realTooLong squaredG)).2
  have summed' := (exactAddMeaning (exactAddMap (Int.castRingHom K) realTooLong summed)).2
  have divisor : element degree (toReal dPoly : List K) = sumOfSquares positive f g := by
    rw [squaredF', squaredG'] at summed'
    refine summed'.trans ?_
    change element degree (toReal ff) * element degree (toReal fAdj) + element degree (toReal gg) * element degree (toReal gAdj) = _
    rw [isF, isG]
    change element degree (toReal ff) = element degree (toReal f) at sameF
    change element degree (toReal gg) = element degree (toReal g) at sameG
    rw [sameF, sameG]
    rfl
  have each (c : Nat) : ∃ column, IntegerRing.mul degree dPoly ((List.replicate degree 0).set c 1) = .ok column :=
    exactMulTotal integerTooLong (exactAddMeaning summed).1.le (by simp)
  choose image made using each
  refine ⟨ff, gg, fAdj, gAdj, (List.range degree).map image, ?_, sizeF, sizeG, widthFAdj, widthGAdj, ?_, ?_, by simp, fun c inside => ?_⟩
  · have multipliedF : IntegerRing.mul degree ff fAdj = .ok fSquare := squaredF
    have multipliedG : IntegerRing.mul degree gg gAdj = .ok gSquare := squaredG
    have sizedF : IntegerRing.size degree f = .ok ff := sizeF
    have sizedG : IntegerRing.size degree g = .ok gg := sizeG
    simp only [computeTrapdoorQuality, IntegerRing.make, throwIf_not positive.ne', sizedF, sizedG, adjoinedF, adjoinedG, multipliedF, multipliedG,
      summed, mapM_ok fun c _ => made c, bind_next]
  · exact isF.trans (congrArg _ sameF)
  · exact isG.trans (congrArg _ sameG)
  · have read : ((List.range degree).map image).getD c [] = image c := by simp [List.getD_eq_getElem?_getD, inside]
    have product := (exactMulMeaning (exactMulMap (Int.castRingHom K) realTooLong (made c))).2
    have unit : ((List.replicate degree (0 : Int)).set c 1).map (Int.castRingHom K) = (List.replicate degree 0).set c 1 := by simp [List.map_set]
    rw [unit, Coefficients.elementPower inside] at product
    rw [read, ← divisor]
    exact ⟨(exactMulMeaning (made c)).1, product⟩

/- Nothing but a singular system goes wrong. -/
theorem qualityTotal (sqrt : K → K) (positive : 0 < degree) (shortF : f.length ≤ degree) (shortG : g.length ≤ degree) (q : Int) :
    computeTrapdoorQuality sqrt f g degree q = .error qualitySingular ∨ ∃ quality, computeTrapdoorQuality sqrt f g degree q = .ok quality := by
  obtain ⟨ff, gg, fAdj, gAdj, columns, ran, _⟩ := qualityPrepared sqrt positive shortF shortG q
  rw [ran]
  have either (m : RealMatrix K) : qualitySystem degree m = .error qualitySingular ∨ ∃ e, qualitySystem degree m = .ok e := by
    unfold qualitySystem
    cases solveRealSystem degree m with
    | error e => exact .inl rfl
    | ok e => exact .inr ⟨e, rfl⟩
  rcases either (qualityMatrix degree columns q fAdj) with failed | ⟨eF, solvedF⟩
  · exact .inl (by rw [failed]; rfl)
  · rcases either (qualityMatrix degree columns q gAdj) with failed | ⟨eG, solvedG⟩
    · exact .inl (by rw [solvedF, failed]; rfl)
    · exact .inr ⟨_, by rw [solvedF, solvedG]; rfl⟩

variable [IsStrictOrderedRing K]

/- A system of the quality, where nothing but zero is divided into zero. -/
theorem qualitySolved (positive : 0 < degree) {columns : List ZPoly} {side : ZPoly} (tall : columns.length = degree) (width : side.length = degree)
    (meaning : ∀ c < degree, (columns.getD c []).length = degree ∧
      element degree (toReal (columns.getD c []) : List K) = sumOfSquares positive f g * AdjoinRoot.root _ ^ c)
    (cancels : ∀ w : Negacyclic K degree, sumOfSquares positive f g * w = 0 → w = 0) :
    ∃ e : List K, qualitySystem degree (qualityMatrix degree columns q side) = .ok e ∧ e.length = degree ∧
      element degree e * sumOfSquares positive f g = AdjoinRoot.of _ (q : K) * element degree (toReal side) := by
  obtain ⟨d, _, divisor⟩ := Adjoint.elementSurjective positive (sumOfSquares positive f g : Negacyclic K degree)
  have row {r : Nat} (near : r < degree) : (qualityMatrix degree columns q side : RealMatrix K).getD r [] =
      (columns.map fun column => ((column.getD r 0 : Int) : K)) ++ [((q * side.getD r 0 : Int) : K)] := by
    simp [qualityMatrix, List.getD_eq_getElem?_getD, near]
  have shaped : Shaped degree (qualityMatrix degree columns q side : RealMatrix K) := by
    refine ⟨by simp [qualityMatrix], fun values mem => ?_⟩
    obtain ⟨r, _, rfl⟩ := List.mem_map.mp mem
    simp [tall]
  have entry (l : ZPoly) (i : Nat) : (toReal l : List K).getD i 0 = ((l.getD i 0 : Int) : K) := by
    rw [toReal, ← Int.cast_zero, List.getD_map]
  obtain ⟨e, solved, long, product⟩ := @divisionSolved K _ degree ((toReal side : List K).map ((q : K) * ·)) d _ _
    (fun c => toReal (columns.getD c [])) positive (by simpa using realWidth width)
    (fun c inside => ⟨realWidth (meaning c inside).1, by rw [(meaning c inside).2, divisor]⟩) _ shaped
    (fun r near c inside => by
      rw [cell, row near, List.getD_append _ _ _ _ (by simpa [tall] using inside), entry]
      simp [List.getD_eq_getElem?_getD, tall, inside])
    (fun r near => by
      rw [cell, row near, List.getD_append_right _ _ _ _ (by simp [tall])]
      simp [tall, List.getD_eq_getElem?_getD, toReal, width, near])
    (fun w zero => cancels w (by rw [← divisor]; exact zero))
  rw [divisor, elementScale] at product
  exact ⟨e, by rw [qualitySystem, solved]; rfl, long, product⟩

/- Both vectors within the bound; the second one is measured half by half. -/
def Bounded (K : Type) [Field K] [LinearOrder K] {degree : Nat} (positive : 0 < degree) (f g : ZPoly) (q : Int) : Prop :=
  ((innerProduct f f + innerProduct g g : Int) : K) ≤ 117 / 100 * (117 / 100) * q ∧
    ∃ eF eG : List K, eF.length = degree ∧ eG.length = degree ∧
      element degree eF * sumOfSquares positive f g = AdjoinRoot.of _ (q : K) * (conjugation K positive).adjoint (element degree (toReal f)) ∧
      element degree eG * sumOfSquares positive f g = AdjoinRoot.of _ (q : K) * (conjugation K positive).adjoint (element degree (toReal g)) ∧
      squares eF ≤ 117 / 100 * (117 / 100) * q ∧ squares eG ≤ 117 / 100 * (117 / 100) * q

theorem rootBelow {sqrt : K → K} (root : ∀ x, 0 ≤ x → 0 ≤ sqrt x ∧ sqrt x * sqrt x = x) {a b : K} (above : 0 ≤ a) (bound : 0 ≤ b) :
    sqrt a ≤ 117 / 100 * sqrt b ↔ a ≤ 117 / 100 * (117 / 100) * b := by
  have factor : 0 ≤ 117 / 100 * sqrt b := mul_nonneg (by norm_num) (root b bound).1
  have squared : 117 / 100 * sqrt b * (117 / 100 * sqrt b) = 117 / 100 * (117 / 100) * b := by
    rw [mul_mul_mul_comm, (root b bound).2]
  rw [mul_self_le_mul_self_iff (root a above).1 factor, (root a above).2, squared]

theorem squaresNonneg (e : List K) : 0 ≤ squares e := by
  refine List.sum_nonneg fun x mem => ?_
  obtain ⟨c, _, rfl⟩ := List.mem_map.mp mem
  exact mul_self_nonneg c

omit [Field K] [IsStrictOrderedRing K] in
theorem largestWithin {a b c bound : K} :
    (if c > (if b > a then b else a) then c else (if b > a then b else a)) ≤ bound ↔ a ≤ bound ∧ b ≤ bound ∧ c ≤ bound := by
  have first : (if b > a then b else a) = max a b := (max_def_lt a b).symm
  have second : (if c > max a b then c else max a b) = max (max a b) c := (max_def_lt _ c).symm
  rw [first, second, max_le_iff, max_le_iff, and_assoc]

/- A candidate is accepted where both vectors are within the bound. -/
theorem qualityMeaning {sqrt : K → K} (root : ∀ x, 0 ≤ x → 0 ≤ sqrt x ∧ sqrt x * sqrt x = x) (positive : 0 < degree) (widthF : f.length = degree)
    (widthG : g.length = degree) (modulus : 0 ≤ q) (cancels : ∀ w : Negacyclic K degree, sumOfSquares positive f g * w = 0 → w = 0) :
    ∃ quality, computeTrapdoorQuality sqrt f g degree q = .ok quality ∧ (quality.accepted = true ↔ Bounded K positive f g q) := by
  obtain ⟨ff, gg, fAdj, gAdj, columns, ran, sizeF, sizeG, widthFAdj, widthGAdj, isF, isG, tall, meaning⟩ :=
    qualityPrepared sqrt positive widthF.le widthG.le q
  have itself {a aa : ZPoly} (width : a.length = degree) (sized : IntegerRing.size degree a = .ok aa) : aa = a := by
    obtain ⟨_, same⟩ := canonicalSizeOk.mp sized
    rw [← same, width, Nat.sub_self, List.replicate_zero, List.append_nil]
  obtain rfl := itself widthF sizeF
  obtain rfl := itself widthG sizeG
  obtain ⟨eF, solvedF, longF, productF⟩ := @qualitySolved K _ degree ff gg q _ _ positive columns fAdj tall widthFAdj meaning cancels
  obtain ⟨eG, solvedG, longG, productG⟩ := @qualitySolved K _ degree ff gg q _ _ positive columns gAdj tall widthGAdj meaning cancels
  rw [isF] at productF
  rw [isG] at productG
  have direct : (0 : K) ≤ ((innerProduct ff ff + innerProduct gg gg : Int) : K) :=
    Int.cast_nonneg (add_nonneg (innerSquare ff) (innerSquare gg))
  have bound : (0 : K) ≤ (q : K) := Int.cast_nonneg modulus
  refine ⟨_, by rw [ran, solvedF, solvedG]; rfl, ?_⟩
  rw [decide_eq_true_iff, largestWithin, rootBelow root direct bound, rootBelow root (squaresNonneg eF) bound,
    rootBelow root (squaresNonneg eG) bound]
  -- The two quotients are the only ones.
  have unique {e e' : List K} {side : Negacyclic K degree} (long : e.length = degree) (long' : e'.length = degree)
      (product : element degree e * sumOfSquares positive ff gg = side) (product' : element degree e' * sumOfSquares positive ff gg = side) :
      e = e' := by
    refine elementInj positive long long' (sub_eq_zero.mp (cancels _ ?_))
    rw [mul_comm, sub_mul, product, product', sub_self]
  constructor
  · rintro ⟨first, second, third⟩
    exact ⟨first, eF, eG, longF, longG, productF, productG, second, third⟩
  · rintro ⟨first, eF', eG', longF', longG', productF', productG', second, third⟩
    rw [unique longF longF' productF productF', unique longG longG' productG productG']
    exact ⟨first, second, third⟩

end Quality
/-! One candidate. -/
section Candidate
variable {ring : RingArithmetic} {f g : ZPoly}

theorem relationSame (ring : RingArithmetic) (key : TrapdoorKey) :
    verifyNtruRelation ring key = verifyNtruRelationExact key.f key.g key.capF key.capG ring.modulus ring.degree := by
  simp only [verifyNtruRelation, verifyNtruRelationExact, if_neg ring.positive.ne', ntruRelationLhs, IntegerRing.make,
    throwIf_not ring.positive.ne', IntegerRing.mul, IntegerRing.sub, bind_next, bind_assoc]

theorem modulusPositive (ring : RingArithmetic) : (0 : Int) < ring.modulus := Int.natCast_pos.mpr (Nat.lt_trans Nat.two_pos ring.large)
theorem someRounds : (8 : Nat) ≠ 0 := by decide
theorem somePasses : (64 : Nat) ≠ 0 := by decide

def stagesOf (ring : RingArithmetic) (power : isPowerOfTwo ring.degree = true) : Stages where
  solver := ⟨ring.degree, ring.modulus, power, modulusPositive ring⟩
  globalReducer := ⟨ring.degree, ring.modulus, 8, power, modulusPositive ring, someRounds⟩
  cleanupReducer := ⟨ring.degree, ring.modulus, 64, power, modulusPositive ring, somePasses⟩

theorem stagesMade (power : isPowerOfTwo ring.degree = true) : stages ring = .ok (stagesOf ring power) := by
  simp only [stages, NTRUEquationSolver.make, NTRUGlobalBabaiReducer.make, NTRUBasisReducer.make, dif_pos power,
    dif_pos (modulusPositive ring), dif_pos someRounds, dif_pos somePasses, bind_next]
  rfl

variable {K : Type} [Field K] [LinearOrder K]

/- What a candidate has to be. -/
structure Acceptable (K : Type) [Field K] [LinearOrder K] (ring : RingArithmetic) (f g : ZPoly) : Prop where
  invertible : IsUnit (residue ring g)
  bounded : Bounded K ring.positive f g ring.modulus
  coprime : ∃ r s, deepestNorm ring.degree f = .ok r ∧ deepestNorm ring.degree g = .ok s ∧ Int.gcd r s = 1

def keyOf (narrow : Int → Int) (f g : ZPoly) (solution : NTRUSolution) : TrapdoorKey :=
  ⟨f, g, solution.capF.map narrow, solution.capG.map narrow⟩

/- What comes of an acceptable one: a key that meets the relation, or a coefficient that the cast changes. -/
def Yields (narrow : Int → Int) (ring : RingArithmetic) (f g : ZPoly) (outcome : Except Error TrapdoorKey) : Prop :=
  ∃ solution : NTRUSolution, verifyNtruRelationExact f g solution.capF solution.capG ring.modulus ring.degree = .ok true ∧
    (outcome = .ok (keyOf narrow f g solution) ∧ verifyNtruRelation ring (keyOf narrow f g solution) = .ok true ∨
      outcome = .error relationLost ∧ ∃ v ∈ solution.capF ++ solution.capG, narrow v ≠ v)

theorem returnedMeaning (narrow : Int → Int) {solution : NTRUSolution}
    (related : verifyNtruRelationExact f g solution.capF solution.capG ring.modulus ring.degree = .ok true) :
    Yields narrow ring f g (returned narrow ring f g solution) := by
  obtain ⟨shortF, shortG, fits, _⟩ := (verifyOk ring.positive).mp related
  have fits' : NTRUSolution.Fits ring.degree ⟨solution.capF.map narrow, solution.capG.map narrow⟩ :=
    ⟨by simpa using fits.capF, by simpa using fits.capG⟩
  obtain ⟨holds, checked, _⟩ := @verifyTotal ring.degree f g ring.modulus ring.positive _ shortF shortG fits'
  have checked' : verifyNtruRelation ring (keyOf narrow f g solution) = .ok holds := (relationSame ring _).trans checked
  refine ⟨solution, related, ?_⟩
  rw [returned]
  change ((verifyNtruRelation ring (keyOf narrow f g solution) >>= fun holds => _) = _ ∧ _) ∨
    ((verifyNtruRelation ring (keyOf narrow f g solution) >>= fun holds => _) = _ ∧ _)
  cases holds with
  | true => exact .inl ⟨by rw [checked']; rfl, checked'⟩
  | false =>
      refine .inr ⟨by rw [checked']; rfl, ?_⟩
      by_contra same
      push Not at same
      have kept {part : ZPoly} (within : ∀ v ∈ part, v ∈ solution.capF ++ solution.capG) : part.map narrow = part :=
        (List.map_congr_left fun v mem => same v (within v mem)).trans (List.map_id part)
      rw [keyOf, kept fun v mem => List.mem_append_left _ mem, kept fun v mem => List.mem_append_right _ mem, relationSame, related] at checked'
      cases checked'

variable [IsStrictOrderedRing K] [FloorRing K]

theorem shortenedMeaning (K : Type) [Field K] [LinearOrder K] [IsStrictOrderedRing K] [FloorRing K] (power : isPowerOfTwo ring.degree = true)
    {solved : NTRUSolution} (related : verifyNtruRelationExact f g solved.capF solved.capG ring.modulus ring.degree = .ok true) :
    ∃ cleaned, shortened K (stagesOf ring power) f g solved = .ok cleaned ∧
      verifyNtruRelationExact f g cleaned.capF cleaned.capG ring.modulus ring.degree = .ok true := by
  obtain ⟨ff, gg, _, last, sizeF, sizeG, _, _, reduced, relatedGlobally, _⟩ := @exactReduced K _ _ _ _ (stagesOf ring power).globalReducer _ _ _ related
  obtain ⟨_, _, _, cleaned, _, _, _, _, _, ran, relatedCleaned, _⟩ :=
    NTRUBasisReducer.reduceMeaning (stagesOf ring power).cleanupReducer relatedGlobally
  refine ⟨cleaned, ?_, relatedCleaned⟩
  simp only [shortened, sizeF, sizeG, reduced, ran, bind_next]
  rfl

/- A pair that is part of a basis has a sum of squares that cancels. -/
omit [FloorRing K] in
theorem relatedCancels {solution : NTRUSolution}
    (related : verifyNtruRelationExact f g solution.capF solution.capG ring.modulus ring.degree = .ok true)
    (w : Negacyclic K ring.degree) (zero : sumOfSquares ring.positive f g * w = 0) : w = 0 := by
  have relation : verifyNtruRelation ring ⟨f, g, solution.capF, solution.capG⟩ = .ok true := (relationSame ring _).trans related
  refine Forms.squaresCancel (Adjoint.definite ring.positive) (fun u first second => trapdoorIndependent relation u ?_) zero
  linear_combination element ring.degree (toReal solution.capG) * first - element ring.degree (toReal solution.capF) * second

/- A candidate is turned down exactly when it is not acceptable, and nothing else goes wrong before the last check. -/
theorem candidateDecided [Fact ring.modulus.Prime] {sqrt : K → K} (root : ∀ x, 0 ≤ x → 0 ≤ sqrt x ∧ sqrt x * sqrt x = x)
    (narrow : Int → Int) (power : isPowerOfTwo ring.degree = true) (widthF : f.length = ring.degree) (widthG : g.length = ring.degree) :
    (¬Acceptable K ring f g ∧ candidate sqrt narrow ring (stagesOf ring power) f g = .ok none) ∨
      Acceptable K ring f g ∧ ∃ outcome, Yields narrow ring f g outcome ∧
        candidate sqrt narrow ring (stagesOf ring power) f g = outcome.map some := by
  obtain ⟨found, inverted, decides, _⟩ := inverseDecides widthG.le
  obtain ⟨k, degree⟩ := isPowerOfTwoIff.mp power
  obtain ⟨r, s, solution, levels, deepF, deepG, solves, coprime, sound⟩ :=
    @solveRecursiveMeaning ring.modulus k f g (degree ▸ widthF.le) (degree ▸ widthG.le)
  rw [← degree] at deepF deepG solves sound
  have solved : (stagesOf ring power).solver.solve f g = .ok (solution, levels) := solves
  cases found with
  | none =>
      refine .inl ⟨fun acceptable => absurd (decides.mpr acceptable.invertible) (by simp), ?_⟩
      simp only [candidate, inverted, bind_next, Option.isNone_none, if_true]
      rfl
  | some inverse =>
      have invertible := decides.mp rfl
      have rest : candidate sqrt narrow ring (stagesOf ring power) f g = (do
          let accepted ← qualityAccepted sqrt ring f g
          if accepted = false then return none
          else match solution with
            | none => return none
            | some solved => do
                let cleaned ← shortened K (stagesOf ring power) f g solved
                let key ← returned narrow ring f g cleaned
                return some key) := by
        simp only [candidate, inverted, solved, bind_next, Option.isNone_some, Bool.false_eq_true, if_false]
      rw [rest]
      cases solution with
      | none =>
          have apart : ¬Acceptable K ring f g := by
            rintro ⟨_, _, r', s', deepF', deepG', one⟩
            rw [deepF] at deepF'
            rw [deepG] at deepG'
            cases deepF'
            cases deepG'
            cases coprime.mpr one
          refine .inl ⟨apart, ?_⟩
          rcases qualityTotal sqrt ring.positive widthF.le widthG.le ring.modulus with lost | ⟨quality, made⟩
          · rw [qualityAccepted, lost]
            rfl
          · rw [qualityAccepted, made, bind_next]
            split <;> rfl
      | some solution =>
          have related : verifyNtruRelationExact f g solution.capF solution.capG ring.modulus ring.degree = .ok true := by
            obtain ⟨⟨sizeF, sizeG⟩, meets⟩ := sound solution rfl
            exact (verifyOk ring.positive).mpr ⟨widthF.le, widthG.le, ⟨sizeF.le, sizeG.le⟩, meets⟩
          obtain ⟨quality, made, accepts⟩ :=
            qualityMeaning root ring.positive widthF widthG (Int.natCast_nonneg ring.modulus) (relatedCancels (K := K) related)
          rw [qualityAccepted, made, bind_next]
          by_cases accepted : quality.accepted = true
          · obtain ⟨cleaned, shortens, relatedCleaned⟩ := shortenedMeaning K power related
            refine .inr ⟨⟨invertible, accepts.mp accepted, r, s, deepF, deepG, coprime.mp rfl⟩, returned narrow ring f g cleaned,
              returnedMeaning narrow relatedCleaned, ?_⟩
            rw [if_neg (by rw [accepted]; decide)]
            simp only [shortens, bind_next]
            cases returned narrow ring f g cleaned <;> rfl
          · exact .inl ⟨fun acceptable => accepted (accepts.mpr acceptable.bounded), if_pos (Bool.eq_false_iff.mpr accepted)⟩

end Candidate
/-! A run of the generator, for any draw. -/
section Runs
variable {ρ : Type} {sampleDiscreteGaussian : Sampler ρ Int}

def drawnPair (sampleDiscreteGaussian : Sampler ρ Int) (degree : Nat) : Sampler ρ (ZPoly × ZPoly) := do
  let f ← sampleDiscreteGaussianPoly sampleDiscreteGaussian degree
  let g ← sampleDiscreteGaussianPoly sampleDiscreteGaussian degree
  return (f, g)

/- The candidates of a run, in their order. -/
inductive Drawn (sampleDiscreteGaussian : Sampler ρ Int) (degree : Nat) : ρ → List (ZPoly × ZPoly) → ρ → Prop where
  | rest (state : ρ) : Drawn sampleDiscreteGaussian degree state [] state
  | next {state middle last : ρ} {pair : ZPoly × ZPoly} {others : List (ZPoly × ZPoly)}
      (first : drawnPair sampleDiscreteGaussian degree state = .ok (pair, middle)) (later : Drawn sampleDiscreteGaussian degree middle others last) :
      Drawn sampleDiscreteGaussian degree state (pair :: others) last

theorem polyWidth {count : Nat} {state last : ρ} {drawn : List Int}
    (ran : sampleDiscreteGaussianPoly sampleDiscreteGaussian count state = .ok (drawn, last)) : drawn.length = count := by
  induction count generalizing state last drawn with
  | zero =>
      simp only [sampleDiscreteGaussianPoly, statePure_ok] at ran
      rw [← ran.1, List.length_nil]
  | succ count ih =>
      simp only [sampleDiscreteGaussianPoly, stateBind_ok, statePure_ok] at ran
      obtain ⟨first, _, _, others, _, later, rfl, _⟩ := ran
      rw [List.length_cons, ih later]

theorem pairWidth {degree : Nat} {state last : ρ} {pair : ZPoly × ZPoly}
    (ran : drawnPair sampleDiscreteGaussian degree state = .ok (pair, last)) : pair.1.length = degree ∧ pair.2.length = degree := by
  simp only [drawnPair, stateBind_ok, statePure_ok] at ran
  obtain ⟨f, _, first, g, _, second, rfl, _⟩ := ran
  exact ⟨polyWidth first, polyWidth second⟩

variable {K : Type} [Field K] [LinearOrder K] [FloorRing K] {ring : RingArithmetic}

theorem drawnReturned {α : Type} (a : α) (state : ρ) : (StateT.pure a : Sampler ρ α) state = .ok (a, state) := rfl

/- One round of the loop. -/
theorem roundDrawn (sqrt : K → K) (narrow : Int → Int) (stages : Stages) (candidates : Nat) (state : ρ) :
    generateLoop sqrt narrow sampleDiscreteGaussian ring stages (candidates + 1) state =
      (drawnPair sampleDiscreteGaussian ring.degree state >>= fun drawn =>
        candidate sqrt narrow ring stages drawn.1.1 drawn.1.2 >>= fun found => match found with
          | some key => .ok (some key, drawn.2)
          | none => generateLoop sqrt narrow sampleDiscreteGaussian ring stages candidates drawn.2) := by
  rw [generateLoop, drawnPair]
  simp only [bind, StateT.bind, pure, drawnReturned, liftM, monadLift, MonadLift.monadLift, StateT.lift]
  cases sampleDiscreteGaussianPoly sampleDiscreteGaussian ring.degree state with
  | error e => rfl
  | ok first =>
      simp only [Except.bind]
      cases sampleDiscreteGaussianPoly sampleDiscreteGaussian ring.degree first.2 with
      | error e => rfl
      | ok second =>
          simp only [Except.pure]
          cases candidate sqrt narrow ring stages first.1 second.1 with
          | error e => rfl
          | ok found =>
              cases found with
              | none => rfl
              | some key => rfl

/- What a trapdoor is for: it has a public key and a signing tree, and every integer pair of coordinates makes a pair that the public
key verifies. -/
structure Usable (sqrt : K → K) (ring : RingArithmetic) (key : TrapdoorKey) : Prop where
  related : verifyNtruRelation ring key = .ok true
  tree : ∀ targetSigma, ∃ tree, buildSigningTree sqrt ring key targetSigma = .ok tree
  published : ∃ publicKey, derivePublic ring key = .ok publicKey ∧ ∀ target z0 z1, Canonical ring target → Integral ring.degree z0 →
    Integral ring.degree z1 → ∃ pair product, Blns7933.pairOf ring.degree key target z0 z1 = .ok pair ∧
      ring.mul publicKey.t pair.s0 = .ok product ∧ ring.add product pair.s1 = .ok target

omit [FloorRing K] in
theorem keyUsable [IsStrictOrderedRing K] [Fact ring.modulus.Prime] (sqrt : K → K) {depth : Nat} (power : ring.degree = 2 ^ (depth + 1))
    {key : TrapdoorKey} (related : verifyNtruRelation ring key = .ok true) (invertible : IsUnit (residue ring key.g)) : Usable sqrt ring key := by
  obtain ⟨fits, _⟩ := trapdoorResidue related
  refine ⟨related, fun targetSigma => ?_, ?_⟩
  · obtain ⟨gram, made, wide, definite⟩ := trapdoorGram (K := K) related
    obtain ⟨⟨tree, built, _⟩, _⟩ := @falconTreeBuilt K _ _ _ _ sqrt targetSigma depth
      (power.trans (treeDegreePower depth).symm) ring.positive gram wide definite
    exact ⟨tree, by rw [buildSigningTree, made, bind_next, built]⟩
  · obtain ⟨found, inverted, decides, shaped⟩ := inverseDecides fits.g
    obtain ⟨gInv, rfl⟩ := Option.isSome_iff_exists.mp (decides.mpr invertible)
    obtain ⟨t, multiplied⟩ := mulTotal fits.f (shaped gInv rfl).1.width.le
    have derived : derivePublic ring key = .ok ⟨t⟩ := by
      have short : ¬(key.f.length > ring.degree ∨ key.g.length > ring.degree) := by
        have f := fits.f
        have g := fits.g
        omega
      rw [derivePublic, throwIf_not short, bind_next, inverted, bind_next]
      exact bind_ok.mpr ⟨t, multiplied, rfl⟩
    exact ⟨⟨t⟩, derived, fun target z0 z1 canonical drawn0 drawn1 => pairComputed related derived canonical drawn0 drawn1⟩

/- However the coefficients are drawn: the candidates that a run passes by are exactly those that are not acceptable, and the first
acceptable one becomes a key that can be used, unless the cast to 64 bits changes a coefficient of it. -/
theorem generatedSound [IsStrictOrderedRing K] [Fact ring.modulus.Prime] (sqrt : K → K) (root : ∀ x, 0 ≤ x → 0 ≤ sqrt x ∧ sqrt x * sqrt x = x)
    (narrow : Int → Int) (sampleDiscreteGaussian : Sampler ρ Int) {depth : Nat} (power : ring.degree = 2 ^ (depth + 1)) (candidates : Nat) (state : ρ) :
    ∃ refused middle, Drawn sampleDiscreteGaussian ring.degree state refused middle ∧ (∀ pair ∈ refused, ¬Acceptable K ring pair.1 pair.2) ∧
      ((refused.length = candidates ∧ generate sqrt narrow sampleDiscreteGaussian ring candidates state = .ok (none, middle)) ∨
        refused.length < candidates ∧
          ((∃ e, drawnPair sampleDiscreteGaussian ring.degree middle = .error e ∧
              generate sqrt narrow sampleDiscreteGaussian ring candidates state = .error e) ∨
            ∃ f g last, drawnPair sampleDiscreteGaussian ring.degree middle = .ok ((f, g), last) ∧ Acceptable K ring f g ∧
              ∃ solution : NTRUSolution, verifyNtruRelationExact f g solution.capF solution.capG ring.modulus ring.degree = .ok true ∧
                (generate sqrt narrow sampleDiscreteGaussian ring candidates state = .ok (some (keyOf narrow f g solution), last) ∧
                    Usable sqrt ring (keyOf narrow f g solution) ∨
                  generate sqrt narrow sampleDiscreteGaussian ring candidates state = .error relationLost ∧
                    ∃ v ∈ solution.capF ++ solution.capG, narrow v ≠ v))) := by
  have powerOfTwo : isPowerOfTwo ring.degree = true := isPowerOfTwoIff.mpr ⟨depth + 1, power⟩
  have entered : generate sqrt narrow sampleDiscreteGaussian ring candidates state =
      generateLoop sqrt narrow sampleDiscreteGaussian ring (stagesOf ring powerOfTwo) candidates state := by
    rw [generate, stagesMade powerOfTwo]
    rfl
  rw [entered]
  induction candidates generalizing state with
  | zero => exact ⟨[], state, .rest state, fun pair mem => absurd mem List.not_mem_nil, .inl ⟨rfl, rfl⟩⟩
  | succ candidates ih =>
      rw [roundDrawn]
      cases drew : drawnPair sampleDiscreteGaussian ring.degree state with
      | error e =>
          exact ⟨[], state, .rest state, fun pair mem => absurd mem List.not_mem_nil, .inr ⟨Nat.succ_pos _, .inl ⟨e, drew, rfl⟩⟩⟩
      | ok drawn =>
          obtain ⟨⟨f, g⟩, next⟩ := drawn
          obtain ⟨widthF, widthG⟩ := pairWidth drew
          rw [bind_next]
          rcases candidateDecided root narrow powerOfTwo widthF widthG with ⟨apart, none_⟩ | ⟨acceptable, outcome, ⟨solution, related, came⟩, some_⟩
          · -- A candidate that is turned down goes in front of what the rest of the run turns down.
            simp only [none_, bind_next]
            have same : generate sqrt narrow sampleDiscreteGaussian ring candidates next =
                generateLoop sqrt narrow sampleDiscreteGaussian ring (stagesOf ring powerOfTwo) candidates next := by
              rw [generate, stagesMade powerOfTwo]
              rfl
            obtain ⟨refused, middle, ran, each, ended⟩ := ih next same
            refine ⟨(f, g) :: refused, middle, .next drew ran, fun pair mem => ?_, ?_⟩
            · rcases List.mem_cons.mp mem with rfl | mem
              · exact apart
              · exact each pair mem
            · rw [List.length_cons, Nat.succ_inj, Nat.succ_lt_succ_iff]
              exact ended
          · refine ⟨[], state, .rest state, fun pair mem => absurd mem List.not_mem_nil,
              .inr ⟨Nat.succ_pos _, .inr ⟨f, g, next, drew, acceptable, solution, related, ?_⟩⟩⟩
            simp only [some_]
            rcases came with ⟨rfl, holds⟩ | ⟨rfl, changed⟩
            · exact .inl ⟨rfl, keyUsable sqrt power holds acceptable.invertible⟩
            · exact .inr ⟨rfl, changed⟩

end Runs
/-! The small trapdoor comes out where its `f` and `g` are drawn. -/

def popDraw : Sampler (List Int) Int := fun state => .ok (state.headD 0, state.tail)

theorem smallBounded : Bounded ℝ Nat.two_pos [1, 1] [1, 0] 5 := by
  have square : (AdjoinRoot.root (Polynomial.X ^ 2 + 1 : Polynomial ℝ)) ^ 2 = -1 := Coefficients.rootPow 2
  have third : AdjoinRoot.of (Polynomial.X ^ 2 + 1 : Polynomial ℝ) (5 / 3) * 3 = AdjoinRoot.of _ 5 := by
    rw [← map_ofNat (AdjoinRoot.of (Polynomial.X ^ 2 + 1 : Polynomial ℝ)) 3, ← map_mul]
    norm_num
  have turned (a b : ℝ) : (conjugation ℝ Nat.two_pos).adjoint (element 2 [a, b]) = element 2 [a, -b] :=
    (@Adjoint.elementAdjoint ℝ _ 2 Nat.two_pos [a, b] rfl).symm
  have sum : (sumOfSquares Nat.two_pos [1, 1] [1, 0] : Negacyclic ℝ 2) = 3 := by
    simp only [sumOfSquares, toReal, List.map_cons, List.map_nil, turned]
    simp [element]
    linear_combination -square
  refine ⟨by norm_num [innerProduct, List.range_succ], [5 / 3, -(5 / 3)], [5 / 3, 0], rfl, rfl, ?_, ?_, by norm_num [squares], by norm_num [squares]⟩
  · rw [sum]
    simp only [toReal, List.map_cons, List.map_nil, turned]
    simp [element]
    linear_combination (1 - AdjoinRoot.root _) * third
  · rw [sum]
    simp only [toReal, List.map_cons, List.map_nil, turned]
    simp [element]
    linear_combination third

theorem smallNorm (f : ZPoly) {norm : Int} (sized : IntegerRing.size 2 f = .ok f) (down : IntegerRing.fieldNorm 2 f = .ok [norm]) :
    deepestNorm 2 f = .ok norm := by
  rw [deepestNorm, dif_neg (by decide), sized, bind_next, if_neg (by decide), down, bind_next, deepestNorm, dif_neg (by decide)]
  rfl

theorem smallAcceptable : Acceptable ℝ smallRing [1, 1] [1, 0] where
  invertible := by
    have one : residue smallRing [1, 0] = 1 := by simp [residue, element]
    rw [one]
    exact isUnit_one
  bounded := smallBounded
  coprime := ⟨2, 1, smallNorm [1, 1] rfl (by decide +kernel), smallNorm [1, 0] rfl (by decide +kernel), by decide⟩

theorem smallGenerated : ∃ key, generate Real.sqrt id popDraw smallRing 1 [1, 1, 1, 0] = .ok (some key, []) ∧ Usable Real.sqrt smallRing key ∧
    key.f = [1, 1] ∧ key.g = [1, 0] := by
  have prime : Fact smallRing.modulus.Prime := ⟨Nat.prime_five⟩
  have drew : drawnPair popDraw smallRing.degree [1, 1, 1, 0] = .ok (([1, 1], [1, 0]), []) := rfl
  obtain ⟨refused, middle, ran, each, ended⟩ := @generatedSound (List Int) ℝ _ _ _ smallRing _ prime Real.sqrt
    (fun x above => ⟨Real.sqrt_nonneg x, Real.mul_self_sqrt above⟩) id popDraw 0 rfl 1 [1, 1, 1, 0]
  -- The pair that is drawn first is acceptable, so nothing is turned down.
  cases ran with
  | rest =>
      rcases ended with ⟨none_, _⟩ | ⟨_, ⟨e, failed, _⟩ | ⟨f, g, last, drew', _, solution, _, ⟨made, usable⟩ | ⟨_, v, _, changed⟩⟩⟩
      · cases none_
      · rw [drew] at failed
        cases failed
      · rw [drew] at drew'
        cases drew'
        exact ⟨_, made, usable, rfl, rfl⟩
      · exact absurd rfl changed
  | next first later =>
      rw [drew] at first
      cases first
      exact absurd smallAcceptable (each _ List.mem_cons_self)

end TradeP2P.Blns7933.RealRingArithmetic
