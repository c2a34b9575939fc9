import TradeP2P.Blind.IntegerRing
import TradeP2P.Blind.RealRing
import TradeP2P.Blind.Sign
import Mathlib.Analysis.Real.Sqrt

/-! The signing tree of a trapdoor, in exact real arithmetic. A node divides by the upper diagonal entry of its matrix and
hands the two entries of the decomposition down, each as a matrix over half the degree. -/
namespace TradeP2P.Blns7933.RealRingArithmetic
open Checks
open Coefficients (Negacyclic element elementInj)
open Adjoint (conjugation)

section Definitions
variable {K : Type} [Field K]

structure GramMatrix (K : Type) where
  g00 : List K
  g01 : List K
  g10 : List K
  g11 : List K

def buildGramMatrix (degree : Nat) (f g capF capG : List K) : Except Error (GramMatrix K) := do
  let fAdj ← hermitianAdjoint degree f
  let gAdj ← hermitianAdjoint degree g
  let capFAdj ← hermitianAdjoint degree capF
  let capGAdj ← hermitianAdjoint degree capG
  let g00 ← add degree (← mul degree g gAdj) (← mul degree f fAdj)
  let g01 ← add degree (← mul degree g capGAdj) (← mul degree f capFAdj)
  let g10 ← add degree (← mul degree capG gAdj) (← mul degree capF fAdj)
  let g11 ← add degree (← mul degree capG capGAdj) (← mul degree capF capFAdj)
  return { g00, g01, g10, g11 }

structure LdlResult (K : Type) where
  l10 : List K
  d00 : List K
  d11 : List K

/- A node of degree two has leaves for children, any other has nodes. -/
inductive FalconTreeNode (K : Type) where
  | leaves (value : List K) (left right : K)
  | node (value : List K) (left right : FalconTreeNode K)

-- The degree of a node that is so far above the last ones.
def treeDegree : Nat → Nat
  | 0 => 2
  | depth + 1 => 2 * treeDegree depth

-- The upper entry is on both places of the diagonal.
def halfMatrix (half : Nat) (d : List K) : Except Error (GramMatrix K) := do
  let (even, odd) ← split d
  return { g00 := even, g01 := odd, g10 := ← hermitianAdjoint half odd, g11 := even }

variable [LinearOrder K]

def ldl (degree : Nat) (gram : GramMatrix K) : Except Error (LdlResult K) := do
  let l10 ← div degree gram.g10 gram.g00
  let l10Adj ← hermitianAdjoint degree l10
  let correction ← mul degree (← mul degree l10 l10Adj) gram.g00
  return { l10, d00 := gram.g00, d11 := ← sub degree gram.g11 correction }

def isNegligible (value : K) : Bool := realAbs value < 1 / 10 ^ 100

def notSelfAdjoint : Error := .logicError ("BLNS7933 Falcon tree: degree-2 diagonal entry is not self-adjoint - " ++
  "this should never happen for a genuine Gram matrix, investigate")

def notPositive : Error := .logicError ("BLNS7933 Falcon tree: a degree-2 Gram diagonal entry is not strictly " ++
  "positive - the Gram matrix is not positive definite, investigate")

def buildFalconTreeRecursive (sqrt : K → K) (targetSigma : K) : Nat → GramMatrix K → Except Error (FalconTreeNode K)
  | 0, gram => do
      let decomposed ← ldl 2 gram
      throwIf (!isNegligible (decomposed.d00.getD 1 0) || !isNegligible (decomposed.d11.getD 1 0)) notSelfAdjoint
      throwIf (¬decomposed.d00.getD 0 0 > 0 ∨ ¬decomposed.d11.getD 0 0 > 0) notPositive
      return .leaves decomposed.l10 (targetSigma / sqrt (decomposed.d00.getD 0 0)) (targetSigma / sqrt (decomposed.d11.getD 0 0))
  | depth + 1, gram => do
      let decomposed ← ldl (2 * treeDegree depth) gram
      let g0 ← halfMatrix (treeDegree depth) decomposed.d00
      let g1 ← halfMatrix (treeDegree depth) decomposed.d11
      let left ← buildFalconTreeRecursive sqrt targetSigma depth g0
      let right ← buildFalconTreeRecursive sqrt targetSigma depth g1
      return .node decomposed.l10 left right

-- A power of two is the degree of a node so far above the last ones as its exponent tells.
def buildFalconTree (sqrt : K → K) (gram : GramMatrix K) (degree : Nat) (targetSigma : K) : Except Error (FalconTreeNode K) := do
  throwIf (degree < 2 ∨ isPowerOfTwo degree = false) (.invalidArgument "BLNS7933 Falcon tree degree must be a power of two >= 2")
  buildFalconTreeRecursive sqrt targetSigma (degree.log2 - 1) gram

def toReal (raw : List Int) : List K := raw.map Int.cast

def buildSigningTree (sqrt : K → K) (ring : RingArithmetic) (key : TrapdoorKey) (targetSigma : K) : Except Error (FalconTreeNode K) := do
  let gram ← buildGramMatrix ring.degree (toReal key.f : List K) (toReal key.g) (toReal key.capF) (toReal key.capG)
  buildFalconTree sqrt gram ring.degree targetSigma

end Definitions

/-! One node. -/
section Nodes
variable {K : Type} [Field K] {degree : Nat} {gram : GramMatrix K} {d : List K}

structure GramMatrix.Wide (degree : Nat) (gram : GramMatrix K) : Prop where
  g00 : gram.g00.length = degree
  g01 : gram.g01.length = degree
  g10 : gram.g10.length = degree
  g11 : gram.g11.length = degree

noncomputable def GramMatrix.elements (degree : Nat) (gram : GramMatrix K) : Forms.Gram (Negacyclic K degree) where
  g00 := element degree gram.g00
  g01 := element degree gram.g01
  g10 := element degree gram.g10
  g11 := element degree gram.g11

/- An element is self-adjoint where its coefficients are. -/
theorem adjointOk (positive : 0 < degree) {a b : List K} (widthA : a.length = degree) (widthB : b.length = degree)
    (same : Adjoint.inverted positive (element degree a) = element degree b) : hermitianAdjoint degree a = .ok b := by
  obtain ⟨b', made⟩ := adjointTotal widthA.le
  obtain ⟨width, worth⟩ := adjointMeaning positive made
  rw [made, elementInj positive width widthB (worth.trans same)]

/- Of degree two, such an element is its constant coefficient. -/
theorem linearVanishes [LinearOrder K] [IsStrictOrderedRing K] {d : List K} (width : d.length = 2) (self : hermitianAdjoint 2 d = .ok d) :
    d.getD 1 0 = 0 := by
  have sized : canonicalSize realTooLong 2 d = .ok d := canonicalSizeOk.mpr ⟨width.le, by simp [width]⟩
  have made : adjointList 2 d = d := by
    rw [hermitianAdjoint, sized] at self
    exact Except.ok.inj self
  have entry := congrArg (fun l => l.getD 1 0) made
  have turned : (adjointList 2 d).getD 1 0 = -d.getD 1 0 := rfl
  rw [turned] at entry
  exact self_eq_neg.mp entry.symm

theorem constantPositive [LinearOrder K] [IsStrictOrderedRing K] (positive : 0 < degree) (width : d.length = degree)
    (definite : Forms.Positive (conjugation K positive) (element degree d)) : 0 < d.getD 0 0 := by
  have one : Adjoint.constant positive (1 : Negacyclic K degree) = 1 := by
    have power := Adjoint.constantPow (K := K) positive positive
    rwa [pow_zero, if_pos rfl] at power
  have some_ : (1 : Negacyclic K degree) ≠ 0 := by
    intro zero
    rw [zero, map_zero] at one
    exact zero_ne_one one
  have constant := definite.positive 1 some_
  rw [map_one, one_mul, one_mul] at constant
  have read : (conjugation K positive).trace (element degree d) = d.getD 0 0 := Adjoint.constantElement positive width
  rwa [read] at constant

variable [LinearOrder K] [IsStrictOrderedRing K]

/- What holds at a node. -/
structure Decomposes (degree : Nat) (gram : GramMatrix K) (decomposed : LdlResult K) : Prop where
  ran : ldl degree gram = .ok decomposed
  gram00 : hermitianAdjoint degree gram.g00 = .ok gram.g00
  gram01 : hermitianAdjoint degree gram.g01 = .ok gram.g10
  gram11 : hermitianAdjoint degree gram.g11 = .ok gram.g11
  d00 : hermitianAdjoint degree decomposed.d00 = .ok decomposed.d00
  d11 : hermitianAdjoint degree decomposed.d11 = .ok decomposed.d11
  product : ∃ adjoint, hermitianAdjoint degree decomposed.l10 = .ok adjoint ∧
    !![1, 0; element degree decomposed.l10, 1] * !![element degree decomposed.d00, 0; 0, element degree decomposed.d11] *
      !![1, element degree adjoint; 0, 1] = (gram.elements degree).matrix

theorem ldlMeaning (positive : 0 < degree) (wide : gram.Wide degree) (definite : (gram.elements degree).Positive (conjugation K positive)) :
    ∃ decomposed, Decomposes degree gram decomposed ∧ decomposed.d00.length = degree ∧ decomposed.d11.length = degree ∧
      Forms.Positive (conjugation K positive) (element degree decomposed.d00) ∧
      Forms.Positive (conjugation K positive) (element degree decomposed.d11) := by
  obtain ⟨l10, divided, widthL, quotient⟩ := divMeaning positive wide.g10.le wide.g00.le fun w zero => definite.diagonal.cancels zero
  obtain ⟨adjoint, adjoined⟩ := adjointTotal widthL.le
  obtain ⟨widthAdjoint, adjointIs⟩ := adjointMeaning positive adjoined
  obtain ⟨square, squared⟩ := exactMulTotal realTooLong widthL.le widthAdjoint.le
  obtain ⟨widthSquare, squareIs⟩ := exactMulMeaning squared
  obtain ⟨correction, corrected⟩ := exactMulTotal realTooLong widthSquare.le wide.g00.le
  obtain ⟨widthCorrection, correctionIs⟩ := exactMulMeaning corrected
  obtain ⟨d11, subtracted⟩ := exactSubTotal realTooLong wide.g11.le widthCorrection.le
  obtain ⟨width11, is11⟩ := exactSubMeaning subtracted
  have complement := definite.complement quotient
  have product := definite.factors quotient
  have worth : element degree d11 = (gram.elements degree).g11 -
      element degree l10 * (conjugation K positive).adjoint (element degree l10) * (gram.elements degree).g00 := by
    rw [is11, correctionIs, squareIs, adjointIs]
    rfl
  rw [← worth] at complement product
  refine ⟨⟨l10, gram.g00, d11⟩, ⟨?_, ?_, ?_, ?_, ?_, ?_, adjoint, adjoined, ?_⟩, wide.g00, width11, definite.diagonal, complement⟩
  · have squared : mul degree l10 adjoint = .ok square := squared
    have corrected : mul degree square gram.g00 = .ok correction := corrected
    have subtracted : sub degree gram.g11 correction = .ok d11 := subtracted
    simp only [ldl, divided, adjoined, squared, corrected, subtracted, bind, Except.bind]
    rfl
  · exact adjointOk positive wide.g00 wide.g00 definite.first
  · exact adjointOk positive wide.g01 wide.g10 definite.cross
  · exact adjointOk positive wide.g11 wide.g11 definite.last
  · exact adjointOk positive wide.g00 wide.g00 definite.first
  · exact adjointOk positive width11 width11 complement.self
  · rw [adjointIs]
    exact product

omit [IsStrictOrderedRing K] in
/- Half the degree: the matrix of a positive diagonal entry is positive again. -/
theorem halfMeaning {half : Nat} (positive : 0 < half) (twice : 0 < 2 * half) (width : d.length = 2 * half)
    (definite : Forms.Positive (conjugation K twice) (element (2 * half) d)) :
    ∃ gram, halfMatrix half d = .ok gram ∧ gram.Wide half ∧ (gram.elements half).Positive (conjugation K positive) := by
  obtain ⟨even, odd, parted, widthE, widthO, parts⟩ := splitMeaning positive width
  obtain ⟨adjoint, adjoined⟩ := adjointTotal widthO.le
  obtain ⟨widthAdjoint, adjointIs⟩ := adjointMeaning positive adjoined
  rw [parts] at definite
  have halves := (Adjoint.doubled (K := K) positive twice).halves definite
  refine ⟨⟨even, odd, adjoint, even⟩, ?_, ⟨widthE, widthO, widthAdjoint, widthE⟩, ?_⟩
  · simp only [halfMatrix, parted, adjoined, bind, Except.bind]
    rfl
  · have same : (GramMatrix.elements half ⟨even, odd, adjoint, even⟩ : Forms.Gram (Negacyclic K half)) =
        ⟨element half even, element half odd, (conjugation K positive).adjoint (element half odd), element half even⟩ := by
      rw [GramMatrix.elements, adjointIs]
      rfl
    rw [same]
    exact halves

end Nodes

/-! The tree. -/
section Trees
variable {K : Type} [Field K] [LinearOrder K]

def FalconTreeNode.leafValues : FalconTreeNode K → List K
  | .leaves _ left right => [left, right]
  | .node _ left right => left.leafValues ++ right.leafValues

/- The nodes that the recursion comes to, with their distance from the last ones. -/
inductive Visits : Nat → GramMatrix K → Nat → GramMatrix K → Prop where
  | here (depth : Nat) (gram : GramMatrix K) : Visits depth gram depth gram
  | left {depth depth' : Nat} {gram g0 gram' : GramMatrix K} {decomposed : LdlResult K}
      (ran : ldl (2 * treeDegree depth) gram = .ok decomposed) (halved : halfMatrix (treeDegree depth) decomposed.d00 = .ok g0)
      (below : Visits depth g0 depth' gram') : Visits (depth + 1) gram depth' gram'
  | right {depth depth' : Nat} {gram g1 gram' : GramMatrix K} {decomposed : LdlResult K}
      (ran : ldl (2 * treeDegree depth) gram = .ok decomposed) (halved : halfMatrix (treeDegree depth) decomposed.d11 = .ok g1)
      (below : Visits depth g1 depth' gram') : Visits (depth + 1) gram depth' gram'

theorem treeDegreePositive (depth : Nat) : 0 < treeDegree depth := by
  induction depth with
  | zero => exact Nat.two_pos
  | succ depth ih => exact Nat.mul_pos Nat.two_pos ih

theorem treeDegreePower (depth : Nat) : treeDegree depth = 2 ^ (depth + 1) := by
  induction depth with
  | zero => rfl
  | succ depth ih => rw [treeDegree, ih, pow_succ' 2 (depth + 1)]

variable [IsStrictOrderedRing K] {sqrt : K → K} {targetSigma : K}

theorem negligibleZero : isNegligible (0 : K) = true := by
  have small : (0 : K) < 1 / 10 ^ 100 := by positivity
  have none_ : realAbs (0 : K) = 0 := if_neg (lt_irrefl 0)
  rw [isNegligible, none_]
  exact decide_eq_true small

theorem leavesBuilt {gram : GramMatrix K} (wide : gram.Wide 2) (definite : (gram.elements 2).Positive (conjugation K Nat.two_pos)) :
    ∃ tree, buildFalconTreeRecursive sqrt targetSigma 0 gram = .ok tree ∧
      ∀ leaf ∈ tree.leafValues, ∃ scalar, 0 < scalar ∧ leaf = targetSigma / sqrt scalar := by
  obtain ⟨decomposed, decomposes, width00, width11, definite00, definite11⟩ := ldlMeaning Nat.two_pos wide definite
  have first := constantPositive Nat.two_pos width00 definite00
  have second := constantPositive Nat.two_pos width11 definite11
  have negligible : ¬(!isNegligible (decomposed.d00.getD 1 0) || !isNegligible (decomposed.d11.getD 1 0)) = true := by
    rw [linearVanishes width00 decomposes.d00, linearVanishes width11 decomposes.d11, negligibleZero]
    simp
  refine ⟨.leaves decomposed.l10 (targetSigma / sqrt (decomposed.d00.getD 0 0)) (targetSigma / sqrt (decomposed.d11.getD 0 0)), ?_, ?_⟩
  · have fine : ¬(¬decomposed.d00.getD 0 0 > 0 ∨ ¬decomposed.d11.getD 0 0 > 0) := by
      rintro (negative | negative)
      · exact negative first
      · exact negative second
    simp only [buildFalconTreeRecursive, decomposes.ran, throwIf_not negligible, throwIf_not fine, bind, Except.bind]
    rfl
  · intro leaf mem
    rcases List.mem_cons.mp mem with rfl | mem
    · exact ⟨_, first, rfl⟩
    · obtain rfl := List.mem_singleton.mp mem
      exact ⟨_, second, rfl⟩

/- A positive matrix has its tree, whatever the degree. -/
theorem treeBuilt (depth : Nat) {gram : GramMatrix K} (wide : gram.Wide (treeDegree depth))
    (definite : (gram.elements (treeDegree depth)).Positive (conjugation K (treeDegreePositive depth))) :
    ∃ tree, buildFalconTreeRecursive sqrt targetSigma depth gram = .ok tree ∧
      ∀ leaf ∈ tree.leafValues, ∃ scalar, 0 < scalar ∧ leaf = targetSigma / sqrt scalar := by
  induction depth generalizing gram with
  | zero => exact leavesBuilt wide definite
  | succ depth ih =>
    obtain ⟨decomposed, decomposes, width00, width11, definite00, definite11⟩ := ldlMeaning (treeDegreePositive (depth + 1)) wide definite
    obtain ⟨g0, half0, wide0, positive0⟩ := halfMeaning (treeDegreePositive depth) (treeDegreePositive (depth + 1)) width00 definite00
    obtain ⟨g1, half1, wide1, positive1⟩ := halfMeaning (treeDegreePositive depth) (treeDegreePositive (depth + 1)) width11 definite11
    obtain ⟨left, builtLeft, leavesLeft⟩ := ih wide0 positive0
    obtain ⟨right, builtRight, leavesRight⟩ := ih wide1 positive1
    have ran : ldl (2 * treeDegree depth) gram = .ok decomposed := decomposes.ran
    refine ⟨.node decomposed.l10 left right, ?_, fun leaf mem => ?_⟩
    · simp only [buildFalconTreeRecursive, ran, half0, half1, builtLeft, builtRight, bind, Except.bind]
      rfl
    · rcases List.mem_append.mp mem with inLeft | inRight
      · exact leavesLeft leaf inLeft
      · exact leavesRight leaf inRight

/- Every node that is visited is decomposed as it should be. -/
theorem visitsDecompose {depth depth' : Nat} {gram gram' : GramMatrix K} (visits : Visits depth gram depth' gram')
    (wide : gram.Wide (treeDegree depth))
    (definite : (gram.elements (treeDegree depth)).Positive (conjugation K (treeDegreePositive depth))) :
    ∃ decomposed, Decomposes (treeDegree depth') gram' decomposed := by
  induction visits with
  | here depth gram =>
    obtain ⟨decomposed, decomposes, _⟩ := ldlMeaning (treeDegreePositive depth) wide definite
    exact ⟨decomposed, decomposes⟩
  | @left depth depth' gram g0 gram' decomposed ran halved below ih =>
    obtain ⟨own, decomposes, width, _, definite0, _⟩ := ldlMeaning (treeDegreePositive (depth + 1)) wide definite
    obtain rfl := Except.ok.inj (decomposes.ran.symm.trans ran)
    obtain ⟨half, made, wideHalf, positiveHalf⟩ := halfMeaning (treeDegreePositive depth) (treeDegreePositive (depth + 1)) width definite0
    obtain rfl := Except.ok.inj (made.symm.trans halved)
    exact ih wideHalf positiveHalf
  | @right depth depth' gram g1 gram' decomposed ran halved below ih =>
    obtain ⟨own, decomposes, _, width, _, definite1⟩ := ldlMeaning (treeDegreePositive (depth + 1)) wide definite
    obtain rfl := Except.ok.inj (decomposes.ran.symm.trans ran)
    obtain ⟨half, made, wideHalf, positiveHalf⟩ := halfMeaning (treeDegreePositive depth) (treeDegreePositive (depth + 1)) width definite1
    obtain rfl := Except.ok.inj (made.symm.trans halved)
    exact ih wideHalf positiveHalf

end Trees

/-! The tree of a trapdoor. -/
section Trapdoors
variable {K : Type} [Field K] {degree : Nat}

theorem productsAdded {a a' b b' : List K} (shortA : a.length ≤ degree) (shortA' : a'.length ≤ degree) (shortB : b.length ≤ degree)
    (shortB' : b'.length ≤ degree) : ∃ ab ab' sum, mul degree a b = .ok ab ∧ mul degree a' b' = .ok ab' ∧ add degree ab ab' = .ok sum ∧
      sum.length = degree ∧ element degree sum = element degree a * element degree b + element degree a' * element degree b' := by
  obtain ⟨ab, product⟩ := exactMulTotal realTooLong shortA shortB
  obtain ⟨ab', product'⟩ := exactMulTotal realTooLong shortA' shortB'
  obtain ⟨width, worth⟩ := exactMulMeaning product
  obtain ⟨width', worth'⟩ := exactMulMeaning product'
  obtain ⟨sum, added⟩ := exactAddTotal realTooLong width.le width'.le
  obtain ⟨widthSum, worthSum⟩ := exactAddMeaning added
  exact ⟨ab, ab', sum, product, product', added, widthSum, by rw [worthSum, worth, worth']⟩

theorem gramMeaning (positive : 0 < degree) {f g capF capG : List K} (shortF : f.length ≤ degree) (shortG : g.length ≤ degree)
    (shortCapF : capF.length ≤ degree) (shortCapG : capG.length ≤ degree) :
    ∃ gram, buildGramMatrix degree f g capF capG = .ok gram ∧ gram.Wide degree ∧
      gram.elements degree = Forms.gramOf (conjugation K positive) (element degree f) (element degree g)
        (element degree capF) (element degree capG) := by
  obtain ⟨fAdj, adjoinedF⟩ := adjointTotal shortF
  obtain ⟨gAdj, adjoinedG⟩ := adjointTotal shortG
  obtain ⟨capFAdj, adjoinedCapF⟩ := adjointTotal shortCapF
  obtain ⟨capGAdj, adjoinedCapG⟩ := adjointTotal shortCapG
  obtain ⟨widthF, adjointF⟩ := adjointMeaning positive adjoinedF
  obtain ⟨widthG, adjointG⟩ := adjointMeaning positive adjoinedG
  obtain ⟨widthCapF, adjointCapF⟩ := adjointMeaning positive adjoinedCapF
  obtain ⟨widthCapG, adjointCapG⟩ := adjointMeaning positive adjoinedCapG
  obtain ⟨gg, ff, g00, mulGG, mulFF, sum00, width00, is00⟩ := productsAdded shortG shortF widthG.le widthF.le
  obtain ⟨gh, fk, g01, mulGH, mulFK, sum01, width01, is01⟩ := productsAdded shortG shortF widthCapG.le widthCapF.le
  obtain ⟨hg, kf, g10, mulHG, mulKF, sum10, width10, is10⟩ := productsAdded shortCapG shortCapF widthG.le widthF.le
  obtain ⟨hh, kk, g11, mulHH, mulKK, sum11, width11, is11⟩ := productsAdded shortCapG shortCapF widthCapG.le widthCapF.le
  refine ⟨⟨g00, g01, g10, g11⟩, ?_, ⟨width00, width01, width10, width11⟩, ?_⟩
  · simp only [buildGramMatrix, bind_ok, pure_ok]
    exact ⟨fAdj, adjoinedF, gAdj, adjoinedG, capFAdj, adjoinedCapF, capGAdj, adjoinedCapG, gg, mulGG, ff, mulFF, g00, sum00,
      gh, mulGH, fk, mulFK, g01, sum01, hg, mulHG, kf, mulKF, g10, sum10, hh, mulHH, kk, mulKK, g11, sum11, rfl⟩
  · rw [GramMatrix.elements, is00, is01, is10, is11, adjointF, adjointG, adjointCapF, adjointCapG]
    rfl

variable {ring : RingArithmetic} {key : TrapdoorKey}

/- The exact relation, over the field: the determinant of the basis is a constant other than zero. -/
theorem trapdoorDeterminant (relation : verifyNtruRelation ring key = .ok true) :
    element ring.degree (toReal key.f : List K) * element ring.degree (toReal key.capG) -
      element ring.degree (toReal key.g) * element ring.degree (toReal key.capF) = AdjoinRoot.of _ (ring.modulus : K) := by
  simp only [verifyNtruRelation, bind_ok, pure_ok, decide_eq_true_iff] at relation
  obtain ⟨fG, first, gF, second, lhs, difference, same⟩ := relation
  have products := (exactMulMeaning (exactMulMap (Int.castRingHom K) realTooLong first)).2
  have products' := (exactMulMeaning (exactMulMap (Int.castRingHom K) realTooLong second)).2
  have subtracted := (exactSubMeaning (exactSubMap (Int.castRingHom K) realTooLong difference)).2
  have constant : element ring.degree (lhs.map (Int.castRingHom K)) = AdjoinRoot.of _ (ring.modulus : K) := by
    obtain ⟨rest, positive⟩ := Nat.exists_eq_succ_of_ne_zero ring.positive.ne'
    rw [same]
    simp [positive, element, List.replicate_succ]
  rw [products, products', constant] at subtracted
  exact subtracted.symm

variable [LinearOrder K] [IsStrictOrderedRing K]

theorem trapdoorIndependent (relation : verifyNtruRelation ring key = .ok true) (w : Negacyclic K ring.degree)
    (zero : (element ring.degree (toReal key.f) * element ring.degree (toReal key.capG) -
      element ring.degree (toReal key.g) * element ring.degree (toReal key.capF)) * w = 0) : w = 0 := by
  have some_ : (ring.modulus : K) ≠ 0 := Nat.cast_ne_zero.mpr (Nat.lt_trans Nat.two_pos ring.large).ne'
  have unit : AdjoinRoot.of (Polynomial.X ^ ring.degree + 1 : Polynomial K) (ring.modulus : K)⁻¹ * AdjoinRoot.of _ (ring.modulus : K) = 1 := by
    rw [← map_mul, inv_mul_cancel₀ some_, map_one]
  rw [trapdoorDeterminant relation] at zero
  linear_combination AdjoinRoot.of _ (ring.modulus : K)⁻¹ * zero - w * unit

theorem trapdoorGram (relation : verifyNtruRelation ring key = .ok true) :
    ∃ gram, buildGramMatrix ring.degree (toReal key.f : List K) (toReal key.g) (toReal key.capF) (toReal key.capG) = .ok gram ∧
      gram.Wide ring.degree ∧ (gram.elements ring.degree).Positive (conjugation K ring.positive) := by
  obtain ⟨fits, _⟩ := trapdoorResidue relation
  have short {raw : List Int} (fits : raw.length ≤ ring.degree) : (toReal raw : List K).length ≤ ring.degree := by
    simpa [toReal] using fits
  obtain ⟨gram, built, wide, is⟩ := gramMeaning ring.positive (short fits.f) (short fits.g) (short fits.capF) (short fits.capG)
  refine ⟨gram, built, wide, ?_⟩
  rw [is]
  exact Forms.gramPositive (Adjoint.definite ring.positive) (trapdoorIndependent relation)

/- A positive matrix of the top degree: the checks before the recursion are met, and its depth is the degree's. -/
theorem falconTreeBuilt {sqrt : K → K} {targetSigma : K} {depth : Nat} (same : degree = treeDegree depth) (positive : 0 < degree)
    {gram : GramMatrix K} (wide : gram.Wide degree) (definite : (gram.elements degree).Positive (conjugation K positive)) :
    (∃ tree, buildFalconTree sqrt gram degree targetSigma = .ok tree ∧
      ∀ leaf ∈ tree.leafValues, ∃ scalar, 0 < scalar ∧ leaf = targetSigma / sqrt scalar) ∧
    ∀ depth' gram', Visits depth gram depth' gram' → ∃ decomposed, Decomposes (treeDegree depth') gram' decomposed := by
  subst same
  obtain ⟨tree, built, leaves⟩ := @treeBuilt K _ _ _ sqrt targetSigma depth gram wide definite
  refine ⟨⟨tree, ?_, leaves⟩, fun depth' gram' visits => visitsDecompose visits wide definite⟩
  have least : 2 ≤ treeDegree depth := by
    rw [treeDegreePower, pow_succ]
    exact Nat.le_mul_of_pos_left 2 (Nat.two_pow_pos depth)
  have power : isPowerOfTwo (treeDegree depth) = true := by
    rw [treeDegreePower, isPowerOfTwo, Nat.and_two_pow_sub_one_eq_mod, Nat.mod_self]
    simp
  have fine : ¬(treeDegree depth < 2 ∨ isPowerOfTwo (treeDegree depth) = false) := by
    rintro (few | other)
    · exact absurd few (not_lt.mpr least)
    · rw [power] at other
      cases other
  have exponent : (treeDegree depth).log2 - 1 = depth := by rw [treeDegreePower, Nat.log2_two_pow, Nat.add_sub_cancel]
  simp only [buildFalconTree, throwIf_not fine, exponent, bind, Except.bind]
  exact built

theorem signingTreeSound (sqrt : K → K) (targetSigma : K) {depth : Nat} (power : ring.degree = 2 ^ (depth + 1))
    (relation : verifyNtruRelation ring key = .ok true) :
    ∃ gram tree,
      buildGramMatrix ring.degree (toReal key.f : List K) (toReal key.g) (toReal key.capF) (toReal key.capG) = .ok gram ∧
      buildFalconTree sqrt gram ring.degree targetSigma = .ok tree ∧
      buildSigningTree sqrt ring key targetSigma = .ok tree ∧
      (∀ leaf ∈ tree.leafValues, ∃ scalar, 0 < scalar ∧ leaf = targetSigma / sqrt scalar) ∧
      ((∀ x, 0 < x → 0 < sqrt x) → 0 < targetSigma → ∀ leaf ∈ tree.leafValues, 0 < leaf) ∧
      ∀ depth' gram', Visits depth gram depth' gram' → ∃ decomposed, Decomposes (treeDegree depth') gram' decomposed := by
  obtain ⟨gram, made, wide, definite⟩ := trapdoorGram (K := K) relation
  obtain ⟨⟨tree, built, leaves⟩, nodes⟩ := @falconTreeBuilt K _ _ _ _ sqrt targetSigma depth
    (power.trans (treeDegreePower depth).symm) ring.positive gram wide definite
  refine ⟨gram, tree, made, built, ?_, leaves, fun root sigma leaf mem => ?_, nodes⟩
  · simp only [buildSigningTree, made, bind, Except.bind]
    exact built
  · obtain ⟨scalar, positive, rfl⟩ := leaves leaf mem
    exact div_pos sigma (root scalar positive)

end Trapdoors

/- The small trapdoor again, in a ring of degree four: over the reals its tree has a node above two last ones. -/
def fourRing : RingArithmetic where
  degree := 4
  modulus := 5
  positive := Nat.succ_pos 3
  large := smallModulus

theorem fourSound : ∃ tree, buildSigningTree Real.sqrt fourRing smallKey 1 = .ok tree ∧ ∀ leaf ∈ tree.leafValues, 0 < leaf := by
  obtain ⟨_, tree, _, _, built, _, leaves, _⟩ :=
    @signingTreeSound ℝ _ fourRing smallKey _ _ Real.sqrt 1 1 rfl (by decide +kernel)
  exact ⟨tree, built, leaves (fun x positive => Real.sqrt_pos.mpr positive) one_pos⟩

end TradeP2P.Blns7933.RealRingArithmetic
