import TradeP2P.Blind.SigningTree
import Mathlib.Algebra.Order.Round

/-! The sampler on the tree of a trapdoor, in exact real arithmetic: what one run draws, and how long the signature is that
comes of it. The draw of one integer around a real centre is left open here too. -/
namespace TradeP2P.Blns7933.RealRingArithmetic
open Checks
open Coefficients (Negacyclic element elementAdd elementScale elementSub)
open Adjoint (conjugation)

section Definitions
variable {K : Type} [Field K]

def merge (f0 f1 : List K) : Except Error (List K) := do
  throwIf (f0.length ≠ f1.length) (.invalidArgument "merge() requires f0 and f1 of equal size")
  return (List.range (2 * f0.length)).map fun i => if i % 2 = 0 then f0.getD (i / 2) 0 else f1.getD (i / 2) 0

section Sampler
variable {ρ : Type} (sampleDiscreteGaussianCentered : K → K → Sampler ρ Int)

/- A child is a leaf, with its two draws, or a subtree. -/
def sampleLeaf (sigma : K) (degree : Nat) (t0 t1 : List K) : Sampler ρ (List K × List K) := do
  throwIf (degree ≠ 1) (Error.logicError "ffSampling: reached a leaf at degree>1 - tree/degree mismatch, investigate")
  throwIf (t0.length ≠ 1 ∨ t1.length ≠ 1) (Error.logicError "ffSampling: degree=1 target must have exactly one coefficient")
  let z0 ← sampleDiscreteGaussianCentered sigma (t0.getD 0 0)
  let z1 ← sampleDiscreteGaussianCentered sigma (t1.getD 0 0)
  return ([(z0 : K)], [(z1 : K)])

def sampleSubtree (degree : Nat) (sample : List K → List K → Sampler ρ (List K × List K)) (t0 t1 : List K) :
    Sampler ρ (List K × List K) := do
  throwIf (degree = 1) (Error.logicError
    "ffSampling: reached degree=1 but the tree node is not a leaf - tree/degree mismatch, investigate")
  sample t0 t1

-- The right child goes first: what it draws moves the target of the left one.
def sampleNode (ell : List K) (degree : Nat) (sampleRight sampleLeft : List K → List K → Sampler ρ (List K × List K))
    (t0 t1 : List K) : Sampler ρ (List K × List K) := do
  throwIf (degree < 2) (Error.logicError "ff_sampling: degree must be >= 2 at an internal node")
  let (t1Even, t1Odd) ← split t1
  let (inner10, inner11) ← sampleRight t1Even t1Odd
  let z1 ← merge inner10 inner11
  let t0Prime ← add degree t0 (← mul degree (← sub degree t1 z1) ell)
  let (t0Even, t0Odd) ← split t0Prime
  let (inner00, inner01) ← sampleLeft t0Even t0Odd
  let z0 ← merge inner00 inner01
  return (z0, z1)

def ffSampling : FalconTreeNode K → Nat → List K → List K → Sampler ρ (List K × List K)
  | .leaves ell left right, degree => sampleNode ell degree (sampleLeaf sampleDiscreteGaussianCentered right (degree / 2))
      (sampleLeaf sampleDiscreteGaussianCentered left (degree / 2))
  | .node ell left right, degree => sampleNode ell degree (sampleSubtree (degree / 2) (ffSampling right (degree / 2)))
      (sampleSubtree (degree / 2) (ffSampling left (degree / 2)))

end Sampler

section Signing
variable [LinearOrder K] [FloorRing K]

-- Halves go away from zero.
def roundReal (x : K) : Int := if 0 ≤ x then ⌊x + 1 / 2⌋ else ⌈x - 1 / 2⌉

def roundCoefficient (x : K) : Except Error Int := do
  throwIf (|x - roundReal x| > 1 / (10 : Nat) ^ 40) (.logicError
    ("BLNS7933 sign(): (t-z).B did not come out integer within tolerance - " ++
      "this should never happen given the algebraic identity it relies on, investigate"))
  return roundReal x

def roundToPolyq : List K → Except Error PolyQ
  | [] => .ok []
  | x :: rest => do
      let rounded ← roundCoefficient x
      return rounded :: (← roundToPolyq rest)

def pairOf (degree : Nat) (key : TrapdoorKey) (c : PolyQ) (z0 z1 : List K) : Except Error Signature := do
  let z0g ← mul degree z0 (toReal key.g)
  let z1G ← mul degree z1 (toReal key.capG)
  let s0Real ← sub degree (List.replicate degree 0) (← add degree z0g z1G)
  let z0f ← mul degree z0 (toReal key.f)
  let z1F ← mul degree z1 (toReal key.capF)
  let s1Real ← add degree (toReal c) (← add degree z0f z1F)
  let s0 ← roundToPolyq s0Real
  let s1 ← roundToPolyq s1Real
  return ⟨s0, s1⟩

def exceeded : Error := .runtimeError "BLNS7933 sign(): exceeded max_attempts without producing a signature within the norm bound"

variable {ρ : Type} (sampleDiscreteGaussianCentered : K → K → Sampler ρ Int)

def signAttempts (degree : Nat) (key : TrapdoorKey) (tree : FalconTreeNode K) (c : PolyQ) (t0 t1 : List K)
    (normBoundSquared : Int) : Nat → Sampler ρ Signature
  | 0 => throw exceeded
  | attempts + 1 => do
      let (z0, z1) ← ffSampling sampleDiscreteGaussianCentered tree degree t0 t1
      let signature ← pairOf degree key c z0 z1
      if normSquared signature ≤ normBoundSquared then return signature
      else signAttempts degree key tree c t0 t1 normBoundSquared attempts

-- The target in the coordinates of the basis: `t0 = -c * G / q` and `t1 = c * g / q`.
def coordinates (ring : RingArithmetic) (key : TrapdoorKey) (target : PolyQ) : Except Error (List K × List K) := do
  let cG ← mul ring.degree (toReal target) (toReal key.capG)
  let cg ← mul ring.degree (toReal target) (toReal key.g)
  return (cG.map fun x => -x / (ring.modulus : K), cg.map fun x => x / (ring.modulus : K))

def signTarget (ring : RingArithmetic) (key : TrapdoorKey) (tree : FalconTreeNode K) (target : PolyQ) (normBoundSquared : Int)
    (maxAttempts : Nat) : Sampler ρ Signature := do
  let (t0, t1) ← coordinates ring key target
  signAttempts sampleDiscreteGaussianCentered ring.degree key tree target t0 t1 normBoundSquared maxAttempts

end Signing
end Definitions

/-! Over the rationals these are the sampler and the signer that were there before; only the shape of the tree differs. -/
section Rationals

def FalconTreeNode.flat : FalconTreeNode ℚ → FalconTree
  | .leaves ell left right => .node ell (.leaf left) (.leaf right)
  | .node ell left right => .node ell left.flat right.flat

theorem roundSampler (real : List ℚ) : roundToPolyq real = Blns7933.roundToPolyq real := by
  induction real with
  | nil => rfl
  | cons x rest ih =>
    rw [roundToPolyq, Blns7933.roundToPolyq, ih]
    rfl

theorem pairSampler (degree : Nat) (key : TrapdoorKey) (c : PolyQ) (z0 z1 : List ℚ) :
    pairOf degree key c z0 z1 = Blns7933.pairOf degree key c z0 z1 := by
  simp only [pairOf, Blns7933.pairOf, roundSampler]
  rfl

variable {ρ : Type} {sampleDiscreteGaussianCentered : ℚ → ℚ → Sampler ρ Int}

theorem ffSampler (tree : FalconTreeNode ℚ) (degree : Nat) (t0 t1 : List ℚ) :
    sampleSubtree degree (ffSampling sampleDiscreteGaussianCentered tree degree) t0 t1 =
      sampleChild sampleDiscreteGaussianCentered tree.flat degree t0 t1 := by
  induction tree generalizing degree t0 t1 with
  | leaves ell left right => rfl
  | node ell left right ihLeft ihRight =>
    simp only [FalconTreeNode.flat, sampleChild, sampleSubtree, ffSampling, sampleNode, ← ihLeft, ← ihRight]
    rfl

def FalconTreeNode.signing : FalconTreeNode ℚ → SigningTree
  | .leaves ell left right => ⟨ell, .leaf left, .leaf right⟩
  | .node ell left right => ⟨ell, left.flat, right.flat⟩

theorem samplesAlike (tree : FalconTreeNode ℚ) (degree : Nat) (t0 t1 : List ℚ) :
    ffSampling sampleDiscreteGaussianCentered tree degree t0 t1 = Blns7933.ffSampling sampleDiscreteGaussianCentered t0 t1
      tree.signing.value tree.signing.left tree.signing.right degree := by
  have flat : FalconTree.node tree.signing.value tree.signing.left tree.signing.right = tree.flat := by cases tree <;> rfl
  rw [Blns7933.ffSampling, flat, ← ffSampler]
  by_cases small : degree < 2
  · cases tree <;> simp only [ffSampling, sampleNode, throwIf_bad small] <;> rfl
  · have apart : degree ≠ 1 := by omega
    rw [sampleSubtree, throwIf_not small, throwIf_not apart]
    rfl

theorem signSampler (ring : RingArithmetic) (key : TrapdoorKey) (tree : FalconTreeNode ℚ) (target : PolyQ) (normBoundSquared : Int)
    (maxAttempts : Nat) : signTarget sampleDiscreteGaussianCentered ring key tree target normBoundSquared maxAttempts =
      Blns7933.signTarget sampleDiscreteGaussianCentered ring key tree.signing target normBoundSquared maxAttempts := by
  have attempts (t0 t1 : List ℚ) : signAttempts sampleDiscreteGaussianCentered ring.degree key tree target t0 t1 normBoundSquared maxAttempts =
      Blns7933.signAttempts sampleDiscreteGaussianCentered ring.degree key tree.signing target t0 t1 normBoundSquared maxAttempts := by
    induction maxAttempts with
    | zero => rfl
    | succ attempts ih => simp only [signAttempts, Blns7933.signAttempts, samplesAlike, pairSampler, ih]
  simp only [signTarget, Blns7933.signTarget, coordinates, attempts, liftM_bind, bind_assoc, liftM_pure, pure_bind, mulSampler]
  rfl

end Rationals

/-! A run of the sampler with what it drew. -/
section Logging
variable {K : Type} {ρ : Type}

structure Draw (K : Type) where
  sigma : K
  mu : K
  drawn : Int

def logged (sampleDiscreteGaussianCentered : K → K → Sampler ρ Int) (sigma mu : K) : Sampler (ρ × List (Draw K)) Int := fun state => do
  let (z, rng) ← sampleDiscreteGaussianCentered sigma mu state.1
  return (z, (rng, state.2 ++ [⟨sigma, mu, z⟩]))

/- The same run, but for the record of it. -/
def Erases {α : Type} (recording : Sampler (ρ × List (Draw K)) α) (plain : Sampler ρ α) : Prop :=
  ∀ rng log, (recording (rng, log)).map (fun ran => (ran.1, ran.2.1)) = plain rng

variable {α β : Type}

theorem Erases.lift (x : Except Error α) : Erases (liftM x : Sampler (ρ × List (Draw K)) α) (liftM x : Sampler ρ α) := by
  intro rng log
  cases x <;> rfl

theorem Erases.pure (a : α) : Erases (Pure.pure a : Sampler (ρ × List (Draw K)) α) (Pure.pure a : Sampler ρ α) := fun _ _ => rfl

theorem Erases.bind {x : Sampler (ρ × List (Draw K)) α} {y : Sampler ρ α} {f : α → Sampler (ρ × List (Draw K)) β}
    {g : α → Sampler ρ β} (first : Erases x y) (next : ∀ a, Erases (f a) (g a)) : Erases (x >>= f) (y >>= g) := by
  intro rng log
  show (x (rng, log) >>= fun ran => f ran.1 ran.2).map _ = (y rng >>= fun ran => g ran.1 ran.2)
  rw [← first rng log]
  cases x (rng, log) with
  | error e => rfl
  | ok ran => exact next ran.1 ran.2.1 ran.2.2

theorem Erases.logged (draw : K → K → Sampler ρ Int) (sigma mu : K) : Erases (logged draw sigma mu) (draw sigma mu) := by
  intro rng log
  rw [RealRingArithmetic.logged]
  cases draw sigma mu rng with
  | error e => rfl
  | ok ran => rfl

variable [Field K] {draw : K → K → Sampler ρ Int}

theorem leafErases (sigma : K) (degree : Nat) (t0 t1 : List K) :
    Erases (sampleLeaf (logged draw) sigma degree t0 t1) (sampleLeaf draw sigma degree t0 t1) :=
  (Erases.lift _).bind fun _ => (Erases.lift _).bind fun _ => (Erases.logged draw sigma _).bind fun _ =>
    (Erases.logged draw sigma _).bind fun _ => Erases.pure _

theorem nodeErases (ell : List K) (degree : Nat) {right left : List K → List K → Sampler (ρ × List (Draw K)) (List K × List K)}
    {right' left' : List K → List K → Sampler ρ (List K × List K)} (rights : ∀ t0 t1, Erases (right t0 t1) (right' t0 t1))
    (lefts : ∀ t0 t1, Erases (left t0 t1) (left' t0 t1)) (t0 t1 : List K) :
    Erases (sampleNode ell degree right left t0 t1) (sampleNode ell degree right' left' t0 t1) :=
  (Erases.lift _).bind fun _ => (Erases.lift _).bind fun _ => (rights _ _).bind fun _ => (Erases.lift _).bind fun _ =>
    (Erases.lift _).bind fun _ => (Erases.lift _).bind fun _ => (Erases.lift _).bind fun _ => (Erases.lift _).bind fun _ =>
      (lefts _ _).bind fun _ => (Erases.lift _).bind fun _ => Erases.pure _

theorem ffErases (tree : FalconTreeNode K) (degree : Nat) (t0 t1 : List K) :
    Erases (ffSampling (logged draw) tree degree t0 t1) (ffSampling draw tree degree t0 t1) := by
  induction tree generalizing degree t0 t1 with
  | leaves ell left right => exact nodeErases ell degree (leafErases right _) (leafErases left _) t0 t1
  | node ell left right ihLeft ihRight =>
    exact nodeErases ell degree (fun _ _ => (Erases.lift _).bind fun _ => ihRight _ _ _)
      (fun _ _ => (Erases.lift _).bind fun _ => ihLeft _ _ _) t0 t1

end Logging

/-! One node of a run. Its form is the sum of the forms of its two children. -/
section Nodes
variable {K : Type} [Field K] {degree half : Nat} {ρ : Type}

def Whole (degree : Nat) (z : List K) : Prop := ∃ integers : List Int, integers.length = degree ∧ z = toReal integers

theorem Whole.width {z : List K} (whole : Whole degree z) : z.length = degree := by
  obtain ⟨integers, width, rfl⟩ := whole
  simpa [toReal] using width

theorem mergeMeaning {f0 f1 z : List K} (width0 : f0.length = half) (width1 : f1.length = half) (ok : merge f0 f1 = .ok z) :
    element (2 * half) z = Halving.spread half (element half f0) + AdjoinRoot.root _ * Halving.spread half (element half f1) := by
  simp only [merge, check_ok, pure_ok] at ok
  obtain ⟨_, rfl⟩ := ok
  rw [width0]
  exact Adjoint.elementOfMerged width0 width1

theorem mergeWhole {f0 f1 z : List K} (whole0 : Whole half f0) (whole1 : Whole half f1) (ok : merge f0 f1 = .ok z) :
    Whole (2 * half) z := by
  obtain ⟨l0, width0, rfl⟩ := whole0
  obtain ⟨l1, width1, rfl⟩ := whole1
  simp only [merge, check_ok, pure_ok] at ok
  obtain ⟨_, rfl⟩ := ok
  refine ⟨(List.range (2 * half)).map fun i => if i % 2 = 0 then l0.getD (i / 2) 0 else l1.getD (i / 2) 0, by simp, ?_⟩
  have entry (l : List Int) (i : Nat) : ((toReal l).getD i 0 : K) = ((l.getD i 0 : Int) : K) := by
    rw [toReal, ← Int.cast_zero, List.getD_map]
  have long : (toReal l0 : List K).length = half := by simpa [toReal] using width0
  rw [long]
  refine (List.map_congr_left fun i _ => ?_).trans List.map_map.symm
  rw [entry, entry, Function.comp_apply]
  split <;> rfl

/- The squared length of what is left of a target, in a form. -/
noncomputable def distance (positive : 0 < degree) (g : Forms.Gram (Negacyclic K degree)) (t0 t1 z0 z1 : List K) : K :=
  (conjugation K positive).trace (g.form (conjugation K positive) (element degree t0 - element degree z0)
    (element degree t1 - element degree z1))

noncomputable def halfGram (positive : 0 < half) (even odd : List K) : Forms.Gram (Negacyclic K half) where
  g00 := element half even
  g01 := element half odd
  g10 := (conjugation K positive).adjoint (element half odd)
  g11 := element half even

theorem halfDistance (positive : 0 < half) (twice : 0 < 2 * half) {t e o z a b d even odd : List K}
    (partsT : element (2 * half) t = Halving.spread half (element half e) + AdjoinRoot.root _ * Halving.spread half (element half o))
    (partsZ : element (2 * half) z = Halving.spread half (element half a) + AdjoinRoot.root _ * Halving.spread half (element half b))
    (partsD : element (2 * half) d = Halving.spread half (element half even) + AdjoinRoot.root _ * Halving.spread half (element half odd))
    (self : (conjugation K twice).adjoint (element (2 * half) d) = element (2 * half) d) :
    (conjugation K twice).trace ((element (2 * half) t - element (2 * half) z) *
      (conjugation K twice).adjoint (element (2 * half) t - element (2 * half) z) * element (2 * half) d) =
        distance positive (halfGram positive even odd) e o a b := by
  have difference : element (2 * half) t - element (2 * half) z = Halving.spread half (element half e - element half a) +
      AdjoinRoot.root _ * Halving.spread half (element half o - element half b) := by
    rw [partsT, partsZ, map_sub, map_sub]
    ring
  rw [partsD] at self
  rw [difference, partsD]
  exact (Adjoint.doubled positive twice).traced self _ _

def Draw.cost (targetSigma : K) (draw : Draw K) : K := (targetSigma * ((draw.drawn : K) - draw.mu) / draw.sigma) ^ 2

def cost (targetSigma : K) (draws : List (Draw K)) : K := (draws.map (Draw.cost targetSigma)).sum

/- What a child is good for: it draws twice for every leaf, whole numbers come back, and what is left of the target is as long
as the draws are off their centres. -/
def Measures (targetSigma : K) (positive : 0 < degree) (g : Forms.Gram (Negacyclic K degree)) (leaves : List K)
    (sample : List K → List K → Sampler (ρ × List (Draw K)) (List K × List K)) : Prop :=
  ∀ t0 t1, t0.length = degree → t1.length = degree → ∀ z0 z1 start finish, sample t0 t1 start = .ok ((z0, z1), finish) →
    Whole degree z0 ∧ Whole degree z1 ∧ ∃ draws, finish.2 = start.2 ++ draws ∧
      draws.map Draw.sigma = leaves.flatMap (fun sigma => [sigma, sigma]) ∧ distance positive g t0 t1 z0 z1 = cost targetSigma draws

variable {targetSigma : K} {draw : K → K → Sampler ρ Int}

omit [Field K] in
theorem loggedDraw {sigma mu : K} {z : Int} {start finish : ρ × List (Draw K)} (ok : logged draw sigma mu start = .ok (z, finish)) :
    finish.2 = start.2 ++ [⟨sigma, mu, z⟩] := by
  simp only [logged, bind_ok, pure_ok, Prod.exists, Prod.mk.injEq] at ok
  obtain ⟨_, _, _, rfl, rfl⟩ := ok
  rfl

theorem constantOf (positive : 0 < degree) (a : K) : (conjugation K positive).trace (AdjoinRoot.of _ a) = a := by
  have scaled := Adjoint.constantScaled positive a 1
  have one := Adjoint.constantPow (K := K) positive positive
  rw [pow_zero, if_pos rfl] at one
  rw [mul_one, one, mul_one] at scaled
  exact scaled

/- A leaf: two coordinates, each with its own scalar. -/
theorem leafDistance (s a b x y : K) : distance Nat.one_pos (halfGram Nat.one_pos [s] [0]) [a] [b] [x] [y] =
    s * (x - a) ^ 2 + s * (y - b) ^ 2 := by
  have single (v : K) : element 1 [v] = AdjoinRoot.of (Polynomial.X ^ 1 + 1) v := by simp [element, Coefficients.value]
  have kept (v : K) : (conjugation K Nat.one_pos).adjoint (AdjoinRoot.of _ v) = AdjoinRoot.of _ v := Adjoint.invertedConstant Nat.one_pos v
  have form : (halfGram Nat.one_pos [s] [0]).form (conjugation K Nat.one_pos) (element 1 [a] - element 1 [x]) (element 1 [b] - element 1 [y]) =
      AdjoinRoot.of _ (s * (x - a) ^ 2 + s * (y - b) ^ 2) := by
    simp only [halfGram, Forms.Gram.form, single, ← map_sub, kept, ← map_mul, ← map_add]
    congr 1
    ring
  rw [distance, form, constantOf]

theorem leafMeasures {sqrt : K → K} {s : K} (root : sqrt s * sqrt s = s) (some_ : s ≠ 0) (sigma : targetSigma ≠ 0) :
    Measures targetSigma Nat.one_pos (halfGram Nat.one_pos [s] [0]) [targetSigma / sqrt s]
      (sampleLeaf (logged draw) (targetSigma / sqrt s) 1) := by
  intro t0 t1 width0 width1 z0 z1 start finish ran
  obtain ⟨a, rfl⟩ := List.length_eq_one_iff.mp width0
  obtain ⟨b, rfl⟩ := List.length_eq_one_iff.mp width1
  simp only [sampleLeaf, stateBind_ok, statePure_ok, stateLift_ok] at ran
  obtain ⟨_, _, ⟨_, rfl⟩, _, _, ⟨_, rfl⟩, x, middle, first, y, last, second, same, rfl⟩ := ran
  obtain ⟨rfl, rfl⟩ := Prod.mk.inj same
  have pivot : sqrt s ≠ 0 := fun zero => some_ (by rw [← root, zero, zero_mul])
  have square (d m : K) : (targetSigma * (d - m) / (targetSigma / sqrt s)) ^ 2 = s * (d - m) ^ 2 := by
    have same : targetSigma * (d - m) / (targetSigma / sqrt s) = sqrt s * (d - m) := by field_simp
    rw [same, mul_pow, sq (sqrt s), root]
  refine ⟨⟨[x], rfl, rfl⟩, ⟨[y], rfl, rfl⟩, [⟨targetSigma / sqrt s, a, x⟩, ⟨targetSigma / sqrt s, b, y⟩], ?_, rfl, ?_⟩
  · rw [loggedDraw second, loggedDraw first, List.append_assoc]
    rfl
  · rw [leafDistance]
    simp [cost, Draw.cost, square]

variable {g : Forms.Gram (Negacyclic K degree)} {decomposed : LdlResult K} {even0 odd0 even1 odd1 leavesL leavesR : List K}

/- What a decomposition says of its entries. -/
structure Factors (positive : 0 < degree) (g : Forms.Gram (Negacyclic K degree)) (decomposed : LdlResult K) : Prop where
  short : decomposed.l10.length ≤ degree
  self00 : (conjugation K positive).adjoint (element degree decomposed.d00) = element degree decomposed.d00
  self11 : (conjugation K positive).adjoint (element degree decomposed.d11) = element degree decomposed.d11
  form : ∀ u v, g.form (conjugation K positive) u v =
    (u + v * element degree decomposed.l10) * (conjugation K positive).adjoint (u + v * element degree decomposed.l10) *
      element degree decomposed.d00 + v * (conjugation K positive).adjoint v * element degree decomposed.d11

/- The right child is given the second coordinate, the left one the first, moved. -/
theorem nodeMeasures {g : Forms.Gram (Negacyclic K (2 * half))} (positive : 0 < half) (twice : 0 < 2 * half)
    {left right : List K → List K → Sampler (ρ × List (Draw K)) (List K × List K)} (factors : Factors twice g decomposed)
    (parts0 : element (2 * half) decomposed.d00 =
      Halving.spread half (element half even0) + AdjoinRoot.root _ * Halving.spread half (element half odd0))
    (parts1 : element (2 * half) decomposed.d11 =
      Halving.spread half (element half even1) + AdjoinRoot.root _ * Halving.spread half (element half odd1))
    (rights : Measures targetSigma positive (halfGram positive even1 odd1) leavesR right)
    (lefts : Measures targetSigma positive (halfGram positive even0 odd0) leavesL left) :
    Measures targetSigma twice g (leavesR ++ leavesL) (sampleNode decomposed.l10 (2 * half) right left) := by
  intro t0 t1 width0 width1 z0 z1 start finish ran
  obtain ⟨e1, o1, split1, widthE1, widthO1, partsT1⟩ := splitMeaning positive width1
  simp only [sampleNode, stateBind_ok, statePure_ok, stateLift_ok, split1, Except.ok.injEq] at ran
  obtain ⟨_, _, ⟨_, rfl⟩, _, _, ⟨rfl, rfl⟩, ⟨a1, b1⟩, middle, ranRight, z1', _, ⟨merged1, rfl⟩, difference, _, ⟨differs, rfl⟩,
    product, _, ⟨multiplied, rfl⟩, t0', _, ⟨added, rfl⟩, ⟨e0, o0⟩, _, ⟨split0, rfl⟩, ⟨a0, b0⟩, last, ranLeft, z0', _,
    ⟨merged0, rfl⟩, same, rfl⟩ := ran
  obtain ⟨rfl, rfl⟩ := Prod.mk.inj same
  obtain ⟨wholeA1, wholeB1, draws1, log1, sigmas1, far1⟩ := rights _ _ widthE1 widthO1 _ _ _ _ ranRight
  have partsZ1 := mergeMeaning wholeA1.width wholeB1.width merged1
  obtain ⟨_, differenceIs⟩ := exactSubMeaning differs
  obtain ⟨_, productIs⟩ := exactMulMeaning multiplied
  obtain ⟨width0', t0Is⟩ := exactAddMeaning added
  obtain ⟨e0', o0', split0', widthE0, widthO0, partsT0⟩ := splitMeaning positive width0'
  obtain ⟨rfl, rfl⟩ := Prod.mk.inj (Except.ok.inj (split0'.symm.trans split0))
  obtain ⟨wholeA0, wholeB0, draws0, log0, sigmas0, far0⟩ := lefts _ _ widthE0 widthO0 _ _ _ _ ranLeft
  have partsZ0 := mergeMeaning wholeA0.width wholeB0.width merged0
  refine ⟨mergeWhole wholeA0 wholeB0 merged0, mergeWhole wholeA1 wholeB1 merged1, draws1 ++ draws0, ?_, ?_, ?_⟩
  · rw [log0, log1, List.append_assoc]
  · rw [List.map_append, sigmas1, sigmas0, List.flatMap_append]
  · have moved : element (2 * half) t0 - element (2 * half) z0' +
        (element (2 * half) t1 - element (2 * half) z1') * element (2 * half) decomposed.l10 =
          element (2 * half) t0' - element (2 * half) z0' := by
      rw [t0Is, productIs, differenceIs]
      ring
    rw [distance, factors.form, moved, map_add, halfDistance positive twice partsT0 partsZ0 parts0 factors.self00,
      halfDistance positive twice partsT1 partsZ1 parts1 factors.self11, far0, far1, add_comm]
    simp [cost]

theorem subtreeMeasures (positive : 0 < half) {g : Forms.Gram (Negacyclic K half)} {leaves : List K}
    {below : List K → List K → Sampler (ρ × List (Draw K)) (List K × List K)} (measures : Measures targetSigma positive g leaves below) :
    Measures targetSigma positive g leaves (sampleSubtree half below) := by
  intro t0 t1 width0 width1 z0 z1 start finish ran
  simp only [sampleSubtree, stateBind_ok, stateLift_ok] at ran
  obtain ⟨_, _, ⟨_, rfl⟩, within⟩ := ran
  exact measures t0 t1 width0 width1 z0 z1 _ finish within

/-! No check of a run fails, as long as the draws do not. -/

def Samples (degree : Nat) (sample : List K → List K → Sampler ρ (List K × List K)) : Prop :=
  ∀ t0 t1, t0.length = degree → t1.length = degree → ∀ start, ∃ z0 z1 finish, sample t0 t1 start = .ok ((z0, z1), finish) ∧
    z0.length = degree ∧ z1.length = degree

theorem leafSamples {sigma : K} (serves : ∀ mu start, ∃ z finish, draw sigma mu start = .ok (z, finish)) :
    Samples 1 (sampleLeaf draw sigma 1) := by
  intro t0 t1 width0 width1 start
  obtain ⟨x, middle, first⟩ := serves (t0.getD 0 0) start
  obtain ⟨y, finish, second⟩ := serves (t1.getD 0 0) middle
  refine ⟨[(x : K)], [(y : K)], finish, ?_, rfl, rfl⟩
  simp only [sampleLeaf, stateBind_ok, statePure_ok, stateLift_ok, throwIf_ok]
  exact ⟨(), start, ⟨not_not.mpr rfl, rfl⟩, (), start, ⟨by simp [width0, width1], rfl⟩, x, middle, first, y, finish, second, rfl, rfl⟩

theorem mergeTotal {f0 f1 : List K} (width0 : f0.length = half) (width1 : f1.length = half) :
    ∃ z, merge f0 f1 = .ok z ∧ z.length = 2 * half := by
  refine ⟨Adjoint.merged half f0 f1, ?_, by simp [Adjoint.merged]⟩
  rw [merge, throwIf_not (not_not.mpr (width0.trans width1.symm)), width0]
  rfl

theorem nodeSamples (positive : 0 < half) {ell : List K} (short : ell.length ≤ 2 * half)
    {left right : List K → List K → Sampler ρ (List K × List K)} (rights : Samples half right) (lefts : Samples half left) :
    Samples (2 * half) (sampleNode ell (2 * half) right left) := by
  intro t0 t1 width0 width1 start
  obtain ⟨e1, o1, split1, widthE1, widthO1, _⟩ := splitMeaning positive width1
  obtain ⟨a1, b1, middle, ranRight, widthA1, widthB1⟩ := rights e1 o1 widthE1 widthO1 start
  obtain ⟨z1, merged1, widthZ1⟩ := mergeTotal widthA1 widthB1
  obtain ⟨difference, differs⟩ := exactSubTotal realTooLong width1.le widthZ1.le
  obtain ⟨product, multiplied⟩ := exactMulTotal realTooLong (exactSubMeaning differs).1.le short
  obtain ⟨t0', added⟩ := exactAddTotal realTooLong width0.le (exactMulMeaning multiplied).1.le
  obtain ⟨e0, o0, split0, widthE0, widthO0, _⟩ := splitMeaning positive (exactAddMeaning added).1
  obtain ⟨a0, b0, finish, ranLeft, widthA0, widthB0⟩ := lefts e0 o0 widthE0 widthO0 middle
  obtain ⟨z0, merged0, widthZ0⟩ := mergeTotal widthA0 widthB0
  refine ⟨z0, z1, finish, ?_, widthZ0, widthZ1⟩
  simp only [sampleNode, stateBind_ok, statePure_ok, stateLift_ok, throwIf_ok]
  exact ⟨(), start, ⟨by omega, rfl⟩, (e1, o1), start, ⟨split1, rfl⟩, (a1, b1), middle, ranRight, z1, middle, ⟨merged1, rfl⟩, difference,
    middle, ⟨differs, rfl⟩, product, middle, ⟨multiplied, rfl⟩, t0', middle, ⟨added, rfl⟩, (e0, o0), middle, ⟨split0, rfl⟩, (a0, b0),
    finish, ranLeft, z0, finish, ⟨merged0, rfl⟩, rfl, rfl⟩

omit [Field K] in
theorem subtreeSamples (apart : half ≠ 1) {below : List K → List K → Sampler ρ (List K × List K)} (samples : Samples half below) :
    Samples half (sampleSubtree half below) := by
  intro t0 t1 width0 width1 start
  obtain ⟨z0, z1, finish, ran, widths⟩ := samples t0 t1 width0 width1 start
  refine ⟨z0, z1, finish, ?_, widths⟩
  simp only [sampleSubtree, stateBind_ok, stateLift_ok, throwIf_ok]
  exact ⟨(), start, ⟨apart, rfl⟩, ran⟩

end Nodes

/-! The whole tree. -/
section Trees
variable {K : Type} [Field K] [LinearOrder K] {degree half : Nat} {gram : GramMatrix K} {ρ : Type}

/- A tree that belongs to a form: at each node the form is decomposed, and the children belong to the parts of the diagonal. -/
inductive Stands (sqrt : K → K) (targetSigma : K) : (depth : Nat) → Forms.Gram (Negacyclic K (treeDegree depth)) → FalconTreeNode K → Prop
  | leaves {g : Forms.Gram (Negacyclic K 2)} {decomposed : LdlResult K} {s0 s1 : K} (factors : Factors Nat.two_pos g decomposed)
      (parts0 : element (2 * 1) decomposed.d00 = Halving.spread 1 (element 1 [s0]) + AdjoinRoot.root _ * Halving.spread 1 (element 1 [0]))
      (parts1 : element (2 * 1) decomposed.d11 = Halving.spread 1 (element 1 [s1]) + AdjoinRoot.root _ * Halving.spread 1 (element 1 [0]))
      (positive0 : 0 < s0) (positive1 : 0 < s1) :
      Stands sqrt targetSigma 0 g (.leaves decomposed.l10 (targetSigma / sqrt s0) (targetSigma / sqrt s1))
  | node {depth : Nat} {g : Forms.Gram (Negacyclic K (2 * treeDegree depth))} {decomposed : LdlResult K} {left right : FalconTreeNode K}
      {even0 odd0 even1 odd1 : List K} (factors : Factors (treeDegreePositive (depth + 1)) g decomposed)
      (parts0 : element (2 * treeDegree depth) decomposed.d00 = Halving.spread _ (element _ even0) +
        AdjoinRoot.root _ * Halving.spread _ (element _ odd0))
      (parts1 : element (2 * treeDegree depth) decomposed.d11 = Halving.spread _ (element _ even1) +
        AdjoinRoot.root _ * Halving.spread _ (element _ odd1))
      (lefts : Stands sqrt targetSigma depth (halfGram (treeDegreePositive depth) even0 odd0) left)
      (rights : Stands sqrt targetSigma depth (halfGram (treeDegreePositive depth) even1 odd1) right) :
      Stands sqrt targetSigma (depth + 1) g (.node decomposed.l10 left right)

omit [LinearOrder K] in
theorem halfParts (positive : 0 < half) {d : List K} (width : d.length = 2 * half) (ok : halfMatrix half d = .ok gram) :
    ∃ even odd, gram.elements half = halfGram positive even odd ∧ element (2 * half) d =
      Halving.spread half (element half even) + AdjoinRoot.root _ * Halving.spread half (element half odd) := by
  obtain ⟨even, odd, parted, _, _, parts⟩ := splitMeaning positive width
  simp only [halfMatrix, parted, bind_ok, pure_ok, Except.ok.injEq] at ok
  obtain ⟨_, rfl, adjoint, adjoined, rfl⟩ := ok
  refine ⟨even, odd, ?_, parts⟩
  rw [GramMatrix.elements, (adjointMeaning positive adjoined).2]
  rfl

theorem decomposedFactors (positive : 0 < degree) {decomposed : LdlResult K}
    (definite : (gram.elements degree).Positive (conjugation K positive)) (decomposes : Decomposes degree gram decomposed)
    (definite00 : Forms.Positive (conjugation K positive) (element degree decomposed.d00))
    (definite11 : Forms.Positive (conjugation K positive) (element degree decomposed.d11)) :
    Factors positive (gram.elements degree) decomposed := by
  obtain ⟨adjoint, adjoined, product⟩ := decomposes.product
  obtain ⟨_, adjointIs⟩ := adjointMeaning positive adjoined
  rw [adjointIs] at product
  have first := congrFun (congrFun product 0) 0
  have cross := congrFun (congrFun product 1) 0
  have last := congrFun (congrFun product 1) 1
  simp [Forms.Gram.matrix] at first cross last
  refine ⟨?_, definite00.self, definite11.self, fun u v => ?_⟩
  · simp only [hermitianAdjoint, bind_ok] at adjoined
    obtain ⟨_, sized, _⟩ := adjoined
    exact (canonicalSizeOk.mp sized).1
  · rw [first] at cross last ⊢
    have turned : (conjugation K positive).adjoint (element degree decomposed.l10) =
        Adjoint.inverted positive (element degree decomposed.l10) := rfl
    rw [definite.completed cross, ← last, turned]
    ring

/- Of degree two, a self-adjoint element is its constant. -/
theorem constantParts [IsStrictOrderedRing K] {d : List K} (width : d.length = 2) (self : hermitianAdjoint 2 d = .ok d) :
    element (2 * 1) d = Halving.spread 1 (element 1 [d.getD 0 0]) + AdjoinRoot.root _ * Halving.spread 1 (element 1 [0]) := by
  refine Adjoint.elementMerged width rfl rfl (fun i inside => ?_) fun i inside => ?_
  · obtain rfl : i = 0 := by omega
    rfl
  · obtain rfl : i = 0 := by omega
    exact linearVanishes width self

variable [IsStrictOrderedRing K] {sqrt : K → K} {targetSigma : K}

theorem treeStands (depth : Nat) {tree : FalconTreeNode K} (wide : gram.Wide (treeDegree depth))
    (definite : (gram.elements (treeDegree depth)).Positive (conjugation K (treeDegreePositive depth)))
    (built : buildFalconTreeRecursive sqrt targetSigma depth gram = .ok tree) :
    Stands sqrt targetSigma depth (gram.elements (treeDegree depth)) tree := by
  induction depth generalizing gram tree with
  | zero =>
    simp only [buildFalconTreeRecursive, bind_ok, pure_ok] at built
    obtain ⟨decomposed, ran, _, _, _, _, rfl⟩ := built
    obtain ⟨own, decomposes, width00, width11, definite00, definite11⟩ := ldlMeaning Nat.two_pos wide definite
    obtain rfl := Except.ok.inj (decomposes.ran.symm.trans ran)
    exact .leaves (decomposedFactors Nat.two_pos definite decomposes definite00 definite11) (constantParts width00 decomposes.d00)
      (constantParts width11 decomposes.d11) (constantPositive Nat.two_pos width00 definite00)
      (constantPositive Nat.two_pos width11 definite11)
  | succ depth ih =>
    simp only [buildFalconTreeRecursive, bind_ok, pure_ok] at built
    obtain ⟨decomposed, ran, g0, half0, g1, half1, left, builtLeft, right, builtRight, rfl⟩ := built
    have positive := treeDegreePositive depth
    have twice : 0 < 2 * treeDegree depth := treeDegreePositive (depth + 1)
    obtain ⟨own, decomposes, width00, width11, definite00, definite11⟩ := ldlMeaning twice wide definite
    obtain rfl := Except.ok.inj (decomposes.ran.symm.trans ran)
    obtain ⟨own0, made0, wide0, positive0⟩ := halfMeaning positive twice width00 definite00
    obtain rfl := Except.ok.inj (made0.symm.trans half0)
    obtain ⟨own1, made1, wide1, positive1⟩ := halfMeaning positive twice width11 definite11
    obtain rfl := Except.ok.inj (made1.symm.trans half1)
    obtain ⟨even0, odd0, is0, parts0⟩ := halfParts positive width00 half0
    obtain ⟨even1, odd1, is1, parts1⟩ := halfParts positive width11 half1
    have lefts := ih wide0 positive0 builtLeft
    have rights := ih wide1 positive1 builtRight
    rw [is0] at lefts
    rw [is1] at rights
    exact .node (decomposedFactors twice definite decomposes definite00 definite11) parts0 parts1 lefts rights

theorem halvedDegree (depth : Nat) : treeDegree (depth + 1) / 2 = treeDegree depth := Nat.mul_div_cancel_left _ Nat.two_pos

variable {draw : K → K → Sampler ρ Int} {depth : Nat} {g : Forms.Gram (Negacyclic K (treeDegree depth))} {tree : FalconTreeNode K}

omit [IsStrictOrderedRing K] in
theorem treeMeasures (root : ∀ x, 0 < x → sqrt x * sqrt x = x) (sigma : targetSigma ≠ 0) (stands : Stands sqrt targetSigma depth g tree) :
    Measures targetSigma (treeDegreePositive depth) g tree.leafValues.reverse (ffSampling (logged draw) tree (treeDegree depth)) := by
  induction stands with
  | leaves factors parts0 parts1 positive0 positive1 =>
    exact nodeMeasures Nat.one_pos Nat.two_pos factors parts0 parts1 (leafMeasures (root _ positive1) positive1.ne' sigma)
      (leafMeasures (root _ positive0) positive0.ne' sigma)
  | @node depth g decomposed left right even0 odd0 even1 odd1 factors parts0 parts1 lefts rights ihLeft ihRight =>
    have positive := treeDegreePositive depth
    have node := nodeMeasures positive (treeDegreePositive (depth + 1)) factors parts0 parts1 (subtreeMeasures positive ihRight)
      (subtreeMeasures positive ihLeft)
    rw [FalconTreeNode.leafValues, List.reverse_append, ffSampling, halvedDegree]
    exact node

theorem treeSamples (root : ∀ x, 0 < x → 0 < sqrt x) (sigma : 0 < targetSigma) (stands : Stands sqrt targetSigma depth g tree)
    (serves : ∀ sigma mu start, 0 < sigma → ∃ z finish, draw sigma mu start = .ok (z, finish)) :
    Samples (treeDegree depth) (ffSampling draw tree (treeDegree depth)) := by
  induction stands with
  | leaves factors parts0 parts1 positive0 positive1 =>
    exact nodeSamples Nat.one_pos factors.short (leafSamples fun mu start => serves _ mu start (div_pos sigma (root _ positive1)))
      (leafSamples fun mu start => serves _ mu start (div_pos sigma (root _ positive0)))
  | @node depth g decomposed left right even0 odd0 even1 odd1 factors parts0 parts1 lefts rights ihLeft ihRight =>
    have apart : treeDegree depth ≠ 1 := by
      have := treeDegreePower depth
      have := Nat.one_lt_two_pow (Nat.succ_ne_zero depth)
      omega
    have node := nodeSamples (treeDegreePositive depth) factors.short (subtreeSamples apart ihRight) (subtreeSamples apart ihLeft)
    rw [ffSampling, halvedDegree]
    exact node

end Trees

/-! The pair that is made of what was drawn. -/
section Pairs
variable {K : Type} [Field K] [LinearOrder K] [IsStrictOrderedRing K] [FloorRing K] {ring : RingArithmetic} {key : TrapdoorKey}

theorem roundInteger (n : Int) : roundCoefficient (n : K) = .ok n := by
  have rounded : roundReal (n : K) = n := by
    unfold roundReal
    split
    · rw [Int.floor_eq_iff]
      constructor <;> linarith
    · rw [Int.ceil_eq_iff]
      constructor <;> linarith
  have close : ¬|(n : K) - n| > 1 / (10 : Nat) ^ 40 := by
    rw [sub_self, abs_zero, not_lt]
    positivity
  rw [roundCoefficient, rounded, throwIf_not close]
  rfl

theorem roundIntegers (integers : List Int) : roundToPolyq (toReal integers : List K) = .ok integers := by
  induction integers with
  | nil => rfl
  | cons n rest ih =>
    rw [toReal] at ih
    rw [toReal, List.map_cons, roundToPolyq, roundInteger, ih]
    rfl

/- The pair comes out in whole numbers, and in the ring it is what the comment above it says. -/
theorem pairMeaning {z0 z1 c : List Int} (fits : Fits ring key) (short0 : z0.length ≤ ring.degree) (short1 : z1.length ≤ ring.degree)
    (shortC : c.length ≤ ring.degree) : ∃ pair, pairOf ring.degree key c (toReal z0 : List K) (toReal z1) = .ok pair ∧
      pair.s0.length = ring.degree ∧ pair.s1.length = ring.degree ∧
      element ring.degree (toReal pair.s0 : List K) = -(element ring.degree (toReal z0) * element ring.degree (toReal key.g) +
        element ring.degree (toReal z1) * element ring.degree (toReal key.capG)) ∧
      element ring.degree (toReal pair.s1 : List K) = element ring.degree (toReal c) +
        (element ring.degree (toReal z0) * element ring.degree (toReal key.f) +
          element ring.degree (toReal z1) * element ring.degree (toReal key.capF)) := by
  obtain ⟨z0g, first⟩ := exactMulTotal realTooLong short0 fits.g
  obtain ⟨z1G, second⟩ := exactMulTotal realTooLong short1 fits.capG
  obtain ⟨basis0, sum0⟩ := exactAddTotal realTooLong (exactMulMeaning first).1.le (exactMulMeaning second).1.le
  obtain ⟨s0, made0⟩ := exactSubTotal realTooLong (a := List.replicate ring.degree (0 : Int)) (by simp)
    (exactAddMeaning sum0).1.le
  obtain ⟨z0f, third⟩ := exactMulTotal realTooLong short0 fits.f
  obtain ⟨z1F, fourth⟩ := exactMulTotal realTooLong short1 fits.capF
  obtain ⟨basis1, sum1⟩ := exactAddTotal realTooLong (exactMulMeaning third).1.le (exactMulMeaning fourth).1.le
  obtain ⟨s1, made1⟩ := exactAddTotal realTooLong shortC (exactAddMeaning sum1).1.le
  have zeros : (List.replicate ring.degree (0 : Int)).map (Int.castRingHom K) = List.replicate ring.degree 0 := by simp
  have first' := exactMulMap (Int.castRingHom K) realTooLong first
  have second' := exactMulMap (Int.castRingHom K) realTooLong second
  have third' := exactMulMap (Int.castRingHom K) realTooLong third
  have fourth' := exactMulMap (Int.castRingHom K) realTooLong fourth
  have sum0' := exactAddMap (Int.castRingHom K) realTooLong sum0
  have sum1' := exactAddMap (Int.castRingHom K) realTooLong sum1
  have made0' := exactSubMap (Int.castRingHom K) realTooLong made0
  have made1' := exactAddMap (Int.castRingHom K) realTooLong made1
  rw [zeros] at made0'
  refine ⟨⟨s0, s1⟩, ?_, (exactSubMeaning made0).1, (exactAddMeaning made1).1, ?_, ?_⟩
  · simp only [pairOf, bind_ok, pure_ok]
    exact ⟨_, first', _, second', _, sum0', _, made0', _, third', _, fourth', _, sum1', _, made1', s0, roundIntegers s0, s1,
      roundIntegers s1, rfl⟩
  · have worth := (exactSubMeaning made0').2
    rw [Coefficients.elementZeros, (exactAddMeaning sum0').2, (exactMulMeaning first').2, (exactMulMeaning second').2, zero_sub] at worth
    exact worth
  · have worth := (exactAddMeaning made1').2
    rw [(exactAddMeaning sum1').2, (exactMulMeaning third').2, (exactMulMeaning fourth').2] at worth
    exact worth

omit [LinearOrder K] [IsStrictOrderedRing K] [FloorRing K] in
theorem squaresTraced {degree : Nat} (positive : 0 < degree) {s : List Int} (width : s.length = degree) :
    (conjugation K positive).trace (element degree (toReal s) * (conjugation K positive).adjoint (element degree (toReal s))) =
      (((s.map fun v => v * v).sum : Int) : K) := by
  have wide : (toReal s : List K).length = degree := by simpa [toReal] using width
  have entry (i : Nat) : (toReal s : List K).getD i 0 = ((s.getD i 0 : Int) : K) := by
    rw [toReal, ← Int.cast_zero, List.getD_map]
  refine (Adjoint.constantSquare positive wide).trans ?_
  have sums : (s.map fun v => v * v).sum = Finset.sum (Finset.range degree) fun i => s.getD i 0 * s.getD i 0 := by
    conv_lhs => rw [Coefficients.listed width]
    rw [List.map_map]
    rfl
  rw [sums, Int.cast_sum]
  exact Finset.sum_congr rfl fun i _ => by rw [entry, Int.cast_mul]

omit [IsStrictOrderedRing K] in
theorem coordinatesMeaning {target : PolyQ} (fits : Fits ring key) (short : target.length ≤ ring.degree) :
    ∃ t0 t1 : List K, coordinates ring key target = .ok (t0, t1) ∧ t0.length = ring.degree ∧ t1.length = ring.degree ∧
      AdjoinRoot.of _ (ring.modulus : K) * element ring.degree t0 =
        -(element ring.degree (toReal target) * element ring.degree (toReal key.capG)) ∧
      AdjoinRoot.of _ (ring.modulus : K) * element ring.degree t1 = element ring.degree (toReal target) * element ring.degree (toReal key.g) := by
  have real {l : List Int} (fits : l.length ≤ ring.degree) : (toReal l : List K).length ≤ ring.degree := by simpa [toReal] using fits
  have some_ : (ring.modulus : K) ≠ 0 := Nat.cast_ne_zero.mpr (Nat.lt_trans Nat.two_pos ring.large).ne'
  obtain ⟨cG, first⟩ := exactMulTotal realTooLong (real short) (real fits.capG)
  obtain ⟨cg, second⟩ := exactMulTotal realTooLong (real short) (real fits.g)
  obtain ⟨width0, is0⟩ := exactMulMeaning first
  obtain ⟨width1, is1⟩ := exactMulMeaning second
  refine ⟨cG.map fun x => -x / (ring.modulus : K), cg.map fun x => x / (ring.modulus : K), ?_, by simpa using width0, by simpa using width1, ?_, ?_⟩
  · simp only [coordinates, bind_ok, pure_ok]
    exact ⟨cG, first, cg, second, rfl⟩
  · have scaled : (fun x => -x / (ring.modulus : K)) = ((-(ring.modulus : K)⁻¹) * ·) := by
      funext x
      rw [neg_div, neg_mul, div_eq_inv_mul]
    rw [scaled, elementScale, is0, ← mul_assoc, ← map_mul, mul_neg, mul_inv_cancel₀ some_, map_neg, map_one, neg_one_mul]
  · have scaled : (fun x => x / (ring.modulus : K)) = ((ring.modulus : K)⁻¹ * ·) := by
      funext x
      rw [div_eq_inv_mul]
    rw [scaled, elementScale, is1, ← mul_assoc, ← map_mul, mul_inv_cancel₀ some_, map_one, one_mul]

omit [LinearOrder K] [IsStrictOrderedRing K] [FloorRing K] in
/- A constant other than zero can be taken off both sides. -/
theorem constantCancels {degree : Nat} {a : K} (some_ : a ≠ 0) {u v : Negacyclic K degree} (same : AdjoinRoot.of _ a * u = AdjoinRoot.of _ a * v) :
    u = v := by
  have unit : AdjoinRoot.of (Polynomial.X ^ degree + 1 : Polynomial K) a⁻¹ * AdjoinRoot.of _ a = 1 := by
    rw [← map_mul, inv_mul_cancel₀ some_, map_one]
  linear_combination AdjoinRoot.of (Polynomial.X ^ degree + 1 : Polynomial K) a⁻¹ * same - (u - v) * unit

/- What is left of the coordinates, put back into the basis, is the pair. -/
theorem pairDistance {z0 z1 : List Int} {target : PolyQ} {t0 t1 : List K} {gram : GramMatrix K} (relation : verifyNtruRelation ring key = .ok true)
    (short : target.length ≤ ring.degree) (short0 : z0.length ≤ ring.degree) (short1 : z1.length ≤ ring.degree)
    (split : coordinates ring key target = .ok (t0, t1))
    (is : gram.elements ring.degree = Forms.gramOf (conjugation K ring.positive) (element ring.degree (toReal key.f))
      (element ring.degree (toReal key.g)) (element ring.degree (toReal key.capF)) (element ring.degree (toReal key.capG))) :
    ∃ pair, pairOf ring.degree key target (toReal z0 : List K) (toReal z1) = .ok pair ∧
      distance ring.positive (gram.elements ring.degree) t0 t1 (toReal z0) (toReal z1) = (normSquared pair : K) := by
  have some_ : (ring.modulus : K) ≠ 0 := Nat.cast_ne_zero.mpr (Nat.lt_trans Nat.two_pos ring.large).ne'
  obtain ⟨fits, _⟩ := trapdoorResidue relation
  obtain ⟨_, _, made, _, _, is0, is1⟩ := coordinatesMeaning (K := K) fits short
  obtain ⟨rfl, rfl⟩ := Prod.mk.inj (Except.ok.inj (split.symm.trans made))
  obtain ⟨pair, paired, width0, width1, first, second⟩ := pairMeaning (K := K) fits short0 short1 short
  have determinant := trapdoorDeterminant (K := K) relation
  have upper : (element ring.degree t0 - element ring.degree (toReal z0)) * element ring.degree (toReal key.g) +
      (element ring.degree t1 - element ring.degree (toReal z1)) * element ring.degree (toReal key.capG) =
        element ring.degree (toReal pair.s0) := by
    refine constantCancels some_ ?_
    rw [first]
    linear_combination element ring.degree (toReal key.g) * is0 + element ring.degree (toReal key.capG) * is1
  have lower : (element ring.degree t0 - element ring.degree (toReal z0)) * element ring.degree (toReal key.f) +
      (element ring.degree t1 - element ring.degree (toReal z1)) * element ring.degree (toReal key.capF) =
        -element ring.degree (toReal pair.s1) := by
    refine constantCancels some_ ?_
    rw [second]
    linear_combination element ring.degree (toReal key.f) * is0 + element ring.degree (toReal key.capF) * is1 -
      element ring.degree (toReal target) * determinant
  refine ⟨pair, paired, ?_⟩
  rw [distance, is, Forms.gramForm, upper, lower, map_add, map_neg, neg_mul_neg, squaresTraced ring.positive width0,
    squaresTraced ring.positive width1, normSquared, Int.cast_add]

end Pairs

/-! The signer's loop. -/
section Loop
variable {K : Type} [Field K] [LinearOrder K] {ρ : Type} {draw : K → K → Sampler ρ Int}

/- Runs of the sampler, one after the other, each with what it drew. -/
inductive Attempted (draw : K → K → Sampler ρ Int) (tree : FalconTreeNode K) (degree : Nat) (t0 t1 : List K) :
    ρ → List (List (Draw K)) → ρ → Prop
  | none (rng : ρ) : Attempted draw tree degree t0 t1 rng [] rng
  | next {rng middle finish : ρ} {z0 z1 : List K} {draws : List (Draw K)} {others : List (List (Draw K))}
      (ran : ffSampling (logged draw) tree degree t0 t1 (rng, []) = .ok ((z0, z1), (middle, draws)))
      (rest : Attempted draw tree degree t0 t1 middle others finish) : Attempted draw tree degree t0 t1 rng (draws :: others) finish

variable [IsStrictOrderedRing K] {sqrt : K → K} {targetSigma : K}

omit [LinearOrder K] [IsStrictOrderedRing K] [Field K] in
theorem loggedServes {sigma mu : K} {start : ρ × List (Draw K)} (serves : ∃ z finish, draw sigma mu start.1 = .ok (z, finish)) :
    ∃ z finish, logged draw sigma mu start = .ok (z, finish) := by
  obtain ⟨z, finish, ran⟩ := serves
  exact ⟨z, (finish, start.2 ++ [⟨sigma, mu, z⟩]), by rw [logged, ran]; rfl⟩

theorem treeServes {degree depth : Nat} (same : degree = treeDegree depth) (positive : 0 < degree) {gram : GramMatrix K}
    (wide : gram.Wide degree) (definite : (gram.elements degree).Positive (conjugation K positive))
    (root : ∀ x, 0 < x → 0 < sqrt x ∧ sqrt x * sqrt x = x) (sigma : 0 < targetSigma)
    (serves : ∀ sigma mu start, 0 < sigma → ∃ z finish, draw sigma mu start = .ok (z, finish)) :
    ∃ tree, buildFalconTree sqrt gram degree targetSigma = .ok tree ∧
      Measures targetSigma positive (gram.elements degree) tree.leafValues.reverse (ffSampling (logged draw) tree degree) ∧
      Samples degree (ffSampling (logged draw) tree degree) := by
  subst same
  obtain ⟨⟨tree, built, _⟩, _⟩ := @falconTreeBuilt K _ _ _ _ sqrt targetSigma depth rfl positive gram wide definite
  have exponent : (treeDegree depth).log2 - 1 = depth := by rw [treeDegreePower, Nat.log2_two_pow, Nat.add_sub_cancel]
  have recursive := built
  simp only [buildFalconTree, check_ok, exponent] at recursive
  have stands := treeStands depth wide definite recursive.2
  exact ⟨tree, built, treeMeasures (fun x some_ => (root x some_).2) sigma.ne' stands,
    treeSamples (fun x some_ => (root x some_).1) sigma stands fun sigma mu start some_ => loggedServes (serves sigma mu start.1 some_)⟩

variable [FloorRing K] {ring : RingArithmetic} {key : TrapdoorKey} {tree : FalconTreeNode K} {target : PolyQ} {t0 t1 : List K}

/- One attempt: a run of the sampler, and a pair as long as its draws are off. -/
structure Attempt (draw : K → K → Sampler ρ Int) (targetSigma : K) (ring : RingArithmetic) (key : TrapdoorKey) (tree : FalconTreeNode K)
    (target : PolyQ) (t0 t1 : List K) (rng middle : ρ) (draws : List (Draw K)) (signature : Signature) : Prop where
  drawn : ∃ z0 z1, ffSampling (logged draw) tree ring.degree t0 t1 (rng, []) = .ok ((z0, z1), (middle, draws)) ∧
    pairOf ring.degree key target z0 z1 = .ok signature
  twice : draws.map Draw.sigma = tree.leafValues.reverse.flatMap fun sigma => [sigma, sigma]
  long : (normSquared signature : K) = cost targetSigma draws

theorem attemptsRun (normBoundSquared : Int) (attempt : ∀ rng, ∃ middle draws signature,
    Attempt draw targetSigma ring key tree target t0 t1 rng middle draws signature) (maxAttempts : Nat) (rng : ρ) :
    ∃ rejected middle, Attempted draw tree ring.degree t0 t1 rng rejected middle ∧
      (∀ draws ∈ rejected, (normBoundSquared : K) < cost targetSigma draws) ∧
      ((rejected.length = maxAttempts ∧
          signAttempts draw ring.degree key tree target t0 t1 normBoundSquared maxAttempts rng = .error exceeded) ∨
        (rejected.length < maxAttempts ∧ ∃ finish draws signature,
          Attempt draw targetSigma ring key tree target t0 t1 middle finish draws signature ∧ normSquared signature ≤ normBoundSquared ∧
          signAttempts draw ring.degree key tree target t0 t1 normBoundSquared maxAttempts rng = .ok (signature, finish))) := by
  induction maxAttempts generalizing rng with
  | zero => exact ⟨[], rng, .none rng, by simp, .inl ⟨rfl, rfl⟩⟩
  | succ attempts ih =>
    obtain ⟨middle, draws, signature, made⟩ := attempt rng
    obtain ⟨z0, z1, ran, paired⟩ := made.drawn
    have plain : ffSampling draw tree ring.degree t0 t1 rng = .ok ((z0, z1), middle) := by
      have erased := @ffErases K ρ _ draw tree ring.degree t0 t1 rng []
      rw [ran] at erased
      exact erased.symm
    have unfolded : signAttempts draw ring.degree key tree target t0 t1 normBoundSquared (attempts + 1) rng =
        if normSquared signature ≤ normBoundSquared then .ok (signature, middle)
        else signAttempts draw ring.degree key tree target t0 t1 normBoundSquared attempts middle := by
      rw [signAttempts]
      show (ffSampling draw tree ring.degree t0 t1 rng >>= _) = _
      rw [plain]
      show ((liftM (pairOf ring.degree key target z0 z1) : Sampler ρ Signature) middle >>= _) = _
      rw [paired]
      show (if normSquared signature ≤ normBoundSquared then pure signature else _ : Sampler ρ Signature) middle = _
      split <;> rfl
    rw [unfolded]
    by_cases fits : normSquared signature ≤ normBoundSquared
    · exact ⟨[], rng, .none rng, by simp, .inr ⟨Nat.succ_pos _, middle, draws, signature, made, fits, if_pos fits⟩⟩
    · obtain ⟨rejected, last, attempted, above, rest⟩ := ih middle
      refine ⟨draws :: rejected, last, .next ran attempted, ?_, ?_⟩
      · intro others mem
        rcases List.mem_cons.mp mem with rfl | later
        · rw [← made.long]
          exact_mod_cast not_le.mp fits
        · exact above others later
      · rw [if_neg fits]
        rcases rest with ⟨count, failed⟩ | ⟨count, found⟩
        · exact .inl ⟨by simp [count], failed⟩
        · exact .inr ⟨by simp [count], found⟩

/- The signer's run: it throws nothing but that it is out of attempts, each attempt it turned down was off by more than the
bound, and the signature it returns is as long as its draws are off. -/
theorem signatureLength (root : ∀ x, 0 < x → 0 < sqrt x ∧ sqrt x * sqrt x = x) (sigma : 0 < targetSigma) {depth : Nat}
    (power : ring.degree = 2 ^ (depth + 1)) (relation : verifyNtruRelation ring key = .ok true) (short : target.length ≤ ring.degree)
    (serves : ∀ sigma mu rng, 0 < sigma → ∃ z rng', draw sigma mu rng = .ok (z, rng')) (normBoundSquared : Int) (maxAttempts : Nat) (rng : ρ) :
    ∃ tree t0 t1 rejected middle, buildSigningTree sqrt ring key targetSigma = .ok tree ∧ coordinates ring key target = .ok (t0, t1) ∧
      Attempted draw tree ring.degree t0 t1 rng rejected middle ∧
      (∀ draws ∈ rejected, (normBoundSquared : K) < cost targetSigma draws) ∧
      ((rejected.length = maxAttempts ∧ signTarget draw ring key tree target normBoundSquared maxAttempts rng = .error exceeded) ∨
        (rejected.length < maxAttempts ∧ ∃ finish draws signature,
          Attempt draw targetSigma ring key tree target t0 t1 middle finish draws signature ∧ normSquared signature ≤ normBoundSquared ∧
          signTarget draw ring key tree target normBoundSquared maxAttempts rng = .ok (signature, finish))) := by
  obtain ⟨fits, _⟩ := trapdoorResidue relation
  have real {l : List Int} (fits : l.length ≤ ring.degree) : (toReal l : List K).length ≤ ring.degree := by simpa [toReal] using fits
  obtain ⟨gram, made, wide, definite⟩ := trapdoorGram (K := K) relation
  obtain ⟨_, made', _, is⟩ := gramMeaning ring.positive (real fits.f) (real fits.g) (real fits.capF) (real fits.capG)
  obtain rfl := Except.ok.inj (made'.symm.trans made)
  obtain ⟨tree, built, measures, samples⟩ := treeServes (power.trans (treeDegreePower depth).symm) ring.positive wide definite root sigma serves
  obtain ⟨t0, t1, split, width0, width1, _⟩ := coordinatesMeaning (K := K) fits short
  have attempt (rng : ρ) : ∃ middle draws signature, Attempt draw targetSigma ring key tree target t0 t1 rng middle draws signature := by
    obtain ⟨z0, z1, finish, ran, _⟩ := samples t0 t1 width0 width1 (rng, [])
    obtain ⟨whole0, whole1, draws, log, sigmas, far⟩ := measures t0 t1 width0 width1 z0 z1 (rng, []) finish ran
    obtain ⟨l0, short0, rfl⟩ := whole0
    obtain ⟨l1, short1, rfl⟩ := whole1
    obtain ⟨signature, paired, long⟩ := pairDistance relation short short0.le short1.le split is
    have drawn : finish = (finish.1, draws) := Prod.ext rfl log
    exact ⟨finish.1, draws, signature, ⟨_, _, drawn ▸ ran, paired⟩, sigmas, long.symm.trans far⟩
  obtain ⟨rejected, middle, attempted, above, rest⟩ := attemptsRun normBoundSquared attempt maxAttempts rng
  have same : signTarget draw ring key tree target normBoundSquared maxAttempts rng =
      signAttempts draw ring.degree key tree target t0 t1 normBoundSquared maxAttempts rng := by
    show ((liftM (coordinates ring key target) : Sampler ρ (List K × List K)) rng >>= _) = _
    rw [split]
    rfl
  refine ⟨tree, t0, t1, rejected, middle, ?_, split, attempted, above, ?_⟩
  · rw [buildSigningTree, made]
    exact built
  · rw [same]
    exact rest

end Loop

/- The small trapdoor, with every draw the whole number below its centre. -/
noncomputable def drawBelow (_sigma mu : ℝ) : Sampler Unit Int := return ⌊mu⌋

theorem smallLength : ∃ tree, buildSigningTree Real.sqrt smallRing smallKey 1 = .ok tree ∧
    (signTarget drawBelow smallRing smallKey tree [2, 3] 100 4 () = .error exceeded ∨
      ∃ draws signature, normSquared signature ≤ 100 ∧ (normSquared signature : ℝ) = cost 1 draws ∧
        signTarget drawBelow smallRing smallKey tree [2, 3] 100 4 () = .ok (signature, ())) := by
  have root (x : ℝ) (positive : 0 < x) : 0 < Real.sqrt x ∧ Real.sqrt x * Real.sqrt x = x :=
    ⟨Real.sqrt_pos.mpr positive, Real.mul_self_sqrt positive.le⟩
  obtain ⟨tree, _, _, _, _, built, _, _, _, rest⟩ := @signatureLength ℝ _ _ Unit drawBelow _ Real.sqrt 1 _ smallRing smallKey [2, 3] root
    one_pos 0 rfl (by rfl) (by decide) (fun _ mu rng _ => ⟨⌊mu⌋, rng, rfl⟩) 100 4 ()
  refine ⟨tree, built, ?_⟩
  rcases rest with ⟨_, failed⟩ | ⟨_, _, draws, signature, attempt, fits, found⟩
  · exact .inl failed
  · exact .inr ⟨draws, signature, fits, attempt.long, found⟩

end TradeP2P.Blns7933.RealRingArithmetic
