import TradeP2P.Blind.Sampling
import Mathlib.Tactic.LinearCombination

/-! Signing a target with a trapdoor, and checking a signature against the public key. Whatever
integers the sampler draws, the pair made of them meets the public relation: the trapdoor's exact
equation makes the sampled part vanish modulo `q`. -/
namespace TradeP2P.Blns7933
open Checks
open Coefficients (Negacyclic element elementAdd elementInj)

/- `f`, `g`, `F` and `G` of the relation `f * G - g * F = q`. -/
structure TrapdoorKey where
  f : List Int
  g : List Int
  capF : List Int
  capG : List Int
  deriving DecidableEq, Repr

structure PublicKey where
  t : PolyQ
  deriving DecidableEq, Repr

structure Signature where
  s0 : PolyQ
  s1 : PolyQ
  deriving DecidableEq, Repr

def productionNormBoundSquared : Int := 110231552

def verifyNtruRelation (ring : RingArithmetic) (key : TrapdoorKey) : Except Error Bool := do
  let fG ← exactMul integerTooLong ring.degree key.f key.capG
  let gF ← exactMul integerTooLong ring.degree key.g key.capF
  let lhs ← exactSub integerTooLong ring.degree fG gF
  return lhs = (List.replicate ring.degree 0).set 0 (ring.modulus : Int)

def derivePublic (ring : RingArithmetic) (key : TrapdoorKey) : Except Error PublicKey := do
  throwIf (key.f.length > ring.degree ∨ key.g.length > ring.degree)
    (.invalidArgument "BLNS7933 trapdoor polynomial exceeds ring degree")
  match ← ring.inverse key.g with
  | none => throw (.runtimeError "BLNS7933 trapdoor g is not invertible modulo q")
  | some gInv => return ⟨← ring.mul key.f gInv⟩

def toRealPoly (raw : List Int) : RealPoly := raw.map Int.cast

-- Halves go away from zero.
def roundReal (x : ℚ) : Int := if 0 ≤ x then ⌊x + 1 / 2⌋ else ⌈x - 1 / 2⌉

def roundingTolerance : ℚ := 1 / 10 ^ 40

def roundCoefficient (x : ℚ) : Except Error Int := do
  throwIf (|x - roundReal x| > roundingTolerance) (.logicError
    ("BLNS7933 sign(): (t-z).B did not come out integer within tolerance - " ++
      "this should never happen given the algebraic identity it relies on, investigate"))
  return roundReal x

def roundToPolyq : RealPoly → Except Error PolyQ
  | [] => .ok []
  | x :: rest => do
      let rounded ← roundCoefficient x
      return rounded :: (← roundToPolyq rest)

/- The pair of one draw: `s0 = -(z0 * g + z1 * G)` and `s1 = c + z0 * f + z1 * F`. -/
def pairOf (degree : Nat) (key : TrapdoorKey) (c : PolyQ) (z0 z1 : RealPoly) : Except Error Signature := do
  let z0g ← RealRing.mul degree z0 (toRealPoly key.g)
  let z1G ← RealRing.mul degree z1 (toRealPoly key.capG)
  let s0Real ← RealRing.sub degree (List.replicate degree 0) (← RealRing.add degree z0g z1G)
  let z0f ← RealRing.mul degree z0 (toRealPoly key.f)
  let z1F ← RealRing.mul degree z1 (toRealPoly key.capF)
  let s1Real ← RealRing.add degree (toRealPoly c) (← RealRing.add degree z0f z1F)
  let s0 ← roundToPolyq s0Real
  let s1 ← roundToPolyq s1Real
  return ⟨s0, s1⟩

def normSquared (signature : Signature) : Int :=
  (signature.s0.map fun v => v * v).sum + (signature.s1.map fun v => v * v).sum

structure SigningTree where
  value : RealPoly
  left : FalconTree
  right : FalconTree

section Signing
variable {ρ : Type} (sampleDiscreteGaussianCentered : ℚ → ℚ → Sampler ρ Int)

def signAttempts (degree : Nat) (key : TrapdoorKey) (tree : SigningTree) (c : PolyQ) (t0 t1 : RealPoly)
    (normBoundSquared : Int) : Nat → Sampler ρ Signature
  | 0 => throw (.runtimeError
      "BLNS7933 sign(): exceeded max_attempts without producing a signature within the norm bound")
  | attempts+1 => do
      let (z0, z1) ← ffSampling sampleDiscreteGaussianCentered t0 t1 tree.value tree.left tree.right degree
      let signature ← pairOf degree key c z0 z1
      if normSquared signature ≤ normBoundSquared then return signature
      else signAttempts degree key tree c t0 t1 normBoundSquared attempts

def signTarget (ring : RingArithmetic) (key : TrapdoorKey) (tree : SigningTree) (target : PolyQ) (normBoundSquared : Int)
    (maxAttempts : Nat) : Sampler ρ Signature := do
  let cG ← RealRing.mul ring.degree (toRealPoly target) (toRealPoly key.capG)
  let cg ← RealRing.mul ring.degree (toRealPoly target) (toRealPoly key.g)
  let t0 : RealPoly := cG.map fun x => -x / (ring.modulus : ℚ)
  let t1 : RealPoly := cg.map fun x => x / (ring.modulus : ℚ)
  signAttempts sampleDiscreteGaussianCentered ring.degree key tree target t0 t1 normBoundSquared maxAttempts

end Signing

def verifyTarget (ring : RingArithmetic) (publicKey : PublicKey) (target : PolyQ) (signature : Signature)
    (normBoundSquared : Int) : Except Error Bool :=
  if normSquared signature > normBoundSquared then .ok false
  else do
    let lhs ← ring.add (← ring.mul publicKey.t signature.s0) signature.s1
    ring.equal lhs target

/- The signer's adapter lets no other target than a canonical one in. -/
def validateCanonicalPoly (ring : RingArithmetic) (value : PolyQ) (fieldName : String) : Except Error Unit := do
  throwIf (value.length ≠ ring.degree) (.invalidArgument ("q7933 signer adapter: " ++ fieldName ++ " has wrong degree"))
  match value.findIdx? fun x => decide (x < 0 ∨ x ≥ (ring.modulus : Int)) with
  | some i => throw (.invalidArgument ("q7933 signer adapter: " ++ fieldName ++
      " contains a non-canonical coefficient at index " ++ toString i))
  | none => return ()

def signerVerifyTarget (ring : RingArithmetic) (publicKey : PublicKey) (target : PolyQ) (signature : Signature)
    (normBoundSquared : Int) : Except Error Bool := do
  validateCanonicalPoly ring target "target"
  verifyTarget ring publicKey target signature normBoundSquared

section Relation
variable {ring : RingArithmetic} {key : TrapdoorKey} {publicKey : PublicKey} {target : PolyQ}

theorem validateOk {value : PolyQ} {fieldName : String} :
    validateCanonicalPoly ring value fieldName = .ok () ↔ Canonical ring value := by
  simp only [validateCanonicalPoly, check_ok, throwIf_ok, not_not]
  constructor
  · intro ok
    refine ⟨ok.1, fun x mem => ?_⟩
    have checked := ok.2
    split at checked
    · cases checked
    · rename_i none
      have fine := List.findIdx?_eq_none_iff.mp none x mem
      simpa [not_or] using fine
  · intro canonical
    refine ⟨canonical.width, ?_⟩
    have none : value.findIdx? (fun x => decide (x < 0 ∨ x ≥ (ring.modulus : Int))) = none := by
      rw [List.findIdx?_eq_none_iff]
      intro x mem
      have fine := canonical.reduced x mem
      simp only [decide_eq_false_iff_not]
      omega
    rw [none]
    rfl

/- Exact integer operations, read modulo `q`. -/
theorem mulResidue {tooLong : String} {a b c : List Int} (ok : exactMul tooLong ring.degree a b = .ok c) :
    residue ring c = residue ring a * residue ring b :=
  (exactMulMeaning (exactMulMap (Int.castRingHom (ZMod ring.modulus)) tooLong ok)).2

theorem addResidue {tooLong : String} {a b c : List Int} (ok : exactAdd tooLong ring.degree a b = .ok c) :
    residue ring c = residue ring a + residue ring b :=
  (exactAddMeaning (exactAddMap (Int.castRingHom (ZMod ring.modulus)) tooLong ok)).2

theorem subResidue {tooLong : String} {a b c : List Int} (ok : exactSub tooLong ring.degree a b = .ok c) :
    residue ring c = residue ring a - residue ring b :=
  (exactSubMeaning (exactSubMap (Int.castRingHom (ZMod ring.modulus)) tooLong ok)).2

/- What fits into the ring, as the exact relation finds it. -/
structure Fits (ring : RingArithmetic) (key : TrapdoorKey) : Prop where
  f : key.f.length ≤ ring.degree
  g : key.g.length ≤ ring.degree
  capF : key.capF.length ≤ ring.degree
  capG : key.capG.length ≤ ring.degree

/- Modulo `q` the trapdoor's relation says `f * G = g * F`. -/
theorem trapdoorResidue (relation : verifyNtruRelation ring key = .ok true) :
    Fits ring key ∧ residue ring key.f * residue ring key.capG = residue ring key.g * residue ring key.capF := by
  simp only [verifyNtruRelation, bind_ok, pure_ok, decide_eq_true_iff] at relation
  obtain ⟨fG, first, gF, second, lhs, difference, same⟩ := relation
  obtain ⟨_, f, _, capG, _⟩ := exactMulOk.mp first
  obtain ⟨_, g, _, capF, _⟩ := exactMulOk.mp second
  refine ⟨⟨(canonicalSizeOk.mp f).1, (canonicalSizeOk.mp g).1, (canonicalSizeOk.mp capF).1, (canonicalSizeOk.mp capG).1⟩, ?_⟩
  have zero : residue ring lhs = 0 := by
    obtain ⟨rest, positive⟩ := Nat.exists_eq_succ_of_ne_zero ring.positive.ne'
    rw [same]
    simp [residue, positive, element, List.replicate_succ]
  rw [subResidue difference, mulResidue first, mulResidue second, sub_eq_zero] at zero
  exact zero

theorem publicResidue (derived : derivePublic ring key = .ok publicKey) :
    Canonical ring publicKey.t ∧ residue ring publicKey.t * residue ring key.g = residue ring key.f ∧
      ∃ gInverse, residue ring key.g * gInverse = 1 := by
  simp only [derivePublic, bind_ok] at derived
  obtain ⟨_, _, found, inverted, rest⟩ := derived
  split at rest
  · cases rest
  · rename_i gInv
    simp only [bind_ok, pure_ok] at rest
    obtain ⟨t, multiplied, rfl⟩ := rest
    obtain ⟨canonical, worth⟩ := mulMeaning multiplied
    have inverse := inverseMeaning inverted
    refine ⟨canonical, ?_, residue ring gInv, inverse⟩
    rw [worth, mul_assoc, mul_comm (residue ring gInv), inverse, mul_one]

/- Rounding finds the integers again. -/
theorem roundInteger (n : Int) : roundCoefficient n = .ok n := by
  have rounded : roundReal (n : ℚ) = n := by
    unfold roundReal
    split
    · rw [Int.floor_eq_iff]
      constructor <;> linarith
    · rw [Int.ceil_eq_iff]
      constructor <;> linarith
  have close : ¬|(n : ℚ) - n| > roundingTolerance := by
    rw [sub_self, abs_zero, not_lt]
    unfold roundingTolerance
    positivity
  simp only [roundCoefficient, rounded, bind_ok, pure_ok, throwIf_ok, and_true, exists_const]
  exact close

theorem roundIntegers (integers : List Int) : roundToPolyq (toRealPoly integers) = .ok integers := by
  induction integers with
  | nil => rfl
  | cons n rest ih =>
      rw [toRealPoly] at ih
      rw [toRealPoly, List.map_cons, roundToPolyq, roundInteger, ih]
      rfl

/- The pair of any two integer polynomials comes out integer, and is what the comment above it says. -/
theorem pairIntegral {z0 z1 c : List Int} (fits : Fits ring key) (short0 : z0.length ≤ ring.degree)
    (short1 : z1.length ≤ ring.degree) (shortC : c.length ≤ ring.degree) :
    ∃ pair, pairOf ring.degree key c (toRealPoly z0) (toRealPoly z1) = .ok pair ∧ pair.s0.length = ring.degree ∧
      pair.s1.length = ring.degree ∧
      residue ring pair.s0 = -(residue ring z0 * residue ring key.g + residue ring z1 * residue ring key.capG) ∧
      residue ring pair.s1 = residue ring c + (residue ring z0 * residue ring key.f + residue ring z1 * residue ring key.capF) := by
  obtain ⟨z0g, first⟩ := exactMulTotal realTooLong short0 fits.g
  obtain ⟨z1G, second⟩ := exactMulTotal realTooLong short1 fits.capG
  obtain ⟨basis0, sum0⟩ := exactAddTotal realTooLong (exactMulMeaning first).1.le (exactMulMeaning second).1.le
  obtain ⟨s0, made0⟩ := exactSubTotal realTooLong (a := List.replicate ring.degree (0 : Int)) (by simp)
    (exactAddMeaning sum0).1.le
  obtain ⟨z0f, third⟩ := exactMulTotal realTooLong short0 fits.f
  obtain ⟨z1F, fourth⟩ := exactMulTotal realTooLong short1 fits.capF
  obtain ⟨basis1, sum1⟩ := exactAddTotal realTooLong (exactMulMeaning third).1.le (exactMulMeaning fourth).1.le
  obtain ⟨s1, made1⟩ := exactAddTotal realTooLong shortC (exactAddMeaning sum1).1.le
  refine ⟨⟨s0, s1⟩, ?_, (exactSubMeaning made0).1, (exactAddMeaning made1).1, ?_, ?_⟩
  · have zeros : (List.replicate ring.degree (0 : Int)).map (Int.castRingHom ℚ) = List.replicate ring.degree 0 := by simp
    have made0Real := exactSubMap (Int.castRingHom ℚ) realTooLong made0
    rw [zeros] at made0Real
    simp only [pairOf, bind_ok, pure_ok]
    exact ⟨_, exactMulMap (Int.castRingHom ℚ) realTooLong first, _, exactMulMap (Int.castRingHom ℚ) realTooLong second,
      _, exactAddMap (Int.castRingHom ℚ) realTooLong sum0, _, made0Real,
      _, exactMulMap (Int.castRingHom ℚ) realTooLong third, _, exactMulMap (Int.castRingHom ℚ) realTooLong fourth,
      _, exactAddMap (Int.castRingHom ℚ) realTooLong sum1, _, exactAddMap (Int.castRingHom ℚ) realTooLong made1,
      s0, roundIntegers s0, s1, roundIntegers s1, rfl⟩
  · have zero : residue ring (List.replicate ring.degree 0) = 0 := by simp [residue, element]
    rw [subResidue made0, zero, addResidue sum0, mulResidue first, mulResidue second, zero_sub]
  · rw [addResidue made1, addResidue sum1, mulResidue third, mulResidue fourth]

/- The sampled part vanishes modulo `q`: the pair meets the public relation. -/
theorem pairRelation {z0 z1 : List Int} {pair : Signature} (relation : verifyNtruRelation ring key = .ok true)
    (derived : derivePublic ring key = .ok publicKey)
    (first : residue ring pair.s0 = -(residue ring z0 * residue ring key.g + residue ring z1 * residue ring key.capG))
    (second : residue ring pair.s1 = residue ring target +
      (residue ring z0 * residue ring key.f + residue ring z1 * residue ring key.capF)) :
    residue ring publicKey.t * residue ring pair.s0 + residue ring pair.s1 = residue ring target := by
  obtain ⟨_, exact_⟩ := trapdoorResidue relation
  obtain ⟨_, derives, gInverse, inverse⟩ := publicResidue derived
  rw [first, second]
  -- `t * G = F` once `g` is taken out of `t * g * G = f * G = g * F`.
  have capital : residue ring publicKey.t * residue ring key.capG = residue ring key.capF := by
    linear_combination (residue ring key.capF - residue ring publicKey.t * residue ring key.capG) * inverse +
      gInverse * residue ring key.capG * derives + gInverse * exact_
  linear_combination -residue ring z0 * derives - residue ring z1 * capital

/- The public relation, as the verifier computes it. -/
theorem relationComputed {pair : Signature} (derived : derivePublic ring key = .ok publicKey) (canonical : Canonical ring target)
    (width0 : pair.s0.length = ring.degree) (width1 : pair.s1.length = ring.degree)
    (holds : residue ring publicKey.t * residue ring pair.s0 + residue ring pair.s1 = residue ring target) :
    ∃ product, ring.mul publicKey.t pair.s0 = .ok product ∧ ring.add product pair.s1 = .ok target := by
  obtain ⟨shape, _⟩ := publicResidue derived
  obtain ⟨product, multiplied⟩ := mulTotal shape.width.le width0.le
  obtain ⟨canonicalProduct, worth⟩ := mulMeaning multiplied
  obtain ⟨lhs, added⟩ := addTotal canonicalProduct.width.le width1.le
  obtain ⟨canonicalLhs, sum⟩ := addMeaning added
  refine ⟨product, multiplied, ?_⟩
  rw [added, canonicalInj canonicalLhs canonical (by rw [sum, worth, holds])]

theorem pairComputed {z0 z1 : RealPoly} (relation : verifyNtruRelation ring key = .ok true)
    (derived : derivePublic ring key = .ok publicKey) (canonical : Canonical ring target)
    (drawn0 : Integral ring.degree z0) (drawn1 : Integral ring.degree z1) :
    ∃ pair product, pairOf ring.degree key target z0 z1 = .ok pair ∧ ring.mul publicKey.t pair.s0 = .ok product ∧
      ring.add product pair.s1 = .ok target := by
  obtain ⟨l0, short0, rfl⟩ := drawn0
  obtain ⟨l1, short1, rfl⟩ := drawn1
  obtain ⟨pair, made, width0, width1, first, second⟩ :=
    pairIntegral (trapdoorResidue relation).1 short0.le short1.le canonical.width.le
  obtain ⟨product, multiplied, added⟩ :=
    relationComputed derived canonical width0 width1 (pairRelation relation derived first second)
  exact ⟨pair, product, made, multiplied, added⟩

/- What the rejection loop returns is the pair of one of its draws, and short enough. -/
theorem signAttemptsMade {ρ : Type} {sampleDiscreteGaussianCentered : ℚ → ℚ → Sampler ρ Int} {depth : Nat}
    (power : ring.degree = 2 ^ depth) {tree : SigningTree} {t0 t1 : RealPoly} {normBoundSquared : Int} {attempts : Nat}
    {signature : Signature} {rng rng' : ρ}
    (ok : signAttempts sampleDiscreteGaussianCentered ring.degree key tree target t0 t1 normBoundSquared attempts rng =
      .ok (signature, rng')) :
    normSquared signature ≤ normBoundSquared ∧ ∃ z0 z1, Integral ring.degree z0 ∧ Integral ring.degree z1 ∧
      pairOf ring.degree key target z0 z1 = .ok signature := by
  induction attempts generalizing rng with
  | zero => cases ok
  | succ attempts ih =>
      simp only [signAttempts, stateBind_ok, stateLift_ok] at ok
      obtain ⟨⟨z0, z1⟩, _, sampled, pair, _, ⟨made, rfl⟩, rest⟩ := ok
      rw [power] at sampled
      have drawn := ffSamplingIntegral sampled
      rw [← power] at drawn
      split at rest
      · rename_i short
        obtain ⟨rfl, rfl⟩ := statePure_ok.mp rest
        exact ⟨short, z0, z1, drawn.1, drawn.2, made⟩
      · exact ih rest

theorem verifyComputed {pair : Signature} {product other : PolyQ} {normBoundSquared : Int}
    (short : normSquared pair ≤ normBoundSquared) (multiplied : ring.mul publicKey.t pair.s0 = .ok product)
    (added : ring.add product pair.s1 = .ok target) :
    verifyTarget ring publicKey other pair normBoundSquared = ring.equal target other := by
  rw [verifyTarget, if_neg (not_lt.mpr short), multiplied]
  dsimp only [bind, Except.bind]
  rw [added]

theorem equalCanonical {other : PolyQ} (canonical : Canonical ring target) (shape : Canonical ring other) :
    ring.equal target other = .ok (decide (target = other)) := by
  obtain ⟨same, compared⟩ := equalTotal canonical.width.le shape.width.le
  have meaning := equalMeaning compared
  rw [compared]
  congr 1
  rw [Bool.eq_iff_iff, decide_eq_true_iff, meaning]
  exact ⟨canonicalInj canonical shape, fun same => by rw [same]⟩

theorem signedAccepted {depth : Nat} (power : ring.degree = 2 ^ (depth + 1))
    (relation : verifyNtruRelation ring key = .ok true) (derived : derivePublic ring key = .ok publicKey)
    (canonical : Canonical ring target) :
    (∀ z0 z1, Integral ring.degree z0 → Integral ring.degree z1 →
      ∃ pair product, pairOf ring.degree key target z0 z1 = .ok pair ∧ ring.mul publicKey.t pair.s0 = .ok product ∧
        ring.add product pair.s1 = .ok target) ∧
    ∀ (ρ : Type) (sampleDiscreteGaussianCentered : ℚ → ℚ → Sampler ρ Int) (tree : SigningTree) (normBoundSquared : Int)
      (maxAttempts : Nat) (rng rng' : ρ) (signature : Signature),
      signTarget sampleDiscreteGaussianCentered ring key tree target normBoundSquared maxAttempts rng =
        .ok (signature, rng') →
      verifyTarget ring publicKey target signature normBoundSquared = .ok true ∧
      signerVerifyTarget ring publicKey target signature normBoundSquared = .ok true ∧
      ∀ other, other ≠ target → signerVerifyTarget ring publicKey other signature normBoundSquared ≠ .ok true ∧
        (Canonical ring other → verifyTarget ring publicKey other signature normBoundSquared = .ok false) := by
  refine ⟨fun z0 z1 drawn0 drawn1 => pairComputed relation derived canonical drawn0 drawn1, ?_⟩
  intro ρ sampler tree normBoundSquared maxAttempts rng rng' signature signed
  simp only [signTarget, stateBind_ok, stateLift_ok] at signed
  obtain ⟨_, _, _, _, _, _, attempted⟩ := signed
  obtain ⟨short, z0, z1, drawn0, drawn1, made⟩ := signAttemptsMade power attempted
  obtain ⟨pair, product, made', multiplied, added⟩ := pairComputed relation derived canonical drawn0 drawn1
  rw [made] at made'
  cases made'
  have verdict {other : PolyQ} (shape : Canonical ring other) :
      verifyTarget ring publicKey other signature normBoundSquared = .ok (decide (target = other)) := by
    rw [verifyComputed short multiplied added, equalCanonical canonical shape]
  have own : verifyTarget ring publicKey target signature normBoundSquared = .ok true := by simp [verdict canonical]
  refine ⟨own, ?_, fun other apart => ⟨fun accepted => ?_, fun shape => by simp [verdict shape, apart.symm]⟩⟩
  · simp only [signerVerifyTarget, check_ok]
    exact ⟨validateOk.mpr canonical, own⟩
  · simp only [signerVerifyTarget, check_ok] at accepted
    have same := verdict (validateOk.mp accepted.1)
    rw [accepted.2] at same
    simp [apart.symm] at same

end Relation

theorem smallModulus : 2 < 5 := by decide

/- A small trapdoor, `f = 1 + x` and `g = 1` modulo five. -/
def smallRing : RingArithmetic where
  degree := 2
  modulus := 5
  positive := Nat.two_pos
  large := smallModulus

def smallKey : TrapdoorKey where
  f := [1, 1]
  g := [1, 0]
  capF := [-4, 1]
  capG := [1, 0]

def smallTree : SigningTree := ⟨[0, 0], .leaf 1, .leaf 1⟩

def roundDown (_sigma mu : ℚ) : Sampler Nat Int := return ⌊mu⌋

theorem smallSigned : ∃ publicKey signature rng, derivePublic smallRing smallKey = .ok publicKey ∧
    signTarget roundDown smallRing smallKey smallTree [2, 3] 100 1 7 = .ok (signature, rng) ∧
    verifyTarget smallRing publicKey [2, 3] signature 100 = .ok true := by
  have derived : derivePublic smallRing smallKey = .ok ⟨[1, 1]⟩ := by rfl
  have drawn : (signTarget roundDown smallRing smallKey smallTree [2, 3] 100 1 7).toOption = some (⟨[1, 1], [2, 1]⟩, 7) := by
    decide +kernel
  have canonical : Canonical smallRing [2, 3] := ⟨rfl, by decide⟩
  cases signed : signTarget roundDown smallRing smallKey smallTree [2, 3] 100 1 7 with
  | error error =>
      rw [signed] at drawn
      cases drawn
  | ok pair =>
      obtain ⟨signature, rng⟩ := pair
      have accepted := (@signedAccepted smallRing smallKey ⟨[1, 1]⟩ [2, 3] 0 rfl (by rfl) derived canonical).2 Nat roundDown
        smallTree 100 1 7 rng signature signed
      exact ⟨_, signature, rng, derived, rfl, accepted.1⟩

end TradeP2P.Blns7933
