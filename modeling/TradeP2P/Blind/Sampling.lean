import TradeP2P.Blind.Ring
import Mathlib.Algebra.Order.Floor.Ring
import Mathlib.Data.Rat.Floor

/-! The exact rings under the sampler, over the integers and over the reals, and the recursive
sampler itself. The reals of the source carry 256 digits; here they are the rationals, and only the
draw of one integer around a real centre is left open. -/
namespace TradeP2P.Blns7933
open Checks
open Coefficients (Negacyclic element elementAdd elementModify elementSub elementProduct foldAdds mapModify rootPow)

section Exact
variable {α β : Type} [CommRing α] [CommRing β]

def canonicalSize (tooLong : String) (degree : Nat) (a : List α) : Except Error (List α) := do
  throwIf (a.length > degree) (.invalidArgument tooLong)
  return a ++ List.replicate (degree - a.length) 0

def exactPlace (degree : Nat) (out : List α) (k : Nat) (product : α) : List α :=
  if k < degree then out.modify k (· + product) else out.modify (k - degree) (· - product)

def exactRow (degree : Nat) (aa bb out : List α) (i : Nat) : List α :=
  (List.range degree).foldl (fun out j => exactPlace degree out (i + j) (aa.getD i 0 * bb.getD j 0)) out

def exactProduct (degree : Nat) (aa bb : List α) : List α :=
  (List.range degree).foldl (exactRow degree aa bb) (List.replicate degree 0)

/- The integer and the real ring differ in nothing but their coefficients and one text. -/
def exactMul (tooLong : String) (degree : Nat) (a b : List α) : Except Error (List α) := do
  let aa ← canonicalSize tooLong degree a
  let bb ← canonicalSize tooLong degree b
  return exactProduct degree aa bb

def exactAdd (tooLong : String) (degree : Nat) (a b : List α) : Except Error (List α) := do
  let aa ← canonicalSize tooLong degree a
  let bb ← canonicalSize tooLong degree b
  return List.zipWith (· + ·) aa bb

def exactSub (tooLong : String) (degree : Nat) (a b : List α) : Except Error (List α) := do
  let aa ← canonicalSize tooLong degree a
  let bb ← canonicalSize tooLong degree b
  return List.zipWith (· - ·) aa bb

end Exact

def integerTooLong : String := "input polynomial exceeds ring degree"
def realTooLong : String := "real-ring input polynomial exceeds ring degree"

abbrev RealPoly := List ℚ

namespace RealRing

def add (degree : Nat) (a b : RealPoly) : Except Error RealPoly := exactAdd realTooLong degree a b
def sub (degree : Nat) (a b : RealPoly) : Except Error RealPoly := exactSub realTooLong degree a b
def mul (degree : Nat) (a b : RealPoly) : Except Error RealPoly := exactMul realTooLong degree a b

end RealRing

/-! The sampler. -/

def split (f : RealPoly) : Except Error (RealPoly × RealPoly) := do
  throwIf (f = [] ∨ f.length % 2 ≠ 0) (.invalidArgument "split() requires a non-empty, even-length polynomial")
  return ((List.range (f.length / 2)).map fun i => f.getD (2 * i) 0,
    (List.range (f.length / 2)).map fun i => f.getD (2 * i + 1) 0)

def merge (f0 f1 : RealPoly) : Except Error RealPoly := do
  throwIf (f0.length ≠ f1.length) (.invalidArgument "merge() requires f0 and f1 of equal size")
  return (List.range (2 * f0.length)).map fun i => if i % 2 = 0 then f0.getD (i / 2) 0 else f1.getD (i / 2) 0

/- A node carries `L10` of its level, a leaf the deviation of its two draws. -/
inductive FalconTree where
  | leaf (sigma : ℚ)
  | node (value : RealPoly) (left right : FalconTree)

abbrev Sampler (ρ : Type) := StateT ρ (Except Error)

section Sampler
variable {ρ : Type} (sampleDiscreteGaussianCentered : ℚ → ℚ → Sampler ρ Int)

-- One child slot: the two draws of a leaf, or the recursion of a subtree.
def sampleChild : FalconTree → Nat → RealPoly → RealPoly → Sampler ρ (RealPoly × RealPoly)
  | .leaf sigma, degree, t0, t1 => do
      throwIf (degree ≠ 1) (Error.logicError "ffSampling: reached a leaf at degree>1 - tree/degree mismatch, investigate")
      throwIf (t0.length ≠ 1 ∨ t1.length ≠ 1) (Error.logicError
        "ffSampling: degree=1 target must have exactly one coefficient")
      let z0 ← sampleDiscreteGaussianCentered sigma (t0.getD 0 0)
      let z1 ← sampleDiscreteGaussianCentered sigma (t1.getD 0 0)
      return ([(z0 : ℚ)], [(z1 : ℚ)])
  | .node ell left right, degree, t0, t1 => do
      throwIf (degree = 1) (Error.logicError
        "ffSampling: reached degree=1 but the tree node is not a leaf - tree/degree mismatch, investigate")
      throwIf (degree < 2) (Error.logicError "ff_sampling: degree must be >= 2 at an internal node")
      let (t1Even, t1Odd) ← split t1
      let (inner10, inner11) ← sampleChild right (degree / 2) t1Even t1Odd
      let z1 ← merge inner10 inner11
      let t0Prime ← RealRing.add degree t0 (← RealRing.mul degree (← RealRing.sub degree t1 z1) ell)
      let (t0Even, t0Odd) ← split t0Prime
      let (inner00, inner01) ← sampleChild left (degree / 2) t0Even t0Odd
      let z0 ← merge inner00 inner01
      return (z0, z1)

-- The root of a signing tree is a node; a child node of degree one is refused one check earlier.
def ffSampling (t0 t1 : RealPoly) (value : RealPoly) (left right : FalconTree) (degree : Nat) :
    Sampler ρ (RealPoly × RealPoly) := do
  throwIf (degree < 2) (Error.logicError "ff_sampling: degree must be >= 2 at an internal node")
  sampleChild sampleDiscreteGaussianCentered (.node value left right) degree t0 t1

end Sampler

/-! What the exact loops compute, and that they compute the same over every ring. -/
section Meaning
variable {α β : Type} [CommRing α] [CommRing β] {degree : Nat}

theorem exactPlaceMeaning {out : List α} (width : out.length = degree) {k : Nat} (inside : k < 2 * degree) (product : α) :
    (exactPlace degree out k product).length = degree ∧ element degree (exactPlace degree out k product) =
      element degree out + AdjoinRoot.of _ product * AdjoinRoot.root _ ^ k := by
  unfold exactPlace
  split
  · rename_i within
    exact ⟨by simpa using width, elementModify _ _ (by omega)⟩
  · rename_i past
    refine ⟨by simpa using width, ?_⟩
    have negated : (fun v => v - product) = (fun v => v + -product) := by
      funext v
      exact sub_eq_add_neg v product
    have wraps : (AdjoinRoot.root (Polynomial.X ^ degree + 1 : Polynomial α)) ^ k =
        -AdjoinRoot.root _ ^ (k - degree) := by
      conv_lhs => rw [← Nat.sub_add_cancel (Nat.le_of_not_lt past)]
      rw [pow_add, rootPow, mul_neg_one]
    rw [negated, elementModify _ _ (by omega), wraps, map_neg, neg_mul, mul_neg]

theorem exactProductMeaning {a b : List α} (coversA : a.length ≤ degree) (coversB : b.length ≤ degree) :
    (exactProduct degree a b).length = degree ∧
      element degree (exactProduct degree a b) = element degree a * element degree b := by
  have row (i : Nat) (small : i ∈ List.range degree) (out : List α) (width : out.length = degree) :=
    foldAdds (element degree) (fun out => out.length = degree)
      (fun out j => exactPlace degree out (i + j) (a.getD i 0 * b.getD j 0))
      (fun j => AdjoinRoot.of _ (a.getD i 0 * b.getD j 0) * AdjoinRoot.root _ ^ (i + j)) (List.range degree)
      (fun out j mem width => exactPlaceMeaning width (by
        have := List.mem_range.mp small
        have := List.mem_range.mp mem
        omega) _) out width
  obtain ⟨width, worth⟩ := foldAdds (element degree) (fun out => out.length = degree) (exactRow degree a b) _
    (List.range degree) (fun out i mem width => row i mem out width) (List.replicate degree 0) (by simp)
  have zero : element degree (List.replicate degree (0 : α)) = 0 := by simp [element]
  exact ⟨width, by rw [exactProduct, worth, zero, zero_add, elementProduct _ coversA coversB]⟩

theorem exactProductMap (φ : α →+* β) (a b : List α) :
    (exactProduct degree a b).map φ = exactProduct degree (a.map φ) (b.map φ) := by
  have place (out : List α) (k : Nat) (product : α) :
      exactPlace degree (out.map φ) k (φ product) = (exactPlace degree out k product).map φ := by
    unfold exactPlace
    split
    · exact (mapModify (fun v => map_add φ v product) out k).symm
    · exact (mapModify (fun v => map_sub φ v product) out _).symm
  have entry (l : List α) (i : Nat) : (l.map φ).getD i 0 = φ (l.getD i 0) := by
    rw [← map_zero φ, List.getD_map]
  have row (out : List α) (i : Nat) : exactRow degree (a.map φ) (b.map φ) (out.map φ) i = (exactRow degree a b out i).map φ := by
    unfold exactRow
    refine List.foldl_hom (List.map φ) fun out j => ?_
    rw [entry, entry, ← map_mul, place]
  have start : List.replicate degree (0 : β) = (List.replicate degree (0 : α)).map φ := by simp
  unfold exactProduct
  rw [start]
  exact (List.foldl_hom (List.map φ) row).symm

section Operations
variable {tooLong : String} {a b c : List α}

theorem canonicalSizeOk : canonicalSize tooLong degree a = .ok b ↔
    a.length ≤ degree ∧ a ++ List.replicate (degree - a.length) 0 = b := by
  simp only [canonicalSize, check_ok, throwIf_ok, pure_ok, Nat.not_lt]

theorem canonicalSizeMeaning (ok : canonicalSize tooLong degree a = .ok b) :
    b.length = degree ∧ element degree b = element degree a := by
  obtain ⟨short, rfl⟩ := canonicalSizeOk.mp ok
  exact ⟨by simp [short], by simp [element, Coefficients.valueAppend]⟩

theorem exactMulOk : exactMul tooLong degree a b = .ok c ↔ ∃ aa, canonicalSize tooLong degree a = .ok aa ∧
    ∃ bb, canonicalSize tooLong degree b = .ok bb ∧ exactProduct degree aa bb = c := by
  simp only [exactMul, bind_ok, pure_ok]

theorem exactAddOk : exactAdd tooLong degree a b = .ok c ↔ ∃ aa, canonicalSize tooLong degree a = .ok aa ∧
    ∃ bb, canonicalSize tooLong degree b = .ok bb ∧ List.zipWith (· + ·) aa bb = c := by
  simp only [exactAdd, bind_ok, pure_ok]

theorem exactSubOk : exactSub tooLong degree a b = .ok c ↔ ∃ aa, canonicalSize tooLong degree a = .ok aa ∧
    ∃ bb, canonicalSize tooLong degree b = .ok bb ∧ List.zipWith (· - ·) aa bb = c := by
  simp only [exactSub, bind_ok, pure_ok]

theorem exactMulMeaning (ok : exactMul tooLong degree a b = .ok c) :
    c.length = degree ∧ element degree c = element degree a * element degree b := by
  obtain ⟨aa, left, bb, right, rfl⟩ := exactMulOk.mp ok
  obtain ⟨widthA, sameA⟩ := canonicalSizeMeaning left
  obtain ⟨widthB, sameB⟩ := canonicalSizeMeaning right
  rw [← sameA, ← sameB]
  exact exactProductMeaning widthA.le widthB.le

theorem exactAddMeaning (ok : exactAdd tooLong degree a b = .ok c) :
    c.length = degree ∧ element degree c = element degree a + element degree b := by
  obtain ⟨aa, left, bb, right, rfl⟩ := exactAddOk.mp ok
  obtain ⟨widthA, sameA⟩ := canonicalSizeMeaning left
  obtain ⟨widthB, sameB⟩ := canonicalSizeMeaning right
  rw [← sameA, ← sameB]
  exact ⟨by simp [widthA, widthB], elementAdd _ (widthA.trans widthB.symm)⟩

theorem exactSubMeaning (ok : exactSub tooLong degree a b = .ok c) :
    c.length = degree ∧ element degree c = element degree a - element degree b := by
  obtain ⟨aa, left, bb, right, rfl⟩ := exactSubOk.mp ok
  obtain ⟨widthA, sameA⟩ := canonicalSizeMeaning left
  obtain ⟨widthB, sameB⟩ := canonicalSizeMeaning right
  rw [← sameA, ← sameB]
  exact ⟨by simp [widthA, widthB], elementSub _ (widthA.trans widthB.symm)⟩

theorem canonicalSizeMap (φ : α →+* β) (other : String) (ok : canonicalSize tooLong degree a = .ok b) :
    canonicalSize other degree (a.map φ) = .ok (b.map φ) := by
  obtain ⟨short, rfl⟩ := canonicalSizeOk.mp ok
  exact canonicalSizeOk.mpr ⟨by simpa using short, by simp⟩

/- The same operation over another ring, on the images. -/
theorem exactMulMap (φ : α →+* β) (other : String) (ok : exactMul tooLong degree a b = .ok c) :
    exactMul other degree (a.map φ) (b.map φ) = .ok (c.map φ) := by
  obtain ⟨aa, left, bb, right, rfl⟩ := exactMulOk.mp ok
  exact exactMulOk.mpr ⟨_, canonicalSizeMap φ other left, _, canonicalSizeMap φ other right, (exactProductMap φ aa bb).symm⟩

theorem exactAddMap (φ : α →+* β) (other : String) (ok : exactAdd tooLong degree a b = .ok c) :
    exactAdd other degree (a.map φ) (b.map φ) = .ok (c.map φ) := by
  obtain ⟨aa, left, bb, right, rfl⟩ := exactAddOk.mp ok
  exact exactAddOk.mpr ⟨_, canonicalSizeMap φ other left, _, canonicalSizeMap φ other right, by
    simp [List.map_zipWith, List.zipWith_map]⟩

theorem exactSubMap (φ : α →+* β) (other : String) (ok : exactSub tooLong degree a b = .ok c) :
    exactSub other degree (a.map φ) (b.map φ) = .ok (c.map φ) := by
  obtain ⟨aa, left, bb, right, rfl⟩ := exactSubOk.mp ok
  exact exactSubOk.mpr ⟨_, canonicalSizeMap φ other left, _, canonicalSizeMap φ other right, by
    simp [List.map_zipWith, List.zipWith_map]⟩

theorem canonicalSizeTotal (tooLong : String) (short : a.length ≤ degree) : ∃ b, canonicalSize tooLong degree a = .ok b :=
  ⟨_, canonicalSizeOk.mpr ⟨short, rfl⟩⟩

theorem exactMulTotal (tooLong : String) (shortA : a.length ≤ degree) (shortB : b.length ≤ degree) :
    ∃ c, exactMul tooLong degree a b = .ok c := by
  obtain ⟨aa, left⟩ := canonicalSizeTotal tooLong shortA
  obtain ⟨bb, right⟩ := canonicalSizeTotal tooLong shortB
  exact ⟨_, exactMulOk.mpr ⟨aa, left, bb, right, rfl⟩⟩

theorem exactAddTotal (tooLong : String) (shortA : a.length ≤ degree) (shortB : b.length ≤ degree) :
    ∃ c, exactAdd tooLong degree a b = .ok c := by
  obtain ⟨aa, left⟩ := canonicalSizeTotal tooLong shortA
  obtain ⟨bb, right⟩ := canonicalSizeTotal tooLong shortB
  exact ⟨_, exactAddOk.mpr ⟨aa, left, bb, right, rfl⟩⟩

theorem exactSubTotal (tooLong : String) (shortA : a.length ≤ degree) (shortB : b.length ≤ degree) :
    ∃ c, exactSub tooLong degree a b = .ok c := by
  obtain ⟨aa, left⟩ := canonicalSizeTotal tooLong shortA
  obtain ⟨bb, right⟩ := canonicalSizeTotal tooLong shortB
  exact ⟨_, exactSubOk.mpr ⟨aa, left, bb, right, rfl⟩⟩

end Operations

end Meaning

/-! Every draw is an integer, so every polynomial the sampler returns is. -/

def Integral (degree : Nat) (z : RealPoly) : Prop := ∃ integers : List Int, integers.length = degree ∧ z = integers.map Int.cast

theorem mergeIntegral {half : Nat} {f0 f1 z : RealPoly} (first : Integral half f0) (second : Integral half f1)
    (ok : merge f0 f1 = .ok z) : Integral (2 * half) z := by
  obtain ⟨l0, width0, rfl⟩ := first
  obtain ⟨l1, width1, rfl⟩ := second
  simp only [merge, check_ok, pure_ok, throwIf_ok] at ok
  obtain ⟨_, rfl⟩ := ok
  refine ⟨(List.range (2 * half)).map fun i => if i % 2 = 0 then l0.getD (i / 2) 0 else l1.getD (i / 2) 0, by simp, ?_⟩
  have entry (l : List Int) (i : Nat) : ((l.map Int.cast).getD i 0 : ℚ) = ((l.getD i 0 : Int) : ℚ) := by
    rw [← Int.cast_zero, List.getD_map]
  rw [List.map_map, List.length_map, width0]
  refine List.map_congr_left fun i _ => ?_
  rw [entry, entry, Function.comp_apply]
  split <;> rfl

section Bodies
variable {σ ε α β : Type} {s t : σ}

theorem stateBind_ok {x : StateT σ (Except ε) α} {k : α → StateT σ (Except ε) β} {b : β} :
    (x >>= k) s = .ok (b, t) ↔ ∃ a u, x s = .ok (a, u) ∧ k a u = .ok (b, t) := by
  show (x s >>= fun ran => k ran.1 ran.2) = .ok (b, t) ↔ _
  rw [bind_ok, Prod.exists]

theorem statePure_ok {a b : α} : (pure a : StateT σ (Except ε) α) s = .ok (b, t) ↔ a = b ∧ s = t := by
  show Except.ok (a, s) = .ok (b, t) ↔ _
  rw [Except.ok.injEq, Prod.mk.injEq]

theorem stateLift_ok {x : Except ε α} {a : α} : (liftM x : StateT σ (Except ε) α) s = .ok (a, t) ↔ x = .ok a ∧ s = t := by
  cases x with
  | error e => exact ⟨fun ok => (by cases ok), fun ok => (by cases ok.1)⟩
  | ok v =>
      show Except.ok (v, s) = .ok (a, t) ↔ _
      simp

end Bodies

section Sampled
variable {ρ : Type} {sampleDiscreteGaussianCentered : ℚ → ℚ → Sampler ρ Int}

theorem sampleChildIntegral {tree : FalconTree} {depth : Nat} {t0 t1 z0 z1 : RealPoly} {rng rng' : ρ}
    (ok : sampleChild sampleDiscreteGaussianCentered tree (2 ^ depth) t0 t1 rng = .ok ((z0, z1), rng')) :
    Integral (2 ^ depth) z0 ∧ Integral (2 ^ depth) z1 := by
  induction tree generalizing depth t0 t1 z0 z1 rng rng' with
  | leaf sigma =>
      simp only [sampleChild, stateBind_ok, statePure_ok, stateLift_ok, throwIf_ok] at ok
      obtain ⟨_, _, ⟨deep, rfl⟩, _, _, ⟨_, rfl⟩, d0, _, _, d1, _, _, same, _⟩ := ok
      obtain ⟨rfl, rfl⟩ := Prod.mk.inj same
      have one : 2 ^ depth = 1 := not_not.mp deep
      rw [one]
      exact ⟨⟨[d0], rfl, rfl⟩, ⟨[d1], rfl, rfl⟩⟩
  | node ell left right ihLeft ihRight =>
      simp only [sampleChild, stateBind_ok, statePure_ok, stateLift_ok, throwIf_ok] at ok
      obtain ⟨_, _, ⟨deep, rfl⟩, _, _, _, _, _, _, ⟨inner10, inner11⟩, _, right1, merged1, _, ⟨joined1, rfl⟩, _, _, _, _, _, _,
        _, _, _, _, _, _, ⟨inner00, inner01⟩, _, left0, merged0, _, ⟨joined0, rfl⟩, same, _⟩ := ok
      obtain ⟨rfl, rfl⟩ := Prod.mk.inj same
      cases depth with
      | zero => exact absurd rfl deep
      | succ half =>
          have halved : 2 ^ (half + 1) / 2 = 2 ^ half := by rw [pow_succ, Nat.mul_div_cancel _ (by decide)]
          rw [halved] at right1 left0
          obtain ⟨whole10, whole11⟩ := ihRight right1
          obtain ⟨whole00, whole01⟩ := ihLeft left0
          rw [pow_succ, mul_comm]
          exact ⟨mergeIntegral whole00 whole01 joined0, mergeIntegral whole10 whole11 joined1⟩

theorem ffSamplingIntegral {value : RealPoly} {left right : FalconTree} {depth : Nat} {t0 t1 z0 z1 : RealPoly} {rng rng' : ρ}
    (ok : ffSampling sampleDiscreteGaussianCentered t0 t1 value left right (2 ^ depth) rng = .ok ((z0, z1), rng')) :
    Integral (2 ^ depth) z0 ∧ Integral (2 ^ depth) z1 := by
  simp only [ffSampling, stateBind_ok, stateLift_ok] at ok
  obtain ⟨_, _, _, sampled⟩ := ok
  exact sampleChildIntegral sampled

end Sampled
end TradeP2P.Blns7933
