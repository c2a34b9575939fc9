import TradeP2P.Blind.Sampling
import Mathlib.Data.Nat.Size

/-! The integer ring of the trapdoor, half a degree at a time: conjugation, the norm into the ring of half
the degree, the way back, and the relation a trapdoor has to meet. -/
namespace TradeP2P.Blns7933
open Checks
open Coefficients (Negacyclic element elementInj elementModify rootPow value)

abbrev ZPoly := List Int

structure NTRUSolution where
  capF : ZPoly
  capG : ZPoly
  deriving DecidableEq, Repr

def isPowerOfTwo (value : Nat) : Bool := value ≠ 0 ∧ value &&& (value - 1) = 0

def bigintBitLength (value : Int) : Nat := value.natAbs.size

def maxCoefficientBitLength (poly : ZPoly) : Nat := poly.foldl (fun result c => max result (bigintBitLength c)) 0

namespace IntegerRing

def make (degree : Nat) : Except Error Unit := throwIf (degree = 0) (.invalidArgument "BLNS7933 integer ring degree must be non-zero")

variable (degree : Nat)

def size (a : ZPoly) : Except Error ZPoly := canonicalSize integerTooLong degree a
def sub (a b : ZPoly) : Except Error ZPoly := exactSub integerTooLong degree a b
def mul (a b : ZPoly) : Except Error ZPoly := exactMul integerTooLong degree a b

def turnOdd (a : ZPoly) : ZPoly := a.mapIdx fun i c => if i % 2 = 1 then -c else c

def conjugate (a : ZPoly) : Except Error ZPoly := do
  let out ← size degree a
  return turnOdd out

def evens (a : ZPoly) : ZPoly := (List.range (degree / 2)).map fun i => a.getD (2 * i) 0

def fieldNorm (a : ZPoly) : Except Error ZPoly := do
  throwIf (degree < 2 ∨ isPowerOfTwo degree = false) (.invalidArgument "field_norm requires a power-of-two degree >= 2")
  let aa ← size degree a
  let product ← mul degree aa (← conjugate degree aa)
  throwIf (∃ i ∈ List.range degree, i % 2 = 1 ∧ product.getD i 0 ≠ 0)
    (.logicError "field_norm produced a non-zero odd coefficient")
  return evens degree product

def spreadOut (half : ZPoly) : ZPoly :=
  (List.range half.length).foldl (fun out i => out.set (2 * i) (half.getD i 0)) (List.replicate degree 0)

def embedHalf (half : ZPoly) : Except Error ZPoly := do
  throwIf (degree < 2 ∨ isPowerOfTwo degree = false) (.invalidArgument "embed_half requires a power-of-two degree >= 2")
  throwIf (half.length > degree / 2) (.invalidArgument "half-size polynomial exceeds degree/2")
  return spreadOut degree half

end IntegerRing

def ntruRelationLhs (f g capF capG : ZPoly) (degree : Nat) : Except Error ZPoly := do
  IntegerRing.make degree
  IntegerRing.sub degree (← IntegerRing.mul degree f capG) (← IntegerRing.mul degree g capF)

def verifyNtruRelationExact (f g capF capG : ZPoly) (q : Int) (degree : Nat) : Except Error Bool :=
  if degree = 0 then .ok false
  else do
    let lhs ← ntruRelationLhs f g capF capG degree
    return lhs = (List.replicate degree 0).set 0 q

/-! What the relation says: one equation between elements of the ring. -/
section Relation
variable {degree : Nat} {f g : ZPoly} {q : Int}

theorem isPowerOfTwoPositive (power : isPowerOfTwo degree = true) : 0 < degree := by
  have apart := (of_decide_eq_true power).1
  omega

theorem constantElement (positive : 0 < degree) (q : Int) :
    element degree ((List.replicate degree 0).set 0 q) = AdjoinRoot.of (Polynomial.X ^ degree + 1 : Polynomial ℤ) q := by
  obtain ⟨rest, rfl⟩ := Nat.exists_eq_succ_of_ne_zero positive.ne'
  simp [element, List.replicate_succ]

structure NTRUSolution.Fits (degree : Nat) (s : NTRUSolution) : Prop where
  capF : s.capF.length ≤ degree
  capG : s.capG.length ≤ degree

/- `f * G - g * F = q`. -/
def NTRUSolution.Solves (degree : Nat) (f g : ZPoly) (q : Int) (s : NTRUSolution) : Prop :=
  element degree f * element degree s.capG - element degree g * element degree s.capF =
    AdjoinRoot.of (Polynomial.X ^ degree + 1 : Polynomial ℤ) q

theorem verifyTotal (positive : 0 < degree) {s : NTRUSolution} (shortF : f.length ≤ degree) (shortG : g.length ≤ degree) (fits : s.Fits degree) :
    ∃ holds, verifyNtruRelationExact f g s.capF s.capG q degree = .ok holds ∧ (holds = true ↔ s.Solves degree f g q) := by
  obtain ⟨fG, left⟩ := exactMulTotal integerTooLong shortF fits.capG
  obtain ⟨gF, right⟩ := exactMulTotal integerTooLong shortG fits.capF
  obtain ⟨widthL, worthL⟩ := exactMulMeaning left
  obtain ⟨widthR, worthR⟩ := exactMulMeaning right
  obtain ⟨lhs, difference⟩ := exactSubTotal integerTooLong widthL.le widthR.le
  obtain ⟨width, worth⟩ := exactSubMeaning difference
  refine ⟨decide (lhs = (List.replicate degree 0).set 0 q), ?_, ?_⟩
  · simp only [verifyNtruRelationExact, if_neg positive.ne', ntruRelationLhs, IntegerRing.make, IntegerRing.mul, IntegerRing.sub,
      throwIf_not positive.ne', left, right, difference, bind, Except.bind]
    rfl
  · rw [decide_eq_true_iff, NTRUSolution.Solves, ← worthL, ← worthR, ← worth, ← constantElement positive]
    exact ⟨fun same => by rw [same], fun same => elementInj positive width (by simp) same⟩

theorem verifyOk (positive : 0 < degree) {s : NTRUSolution} : verifyNtruRelationExact f g s.capF s.capG q degree = .ok true ↔
    f.length ≤ degree ∧ g.length ≤ degree ∧ s.Fits degree ∧ s.Solves degree f g q := by
  constructor
  · intro ok
    have parts := ok
    simp only [verifyNtruRelationExact, if_neg positive.ne', ntruRelationLhs, IntegerRing.mul, IntegerRing.sub, bind_ok,
      exactMulOk] at parts
    obtain ⟨lhs, ⟨_, _, fG, ⟨_, sizeF, _, sizeG', _⟩, gF, ⟨_, sizeG, _, sizeF', _⟩, _⟩, _⟩ := parts
    have shortF := (canonicalSizeOk.mp sizeF).1
    have shortG := (canonicalSizeOk.mp sizeG).1
    have fits : s.Fits degree := ⟨(canonicalSizeOk.mp sizeF').1, (canonicalSizeOk.mp sizeG').1⟩
    obtain ⟨holds, same, meaning⟩ := verifyTotal positive shortF shortG fits (q := q)
    rw [ok] at same
    exact ⟨shortF, shortG, fits, meaning.mp (Except.ok.inj same).symm⟩
  · rintro ⟨shortF, shortG, fits, solves⟩
    obtain ⟨holds, same, meaning⟩ := verifyTotal positive shortF shortG fits (q := q)
    rw [same, meaning.mpr solves]

end Relation
end TradeP2P.Blns7933
