import Mathlib.Algebra.Order.Field.Basic
import Mathlib.Data.Matrix.Reflection
import Mathlib.Tactic.LinearCombination
import Mathlib.Tactic.Linarith

/-! Positive hermitian forms of one and of two variables, over a commutative ring with an involution and with a trace into an
ordered field. A form of two variables has a Schur complement; a form of one variable over a ring is one of two variables
over a ring of half the degree. -/
namespace Forms

structure Conjugation (R K : Type) [CommRing R] [Field K] where
  adjoint : R →+* R
  twice : ∀ a, adjoint (adjoint a) = a
  trace : R →+ K

structure Gram (R : Type) where
  g00 : R
  g01 : R
  g10 : R
  g11 : R

def Gram.matrix {R : Type} (g : Gram R) : Matrix (Fin 2) (Fin 2) R := !![g.g00, g.g01; g.g10, g.g11]

section Definite
variable {R K : Type} [CommRing R] [Field K] [LinearOrder K] (c : Conjugation R K)

structure Positive (d : R) : Prop where
  self : c.adjoint d = d
  positive : ∀ u, u ≠ 0 → 0 < c.trace (u * c.adjoint u * d)

def Gram.form (g : Gram R) (u v : R) : R :=
  u * c.adjoint u * g.g00 + u * c.adjoint v * g.g01 + v * c.adjoint u * g.g10 + v * c.adjoint v * g.g11

structure Gram.Positive (g : Gram R) : Prop where
  first : c.adjoint g.g00 = g.g00
  cross : c.adjoint g.g01 = g.g10
  last : c.adjoint g.g11 = g.g11
  positive : ∀ u v, u ≠ 0 ∨ v ≠ 0 → 0 < c.trace (g.form c u v)

/- The matrix of the rows `(g, -f)` and `(h, -k)` times its adjoint. -/
def gramOf (f g k h : R) : Gram R where
  g00 := g * c.adjoint g + f * c.adjoint f
  g01 := g * c.adjoint h + f * c.adjoint k
  g10 := h * c.adjoint g + k * c.adjoint f
  g11 := h * c.adjoint h + k * c.adjoint k

variable {c} {d l : R} {g : Gram R}

theorem Positive.cancels (definite : Positive c d) {w : R} (zero : d * w = 0) : w = 0 := by
  by_contra some_
  have positive := definite.positive w some_
  have nothing : w * c.adjoint w * d = 0 := by linear_combination c.adjoint w * zero
  rw [nothing, map_zero] at positive
  exact lt_irrefl 0 positive

theorem Gram.Positive.diagonal (definite : g.Positive c) : Forms.Positive c g.g00 := by
  refine ⟨definite.first, fun u some_ => ?_⟩
  have positive := definite.positive u 0 (.inl some_)
  have same : g.form c u 0 = u * c.adjoint u * g.g00 := by simp [Gram.form]
  rwa [same] at positive

theorem Gram.Positive.crossBack (definite : g.Positive c) : c.adjoint g.g10 = g.g01 := by
  rw [← definite.cross, c.twice]

theorem Gram.Positive.quotientBack (definite : g.Positive c) (quotient : l * g.g00 = g.g10) : c.adjoint l * g.g00 = g.g01 := by
  have turned := congrArg c.adjoint quotient
  rwa [map_mul, definite.first, definite.crossBack] at turned

/- The Schur complement is the form where it is smallest. -/
theorem Gram.Positive.complement (definite : g.Positive c) (quotient : l * g.g00 = g.g10) :
    Forms.Positive c (g.g11 - l * c.adjoint l * g.g00) := by
  have back := definite.quotientBack quotient
  refine ⟨?_, fun v some_ => ?_⟩
  · rw [map_sub, map_mul, map_mul, definite.last, definite.first, c.twice]
    ring
  · have positive := definite.positive (-(v * l)) v (.inr some_)
    have same : g.form c (-(v * l)) v = v * c.adjoint v * (g.g11 - l * c.adjoint l * g.g00) := by
      simp only [Gram.form, map_neg, map_mul]
      linear_combination (v * c.adjoint v * l) * back + (v * c.adjoint v * c.adjoint l) * quotient
    rwa [same] at positive

theorem Gram.Positive.factors (definite : g.Positive c) (quotient : l * g.g00 = g.g10) :
    !![1, 0; l, 1] * !![g.g00, 0; 0, g.g11 - l * c.adjoint l * g.g00] * !![1, c.adjoint l; 0, 1] = g.matrix := by
  have back := definite.quotientBack quotient
  have corner : l * g.g00 * c.adjoint l + (g.g11 - l * c.adjoint l * g.g00) = g.g11 := by ring
  have cross : g.g00 * c.adjoint l = g.g01 := by rw [mul_comm, back]
  simp [Gram.matrix, cross, corner]
  exact quotient

/- The square is completed: the first variable is moved by the second. -/
theorem Gram.Positive.completed (definite : g.Positive c) (quotient : l * g.g00 = g.g10) (u v : R) :
    g.form c u v = (u + v * l) * c.adjoint (u + v * l) * g.g00 + v * c.adjoint v * (g.g11 - l * c.adjoint l * g.g00) := by
  have back := definite.quotientBack quotient
  simp only [Gram.form, map_add, map_mul]
  linear_combination -(u * c.adjoint v) * back - v * c.adjoint u * quotient

variable [IsStrictOrderedRing K]

/- A form that comes from a basis is a sum of two squares. -/
omit [LinearOrder K] [IsStrictOrderedRing K] in
theorem gramForm (f g k h u v : R) : (gramOf c f g k h).form c u v =
    (u * g + v * h) * c.adjoint (u * g + v * h) + (u * f + v * k) * c.adjoint (u * f + v * k) := by
  simp only [gramOf, Gram.form, map_add, map_mul]
  ring

/- A basis whose determinant is not a divisor of zero has a positive form. -/
theorem gramPositive (definite : ∀ a, a ≠ 0 → 0 < c.trace (a * c.adjoint a)) {f g k h : R}
    (independent : ∀ w, (f * h - g * k) * w = 0 → w = 0) : (gramOf c f g k h).Positive c := by
  have square (a : R) : 0 ≤ c.trace (a * c.adjoint a) := by
    by_cases zero : a = 0
    · rw [zero, zero_mul, map_zero]
    · exact (definite a zero).le
  refine ⟨?_, ?_, ?_, fun u v some_ => ?_⟩
  · simp only [gramOf, map_add, map_mul, c.twice]
    ring
  · simp only [gramOf, map_add, map_mul, c.twice]
    ring
  · simp only [gramOf, map_add, map_mul, c.twice]
    ring
  · rw [gramForm, map_add]
    by_cases first : u * g + v * h = 0
    · by_cases second : u * f + v * k = 0
      · have u0 : u = 0 := independent u (by linear_combination h * second - k * first)
        have v0 : v = 0 := independent v (by linear_combination f * first - g * second)
        exact absurd some_ (by simp [u0, v0])
      · exact add_pos_of_nonneg_of_pos (square _) (definite _ second)
    · exact add_pos_of_pos_of_nonneg (definite _ first) (square _)

/- Two elements that nothing else takes to zero at once: the sum of their squares takes nothing else there either. -/
theorem squaresCancel (definite : ∀ a, a ≠ 0 → 0 < c.trace (a * c.adjoint a)) {f g : R} (apart : ∀ w, w * f = 0 → w * g = 0 → w = 0)
    {w : R} (zero : (f * c.adjoint f + g * c.adjoint g) * w = 0) : w = 0 := by
  have square (a : R) : 0 ≤ c.trace (a * c.adjoint a) := by
    by_cases none_ : a = 0
    · rw [none_, zero_mul, map_zero]
    · exact (definite a none_).le
  have whole : c.trace (w * f * c.adjoint (w * f)) + c.trace (w * g * c.adjoint (w * g)) = 0 := by
    have same : w * f * c.adjoint (w * f) + w * g * c.adjoint (w * g) = 0 := by
      simp only [map_mul]
      linear_combination c.adjoint w * zero
    rw [← map_add, same, map_zero]
  have vanishes {a : R} (none_ : c.trace (a * c.adjoint a) = 0) : a = 0 := by
    by_contra some_
    exact (definite a some_).ne' none_
  have first := square (w * f)
  have second := square (w * g)
  exact apart w (vanishes (by linarith)) (vanishes (by linarith))

/-! What is left of a pair after a multiple of another one is taken off it. -/

def farness (c : Conjugation R K) (f g k h w : R) : K :=
  c.trace ((k - w * f) * c.adjoint (k - w * f)) + c.trace ((h - w * g) * c.adjoint (h - w * g))

omit [LinearOrder K] [IsStrictOrderedRing K] in
theorem traceSwapped (turned : ∀ a, c.trace (c.adjoint a) = c.trace a) (u v : R) : c.trace (u * c.adjoint v) = c.trace (v * c.adjoint u) := by
  rw [← turned, map_mul, c.twice, mul_comm]

/- Where the rest is orthogonal to every multiple, no other multiple leaves less. -/
theorem nearest (turned : ∀ a, c.trace (c.adjoint a) = c.trace a) (square : ∀ a, 0 ≤ c.trace (a * c.adjoint a)) {f g k h w : R}
    (orthogonal : ∀ u, c.trace (u * f * c.adjoint (k - w * f)) + c.trace (u * g * c.adjoint (h - w * g)) = 0) (w' : R) :
    farness c f g k h w ≤ farness c f g k h w' := by
  have parts (f k : R) : c.trace ((k - w' * f) * c.adjoint (k - w' * f)) = c.trace ((k - w * f) * c.adjoint (k - w * f)) +
      2 * c.trace ((w - w') * f * c.adjoint (k - w * f)) + c.trace ((w - w') * f * c.adjoint ((w - w') * f)) := by
    have cross := traceSwapped turned (k - w * f) ((w - w') * f)
    have whole : (k - w' * f) * c.adjoint (k - w' * f) = (k - w * f) * c.adjoint (k - w * f) +
        (w - w') * f * c.adjoint (k - w * f) + (k - w * f) * c.adjoint ((w - w') * f) + (w - w') * f * c.adjoint ((w - w') * f) := by
      simp only [map_sub, map_mul]
      ring
    rw [whole, map_add, map_add, map_add, cross]
    ring
  have flat := orthogonal (w - w')
  have first := square ((w - w') * f)
  have second := square ((w - w') * g)
  rw [farness, farness, parts f k, parts g h]
  linarith

end Definite

/-! Half the degree. -/
section Halves
variable {R S K : Type} [CommRing R] [CommRing S] [Field K]

/- A ring over another one, with a square root of one of its elements. -/
structure Doubled (c : Conjugation R K) (half : Conjugation S K) where
  up : S →+* R
  x : R
  y : S
  square : x * x = up y
  unit : x * c.adjoint x = 1
  adjointUp : ∀ a, c.adjoint (up a) = up (half.adjoint a)
  traceEven : ∀ a, c.trace (up a) = half.trace a
  traceOdd : ∀ a, c.trace (x * up a) = 0
  apart : ∀ a b, up a + x * up b = 0 → a = 0 ∧ b = 0

variable {c : Conjugation R K} {half : Conjugation S K} (tower : Doubled c half)

theorem Doubled.same {a b a' b' : S} (same : tower.up a + tower.x * tower.up b = tower.up a' + tower.x * tower.up b') :
    a = a' ∧ b = b' := by
  have none_ : tower.up (a - a') + tower.x * tower.up (b - b') = 0 := by
    rw [map_sub, map_sub]
    linear_combination same
  obtain ⟨first, second⟩ := tower.apart _ _ none_
  exact ⟨sub_eq_zero.mp first, sub_eq_zero.mp second⟩

theorem Doubled.injective {a b : S} (same : tower.up a = tower.up b) : a = b := by
  have parts : tower.up a + tower.x * tower.up 0 = tower.up b + tower.x * tower.up 0 := by rw [same]
  exact (tower.same parts).1

theorem Doubled.turn : c.adjoint tower.x = tower.x * tower.up (half.adjoint tower.y) := by
  have squared : c.adjoint tower.x * c.adjoint tower.x = tower.up (half.adjoint tower.y) := by
    rw [← map_mul, tower.square, tower.adjointUp]
  linear_combination tower.x * squared - c.adjoint tower.x * tower.unit

theorem Doubled.inverse : tower.y * half.adjoint tower.y = 1 := by
  refine tower.injective ?_
  have squared := tower.turn
  rw [map_mul, ← tower.square, map_one]
  linear_combination tower.unit - tower.x * squared

/- The even and the odd part of a self-adjoint element: its conjugate, and the other off-diagonal entry. -/
theorem Doubled.parts {e o : S} (self : c.adjoint (tower.up e + tower.x * tower.up o) = tower.up e + tower.x * tower.up o) :
    half.adjoint e = e ∧ half.adjoint o = tower.y * o := by
  have parts : tower.up (half.adjoint e) + tower.x * tower.up (half.adjoint tower.y * half.adjoint o) =
      tower.up e + tower.x * tower.up o := by
    rw [map_add, map_mul, tower.adjointUp, tower.adjointUp, tower.turn] at self
    rw [map_mul]
    linear_combination self
  obtain ⟨even, odd⟩ := tower.same parts
  exact ⟨even, by linear_combination tower.y * odd - half.adjoint o * tower.inverse⟩

/- The form of one variable is that of its parts. -/
theorem Doubled.traced {e o : S} (self : c.adjoint (tower.up e + tower.x * tower.up o) = tower.up e + tower.x * tower.up o) (u v : S) :
    c.trace ((tower.up u + tower.x * tower.up v) * c.adjoint (tower.up u + tower.x * tower.up v) * (tower.up e + tower.x * tower.up o)) =
      half.trace ((⟨e, o, half.adjoint o, e⟩ : Gram S).form half u v) := by
  obtain ⟨_, shifted⟩ := tower.parts self
  have split : (tower.up u + tower.x * tower.up v) * c.adjoint (tower.up u + tower.x * tower.up v) *
      (tower.up e + tower.x * tower.up o) = tower.up ((⟨e, o, half.adjoint o, e⟩ : Gram S).form half u v) +
        tower.x * tower.up ((u * half.adjoint u + v * half.adjoint v) * o +
          (v * half.adjoint u + half.adjoint tower.y * u * half.adjoint v) * e) := by
    have square := tower.square
    have inverse := congrArg tower.up tower.inverse
    have cross := congrArg tower.up shifted
    simp only [Gram.form, map_add, map_mul, map_one, tower.adjointUp, tower.turn] at inverse cross ⊢
    linear_combination
      (tower.up v * tower.up (half.adjoint v) * tower.up (half.adjoint tower.y) * (tower.up e + tower.x * tower.up o) +
        tower.up u * tower.up (half.adjoint v) * tower.up (half.adjoint tower.y) * tower.up o +
        tower.up v * tower.up (half.adjoint u) * tower.up o) * square +
      (tower.up v * tower.up (half.adjoint v) * (tower.up e + tower.x * tower.up o) +
        tower.up u * tower.up (half.adjoint v) * tower.up o) * inverse - tower.up v * tower.up (half.adjoint u) * cross
  rw [split, map_add, tower.traceEven, tower.traceOdd, add_zero]

variable [LinearOrder K]

/- The even and the odd part of a positive element are a positive form of two variables. -/
theorem Doubled.halves {e o : S} (definite : Positive c (tower.up e + tower.x * tower.up o)) :
    (⟨e, o, half.adjoint o, e⟩ : Gram S).Positive half := by
  obtain ⟨even, _⟩ := tower.parts definite.self
  refine ⟨even, rfl, even, fun u v some_ => ?_⟩
  have apart : tower.up u + tower.x * tower.up v ≠ 0 := by
    intro zero
    obtain ⟨u0, v0⟩ := tower.apart _ _ zero
    exact absurd some_ (by simp [u0, v0])
  have positive := definite.positive _ apart
  rwa [tower.traced definite.self] at positive

end Halves
end Forms
