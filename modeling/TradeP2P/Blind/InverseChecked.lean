import TradeP2P.Blind.Inverse

/-! Inversion once more, with every sum, difference and product looked at: one that does not fit 64 bits is a
fault. With a prime whose square fits there is none. -/
namespace TradeP2P.Blns7933
open Checks
open Elimination (setRow)

inductive Fault where
  | overflow
  | thrown (e : Error)

namespace Checked

def fits (x : Int) : Except Fault Int := if -2 ^ 63 ≤ x ∧ x < 2 ^ 63 then .ok x else .error .overflow

def scalarMod (x : Int) (q : Nat) : Except Fault Int := do
  let remainder := x.tmod q
  if remainder < 0 then fits (remainder + q) else return remainder

def scalarInverseLoop : Nat → Int → Int → Int → Int → Except Fault (Option Int)
  | 0, _, _, _, _ => .ok none
  | rounds + 1, t, newT, r, newR =>
      if newR = 0 then .ok (if r = 1 then some t else none)
      else do
        let quotient ← fits (r.tdiv newR)
        let stepT ← fits (quotient * newT)
        let nextT ← fits (t - stepT)
        let stepR ← fits (quotient * newR)
        let nextR ← fits (r - stepR)
        scalarInverseLoop rounds newT nextT newR nextR

def scalarInverse (a : Int) (q : Nat) : Except Fault (Option Int) := do
  let a ← scalarMod a q
  match ← scalarInverseLoop (q + 1) 0 1 q a with
  | none => return none
  | some t => return some (← scalarMod t q)

section Ring
variable (ring : RingArithmetic)

def mod (x : Int) : Except Fault Int := scalarMod x ring.modulus

def canonicalize (a : PolyQ) : Except Fault PolyQ := do
  throwIf (a.length > ring.degree) (.thrown (.invalidArgument "input polynomial exceeds ring degree"))
  let out ← a.mapM (mod ring)
  return out ++ List.replicate (ring.degree - a.length) 0

def update (out : PolyQ) (k : Nat) (f : Int → Except Fault Int) : Except Fault PolyQ := do
  let w ← f (out.getD k 0)
  return out.set k w

def place (out : PolyQ) (k : Nat) (product : Int) : Except Fault PolyQ :=
  if k < ring.degree then update out k fun v => do mod ring (← fits (v + product))
  else update out (k - ring.degree) fun v => do mod ring (← fits (v - product))

def mulRow (aa bb out : PolyQ) (i : Nat) : Except Fault PolyQ :=
  (List.range ring.degree).foldlM (fun out j => do
    let product ← fits (aa.getD i 0 * bb.getD j 0)
    place ring out (i + j) product) out

def mul (a b : PolyQ) : Except Fault PolyQ := do
  let aa ← canonicalize ring a
  let bb ← canonicalize ring b
  (List.range ring.degree).foldlM (mulRow ring aa bb) (List.replicate ring.degree 0)

def equal (a b : PolyQ) : Except Fault Bool := do
  let aa ← canonicalize ring a
  let bb ← canonicalize ring b
  return aa = bb

def augmented (aa : PolyQ) : Except Fault RingArithmetic.Matrix := do
  let images ← (List.range ring.degree).mapM fun col => mul ring aa (ring.basis col)
  return (List.range ring.degree).map fun row =>
    images.map (fun image => image.getD row 0) ++ [if row = 0 then 1 else 0]

def scaleRow (factor : Int) (from_ : Nat) (row : List Int) : Except Fault (List Int) :=
  (List.range row.length).mapM fun j =>
    if from_ ≤ j then do mod ring (← fits (row.getD j 0 * factor)) else .ok (row.getD j 0)

def subtractRow (factor : Int) (from_ : Nat) (pivot row : List Int) : Except Fault (List Int) :=
  (List.range row.length).mapM fun j =>
    if from_ ≤ j then do
      let product ← fits (factor * pivot.getD j 0)
      mod ring (← fits (row.getD j 0 - product))
    else .ok (row.getD j 0)

def clearColumn (scaled : RingArithmetic.Matrix) (col : Nat) : Except Fault RingArithmetic.Matrix :=
  (List.range scaled.length).mapM fun row =>
    if row = col ∨ (scaled.getD row []).getD col 0 = 0 then .ok (scaled.getD row [])
    else subtractRow ring ((scaled.getD row []).getD col 0) col (scaled.getD col []) (scaled.getD row [])

def eliminateColumn (m : RingArithmetic.Matrix) (col : Nat) : Except Fault (Option RingArithmetic.Matrix) :=
  match ((List.range ring.degree).filter fun row => col ≤ row ∧ RingArithmetic.entry m row col ≠ 0).head? with
  | none => .ok none
  | some pivot => do
      let swapped := (m.set pivot (m.getD col [])).set col (m.getD pivot [])
      match ← scalarInverse (RingArithmetic.entry swapped col col) ring.modulus with
      | none => return none
      | some inverse =>
          let pivotRow ← scaleRow ring inverse col (swapped.getD col [])
          return some (← clearColumn ring (swapped.set col pivotRow) col)

def eliminate : List Nat → RingArithmetic.Matrix → Except Fault (Option RingArithmetic.Matrix)
  | [], m => .ok (some m)
  | col :: rest, m => do
      match ← eliminateColumn ring m col with
      | none => return none
      | some m' => eliminate rest m'

def inverse (a : PolyQ) : Except Fault (Option PolyQ) := do
  let aa ← canonicalize ring a
  let start ← augmented ring aa
  match ← eliminate ring (List.range ring.degree) start with
  | none => return none
  | some reduced =>
      let result := reduced.map fun row => row.getD ring.degree 0
      let product ← mul ring aa result
      let one ← equal ring product (ring.basis 0)
      throwIf (one = false) (.thrown (.logicError "BLNS7933 reference inversion self-check failed"))
      return some result

end Ring

/-! No check fails: a run with checks is the run without them. -/

theorem fitsOk {x : Int} (low : -2 ^ 63 ≤ x) (high : x < 2 ^ 63) : fits x = .ok x := if_pos ⟨low, high⟩

theorem scalarModOk {q : Nat} (positive : 0 < q) (word : (q : Int) * q < 2 ^ 63) (x : Int) :
    scalarMod x q = .ok (Blns7933.scalarMod x q) := by
  have low := Int.lt_tmod_of_pos x (Int.natCast_pos.mpr positive)
  have short : (q : Int) < 2 ^ 63 := by nlinarith
  unfold scalarMod Blns7933.scalarMod
  by_cases negative : x.tmod q < 0
  · simp only [if_pos negative]
    exact fitsOk (by omega) (by omega)
  · simp only [if_neg negative]
    rfl

/- The coefficients stay below the modulus, whatever the quotients are. -/
theorem scalarInverseLoopOk {q : Nat} {a : Int} (word : (q : Int) * q < 2 ^ 63) (rounds : Nat) {t newT r newR : Int}
    (euclid : Euclid q a t newT r newR) :
    scalarInverseLoop rounds t newT r newR = .ok (Blns7933.scalarInverseLoop rounds t newT r newR) := by
  induction rounds generalizing t newT r newR with
  | zero => rfl
  | succ rounds ih =>
      unfold scalarInverseLoop Blns7933.scalarInverseLoop
      by_cases last : newR = 0
      · rw [if_pos last, if_pos last]
      rw [if_neg last, if_neg last]
      have next := euclid.next last
      have positive := euclid.positive
      have more : 0 < newR := next.positive
      have quotient := euclid.quotientNonneg
      have sum := euclid.sum
      have short : (q : Int) < 2 ^ 63 := by nlinarith
      have bounds := euclid.bounds
      have rest := euclid.remainder
      have restNonneg := next.nonneg
      have wide : |t| + r.tdiv newR * |newT| ≤ q := by
        have whole := next.sum
        rw [euclid.nextSize] at whole
        nlinarith [mul_nonneg restNonneg (abs_nonneg newT), mul_nonneg quotient (abs_nonneg newT), abs_nonneg t]
      have stepT : |r.tdiv newR * newT| = r.tdiv newR * |newT| := by rw [abs_mul, abs_of_nonneg quotient]
      have nextT := euclid.nextSize
      have fromT := abs_nonneg t
      have quotientSmall : r.tdiv newR ≤ r.tdiv newR * newR := by nlinarith
      have stepTFits := abs_le.mp (by linarith : |r.tdiv newR * newT| ≤ q)
      have nextTFits := abs_le.mp (by linarith : |t - r.tdiv newR * newT| ≤ q)
      rw [fitsOk (by omega) (by omega), bind_next, fitsOk (by omega) (by omega), bind_next, fitsOk (by omega) (by omega), bind_next,
        fitsOk (by omega) (by omega), bind_next, fitsOk (by omega) (by omega), bind_next]
      exact ih next

theorem scalarInverseOk {q : Nat} (prime : q.Prime) (word : (q : Int) * q < 2 ^ 63) {a : Int} (positive : 0 < a) (small : a < q) :
    scalarInverse a q = .ok (Blns7933.scalarInverse a q) := by
  have same : Blns7933.scalarMod a q = a := by rw [scalarModEmod prime.pos, Int.emod_eq_of_lt positive.le small]
  rw [scalarInverse, scalarModOk prime.pos word, bind_next, same, scalarInverseLoopOk word _ (startEuclid prime positive small), bind_next,
    Blns7933.scalarInverse, same]
  cases Blns7933.scalarInverseLoop (q + 1) 0 1 q a with
  | none => rfl
  | some t =>
      show (do return some (← scalarMod t q) : Except Fault (Option Int)) = _
      rw [scalarModOk prime.pos word, bind_next]
      rfl

section Agree
variable {ring : RingArithmetic} (word : (ring.modulus : Int) * ring.modulus < 2 ^ 63) {aa bb : PolyQ}
include word

theorem modOk (x : Int) : mod ring x = .ok (ring.mod x) := scalarModOk (by have := ring.large; omega) word x

theorem canonicalizeSame {a : PolyQ} (ok : ring.canonicalize a = .ok aa) : canonicalize ring a = .ok aa := by
  obtain ⟨short, rfl⟩ := canonicalizeOk.mp ok
  rw [canonicalize, throwIf_not (by omega), bind_next, mapM_ok fun x _ => modOk word x]
  rfl

omit word in
theorem updateOk {out : PolyQ} {k : Nat} (inside : k < out.length) {f : Int → Except Fault Int} {g : Int → Int}
    (same : f (out.getD k 0) = .ok (g (out.getD k 0))) : update out k f = .ok (out.modify k g) := by
  rw [update, same, bind_next, Coefficients.modifySet inside g 0]
  rfl

omit word in
theorem productSmall {x y : Int} (left : Reduced ring x) (right : Reduced ring y) :
    0 ≤ x * y ∧ x * y ≤ (ring.modulus - 1) * (ring.modulus - 1) := by
  obtain ⟨lowX, highX⟩ := left
  obtain ⟨lowY, highY⟩ := right
  exact ⟨mul_nonneg lowX lowY, mul_le_mul (by omega) (by omega) lowY (by omega)⟩

/- A reduced coefficient and a product of two: still within the square of the modulus. -/
theorem sumFits {v product : Int} (reduced : Reduced ring v) (low : 0 ≤ product)
    (high : product ≤ (ring.modulus - 1) * (ring.modulus - 1)) :
    fits product = .ok product ∧ fits (v + product) = .ok (v + product) ∧ fits (v - product) = .ok (v - product) := by
  obtain ⟨lowV, highV⟩ := reduced
  have large := ring.large
  have square : (ring.modulus - 1 : Int) * (ring.modulus - 1) + ring.modulus ≤ ring.modulus * ring.modulus := by
    have one : (1 : Int) ≤ ring.modulus := by omega
    nlinarith
  exact ⟨fitsOk (by linarith) (by linarith), fitsOk (by linarith) (by linarith), fitsOk (by linarith) (by linarith)⟩

theorem placeOk {out : PolyQ} (canonical : Canonical ring out) {k : Nat} (inside : k < 2 * ring.degree) {product : Int} (low : 0 ≤ product)
    (high : product ≤ (ring.modulus - 1) * (ring.modulus - 1)) : place ring out k product = .ok (ring.place out k product) := by
  have width := canonical.width
  have fit (i : Nat) := sumFits word (getDReduced canonical.reduced i) low high
  unfold place RingArithmetic.place
  by_cases near : k < ring.degree
  · rw [if_pos near, if_pos near]
    exact updateOk (by omega) (by rw [(fit k).2.1, bind_next, modOk word])
  · rw [if_neg near, if_neg near]
    exact updateOk (by omega) (by rw [(fit (k - ring.degree)).2.2, bind_next, modOk word])

theorem mulCanonicalSame (left : Canonical ring aa) (right : Canonical ring bb) :
    (List.range ring.degree).foldlM (mulRow ring aa bb) (List.replicate ring.degree 0) = .ok (ring.mulCanonical aa bb) := by
  have row (out : PolyQ) (i : Nat) (mem : i ∈ List.range ring.degree) (canonical : Canonical ring out) :
      mulRow ring aa bb out i = .ok (ring.mulRow aa bb out i) ∧ Canonical ring (ring.mulRow aa bb out i) := by
    refine foldl_ok (Canonical ring) (fun out j inner canonical => ?_) canonical
    have inside : i + j < 2 * ring.degree := by
      have := List.mem_range.mp mem
      have := List.mem_range.mp inner
      omega
    have product := productSmall (getDReduced left.reduced i) (getDReduced right.reduced j)
    rw [(sumFits word (@zeroReduced ring) product.1 product.2).1, bind_next]
    exact ⟨placeOk word canonical inside product.1 product.2, (placeMeaning canonical inside _).1⟩
  exact (foldl_ok (Canonical ring) row zerosCanonical).1

theorem mulSame {a b c : PolyQ} (ok : ring.mul a b = .ok c) : mul ring a b = .ok c := by
  simp only [RingArithmetic.mul, bind_ok, pure_ok] at ok
  obtain ⟨aa, left, bb, right, rfl⟩ := ok
  rw [mul, canonicalizeSame word left, bind_next, canonicalizeSame word right, bind_next]
  exact mulCanonicalSame word (canonicalizeMeaning left).1 (canonicalizeMeaning right).1

theorem equalSame {a b : PolyQ} {same : Bool} (ok : ring.equal a b = .ok same) : equal ring a b = .ok same := by
  simp only [RingArithmetic.equal, bind_ok, pure_ok] at ok
  obtain ⟨aa, left, bb, right, rfl⟩ := ok
  rw [equal, canonicalizeSame word left, bind_next, canonicalizeSame word right, bind_next]
  rfl

theorem augmentedSame (canonical : Canonical ring aa) {start : RingArithmetic.Matrix} (ok : ring.augmented aa = .ok start) :
    augmented ring aa = .ok start := by
  have each (c : Nat) : ∃ image, ring.mul aa (ring.basis c) = .ok image := mulTotal canonical.width.le (basisCanonical c).width.le
  choose image images using each
  rw [RingArithmetic.augmented, mapM_ok (g := image) fun c _ => images c] at ok
  rw [augmented, mapM_ok (g := image) fun c _ => mulSame word (images c)]
  exact congrArg Except.ok (Except.ok.inj ok)

theorem scaleRowSame {factor : Int} (reducedFactor : Reduced ring factor) (from_ : Nat) {row : List Int} (reduced : ∀ v ∈ row, Reduced ring v) :
    scaleRow ring factor from_ row = .ok (ring.scaleRow factor from_ row) := by
  rw [scaleRow, mapM_ok (g := fun j => if from_ ≤ j then ring.mod (row.getD j 0 * factor) else row.getD j 0) fun j _ => ?_]
  · refine congrArg Except.ok (List.ext_getElem (by simp [RingArithmetic.scaleRow]) fun j left right => ?_)
    have inside : j < row.length := by simpa using left
    simp [RingArithmetic.scaleRow, inside]
  · by_cases near : from_ ≤ j
    · have product := productSmall (getDReduced reduced j) reducedFactor
      rw [if_pos near, if_pos near, (sumFits word (@zeroReduced ring) product.1 product.2).1, bind_next, modOk word]
    · rw [if_neg near, if_neg near]

theorem subtractRowSame {factor : Int} (reducedFactor : Reduced ring factor) (from_ : Nat) {pivot row : List Int}
    (reducedPivot : ∀ v ∈ pivot, Reduced ring v) (reduced : ∀ v ∈ row, Reduced ring v) :
    subtractRow ring factor from_ pivot row = .ok (ring.subtractRow factor from_ pivot row) := by
  rw [subtractRow, mapM_ok (g := fun j => if from_ ≤ j then ring.mod (row.getD j 0 - factor * pivot.getD j 0) else row.getD j 0) fun j _ => ?_]
  · refine congrArg Except.ok (List.ext_getElem (by simp [RingArithmetic.subtractRow]) fun j left right => ?_)
    have inside : j < row.length := by simpa using left
    simp [RingArithmetic.subtractRow, inside]
  · by_cases near : from_ ≤ j
    · have product := productSmall reducedFactor (getDReduced reducedPivot j)
      have fit := sumFits word (getDReduced reduced j) product.1 product.2
      rw [if_pos near, if_pos near, fit.1, bind_next, fit.2.2, bind_next, modOk word]
    · rw [if_neg near, if_neg near]

theorem clearColumnSame {m : RingArithmetic.Matrix} (shaped : Shaped ring m) {col : Nat} (inside : col < ring.degree) :
    clearColumn ring m col = .ok (m.mapIdx fun row values => if row = col ∨ values.getD col 0 = 0 then values
      else ring.subtractRow (values.getD col 0) col (m.getD col []) values) := by
  rw [clearColumn, mapM_ok (g := fun row => if row = col ∨ (m.getD row []).getD col 0 = 0 then m.getD row []
      else ring.subtractRow ((m.getD row []).getD col 0) col (m.getD col []) (m.getD row [])) fun row mem => ?_]
  · refine congrArg Except.ok (List.ext_getElem (by simp) fun r left right => ?_)
    have near : r < m.length := by simpa using left
    simp only [List.getElem_map, List.getElem_range, List.getElem_mapIdx, List.getD_eq_getElem m [] near]
  · by_cases rests : row = col ∨ (m.getD row []).getD col 0 = 0
    · rw [if_pos rests, if_pos rests]
    · rw [if_neg rests, if_neg rests]
      have near : row < ring.degree := shaped.height ▸ List.mem_range.mp mem
      exact subtractRowSame word (shaped.entryReduced row col) col (shaped.reduced _ (shaped.rowMem inside))
        (shaped.reduced _ (shaped.rowMem near))

theorem eliminateColumnSame (prime : ring.modulus.Prime) {m : RingArithmetic.Matrix} (shaped : Shaped ring m) {col : Nat}
    (inside : col < ring.degree) : eliminateColumn ring m col = .ok (ring.eliminateColumn m col) ∧
      ∀ m', ring.eliminateColumn m col = some m' → Shaped ring m' := by
  cases pivot : ((List.range ring.degree).filter fun row => decide (col ≤ row ∧ RingArithmetic.entry m row col ≠ 0)).head? with
  | none =>
      have none_ : ring.eliminateColumn m col = none := by
        simp only [RingArithmetic.eliminateColumn, pivot]
        rfl
      refine ⟨?_, fun m' is => ?_⟩
      · simp only [eliminateColumn, pivot, none_]
      · rw [none_] at is
        cases is
  | some p =>
      have found := List.mem_filter.mp (List.mem_of_head? pivot)
      have insideP := List.mem_range.mp found.1
      obtain ⟨_, apart⟩ := of_decide_eq_true found.2
      have shapedSwap := (swappedCells shaped insideP inside).1
      have own : RingArithmetic.entry ((m.set p (m.getD col [])).set col (m.getD p [])) col col = RingArithmetic.entry m p col := by
        rw [RingArithmetic.entry, setRow (by rw [List.length_set, shaped.height]; exact inside), if_pos rfl]
        rfl
      generalize swappedIs : (m.set p (m.getD col [])).set col (m.getD p []) = swap at shapedSwap own
      have reduced := shapedSwap.entryReduced col col
      have positive : 0 < RingArithmetic.entry swap col col := lt_of_le_of_ne reduced.1 (by rw [own]; exact Ne.symm apart)
      have checkedInverse := scalarInverseOk prime word positive reduced.2
      cases inverted : Blns7933.scalarInverse (RingArithmetic.entry swap col col) ring.modulus with
      | none =>
          have none_ : ring.eliminateColumn m col = none := by
            simp only [RingArithmetic.eliminateColumn, pivot, Option.bind_eq_bind, Option.bind_some, swappedIs, inverted]
            rfl
          refine ⟨?_, fun m' is => ?_⟩
          · simp only [eliminateColumn, pivot, swappedIs, checkedInverse, inverted, none_]
            rfl
          · rw [none_] at is
            cases is
      | some inv =>
          have reducedInv : Reduced ring inv := by
            obtain ⟨t, _, rfl⟩ := Option.map_eq_some_iff.mp inverted
            exact modReduced t
          have row := shapedSwap.reduced _ (shapedSwap.rowMem inside)
          have shapedScale := scaledShaped shapedSwap inside inv
          have scaled : swap.set col (ring.scaleRow inv col (swap.getD col [])) = swap.modify col (ring.scaleRow inv col) :=
            (Coefficients.modifySet (by rw [shapedSwap.height]; exact inside) _ []).symm
          have cleared := clearColumnSame word shapedScale inside
          have some_ : ring.eliminateColumn m col = some ((swap.modify col (ring.scaleRow inv col)).mapIdx fun row values =>
              if row = col ∨ values.getD col 0 = 0 then values
              else ring.subtractRow (values.getD col 0) col ((swap.modify col (ring.scaleRow inv col)).getD col []) values) := by
            simp only [RingArithmetic.eliminateColumn, pivot, Option.bind_eq_bind, Option.bind_some, swappedIs, inverted]
            rfl
          refine ⟨?_, fun m' is => ?_⟩
          · simp only [eliminateColumn, pivot, swappedIs, checkedInverse, inverted, bind_next, scaleRowSame word reducedInv col row, scaled,
              cleared, some_]
            rfl
          · rw [some_] at is
            cases is
            exact subtractedShaped shapedScale col _

theorem eliminateSame (prime : ring.modulus.Prime) (cols : List Nat) (within : ∀ col ∈ cols, col < ring.degree)
    {m : RingArithmetic.Matrix} (shaped : Shaped ring m) : eliminate ring cols m = .ok (cols.foldlM ring.eliminateColumn m) := by
  induction cols generalizing m with
  | nil => rfl
  | cons col rest ih =>
      obtain ⟨same, keeps⟩ := eliminateColumnSame word prime shaped (within col List.mem_cons_self)
      rw [eliminate, same, bind_next, List.foldlM_cons]
      cases stepped : ring.eliminateColumn m col with
      | none => rfl
      | some m' => exact ih (fun c mem => within c (List.mem_cons_of_mem col mem)) (keeps m' stepped)

theorem inverseSame (prime : ring.modulus.Prime) {a : PolyQ} {found : Option PolyQ} (ok : ring.inverse a = .ok found) :
    inverse ring a = .ok found := by
  simp only [RingArithmetic.inverse, bind_ok] at ok
  obtain ⟨aa, canonicalized, start, made, rest⟩ := ok
  obtain ⟨canonical, _⟩ := canonicalizeMeaning canonicalized
  obtain ⟨other, image, madeAgain, augmentedStart⟩ := augmentedMeaning canonical
  have same : other = start := Except.ok.inj (madeAgain.symm.trans made)
  have shaped : Shaped ring start := same ▸ augmentedStart.shaped
  have swept := eliminateSame word prime (List.range ring.degree) (fun col mem => List.mem_range.mp mem) shaped
  rw [inverse, canonicalizeSame word canonicalized, bind_next, augmentedSame word canonical made, bind_next, swept, bind_next]
  cases ran : (List.range ring.degree).foldlM ring.eliminateColumn start with
  | none =>
      rw [ran] at rest
      exact congrArg Except.ok (Except.ok.inj rest)
  | some reduced =>
      rw [ran] at rest
      simp only [bind_ok, pure_ok, throwIf_ok] at rest
      obtain ⟨product, multiplied, one, compared, _, fine, rfl⟩ := rest
      show (do
        let product ← mul ring aa (reduced.map fun row => row.getD ring.degree 0)
        let one ← equal ring product (ring.basis 0)
        throwIf (one = false) (Fault.thrown (.logicError "BLNS7933 reference inversion self-check failed"))
        return some (reduced.map fun row => row.getD ring.degree 0) : Except Fault (Option PolyQ)) = _
      rw [mulSame word multiplied, bind_next, equalSame word compared, bind_next, throwIf_not fine]
      rfl

end Agree
end Checked

/- With a prime whose square fits a word, an inverse is found exactly when there is one, and no step goes out
of range or fails the check at the end. -/
theorem inverseExact (ring : RingArithmetic) (prime : ring.modulus.Prime) (word : (ring.modulus : Int) * ring.modulus < 2 ^ 63) (a : PolyQ)
    (short : a.length ≤ ring.degree) :
    ∃ found, ring.inverse a = .ok found ∧ Checked.inverse ring a = .ok found ∧ (found.isSome = true ↔ IsUnit (residue ring a)) ∧
      ∀ b, found = some b → Canonical ring b ∧ residue ring a * residue ring b = 1 ∧ ring.mul a b = .ok (ring.basis 0) := by
  have field : Fact ring.modulus.Prime := ⟨prime⟩
  obtain ⟨found, ran, unit, inverts⟩ := inverseDecides short
  refine ⟨found, ran, Checked.inverseSame word prime ran, unit, fun b is => ?_⟩
  obtain ⟨canonical, product⟩ := inverts b is
  obtain ⟨c, multiplied⟩ := mulTotal short canonical.width.le
  obtain ⟨canonicalC, means⟩ := mulMeaning multiplied
  refine ⟨canonical, product, ?_⟩
  rw [multiplied, canonicalInj canonicalC (basisCanonical 0) (by rw [means, product, basisResidue])]

def tinyRing : RingArithmetic where
  degree := 2
  modulus := 5
  positive := by decide
  large := by decide

theorem inverseExactSmall : ∃ found, tinyRing.inverse [1, -3] = .ok found ∧ Checked.inverse tinyRing [1, -3] = .ok found ∧
    (found.isSome = true ↔ IsUnit (residue tinyRing [1, -3])) ∧ ∀ b, found = some b →
      Canonical tinyRing b ∧ residue tinyRing [1, -3] * residue tinyRing b = 1 ∧ tinyRing.mul [1, -3] b = .ok (tinyRing.basis 0) :=
  inverseExact tinyRing Nat.prime_five (by decide) [1, -3] (by decide)

end TradeP2P.Blns7933
