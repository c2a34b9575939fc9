import TradeP2P.Lib.Coefficients
import TradeP2P.Protocol.Terms
import Mathlib.Data.ZMod.Basic

/-! Arithmetic modulo `q` and `x ^ degree + 1`, slow and exact. Coefficients are integers here: with
the modulus the signer uses, every sum and product below stays far inside 64 bits. -/
namespace TradeP2P.Blns7933
open Checks
open Coefficients (Negacyclic element elementInj elementAdd elementModify elementProduct foldAdds mapModify rootPow)

abbrev PolyQ := List Int

structure RingArithmetic where
  degree : Nat
  modulus : Nat
  positive : 0 < degree
  large : 2 < modulus

def productionRing : RingArithmetic where
  degree := 512
  modulus := 7933
  positive := by decide
  large := by decide

def scalarMod (x : Int) (q : Nat) : Int :=
  let remainder := x.tmod q
  if remainder < 0 then remainder + q else remainder

-- Euclid's loop: the remainder falls with every round, so `q` rounds are enough.
def scalarInverseLoop : Nat → Int → Int → Int → Int → Option Int
  | 0, _, _, _, _ => none
  | rounds+1, t, newT, r, newR =>
      if newR = 0 then (if r = 1 then some t else none)
      else
        let quotient := r.tdiv newR
        scalarInverseLoop rounds newT (t - quotient * newT) newR (r - quotient * newR)

def scalarInverse (a : Int) (q : Nat) : Option Int :=
  (scalarInverseLoop (q + 1) 0 1 q (scalarMod a q)).map fun t => scalarMod t q

namespace RingArithmetic
variable (ring : RingArithmetic)

def mod (x : Int) : Int := scalarMod x ring.modulus

def canonicalize (a : PolyQ) : Except Error PolyQ := do
  throwIf (a.length > ring.degree) (.invalidArgument "input polynomial exceeds ring degree")
  return a.map ring.mod ++ List.replicate (ring.degree - a.length) 0

def add (a b : PolyQ) : Except Error PolyQ := do
  let aa ← ring.canonicalize a
  let bb ← ring.canonicalize b
  return List.zipWith (fun x y => ring.mod (x + y)) aa bb

-- A product that reaches past the last coefficient comes back at the front, negated.
def place (out : PolyQ) (k : Nat) (product : Int) : PolyQ :=
  if k < ring.degree then out.modify k fun v => ring.mod (v + product)
  else out.modify (k - ring.degree) fun v => ring.mod (v - product)

def mulRow (aa bb out : PolyQ) (i : Nat) : PolyQ :=
  (List.range ring.degree).foldl (fun out j => ring.place out (i + j) (aa.getD i 0 * bb.getD j 0)) out

def mulCanonical (aa bb : PolyQ) : PolyQ :=
  (List.range ring.degree).foldl (ring.mulRow aa bb) (List.replicate ring.degree 0)

def mul (a b : PolyQ) : Except Error PolyQ := do
  let aa ← ring.canonicalize a
  let bb ← ring.canonicalize b
  return ring.mulCanonical aa bb

def equal (a b : PolyQ) : Except Error Bool := do
  let aa ← ring.canonicalize a
  let bb ← ring.canonicalize b
  return aa = bb

/-! Inversion by elimination on the matrix of the multiplication, with the first unit vector beside it. -/

abbrev Matrix := List (List Int)

def basis (col : Nat) : PolyQ := (List.replicate ring.degree 0).set col 1

def augmented (aa : PolyQ) : Except Error Matrix := do
  let images ← (List.range ring.degree).mapM fun col => ring.mul aa (ring.basis col)
  return (List.range ring.degree).map fun row =>
    images.map (fun image => image.getD row 0) ++ [if row = 0 then 1 else 0]

def entry (m : Matrix) (row col : Nat) : Int := (m.getD row []).getD col 0

def scaleRow (factor : Int) (from_ : Nat) (row : List Int) : List Int :=
  row.mapIdx fun j v => if from_ ≤ j then ring.mod (v * factor) else v

def subtractRow (factor : Int) (from_ : Nat) (pivot row : List Int) : List Int :=
  row.mapIdx fun j v => if from_ ≤ j then ring.mod (v - factor * pivot.getD j 0) else v

def eliminateColumn (m : Matrix) (col : Nat) : Option Matrix := do
  let pivot ← ((List.range ring.degree).filter fun row => col ≤ row ∧ entry m row col ≠ 0).head?
  let swapped := (m.set pivot (m.getD col [])).set col (m.getD pivot [])
  let inverse ← scalarInverse (entry swapped col col) ring.modulus
  let scaled := swapped.modify col (ring.scaleRow inverse col)
  return scaled.mapIdx fun row values =>
    if row = col ∨ values.getD col 0 = 0 then values
    else ring.subtractRow (values.getD col 0) col (scaled.getD col []) values

def inverse (a : PolyQ) : Except Error (Option PolyQ) := do
  let aa ← ring.canonicalize a
  let start ← ring.augmented aa
  match (List.range ring.degree).foldlM ring.eliminateColumn start with
  | none => return none
  | some reduced =>
      let result := reduced.map fun row => row.getD ring.degree 0
      let product ← ring.mul aa result
      let one ← ring.equal product (ring.basis 0)
      throwIf (one = false) (.logicError "BLNS7933 reference inversion self-check failed")
      return some result

end RingArithmetic

/-! What the operations compute. -/
section Meaning
variable {ring : RingArithmetic} {a b c : PolyQ}

theorem scalarModEmod {q : Nat} (positive : 0 < q) (x : Int) : scalarMod x q = x % q := by
  have low := Int.emod_nonneg x (Int.natCast_ne_zero.mpr positive.ne')
  have high := Int.emod_lt_of_pos x (Int.natCast_pos.mpr positive)
  simp only [scalarMod, Int.tmod_eq_emod, Int.natAbs_natCast]
  split <;> split <;> omega

/- A polynomial as the operations leave it. -/
structure Canonical (ring : RingArithmetic) (a : PolyQ) : Prop where
  width : a.length = ring.degree
  reduced : ∀ x ∈ a, 0 ≤ x ∧ x < ring.modulus

/- The element a polynomial stands for. -/
noncomputable def residue (ring : RingArithmetic) (a : PolyQ) : Negacyclic (ZMod ring.modulus) ring.degree :=
  element ring.degree (a.map Int.cast)

instance nontrivialModulus (ring : RingArithmetic) : Fact (1 < ring.modulus) := ⟨by have := ring.large; omega⟩

theorem modEmod (x : Int) : ring.mod x = x % ring.modulus := scalarModEmod (by have := ring.large; omega) x

theorem modReduced (x : Int) : 0 ≤ ring.mod x ∧ ring.mod x < ring.modulus := by
  have positive : (0 : Int) < ring.modulus := by
    have := ring.large
    omega
  rw [modEmod]
  exact ⟨Int.emod_nonneg x positive.ne', Int.emod_lt_of_pos x positive⟩

@[simp] theorem modCast (x : Int) : ((ring.mod x : Int) : ZMod ring.modulus) = x := by
  rw [modEmod, ZMod.intCast_mod]

theorem canonicalInj (left : Canonical ring a) (right : Canonical ring b) (same : residue ring a = residue ring b) : a = b := by
  have cast := elementInj ring.positive (by simpa using left.width) (by simpa using right.width) same
  refine List.ext_getElem (left.width.trans right.width.symm) fun i inA inB => ?_
  have equal : ((a[i] : Int) : ZMod ring.modulus) = ((b[i] : Int) : ZMod ring.modulus) := by
    have at_ := congrArg (fun l => l[i]?) cast
    simpa [inA, inB] using at_
  have boundA := left.reduced a[i] (List.getElem_mem inA)
  have boundB := right.reduced b[i] (List.getElem_mem inB)
  rw [ZMod.intCast_eq_intCast_iff'] at equal
  rwa [Int.emod_eq_of_lt boundA.1 boundA.2, Int.emod_eq_of_lt boundB.1 boundB.2] at equal

theorem canonicalizeOk : ring.canonicalize a = .ok b ↔
    a.length ≤ ring.degree ∧ a.map ring.mod ++ List.replicate (ring.degree - a.length) 0 = b := by
  simp only [RingArithmetic.canonicalize, check_ok, throwIf_ok, pure_ok, Nat.not_lt]

theorem canonicalizeMeaning (ok : ring.canonicalize a = .ok b) : Canonical ring b ∧ residue ring b = residue ring a := by
  obtain ⟨short, rfl⟩ := canonicalizeOk.mp ok
  refine ⟨⟨by simp [short], fun x mem => ?_⟩, ?_⟩
  · rcases List.mem_append.mp mem with mapped | zero
    · obtain ⟨y, _, rfl⟩ := List.mem_map.mp mapped
      exact modReduced y
    · obtain rfl := List.eq_of_mem_replicate zero
      have := ring.large
      omega
  · simp [residue, element, Coefficients.valueAppend, Function.comp_def]

/- A rounding loop leaves the residue as it is; so adding a product moves the element by that product. -/
theorem placeMeaning {out : PolyQ} (canonical : Canonical ring out) {k : Nat} (inside : k < 2 * ring.degree) (product : Int) :
    Canonical ring (ring.place out k product) ∧ residue ring (ring.place out k product) =
      residue ring out + AdjoinRoot.of _ (product : ZMod ring.modulus) * AdjoinRoot.root _ ^ k := by
  have stays {f : Int → Int} (reduced : ∀ v, 0 ≤ f v ∧ f v < ring.modulus) (k : Nat) : Canonical ring (out.modify k f) := by
    refine ⟨by simpa using canonical.width, fun x mem => ?_⟩
    obtain ⟨i, within, rfl⟩ := List.getElem_of_mem mem
    rw [List.getElem_modify]
    split
    · exact reduced _
    · exact canonical.reduced _ (List.getElem_mem _)
  have worth {f : Int → Int} {c : ZMod ring.modulus} (adds : ∀ v : Int, (f v : ZMod ring.modulus) = v + c) {k : Nat}
      (within : k < ring.degree) :
      residue ring (out.modify k f) = residue ring out + AdjoinRoot.of _ c * AdjoinRoot.root _ ^ k := by
    rw [residue, mapModify (h := (· + c)) adds, elementModify _ _ (by simpa [canonical.width] using within)]
    rfl
  unfold RingArithmetic.place
  split
  · rename_i within
    exact ⟨stays (fun v => modReduced _) k, worth (fun v => by push_cast [modCast]; ring) within⟩
  · rename_i past
    refine ⟨stays (fun v => modReduced _) _, ?_⟩
    rw [worth (c := -(product : ZMod ring.modulus)) (fun v => by push_cast [modCast]; ring) (by omega)]
    have split_ : (AdjoinRoot.root (Polynomial.X ^ ring.degree + 1 : Polynomial (ZMod ring.modulus))) ^ k =
        -AdjoinRoot.root _ ^ (k - ring.degree) := by
      conv_lhs => rw [← Nat.sub_add_cancel (Nat.le_of_not_lt past)]
      rw [pow_add, rootPow, mul_neg_one]
    rw [split_, map_neg, neg_mul, mul_neg]

theorem zerosCanonical : Canonical ring (List.replicate ring.degree 0) := by
  refine ⟨by simp, fun x mem => ?_⟩
  obtain rfl := List.eq_of_mem_replicate mem
  have := ring.large
  omega

theorem mulCanonicalMeaning (left : Canonical ring a) (right : Canonical ring b) :
    Canonical ring (ring.mulCanonical a b) ∧ residue ring (ring.mulCanonical a b) = residue ring a * residue ring b := by
  have row (i : Nat) (small : i ∈ List.range ring.degree) (out : PolyQ) (kept : Canonical ring out) :=
    foldAdds (residue ring) (Canonical ring) (fun out j => ring.place out (i + j) (a.getD i 0 * b.getD j 0))
      (fun j => AdjoinRoot.of _ ((a.getD i 0 * b.getD j 0 : Int) : ZMod ring.modulus) * AdjoinRoot.root _ ^ (i + j))
      (List.range ring.degree) (fun out j mem kept => placeMeaning kept (by
        have := List.mem_range.mp small
        have := List.mem_range.mp mem
        omega) _) out kept
  obtain ⟨canonical, worth⟩ := foldAdds (residue ring) (Canonical ring) (ring.mulRow a b) _ (List.range ring.degree)
    (fun out i mem kept => row i mem out kept) _ zerosCanonical
  refine ⟨canonical, ?_⟩
  have zero : residue ring (List.replicate ring.degree 0) = 0 := by simp [residue, element]
  have cast (l : PolyQ) (i : Nat) : ((l.map Int.cast).getD i 0 : ZMod ring.modulus) = ((l.getD i 0 : Int) : ZMod ring.modulus) := by
    rw [← Int.cast_zero, List.getD_map]
  have whole := elementProduct ring.degree (a := a.map (Int.cast : Int → ZMod ring.modulus)) (b := b.map Int.cast)
    (m := ring.degree) (k := ring.degree) (by simp [left.width]) (by simp [right.width])
  simp only [cast, ← Int.cast_mul] at whole
  rw [RingArithmetic.mulCanonical, worth, zero, zero_add, whole]
  rfl

theorem mulMeaning (ok : ring.mul a b = .ok c) : Canonical ring c ∧ residue ring c = residue ring a * residue ring b := by
  simp only [RingArithmetic.mul, bind_ok, pure_ok] at ok
  obtain ⟨aa, left, bb, right, rfl⟩ := ok
  obtain ⟨canonicalA, sameA⟩ := canonicalizeMeaning left
  obtain ⟨canonicalB, sameB⟩ := canonicalizeMeaning right
  rw [← sameA, ← sameB]
  exact mulCanonicalMeaning canonicalA canonicalB

theorem addMeaning (ok : ring.add a b = .ok c) : Canonical ring c ∧ residue ring c = residue ring a + residue ring b := by
  simp only [RingArithmetic.add, bind_ok, pure_ok] at ok
  obtain ⟨aa, left, bb, right, rfl⟩ := ok
  obtain ⟨canonicalA, sameA⟩ := canonicalizeMeaning left
  obtain ⟨canonicalB, sameB⟩ := canonicalizeMeaning right
  rw [← sameA, ← sameB]
  refine ⟨⟨by simp [canonicalA.width, canonicalB.width], fun x mem => ?_⟩, ?_⟩
  · obtain ⟨i, within, rfl⟩ := List.getElem_of_mem mem
    rw [List.getElem_zipWith]
    exact modReduced _
  · rw [residue, residue, residue, ← elementAdd _ (by simp [canonicalA.width, canonicalB.width]), List.map_zipWith, List.zipWith_map]
    simp only [modCast, Int.cast_add]

theorem equalMeaning {same : Bool} (ok : ring.equal a b = .ok same) : same = true ↔ residue ring a = residue ring b := by
  simp only [RingArithmetic.equal, bind_ok, pure_ok] at ok
  obtain ⟨aa, left, bb, right, rfl⟩ := ok
  obtain ⟨canonicalA, sameA⟩ := canonicalizeMeaning left
  obtain ⟨canonicalB, sameB⟩ := canonicalizeMeaning right
  rw [← sameA, ← sameB, decide_eq_true_iff]
  exact ⟨fun same => by rw [same], canonicalInj canonicalA canonicalB⟩

/- The operations refuse nothing of the ring's own length. -/
theorem canonicalizeTotal (short : a.length ≤ ring.degree) : ∃ b, ring.canonicalize a = .ok b :=
  ⟨_, canonicalizeOk.mpr ⟨short, rfl⟩⟩

theorem mulTotal (shortA : a.length ≤ ring.degree) (shortB : b.length ≤ ring.degree) : ∃ c, ring.mul a b = .ok c := by
  obtain ⟨aa, left⟩ := canonicalizeTotal shortA
  obtain ⟨bb, right⟩ := canonicalizeTotal shortB
  exact ⟨_, by rw [RingArithmetic.mul, left, right]; rfl⟩

theorem addTotal (shortA : a.length ≤ ring.degree) (shortB : b.length ≤ ring.degree) : ∃ c, ring.add a b = .ok c := by
  obtain ⟨aa, left⟩ := canonicalizeTotal shortA
  obtain ⟨bb, right⟩ := canonicalizeTotal shortB
  exact ⟨_, by rw [RingArithmetic.add, left, right]; rfl⟩

theorem equalTotal (shortA : a.length ≤ ring.degree) (shortB : b.length ≤ ring.degree) : ∃ same, ring.equal a b = .ok same := by
  obtain ⟨aa, left⟩ := canonicalizeTotal shortA
  obtain ⟨bb, right⟩ := canonicalizeTotal shortB
  exact ⟨_, by rw [RingArithmetic.equal, left, right]; rfl⟩

theorem basisResidue : residue ring (ring.basis 0) = 1 := by
  obtain ⟨rest, positive⟩ := Nat.exists_eq_succ_of_ne_zero ring.positive.ne'
  simp [residue, RingArithmetic.basis, positive, element, List.replicate_succ]

/- Whatever the elimination comes to, what is returned has been multiplied back to one. -/
theorem inverseMeaning (ok : ring.inverse a = .ok (some b)) : residue ring a * residue ring b = 1 := by
  simp only [RingArithmetic.inverse, bind_ok] at ok
  obtain ⟨aa, canonical, start, _, rest⟩ := ok
  split at rest
  · cases rest
  · simp only [bind_ok, pure_ok, throwIf_ok] at rest
    obtain ⟨product, multiplied, one, compared, checked⟩ := rest
    obtain ⟨_, sameA⟩ := canonicalizeMeaning canonical
    obtain ⟨_, worth⟩ := mulMeaning multiplied
    obtain ⟨_, isOne, found⟩ := checked
    cases found
    have equal := (equalMeaning compared).mp (Bool.not_eq_false _ ▸ isOne)
    rw [← sameA, ← worth, equal, basisResidue]

end Meaning
/-! Inverting one: the elimination finds nothing to do. -/
section One
variable (ring : RingArithmetic)

def unitRow (i : Nat) : List Int := (List.range ring.degree).map (fun col => if i = col then 1 else 0) ++ [if i = 0 then 1 else 0]
def identity : List (List Int) := (List.range ring.degree).map (unitRow ring)

variable {ring}

theorem unitRowEntry {i col : Nat} (inside : col < ring.degree) : (unitRow ring i).getD col 0 = if i = col then 1 else 0 := by
  have within : col < ((List.range ring.degree).map fun col => if i = col then (1 : Int) else 0).length := by simpa using inside
  simp [unitRow, List.getD_eq_getElem?_getD, List.getElem?_append_left within, inside]

theorem identityRow {row : Nat} (inside : row < ring.degree) : (identity ring).getD row [] = unitRow ring row := by
  simp [identity, List.getD_eq_getElem?_getD, inside]

theorem identityEntry {row col : Nat} (insideRow : row < ring.degree) (inside : col < ring.degree) :
    RingArithmetic.entry (identity ring) row col = if row = col then 1 else 0 := by
  rw [RingArithmetic.entry, identityRow insideRow, unitRowEntry inside]

theorem basisCanonical (col : Nat) : Canonical ring (ring.basis col) := by
  have large := ring.large
  refine ⟨by simp [RingArithmetic.basis], fun x mem => ?_⟩
  rcases List.mem_or_eq_of_mem_set mem with zero | rfl
  · obtain rfl := List.eq_of_mem_replicate zero
    omega
  · omega

theorem basisEntry {row col : Nat} (inside : row < ring.degree) : (ring.basis col).getD row 0 = if col = row then 1 else 0 := by
  have within : row < ((List.replicate ring.degree (0 : Int)).set col 1).length := by simpa using inside
  rw [RingArithmetic.basis, List.getD_eq_getElem _ _ within, List.getElem_set, List.getElem_replicate]

theorem unitRowLast (i : Nat) : (unitRow ring i).getD ring.degree 0 = if i = 0 then 1 else 0 := by
  simp [unitRow, List.getD_eq_getElem?_getD]

theorem scaleByOne (col i : Nat) : ring.scaleRow 1 col (unitRow ring i) = unitRow ring i := by
  have large := ring.large
  have binary : ∀ v ∈ unitRow ring i, v = 0 ∨ v = 1 := by
    intro v mem
    rcases List.mem_append.mp mem with inner | last
    · obtain ⟨j, _, rfl⟩ := List.mem_map.mp inner
      split <;> simp
    · obtain rfl := List.mem_singleton.mp last
      split <;> simp
  refine List.ext_getElem (by simp [RingArithmetic.scaleRow]) fun j left right => ?_
  simp only [RingArithmetic.scaleRow, List.getElem_mapIdx]
  split
  · have value := binary _ (List.getElem_mem right)
    rw [mul_one, modEmod]
    rcases value with zero | one
    · rw [zero, Int.zero_emod]
    · rw [one, Int.emod_eq_of_lt (by omega) (by omega)]
  · rfl

theorem eliminateIdentity (one : scalarInverse 1 ring.modulus = some 1) {col : Nat} (inside : col < ring.degree) :
    ring.eliminateColumn (identity ring) col = some (identity ring) := by
  have width : (identity ring).length = ring.degree := by simp [identity]
  have at_ (i : Nat) (h : i < (identity ring).length) : (identity ring)[i] = unitRow ring i := by simp [identity]
  have pivot : ((List.range ring.degree).filter fun row =>
      decide (col ≤ row ∧ RingArithmetic.entry (identity ring) row col ≠ 0)).head? = some col := by
    rw [List.head?_filter, List.find?_range_eq_some]
    refine ⟨?_, List.mem_range.mpr inside, fun row before => ?_⟩
    · simp [identityEntry inside inside]
    · have apart : ¬col ≤ row := by omega
      simp [apart]
  have row : (identity ring).getD col [] = (identity ring)[col] := List.getD_eq_getElem _ _ (by omega)
  have swapped : ((identity ring).set col ((identity ring).getD col [])).set col ((identity ring).getD col []) = identity ring := by
    rw [List.set_set, row, List.set_getElem_self]
  have scaled : (identity ring).modify col (ring.scaleRow 1 col) = identity ring := by
    refine List.ext_getElem (by simp) fun i left right => ?_
    rw [List.getElem_modify]
    split
    · rw [at_, scaleByOne]
    · rfl
  simp only [RingArithmetic.eliminateColumn, pivot, Option.bind_eq_bind, Option.bind_some, swapped, identityEntry inside inside,
    if_true, one, scaled]
  refine congrArg some (List.ext_getElem (by simp) fun i left right => ?_)
  rw [List.getElem_mapIdx, if_pos]
  rw [at_, unitRowEntry inside]
  by_cases same : i = col
  · exact .inl same
  · exact .inr (if_neg same)

theorem inverseOne (one : scalarInverse 1 ring.modulus = some 1) : ring.inverse [1] = .ok (some (ring.basis 0)) := by
  have positive := ring.positive
  have short : ([1] : PolyQ).length ≤ ring.degree := positive
  obtain ⟨aa, canonicalized⟩ := canonicalizeTotal short
  obtain ⟨canonical, worth⟩ := canonicalizeMeaning canonicalized
  have unit : residue ring [1] = 1 := by simp [residue, Coefficients.element]
  have images : (List.range ring.degree).mapM (fun col => ring.mul aa (ring.basis col)) =
      (.ok ((List.range ring.degree).map ring.basis) : Except Error _) := by
    refine mapM_ok fun col _ => ?_
    obtain ⟨product, multiplied⟩ := mulTotal canonical.width.le (basisCanonical col).width.le
    obtain ⟨canonicalProduct, meaning⟩ := mulMeaning multiplied
    rw [multiplied, canonicalInj canonicalProduct (basisCanonical col) (by rw [meaning, worth, unit, one_mul])]
  have start : ring.augmented aa = .ok (identity ring) := by
    rw [RingArithmetic.augmented, images]
    refine congrArg Except.ok (List.map_congr_left fun row mem => ?_)
    rw [List.map_map, unitRow]
    refine congrArg (· ++ _) (List.map_congr_left fun col inner => ?_)
    have insideRow := List.mem_range.mp mem
    rw [Function.comp_apply, basisEntry insideRow]
    exact if_congr eq_comm rfl rfl
  have reduced : (List.range ring.degree).foldlM ring.eliminateColumn (identity ring) = some (identity ring) := by
    have each (cols : List Nat) (within : ∀ col ∈ cols, col < ring.degree) :
        cols.foldlM ring.eliminateColumn (identity ring) = some (identity ring) := by
      induction cols with
      | nil => rfl
      | cons col rest ih =>
          rw [List.foldlM_cons, eliminateIdentity one (within col List.mem_cons_self)]
          exact ih fun c mem => within c (List.mem_cons_of_mem col mem)
    exact each _ fun col mem => List.mem_range.mp mem
  have last : (identity ring).map (fun row => row.getD ring.degree 0) = ring.basis 0 := by
    refine List.ext_getElem (by simp [identity, RingArithmetic.basis]) fun i left right => ?_
    have inside : i < ring.degree := by simpa [identity] using left
    rw [← List.getD_eq_getElem _ 0 right, basisEntry inside]
    simp only [identity, List.getElem_map, List.getElem_range, unitRowLast]
    exact if_congr eq_comm rfl rfl
  obtain ⟨product, multiplied⟩ := mulTotal canonical.width.le (@basisCanonical ring 0).width.le
  obtain ⟨canonicalProduct, meaning⟩ := mulMeaning multiplied
  obtain ⟨same, compared⟩ := equalTotal canonicalProduct.width.le (@basisCanonical ring 0).width.le
  have equal : same = true := (equalMeaning compared).mpr (by rw [meaning, worth, unit, one_mul])
  rw [RingArithmetic.inverse, canonicalized]
  simp only [bind, Except.bind, start, reduced, last, multiplied, compared, equal]
  rfl

end One
end TradeP2P.Blns7933
