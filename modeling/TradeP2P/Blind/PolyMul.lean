import TradeP2P.Lib.Coefficients
import Mathlib.Data.ZMod.Basic

/-! The prover's multiplication: Karatsuba over machine integers, reduced once at the end. A slice
index out of range is a panic, which ends the guest before it commits anything. -/
namespace TradeP2P.Prover
open Coefficients (Negacyclic element foldAdds foldAddsSome mapModify polynomial polynomialCoeff value valueAppend valueModify valueSum)
open Polynomial (C X)

def n : Nat := 512
def q : Int := 7933
def karatsubaBaseCase : Nat := 32

section Raw
variable {α : Type} [Zero α] [Add α] [Sub α] [Mul α] [DecidableEq α]

def schoolbookRow (size i : Nat) (x : α) (b out : List α) : Option (List α) :=
  (List.range size).foldlM (fun out j => do
    let y ← b[j]?
    return out.modify (i + j) (· + x * y)) out

-- A zero coefficient is passed over, without a look at the other factor.
def schoolbookRaw (a b : List α) : Option (List α) :=
  (List.range a.length).foldlM (fun out i =>
    let x := a.getD i 0
    if x = 0 then some out else schoolbookRow a.length i x b out) (List.replicate (2 * a.length - 1) 0)

def addInto (offset : Nat) (terms out : List α) : List α :=
  (List.range terms.length).foldl (fun out i => out.modify (i + offset) (· + terms.getD i 0)) out

def addHalves (half : Nat) (lo hi : List α) : List α := (List.range half).map fun i => lo.getD i 0 + hi.getD i 0

def middleTerms (z0 z1Full z2 : List α) : List α :=
  (List.range z1Full.length).map fun i => z1Full.getD i 0 - z0.getD i 0 - z2.getD i 0

def combine (size half : Nat) (z0 z1Full z2 : List α) : List α :=
  addInto (2 * half) z2 (addInto half (middleTerms z0 z1Full z2) (addInto 0 z0 (List.replicate (2 * size - 1) 0)))

/- The halves of `a` are long enough by their making; those of `b` are cut from whatever came in. -/
def karatsubaRaw (a b : List α) : Option (List α) :=
  if small : a.length ≤ karatsubaBaseCase then schoolbookRaw a b
  else
    let half := a.length / 2
    if b.length < half then none
    else do
      let z0 ← karatsubaRaw (a.take half) (b.take half)
      let z2 ← karatsubaRaw (a.drop half) (b.drop half)
      if (b.drop half).length < half then none
      else do
        let z1Full ← karatsubaRaw (addHalves half (a.take half) (a.drop half)) (addHalves half (b.take half) (b.drop half))
        return combine a.length half z0 z1Full z2
termination_by a.length
decreasing_by
  all_goals
    unfold karatsubaBaseCase at small
    simp only [addHalves, List.length_take, List.length_drop, List.length_map, List.length_range]
    omega

end Raw

def remEuclid (x : Int64) : Int64 := Int64.ofInt (x.toInt % q)

def reduceModQ (v : List Int64) : List Int64 := v.map remEuclid

def subtractFrom (acc : List Int64) (i : Nat) (x : Int64) : List Int64 := acc.modify i (· - x)

def polyMulModQKaratsuba (a b : List Int64) : Option (List Int64) := do
  let raw ← karatsubaRaw a b
  if raw.length < n ∨ 2 * n < raw.length then none
  else
    let acc := (List.range (raw.length - n)).foldl (fun acc i => subtractFrom acc i (raw.getD (n + i) 0)) (raw.take n)
    return reduceModQ acc

/-! Read in a commutative ring that wraps the way the machine does, the recursion is a product. -/
section Worth
variable {α R : Type} [Zero α] [Add α] [Sub α] [Mul α] [CommRing R] {φ : α → R} {a b : List α}

structure Wraps (φ : α → R) : Prop where
  zero : φ 0 = 0
  add : ∀ x y, φ (x + y) = φ x + φ y
  sub : ∀ x y, φ (x - y) = φ x - φ y
  mul : ∀ x y, φ (x * y) = φ x * φ y

noncomputable def worth (φ : α → R) (a : List α) : Polynomial R := value X (a.map fun c => C (φ c))

theorem worthModify (wraps : Wraps φ) (c : α) {out : List α} {k : Nat} (inside : k < out.length) :
    worth φ (out.modify k (· + c)) = worth φ out + C (φ c) * X ^ k := by
  rw [worth, mapModify (h := (· + C (φ c))) (fun v => by rw [wraps.add, map_add]), valueModify _ _ (by simpa using inside)]
  rfl

theorem worthEntry (wraps : Wraps φ) (a : List α) (i : Nat) : (a.map fun c => C (φ c)).getD i 0 = C (φ (a.getD i 0)) := by
  have zero : C (φ 0) = 0 := by rw [wraps.zero, map_zero]
  rw [← zero]
  exact List.getD_map a (0 : α) fun c => C (φ c)

theorem worthSum (wraps : Wraps φ) (size : Nat) {a : List α} (covers : a.length ≤ size) :
    worth φ a = ((List.range size).map fun i => C (φ (a.getD i 0)) * X ^ i).sum := by
  rw [worth, valueSum X (n := size) (by simpa using covers)]
  simp only [worthEntry wraps]

theorem worthZeros (wraps : Wraps φ) (count : Nat) : worth φ (List.replicate count 0) = 0 := by
  simp [worth, wraps.zero]

omit [Zero α] [Add α] [Sub α] [Mul α] in
theorem worthSplit (half : Nat) {a : List α} (inside : half ≤ a.length) :
    worth φ a = worth φ (a.take half) + X ^ half * worth φ (a.drop half) := by
  have joined := valueAppend (X : Polynomial R) ((a.take half).map fun c => C (φ c)) ((a.drop half).map fun c => C (φ c))
  rw [← List.map_append, List.take_append_drop, List.length_map, List.length_take, Nat.min_eq_left inside] at joined
  exact joined

omit [Zero α] [Add α] [Sub α] [Mul α] in
theorem madeEntry {size i : Nat} (mem : i ∈ List.range size) (f : Nat → α) (default : α) :
    ((List.range size).map f).getD i default = f i := by
  rw [List.getD_eq_getElem _ _ (by simpa using mem), List.getElem_map, List.getElem_range]

/- A list made entry by entry. -/
theorem worthMade (wraps : Wraps φ) (size : Nat) (f : Nat → α) :
    worth φ ((List.range size).map f) = ((List.range size).map fun i => C (φ (f i)) * X ^ i).sum := by
  rw [worthSum wraps size (by simp)]
  congr 1
  refine List.map_congr_left fun i mem => ?_
  rw [madeEntry mem]

theorem addHalvesMeaning (wraps : Wraps φ) (half : Nat) (lo hi : List α) :
    worth φ (addHalves half lo hi) = worth φ (lo.take half) + worth φ (hi.take half) := by
  rw [addHalves, worthMade wraps, worthSum wraps half (a := lo.take half) (by simp),
    worthSum wraps half (a := hi.take half) (by simp), ← List.sum_map_add]
  congr 1
  refine List.map_congr_left fun i mem => ?_
  have near := List.mem_range.mp mem
  have cut (l : List α) : (l.take half).getD i 0 = l.getD i 0 := by simp [List.getD_eq_getElem?_getD, near]
  rw [cut, cut, wraps.add, map_add, add_mul]

theorem middleTermsMeaning (wraps : Wraps φ) {z0 z1Full z2 : List α} (low : z0.length = z1Full.length) (high : z2.length = z1Full.length) :
    worth φ (middleTerms z0 z1Full z2) = worth φ z1Full - worth φ z0 - worth φ z2 := by
  rw [eq_sub_iff_add_eq, eq_sub_iff_add_eq, middleTerms, worthMade wraps, worthSum wraps _ (a := z1Full) le_rfl, worthSum wraps _ low.le,
    worthSum wraps _ high.le, ← List.sum_map_add, ← List.sum_map_add]
  simp only [wraps.sub, map_sub, sub_mul, sub_add_cancel]

theorem addIntoMeaning (wraps : Wraps φ) (offset : Nat) (terms out : List α) (fits : terms.length + offset ≤ out.length) :
    (addInto offset terms out).length = out.length ∧
      worth φ (addInto offset terms out) = worth φ out + X ^ offset * worth φ terms := by
  have added := foldAdds (worth φ) (fun mid => mid.length = out.length) (fun mid i => mid.modify (i + offset) (· + terms.getD i 0))
    (fun i => C (φ (terms.getD i 0)) * X ^ (i + offset)) (List.range terms.length)
    (fun mid i mem width => ⟨by simpa using width, worthModify wraps _ (by rw [width]; have := List.mem_range.mp mem; omega)⟩) out rfl
  have shifted (i : Nat) : C (φ (terms.getD i 0)) * X ^ (i + offset) = X ^ offset * (C (φ (terms.getD i 0)) * X ^ i) := by ring
  refine ⟨added.1, added.2.trans ?_⟩
  rw [worthSum wraps _ (a := terms) le_rfl, ← List.sum_map_mul_left]
  simp only [shifted]

/- The three products of halves make up the product. -/
theorem combineMeaning (wraps : Wraps φ) {half : Nat} {z0 z1Full z2 : List α} {lowA highA lowB highB : Polynomial R}
    (positive : 0 < half) (width0 : z0.length = 2 * half - 1) (width1 : z1Full.length = 2 * half - 1) (width2 : z2.length = 2 * half - 1)
    (low : worth φ z0 = lowA * lowB) (high : worth φ z2 = highA * highB) (full : worth φ z1Full = (lowA + highA) * (lowB + highB)) :
    (combine (2 * half) half z0 z1Full z2).length = 2 * (2 * half) - 1 ∧
      worth φ (combine (2 * half) half z0 z1Full z2) = (lowA + X ^ half * highA) * (lowB + X ^ half * highB) := by
  have first := addIntoMeaning wraps 0 z0 (List.replicate (2 * (2 * half) - 1) 0)
    (by rw [List.length_replicate]; omega)
  have second := addIntoMeaning wraps half (middleTerms z0 z1Full z2) (addInto 0 z0 (List.replicate (2 * (2 * half) - 1) 0))
    (by rw [first.1, List.length_replicate, middleTerms, List.length_map, List.length_range]; omega)
  have third := addIntoMeaning wraps (2 * half) z2
    (addInto half (middleTerms z0 z1Full z2) (addInto 0 z0 (List.replicate (2 * (2 * half) - 1) 0)))
    (by rw [second.1, first.1, List.length_replicate]; omega)
  refine ⟨third.1.trans (second.1.trans (first.1.trans List.length_replicate)), ?_⟩
  have middle := middleTermsMeaning wraps (width0.trans width1.symm) (width2.trans width1.symm)
  rw [combine, third.2, second.2, first.2, worthZeros wraps, middle, low, high, full]
  ring

theorem schoolbookRowMeaning (wraps : Wraps φ) {size : Nat} (i : Nat) (x : α) {b : List α} (out : List α) (enough : size ≤ b.length)
    (fits : i + size ≤ out.length) :
    ∃ out', schoolbookRow size i x b out = some out' ∧ out'.length = out.length ∧
      worth φ out' = worth φ out + C (φ x) * X ^ i * worth φ (b.take size) := by
  obtain ⟨out', ran, width, total⟩ := foldAddsSome (worth φ) (fun mid => mid.length = out.length)
    (fun mid j => do let y ← b[j]?; return mid.modify (i + j) (· + x * y))
    (fun j => C (φ x) * X ^ i * (C (φ ((b.take size).getD j 0)) * X ^ j)) (List.range size)
    (fun mid j mem width => by
      have near := List.mem_range.mp mem
      have read : b[j]? = some ((b.take size).getD j 0) := by
        rw [List.getD_eq_getElem _ _ (by rw [List.length_take]; omega), List.getElem_take, List.getElem?_eq_getElem]
      refine ⟨mid.modify (i + j) (· + x * (b.take size).getD j 0), by rw [read]; rfl, by simpa using width, ?_⟩
      rw [worthModify wraps _ (by omega), wraps.mul, map_mul, pow_add]
      ring) out rfl
  refine ⟨out', ran, width, total.trans ?_⟩
  rw [worthSum wraps size (a := b.take size) (by simp), List.sum_map_mul_left]

variable [DecidableEq α]

theorem schoolbookMeaning (wraps : Wraps φ) (enough : a.length ≤ b.length) :
    ∃ out, schoolbookRaw a b = some out ∧ out.length = 2 * a.length - 1 ∧
      worth φ out = worth φ a * worth φ (b.take a.length) := by
  obtain ⟨out, ran, width, total⟩ := foldAddsSome (worth φ) (fun out => out.length = 2 * a.length - 1)
    (fun out i => if a.getD i 0 = 0 then some out else schoolbookRow a.length i (a.getD i 0) b out)
    (fun i => C (φ (a.getD i 0)) * X ^ i * worth φ (b.take a.length)) (List.range a.length)
    (fun out i mem width => by
      have near := List.mem_range.mp mem
      by_cases zero : a.getD i 0 = 0
      · exact ⟨out, by rw [if_pos zero], width, by rw [zero, wraps.zero]; simp⟩
      · obtain ⟨out', ran, kept, total⟩ := schoolbookRowMeaning wraps i (a.getD i 0) out enough (by omega)
        exact ⟨out', by rw [if_neg zero, ran], kept.trans width, total⟩)
    (List.replicate (2 * a.length - 1) 0) (by simp)
  refine ⟨out, ran, width, total.trans ?_⟩
  rw [worthZeros wraps, zero_add, List.sum_map_mul_right, ← worthSum wraps _ le_rfl]

/- Halved evenly, again and again, down to a length that is not cut any more. -/
inductive HalvesEvenly : Nat → Prop
  | base (size : Nat) (small : size ≤ karatsubaBaseCase) : HalvesEvenly size
  | double (half : Nat) (rest : HalvesEvenly half) : HalvesEvenly (2 * half)

theorem halvesDoubled (depth : Nat) : HalvesEvenly (32 * 2 ^ depth) := by
  induction depth with
  | zero => exact .base _ (by decide)
  | succ depth ih =>
      have double : 32 * 2 ^ (depth + 1) = 2 * (32 * 2 ^ depth) := by rw [pow_succ]; ring
      rw [double]
      exact .double _ ih

theorem karatsubaEven (wraps : Wraps φ) {a b : List α} {size : Nat} (even : HalvesEvenly size) (width : a.length = size)
    (enough : size ≤ b.length) :
    ∃ out, karatsubaRaw a b = some out ∧ out.length = 2 * size - 1 ∧ worth φ out = worth φ a * worth φ (b.take size) := by
  induction even generalizing a b with
  | base size small =>
      subst width
      rw [karatsubaRaw, dif_pos small]
      exact schoolbookMeaning wraps enough
  | double half rest ih =>
      by_cases small : a.length ≤ karatsubaBaseCase
      · rw [karatsubaRaw, dif_pos small, ← width]
        exact schoolbookMeaning wraps (by omega)
      have big : 32 < 2 * half := by unfold karatsubaBaseCase at small; omega
      have halved : a.length / 2 = half := by omega
      have lowWidth : (a.take half).length = half := by rw [List.length_take]; omega
      have highWidth : (a.drop half).length = half := by rw [List.length_drop]; omega
      have lowB : (b.take half).length = half := by rw [List.length_take]; omega
      have highB : half ≤ (b.drop half).length := by rw [List.length_drop]; omega
      obtain ⟨z0, ran0, width0, low⟩ := ih lowWidth lowB.ge
      obtain ⟨z2, ran2, width2, high⟩ := ih highWidth highB
      obtain ⟨z1, ran1, width1, full⟩ := ih (a := addHalves half (a.take half) (a.drop half))
        (b := addHalves half (b.take half) (b.drop half)) (by simp [addHalves]) (by simp [addHalves])
      have takeB : (b.take (2 * half)).take half = b.take half := by rw [List.take_take]; congr 1; omega
      have dropB : (b.take (2 * half)).drop half = (b.drop half).take half := by rw [List.drop_take]; congr 1; omega
      have sumWidth (lo hi : List α) : (addHalves half lo hi).length = half := by simp [addHalves]
      rw [List.take_of_length_le (sumWidth _ _).le, addHalvesMeaning wraps, addHalvesMeaning wraps,
        List.take_of_length_le lowWidth.le, List.take_of_length_le highWidth.le, List.take_of_length_le lowB.le] at full
      rw [List.take_of_length_le lowB.le] at low
      obtain ⟨wide, total⟩ := combineMeaning wraps (by omega) width0 width1 width2 low high full
      refine ⟨combine (2 * half) half z0 z1 z2, ?_, wide, ?_⟩
      · rw [karatsubaRaw, dif_neg small]
        simp only [halved]
        rw [if_neg (by omega), ran0, Option.bind_eq_bind, Option.bind_some, ran2, Option.bind_some, if_neg (by omega), ran1,
          Option.bind_some, width]
        rfl
      · rw [total, worthSplit half (a := a) (by omega), worthSplit half (a := b.take (2 * half)) (by rw [List.length_take]; omega),
          takeB, dropB]

theorem karatsubaMeaning (wraps : Wraps φ) (depth : Nat) {a b : List α} (even : a.length = 32 * 2 ^ depth) (enough : a.length ≤ b.length) :
    ∃ out, karatsubaRaw a b = some out ∧ out.length = 2 * a.length - 1 ∧
      worth φ out = worth φ a * worth φ (b.take a.length) :=
  karatsubaEven wraps (by rw [even]; exact halvesDoubled depth) rfl enough

omit [Zero α] [Add α] [Sub α] [Mul α] [DecidableEq α] in
theorem worthInj (injective : Function.Injective φ) (width : a.length = b.length) (same : worth φ a = worth φ b) : a = b := by
  have coefficients : a.map φ = b.map φ := by
    refine Coefficients.polynomialInj (by simpa using width) ?_
    rw [polynomial, polynomial, List.map_map, List.map_map]
    exact same
  exact List.map_injective_iff.mpr injective coefficients

/- Where the reading is one to one, the two multiplications are one function on even lengths. -/
theorem karatsubaSchoolbook (wraps : Wraps φ) (injective : Function.Injective φ) (even : HalvesEvenly a.length)
    (width : a.length = b.length) : karatsubaRaw a b = schoolbookRaw a b := by
  obtain ⟨fast, ranFast, wideFast, fastMeans⟩ := karatsubaEven wraps even rfl width.le
  obtain ⟨slow, ranSlow, wideSlow, slowMeans⟩ := schoolbookMeaning wraps width.le
  rw [ranFast, ranSlow, worthInj injective (wideFast.trans wideSlow.symm) (fastMeans.trans slowMeans.symm)]

theorem karatsubaShort (depth : Nat) {a b : List α} (even : a.length = 64 * 2 ^ depth) (short : b.length < a.length) :
    karatsubaRaw a b = none := by
  have positive : 0 < 2 ^ depth := Nat.two_pow_pos depth
  rw [karatsubaRaw, dif_neg (by unfold karatsubaBaseCase; omega)]
  by_cases cut : b.length < a.length / 2
  · rw [if_pos cut]
  · have shortHigh : (b.drop (a.length / 2)).length < a.length / 2 := by rw [List.length_drop]; omega
    simp only [if_neg cut, if_pos shortHigh]
    cases karatsubaRaw (a.take (a.length / 2)) (b.take (a.length / 2)) with
    | none => rfl
    | some z0 => cases karatsubaRaw (a.drop (a.length / 2)) (b.drop (a.length / 2)) <;> rfl

end Worth

/-! In 64 bits. The coefficients that come in are short enough for the product not to wrap. -/

def Within (bound : Int) (a : List Int64) : Prop := ∀ x ∈ a, |x.toInt| ≤ bound

def machine (x : Int64) : ZMod (2 ^ 64) := (x.toInt : ZMod (2 ^ 64))

theorem castBmod (x : Int) : (x.bmod (2 ^ 64) : ZMod (2 ^ 64)) = x :=
  (ZMod.intCast_eq_intCast_iff _ _ _).mpr (Int.bmod_emod ..)

theorem machineWraps : Wraps machine where
  zero := by rw [machine, Int64.toInt_zero, Int.cast_zero]
  add x y := by rw [machine, Int64.toInt_add, castBmod, Int.cast_add]; rfl
  sub x y := by rw [machine, Int64.toInt_sub, castBmod, Int.cast_sub]; rfl
  mul x y := by rw [machine, Int64.toInt_mul, castBmod, Int.cast_mul]; rfl

theorem machineExact {x : Int64} {y : Int} (same : machine x = (y : ZMod (2 ^ 64))) (small : |y| < 2 ^ 63) : x.toInt = y := by
  have congruent : x.toInt % (2 ^ 64 : Nat) = y % (2 ^ 64 : Nat) := (ZMod.intCast_eq_intCast_iff _ _ _).mp same
  have above := x.toInt_lt
  have below := x.le_toInt
  obtain ⟨low, high⟩ := abs_lt.mp small
  push_cast at congruent
  omega

theorem machineInjective : Function.Injective machine := by
  intro x y same
  have congruent : x.toInt % (2 ^ 64 : Nat) = y.toInt % (2 ^ 64 : Nat) := (ZMod.intCast_eq_intCast_iff _ _ _).mp same
  have aboveX := x.toInt_lt
  have belowX := x.le_toInt
  have aboveY := y.toInt_lt
  have belowY := y.le_toInt
  refine Int64.toInt_inj.mp ?_
  push_cast at congruent
  omega

noncomputable def exact (a : List Int64) : Polynomial ℤ := polynomial (a.map Int64.toInt)

theorem exactCoeff (a : List Int64) (i : Nat) : (exact a).coeff i = (a.getD i 0).toInt := by
  rw [exact, polynomialCoeff, ← Int64.toInt_zero]
  exact List.getD_map a (0 : Int64) Int64.toInt

theorem worthExact (a : List Int64) : worth machine a = (exact a).map (Int.castRingHom (ZMod (2 ^ 64))) := by
  have mapped := Coefficients.valueMap (X : Polynomial ℤ) (Polynomial.mapRingHom (Int.castRingHom (ZMod (2 ^ 64))))
    ((a.map Int64.toInt).map C)
  rw [List.map_map, List.map_map] at mapped
  simpa [worth, exact, polynomial, machine, Function.comp_def] using mapped

/- The longest product there is: 512 entries, one factor of 16 bits and one of 32. -/
theorem rawExact {a b : List Int64} (width : a.length = n) (enough : n ≤ b.length) (smallA : Within (2 ^ 16) a) (smallB : Within (2 ^ 31) b) :
    ∃ raw, karatsubaRaw a b = some raw ∧ raw.length = 2 * n - 1 ∧ exact raw = exact a * exact (b.take n) ∧
      ∀ i, |(raw.getD i 0).toInt| ≤ 2 ^ 56 := by
  obtain ⟨raw, ran, rawWidth, meaning⟩ := karatsubaMeaning machineWraps 4 (by rw [width]; rfl) (by omega : a.length ≤ b.length)
  have bound (i : Nat) : |(exact a * exact (b.take n)).coeff i| ≤ 2 ^ 56 := by
    have spread := Coefficients.productBound (2 ^ 16) (2 ^ 31) (a := a.map Int64.toInt) (p := exact (b.take n))
      (fun c mem => by
        obtain ⟨x, inside, rfl⟩ := List.mem_map.mp mem
        exact smallA x inside)
      (fun i => by
        rw [exactCoeff]
        by_cases inside : i < (b.take n).length
        · rw [List.getD_eq_getElem _ _ inside]
          exact smallB _ (List.mem_of_mem_take (List.getElem_mem inside))
        · rw [List.getD_eq_default _ _ (by omega), Int64.toInt_zero]
          norm_num) i
    rw [List.length_map, width, n] at spread
    norm_num at spread ⊢
    exact spread
  have entry (i : Nat) : (raw.getD i 0).toInt = (exact a * exact (b.take n)).coeff i := by
    refine machineExact ?_ ((bound i).trans_lt (by norm_num))
    have coeff := congrArg (fun p => p.coeff i) meaning
    rw [width, worthExact, worthExact, worthExact, ← Polynomial.map_mul] at coeff
    simp only [Polynomial.coeff_map, exactCoeff] at coeff
    exact coeff
  refine ⟨raw, ran, by rw [rawWidth, width], ?_, fun i => by rw [entry]; exact bound i⟩
  ext i
  rw [exactCoeff, entry]

theorem remEuclidExact (x : Int64) : (remEuclid x).toInt = x.toInt % q := by
  unfold remEuclid q
  refine Int64.toInt_ofInt_of_le ?_ ?_ <;> omega

theorem subtractedEntries (raw : List Int64) {acc : List Int64} (width : acc.length = n) {count : Nat} (inside : count ≤ n) :
    (List.range count).foldl (fun acc i => subtractFrom acc i (raw.getD (n + i) 0)) acc =
      (List.range n).map fun i => acc.getD i 0 - if i < count then raw.getD (n + i) 0 else 0 := by
  induction count with
  | zero =>
      refine List.ext_getElem (by simpa using width) fun i left right => ?_
      have inside : i < acc.length := left
      simp [List.getElem?_eq_getElem inside]
  | succ count ih =>
      rw [List.range_succ, List.foldl_append, ih (by omega)]
      refine List.ext_getElem (by simp [subtractFrom]) fun i left right => ?_
      simp only [List.foldl_cons, List.foldl_nil, subtractFrom, List.getElem_modify, List.getElem_map, List.getElem_range]
      by_cases here : count = i
      · simp [here]
      · have side : i < count ↔ i < count + 1 := by omega
        simp [here, side]

/-! Reduced, the product stands for a product in the ring. -/

noncomputable def residue (a : List Int64) : Negacyclic (ZMod 7933) n := element n (a.map fun x => (x.toInt : ZMod 7933))

theorem residueExact (a : List Int64) : residue a = AdjoinRoot.mk _ ((exact a).map (Int.castRingHom (ZMod 7933))) := by
  have mapped := Coefficients.valueMap (X : Polynomial ℤ) (Polynomial.mapRingHom (Int.castRingHom (ZMod 7933)))
    ((a.map Int64.toInt).map C)
  rw [residue, Coefficients.elementMk]
  congr 1
  rw [List.map_map, List.map_map] at mapped
  simpa [exact, polynomial, Function.comp_def] using mapped

theorem residueSum (size : Nat) {a : List Int64} (covers : a.length ≤ size) : residue a =
    ((List.range size).map fun i => AdjoinRoot.of _ ((a.getD i 0).toInt : ZMod 7933) * AdjoinRoot.root _ ^ i).sum := by
  have entry (i : Nat) : ((a.map fun x => (x.toInt : ZMod 7933)).map (AdjoinRoot.of (X ^ n + 1))).getD i 0 =
      AdjoinRoot.of _ ((a.getD i 0).toInt : ZMod 7933) := by
    have zero : AdjoinRoot.of (X ^ n + 1) (((0 : Int64).toInt : Int) : ZMod 7933) = 0 := by rw [Int64.toInt_zero, Int.cast_zero, map_zero]
    rw [← zero, List.map_map]
    exact List.getD_map a (0 : Int64) _
  rw [residue, element, valueSum _ (n := size) (by simpa using covers)]
  simp only [entry]

/- Reduced coefficients, one to each power; then an element of the ring has one list only. -/
structure Canonical (a : List Int64) : Prop where
  width : a.length = n
  reduced : ∀ x ∈ a, 0 ≤ x.toInt ∧ x.toInt < q

theorem reducedCanonical {a : List Int64} (width : a.length = n) : Canonical (reduceModQ a) := by
  refine ⟨by simpa [reduceModQ] using width, fun x mem => ?_⟩
  obtain ⟨y, _, rfl⟩ := List.mem_map.mp mem
  rw [remEuclidExact]
  unfold q
  omega

theorem reducedResidue (a : List Int64) : residue (reduceModQ a) = residue a := by
  have same (x : Int64) : ((x.toInt % q : Int) : ZMod 7933) = x.toInt := (ZMod.intCast_eq_intCast_iff _ _ _).mpr (Int.mod_modEq ..)
  simp only [residue, reduceModQ, List.map_map, Function.comp_def, remEuclidExact, same]

theorem canonicalInj {a b : List Int64} (canonicalA : Canonical a) (canonicalB : Canonical b) (same : residue a = residue b) : a = b := by
  have large : Fact (1 < 7933) := ⟨by decide⟩
  have equal := Coefficients.elementInj (by decide : 0 < n) (by simpa using canonicalA.width) (by simpa using canonicalB.width) same
  refine List.ext_getElem (canonicalA.width.trans canonicalB.width.symm) fun i left right => ?_
  have entry := congrArg (fun l => l[i]?) equal
  simp only [List.getElem?_map, List.getElem?_eq_getElem left, List.getElem?_eq_getElem right, Option.map_some, Option.some.injEq] at entry
  have congruent : a[i].toInt % (7933 : Nat) = b[i].toInt % (7933 : Nat) := (ZMod.intCast_eq_intCast_iff _ _ _).mp entry
  have lowA := canonicalA.reduced _ (List.getElem_mem left)
  have lowB := canonicalB.reduced _ (List.getElem_mem right)
  unfold q at lowA lowB
  refine Int64.toInt_inj.mp ?_
  push_cast at congruent
  omega

theorem foldedResidue {raw : List Int64} (width : raw.length ≤ 2 * n) (small : ∀ i, |(raw.getD i 0).toInt| ≤ 2 ^ 61) :
    residue ((List.range n).map fun i => raw.getD i 0 - raw.getD (n + i) 0) = residue raw := by
  have difference (i : Nat) : (raw.getD i 0 - raw.getD (n + i) 0).toInt = (raw.getD i 0).toInt - (raw.getD (n + i) 0).toInt := by
    have first := abs_le.mp (small i)
    have second := abs_le.mp (small (n + i))
    rw [Int64.toInt_sub, Int.bmod_eq_of_le] <;> omega
  have double : List.range (2 * n) = List.range n ++ (List.range n).map (n + ·) := by rw [two_mul, List.range_add]
  rw [residueSum n (by simp), residueSum _ width, double, List.map_append, List.sum_append, List.map_map, ← List.sum_map_add]
  refine congrArg List.sum (List.map_congr_left fun i mem => ?_)
  rw [madeEntry mem, difference, Function.comp_apply, pow_add, Coefficients.rootPow]
  push_cast
  rw [map_sub]
  ring

/- The upper half of the product, taken off the lower one. -/
theorem foldedUpper {raw : List Int64} (width : raw.length = 2 * n - 1) :
    (List.range (raw.length - n)).foldl (fun acc i => subtractFrom acc i (raw.getD (n + i) 0)) (raw.take n) =
      (List.range n).map fun i => raw.getD i 0 - raw.getD (n + i) 0 := by
  rw [subtractedEntries raw (by rw [List.length_take]; omega) (by omega)]
  refine List.map_congr_left fun i mem => ?_
  have near := List.mem_range.mp mem
  have front : (raw.take n).getD i 0 = raw.getD i 0 := by simp [List.getD_eq_getElem?_getD, near]
  by_cases last : i < raw.length - n
  · rw [front, if_pos last]
  · have past : raw.getD (n + i) 0 = 0 := List.getD_eq_default _ _ (by omega)
    rw [front, if_neg last, past]

theorem polyMulFolded {a b raw : List Int64} (ran : karatsubaRaw a b = some raw) (width : raw.length = 2 * n - 1) :
    polyMulModQKaratsuba a b = some (reduceModQ ((List.range n).map fun i => raw.getD i 0 - raw.getD (n + i) 0)) := by
  have wide : ¬ (raw.length < n ∨ 2 * n < raw.length) := by rw [width]; unfold n; omega
  rw [polyMulModQKaratsuba, ran, Option.bind_eq_bind, Option.bind_some, if_neg wide, foldedUpper width]
  rfl

theorem foldedMeaning {a b raw : List Int64} (width : raw.length ≤ 2 * n) (small : ∀ i, |(raw.getD i 0).toInt| ≤ 2 ^ 61)
    (product : exact raw = exact a * exact b) :
    residue (reduceModQ ((List.range n).map fun i => raw.getD i 0 - raw.getD (n + i) 0)) = residue a * residue b := by
  rw [reducedResidue, foldedResidue width small, residueExact, product, residueExact, residueExact, Polynomial.map_mul, map_mul]

theorem polyMulMeaning {a b : List Int64} (width : a.length = n) (enough : n ≤ b.length) (smallA : Within (2 ^ 16) a)
    (smallB : Within (2 ^ 31) b) :
    ∃ out, polyMulModQKaratsuba a b = some out ∧ Canonical out ∧ residue out = residue a * residue (b.take n) := by
  obtain ⟨raw, ran, rawWidth, product, small⟩ := rawExact width enough smallA smallB
  exact ⟨_, polyMulFolded ran rawWidth, reducedCanonical (by simp),
    foldedMeaning (by omega) (fun i => (small i).trans (by norm_num)) product⟩

theorem polyMulShort {a b : List Int64} (width : a.length = n) (short : b.length < n) : polyMulModQKaratsuba a b = none := by
  rw [polyMulModQKaratsuba, karatsubaShort 3 (by rw [width]; rfl) (by omega)]
  rfl

end TradeP2P.Prover
