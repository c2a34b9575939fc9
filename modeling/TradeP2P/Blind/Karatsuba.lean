import TradeP2P.Blind.PolyMul

/-! The multiplication that replaced the plain one, against it. The same code is run twice: on words that
wrap, and with every sum, difference and product checked; a check that fails ends the run. -/
namespace TradeP2P.Prover
open Coefficients (Negacyclic)
open Polynomial (C X)

/- Row by row into the reduced product: past the top a term comes back at the bottom, with its sign turned. -/
def placeTerm (acc : List Int64) (raw : Nat) (term : Int64) : List Int64 :=
  if raw < n then acc.modify raw (· + term) else subtractFrom acc (raw - n) term

def reducedRow (i : Nat) (x : Int64) (b acc : List Int64) : Option (List Int64) :=
  (List.range n).foldlM (fun acc j => do
    let y ← b[j]?
    if y = 0 then return acc else return placeTerm acc (i + j) (x * y)) acc

def polyMulModQSchoolbook (a b : List Int64) : Option (List Int64) := do
  let acc ← (List.range n).foldlM (fun acc i => do
    let x ← a[i]?
    if x = 0 then return acc else reducedRow i x b acc) (List.replicate n 0)
  return reduceModQ acc

namespace Checked

def fits (word : Int64) (value : Int) : Option Int64 := if word.toInt = value then some word else none
def add (x y : Int64) : Option Int64 := fits (x + y) (x.toInt + y.toInt)
def sub (x y : Int64) : Option Int64 := fits (x - y) (x.toInt - y.toInt)
def mul (x y : Int64) : Option Int64 := fits (x * y) (x.toInt * y.toInt)

def update (out : List Int64) (k : Nat) (f : Int64 → Option Int64) : Option (List Int64) := do
  let v ← out[k]?
  let w ← f v
  return out.set k w

def schoolbookRow (size i : Nat) (x : Int64) (b out : List Int64) : Option (List Int64) :=
  (List.range size).foldlM (fun out j => do
    let y ← b[j]?
    let term ← mul x y
    update out (i + j) (add · term)) out

def schoolbookRaw (a b : List Int64) : Option (List Int64) :=
  (List.range a.length).foldlM (fun out i =>
    let x := a.getD i 0
    if x = 0 then some out else schoolbookRow a.length i x b out) (List.replicate (2 * a.length - 1) 0)

def addInto (offset : Nat) (terms out : List Int64) : Option (List Int64) :=
  (List.range terms.length).foldlM (fun out i => update out (i + offset) (add · (terms.getD i 0))) out

def addHalves (half : Nat) (lo hi : List Int64) : Option (List Int64) :=
  (List.range half).mapM fun i => add (lo.getD i 0) (hi.getD i 0)

def middleTerms (z0 z1Full z2 : List Int64) : Option (List Int64) :=
  (List.range z1Full.length).mapM fun i => do
    let rest ← sub (z1Full.getD i 0) (z0.getD i 0)
    sub rest (z2.getD i 0)

def combine (size half : Nat) (z0 z1Full z2 : List Int64) : Option (List Int64) := do
  let low ← addInto 0 z0 (List.replicate (2 * size - 1) 0)
  let middle ← middleTerms z0 z1Full z2
  let both ← addInto half middle low
  addInto (2 * half) z2 both

theorem mapMLength {ι : Type} {f : ι → Option Int64} {items : List ι} {made : List Int64} (ran : items.mapM f = some made) :
    made.length = items.length := by
  induction items generalizing made with
  | nil =>
      cases ran
      rfl
  | cons i rest ih =>
      rw [List.mapM_cons] at ran
      obtain ⟨x, _, ran⟩ := Option.bind_eq_some_iff.mp ran
      obtain ⟨others, later, made⟩ := Option.bind_eq_some_iff.mp ran
      cases made
      rw [List.length_cons, ih later, List.length_cons]

theorem addHalvesLength {half : Nat} {lo hi sums : List Int64} (added : addHalves half lo hi = some sums) : sums.length = half := by
  rw [addHalves] at added
  rw [mapMLength added, List.length_range]

def karatsubaRaw (a b : List Int64) : Option (List Int64) :=
  if small : a.length ≤ karatsubaBaseCase then schoolbookRaw a b
  else
    let half := a.length / 2
    if b.length < half then none
    else do
      let z0 ← karatsubaRaw (a.take half) (b.take half)
      let z2 ← karatsubaRaw (a.drop half) (b.drop half)
      if (b.drop half).length < half then none
      else do
        let aSum ← (addHalves half (a.take half) (a.drop half)).attach
        let bSum ← addHalves half (b.take half) (b.drop half)
        let z1Full ← karatsubaRaw aSum.val bSum
        combine a.length half z0 z1Full z2
termination_by a.length
decreasing_by
  · unfold karatsubaBaseCase at small
    rw [List.length_take]
    omega
  · unfold karatsubaBaseCase at small
    rw [List.length_drop]
    omega
  · unfold karatsubaBaseCase at small
    rw [addHalvesLength aSum.property]
    omega

def polyMulModQKaratsuba (a b : List Int64) : Option (List Int64) := do
  let raw ← karatsubaRaw a b
  if raw.length < n ∨ 2 * n < raw.length then none
  else do
    let acc ← (List.range (raw.length - n)).foldlM (fun acc i => update acc i (sub · (raw.getD (n + i) 0))) (raw.take n)
    return reduceModQ acc

def placeTerm (acc : List Int64) (raw : Nat) (term : Int64) : Option (List Int64) :=
  if raw < n then update acc raw (add · term) else update acc (raw - n) (sub · term)

def reducedRow (i : Nat) (x : Int64) (b acc : List Int64) : Option (List Int64) :=
  (List.range n).foldlM (fun acc j => do
    let y ← b[j]?
    if y = 0 then return acc
    else do
      let term ← mul x y
      placeTerm acc (i + j) term) acc

def polyMulModQSchoolbook (a b : List Int64) : Option (List Int64) := do
  let acc ← (List.range n).foldlM (fun acc i => do
    let x ← a[i]?
    if x = 0 then return acc else reducedRow i x b acc) (List.replicate n 0)
  return reduceModQ acc

/-! A check passes where the exact value fits, and then the word is that value. -/

theorem wordFits {x : Int} (small : |x| < 2 ^ 63) : x.bmod (2 ^ 64) = x := by
  obtain ⟨low, high⟩ := abs_lt.mp small
  refine Int.bmod_eq_of_le ?_ ?_ <;> omega

theorem fitsExact {word : Int64} {x : Int} (wrapped : word.toInt = x.bmod (2 ^ 64)) (small : |x| < 2 ^ 63) :
    fits word x = some word ∧ word.toInt = x := by
  have exact : word.toInt = x := wrapped.trans (wordFits small)
  exact ⟨if_pos exact, exact⟩

theorem addExact {x y : Int64} (small : |x.toInt + y.toInt| < 2 ^ 63) :
    add x y = some (x + y) ∧ (x + y).toInt = x.toInt + y.toInt := fitsExact (Int64.toInt_add x y) small

theorem subExact {x y : Int64} (small : |x.toInt - y.toInt| < 2 ^ 63) :
    sub x y = some (x - y) ∧ (x - y).toInt = x.toInt - y.toInt := fitsExact (Int64.toInt_sub x y) small

theorem mulExact {x y : Int64} (small : |x.toInt * y.toInt| < 2 ^ 63) :
    mul x y = some (x * y) ∧ (x * y).toInt = x.toInt * y.toInt := fitsExact (Int64.toInt_mul x y) small

theorem updateSome {f : Int64 → Option Int64} {g : Int64 → Int64} {out : List Int64} {k : Nat} (inside : k < out.length)
    (value : f (out.getD k 0) = some (g (out.getD k 0))) : update out k f = some (out.modify k g) := by
  have read : out[k]? = some (out.getD k 0) := by rw [List.getD_eq_getElem _ _ inside, List.getElem?_eq_getElem inside]
  rw [update, read, Option.bind_eq_bind, Option.bind_some, value, Option.bind_some, Coefficients.modifySet inside g 0]
  rfl

theorem modifiedEntry {out : List Int64} {k : Nat} (inside : k < out.length) (g : Int64 → Int64) (i : Nat) :
    (out.modify k g).getD i 0 = if k = i then g (out.getD k 0) else out.getD i 0 := by
  simp only [List.getD_eq_getElem?_getD, List.getElem?_modify]
  by_cases here : k = i
  · subst here
    simp [List.getElem?_eq_getElem inside]
  · simp [here]

/- Adding at a place adds a term to the polynomial, if the new coefficient fits. -/
theorem addAtExact (out : List Int64) (k : Nat) (c : Int64) (inside : k < out.length)
    (small : |(exact out + C c.toInt * X ^ k).coeff k| < 2 ^ 63) :
    update out k (add · c) = some (out.modify k (· + c)) ∧ exact (out.modify k (· + c)) = exact out + C c.toInt * X ^ k := by
  rw [Polynomial.coeff_add, exactCoeff, Polynomial.coeff_C_mul_X_pow, if_pos rfl] at small
  obtain ⟨added, sum⟩ := addExact small
  refine ⟨updateSome inside added, ?_⟩
  ext i
  rw [exactCoeff, modifiedEntry inside, Polynomial.coeff_add, exactCoeff, Polynomial.coeff_C_mul_X_pow]
  by_cases here : k = i
  · subst here
    rw [if_pos rfl, if_pos rfl, sum]
  · rw [if_neg here, if_neg (Ne.symm here), add_zero]

/-! How large a coefficient can get is read off the exact product, not off the steps. -/

theorem exactZeros (count : Nat) : exact (List.replicate count 0) = 0 := by
  have zero (i : Nat) : (List.replicate count (0 : Int64)).getD i 0 = 0 := by
    simp only [List.getD_eq_getElem?_getD, List.getElem?_replicate]
    by_cases inside : i < count <;> simp [inside]
  ext i
  rw [exactCoeff, zero, Polynomial.coeff_zero]
  rfl

theorem exactTakeSucc {b : List Int64} {j : Nat} : exact (b.take (j + 1)) = exact (b.take j) + C (b.getD j 0).toInt * X ^ j := by
  ext i
  rw [Polynomial.coeff_add, exactCoeff, exactCoeff, Polynomial.coeff_C_mul_X_pow]
  have cut (count : Nat) : (b.take count).getD i 0 = if i < count then b.getD i 0 else 0 := by
    by_cases near : i < count <;> simp [List.getD_eq_getElem?_getD, near]
  rw [cut, cut]
  by_cases here : i = j
  · subst here
    simp
  · have side : i < j + 1 ↔ i < j := by omega
    simp [here, side]

theorem withinEntry {bound : Int} (positive : 0 ≤ bound) {a : List Int64} (small : Within bound a) (i : Nat) :
    |(a.getD i 0).toInt| ≤ bound := by
  by_cases inside : i < a.length
  · rw [List.getD_eq_getElem _ _ inside]
    exact small _ (List.getElem_mem inside)
  · rw [List.getD_eq_default _ _ (by omega), Int64.toInt_zero, abs_zero]
    exact positive

theorem withinCoeff {bound : Int} (positive : 0 ≤ bound) {a : List Int64} (small : Within bound a) (i : Nat) :
    |(exact a).coeff i| ≤ bound := by
  rw [exactCoeff]
  exact withinEntry positive small i

theorem coeffWithin {bound : Int} {a : List Int64} (small : ∀ i, |(exact a).coeff i| ≤ bound) : Within bound a := by
  intro x mem
  obtain ⟨i, inside, rfl⟩ := List.mem_iff_getElem.mp mem
  have entry := small i
  rwa [exactCoeff, List.getD_eq_getElem _ _ inside] at entry

theorem withinTake {bound : Int} {a : List Int64} (small : Within bound a) (count : Nat) : Within bound (a.take count) :=
  fun x mem => small x (List.mem_of_mem_take mem)

theorem withinDrop {bound : Int} {a : List Int64} (small : Within bound a) (count : Nat) : Within bound (a.drop count) :=
  fun x mem => small x (List.mem_of_mem_drop mem)

section Bounds
variable {A B : Int} (positiveA : 0 ≤ A) (positiveB : 0 ≤ B) {a b : List Int64} (smallA : Within A a) (smallB : Within B b)
include positiveA positiveB smallA smallB

theorem productEntry (x y : Nat) : |(a.getD x 0).toInt * (b.getD y 0).toInt| ≤ A * B := by
  rw [abs_mul]
  exact mul_le_mul (withinEntry positiveA smallA x) (withinEntry positiveB smallB y) (abs_nonneg _) positiveA

omit positiveA in
theorem productCoeff (i : Nat) : |(exact a * exact b).coeff i| ≤ a.length * (A * B) := by
  have spread := Coefficients.productBound A B (a := a.map Int64.toInt) (p := exact b)
    (fun c mem => by
      obtain ⟨x, inside, rfl⟩ := List.mem_map.mp mem
      exact smallA x inside) (withinCoeff positiveB smallB) i
  rwa [List.length_map] at spread

omit smallA smallB positiveB in
theorem rowCoeff {c : Int} (smallC : |c| ≤ A) {p : Polynomial ℤ} (smallP : ∀ k, |p.coeff k| ≤ B) (i k : Nat) :
    |(C c * X ^ i * p).coeff k| ≤ A * B := by
  rw [mul_assoc, Polynomial.coeff_C_mul, Polynomial.coeff_X_pow_mul', abs_mul]
  refine mul_le_mul smallC ?_ (abs_nonneg _) positiveA
  by_cases near : i ≤ k
  · rw [if_pos near]
    exact smallP (k - i)
  · rw [if_neg near, abs_zero]
    exact (abs_nonneg _).trans (smallP 0)

/- One row, checked and unchecked, as long as no coefficient on the way outgrows a word. -/
theorem rowExact {size : Nat} (i x : Nat) (out : List Int64) (enough : size ≤ b.length) (fits : i + size ≤ out.length)
    {grown : Int} (before : ∀ k, |(exact out).coeff k| ≤ grown) (room : grown + A * B < 2 ^ 63) :
    ∃ out', schoolbookRow size i (a.getD x 0) b out = some out' ∧ Prover.schoolbookRow size i (a.getD x 0) b out = some out' ∧
      out'.length = out.length ∧ exact out' = exact out + C (a.getD x 0).toInt * X ^ i * exact (b.take size) := by
  have nonneg : 0 ≤ grown := (abs_nonneg _).trans (before 0)
  have sums (j k : Nat) : |(exact out + C (a.getD x 0).toInt * X ^ i * exact (b.take j)).coeff k| < 2 ^ 63 := by
    rw [Polynomial.coeff_add]
    refine lt_of_le_of_lt (abs_add_le _ _) (lt_of_le_of_lt (add_le_add (before k) ?_) room)
    exact rowCoeff positiveA (withinEntry positiveA smallA x) (withinCoeff positiveB (withinTake smallB j)) i k
  refine Coefficients.foldRange (fun j mid => mid.length = out.length ∧
    exact mid = exact out + C (a.getD x 0).toInt * X ^ i * exact (b.take j)) size ?_ out ⟨rfl, by simp [exact, Coefficients.polynomial]⟩
  intro j near mid kept
  obtain ⟨width, meaning⟩ := kept
  have read : b[j]? = some (b.getD j 0) := by rw [List.getD_eq_getElem _ _ (by omega), List.getElem?_eq_getElem (by omega)]
  obtain ⟨multiplied, product⟩ := mulExact (lt_of_le_of_lt (productEntry positiveA positiveB smallA smallB x j) (by omega))
  have grows : exact mid + C (a.getD x 0 * b.getD j 0).toInt * X ^ (i + j) =
      exact out + C (a.getD x 0).toInt * X ^ i * exact (b.take (j + 1)) := by
    rw [meaning, product, exactTakeSucc, map_mul, pow_add]
    ring
  obtain ⟨added, after⟩ := addAtExact mid (i + j) (a.getD x 0 * b.getD j 0) (by omega) (by rw [grows]; exact sums _ _)
  refine ⟨mid.modify (i + j) (· + a.getD x 0 * b.getD j 0), ?_, ?_, by simpa using width, after.trans grows⟩
  · rw [read, Option.bind_eq_bind, Option.bind_some, multiplied, Option.bind_some, added]
  · rw [read]
    rfl

theorem schoolbookExact (width : a.length = b.length) (room : (a.length + 1 : Int) * (A * B) < 2 ^ 63) :
    ∃ out, schoolbookRaw a b = some out ∧ Prover.schoolbookRaw a b = some out ∧ out.length = 2 * a.length - 1 ∧
      exact out = exact a * exact b := by
  have whole (l : List Int64) {size : Nat} (all : l.length = size) : l.take size = l := by rw [← all, List.take_length]
  have cell : 0 ≤ A * B := mul_nonneg positiveA positiveB
  obtain ⟨out, ran, plain, kept⟩ := Coefficients.foldRange
    (f := fun out i => if a.getD i 0 = 0 then some out else schoolbookRow a.length i (a.getD i 0) b out)
    (g := fun out i => if a.getD i 0 = 0 then some out else Prover.schoolbookRow a.length i (a.getD i 0) b out)
    (fun i mid => mid.length = 2 * a.length - 1 ∧ exact mid = exact (a.take i) * exact b) a.length
    (fun i near mid kept => by
      obtain ⟨wide, meaning⟩ := kept
      by_cases zero : a.getD i 0 = 0
      · refine ⟨mid, if_pos zero, if_pos zero, wide, ?_⟩
        rw [exactTakeSucc, zero, meaning, Int64.toInt_zero, map_zero, zero_mul, add_zero]
      have grown (k : Nat) : |(exact mid).coeff k| ≤ a.length * (A * B) := by
        rw [meaning]
        refine (productCoeff positiveB (withinTake smallA i) smallB k).trans (mul_le_mul_of_nonneg_right ?_ cell)
        exact_mod_cast List.length_take_le' i a
      obtain ⟨out', ran, plain, kept, total⟩ := rowExact positiveA positiveB smallA smallB i i mid width.le
        (by omega) grown (by linarith)
      refine ⟨out', by rw [if_neg zero]; exact ran, by rw [if_neg zero]; exact plain, kept.trans wide, ?_⟩
      rw [total, meaning, whole b width.symm, exactTakeSucc]
      ring)
    (List.replicate (2 * a.length - 1) 0) ⟨by simp, by rw [exactZeros, List.take_zero]; simp [exact, Coefficients.polynomial]⟩
  refine ⟨out, ran, plain, kept.1, ?_⟩
  rw [kept.2, whole a rfl]

end Bounds

/- A list made entry by entry. -/
theorem exactMade {size : Nat} {f : Nat → Int64} {p : Polynomial ℤ} (entries : ∀ i < size, (f i).toInt = p.coeff i)
    (past : ∀ i, size ≤ i → p.coeff i = 0) : exact ((List.range size).map f) = p := by
  ext i
  rw [exactCoeff]
  by_cases inside : i < size
  · rw [madeEntry (List.mem_range.mpr inside), entries i inside]
  · rw [List.getD_eq_default _ _ (by simpa using inside), past i (by omega)]
    rfl

theorem exactPast {a : List Int64} {i : Nat} (far : a.length ≤ i) : (exact a).coeff i = 0 := by
  rw [exactCoeff, List.getD_eq_default _ _ far]
  rfl

theorem addHalvesExact {half : Nat} {lo hi : List Int64} {A : Int} (positive : 0 ≤ A) (widthLo : lo.length = half) (widthHi : hi.length = half)
    (smallLo : Within A lo) (smallHi : Within A hi) (room : 2 * A < 2 ^ 63) :
    addHalves half lo hi = some (Prover.addHalves half lo hi) ∧ exact (Prover.addHalves half lo hi) = exact lo + exact hi ∧
      Within (2 * A) (Prover.addHalves half lo hi) := by
  have sum (i : Nat) : |(lo.getD i 0).toInt + (hi.getD i 0).toInt| ≤ 2 * A := by
    refine (abs_add_le _ _).trans ?_
    linarith [withinEntry positive smallLo i, withinEntry positive smallHi i]
  have meaning : exact (Prover.addHalves half lo hi) = exact lo + exact hi := by
    refine exactMade (fun i _ => ?_) (fun i far => ?_)
    · rw [(addExact ((sum i).trans_lt room)).2, Polynomial.coeff_add, exactCoeff, exactCoeff]
    · rw [Polynomial.coeff_add, exactPast (by omega), exactPast (by omega), add_zero]
  refine ⟨Coefficients.mapMSome fun i _ => (addExact ((sum i).trans_lt room)).1, meaning, coeffWithin fun i => ?_⟩
  rw [meaning, Polynomial.coeff_add, exactCoeff, exactCoeff]
  exact sum i

theorem middleTermsExact {z0 z1Full z2 : List Int64} {H : Int} (low : z0.length = z1Full.length) (high : z2.length = z1Full.length)
    (small0 : ∀ i, |(exact z0).coeff i| ≤ H) (small1 : ∀ i, |(exact z1Full).coeff i| ≤ 4 * H) (small2 : ∀ i, |(exact z2).coeff i| ≤ H)
    (room : 6 * H < 2 ^ 63) :
    middleTerms z0 z1Full z2 = some (Prover.middleTerms z0 z1Full z2) ∧
      exact (Prover.middleTerms z0 z1Full z2) = exact z1Full - exact z0 - exact z2 := by
  simp only [exactCoeff] at small0 small1 small2
  have first (i : Nat) : |(z1Full.getD i 0).toInt - (z0.getD i 0).toInt| ≤ 5 * H :=
    (abs_sub _ _).trans (by linarith [small0 i, small1 i])
  have nonneg : 0 ≤ H := (abs_nonneg _).trans (small0 0)
  have one (i : Nat) := subExact ((first i).trans_lt (by linarith : 5 * H < 2 ^ 63))
  have second (i : Nat) : |(z1Full.getD i 0 - z0.getD i 0).toInt - (z2.getD i 0).toInt| ≤ 6 * H := by
    rw [(one i).2]
    exact (abs_sub _ _).trans (by linarith [first i, small2 i])
  have both (i : Nat) := subExact ((second i).trans_lt room)
  refine ⟨Coefficients.mapMSome fun i _ => ?_, exactMade (fun i _ => ?_) (fun i far => ?_)⟩
  · rw [(one i).1, Option.bind_eq_bind, Option.bind_some, (both i).1]
  · rw [(both i).2, (one i).2, Polynomial.coeff_sub, Polynomial.coeff_sub, exactCoeff, exactCoeff, exactCoeff]
  · rw [Polynomial.coeff_sub, Polynomial.coeff_sub, exactPast far, exactPast (by omega), exactPast (by omega)]
    rfl

theorem addIntoExact (offset : Nat) (terms : List Int64) {out : List Int64} {P T : Int} (fits : terms.length + offset ≤ out.length)
    (before : ∀ k, |(exact out).coeff k| ≤ P) (small : ∀ k, |(exact terms).coeff k| ≤ T) (room : P + T < 2 ^ 63) :
    addInto offset terms out = some (Prover.addInto offset terms out) ∧ (Prover.addInto offset terms out).length = out.length ∧
      exact (Prover.addInto offset terms out) = exact out + X ^ offset * exact terms ∧
      ∀ k, |(exact (Prover.addInto offset terms out)).coeff k| ≤ P + T := by
  have nonneg : 0 ≤ T := (abs_nonneg _).trans (small 0)
  have sums (i k : Nat) : |(exact out + X ^ offset * exact (terms.take i)).coeff k| ≤ P + T := by
    rw [Polynomial.coeff_add, Polynomial.coeff_X_pow_mul']
    refine (abs_add_le _ _).trans (add_le_add (before k) ?_)
    by_cases near : offset ≤ k
    · rw [if_pos near]
      exact withinCoeff nonneg (withinTake (coeffWithin small) i) _
    · rw [if_neg near, abs_zero]
      exact nonneg
  obtain ⟨out', ran, plain, width, meaning⟩ := Coefficients.foldRange
    (f := fun out i => update out (i + offset) (add · (terms.getD i 0)))
    (g := fun out i => some (out.modify (i + offset) (· + terms.getD i 0)))
    (fun i mid => mid.length = out.length ∧ exact mid = exact out + X ^ offset * exact (terms.take i)) terms.length
    (fun i near mid kept => by
      obtain ⟨width, meaning⟩ := kept
      have grows : exact mid + C (terms.getD i 0).toInt * X ^ (i + offset) = exact out + X ^ offset * exact (terms.take (i + 1)) := by
        rw [meaning, exactTakeSucc, pow_add]
        ring
      obtain ⟨added, after⟩ := addAtExact mid (i + offset) (terms.getD i 0) (by omega)
        (by rw [grows]; exact (sums _ _).trans_lt room)
      exact ⟨_, added, rfl, by simpa using width, after.trans grows⟩)
    out ⟨rfl, by simp [exact, Coefficients.polynomial]⟩
  have same : Prover.addInto offset terms out = out' := Option.some.inj ((List.foldlM_pure (m := Option)).symm.trans plain)
  rw [List.take_length] at meaning
  refine ⟨ran.trans (congrArg some same.symm), by rw [same, width], by rw [same, meaning], fun k => ?_⟩
  rw [same, meaning, ← List.take_length (l := terms)]
  exact sums _ _

theorem combineExact {size half : Nat} {z0 z1Full z2 : List Int64} {H : Int} {lowA highA lowB highB : Polynomial ℤ}
    (double : size = 2 * half) (positive : 0 < half) (width0 : z0.length = 2 * half - 1) (width1 : z1Full.length = 2 * half - 1)
    (width2 : z2.length = 2 * half - 1) (small0 : ∀ i, |(exact z0).coeff i| ≤ H) (small1 : ∀ i, |(exact z1Full).coeff i| ≤ 4 * H)
    (small2 : ∀ i, |(exact z2).coeff i| ≤ H) (room : 8 * H < 2 ^ 63) (low : exact z0 = lowA * lowB) (high : exact z2 = highA * highB)
    (full : exact z1Full = (lowA + highA) * (lowB + highB)) :
    combine size half z0 z1Full z2 = some (Prover.combine size half z0 z1Full z2) ∧
      (Prover.combine size half z0 z1Full z2).length = 2 * size - 1 ∧
      exact (Prover.combine size half z0 z1Full z2) = (lowA + X ^ half * highA) * (lowB + X ^ half * highB) := by
  have nonneg : 0 ≤ H := (abs_nonneg _).trans (small0 0)
  have zeros (k : Nat) : |(exact (List.replicate (2 * size - 1) 0)).coeff k| ≤ 0 := by
    rw [exactZeros, Polynomial.coeff_zero, abs_zero]
  obtain ⟨middled, middle⟩ := middleTermsExact (width0.trans width1.symm) (width2.trans width1.symm) small0 small1 small2 (by linarith)
  have middleWidth : (Prover.middleTerms z0 z1Full z2).length = 2 * half - 1 := by
    rw [Prover.middleTerms, List.length_map, List.length_range, width1]
  have middleSmall (k : Nat) : |(exact (Prover.middleTerms z0 z1Full z2)).coeff k| ≤ 6 * H := by
    rw [middle, Polynomial.coeff_sub, Polynomial.coeff_sub]
    refine (abs_sub _ _).trans ?_
    linarith [abs_sub ((exact z1Full).coeff k) ((exact z0).coeff k), small0 k, small1 k, small2 k]
  obtain ⟨ran0, wide0, total0, bound0⟩ := addIntoExact 0 z0 (by rw [List.length_replicate]; omega) zeros small0
    (by linarith)
  obtain ⟨ran1, wide1, total1, bound1⟩ := addIntoExact half (Prover.middleTerms z0 z1Full z2)
    (by rw [wide0, List.length_replicate]; omega) bound0 middleSmall (by linarith)
  obtain ⟨ran2, wide2, total2, _⟩ := addIntoExact (2 * half) z2 (by rw [wide1, wide0, List.length_replicate]; omega)
    bound1 small2 (by linarith)
  refine ⟨?_, by rw [Prover.combine, wide2, wide1, wide0, List.length_replicate], ?_⟩
  · rw [combine, ran0, Option.bind_eq_bind, Option.bind_some, middled, Option.bind_some, ran1, Option.bind_some, ran2]
    rfl
  · rw [Prover.combine, total2, total1, total0, exactZeros, middle, low, high, full]
    ring

theorem exactSplit (half : Nat) {a : List Int64} (inside : half ≤ a.length) :
    exact a = exact (a.take half) + X ^ half * exact (a.drop half) := by
  have joined := Coefficients.valueAppend (X : Polynomial ℤ) (((a.take half).map Int64.toInt).map C) (((a.drop half).map Int64.toInt).map C)
  rw [← List.map_append, ← List.map_append, List.take_append_drop, List.length_map, List.length_map, List.length_take,
    Nat.min_eq_left inside] at joined
  exact joined

theorem attachBind {β γ : Type} {o : Option β} {x : β} (found : o = some x) (f : {y // o = some y} → Option γ) :
    o.attach.bind f = f ⟨x, found⟩ := by
  subst found
  rfl

theorem karatsubaCut {a b sumsA : List Int64} {half : Nat} (big : ¬a.length ≤ karatsubaBaseCase) (halved : a.length / 2 = half)
    (added : addHalves half (a.take half) (a.drop half) = some sumsA) :
    karatsubaRaw a b =
      (if b.length < half then none
      else do
        let z0 ← karatsubaRaw (a.take half) (b.take half)
        let z2 ← karatsubaRaw (a.drop half) (b.drop half)
        if (b.drop half).length < half then none
        else do
          let sumsB ← addHalves half (b.take half) (b.drop half)
          let z1Full ← karatsubaRaw sumsA sumsB
          combine a.length half z0 z1Full z2) := by
  subst halved
  rw [karatsubaRaw, dif_neg big]
  simp only [Option.bind_eq_bind, attachBind added]

/- Each level doubles what the half sums may be and halves the length; the levels that are left double the product's bound. -/
theorem karatsubaExact (depth : Nat) {a b : List Int64} {A B : Int} (even : a.length = 32 * 2 ^ depth) (width : a.length = b.length)
    (positiveA : 1 ≤ A) (positiveB : 1 ≤ B) (smallA : Within A a) (smallB : Within B b)
    (room : a.length * (A * B) * 2 ^ (depth + 1) < 2 ^ 63) :
    ∃ out, karatsubaRaw a b = some out ∧ Prover.karatsubaRaw a b = some out ∧ out.length = 2 * a.length - 1 ∧
      exact out = exact a * exact b := by
  induction depth generalizing a b A B with
  | zero =>
      have base : a.length ≤ karatsubaBaseCase := by rw [even]; decide
      rw [karatsubaRaw, dif_pos base, Prover.karatsubaRaw, dif_pos base]
      have cell : 1 ≤ A * B := one_le_mul_of_one_le_of_one_le positiveA positiveB
      have long : (a.length : Int) = 32 := by rw [even]; rfl
      refine schoolbookExact (by linarith) (by linarith) smallA smallB width ?_
      rw [long, pow_succ, pow_zero] at room
      rw [long]
      linarith
  | succ depth ih =>
      have levels : 0 < 2 ^ depth := Nat.two_pow_pos depth
      have double : a.length = 2 * (32 * 2 ^ depth) := by rw [even, pow_succ]; ring
      generalize halfIs : 32 * 2 ^ depth = half at double ih
      have halved : a.length / 2 = half := by omega
      have cell : 1 ≤ A * B := one_le_mul_of_one_le_of_one_le positiveA positiveB
      have powers : (1 : Int) ≤ 2 ^ depth := one_le_pow₀ (by norm_num)
      have long : (1 : Int) ≤ half := by omega
      have lowA : (a.take half).length = half := by rw [List.length_take]; omega
      have highA : (a.drop half).length = half := by rw [List.length_drop]; omega
      have lowB : (b.take half).length = half := by rw [List.length_take]; omega
      have highB : (b.drop half).length = half := by rw [List.length_drop]; omega
      have block : 1 ≤ half * (A * B) := one_le_mul_of_one_le_of_one_le long cell
      have whole : (half * (A * B)) * 2 ^ depth * 8 < 2 ^ 63 := by
        rw [double] at room
        push_cast [pow_succ] at room
        linarith
      have block8 : 8 * (half * (A * B)) < 2 ^ 63 := by nlinarith
      have least : 2 * A < 2 ^ 63 ∧ 2 * B < 2 ^ 63 := by
        constructor <;> nlinarith
      obtain ⟨z0, ran0, plain0, width0, low⟩ := ih lowA (lowA.trans lowB.symm) positiveA positiveB (withinTake smallA half)
        (withinTake smallB half) (by rw [lowA, pow_succ]; linarith)
      obtain ⟨z2, ran2, plain2, width2, high⟩ := ih highA (highA.trans highB.symm) positiveA positiveB (withinDrop smallA half)
        (withinDrop smallB half) (by rw [highA, pow_succ]; linarith)
      obtain ⟨addedA, sumA, boundA⟩ := addHalvesExact (by linarith) lowA highA (withinTake smallA half) (withinDrop smallA half) least.1
      obtain ⟨addedB, sumB, boundB⟩ := addHalvesExact (by linarith) lowB highB (withinTake smallB half) (withinDrop smallB half) least.2
      have sumWidth (lo hi : List Int64) : (Prover.addHalves half lo hi).length = half := by simp [Prover.addHalves]
      obtain ⟨z1, ran1, plain1, width1, full⟩ := ih (sumWidth _ _) ((sumWidth _ _).trans (sumWidth _ _).symm) (by linarith) (by linarith)
        boundA boundB (by rw [sumWidth, pow_succ]; linarith)
      rw [sumA, sumB] at full
      have small0 (i : Nat) : |(exact z0).coeff i| ≤ half * (A * B) := by
        have spread := productCoeff (by linarith) (withinTake smallA half) (withinTake smallB half) i
        rwa [← low, lowA] at spread
      have small2 (i : Nat) : |(exact z2).coeff i| ≤ half * (A * B) := by
        have spread := productCoeff (by linarith) (withinDrop smallA half) (withinDrop smallB half) i
        rwa [← high, highA] at spread
      have small1 (i : Nat) : |(exact z1).coeff i| ≤ 4 * (half * (A * B)) := by
        have spread := productCoeff (by linarith) boundA boundB i
        rw [sumA, sumB, ← full, sumWidth] at spread
        linarith
      rw [lowA] at width0
      rw [highA] at width2
      rw [sumWidth] at width1
      obtain ⟨ran, wide, total⟩ := combineExact double (by omega) width0 width1 width2 small0 small1 small2 block8 low high full
      have big : ¬a.length ≤ karatsubaBaseCase := by unfold karatsubaBaseCase; omega
      refine ⟨Prover.combine a.length half z0 z1 z2, ?_, ?_, wide, ?_⟩
      · rw [karatsubaCut big halved addedA, if_neg (by omega), ran0, Option.bind_eq_bind, Option.bind_some, ran2, Option.bind_some,
          if_neg (by omega), addedB, Option.bind_some, ran1, Option.bind_some, ran]
      · rw [Prover.karatsubaRaw, dif_neg big]
        simp only [halved]
        rw [if_neg (by omega), plain0, Option.bind_eq_bind, Option.bind_some, plain2, Option.bind_some, if_neg (by omega), plain1]
        rfl
      · rw [total, exactSplit half (a := a) (by omega), exactSplit half (a := b) (by omega)]

end Checked

/-! The reduced product. A place holds what the plain product has there, less what it has one turn further. -/

structure Folded (p : Polynomial ℤ) (acc : List Int64) : Prop where
  width : acc.length = n
  entry : ∀ k < n, (acc.getD k 0).toInt = p.coeff k - p.coeff (n + k)

theorem Folded.unique {p : Polynomial ℤ} {acc acc' : List Int64} (folded : Folded p acc) (folded' : Folded p acc') : acc = acc' := by
  refine List.ext_getElem (folded.width.trans folded'.width.symm) fun k left right => ?_
  have inside : k < n := folded.width ▸ left
  have same := (folded.entry k inside).trans (folded'.entry k inside).symm
  rw [List.getD_eq_getElem _ _ left, List.getD_eq_getElem _ _ right] at same
  exact Int64.toInt_inj.mp same

theorem termCoeff (p : Polynomial ℤ) (t : Int) (raw k : Nat) : (p + C t * X ^ raw).coeff k = p.coeff k + if k = raw then t else 0 := by
  rw [Polynomial.coeff_add, Polynomial.coeff_C_mul_X_pow]

theorem placeTermExact {p : Polynomial ℤ} {acc : List Int64} (raw : Nat) (t : Int64) (folded : Folded p acc) (inside : raw < 2 * n)
    (small : ∀ k, |(p + C t.toInt * X ^ raw).coeff k| ≤ 2 ^ 61) :
    Checked.placeTerm acc raw t = some (placeTerm acc raw t) ∧ Folded (p + C t.toInt * X ^ raw) (placeTerm acc raw t) := by
  have fits (k : Nat) : |(p + C t.toInt * X ^ raw).coeff k - (p + C t.toInt * X ^ raw).coeff (n + k)| < 2 ^ 63 :=
    (abs_sub _ _).trans_lt (by linarith [small k, small (n + k)])
  simp only [termCoeff] at fits
  unfold Checked.placeTerm placeTerm
  by_cases low : raw < n
  · have here : raw < acc.length := by rw [folded.width]; exact low
    have room := fits raw
    rw [if_pos rfl, if_neg (by unfold n; omega), add_zero, add_sub_right_comm, ← folded.entry raw low] at room
    obtain ⟨added, sum⟩ := Checked.addExact room
    rw [if_pos low, if_pos low]
    refine ⟨Checked.updateSome here added, by rw [List.length_modify, folded.width], fun k near => ?_⟩
    rw [Checked.modifiedEntry here, termCoeff, termCoeff, if_neg (by omega : ¬n + k = raw)]
    by_cases atPlace : raw = k
    · subst atPlace
      rw [if_pos rfl, if_pos rfl, sum, folded.entry raw low]
      ring
    · rw [if_neg atPlace, if_neg (Ne.symm atPlace), folded.entry k near, add_zero, add_zero]
  · have near : raw - n < n := by omega
    have here : raw - n < acc.length := by rw [folded.width]; exact near
    have room := fits (raw - n)
    rw [if_neg (by unfold n at *; omega), if_pos (by omega), add_zero, ← sub_sub, ← folded.entry (raw - n) near] at room
    obtain ⟨taken, difference⟩ := Checked.subExact room
    rw [if_neg low, if_neg low]
    refine ⟨Checked.updateSome here taken, by rw [subtractFrom, List.length_modify, folded.width], fun k inside => ?_⟩
    rw [subtractFrom, Checked.modifiedEntry here, termCoeff, termCoeff, if_neg (by omega : ¬k = raw)]
    by_cases atPlace : raw - n = k
    · subst atPlace
      rw [if_pos rfl, if_pos (by omega), difference, folded.entry _ near]
      ring
    · rw [if_neg atPlace, if_neg (by omega), folded.entry k inside, add_zero, add_zero]

section Folds
variable {a b : List Int64} {A B : Int} (widthA : a.length = n) (widthB : b.length = n) (smallA : Within A a) (smallB : Within B b)
  (positiveA : 0 ≤ A) (positiveB : 0 ≤ B) (room : 513 * (A * B) ≤ 2 ^ 61)
include widthA widthB smallA smallB positiveA positiveB room

omit widthB in
theorem partCoeff (i j k : Nat) :
    |(exact (a.take i) * exact b + C (a.getD i 0).toInt * X ^ i * exact (b.take j)).coeff k| ≤ 2 ^ 61 := by
  have cell : 0 ≤ A * B := mul_nonneg positiveA positiveB
  have count : (((a.take i).length : Nat) : Int) ≤ 512 := by
    have short := List.length_take_le' i a
    rw [widthA] at short
    exact_mod_cast short
  have rows := Checked.productCoeff positiveB (Checked.withinTake smallA i) smallB k
  have row := Checked.rowCoeff positiveA (Checked.withinEntry positiveA smallA i)
    (Checked.withinCoeff positiveB (Checked.withinTake smallB j)) i k
  rw [Polynomial.coeff_add]
  refine (abs_add_le _ _).trans ?_
  nlinarith [mul_le_mul_of_nonneg_right count cell]

theorem rowFolded {i : Nat} (inside : i < n) {acc : List Int64} (folded : Folded (exact (a.take i) * exact b) acc) :
    ∃ acc', Checked.reducedRow i (a.getD i 0) b acc = some acc' ∧ reducedRow i (a.getD i 0) b acc = some acc' ∧
      Folded (exact (a.take (i + 1)) * exact b) acc' := by
  have whole : b.take n = b := by rw [← widthB, List.take_length]
  have cell : 0 ≤ A * B := mul_nonneg positiveA positiveB
  obtain ⟨acc', ran, plain, folded⟩ := Coefficients.foldRange
    (f := fun acc j => do
      let y ← b[j]?
      if y = 0 then return acc
      else do
        let term ← Checked.mul (a.getD i 0) y
        Checked.placeTerm acc (i + j) term)
    (g := fun acc j => do
      let y ← b[j]?
      if y = 0 then return acc else return placeTerm acc (i + j) (a.getD i 0 * y))
    (fun j mid => Folded (exact (a.take i) * exact b + C (a.getD i 0).toInt * X ^ i * exact (b.take j)) mid) n
    (fun j near mid folded => by
      have read : b[j]? = some (b.getD j 0) := by
        rw [List.getD_eq_getElem _ _ (by omega), List.getElem?_eq_getElem (by omega)]
      have product := Checked.productEntry positiveA positiveB smallA smallB i j
      obtain ⟨multiplied, value⟩ := Checked.mulExact (x := a.getD i 0) (y := b.getD j 0) (by linarith)
      have grows : exact (a.take i) * exact b + C (a.getD i 0).toInt * X ^ i * exact (b.take (j + 1)) =
          exact (a.take i) * exact b + C (a.getD i 0).toInt * X ^ i * exact (b.take j) +
            C (a.getD i 0 * b.getD j 0).toInt * X ^ (i + j) := by
        rw [value, Checked.exactTakeSucc, map_mul, pow_add]
        ring
      rw [read, Option.bind_eq_bind, Option.bind_some, Option.bind_some]
      by_cases zero : b.getD j 0 = 0
      · refine ⟨mid, if_pos zero, if_pos zero, ?_⟩
        rw [Checked.exactTakeSucc, zero, Int64.toInt_zero, map_zero, zero_mul, add_zero]
        exact folded
      obtain ⟨placed, after⟩ := placeTermExact (i + j) (a.getD i 0 * b.getD j 0) folded (by omega)
        (by rw [← grows]; exact partCoeff widthA smallA smallB positiveA positiveB room i (j + 1))
      refine ⟨placeTerm mid (i + j) (a.getD i 0 * b.getD j 0), ?_, if_neg zero, grows ▸ after⟩
      rw [if_neg zero, multiplied, Option.bind_some, placed])
    acc (by simpa [exact, Coefficients.polynomial] using folded)
  refine ⟨acc', ran, plain, ?_⟩
  rw [whole] at folded
  rw [Checked.exactTakeSucc, add_mul]
  exact folded

theorem schoolbookFolded :
    ∃ acc, Folded (exact a * exact b) acc ∧ Checked.polyMulModQSchoolbook a b = some (reduceModQ acc) ∧
      polyMulModQSchoolbook a b = some (reduceModQ acc) := by
  have whole : a.take n = a := by rw [← widthA, List.take_length]
  obtain ⟨acc, ran, plain, folded⟩ := Coefficients.foldRange
    (f := fun acc i => do
      let x ← a[i]?
      if x = 0 then return acc else Checked.reducedRow i x b acc)
    (g := fun acc i => do
      let x ← a[i]?
      if x = 0 then return acc else reducedRow i x b acc)
    (fun i mid => Folded (exact (a.take i) * exact b) mid) n
    (fun i near mid folded => by
      have read : a[i]? = some (a.getD i 0) := by
        rw [List.getD_eq_getElem _ _ (by omega), List.getElem?_eq_getElem (by omega)]
      obtain ⟨acc', ran, plain, after⟩ := rowFolded widthA widthB smallA smallB positiveA positiveB room near folded
      rw [read, Option.bind_eq_bind, Option.bind_some, Option.bind_some]
      by_cases zero : a.getD i 0 = 0
      · refine ⟨mid, if_pos zero, if_pos zero, ?_⟩
        rw [Checked.exactTakeSucc, zero, Int64.toInt_zero, map_zero, zero_mul, add_zero]
        exact folded
      · exact ⟨acc', by rw [if_neg zero]; exact ran, by rw [if_neg zero]; exact plain, after⟩)
    (List.replicate n 0) (by
      refine ⟨by simp, fun k _ => ?_⟩
      have zeros := exactCoeff (List.replicate n 0) k
      rw [Checked.exactZeros] at zeros
      rw [← zeros, List.take_zero]
      simp [exact, Coefficients.polynomial])
  rw [whole] at folded
  refine ⟨acc, folded, ?_, ?_⟩
  · rw [Checked.polyMulModQSchoolbook, ran]
    rfl
  · rw [polyMulModQSchoolbook, plain]
    rfl

omit widthA widthB smallA smallB positiveA positiveB room in
/- The upper half taken off the lower one, place after place. -/
theorem foldedBack {p : Polynomial ℤ} {raw : List Int64} (width : raw.length = 2 * n - 1) (product : exact raw = p)
    (small : ∀ k, |p.coeff k| ≤ 2 ^ 61) :
    Folded p ((List.range n).map fun i => raw.getD i 0 - raw.getD (n + i) 0) ∧
      (List.range (raw.length - n)).foldlM (fun acc i => Checked.update acc i (Checked.sub · (raw.getD (n + i) 0))) (raw.take n) =
        some ((List.range n).map fun i => raw.getD i 0 - raw.getD (n + i) 0) := by
  have entry (k : Nat) : (raw.getD k 0).toInt = p.coeff k := by rw [← product, exactCoeff]
  have difference (k : Nat) := Checked.subExact (x := raw.getD k 0) (y := raw.getD (n + k) 0)
    (by rw [entry, entry]; exact (abs_sub _ _).trans_lt (by linarith [small k, small (n + k)]))
  refine ⟨⟨by simp, fun k near => ?_⟩, ?_⟩
  · rw [madeEntry (List.mem_range.mpr near), (difference k).2, entry, entry]
  obtain ⟨acc, ran, plain, kept⟩ := Coefficients.foldRange
    (f := fun acc i => Checked.update acc i (Checked.sub · (raw.getD (n + i) 0)))
    (g := fun acc i => some (subtractFrom acc i (raw.getD (n + i) 0)))
    (fun i mid => mid.length = n ∧ ∀ k, i ≤ k → mid.getD k 0 = (raw.take n).getD k 0) (raw.length - n)
    (fun i near mid kept => by
      obtain ⟨wide, rest⟩ := kept
      have front : (raw.take n).getD i 0 = raw.getD i 0 := by
        have low : i < n := by omega
        simp [List.getD_eq_getElem?_getD, low]
      refine ⟨subtractFrom mid i (raw.getD (n + i) 0), Checked.updateSome (by omega) ?_, rfl, by simpa [subtractFrom] using wide, fun k far => ?_⟩
      · rw [rest i le_rfl, front]
        exact (difference i).1
      · rw [subtractFrom, Checked.modifiedEntry (by omega), if_neg (by omega), rest k (by omega)])
    (raw.take n) ⟨by rw [List.length_take]; omega, fun _ _ => rfl⟩
  have same := Option.some.inj ((List.foldlM_pure (m := Option)).symm.trans plain)
  rw [foldedUpper width] at same
  rw [ran, same]

end Folds

/- What both are for: every step fits a word, and both give the one reduced list of the product. Whatever
the words are, as words and as whole numbers, the halving changes nothing. -/
theorem multiplicationsAgree :
    (∀ a b : List Int64, a.length = n → b.length = n → Within (2 ^ 24) a → Within (2 ^ 24) b →
      ∃ out, polyMulModQKaratsuba a b = some out ∧ polyMulModQSchoolbook a b = some out ∧
        Canonical out ∧ residue out = residue a * residue b ∧
        Checked.polyMulModQKaratsuba a b = some out ∧ Checked.polyMulModQSchoolbook a b = some out) ∧
    (∀ a b : List Int64, HalvesEvenly a.length → a.length = b.length → karatsubaRaw a b = schoolbookRaw a b) ∧
    (∀ a b : List Int, HalvesEvenly a.length → a.length = b.length → karatsubaRaw a b = schoolbookRaw a b) := by
  refine ⟨fun a b widthA widthB smallA smallB => ?_, fun a b even width => ?_, fun a b even width => ?_⟩
  · obtain ⟨raw, checked, plain, wide, product⟩ := Checked.karatsubaExact 4 widthA (widthA.trans widthB.symm) (by norm_num) (by norm_num)
      smallA smallB (by rw [widthA]; norm_num [n])
    rw [widthA] at wide
    have small (k : Nat) : |(exact a * exact b).coeff k| ≤ 2 ^ 61 := by
      refine (Checked.productCoeff (by norm_num) smallA smallB k).trans ?_
      rw [widthA]
      norm_num [n]
    have entries (i : Nat) : |(raw.getD i 0).toInt| ≤ 2 ^ 61 := by
      rw [← exactCoeff, product]
      exact small i
    obtain ⟨folded, ran⟩ := foldedBack wide product small
    obtain ⟨acc, alsoFolded, checkedSlow, slow⟩ := schoolbookFolded widthA widthB smallA smallB (by norm_num) (by norm_num) (by norm_num)
    rw [alsoFolded.unique folded] at checkedSlow slow
    refine ⟨_, polyMulFolded plain wide, slow, reducedCanonical (by simp), foldedMeaning (by omega) entries product, ?_, checkedSlow⟩
    rw [Checked.polyMulModQKaratsuba, checked, Option.bind_eq_bind, Option.bind_some, if_neg (by rw [wide]; unfold n; omega), ran]
    rfl
  · exact karatsubaSchoolbook machineWraps machineInjective even width
  · exact karatsubaSchoolbook (φ := id) ⟨rfl, fun _ _ => rfl, fun _ _ => rfl, fun _ _ => rfl⟩ Function.injective_id even width


end TradeP2P.Prover
