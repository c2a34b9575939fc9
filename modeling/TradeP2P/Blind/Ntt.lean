import TradeP2P.Lib.Butterflies
import TradeP2P.Blind.NttTables
import TradeP2P.Blind.Sampling
import Mathlib.Data.ZMod.Basic
import Mathlib.Tactic.LinearCombination

/-! The product of two polynomials through the number-theoretic transform, modulo 12289, on words of 16 and 32
bits. Sums and products wrap; a word past the middle counts as a negative one, and the modulus is put back by a
mask. Indexing past the end of a slice is a panic. -/
namespace TradeP2P.Ntt
open Butterflies

def N : Nat := 512
def Q : UInt32 := 12289
def Q0I : UInt32 := 12287
def R : UInt32 := 4091
def R2 : UInt32 := 10952

def mqAdd (x y : UInt32) : UInt32 :=
  let d := x + y - Q
  d + (Q &&& ((0 : UInt32) - (d >>> 31)))

def mqSub (x y : UInt32) : UInt32 :=
  let d := x - y
  d + (Q &&& ((0 : UInt32) - (d >>> 31)))

def mqMontymul (x y : UInt32) : UInt32 :=
  let z := x * y
  let w := ((z * Q0I) &&& 0xFFFF) * Q
  let z := (z + w) >>> 16
  let z := z - Q
  z + (Q &&& ((0 : UInt32) - (z >>> 31)))

def mqRshift1 (x : UInt32) : UInt32 :=
  let x := x + (Q &&& ((0 : UInt32) - (x &&& 1)))
  x >>> 1

/-! The loops, over whatever the entries are. `m` doubles or halves with every round, and no run uses up the
rounds it is given. -/
section Loops
variable {β : Type}

def nttLayers (f : UInt16 → β → β → β × β) : Nat → Nat → Nat → List β → Option (List β)
  | 0, _, _, _ => none
  | rounds + 1, t, m, a =>
      if m < N then do
        let ht := t >>> 1
        let a ← layer GMB f ht t m a
        nttLayers f rounds ht (m <<< 1) a
      else some a

def inttLayers (f : UInt16 → β → β → β × β) : Nat → Nat → Nat → List β → Option (List β)
  | 0, _, _, _ => none
  | rounds + 1, t, m, a =>
      if m > 1 then do
        let hm := m >>> 1
        let dt := t <<< 1
        let a ← layer IGMB f t dt hm a
        inttLayers f rounds dt hm a
      else some a

def halvings (shift : β → β) : Nat → Nat → β → Option β
  | 0, _, _ => none
  | rounds + 1, mm, ni => if mm > 1 then halvings shift rounds (mm >>> 1) (shift ni) else some ni

end Loops

def nttPair (s u v : UInt16) : UInt16 × UInt16 :=
  let v := mqMontymul v.toUInt32 s.toUInt32
  ((mqAdd u.toUInt32 v).toUInt16, (mqSub u.toUInt32 v).toUInt16)

def mqNtt (a : List UInt16) : Option (List UInt16) := nttLayers nttPair N N 1 a

def inttPair (s u v : UInt16) : UInt16 × UInt16 :=
  let w := mqSub u.toUInt32 v.toUInt32
  ((mqAdd u.toUInt32 v.toUInt32).toUInt16, (mqMontymul w s.toUInt32).toUInt16)

def mqIntt (a : List UInt16) : Option (List UInt16) := do
  let a ← inttLayers inttPair N 1 N a
  let ni ← halvings mqRshift1 N N R
  return a.map fun v => (mqMontymul v.toUInt32 ni).toUInt16

def mqPolyTomonty (f : List UInt16) : List UInt16 := f.map fun v => (mqMontymul v.toUInt32 R2).toUInt16

def mqPolyMontymulNtt (f g : List UInt16) : List UInt16 := List.zipWith (fun x y => (mqMontymul x.toUInt32 y.toUInt32).toUInt16) f g

def reduceToU16 (v : Int64) : UInt16 := UInt16.ofInt (v.toInt % 12289)

def polyMulModQNtt (a b : List Int64) : Option (List Int64) := do
  if a.length < N ∨ b.length < N then none
  let aArr := (a.take N).map reduceToU16
  let bArr := mqPolyTomonty ((b.take N).map reduceToU16)
  let aArr ← mqNtt aArr
  let bArr ← mqNtt bArr
  let aArr ← mqIntt (mqPolyMontymulNtt aArr bArr)
  return aArr.map fun v => Int64.ofNat v.toNat

/-! The same steps on integers of any size, where nothing wraps. -/
namespace Exact

def mqAdd (x y : Int) : Int :=
  let d := x + y - 12289
  if d < 0 then d + 12289 else d

def mqSub (x y : Int) : Int :=
  let d := x - y
  if d < 0 then d + 12289 else d

def mqMontymul (x y : Int) : Int :=
  let z := x * y
  let w := (z * 12287 % 65536) * 12289
  let z := (z + w) / 65536
  let z := z - 12289
  if z < 0 then z + 12289 else z

def mqRshift1 (x : Int) : Int := (if x % 2 = 1 then x + 12289 else x) / 2

def nttPair (s : UInt16) (u v : Int) : Int × Int :=
  let v := mqMontymul v s.toNat
  (mqAdd u v, mqSub u v)

def mqNtt (a : List Int) : Option (List Int) := nttLayers nttPair N N 1 a

def inttPair (s : UInt16) (u v : Int) : Int × Int :=
  let w := mqSub u v
  (mqAdd u v, mqMontymul w s.toNat)

def mqIntt (a : List Int) : Option (List Int) := do
  let a ← inttLayers inttPair N 1 N a
  let ni ← halvings mqRshift1 N N 4091
  return a.map fun v => mqMontymul v ni

def mqPolyTomonty (f : List Int) : List Int := f.map fun v => mqMontymul v 10952

def mqPolyMontymulNtt (f g : List Int) : List Int := List.zipWith mqMontymul f g

def polyMulModQNtt (a b : List Int) : Option (List Int) := do
  if a.length < N ∨ b.length < N then none
  let aArr := (a.take N).map (· % 12289)
  let bArr := mqPolyTomonty ((b.take N).map (· % 12289))
  let aArr ← mqNtt aArr
  let bArr ← mqNtt bArr
  mqIntt (mqPolyMontymulNtt aArr bArr)

end Exact

/-! One operation. On reduced words each gives what it gives on integers, reduced again. -/

def Reduced (x : UInt32) : Prop := x.toNat < 12289

theorem masked (d : UInt32) : Q &&& ((0 : UInt32) - (d >>> 31)) = if d.toNat < 2 ^ 31 then 0 else Q := by
  have top : (d >>> 31).toNat = d.toNat / 2 ^ 31 := by
    rw [UInt32.toNat_shiftRight, show (31 : UInt32).toNat % 32 = 31 by rfl, Nat.shiftRight_eq_div_pow]
  have bound := d.toNat_lt
  by_cases low : d.toNat < 2 ^ 31
  · have zero : d >>> 31 = 0 := UInt32.toNat_inj.mp (by rw [top, Nat.div_eq_of_lt low]; rfl)
    rw [if_pos low, zero]
    rfl
  · have one : d >>> 31 = 1 := UInt32.toNat_inj.mp (by rw [top, show (1 : UInt32).toNat = 1 by rfl]; omega)
    rw [if_neg low, one]
    rfl

/- The modulus is put back where the exact difference is negative. -/
theorem putBack {d : UInt32} (exact : Int) (wraps : (d.toNat : Int) = exact % 2 ^ 32) (above : -12289 ≤ exact) (below : exact < 12289) :
    ((d + (Q &&& ((0 : UInt32) - (d >>> 31)))).toNat : Int) = (if exact < 0 then exact + 12289 else exact) ∧
      (d + (Q &&& ((0 : UInt32) - (d >>> 31)))).toNat < 12289 := by
  have modulus : Q.toNat = 12289 := rfl
  rw [masked, UInt32.toNat_add]
  split <;> split <;> simp only [modulus, UInt32.toNat_zero] <;> omega

theorem mqAddExact {x y : UInt32} (smallX : Reduced x) (smallY : Reduced y) :
    ((mqAdd x y).toNat : Int) = Exact.mqAdd x.toNat y.toNat ∧ Reduced (mqAdd x y) := by
  have modulus : Q.toNat = 12289 := rfl
  unfold Reduced at *
  refine putBack (x.toNat + y.toNat - 12289) ?_ (by omega) (by omega)
  rw [UInt32.toNat_sub, UInt32.toNat_add, modulus]
  omega

theorem mqSubExact {x y : UInt32} (smallX : Reduced x) (smallY : Reduced y) :
    ((mqSub x y).toNat : Int) = Exact.mqSub x.toNat y.toNat ∧ Reduced (mqSub x y) := by
  unfold Reduced at *
  refine putBack (x.toNat - y.toNat) ?_ (by omega) (by omega)
  rw [UInt32.toNat_sub]
  omega

theorem mqMontymulExact {x y : UInt32} (smallX : Reduced x) (smallY : Reduced y) :
    ((mqMontymul x y).toNat : Int) = Exact.mqMontymul x.toNat y.toNat ∧ Reduced (mqMontymul x y) := by
  have modulus : Q.toNat = 12289 := rfl
  have factor : Q0I.toNat = 12287 := rfl
  unfold Reduced at *
  have small : x.toNat * y.toNat ≤ 12288 * 12288 := Nat.mul_le_mul (by omega) (by omega)
  have product : (x * y).toNat = x.toNat * y.toNat := by
    rw [UInt32.toNat_mul]
    omega
  have lowPart : ((x * y * Q0I) &&& 0xFFFF).toNat = x.toNat * y.toNat * 12287 % 65536 := by
    rw [UInt32.toNat_and, UInt32.toNat_mul, product, factor, show (0xFFFF : UInt32).toNat = 2 ^ 16 - 1 by rfl,
      Nat.and_two_pow_sub_one_eq_mod]
    omega
  have shifted : ((x * y + ((x * y * Q0I) &&& 0xFFFF) * Q) >>> 16).toNat =
      (x.toNat * y.toNat + x.toNat * y.toNat * 12287 % 65536 * 12289) / 65536 := by
    rw [UInt32.toNat_shiftRight, show (16 : UInt32).toNat % 32 = 16 by rfl, Nat.shiftRight_eq_div_pow, UInt32.toNat_add,
      product, UInt32.toNat_mul, lowPart, modulus]
    omega
  have exact : (x.toNat * y.toNat + x.toNat * y.toNat * 12287 % 65536 * 12289) / 65536 < 2 * 12289 := by omega
  refine putBack (((x.toNat : Int) * y.toNat + (x.toNat * y.toNat * 12287 % 65536) * 12289) / 65536 - 12289) ?_ ?_ ?_
  · rw [UInt32.toNat_sub, shifted, modulus]
    push_cast
    omega
  · omega
  · omega

/-! The words against the integers. -/

def value (x : UInt16) : Int := x.toNat

def Small (x : UInt16) : Prop := x.toNat < 12289

theorem widened {x : UInt16} (small : Small x) : Reduced x.toUInt32 := small

theorem narrowed {x : UInt32} (small : Reduced x) : value x.toUInt16 = x.toNat ∧ Small x.toUInt16 := by
  have same : x.toUInt16.toNat = x.toNat := Nat.mod_eq_of_lt (by unfold Reduced at small; omega)
  exact ⟨congrArg Nat.cast same, by rwa [Small, same]⟩

theorem montyNarrowed {x y : UInt32} {v w : Int} (smallX : Reduced x) (smallY : Reduced y) (left : (x.toNat : Int) = v) (right : (y.toNat : Int) = w) :
    value (mqMontymul x y).toUInt16 = Exact.mqMontymul v w ∧ Small (mqMontymul x y).toUInt16 := by
  obtain ⟨exact, small⟩ := mqMontymulExact smallX smallY
  obtain ⟨same, small⟩ := narrowed small
  exact ⟨by rw [same, exact, left, right], small⟩

theorem nttPairAgrees {s : UInt16} (factor : Small s) : Agrees value Small (nttPair s) (Exact.nttPair s) := by
  intro u v smallU smallV
  obtain ⟨product, small⟩ := mqMontymulExact (widened smallV) (widened factor)
  obtain ⟨sum, sumSmall⟩ := mqAddExact (widened smallU) small
  obtain ⟨difference, differenceSmall⟩ := mqSubExact (widened smallU) small
  obtain ⟨sameSum, keptSum⟩ := narrowed sumSmall
  obtain ⟨sameDifference, keptDifference⟩ := narrowed differenceSmall
  refine ⟨⟨keptSum, keptDifference⟩, ?_⟩
  simp only [Exact.nttPair, nttPair, sameSum, sum, sameDifference, difference, product]
  rfl

theorem inttPairAgrees {s : UInt16} (factor : Small s) : Agrees value Small (inttPair s) (Exact.inttPair s) := by
  intro u v smallU smallV
  obtain ⟨sum, sumSmall⟩ := mqAddExact (widened smallU) (widened smallV)
  obtain ⟨difference, differenceSmall⟩ := mqSubExact (widened smallU) (widened smallV)
  obtain ⟨sameSum, keptSum⟩ := narrowed sumSmall
  obtain ⟨product, keptProduct⟩ := montyNarrowed differenceSmall (widened factor) difference rfl
  refine ⟨⟨keptSum, keptProduct⟩, ?_⟩
  simp only [Exact.inttPair, inttPair, sameSum, sum, product]
  rfl

section Loops
variable {β γ : Type} {φ : β → γ} {keeps : β → Prop} {f : UInt16 → β → β → β × β} {g : UInt16 → γ → γ → γ × γ}

theorem nttLayersMirror (agrees : ∀ s ∈ GMB, Agrees φ keeps (f s) (g s)) (rounds t m : Nat) :
    Mirrors φ keeps (nttLayers f rounds t m) (nttLayers g rounds t m) := by
  induction rounds generalizing t m with
  | zero =>
      intro a kept
      simp [nttLayers]
  | succ rounds ih =>
      show Mirrors φ keeps (fun a => nttLayers f (rounds + 1) t m a) fun a => nttLayers g (rounds + 1) t m a
      by_cases more : m < N
      · simp only [nttLayers, if_pos more]
        exact (Agrees.layer agrees (t >>> 1) t m).bind (ih _ _)
      · simp only [nttLayers, if_neg more]
        exact Mirrors.same

theorem inttLayersMirror (agrees : ∀ s ∈ IGMB, Agrees φ keeps (f s) (g s)) (rounds t m : Nat) :
    Mirrors φ keeps (inttLayers f rounds t m) (inttLayers g rounds t m) := by
  induction rounds generalizing t m with
  | zero =>
      intro a kept
      simp [inttLayers]
  | succ rounds ih =>
      show Mirrors φ keeps (fun a => inttLayers f (rounds + 1) t m a) fun a => inttLayers g (rounds + 1) t m a
      by_cases more : m > 1
      · simp only [inttLayers, if_pos more]
        exact (Agrees.layer agrees t (t <<< 1) (m >>> 1)).bind (ih _ _)
      · simp only [inttLayers, if_neg more]
        exact Mirrors.same

/- The layers down, on blocks that fill the array. -/
theorem nttLayersMeaning {factor : Nat → UInt16} (entries : ∀ k < N, GMB[k]? = some (factor k)) (depth m rounds : Nat)
    (blocks : List (List β)) (size : blocks.length = m) (widths : ∀ b ∈ blocks, b.length = 2 ^ depth) (fills : m * 2 ^ depth = N)
    (enough : depth < rounds) :
    nttLayers f rounds (2 ^ depth) m blocks.flatten = some (descend (fun k => f (factor k)) depth m blocks).flatten := by
  induction depth generalizing m rounds blocks with
  | zero =>
      cases rounds with
      | zero => omega
      | succ rounds => rw [nttLayers, if_neg (by omega), descend]
  | succ depth ih =>
      cases rounds with
      | zero => omega
      | succ rounds =>
          have double : 2 ^ (depth + 1) = 2 * 2 ^ depth := by ring
          have positive : 0 < m := Nat.pos_of_ne_zero fun none => by simp [none, N] at fills
          have inside : 2 * m ≤ N := by
            rw [double] at fills
            nlinarith [Nat.one_le_two_pow (n := depth)]
          rw [double] at widths
          have half : 2 ^ (depth + 1) >>> 1 = 2 ^ depth := by
            rw [Nat.shiftRight_eq_div_pow]
            omega
          have twice : m <<< 1 = 2 * m := by
            rw [Nat.shiftLeft_eq]
            ring
          have here := layerMeaning f factor size widths fun i small => entries (m + i) (by omega)
          have below := ih (2 * m) rounds (halved (crossedBlocks (fun k => f (factor k)) m blocks))
            (by rw [halvedLength, crossedBlocksLength, size]) (halvedWidths (crossedBlocksWidths _ widths))
            (by rw [← fills]; ring) (by omega)
          rw [nttLayers, if_pos (by omega), half, double, twice]
          simp only [here, Option.bind_eq_bind, Option.bind_some]
          rw [← halvedFlatten (crossedBlocks _ _ _), below, descend]

theorem inttLayersMeaning {factor : Nat → UInt16} (entries : ∀ k < N, IGMB[k]? = some (factor k)) (depth t rounds : Nat)
    (blocks : List (List β)) (size : blocks.length = 2 ^ depth) (widths : ∀ b ∈ blocks, b.length = t) (fits : 2 ^ depth ≤ N)
    (enough : depth < rounds) :
    inttLayers f rounds t (2 ^ depth) blocks.flatten = some (ascend (fun k => f (factor k)) depth 1 blocks).flatten := by
  induction depth generalizing t rounds blocks with
  | zero =>
      cases rounds with
      | zero => omega
      | succ rounds => rw [inttLayers, if_neg (by omega), ascend]
  | succ depth ih =>
      cases rounds with
      | zero => omega
      | succ rounds =>
          have double : 2 ^ (depth + 1) = 2 * 2 ^ depth := by ring
          have positive := Nat.one_le_two_pow (n := depth)
          have half : 2 ^ (depth + 1) >>> 1 = 2 ^ depth := by
            rw [Nat.shiftRight_eq_div_pow]
            omega
          have twice : t <<< 1 = 2 * t := by
            rw [Nat.shiftLeft_eq]
            ring
          rw [double] at size
          have pairs := pairedWidths size widths
          have count := pairedLength size widths
          have here := layerMeaning f factor count pairs fun i small => entries _ (by omega)
          have below := ih (2 * t) rounds (crossedBlocks (fun k => f (factor k)) (2 ^ depth) (paired blocks))
            (by rw [crossedBlocksLength, count]) (crossedBlocksWidths _ pairs) (by omega) (by omega)
          rw [inttLayers, if_pos (by omega), half, twice, ← pairedFlatten size widths]
          simp only [here, Option.bind_eq_bind, Option.bind_some]
          rw [below, ascend, mul_one]

end Loops

/-! The tables: under every factor stand a square root of it and one of its negative. -/

def squaresTo : List UInt16 → List UInt16 → Bool
  | parent :: parents, left :: right :: children =>
      left.toNat * left.toNat % 12289 == parent.toNat * 4091 % 12289 &&
        (right.toNat * right.toNat + parent.toNat * 4091) % 12289 == 0 && squaresTo parents children
  | [], _ => true
  | _, _ => false

def inverts : List UInt16 → List UInt16 → Bool
  | s :: rest, t :: others => s.toNat * t.toNat % 12289 == 4091 * 4091 % 12289 && inverts rest others
  | [], [] => true
  | _, _ => false

def allSmall (table : List UInt16) : Bool := table.all fun s => s.toNat < 12289

theorem tablesHold : GMB.length = 1024 ∧ IGMB.length = 1024 ∧ allSmall GMB = true ∧ allSmall IGMB = true ∧
    squaresTo ((GMB.take 256).drop 1) (GMB.drop 2) = true ∧ inverts (GMB.drop 1) (IGMB.drop 1) = true ∧
    (GMB.getD 1 0).toNat = 7888 ∧ halvings mqRshift1 N N R = some 128 ∧ halvings Exact.mqRshift1 N N 4091 = some 128 := by
  decide +kernel

theorem allSmallAt {table : List UInt16} (ok : allSmall table = true) : ∀ s ∈ table, Small s := by
  intro s mem
  have small := List.all_eq_true.mp ok s mem
  rwa [decide_eq_true_iff] at small

theorem squaresToAt {parents children : List UInt16} (ok : squaresTo parents children = true) {i : Nat} (inside : i < parents.length) :
    (children.getD (2 * i) 0).toNat * (children.getD (2 * i) 0).toNat % 12289 = (parents.getD i 0).toNat * 4091 % 12289 ∧
      ((children.getD (2 * i + 1) 0).toNat * (children.getD (2 * i + 1) 0).toNat + (parents.getD i 0).toNat * 4091) % 12289 = 0 := by
  induction parents, children using squaresTo.induct generalizing i with
  | case1 parent parents left right children ih =>
      simp only [squaresTo, Bool.and_eq_true, beq_iff_eq] at ok
      cases i with
      | zero => exact ok.1
      | succ i => exact ih ok.2 (by simpa using inside)
  | case2 children => simp at inside
  | case3 parents children some short =>
      rw [squaresTo] at ok
      · cases ok
      · exact short
      · exact some

theorem invertsAt {left right : List UInt16} (ok : inverts left right = true) {i : Nat} (inside : i < left.length) :
    (left.getD i 0).toNat * (right.getD i 0).toNat % 12289 = 4091 * 4091 % 12289 := by
  induction left, right using inverts.induct generalizing i with
  | case1 s rest t others ih =>
      simp only [inverts, Bool.and_eq_true, beq_iff_eq] at ok
      cases i with
      | zero => exact ok.1
      | succ i => exact ih ok.2 (by simpa using inside)
  | case2 => simp at inside
  | case3 left right some none =>
      rw [inverts] at ok
      · cases ok
      · exact some
      · exact none

/-! Modulo 12289. Every factor carries `2 ^ 16`, which 2304 takes off again. -/

abbrev Zq := ZMod 12289

theorem carried : (65536 : Zq) * 2304 = 1 := rfl

theorem carriedR : (4091 : Zq) * 2304 = 1 := rfl

theorem carriedR2 : (10952 : Zq) * 2304 = 65536 := rfl

theorem modulusZero : (12289 : Zq) = 0 := rfl

theorem Exact.mqAddMeaning (x y : Int) : (Exact.mqAdd x y : Zq) = x + y := by
  unfold Exact.mqAdd
  dsimp only
  split
  · push_cast
    ring
  · push_cast
    linear_combination -modulusZero

theorem Exact.mqSubMeaning (x y : Int) : (Exact.mqSub x y : Zq) = x - y := by
  unfold Exact.mqSub
  dsimp only
  split
  · push_cast
    linear_combination modulusZero
  · push_cast
    rfl

theorem Exact.mqMontymulMeaning (x y : Int) : (Exact.mqMontymul x y : Zq) = x * y * 2304 := by
  have divides : 65536 * ((x * y + x * y * 12287 % 65536 * 12289) / 65536) = x * y + x * y * 12287 % 65536 * 12289 := by
    generalize x * y = z
    omega
  have image : (65536 : Zq) * ((x * y + x * y * 12287 % 65536 * 12289) / 65536 : Int) = x * y := by
    have cast := congrArg (Int.cast : Int → Zq) divides
    push_cast at cast ⊢
    linear_combination cast + ((x * y * 12287 % 65536 : Int) : Zq) * modulusZero
  unfold Exact.mqMontymul
  dsimp only
  generalize (x * y + x * y * 12287 % 65536 * 12289) / 65536 = t at image ⊢
  split
  · push_cast
    linear_combination 2304 * image - (t : Zq) * carried
  · push_cast
    linear_combination 2304 * image - (t : Zq) * carried - modulusZero

/- A factor, with what it carries taken off. -/
def factorOf (s : UInt16) : Zq := s.toNat * 2304

def nttField (s : UInt16) (u v : Zq) : Zq × Zq := (u + factorOf s * v, u - factorOf s * v)

def inttField (s : UInt16) (u v : Zq) : Zq × Zq := (u + v, (u - v) * factorOf s)

def twiddle (k : Nat) : Zq := factorOf (GMB.getD k 0)

def untwiddle (k : Nat) : Zq := factorOf (IGMB.getD k 0)

theorem nttFieldAgrees (s : UInt16) : Agrees (Int.cast : Int → Zq) (fun _ => True) (Exact.nttPair s) (nttField s) := by
  intro u v _ _
  refine ⟨⟨trivial, trivial⟩, ?_⟩
  have product : (Exact.mqMontymul v s.toNat : Zq) = factorOf s * v := by
    rw [Exact.mqMontymulMeaning, factorOf]
    push_cast
    ring
  simp only [Exact.nttPair, nttField, Exact.mqAddMeaning, Exact.mqSubMeaning, product]

theorem inttFieldAgrees (s : UInt16) : Agrees (Int.cast : Int → Zq) (fun _ => True) (Exact.inttPair s) (inttField s) := by
  intro u v _ _
  refine ⟨⟨trivial, trivial⟩, ?_⟩
  have product : (Exact.mqMontymul (Exact.mqSub u v) s.toNat : Zq) = (u - v) * factorOf s := by
    rw [Exact.mqMontymulMeaning, Exact.mqSubMeaning, factorOf]
    push_cast
    ring
  simp only [Exact.inttPair, inttField, Exact.mqAddMeaning, product]

theorem castMod {m n : Nat} (same : m % 12289 = n % 12289) : (m : Zq) = n := (ZMod.natCast_eq_natCast_iff' m n 12289).mpr same

theorem tableRoots : Roots twiddle untwiddle N := by
  obtain ⟨width, otherWidth, _, _, squares, inverses, first, _⟩ := tablesHold
  have child (p : Nat) (positive : 1 ≤ p) (inside : p < 256) := squaresToAt squares (i := p - 1) (by simp [width]; omega)
  have parentAt (p : Nat) (positive : 1 ≤ p) (inside : p < 256) : ((GMB.take 256).drop 1).getD (p - 1) 0 = GMB.getD p 0 := by
    simp only [List.getD_eq_getElem?_getD, List.getElem?_drop, show 1 + (p - 1) = p by omega, List.getElem?_take, if_pos inside]
  have childAt (i : Nat) : (GMB.drop 2).getD i 0 = GMB.getD (2 + i) 0 := by
    simp only [List.getD_eq_getElem?_getD, List.getElem?_drop]
  refine ⟨fun k positive inside => ?_, fun k positive inside => ?_⟩
  · by_cases top : k = 1
    · subst top
      rw [twiddle, factorOf, first]
      rfl
    · have positive : 1 ≤ k / 2 := by omega
      have inside : k / 2 < 256 := by unfold N at inside; omega
      obtain ⟨left, right⟩ := child (k / 2) positive inside
      rw [parentAt _ positive inside, childAt] at left right
      rcases Nat.mod_two_eq_zero_or_one k with even | odd
      · rw [show 2 + 2 * (k / 2 - 1) = k by omega] at left
        have image := castMod left
        push_cast at image
        rw [square, if_neg top, if_pos even, twiddle, twiddle, factorOf, factorOf]
        linear_combination 2304 ^ 2 * image + 2304 * ((GMB.getD (k / 2) 0).toNat : Zq) * carriedR
      · rw [show 2 + (2 * (k / 2 - 1) + 1) = k by omega] at right
        have image := castMod (n := 0) right
        push_cast at image
        rw [square, if_neg top, if_neg (by omega), twiddle, twiddle, factorOf, factorOf]
        linear_combination 2304 ^ 2 * image - 2304 * ((GMB.getD (k / 2) 0).toNat : Zq) * carriedR
  · have product := invertsAt inverses (i := k - 1) (by simp [width]; unfold N at inside; omega)
    simp only [List.getD_eq_getElem?_getD, List.getElem?_drop, show 1 + (k - 1) = k by omega] at product
    have image := castMod product
    push_cast at image
    rw [twiddle, untwiddle, factorOf, factorOf, List.getD_eq_getElem?_getD, List.getD_eq_getElem?_getD]
    linear_combination 2304 ^ 2 * image + (4091 * 2304 + 1) * carriedR

/-! The stages. -/
open Coefficients (Negacyclic element elementScale)
open Blns7933 (exactProduct exactProductMeaning exactProductMap)

theorem entryAt {table : List UInt16} (width : table.length = 1024) {k : Nat} (inside : k < N) : table[k]? = some (table.getD k 0) := by
  unfold N at inside
  rw [List.getD_eq_getElem?_getD, List.getElem?_eq_getElem (by omega), Option.getD_some]

def residues (a : List Int) : List Zq := a.map Int.cast

theorem Exact.mqNttMeaning {a : List Int} (width : a.length = N) :
    ∃ b, Exact.mqNtt a = some b ∧ residues b = (descend (down twiddle) 9 1 [residues a]).flatten := by
  have mirror := nttLayersMirror (fun s _ => nttFieldAgrees s) N N 1 a fun _ _ => trivial
  have run := nttLayersMeaning (f := nttField) (fun _ => entryAt tablesHold.1) 9 1 N [residues a] rfl
    (show ∀ b ∈ [residues a], b.length = 2 ^ 9 by simpa [residues, N] using width) rfl (by decide)
  rw [List.flatten_singleton] at run
  exact Option.map_eq_some_iff.mp (mirror.1.trans run)

theorem Exact.mqInttMeaning {a : List Int} {c : List Zq} (width : c.length = N)
    (same : residues a = (descend (down twiddle) 9 1 [c]).flatten) : ∃ b, Exact.mqIntt a = some b ∧ residues b = c := by
  obtain ⟨_, tableWidth, _, _, _, _, _, _, halved⟩ := tablesHold
  have widths : ∀ b ∈ [c], b.length = 2 ^ 9 := by simpa [N] using width
  obtain ⟨size, singles⟩ := descendShape (down twiddle) (k := 1) widths
  have mirror := inttLayersMirror (fun s _ => inttFieldAgrees s) N 1 N a fun _ _ => trivial
  have run := inttLayersMeaning (f := inttField) (fun _ => entryAt tableWidth) 9 1 N _ size singles le_rfl (by decide)
  have back : ascend (up untwiddle) 9 1 (descend (down twiddle) 9 1 [c]) = [c.map (2 ^ 9 * ·)] := by
    rw [ascendDescend tableRoots le_rfl widths le_rfl]
    rfl
  obtain ⟨b, ran, image⟩ : ∃ b, inttLayers Exact.inttPair N 1 N a = some b ∧ residues b = c.map (2 ^ 9 * ·) := by
    refine Option.map_eq_some_iff.mp (mirror.1.trans ?_)
    rw [show a.map Int.cast = residues a from rfl, same, show N = 2 ^ 9 from rfl]
    refine run.trans ?_
    rw [show (fun k => inttField (IGMB.getD k 0)) = up untwiddle from rfl, back, List.flatten_singleton]
  refine ⟨b.map fun v => Exact.mqMontymul v 128, ?_, ?_⟩
  · rw [Exact.mqIntt, ran, halved]
    rfl
  · have scaled : residues (b.map fun v => Exact.mqMontymul v 128) = (residues b).map (· * 128 * 2304) := by
      simp only [residues, List.map_map, Function.comp_def, Exact.mqMontymulMeaning]
      rfl
    have whole : ((fun v : Zq => v * 128 * 2304) ∘ (2 ^ 9 * ·)) = id := funext fun v => by
      simp only [Function.comp_apply, id_eq]
      linear_combination v * carried
    rw [scaled, image, List.map_map, whole, List.map_id]

theorem Exact.polyMulMeaning {a b : List Int} (widthA : a.length = N) (widthB : b.length = N) :
    ∃ out, Exact.polyMulModQNtt a b = some out ∧ residues out = exactProduct N (residues a) (residues b) := by
  have reduced (l : List Int) : residues (l.map (· % 12289)) = residues l := by
    simp only [residues, List.map_map]
    exact List.map_congr_left fun v _ => (ZMod.intCast_mod v 12289)
  have scaled (l : List Int) : residues (Exact.mqPolyTomonty l) = (residues l).map (65536 * ·) := by
    simp only [residues, Exact.mqPolyTomonty, List.map_map]
    refine List.map_congr_left fun v _ => ?_
    simp only [Function.comp_apply, Exact.mqMontymulMeaning]
    push_cast
    linear_combination (v : Zq) * carriedR2
  obtain ⟨productWidth, product⟩ := exactProductMeaning (show (residues a).length ≤ N by simp [residues, widthA])
    (show (residues b).length ≤ N by simp [residues, widthB])
  obtain ⟨left, ranA, imageA⟩ := Exact.mqNttMeaning (a := a.map (· % 12289)) (by simpa using widthA)
  obtain ⟨right, ranB, imageB⟩ := Exact.mqNttMeaning (a := Exact.mqPolyTomonty (b.map (· % 12289))) (by simpa [Exact.mqPolyTomonty] using widthB)
  rw [reduced] at imageA
  rw [scaled, reduced] at imageB
  have pointwise : residues (Exact.mqPolyMontymulNtt left right) =
      (descend (down twiddle) 9 1 [exactProduct N (residues a) (residues b)]).flatten := by
    have cancels : AdjoinRoot.of (Polynomial.X ^ N + 1 : Polynomial Zq) 65536 * AdjoinRoot.of _ 2304 = 1 := by
      rw [← map_mul, carried, map_one]
    rw [← descendProduct (n := N) tableRoots rfl le_rfl 2304 (a := residues a) (b := (residues b).map (65536 * ·)) (by simp [residues, widthA])
      (by simp [residues, widthB]) productWidth, ← imageA, ← imageB]
    · simp only [residues, Exact.mqPolyMontymulNtt, List.map_zipWith, List.zipWith_map, Exact.mqMontymulMeaning]
    · rw [product, elementScale]
      linear_combination -(element N (residues a) * element N (residues b)) * cancels
  obtain ⟨out, ran, image⟩ := Exact.mqInttMeaning productWidth pointwise
  refine ⟨out, ?_, image⟩
  rw [Exact.polyMulModQNtt, if_neg (by omega), List.take_of_length_le widthA.le, List.take_of_length_le widthB.le]
  simp only [ranA, ranB, Option.bind_eq_bind, Option.bind_some]
  exact ran

/-! The words follow the integers from stage to stage. -/

theorem mqNttExact : Mirrors value Small mqNtt Exact.mqNtt :=
  nttLayersMirror (fun s mem => nttPairAgrees (allSmallAt tablesHold.2.2.1 s mem)) N N 1

theorem montymulEach {k : UInt32} (small : Reduced k) {a : List UInt16} (kept : ∀ x ∈ a, Small x) :
    (a.map fun v => (mqMontymul v.toUInt32 k).toUInt16).map value = (a.map value).map (Exact.mqMontymul · k.toNat) ∧
      ∀ x ∈ a.map (fun v => (mqMontymul v.toUInt32 k).toUInt16), Small x := by
  have each (v : UInt16) (mem : v ∈ a) := montyNarrowed (widened (kept v mem)) small rfl rfl
  refine ⟨?_, ?_⟩
  · rw [List.map_map, List.map_map]
    exact List.map_congr_left fun v mem => (each v mem).1
  · rw [List.forall_mem_map]
    exact fun v mem => (each v mem).2

theorem mqInttExact : Mirrors value Small mqIntt Exact.mqIntt := by
  obtain ⟨_, _, _, reduced, _, _, _, halved, halvedExact⟩ := tablesHold
  refine (inttLayersMirror (fun s mem => inttPairAgrees (allSmallAt reduced s mem)) N 1 N).bind fun a kept => ?_
  obtain ⟨image, small⟩ := montymulEach (k := 128) (show (128 : Nat) < 12289 by decide) kept
  simp only [halved, halvedExact, Option.bind_eq_bind, Option.bind_some, Option.pure_def, Option.map_some, image]
  exact ⟨rfl, fun b same => Option.some.inj same ▸ small⟩

theorem mqPolyMontymulNttExact {f g : List UInt16} (keptF : ∀ x ∈ f, Small x) (keptG : ∀ x ∈ g, Small x) :
    (mqPolyMontymulNtt f g).map value = Exact.mqPolyMontymulNtt (f.map value) (g.map value) ∧ ∀ x ∈ mqPolyMontymulNtt f g, Small x := by
  unfold mqPolyMontymulNtt Exact.mqPolyMontymulNtt
  induction f generalizing g with
  | nil => simp
  | cons x f ih =>
      cases g with
      | nil => simp
      | cons y g =>
          simp only [List.forall_mem_cons] at keptF keptG
          obtain ⟨product, small⟩ := montyNarrowed (widened keptF.1) (widened keptG.1) rfl rfl
          obtain ⟨image, kept⟩ := ih keptF.2 keptG.2
          simp only [List.zipWith_cons_cons, List.map_cons, image, product, List.forall_mem_cons]
          exact ⟨rfl, small, kept⟩

theorem reduceToU16Exact (v : Int64) : value (reduceToU16 v) = v.toInt % 12289 ∧ Small (reduceToU16 v) := by
  have same : (reduceToU16 v).toNat = (v.toInt % 12289).toNat := by
    rw [reduceToU16, UInt16.ofInt, UInt16.toNat_ofNat']
    omega
  exact ⟨by rw [value, same]; omega, by rw [Small, same]; omega⟩

/- Whatever the vectors hold, and however long they are, the words end as the integers would. -/
theorem polyMulExact (a b : List Int64) :
    (polyMulModQNtt a b).map (List.map Int64.toInt) = Exact.polyMulModQNtt (a.map Int64.toInt) (b.map Int64.toInt) ∧
      ∀ out, polyMulModQNtt a b = some out → ∀ c ∈ out, 0 ≤ c.toInt ∧ c.toInt < 12289 := by
  have reduced (l : List Int64) : ((l.take N).map reduceToU16).map value = ((l.map Int64.toInt).take N).map (· % 12289) ∧
      ∀ x ∈ (l.take N).map reduceToU16, Small x := by
    rw [← List.map_take, List.map_map, List.map_map, List.forall_mem_map]
    exact ⟨List.map_congr_left fun v _ => (reduceToU16Exact v).1, fun v _ => (reduceToU16Exact v).2⟩
  unfold polyMulModQNtt Exact.polyMulModQNtt
  rw [List.length_map, List.length_map]
  by_cases short : a.length < N ∨ b.length < N
  · simp [short]
  obtain ⟨imageA, keptA⟩ := reduced a
  obtain ⟨imageB, keptB⟩ := reduced b
  obtain ⟨scaled, keptScaled⟩ := montymulEach (k := R2) (show (10952 : Nat) < 12289 by decide) keptB
  obtain ⟨ranA, smallA⟩ := mqNttExact _ keptA
  obtain ⟨ranB, smallB⟩ := mqNttExact _ keptScaled
  rw [imageA] at ranA
  rw [scaled, imageB] at ranB
  simp only [if_neg short, mqPolyTomonty, Exact.mqPolyTomonty]
  rw [show (R2.toNat : Int) = 10952 from rfl] at ranB
  rw [← ranA, ← ranB]
  cases left : mqNtt ((a.take N).map reduceToU16) with
  | none => simp
  | some x =>
      cases right : mqNtt (((b.take N).map reduceToU16).map fun v => (mqMontymul v.toUInt32 R2).toUInt16) with
      | none => simp
      | some y =>
          obtain ⟨product, kept⟩ := mqPolyMontymulNttExact (smallA x left) (smallB y right)
          obtain ⟨image, small⟩ := mqInttExact _ kept
          simp only [Option.map_some, Option.bind_eq_bind, Option.bind_some, ← product, ← image]
          have widens (v : UInt16) : (Int64.ofNat v.toNat).toInt = value v := Int64.toInt_ofNat_of_lt (by have := v.toNat_lt; omega)
          cases back : mqIntt (mqPolyMontymulNtt x y) with
          | none => simp
          | some out =>
              simp only [Option.bind_some, Option.pure_def, Option.map_some, List.map_map, Function.comp_def, widens, true_and]
              intro result same
              obtain rfl := Option.some.inj same
              rw [List.forall_mem_map]
              intro v mem
              have bound := small out back v mem
              rw [widens, value]
              exact ⟨by omega, by unfold Small at bound; omega⟩

/- What the fast product is tested against, on integers that do not overflow. -/
def polyMulSchoolbook (a b : List Int) : List Int := (exactProduct N a b).map (· % 12289)

theorem reducedByResidues {out l : List Int} (reduced : ∀ c ∈ out, 0 ≤ c ∧ c < 12289) (same : residues out = residues l) :
    out = l.map (· % 12289) := by
  have least := congrArg (List.map fun z : Zq => (z.val : Int)) same
  simp only [residues, List.map_map, Function.comp_def, ZMod.val_intCast] at least
  have already : out.map (fun v => v % ((12289 : Nat) : Int)) = out :=
    (List.map_congr_left (g := id) fun c mem => Int.emod_eq_of_lt (reduced c mem).1 (reduced c mem).2).trans (List.map_id out)
  exact already.symm.trans least

theorem transformMultiplies (a b : Vector Int64 N) :
    ∃ out, polyMulModQNtt a.toList b.toList = some out ∧ out.length = N ∧
      out.map Int64.toInt = polyMulSchoolbook (a.toList.map Int64.toInt) (b.toList.map Int64.toInt) ∧
      (∀ c ∈ out, 0 ≤ c.toInt ∧ c.toInt < 12289) ∧
      element N (residues (out.map Int64.toInt)) =
        element N (residues (a.toList.map Int64.toInt)) * element N (residues (b.toList.map Int64.toInt)) ∧
      Exact.polyMulModQNtt (a.toList.map Int64.toInt) (b.toList.map Int64.toInt) = some (out.map Int64.toInt) := by
  have widthA : (a.toList.map Int64.toInt).length = N := by simp
  have widthB : (b.toList.map Int64.toInt).length = N := by simp
  obtain ⟨exact, ran, image⟩ := Exact.polyMulMeaning widthA widthB
  obtain ⟨follows, reduced⟩ := polyMulExact a.toList b.toList
  rw [ran] at follows
  obtain ⟨out, words, rfl⟩ := Option.map_eq_some_iff.mp follows
  obtain ⟨size, product⟩ := exactProductMeaning (show (residues (a.toList.map Int64.toInt)).length ≤ N by simp [residues])
    (show (residues (b.toList.map Int64.toInt)).length ≤ N by simp [residues])
  have same : residues (out.map Int64.toInt) = residues (exactProduct N (a.toList.map Int64.toInt) (b.toList.map Int64.toInt)) := by
    rw [image]
    exact (exactProductMap (Int.castRingHom Zq) _ _).symm
  refine ⟨out, words, ?_, ?_, reduced out words, by rw [image, product], ran⟩
  · rw [← image] at size
    simpa [residues] using size
  · exact reducedByResidues (List.forall_mem_map.mpr (reduced out words)) same

end TradeP2P.Ntt
