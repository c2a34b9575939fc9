import TradeP2P.Lib.Coefficients

/-! Butterflies. A layer replaces the entries of a list two at a time, a fixed distance apart, one factor a
group; layers with the square roots of `-1`, of those roots and so on read a polynomial off at the roots of
`x ^ n + 1`, and the layers with the inverse factors take it back. -/
namespace Butterflies

variable {β γ τ : Type}

section Layers

/- Two entries are read, and both replaced. -/
def cross (f : β → β → β × β) (dist : Nat) (a : List β) (j : Nat) : Option (List β) := do
  let u ← a[j]?
  let v ← a[j + dist]?
  some ((a.set j (f u v).1).set (j + dist) (f u v).2)

def group (f : β → β → β × β) (dist start : Nat) (a : List β) : Option (List β) :=
  (List.range' start dist).foldlM (cross f dist) a

/- Group `i` starts at `i * stride` and takes the table's factor at `count + i`. -/
def layer (table : List τ) (f : τ → β → β → β × β) (dist stride count : Nat) (a : List β) : Option (List β) :=
  (List.range count).foldlM (fun a i => do
    let s ← table[count + i]?
    group (f s) dist (i * stride) a) a

/- What a layer makes of one block: the two halves, crossed. -/
def crossed (f : β → β → β × β) (block : List β) : List β :=
  let low := block.take (block.length / 2)
  let high := block.drop (block.length / 2)
  List.zipWith (fun u v => (f u v).1) low high ++ List.zipWith (fun u v => (f u v).2) low high

def crossedBlocks (f : Nat → β → β → β × β) : Nat → List (List β) → List (List β)
  | _, [] => []
  | k, block :: rest => crossed (f k) block :: crossedBlocks f (k + 1) rest

theorem halves {block : List β} {h : Nat} (width : block.length = 2 * h) :
    ∃ low high, block = low ++ high ∧ low.length = h ∧ high.length = h :=
  ⟨block.take h, block.drop h, (List.take_append_drop h block).symm, by rw [List.length_take]; omega, by
    rw [List.length_drop]; omega⟩

theorem crossedAppend (f : β → β → β × β) {low high : List β} (width : low.length = high.length) : crossed f (low ++ high) =
    List.zipWith (fun u v => (f u v).1) low high ++ List.zipWith (fun u v => (f u v).2) low high := by
  have middle : (low ++ high).length / 2 = low.length := by
    rw [List.length_append]
    omega
  simp only [crossed, middle, List.take_left, List.drop_left]

theorem crossedLength (f : β → β → β × β) {block : List β} {h : Nat} (width : block.length = 2 * h) :
    (crossed f block).length = 2 * h := by
  obtain ⟨low, high, rfl, lowWidth, highWidth⟩ := halves width
  rw [crossedAppend f (lowWidth.trans highWidth.symm), List.length_append, List.length_zipWith, List.length_zipWith]
  omega

theorem crossAt (f : β → β → β × β) (before low between high behind : List β) (u v : β) :
    cross f (low.length + between.length + 1) (before ++ u :: (low ++ (between ++ v :: (high ++ behind)))) before.length =
      some (before ++ (f u v).1 :: (low ++ (between ++ (f u v).2 :: (high ++ behind)))) := by
  have place : before.length + (low.length + between.length + 1) = (before ++ u :: (low ++ between)).length := by
    simp only [List.length_append, List.length_cons]
  have first : (before ++ u :: (low ++ (between ++ v :: (high ++ behind))))[before.length]? = some u := by simp
  have second : (before ++ u :: (low ++ (between ++ v :: (high ++ behind))))[before.length + (low.length + between.length + 1)]? =
      some v := by
    rw [place, show before ++ u :: (low ++ (between ++ v :: (high ++ behind))) =
      (before ++ u :: (low ++ between)) ++ v :: (high ++ behind) by simp]
    simp
  have replaced : ((before ++ u :: (low ++ (between ++ v :: (high ++ behind)))).set before.length (f u v).1).set
      (before.length + (low.length + between.length + 1)) (f u v).2 =
      before ++ (f u v).1 :: (low ++ (between ++ (f u v).2 :: (high ++ behind))) := by
    rw [List.set_append_right _ _ le_rfl, Nat.sub_self, List.set_cons_zero, place,
      show before ++ (f u v).1 :: (low ++ (between ++ v :: (high ++ behind))) =
        (before ++ (f u v).1 :: (low ++ between)) ++ v :: (high ++ behind) by simp,
      show (before ++ u :: (low ++ between)).length = (before ++ (f u v).1 :: (low ++ between)).length by simp,
      List.set_append_right _ _ le_rfl, Nat.sub_self, List.set_cons_zero]
    simp
  simp only [cross, first, second, replaced, Option.bind_eq_bind, Option.bind_some]

/- The group's loop, with the part that is done already between the two parts that are left. -/
theorem groupFrom (f : β → β → β × β) (before low between high behind : List β) (width : low.length = high.length) :
    (List.range' before.length low.length).foldlM (cross f (low.length + between.length))
      (before ++ (low ++ (between ++ (high ++ behind)))) =
      some (before ++ (List.zipWith (fun u v => (f u v).1) low high ++
        (between ++ (List.zipWith (fun u v => (f u v).2) low high ++ behind)))) := by
  induction low generalizing before between high with
  | nil =>
      obtain rfl := List.eq_nil_of_length_eq_zero width.symm
      rfl
  | cons u low ih =>
      cases high with
      | nil => simp at width
      | cons v high =>
          have rest := ih (before ++ [(f u v).1]) (between ++ [(f u v).2]) high (by simpa using width)
          have here := crossAt f before low between high behind u v
          simp only [List.length_append, List.length_cons, List.length_nil, List.append_assoc, List.cons_append,
            List.nil_append] at rest
          rw [List.length_cons, List.range'_succ, List.foldlM_cons, List.cons_append, List.cons_append,
            show low.length + 1 + between.length = low.length + between.length + 1 by omega, here]
          simpa [show low.length + (between.length + (0 + 1)) = low.length + between.length + 1 by omega] using rest

theorem groupMeaning (f : β → β → β × β) (before behind : List β) {block : List β} {h : Nat} (width : block.length = 2 * h) :
    group f h before.length (before ++ (block ++ behind)) = some (before ++ (crossed f block ++ behind)) := by
  obtain ⟨low, high, rfl, lowWidth, highWidth⟩ := halves width
  have run := groupFrom f before low [] high behind (lowWidth.trans highWidth.symm)
  rw [crossedAppend f (lowWidth.trans highWidth.symm)]
  simpa [group, lowWidth] using run

theorem layerFrom {table : List τ} {f : τ → β → β → β × β} (factor : Nat → τ) {h : Nat} (count : Nat) (before : List β)
    (blocks : List (List β)) (done : Nat) (start : before.length = done * (2 * h)) (widths : ∀ b ∈ blocks, b.length = 2 * h)
    (entries : ∀ i < blocks.length, table[count + (done + i)]? = some (factor (count + (done + i)))) :
    (List.range' done blocks.length).foldlM (fun a i => do
      let s ← table[count + i]?
      group (f s) h (i * (2 * h)) a) (before ++ blocks.flatten) =
      some (before ++ (crossedBlocks (fun k => f (factor k)) (count + done) blocks).flatten) := by
  induction blocks generalizing before done with
  | nil => rfl
  | cons block rest ih =>
      have width := widths block List.mem_cons_self
      have entry := entries 0 (by simp)
      have here := groupMeaning (f (factor (count + done))) before rest.flatten width
      have next := ih (before ++ crossed (f (factor (count + done))) block) (done + 1)
        (by rw [List.length_append, start, crossedLength _ width]; ring) (fun b mem => widths b (List.mem_cons_of_mem block mem))
        (fun i inside => by
          have entry := entries (i + 1) (by simpa using inside)
          rwa [show done + (i + 1) = done + 1 + i by omega] at entry)
      rw [List.length_cons, List.range'_succ, List.foldlM_cons]
      simp only [Nat.add_zero] at entry
      simp only [entry, Option.bind_eq_bind, Option.bind_some, ← start, List.flatten_cons, here]
      simpa [crossedBlocks, ← add_assoc] using next

/- A layer crosses every block. -/
theorem layerMeaning {table : List τ} (f : τ → β → β → β × β) (factor : Nat → τ) {h count : Nat} {blocks : List (List β)}
    (size : blocks.length = count) (widths : ∀ b ∈ blocks, b.length = 2 * h)
    (entries : ∀ i < count, table[count + i]? = some (factor (count + i))) :
    layer table f h (2 * h) count blocks.flatten = some (crossedBlocks (fun k => f (factor k)) count blocks).flatten := by
  have run := layerFrom (f := f) factor (h := h) count [] blocks 0 (by simp) widths (by simpa [size] using entries)
  rw [layer, List.range_eq_range', ← size]
  simpa [size] using run

theorem crossedBlocksLength (f : Nat → β → β → β × β) (k : Nat) (blocks : List (List β)) :
    (crossedBlocks f k blocks).length = blocks.length := by
  induction blocks generalizing k with
  | nil => rfl
  | cons block rest ih => rw [crossedBlocks, List.length_cons, ih, List.length_cons]

theorem crossedBlocksWidths (f : Nat → β → β → β × β) {h k : Nat} {blocks : List (List β)} (widths : ∀ b ∈ blocks, b.length = 2 * h) :
    ∀ b ∈ crossedBlocks f k blocks, b.length = 2 * h := by
  induction blocks generalizing k with
  | nil => simp [crossedBlocks]
  | cons block rest ih =>
      simp only [crossedBlocks, List.forall_mem_cons]
      exact ⟨crossedLength _ (widths block List.mem_cons_self), ih fun b mem => widths b (List.mem_cons_of_mem block mem)⟩

end Layers

/-! The same layers over other entries. -/
section Images
variable {ι : Type} (φ : β → γ) (keeps : β → Prop)

/- One way to cross two entries is another one's image, for entries that have what the first one keeps. -/
def Agrees (f : β → β → β × β) (g : γ → γ → γ × γ) : Prop :=
  ∀ u v, keeps u → keeps v → (keeps (f u v).1 ∧ keeps (f u v).2) ∧ g (φ u) (φ v) = (φ (f u v).1, φ (f u v).2)

def Mirrors (f : List β → Option (List β)) (g : List γ → Option (List γ)) : Prop :=
  ∀ a, (∀ x ∈ a, keeps x) → (f a).map (List.map φ) = g (a.map φ) ∧ ∀ b, f a = some b → ∀ x ∈ b, keeps x

variable {φ keeps}

theorem Mirrors.same : Mirrors φ keeps some some :=
  fun _ kept => ⟨rfl, fun _ same => Option.some.inj same ▸ kept⟩

theorem Mirrors.bind {f f' : List β → Option (List β)} {g g' : List γ → Option (List γ)} (first : Mirrors φ keeps f g)
    (second : Mirrors φ keeps f' g') : Mirrors φ keeps (fun a => f a >>= f') (fun a => g a >>= g') := by
  intro a kept
  obtain ⟨image, keptThen⟩ := first a kept
  cases ran : f a with
  | none =>
      rw [ran] at image
      simp [ran, ← image]
  | some b =>
      rw [ran] at image
      simp only [ran, ← image, Option.map_some, Option.bind_eq_bind, Option.bind_some]
      exact second b (keptThen b ran)

theorem Mirrors.fold {step : List β → ι → Option (List β)} {step' : List γ → ι → Option (List γ)} {items : List ι}
    (each : ∀ i ∈ items, Mirrors φ keeps (step · i) (step' · i)) : Mirrors φ keeps (fun a => items.foldlM step a) fun a => items.foldlM step' a := by
  induction items with
  | nil => exact Mirrors.same
  | cons i rest ih =>
      have both := (each i List.mem_cons_self).bind (ih fun j mem => each j (List.mem_cons_of_mem i mem))
      simp only [List.foldlM_cons]
      exact both

theorem Agrees.cross {f : β → β → β × β} {g : γ → γ → γ × γ} (agrees : Agrees φ keeps f g) (dist j : Nat) :
    Mirrors φ keeps (cross f dist · j) (cross g dist · j) := by
  intro a kept
  cases first : a[j]? with
  | none => simp [Butterflies.cross, first]
  | some u =>
      cases second : a[j + dist]? with
      | none => simp [Butterflies.cross, first, second]
      | some v =>
          obtain ⟨⟨keptFirst, keptSecond⟩, image⟩ :=
            agrees u v (kept u (List.mem_of_getElem? first)) (kept v (List.mem_of_getElem? second))
          simp only [Butterflies.cross, first, second, List.getElem?_map, Option.map_some, Option.bind_eq_bind, Option.bind_some, image,
            List.map_set, Option.some.injEq, true_and]
          intro b same x mem
          subst same
          rcases List.mem_or_eq_of_mem_set mem with mem | rfl
          · rcases List.mem_or_eq_of_mem_set mem with mem | rfl
            · exact kept x mem
            · exact keptFirst
          · exact keptSecond

theorem Agrees.layer {table : List τ} {f : τ → β → β → β × β} {g : τ → γ → γ → γ × γ} (agrees : ∀ s ∈ table, Agrees φ keeps (f s) (g s))
    (dist stride count : Nat) : Mirrors φ keeps (layer table f dist stride count) (layer table g dist stride count) := by
  refine Mirrors.fold fun i _ => ?_
  cases entry : table[count + i]? with
  | none =>
      intro a kept
      simp
  | some s => exact Mirrors.fold fun j _ => (agrees s (List.mem_of_getElem? entry)).cross dist j

end Images

/-! Blocks split in half, and put together again in pairs. -/
section Blocks

def halved : List (List β) → List (List β)
  | [] => []
  | block :: rest => block.take (block.length / 2) :: block.drop (block.length / 2) :: halved rest

def paired : List (List β) → List (List β)
  | left :: right :: rest => (left ++ right) :: paired rest
  | _ => []

theorem halvedAppend {low high : List β} (width : low.length = high.length) (rest : List (List β)) :
    halved ((low ++ high) :: rest) = low :: high :: halved rest := by
  have middle : (low ++ high).length / 2 = low.length := by
    rw [List.length_append]
    omega
  rw [halved, middle, List.take_left, List.drop_left]

theorem halvedLength (blocks : List (List β)) : (halved blocks).length = 2 * blocks.length := by
  induction blocks with
  | nil => rfl
  | cons block rest ih =>
      simp only [halved, List.length_cons, ih]
      ring

theorem halvedWidths {h : Nat} {blocks : List (List β)} (widths : ∀ b ∈ blocks, b.length = 2 * h) :
    ∀ b ∈ halved blocks, b.length = h := by
  induction blocks with
  | nil => simp [halved]
  | cons block rest ih =>
      have width := widths block List.mem_cons_self
      simp only [halved, List.forall_mem_cons, List.length_take, List.length_drop]
      exact ⟨by omega, by omega, ih fun b mem => widths b (List.mem_cons_of_mem block mem)⟩

theorem halvedFlatten (blocks : List (List β)) : (halved blocks).flatten = blocks.flatten := by
  induction blocks with
  | nil => rfl
  | cons block rest ih => rw [halved, List.flatten_cons, List.flatten_cons, List.flatten_cons, ih, ← List.append_assoc,
      List.take_append_drop]

theorem pairedHalved (blocks : List (List β)) : paired (halved blocks) = blocks := by
  induction blocks with
  | nil => rfl
  | cons block rest ih => rw [halved, paired, ih, List.take_append_drop]

/- Blocks of an even number are the halves of their pairs. -/
theorem halvedPaired {h n : Nat} {blocks : List (List β)} (size : blocks.length = 2 * n) (widths : ∀ b ∈ blocks, b.length = h) :
    halved (paired blocks) = blocks := by
  induction n generalizing blocks with
  | zero =>
      obtain rfl := List.eq_nil_of_length_eq_zero size
      rfl
  | succ n ih =>
      obtain ⟨left, right, rest, rfl⟩ : ∃ left right rest, blocks = left :: right :: rest := by
        cases blocks with
        | nil => simp at size
        | cons left more =>
            cases more with
            | nil => simp only [List.length_cons, List.length_nil] at size; omega
            | cons right rest => exact ⟨left, right, rest, rfl⟩
      simp only [List.forall_mem_cons, List.length_cons] at widths size
      rw [paired, halvedAppend (widths.1.trans widths.2.1.symm), ih (by omega) widths.2.2]

theorem pairedLength {h n : Nat} {blocks : List (List β)} (size : blocks.length = 2 * n) (widths : ∀ b ∈ blocks, b.length = h) :
    (paired blocks).length = n := by
  have count := halvedLength (paired blocks)
  rw [halvedPaired size widths] at count
  omega

theorem pairedFlatten {h n : Nat} {blocks : List (List β)} (size : blocks.length = 2 * n) (widths : ∀ b ∈ blocks, b.length = h) :
    (paired blocks).flatten = blocks.flatten := by
  rw [← halvedFlatten, halvedPaired size widths]

theorem pairedMap (φ : β → γ) (blocks : List (List β)) : paired (blocks.map (List.map φ)) = (paired blocks).map (List.map φ) := by
  induction blocks using paired.induct with
  | case1 left right rest ih => simp only [List.map_cons, paired, List.map_append, ih]
  | case2 blocks short =>
      cases blocks with
      | nil => rfl
      | cons left more =>
          cases more with
          | nil => rfl
          | cons right rest => exact (short left right rest rfl).elim

theorem pairedWidths {h n : Nat} {blocks : List (List β)} (size : blocks.length = 2 * n) (widths : ∀ b ∈ blocks, b.length = h) :
    ∀ b ∈ paired blocks, b.length = 2 * h := by
  induction blocks using paired.induct generalizing n with
  | case1 left right rest ih =>
      simp only [List.forall_mem_cons, List.length_cons] at widths size
      simp only [paired, List.forall_mem_cons, List.length_append]
      exact ⟨by omega, ih (n := n - 1) (by omega) widths.2.2⟩
  | case2 blocks short =>
      simp only [paired]
      simp

/- All the layers down to single entries, and all of them back. -/
def descend (f : Nat → β → β → β × β) : Nat → Nat → List (List β) → List (List β)
  | 0, _, blocks => blocks
  | depth + 1, k, blocks => descend f depth (2 * k) (halved (crossedBlocks f k blocks))

def ascend (g : Nat → β → β → β × β) : Nat → Nat → List (List β) → List (List β)
  | 0, _, blocks => blocks
  | depth + 1, k, blocks => ascend g depth k (crossedBlocks g (2 ^ depth * k) (paired blocks))

theorem descendShape (f : Nat → β → β → β × β) {depth k : Nat} {blocks : List (List β)} (widths : ∀ b ∈ blocks, b.length = 2 ^ depth) :
    (descend f depth k blocks).length = 2 ^ depth * blocks.length ∧ ∀ b ∈ descend f depth k blocks, b.length = 1 := by
  induction depth generalizing k blocks with
  | zero => exact ⟨by simp [descend], by simpa [descend] using widths⟩
  | succ depth ih =>
      have double : 2 ^ (depth + 1) = 2 * 2 ^ depth := by ring
      rw [double] at widths
      have below := ih (k := 2 * k) (halvedWidths (crossedBlocksWidths f (k := k) widths))
      rw [halvedLength, crossedBlocksLength] at below
      rw [descend, double]
      exact ⟨by rw [below.1]; ring, below.2⟩

/- The last layer of the way back is the first one's. -/
theorem ascendLast (g : Nat → β → β → β × β) (depth k : Nat) (blocks : List (List β)) :
    ascend g (depth + 1) k blocks = crossedBlocks g k (paired (ascend g depth (2 * k) blocks)) := by
  induction depth generalizing blocks with
  | zero => simp only [ascend, pow_zero, one_mul]
  | succ depth ih =>
      rw [ascend, ih, ascend, show 2 ^ depth * (2 * k) = 2 ^ (depth + 1) * k by ring]

end Blocks

/-! With the square roots of `-1`, of those roots and so on for factors. -/
section Roots
open Coefficients

variable {S : Type} [CommRing S] (s s' : Nat → S)

def down (k : Nat) (u v : S) : S × S := (u + s k * v, u - s k * v)

def up (k : Nat) (u v : S) : S × S := (u + v, (u - v) * s' k)

/- Factor `k` is a square root of this. -/
def square (k : Nat) : S := if k = 1 then -1 else if k % 2 = 0 then s (k / 2) else -s (k / 2)

structure Roots (size : Nat) : Prop where
  root : ∀ k, 1 ≤ k → k < size → s k ^ 2 = square s k
  inverse : ∀ k, 1 ≤ k → k < size → s k * s' k = 1

/- Where the layers under block `k` read its polynomial. -/
def leaves : Nat → Nat → List S
  | 0, k => [square s k]
  | depth + 1, k => leaves depth (2 * k) ++ leaves depth (2 * k + 1)

def readings (depth : Nat) : Nat → List (List S) → List S
  | _, [] => []
  | k, block :: rest => (leaves s depth k).map (value · block) ++ readings depth (k + 1) rest

section
variable {s}

theorem squareLeft (k : Nat) : square s (2 * k) = s k := by
  rw [square, if_neg (by omega), if_pos (by omega), Nat.mul_div_cancel_left k Nat.two_pos]

theorem squareRight {k : Nat} (positive : 1 ≤ k) : square s (2 * k + 1) = -s k := by
  rw [square, if_neg (by omega), if_neg (by omega), show (2 * k + 1) / 2 = k by omega]

end

variable {s s'} {size : Nat} (roots : Roots s s' size)
include roots

theorem leafPower {depth k : Nat} (positive : 1 ≤ k) (fits : 2 ^ depth * (k + 1) ≤ 2 * size) {ρ : S} (leaf : ρ ∈ leaves s depth k) :
    ρ ^ 2 ^ depth = square s k := by
  induction depth generalizing k with
  | zero =>
      rw [pow_zero, pow_one]
      exact List.mem_singleton.mp leaf
  | succ depth ih =>
      have inside : k < size := by
        have grows := Nat.mul_le_mul_right (k + 1) (Nat.one_le_two_pow (n := depth))
        rw [pow_succ] at fits
        nlinarith
      rw [pow_succ] at fits
      have root := roots.root k positive inside
      rw [pow_succ, pow_mul]
      rcases List.mem_append.mp leaf with left | right
      · rw [ih (by omega) (by nlinarith [Nat.one_le_two_pow (n := depth)]) left, squareLeft k, root]
      · rw [ih (by omega) (by nlinarith [Nat.one_le_two_pow (n := depth)]) right, squareRight positive, neg_sq, root]

/- A polynomial read at a root of its split is a half of the split read there. -/
theorem readingsLayer {depth k : Nat} {blocks : List (List S)} (positive : 1 ≤ k) (widths : ∀ b ∈ blocks, b.length = 2 * 2 ^ depth)
    (fits : 2 ^ (depth + 1) * (k + blocks.length) ≤ 2 * size) :
    readings s (depth + 1) k blocks = readings s depth (2 * k) (halved (crossedBlocks (down s) k blocks)) := by
  induction blocks generalizing k with
  | nil => rfl
  | cons block rest ih =>
      obtain ⟨low, high, rfl, lowWidth, highWidth⟩ := halves (widths block List.mem_cons_self)
      simp only [List.length_cons] at fits
      have room : 2 ^ depth * (2 * k + 1 + 1) ≤ 2 * size := by
        rw [pow_succ] at fits
        nlinarith [Nat.zero_le (2 ^ depth * rest.length)]
      have split {ρ : S} {w : S} {half : List S} (power : ρ ^ 2 ^ depth = w) (made : half = List.zipWith (fun u v => u + w * v) low high) :
          value ρ (low ++ high) = value ρ half := by
        rw [valueAppend, lowWidth, power, made, valueZipWith ρ (fun u v => u + w * v) 1 w (fun c d => by ring)
          (lowWidth.trans highWidth.symm), one_mul]
      have left {ρ : S} (leaf : ρ ∈ leaves s depth (2 * k)) : value ρ (low ++ high) =
          value ρ (List.zipWith (fun u v => (down s k u v).1) low high) :=
        split (leafPower roots (by omega) (by nlinarith [Nat.one_le_two_pow (n := depth)]) leaf) (by rw [squareLeft k]; rfl)
      have right {ρ : S} (leaf : ρ ∈ leaves s depth (2 * k + 1)) : value ρ (low ++ high) =
          value ρ (List.zipWith (fun u v => (down s k u v).2) low high) :=
        split (leafPower roots (by omega) room leaf) (by
          rw [squareRight positive]
          simp only [down, neg_mul, ← sub_eq_add_neg])
      have rest := ih (k := k + 1) (by omega) (fun b mem => widths b (List.mem_cons_of_mem _ mem)) (by rwa [add_right_comm, add_assoc])
      rw [readings, leaves, List.map_append, List.map_congr_left fun ρ leaf => left leaf, List.map_congr_left fun ρ leaf => right leaf,
        rest, crossedBlocks, crossedAppend _ (lowWidth.trans highWidth.symm), halvedAppend (by simp [lowWidth, highWidth]), readings,
        readings, List.append_assoc, show 2 * k + 1 + 1 = 2 * (k + 1) by ring]

theorem descendReads {depth k : Nat} {blocks : List (List S)} (positive : 1 ≤ k) (widths : ∀ b ∈ blocks, b.length = 2 ^ depth)
    (fits : 2 ^ depth * (k + blocks.length) ≤ 2 * size) :
    (descend (down s) depth k blocks).flatten = readings s depth k blocks := by
  induction depth generalizing k blocks with
  | zero =>
      clear fits
      induction blocks generalizing k with
      | nil => rfl
      | cons block rest ih =>
          obtain ⟨c, rfl⟩ := List.length_eq_one_iff.mp (widths block List.mem_cons_self)
          have rest := ih (k := k + 1) (by omega) fun b mem => widths b (List.mem_cons_of_mem _ mem)
          rw [descend] at rest
          rw [descend, List.flatten_cons, rest, readings, leaves]
          simp
  | succ depth ih =>
      have widths' : ∀ b ∈ blocks, b.length = 2 * 2 ^ depth := fun b mem => by rw [widths b mem]; ring
      rw [readingsLayer roots positive widths' fits, descend, ih (by omega) (halvedWidths (crossedBlocksWidths _ widths'))]
      rw [halvedLength, crossedBlocksLength]
      calc 2 ^ depth * (2 * k + 2 * blocks.length) = 2 ^ (depth + 1) * (k + blocks.length) := by ring
        _ ≤ 2 * size := fits

/- What one layer and its inverse make of a block: twice what it was. -/
omit roots in
theorem crossedBack (c : S) {k : Nat} (inverse : s k * s' k = 1) {block : List S} {h : Nat} (width : block.length = 2 * h) :
    crossed (up s' k) ((crossed (down s k) block).map (c * ·)) = block.map (2 * c * ·) := by
  obtain ⟨low, high, rfl, lowWidth, highWidth⟩ := halves width
  rw [crossedAppend _ (lowWidth.trans highWidth.symm), List.map_append, crossedAppend _ (by simp), List.map_append]
  have same := lowWidth.trans highWidth.symm
  clear lowWidth width
  induction low generalizing high h with
  | nil =>
      obtain rfl := List.eq_nil_of_length_eq_zero same.symm
      rfl
  | cons u low ih =>
      cases high with
      | nil => simp at same
      | cons v high =>
          have back : (c * (u + s k * v) - c * (u - s k * v)) * s' k = 2 * c * v := by linear_combination (2 * c * v) * inverse
          have sum : c * (u + s k * v) + c * (u - s k * v) = 2 * c * u := by ring
          have rest := ih high (h := high.length) rfl (by simpa using same)
          have parts := List.append_inj rest (by simp only [List.length_zipWith, List.length_map]; simp at same; omega)
          simp only [List.zipWith_cons_cons, List.map_cons, up, down, back, sum] at parts ⊢
          rw [List.cons_append, List.cons_append, parts.1, parts.2]

omit roots in
theorem crossedBlocksBack (c : S) {h k : Nat} {blocks : List (List S)} (widths : ∀ b ∈ blocks, b.length = 2 * h)
    (inverse : ∀ i < blocks.length, s (k + i) * s' (k + i) = 1) :
    crossedBlocks (up s') k ((crossedBlocks (down s) k blocks).map (List.map (c * ·))) = blocks.map (List.map (2 * c * ·)) := by
  induction blocks generalizing k with
  | nil => rfl
  | cons block rest ih =>
      have here := crossedBack c (by simpa using inverse 0 (by simp)) (widths block List.mem_cons_self)
      have others := ih (k := k + 1) (fun b mem => widths b (List.mem_cons_of_mem block mem)) fun i inside => by
        rw [add_right_comm, add_assoc]
        exact inverse (i + 1) (by simpa using inside)
      rw [crossedBlocks, List.map_cons, crossedBlocks, here, others, List.map_cons]

theorem ascendDescend {depth k : Nat} {blocks : List (List S)} (positive : 1 ≤ k) (widths : ∀ b ∈ blocks, b.length = 2 ^ depth)
    (fits : 2 ^ depth * (k + blocks.length) ≤ 2 * size) :
    ascend (up s') depth k (descend (down s) depth k blocks) = blocks.map (List.map (2 ^ depth * ·)) := by
  induction depth generalizing k blocks with
  | zero => simp [ascend, descend]
  | succ depth ih =>
      have widths' : ∀ b ∈ blocks, b.length = 2 * 2 ^ depth := fun b mem => by rw [widths b mem]; ring
      have inverse (i : Nat) (inside : i < blocks.length) : s (k + i) * s' (k + i) = 1 := by
        have grows := Nat.mul_le_mul_right (k + blocks.length) (Nat.one_le_two_pow (n := depth))
        rw [pow_succ] at fits
        exact roots.inverse (k + i) (by omega) (by nlinarith)
      have below := ih (k := 2 * k) (by omega) (halvedWidths (crossedBlocksWidths (down s) (k := k) widths')) (by
        rw [halvedLength, crossedBlocksLength]
        calc 2 ^ depth * (2 * k + 2 * blocks.length) = 2 ^ (depth + 1) * (k + blocks.length) := by ring
          _ ≤ 2 * size := fits)
      rw [descend, ascendLast, below, pairedMap, pairedHalved, crossedBlocksBack _ widths' inverse, pow_succ, mul_comm (2 ^ depth)]

omit roots in
/- A root of `x ^ n + 1` is where the elements modulo that can be read. -/
theorem valueProduct {n : Nat} {ρ : S} (root : ρ ^ n = -1) (e : S) {a b c : List S}
    (product : element n c = element n a * element n b * AdjoinRoot.of _ e) : value ρ c = value ρ a * value ρ b * e := by
  let reads : Negacyclic S n →+* S := AdjoinRoot.lift (RingHom.id S) ρ (by
    simp only [Polynomial.eval₂_add, Polynomial.eval₂_X_pow, Polynomial.eval₂_one, root, neg_add_cancel])
  have read (l : List S) : reads (element n l) = value ρ l := by
    rw [element, ← valueMap, List.map_map, AdjoinRoot.lift_root]
    congr 1
    simp [reads, Function.comp_def]
  have constant : reads (AdjoinRoot.of _ e) = e := by simp [reads]
  rw [← read, product, map_mul, map_mul, read, read, constant]

/- Products entry by entry, after the layers down, are the products modulo `x ^ n + 1`. -/
theorem descendProduct {depth n : Nat} (power : n = 2 ^ depth) (fits : n ≤ size) (e : S) {a b c : List S} (widthA : a.length = n)
    (widthB : b.length = n) (widthC : c.length = n) (product : element n c = element n a * element n b * AdjoinRoot.of _ e) :
    List.zipWith (fun u v => u * v * e) (descend (down s) depth 1 [a]).flatten (descend (down s) depth 1 [b]).flatten =
      (descend (down s) depth 1 [c]).flatten := by
  subst power
  have room : 2 ^ depth * (1 + 1) ≤ 2 * size := by omega
  rw [descendReads roots le_rfl (by simpa using widthA) room, descendReads roots le_rfl (by simpa using widthB) room,
    descendReads roots le_rfl (by simpa using widthC) room]
  simp only [readings, List.append_nil, List.zipWith_map, List.zipWith_self]
  refine List.map_congr_left fun ρ leaf => (valueProduct ?_ e product).symm
  rw [leafPower roots le_rfl room leaf]
  rfl

end Roots
end Butterflies
