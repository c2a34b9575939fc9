import Mathlib.Data.List.Induction
import Mathlib.Tactic.Simproc.ExistsAndEq
import TradeP2P.Lib.Checks
import TradeP2P.Lib.Wire

/-! Readers that invert writers. What a reader accepts is said exactly: a field is read off an input
when the input starts with that field's bytes, and nothing else reads as it. -/
namespace Wire
open Checks

/-! Numbers from their digits. -/

theorem ofBigEndianSnoc (bytes : Bytes) (b : UInt8) : ofBigEndian (bytes ++ [b]) = ofBigEndian bytes * 256 + b.toNat := by
  simp only [ofBigEndian, List.foldl_append, List.foldl_cons, List.foldl_nil, shiftOr]

theorem bigEndianSnoc (width value : Nat) :
    bigEndian (width + 1) value = bigEndian width (value / 256) ++ [UInt8.ofNat value] := by
  induction width with
  | zero => simp [bigEndian]
  | succ width ih =>
      have digit : value >>> (8 * (width + 1)) = (value / 256) >>> (8 * width) := by
        rw [Nat.mul_succ, Nat.add_comm, Nat.shiftRight_add, Nat.shiftRight_eq_div_pow value 8]
      rw [bigEndian, ih, digit, bigEndian, List.cons_append]

theorem ofBigEndianLt (bytes : Bytes) : ofBigEndian bytes < 256 ^ bytes.length := by
  induction bytes using List.reverseRecOn with
  | nil => decide
  | append_singleton bytes b ih =>
      have digit := b.toNat_lt
      rw [ofBigEndianSnoc, List.length_append, List.length_singleton, Nat.pow_succ]
      omega

theorem bigEndian_ofBigEndian (bytes : Bytes) : bigEndian bytes.length (ofBigEndian bytes) = bytes := by
  induction bytes using List.reverseRecOn with
  | nil => rfl
  | append_singleton bytes b ih =>
      have digit := b.toNat_lt
      have front : (ofBigEndian bytes * 256 + b.toNat) / 256 = ofBigEndian bytes := by omega
      have last : UInt8.ofNat (ofBigEndian bytes * 256 + b.toNat) = b := by
        rw [← UInt8.toNat_inj, UInt8.toNat_ofNat']
        omega
      rw [ofBigEndianSnoc, List.length_append, List.length_singleton, bigEndianSnoc, front, last, ih]

theorem bigEndianInjective {width a b : Nat} (smallA : a < 256 ^ width) (smallB : b < 256 ^ width)
    (same : bigEndian width a = bigEndian width b) : a = b := by
  have digits := congrArg ofBigEndian same
  rwa [ofBigEndian_bigEndian, ofBigEndian_bigEndian, Nat.mod_eq_of_lt smallA, Nat.mod_eq_of_lt smallB] at digits

section Fields
variable {ε α β : Type} {short : ε} {input rest : Bytes}

@[simp] theorem bindRead {r : Reader ε α} {k : α → Reader ε β} {b : β} :
    (r >>= k) input = .ok (b, rest) ↔ ∃ a mid, r input = .ok (a, mid) ∧ k a mid = .ok (b, rest) := by
  show (r input >>= fun read => k read.1 read.2) = .ok (b, rest) ↔ _
  rw [bind_ok]
  constructor
  · rintro ⟨read, took, ok⟩
    exact ⟨read.1, read.2, took, ok⟩
  · rintro ⟨a, mid, took, ok⟩
    exact ⟨(a, mid), took, ok⟩

@[simp] theorem pureRead {a b : α} : (pure a : Reader ε α) input = .ok (b, rest) ↔ a = b ∧ input = rest := by
  show Except.ok (a, input) = .ok (b, rest) ↔ _
  rw [Except.ok.injEq, Prod.mk.injEq]

@[simp] theorem mapRead {r : Reader ε α} {f : α → β} {b : β} :
    (f <$> r) input = .ok (b, rest) ↔ ∃ a, r input = .ok (a, rest) ∧ f a = b := by
  rw [map_eq_pure_bind, bindRead]
  simp only [pureRead]
  constructor
  · rintro ⟨a, mid, read, same, rfl⟩
    exact ⟨a, read, same⟩
  · rintro ⟨a, read, same⟩
    exact ⟨a, rest, read, same, rfl⟩

@[simp] theorem checkRead {x : Except ε α} {a : α} :
    (liftM x : Reader ε α) input = .ok (a, rest) ↔ x = .ok a ∧ input = rest := by
  cases x with
  | error e => exact iff_of_false (by rintro ⟨⟩) (by rintro ⟨⟨⟩, _⟩)
  | ok v =>
      show Except.ok (v, input) = .ok (a, rest) ↔ _
      simp

@[simp] theorem takeRead {count : Nat} {bytes : Bytes} :
    take short count input = .ok (bytes, rest) ↔ bytes.length = count ∧ input = bytes ++ rest := by
  constructor
  · intro ok
    simp only [take] at ok
    split at ok
    · rename_i enough
      obtain ⟨rfl, rfl⟩ := Prod.mk.inj (Except.ok.inj ok)
      simp [enough]
    · contradiction
  · rintro ⟨rfl, rfl⟩
    exact readsTake short bytes rest

theorem numberRead {width : Nat} {toNat : α → Nat} {ofNat : Nat → α} (left : ∀ v, ofNat (toNat v) = v)
    (right : ∀ n < 256 ^ width, toNat (ofNat n) = n) (small : ∀ v, toNat v < 256 ^ width) {v : α} :
    (do let bytes ← take short width; return ofNat (ofBigEndian bytes) : Reader ε α) input = .ok (v, rest) ↔
      input = bigEndian width (toNat v) ++ rest := by
  simp only [bindRead, takeRead, pureRead]
  constructor
  · rintro ⟨bytes, mid, ⟨rfl, rfl⟩, rfl, rfl⟩
    rw [right _ (ofBigEndianLt bytes), bigEndian_ofBigEndian]
  · rintro rfl
    refine ⟨_, _, ⟨bigEndianLength width _, rfl⟩, ?_, rfl⟩
    rw [ofBigEndian_bigEndian, Nat.mod_eq_of_lt (small v), left]

@[simp] theorem u8Read {v : UInt8} : u8 short input = .ok (v, rest) ↔ input = [v] ++ rest := by
  have digit : bigEndian 1 v.toNat = [v] := by simp [bigEndian]
  rw [← digit]
  exact numberRead (fun _ => UInt8.ofNat_toNat) (fun n small => UInt8.toNat_ofNat_of_lt' small)
    (fun v => by simpa using v.toNat_lt)

@[simp] theorem u16Read {v : UInt16} : u16 short input = .ok (v, rest) ↔ input = bigEndian 2 v.toNat ++ rest :=
  numberRead (fun _ => UInt16.ofNat_toNat) (fun n small => UInt16.toNat_ofNat_of_lt' small)
    (fun v => by simpa using v.toNat_lt)

@[simp] theorem u32Read {v : UInt32} : u32 short input = .ok (v, rest) ↔ input = bigEndian 4 v.toNat ++ rest :=
  numberRead (fun _ => UInt32.ofNat_toNat) (fun n small => UInt32.toNat_ofNat_of_lt' small)
    (fun v => by simpa using v.toNat_lt)

@[simp] theorem u64Read {v : UInt64} : u64 short input = .ok (v, rest) ↔ input = bigEndian 8 v.toNat ++ rest :=
  numberRead (fun _ => UInt64.ofNat_toNat) (fun n small => UInt64.toNat_ofNat_of_lt' small)
    (fun v => by simpa using v.toNat_lt)

@[simp] theorem fixedRead {n : Nat} {v : Vector UInt8 n} : fixed short n input = .ok (v, rest) ↔ input = v.toList ++ rest := by
  constructor
  · intro ok
    simp only [fixed] at ok
    split at ok
    · obtain ⟨rfl, rfl⟩ := Prod.mk.inj (Except.ok.inj ok)
      exact (List.take_append_drop n input).symm
    · contradiction
  · rintro rfl
    exact readsFixed short v rest

@[simp] theorem readAllOk {trailing : ε} {r : Reader ε α} {bytes : Bytes} {a : α} :
    readAll trailing r bytes = .ok a ↔ r bytes = .ok (a, []) := by
  simp only [readAll, bind_ok]
  constructor
  · rintro ⟨⟨value, rest⟩, read, ok⟩
    dsimp only at ok
    split at ok
    · rename_i finished
      rw [read, List.isEmpty_iff.mp finished, Except.ok.inj ok]
    · contradiction
  · intro read
    exact ⟨(a, []), read, rfl⟩

/- How much of a whole input has been read. -/
def position (input : Bytes) : Reader ε Nat := fun rest => .ok (input.length - rest.length, rest)

@[simp] theorem positionRead {whole : Bytes} {n : Nat} :
    (position whole : Reader ε Nat) input = .ok (n, rest) ↔ whole.length - input.length = n ∧ input = rest := by
  simp [position]

-- What has been read stands before what has not.
theorem takeFront (front back : Bytes) : (front ++ back).take ((front ++ back).length - back.length) = front := by simp

end Fields

/-! Fields of their own, and lists of them. -/

section Items
variable {ε α : Type}

/- The reader takes what the writer made, and only that. -/
def Inverts (r : Reader ε α) (w : α → Except ε Bytes) : Prop :=
  ∀ (input rest : Bytes) (a : α), r input = .ok (a, rest) ↔ ∃ bytes, w a = .ok bytes ∧ input = bytes ++ rest

theorem Inverts.whole {r : Reader ε α} {w : α → Except ε Bytes} (h : Inverts r w) {trailing : ε} {bytes : Bytes} {a : α} :
    readAll trailing r bytes = .ok a ↔ w a = .ok bytes := by
  rw [readAllOk, h]
  simp

def readMany (item : Reader ε α) : Nat → Reader ε (List α)
  | 0 => return []
  | count+1 => do
      let a ← item
      let more ← readMany item count
      return a :: more

def writeMany (item : α → Except ε Bytes) : List α → Except ε Bytes
  | [] => .ok []
  | a :: more => do
      let bytes ← item a
      return bytes ++ (← writeMany item more)

theorem Inverts.many {r : Reader ε α} {w : α → Except ε Bytes} (h : Inverts r w) {count : Nat} {input rest : Bytes}
    {items : List α} : readMany r count input = .ok (items, rest) ↔
      items.length = count ∧ ∃ bytes, writeMany w items = .ok bytes ∧ input = bytes ++ rest := by
  induction count generalizing input rest items with
  | zero =>
      simp only [readMany, pureRead, List.length_eq_zero_iff]
      constructor
      · rintro ⟨rfl, rfl⟩
        exact ⟨rfl, [], rfl, rfl⟩
      · rintro ⟨rfl, _, written, rfl⟩
        obtain rfl := Except.ok.inj written
        exact ⟨rfl, rfl⟩
  | succ count ih =>
      simp only [readMany, bindRead, pureRead, h _ _ _, ih]
      cases items with
      | nil => simp
      | cons a more =>
          simp only [writeMany, bind_ok, pure_ok, List.cons.injEq, List.length_cons, Nat.add_right_cancel_iff]
          constructor
          · rintro ⟨_, _, ⟨front, written, rfl⟩, _, _, ⟨rfl, back, many, rfl⟩, ⟨rfl, rfl⟩, rfl⟩
            exact ⟨rfl, _, ⟨front, written, back, many, rfl⟩, by rw [List.append_assoc]⟩
          · rintro ⟨rfl, _, ⟨front, written, back, many, rfl⟩, rfl⟩
            exact ⟨_, _, ⟨front, written, List.append_assoc _ _ _⟩, _, _, ⟨rfl, back, many, rfl⟩, ⟨rfl, rfl⟩, rfl⟩

theorem writeManyLength {w : α → Except ε Bytes} {longest : Nat} (h : ∀ {a bytes}, w a = .ok bytes → bytes.length ≤ longest)
    {items : List α} {bytes : Bytes} (written : writeMany w items = .ok bytes) : bytes.length ≤ items.length * longest := by
  induction items generalizing bytes with
  | nil =>
      obtain rfl := Except.ok.inj written
      simp
  | cons a more ih =>
      simp only [writeMany, bind_ok, pure_ok] at written
      obtain ⟨front, first, back, others, rfl⟩ := written
      have one := h first
      have many := ih others
      rw [List.length_append, List.length_cons, Nat.succ_mul]
      omega

theorem writeManySize {w : α → Except ε Bytes} {size : α → Nat} (h : ∀ {a bytes}, w a = .ok bytes → bytes.length = size a)
    {items : List α} {bytes : Bytes} (written : writeMany w items = .ok bytes) : bytes.length = (items.map size).sum := by
  induction items generalizing bytes with
  | nil =>
      obtain rfl := Except.ok.inj written
      rfl
  | cons a more ih =>
      simp only [writeMany, bind_ok, pure_ok] at written
      obtain ⟨front, first, back, others, rfl⟩ := written
      rw [List.length_append, List.map_cons, List.sum_cons, h first, ih others]

theorem writeManyAll {w : α → Except ε Bytes} {items : List α} (each : ∀ a ∈ items, ∃ item, w a = .ok item) :
    ∃ bytes, writeMany w items = .ok bytes := by
  induction items with
  | nil => exact ⟨[], rfl⟩
  | cons a more ih =>
      obtain ⟨front, first⟩ := each a List.mem_cons_self
      obtain ⟨back, others⟩ := ih fun a mem => each a (List.mem_cons_of_mem _ mem)
      refine ⟨front ++ back, ?_⟩
      simp only [writeMany, bind_ok, pure_ok]
      exact ⟨front, first, back, others, rfl⟩

theorem writtenEach {w : α → Except ε Bytes} {items : List α} {bytes : Bytes} (written : writeMany w items = .ok bytes) :
    ∀ a ∈ items, ∃ item, w a = .ok item := by
  induction items generalizing bytes with
  | nil => simp
  | cons a more ih =>
      simp only [writeMany, bind_ok] at written
      obtain ⟨front, first, _, others, _⟩ := written
      exact List.forall_mem_cons.mpr ⟨⟨front, first⟩, ih others⟩

theorem writesMany (w : α → Except ε Bytes) (items : List α) (h : ∀ a ∈ items, ∃ bytes, w a = .ok bytes) :
    ∃ bytes, writeMany w items = .ok bytes := by
  induction items with
  | nil => exact ⟨[], rfl⟩
  | cons a more ih =>
      obtain ⟨front, first⟩ := h a List.mem_cons_self
      obtain ⟨back, others⟩ := ih fun b mem => h b (List.mem_cons_of_mem a mem)
      refine ⟨front ++ back, ?_⟩
      simp only [writeMany, bind_ok, pure_ok]
      exact ⟨front, first, back, others, rfl⟩

end Items
end Wire
