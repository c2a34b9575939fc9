import Mathlib.Data.Nat.Bitwise
import Mathlib.Tactic.Ring

/-! Byte strings, big-endian fields and a reader that consumes its input from the
front. A reader `Reads` an encoding when it takes exactly those bytes off any
input that starts with them; encodings compose the way the readers do. -/
namespace Wire

abbrev Bytes := List UInt8

def ascii (text : String) : Bytes := text.toList.map (fun c => UInt8.ofNat c.toNat)

def bigEndian : Nat → Nat → Bytes
  | 0, _ => []
  | width+1, value => UInt8.ofNat (value >>> (8 * width)) :: bigEndian width value

def ofBigEndian (bytes : Bytes) : Nat := bytes.foldl (fun n b => (n <<< 8) ||| b.toNat) 0

@[simp] theorem bigEndianLength (width value : Nat) : (bigEndian width value).length = width := by
  induction width with
  | zero => rfl
  | succ width ih => simp [bigEndian, ih]

theorem shiftOr (n : Nat) (b : UInt8) : (n <<< 8) ||| b.toNat = n * 256 + b.toNat := by
  rw [← Nat.shiftLeft_add_eq_or_of_lt (by have := b.toNat_lt; omega), Nat.shiftLeft_eq]

theorem foldBigEndian (width value n : Nat) :
    (bigEndian width value).foldl (fun n b => (n <<< 8) ||| b.toNat) n =
      n * 256 ^ width + value % 256 ^ width := by
  induction width generalizing n with
  | zero => simp [bigEndian, Nat.mod_one]
  | succ width ih =>
      have digit : (UInt8.ofNat (value >>> (8 * width))).toNat = value / 256 ^ width % 256 := by
        rw [UInt8.toNat_ofNat', Nat.shiftRight_eq_div_pow, Nat.pow_mul]
      rw [bigEndian, List.foldl_cons, ih, shiftOr, digit, Nat.pow_succ, Nat.mod_mul]
      ring

theorem ofBigEndian_bigEndian (width value : Nat) :
    ofBigEndian (bigEndian width value) = value % 256 ^ width := by
  simp [ofBigEndian, foldBigEndian]

abbrev Reader (ε : Type) := StateT Bytes (Except ε)

section Primitives
variable {ε : Type} (short : ε)

-- The next `count` bytes, or `short` when the input has fewer.
def take (count : Nat) : Reader ε Bytes := fun input =>
  if count ≤ input.length then .ok (input.take count, input.drop count) else .error short

def u8 : Reader ε UInt8 := do
  let bytes ← take short 1
  return UInt8.ofNat (ofBigEndian bytes)

def u16 : Reader ε UInt16 := do
  let bytes ← take short 2
  return UInt16.ofNat (ofBigEndian bytes)

def u32 : Reader ε UInt32 := do
  let bytes ← take short 4
  return UInt32.ofNat (ofBigEndian bytes)

def u64 : Reader ε UInt64 := do
  let bytes ← take short 8
  return UInt64.ofNat (ofBigEndian bytes)

def fixed (n : Nat) : Reader ε (Vector UInt8 n) := fun input =>
  if h : n ≤ input.length then .ok (⟨(input.take n).toArray, by simpa using h⟩, input.drop n)
  else .error short

end Primitives

def Reads {ε α : Type} (r : Reader ε α) (bytes : Bytes) (value : α) : Prop :=
  ∀ rest, r (bytes ++ rest) = .ok (value, rest)

section Composition
variable {ε α β : Type} (short : ε)

theorem Reads.pure (value : α) : Reads (pure value : Reader ε α) [] value := fun _ => rfl

theorem Reads.bind {r : Reader ε α} {k : α → Reader ε β} {front back : Bytes} {a : α} {b : β}
    (first : Reads r front a) (second : Reads (k a) back b) : Reads (r >>= k) (front ++ back) b := by
  intro rest
  simp only [Bind.bind, StateT.bind, List.append_assoc, first (back ++ rest)]
  exact second rest

theorem Reads.returns {r : Reader ε α} {bytes : Bytes} {a : α} (h : Reads r bytes a) (f : α → β) :
    Reads (do let value ← r; return f value) bytes (f a) := by
  have read := h.bind (k := fun value => Pure.pure (f value)) (.pure _)
  rwa [List.append_nil] at read

/- A check takes nothing off the input. -/
theorem Reads.behind {x : Except ε α} {k : α → Reader ε β} {bytes : Bytes} {a : α} {b : β} (check : x = .ok a)
    (h : Reads (k a) bytes b) : Reads (liftM x >>= k) bytes b := by
  subst check
  exact h

theorem readsTake (bytes : Bytes) : Reads (take short bytes.length) bytes bytes := by
  intro rest
  simp [take]

theorem readsNumber {width value : Nat} (small : value < 256 ^ width) (f : Nat → α) :
    Reads (do let bytes ← take short width; return f (ofBigEndian bytes))
      (bigEndian width value) (f value) := by
  have field := readsTake short (bigEndian width value)
  rw [bigEndianLength] at field
  have read := field.returns (fun bytes => f (ofBigEndian bytes))
  rwa [ofBigEndian_bigEndian, Nat.mod_eq_of_lt small] at read

theorem readsU8 (v : UInt8) : Reads (u8 short) (bigEndian 1 v.toNat) v := by
  have small : v.toNat < 256 ^ 1 := by simpa using v.toNat_lt
  have read := readsNumber short small UInt8.ofNat
  rwa [UInt8.ofNat_toNat] at read

theorem readsU16 (v : UInt16) : Reads (u16 short) (bigEndian 2 v.toNat) v := by
  have small : v.toNat < 256 ^ 2 := by simpa using v.toNat_lt
  have read := readsNumber short small UInt16.ofNat
  rwa [UInt16.ofNat_toNat] at read

theorem readsU32 (v : UInt32) : Reads (u32 short) (bigEndian 4 v.toNat) v := by
  have small : v.toNat < 256 ^ 4 := by simpa using v.toNat_lt
  have read := readsNumber short small UInt32.ofNat
  rwa [UInt32.ofNat_toNat] at read

theorem readsU64 (v : UInt64) : Reads (u64 short) (bigEndian 8 v.toNat) v := by
  have small : v.toNat < 256 ^ 8 := by simpa using v.toNat_lt
  have read := readsNumber short small UInt64.ofNat
  rwa [UInt64.ofNat_toNat] at read

theorem readsFixed {n : Nat} (v : Vector UInt8 n) : Reads (fixed short n) v.toList v := by
  intro rest
  have long : n ≤ (v.toList ++ rest).length := by simp
  have front : (v.toList ++ rest).take n = v.toList := List.take_left' (by simp)
  have back : (v.toList ++ rest).drop n = rest := List.drop_left' (by simp)
  simp only [fixed, dif_pos long, front, back]
  rfl

end Composition

/-! Readers of a whole input: the last field of a record may be all that is left of it. -/
section Whole
variable {ε α β : Type}

def Exhausts (r : Reader ε α) (bytes : Bytes) (value : α) : Prop := r bytes = .ok (value, [])

def readAll (trailing : ε) (r : Reader ε α) (bytes : Bytes) : Except ε α := do
  let (value, rest) ← r bytes
  if rest.isEmpty then return value else throw trailing

theorem Reads.exhausts {r : Reader ε α} {bytes : Bytes} {a : α} (h : Reads r bytes a) : Exhausts r bytes a := by
  have read := h []
  rwa [List.append_nil] at read

theorem Reads.bindExhausts {r : Reader ε α} {k : α → Reader ε β} {front back : Bytes} {a : α} {b : β}
    (first : Reads r front a) (second : Exhausts (k a) back b) : Exhausts (r >>= k) (front ++ back) b := by
  simp only [Exhausts, Bind.bind, StateT.bind, first back]
  exact second

theorem Exhausts.returns {r : Reader ε α} {bytes : Bytes} {a : α} (h : Exhausts r bytes a) (f : α → β) :
    Exhausts (do let value ← r; return f value) bytes (f a) := by
  simp only [Exhausts] at h
  simp only [Exhausts, Bind.bind, StateT.bind, h]
  rfl

theorem Exhausts.behind {x : Except ε α} {k : α → Reader ε β} {bytes : Bytes} {a : α} {b : β} (check : x = .ok a)
    (h : Exhausts (k a) bytes b) : Exhausts (liftM x >>= k) bytes b := by
  subst check
  exact h

theorem Exhausts.readAll {r : Reader ε α} {bytes : Bytes} {a : α} (h : Exhausts r bytes a) (trailing : ε) :
    readAll trailing r bytes = .ok a := by
  simp only [Exhausts] at h
  simp only [Wire.readAll, h]
  rfl

end Whole
end Wire
