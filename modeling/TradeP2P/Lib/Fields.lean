import TradeP2P.Lib.Codec

/-! Fields at the front of a byte string. Two strings that start with a field of one shape agree
exactly when the fields agree and what follows them does, so two written records are compared field
by field, from the front. -/
namespace Wire
open Checks

section Front
variable {front back : Bytes}

theorem sameWidth {a b : Bytes} (width : a.length = b.length) : a ++ front = b ++ back ↔ a = b ∧ front = back := by
  refine ⟨fun same => List.append_inj same width, fun same => ?_⟩
  rw [same.1, same.2]

@[simp] theorem fixedFront {n : Nat} {v w : Vector UInt8 n} :
    v.toList ++ front = w.toList ++ back ↔ v = w ∧ front = back := by
  rw [sameWidth (by simp), Vector.toList_inj]

theorem numberFront {width a b : Nat} (smallA : a < 256 ^ width) (smallB : b < 256 ^ width) :
    bigEndian width a ++ front = bigEndian width b ++ back ↔ a = b ∧ front = back := by
  have digits : bigEndian width a = bigEndian width b ↔ a = b :=
    ⟨bigEndianInjective smallA smallB, congrArg (bigEndian width)⟩
  rw [sameWidth (by simp), digits]

@[simp] theorem u16Front {a b : UInt16} :
    bigEndian 2 a.toNat ++ front = bigEndian 2 b.toNat ++ back ↔ a = b ∧ front = back := by
  rw [numberFront a.toNat_lt b.toNat_lt, UInt16.toNat_inj]

@[simp] theorem u32Front {a b : UInt32} :
    bigEndian 4 a.toNat ++ front = bigEndian 4 b.toNat ++ back ↔ a = b ∧ front = back := by
  rw [numberFront a.toNat_lt b.toNat_lt, UInt32.toNat_inj]

@[simp] theorem u64Front {a b : UInt64} :
    bigEndian 8 a.toNat ++ front = bigEndian 8 b.toNat ++ back ↔ a = b ∧ front = back := by
  rw [numberFront a.toNat_lt b.toNat_lt, UInt64.toNat_inj]

@[simp] theorem u64Whole {a b : UInt64} : bigEndian 8 a.toNat = bigEndian 8 b.toNat ↔ a = b := by
  have field : bigEndian 8 a.toNat ++ [] = bigEndian 8 b.toNat ++ [] ↔ a = b ∧ ([] : Bytes) = [] := u64Front
  simpa using field

end Front

/-! A field of any length, with its length before it in two bytes. -/
section Prefixed
variable {ε : Type}

def prefixed (value : Bytes) : Bytes := bigEndian 2 value.length ++ value

-- The writers refuse a value longer than its limit, or than its length field can say.
def lengthPrefixed (tooLong : ε) (value : Bytes) (maximum : Nat) : Except ε Bytes := do
  throwIf (value.length > maximum ∨ value.length > 65535) tooLong
  return prefixed value

theorem lengthPrefixedOk {tooLong : ε} {value : Bytes} {maximum : Nat} {bytes : Bytes} :
    lengthPrefixed tooLong value maximum = .ok bytes ↔
      value.length ≤ maximum ∧ value.length ≤ 65535 ∧ prefixed value = bytes := by
  simp only [lengthPrefixed, check_ok, throwIf_ok, pure_ok, not_or, Nat.not_lt, and_assoc]

theorem prefixedFront {a b front back : Bytes} (shortA : a.length ≤ 65535) (shortB : b.length ≤ 65535) :
    prefixed a ++ front = prefixed b ++ back ↔ a = b ∧ front = back := by
  rw [prefixed, prefixed, List.append_assoc, List.append_assoc, numberFront (by omega) (by omega)]
  refine ⟨fun same => (sameWidth same.1).mp same.2, fun same => ?_⟩
  rw [same.1, same.2]
  exact ⟨rfl, rfl⟩

theorem prefixed32Front {a b front back : Bytes} (shortA : a.length < 256 ^ 4) (shortB : b.length < 256 ^ 4) :
    bigEndian 4 a.length ++ (a ++ front) = bigEndian 4 b.length ++ (b ++ back) ↔ a = b ∧ front = back := by
  rw [numberFront shortA shortB]
  refine ⟨fun same => (sameWidth same.1).mp same.2, fun same => ?_⟩
  rw [same.1, same.2]
  exact ⟨rfl, rfl⟩

theorem writtenFront {tooLong tooLong' : ε} {a b x y front back : Bytes} {maximum maximum' : Nat}
    (writtenA : lengthPrefixed tooLong a maximum = .ok x) (writtenB : lengthPrefixed tooLong' b maximum' = .ok y) :
    x ++ front = y ++ back ↔ a = b ∧ front = back := by
  obtain ⟨_, shortA, same⟩ := lengthPrefixedOk.mp writtenA
  obtain ⟨_, shortB, same'⟩ := lengthPrefixedOk.mp writtenB
  rw [← same, ← same', prefixedFront shortA shortB]

end Prefixed

/-! The readers of such fields check the length before they take that many bytes. -/
section Limited
variable {ε : Type} (short tooLong : ε)

def takePrefixed (maximum : Nat) : Reader ε Bytes := do
  let length ← u16 short
  throwIf (length.toNat > maximum) tooLong
  take short length.toNat

def takePrefixed32 (maximum : Nat) : Reader ε Bytes := do
  let length ← u32 short
  throwIf (length.toNat > maximum) tooLong
  take short length.toNat

variable {short tooLong} {maximum : Nat} {value input rest : Bytes}

theorem takePrefixedRead : takePrefixed short tooLong maximum input = .ok (value, rest) ↔
    value.length ≤ maximum ∧ value.length ≤ 65535 ∧ input = prefixed value ++ rest := by
  simp only [takePrefixed, prefixed, bindRead, u16Read, checkRead, takeRead, throwIf_ok, List.append_assoc]
  constructor
  · intro read
    obtain ⟨length, _, rfl, _, _, ⟨small, rfl⟩, same, rfl⟩ := read
    have bound := length.toNat_lt
    rw [same]
    exact ⟨Nat.le_of_not_lt small, by omega, rfl⟩
  · intro there
    obtain ⟨small, fits, rfl⟩ := there
    have same : (UInt16.ofNat value.length).toNat = value.length := UInt16.toNat_ofNat_of_lt' (Nat.lt_succ_of_le fits)
    exact ⟨UInt16.ofNat value.length, _, by rw [same], (), _, ⟨by rw [same]; exact Nat.not_lt_of_le small, rfl⟩, same.symm, rfl⟩

theorem takePrefixed32Read (bound : maximum < 2 ^ 32) : takePrefixed32 short tooLong maximum input = .ok (value, rest) ↔
    value.length ≤ maximum ∧ input = bigEndian 4 value.length ++ (value ++ rest) := by
  simp only [takePrefixed32, bindRead, u32Read, checkRead, takeRead, throwIf_ok]
  constructor
  · intro read
    obtain ⟨length, _, rfl, _, _, ⟨small, rfl⟩, same, rfl⟩ := read
    rw [same]
    exact ⟨Nat.le_of_not_lt small, rfl⟩
  · intro there
    obtain ⟨small, rfl⟩ := there
    have same : (UInt32.ofNat value.length).toNat = value.length := UInt32.toNat_ofNat_of_lt' (by show _ < 2 ^ 32; omega)
    exact ⟨UInt32.ofNat value.length, _, by rw [same], (), _, ⟨by rw [same]; exact Nat.not_lt_of_le small, rfl⟩, same.symm, rfl⟩

end Limited
end Wire
