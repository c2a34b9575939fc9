import TradeP2P.Lib.Wire

/-! SHAKE256 over lists of bytes: the Keccak permutation, and the sponge that absorbs a message and then
gives as many bytes as one asks for. -/
namespace Shake256
open Wire (Bytes)

/- Lanes of 64 bits, five to a plane and five planes to a state. -/
def lane (x : Nat) : Nat := x % 2 ^ 64
def rotl (x k : Nat) : Nat := lane (x <<< k) ||| x >>> (64 - k)
def andNot (x y : Nat) : Nat := (2 ^ 64 - 1 - x) &&& y

structure Plane where
  a : Nat
  b : Nat
  c : Nat
  d : Nat
  e : Nat

structure State where
  y0 : Plane
  y1 : Plane
  y2 : Plane
  y3 : Plane
  y4 : Plane

namespace Plane

def lanes (p : Plane) : List Nat := [p.a, p.b, p.c, p.d, p.e]
def ofLanes (l : List Nat) : Plane := ⟨l.getD 0 0, l.getD 1 0, l.getD 2 0, l.getD 3 0, l.getD 4 0⟩

def xor (p q : Plane) : Plane := ⟨p.a ^^^ q.a, p.b ^^^ q.b, p.c ^^^ q.c, p.d ^^^ q.d, p.e ^^^ q.e⟩

def chi (p : Plane) : Plane :=
  ⟨p.a ^^^ andNot p.b p.c, p.b ^^^ andNot p.c p.d, p.c ^^^ andNot p.d p.e, p.d ^^^ andNot p.e p.a, p.e ^^^ andNot p.a p.b⟩

end Plane

namespace State

def lanes (s : State) : List Nat := s.y0.lanes ++ s.y1.lanes ++ s.y2.lanes ++ s.y3.lanes ++ s.y4.lanes

def ofLanes (l : List Nat) : State :=
  ⟨.ofLanes l, .ofLanes (l.drop 5), .ofLanes (l.drop 10), .ofLanes (l.drop 15), .ofLanes (l.drop 20)⟩

def zero : State := ofLanes []

def xor (s t : State) : State := ⟨s.y0.xor t.y0, s.y1.xor t.y1, s.y2.xor t.y2, s.y3.xor t.y3, s.y4.xor t.y4⟩

def theta (s : State) : State :=
  let c := (((s.y0.xor s.y1).xor s.y2).xor s.y3).xor s.y4
  let d : Plane := ⟨c.e ^^^ rotl c.b 1, c.a ^^^ rotl c.c 1, c.b ^^^ rotl c.d 1, c.c ^^^ rotl c.e 1, c.d ^^^ rotl c.a 1⟩
  ⟨s.y0.xor d, s.y1.xor d, s.y2.xor d, s.y3.xor d, s.y4.xor d⟩

def rhoPi (s : State) : State where
  y0 := ⟨s.y0.a, rotl s.y1.b 44, rotl s.y2.c 43, rotl s.y3.d 21, rotl s.y4.e 14⟩
  y1 := ⟨rotl s.y0.d 28, rotl s.y1.e 20, rotl s.y2.a 3, rotl s.y3.b 45, rotl s.y4.c 61⟩
  y2 := ⟨rotl s.y0.b 1, rotl s.y1.c 6, rotl s.y2.d 25, rotl s.y3.e 8, rotl s.y4.a 18⟩
  y3 := ⟨rotl s.y0.e 27, rotl s.y1.a 36, rotl s.y2.b 10, rotl s.y3.c 15, rotl s.y4.d 56⟩
  y4 := ⟨rotl s.y0.c 62, rotl s.y1.d 55, rotl s.y2.e 39, rotl s.y3.a 41, rotl s.y4.b 2⟩

def chi (s : State) : State := ⟨s.y0.chi, s.y1.chi, s.y2.chi, s.y3.chi, s.y4.chi⟩

def iota (constant : Nat) (s : State) : State := { s with y0 := { s.y0 with a := s.y0.a ^^^ constant } }

def round (s : State) (constant : Nat) : State := s.theta.rhoPi.chi.iota constant

end State

def roundConstants : List Nat :=
  [0x0000000000000001, 0x0000000000008082, 0x800000000000808A, 0x8000000080008000, 0x000000000000808B, 0x0000000080000001,
   0x8000000080008081, 0x8000000000008009, 0x000000000000008A, 0x0000000000000088, 0x0000000080008009, 0x000000008000000A,
   0x000000008000808B, 0x800000000000008B, 0x8000000000008089, 0x8000000000008003, 0x8000000000008002, 0x8000000000000080,
   0x000000000000800A, 0x800000008000000A, 0x8000000080008081, 0x8000000000008080, 0x0000000080000001, 0x8000000080008008]

def rounds : List Nat → State → State
  | [], s => s
  | k :: ks, s => rounds ks (s.round k)

def permute (s : State) : State := rounds roundConstants s

def littleEndian (bytes : Bytes) : Nat := bytes.foldr (fun b acc => b.toNat + 256 * acc) 0

def lanesOf : Nat → Bytes → List Nat
  | 0, _ => []
  | count+1, bytes => littleEndian (bytes.take 8) :: lanesOf count (bytes.drop 8)

def rate : Nat := 136

def padded (m : Bytes) : Bytes :=
  let gap := rate - 1 - m.length % rate
  if gap = 0 then m ++ [0x9f] else m ++ 0x1f :: List.replicate (gap - 1) 0 ++ [0x80]

def absorb : Nat → Bytes → State → State
  | 0, _, s => s
  | count+1, bytes, s => absorb count (bytes.drop rate) (permute (s.xor (.ofLanes (lanesOf (rate / 8) bytes))))

def bytesOf (s : State) : Bytes :=
  (s.lanes.take (rate / 8)).flatMap fun l => (List.range 8).map fun i => UInt8.ofNat (l >>> (8 * i))

def squeeze : Nat → State → Bytes
  | 0, _ => []
  | count+1, s => bytesOf s ++ squeeze count (permute s)

/- The first bytes of the endless output. -/
def output (m : Bytes) (count : Nat) : Bytes :=
  (squeeze (count / rate + 1) (absorb ((padded m).length / rate) (padded m) .zero)).take count

theorem bytesOfLength (s : State) : (bytesOf s).length = rate := by
  simp [bytesOf, State.lanes, Plane.lanes, rate]

theorem squeezeLength (count : Nat) (s : State) : (squeeze count s).length = count * rate := by
  induction count generalizing s with
  | zero => simp [squeeze]
  | succ count ih =>
      rw [squeeze, List.length_append, bytesOfLength, ih, Nat.succ_mul]
      omega

theorem squeezeExtends {fewer more : Nat} (le : fewer ≤ more) (s : State) :
    (squeeze more s).take (fewer * rate) = squeeze fewer s := by
  induction fewer generalizing more s with
  | zero => simp [squeeze]
  | succ fewer ih =>
      cases more with
      | zero => omega
      | succ more =>
          have split : (fewer + 1) * rate = rate + fewer * rate := by rw [Nat.succ_mul]; omega
          rw [squeeze, squeeze, split, List.take_append, bytesOfLength, Nat.add_sub_cancel_left, ih (by omega),
            List.take_of_length_le (by rw [bytesOfLength]; omega)]

theorem outputLength (m : Bytes) (count : Nat) : (output m count).length = count := by
  rw [output, List.length_take, squeezeLength]
  unfold rate
  omega

theorem outputExtends (m : Bytes) {fewer more : Nat} (le : fewer ≤ more) : (output m more).take fewer = output m fewer := by
  have blocks : fewer / rate + 1 ≤ more / rate + 1 := Nat.succ_le_succ (Nat.div_le_div_right le)
  have inside : fewer ≤ (fewer / rate + 1) * rate := by unfold rate; omega
  rw [output, output, ← squeezeExtends blocks, List.take_take, List.take_take, Nat.min_eq_left le, Nat.min_eq_left inside]

example : output [] 8 = [70, 185, 221, 43, 11, 168, 141, 19] := by decide +kernel

end Shake256
