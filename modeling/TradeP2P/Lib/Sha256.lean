import TradeP2P.Lib.Wire

/-! SHA-256 over lists of bytes; words of 32 bits are numbers. -/
namespace Sha256
open Wire (Bytes bigEndian bigEndianLength)

def roundConstants : List Nat :=
  [0x428a2f98, 0x71374491, 0xb5c0fbcf, 0xe9b5dba5, 0x3956c25b, 0x59f111f1, 0x923f82a4, 0xab1c5ed5,
   0xd807aa98, 0x12835b01, 0x243185be, 0x550c7dc3, 0x72be5d74, 0x80deb1fe, 0x9bdc06a7, 0xc19bf174,
   0xe49b69c1, 0xefbe4786, 0x0fc19dc6, 0x240ca1cc, 0x2de92c6f, 0x4a7484aa, 0x5cb0a9dc, 0x76f988da,
   0x983e5152, 0xa831c66d, 0xb00327c8, 0xbf597fc7, 0xc6e00bf3, 0xd5a79147, 0x06ca6351, 0x14292967,
   0x27b70a85, 0x2e1b2138, 0x4d2c6dfc, 0x53380d13, 0x650a7354, 0x766a0abb, 0x81c2c92e, 0x92722c85,
   0xa2bfe8a1, 0xa81a664b, 0xc24b8b70, 0xc76c51a3, 0xd192e819, 0xd6990624, 0xf40e3585, 0x106aa070,
   0x19a4c116, 0x1e376c08, 0x2748774c, 0x34b0bcb5, 0x391c0cb3, 0x4ed8aa4a, 0x5b9cca4f, 0x682e6ff3,
   0x748f82ee, 0x78a5636f, 0x84c87814, 0x8cc70208, 0x90befffa, 0xa4506ceb, 0xbef9a3f7, 0xc67178f2]

def word (x : Nat) : Nat := x % 2 ^ 32
def rotr (x k : Nat) : Nat := x >>> k ||| word (x <<< (32 - k))

structure State where
  a : Nat
  b : Nat
  c : Nat
  d : Nat
  e : Nat
  f : Nat
  g : Nat
  h : Nat

def initial : State := ⟨0x6a09e667, 0xbb67ae85, 0x3c6ef372, 0xa54ff53a, 0x510e527f, 0x9b05688c, 0x1f83d9ab, 0x5be0cd19⟩

def round (s : State) (k w : Nat) : State :=
  let sum1 := rotr s.e 6 ^^^ rotr s.e 11 ^^^ rotr s.e 25
  let choice := (s.e &&& s.f) ^^^ ((0xffffffff - s.e) &&& s.g)
  let temp := s.h + sum1 + choice + k + w
  let sum0 := rotr s.a 2 ^^^ rotr s.a 13 ^^^ rotr s.a 22
  let majority := (s.a &&& s.b) ^^^ (s.a &&& s.c) ^^^ (s.b &&& s.c)
  ⟨word (temp + sum0 + majority), s.a, s.b, s.c, word (s.d + temp), s.e, s.f, s.g⟩

def extend (window : List Nat) : Nat :=
  let x := window.getD 1 0
  let y := window.getD 14 0
  word ((rotr y 17 ^^^ rotr y 19 ^^^ y >>> 10) + window.getD 9 0 + (rotr x 7 ^^^ rotr x 18 ^^^ x >>> 3) + window.getD 0 0)

-- The window holds the sixteen words of the schedule that come next.
def rounds : List Nat → List Nat → State → State
  | [], _, s => s
  | k :: ks, window, s => rounds ks (window.tail ++ [extend window]) (round s k (window.headD 0))

def compress (s : State) (block : List Nat) : State :=
  let r := rounds roundConstants block s
  ⟨word (s.a + r.a), word (s.b + r.b), word (s.c + r.c), word (s.d + r.d), word (s.e + r.e), word (s.f + r.f), word (s.g + r.g),
    word (s.h + r.h)⟩

def words : Bytes → List Nat
  | a :: b :: c :: d :: rest => (a.toNat * 2^24 + b.toNat * 2^16 + c.toNat * 2^8 + d.toNat) :: words rest
  | _ => []

def padded (m : Bytes) : Bytes :=
  m ++ 0x80 :: List.replicate ((119 - m.length % 64) % 64) 0 ++ bigEndian 8 (8 * m.length)

def blocks : Nat → List Nat → State → State
  | 0, _, s => s
  | count+1, ws, s => blocks count (ws.drop 16) (compress s (ws.take 16))

def digest (m : Bytes) : Bytes :=
  let p := padded m
  let s := blocks (p.length / 64) (words p) initial
  [s.a, s.b, s.c, s.d, s.e, s.f, s.g, s.h].flatMap (bigEndian 4)

theorem digestLength (m : Bytes) : (digest m).length = 32 := by simp [digest, bigEndianLength]

example : (digest []).take 4 = [227, 176, 196, 66] := by decide +kernel

end Sha256
