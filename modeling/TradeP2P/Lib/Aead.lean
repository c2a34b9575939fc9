import TradeP2P.Lib.Wire

/-! Authenticated encryption. A cipher seals a text under a key, a nonce and associated data, and opens
what it sealed. ChaCha20-Poly1305 is one: a key stream is added to the text, and a polynomial over what
came out is its tag. -/
namespace Aead
open Wire (Bytes)

abbrev Key := Vector UInt8 32
abbrev Nonce := Vector UInt8 12
abbrev Tag := Vector UInt8 16

structure Sealed where
  ciphertext : Bytes
  tag : Tag
  deriving DecidableEq, Repr

structure Cipher where
  encrypt : Key → Nonce → Bytes → Bytes → Option Sealed
  decrypt : Key → Nonce → Bytes → Bytes → Tag → Option Bytes

/- A text of a length the library takes is sealed, as many bytes as it had, and what is sealed opens. -/
structure Cipher.Faithful (cipher : Cipher) : Prop where
  seals : ∀ key nonce aad text, text.length < 2 ^ 31 → ∃ out, cipher.encrypt key nonce aad text = some out
  length : ∀ {key nonce aad text out}, cipher.encrypt key nonce aad text = some out → out.ciphertext.length = text.length
  opens : ∀ {key nonce aad text out}, cipher.encrypt key nonce aad text = some out →
    cipher.decrypt key nonce aad out.ciphertext out.tag = some text

namespace ChaCha20Poly1305

/-! The key stream: a block of sixty-four bytes for each value of a counter. -/

def littleEndian (bytes : Bytes) : Nat := bytes.foldr (fun b n => b.toNat + 256 * n) 0

def toLittleEndian : Nat → Nat → Bytes
  | 0, _ => []
  | width+1, value => UInt8.ofNat value :: toLittleEndian width (value / 256)

@[simp] theorem toLittleEndianLength (width value : Nat) : (toLittleEndian width value).length = width := by
  induction width generalizing value with
  | zero => rfl
  | succ width ih => simp [toLittleEndian, ih]

def words : Nat → Bytes → List UInt32
  | 0, _ => []
  | count+1, bytes => UInt32.ofNat (littleEndian (bytes.take 4)) :: words count (bytes.drop 4)

def rotate (x n : UInt32) : UInt32 := (x <<< n) ||| (x >>> (32 - n))

def quarterRound (s : Vector UInt32 16) (i j k l : Fin 16) : Vector UInt32 16 :=
  let a := s[i] + s[j]
  let d := rotate (s[l] ^^^ a) 16
  let c := s[k] + d
  let b := rotate (s[j] ^^^ c) 12
  let a' := a + b
  let d' := rotate (d ^^^ a') 8
  let c' := c + d'
  let b' := rotate (b ^^^ c') 7
  (((s.set i a').set j b').set k c').set l d'

def doubleRound (s : Vector UInt32 16) : Vector UInt32 16 :=
  let columns := quarterRound (quarterRound (quarterRound (quarterRound s 0 4 8 12) 1 5 9 13) 2 6 10 14) 3 7 11 15
  quarterRound (quarterRound (quarterRound (quarterRound columns 0 5 10 15) 1 6 11 12) 2 7 8 13) 3 4 9 14

def rounds : Nat → Vector UInt32 16 → Vector UInt32 16
  | 0, s => s
  | count+1, s => rounds count (doubleRound s)

def constants : List UInt32 := [0x61707865, 0x3320646e, 0x79622d32, 0x6b206574]

def start (key : Key) (nonce : Nonce) (counter : Nat) : Vector UInt32 16 :=
  Vector.ofFn fun i => (constants ++ words 8 key.toList ++ (UInt32.ofNat counter :: words 3 nonce.toList)).getD i 0

def block (key : Key) (nonce : Nonce) (counter : Nat) : Bytes :=
  let s := start key nonce counter
  (Vector.zipWith (· + ·) (rounds 10 s) s).toList.flatMap fun word => toLittleEndian 4 word.toNat

def keyStream (key : Key) (nonce : Nonce) : Nat → Nat → Bytes
  | _, 0 => []
  | counter, blocks+1 => block key nonce counter ++ keyStream key nonce (counter + 1) blocks

def chacha20 (key : Key) (nonce : Nonce) (text : Bytes) : Bytes :=
  List.zipWith (· ^^^ ·) text (keyStream key nonce 1 (text.length / 64 + 1))

theorem flatMapLength {α β : Type} {f : α → List β} {width : Nat} (each : ∀ a, (f a).length = width) (items : List α) :
    (items.flatMap f).length = items.length * width := by
  induction items with
  | nil => simp
  | cons a more ih => simp [each, ih, Nat.succ_mul, Nat.add_comm]

@[simp] theorem blockLength (key : Key) (nonce : Nonce) (counter : Nat) : (block key nonce counter).length = 64 := by
  rw [block, flatMapLength fun _ => toLittleEndianLength 4 _]
  simp

@[simp] theorem keyStreamLength (key : Key) (nonce : Nonce) (counter blocks : Nat) :
    (keyStream key nonce counter blocks).length = 64 * blocks := by
  induction blocks generalizing counter with
  | zero => rfl
  | succ blocks ih => simp [keyStream, ih, Nat.mul_succ, Nat.add_comm]

theorem streamCovers (key : Key) (nonce : Nonce) (text : Bytes) :
    text.length ≤ (keyStream key nonce 1 (text.length / 64 + 1)).length := by
  rw [keyStreamLength]
  omega

@[simp] theorem chacha20Length (key : Key) (nonce : Nonce) (text : Bytes) : (chacha20 key nonce text).length = text.length := by
  rw [chacha20, List.length_zipWith, Nat.min_eq_left (streamCovers key nonce text)]

theorem xorTwice {text stream : Bytes} (covered : text.length ≤ stream.length) :
    List.zipWith (· ^^^ ·) (List.zipWith (· ^^^ ·) text stream) stream = text := by
  induction text generalizing stream with
  | nil => rfl
  | cons b text ih =>
      cases stream with
      | nil => simp at covered
      | cons k stream =>
          have back : b ^^^ k ^^^ k = b := by rw [UInt8.xor_assoc, UInt8.xor_self, UInt8.xor_zero]
          rw [List.zipWith_cons_cons, List.zipWith_cons_cons, back, ih (by simpa using covered)]

/- The key stream depends on the length of the text alone, so adding it twice gives the text back. -/
theorem chacha20Twice (key : Key) (nonce : Nonce) (text : Bytes) : chacha20 key nonce (chacha20 key nonce text) = text := by
  have same := chacha20Length key nonce text
  rw [chacha20, same, chacha20, xorTwice (streamCovers key nonce text)]

/-! The tag. -/

def clamp : Nat := 0x0ffffffc0ffffffc0ffffffc0fffffff

def poly1305 (oneTimeKey message : Bytes) : Tag :=
  let r := littleEndian (oneTimeKey.take 16) &&& clamp
  let s := littleEndian (oneTimeKey.drop 16)
  let step (sum index : Nat) := (sum + littleEndian ((message.drop (16 * index)).take 16 ++ [1])) * r % (2 ^ 130 - 5)
  ⟨(toLittleEndian 16 ((List.range ((message.length + 15) / 16)).foldl step 0 + s)).toArray, by simp⟩

def padded (bytes : Bytes) : Bytes := bytes ++ List.replicate ((16 - bytes.length % 16) % 16) 0

def authenticated (aad ciphertext : Bytes) : Bytes :=
  padded aad ++ padded ciphertext ++ toLittleEndian 8 aad.length ++ toLittleEndian 8 ciphertext.length

def tag (key : Key) (nonce : Nonce) (aad ciphertext : Bytes) : Tag :=
  poly1305 ((block key nonce 0).take 32) (authenticated aad ciphertext)

end ChaCha20Poly1305
open ChaCha20Poly1305

-- The library takes the length of a text as a signed integer of thirty-two bits.
def chacha20Poly1305 : Cipher where
  encrypt key nonce aad text :=
    if text.length < 2 ^ 31 then
      let ciphertext := chacha20 key nonce text
      some ⟨ciphertext, tag key nonce aad ciphertext⟩
    else none
  decrypt key nonce aad ciphertext given :=
    if tag key nonce aad ciphertext = given then some (chacha20 key nonce ciphertext) else none

theorem chacha20Poly1305Faithful : chacha20Poly1305.Faithful where
  seals key nonce aad text short := by
    simp only [chacha20Poly1305, if_pos short]
    exact ⟨_, rfl⟩
  length := by
    intro key nonce aad text out sealing
    simp only [chacha20Poly1305] at sealing
    split at sealing
    · obtain rfl := Option.some.inj sealing
      simp
    · contradiction
  opens := by
    intro key nonce aad text out sealing
    simp only [chacha20Poly1305] at sealing
    split at sealing
    · obtain rfl := Option.some.inj sealing
      simp only [chacha20Poly1305, if_true, chacha20Twice]
    · contradiction

/-! A cipher of a few known texts, which opens each under its own key and associated data only. Anything
else it seals as it is, under a tag of zeros. -/
section Table

structure Entry where
  key : Key
  nonce : Nonce
  aad : Bytes
  text : Bytes
  out : Sealed
  deriving DecidableEq, Repr

def plainTag : Tag := Vector.replicate 16 0

def isInput (key : Key) (nonce : Nonce) (aad text : Bytes) (entry : Entry) : Bool :=
  entry.key = key ∧ entry.nonce = nonce ∧ entry.aad = aad ∧ entry.text = text

def isOutput (ciphertext : Bytes) (tag : Tag) (entry : Entry) : Bool := entry.out = ⟨ciphertext, tag⟩

def table (entries : List Entry) : Cipher where
  encrypt key nonce aad text := match entries.find? (isInput key nonce aad text) with
    | some entry => some entry.out
    | none => some ⟨text, plainTag⟩
  decrypt key nonce aad ciphertext tag := match entries.find? (isOutput ciphertext tag) with
    | some entry => if entry.key = key ∧ entry.nonce = nonce ∧ entry.aad = aad then some entry.text else none
    | none => if tag = plainTag then some ciphertext else none

structure WellFormed (entries : List Entry) : Prop where
  apart : (entries.map Entry.out).Nodup
  sized : ∀ entry ∈ entries, entry.out.ciphertext.length = entry.text.length
  tagged : ∀ entry ∈ entries, entry.out.tag ≠ plainTag

variable {entries : List Entry}

theorem findOutput (wellFormed : WellFormed entries) {entry : Entry} (mem : entry ∈ entries) :
    entries.find? (isOutput entry.out.ciphertext entry.out.tag) = some entry := by
  have apart := wellFormed.apart
  clear wellFormed
  induction entries with
  | nil => simp at mem
  | cons first rest ih =>
      simp only [List.map_cons, List.nodup_cons] at apart
      rcases List.mem_cons.mp mem with rfl | inside
      · exact List.find?_cons_of_pos (by simp [isOutput])
      · have other : first.out ≠ entry.out := fun same => apart.1 (same ▸ List.mem_map_of_mem inside)
        rw [List.find?_cons_of_neg (by simpa [isOutput] using other)]
        exact ih inside apart.2

theorem encryptTable {key : Key} {nonce : Nonce} {aad text : Bytes} {out : Sealed}
    (made : (table entries).encrypt key nonce aad text = some out) :
    (∃ entry ∈ entries, isInput key nonce aad text entry ∧ out = entry.out) ∨ out = ⟨text, plainTag⟩ := by
  simp only [table] at made
  split at made
  · rename_i entry found
    exact .inl ⟨entry, List.mem_of_find?_eq_some found, List.find?_some found, (Option.some.inj made).symm⟩
  · exact .inr (Option.some.inj made).symm

theorem tableFaithful (wellFormed : WellFormed entries) : (table entries).Faithful where
  seals key nonce aad text _ := by
    simp only [table]
    split <;> exact ⟨_, rfl⟩
  length := by
    intro key nonce aad text out made
    rcases encryptTable made with ⟨entry, mem, input, rfl⟩ | rfl
    · simp only [isInput, decide_eq_true_eq] at input
      rw [wellFormed.sized entry mem, input.2.2.2]
    · rfl
  opens := by
    intro key nonce aad text out made
    rcases encryptTable made with ⟨entry, mem, input, rfl⟩ | rfl
    · simp only [isInput, decide_eq_true_eq] at input
      simp only [table, findOutput wellFormed mem, input, and_self, if_true]
    · have unknown : entries.find? (isOutput text plainTag) = none := by
        rw [List.find?_eq_none]
        intro entry mem same
        simp only [isOutput, decide_eq_true_eq] at same
        exact wellFormed.tagged entry mem (by rw [same])
      simp only [table, unknown, if_true]

theorem tableCommits (wellFormed : WellFormed entries) {entry : Entry} (mem : entry ∈ entries) {key : Key} {nonce : Nonce}
    {aad text : Bytes} (opens : (table entries).decrypt key nonce aad entry.out.ciphertext entry.out.tag = some text) :
    key = entry.key ∧ aad = entry.aad := by
  simp only [table, findOutput wellFormed mem] at opens
  split at opens
  · rename_i same
    exact ⟨same.1.symm, same.2.2.symm⟩
  · contradiction

end Table
end Aead
