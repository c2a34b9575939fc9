import TradeP2P.Lib.Checks
import TradeP2P.Lib.Machine
import TradeP2P.Lib.Wire

/-! Trade terms, fee terms and the room messages a settlement session reads and
writes, with their validation. Text fields are byte strings: the source checks
lengths in bytes and characters one byte at a time. -/
namespace TradeP2P
open Wire (Bytes)
open Checks

def protocolVersion : UInt16 := 5
def maxAssetCodeLength : Nat := 16
def maxAddressLength : Nat := 256
def maxReasonLength : Nat := 128
def maxRounds : UInt32 := 1000

inductive Error where
  | invalidArgument (text : String)
  | logicError (text : String)
  | runtimeError (text : String)
  deriving DecidableEq, Repr

def Error.text : Error → String
  | .invalidArgument text | .logicError text | .runtimeError text => text

abbrev RoomId := Vector UInt8 32
abbrev ClientId := Vector UInt8 16

inductive Party where | a | b
  deriving DecidableEq, Repr

def Party.toByte : Party → UInt8
  | .a => 0
  | .b => 1

def otherParty : Party → Party
  | .a => .b
  | .b => .a

@[simp] theorem otherPartyTwice (p : Party) : otherParty (otherParty p) = p := by cases p <;> rfl
@[simp] theorem otherPartyNe (p : Party) : otherParty p ≠ p := by cases p <;> decide

structure TradeTerms where
  version : UInt16 := protocolVersion
  assetA : Bytes
  assetB : Bytes
  totalA : UInt64
  totalB : UInt64
  rounds : UInt32
  firstSender : Party := .a
  deriving DecidableEq, Repr

-- Amount zero with an empty asset and address means that the mediator charges no fee.
structure FeeTerms where
  asset : Bytes := []
  amount : UInt64 := 0
  address : Bytes := []
  deriving DecidableEq, Repr

structure CreateRoomMessage where
  terms : TradeTerms
  receiveAddressA : Bytes
  deriving DecidableEq, Repr

structure JoinRoomMessage where
  roomId : RoomId
  receiveAddressB : Bytes
  deriving DecidableEq, Repr

structure TurnMessage where
  roomId : RoomId
  roundIndex : UInt32
  sender : Party
  asset : Bytes
  amount : UInt64
  destination : Bytes
  isFee : Bool := false
  deriving DecidableEq, Repr

structure RoundSignalMessage where
  roomId : RoomId
  roundIndex : UInt32
  sender : Party
  deriving DecidableEq, Repr

def isalnum (c : UInt8) : Bool :=
  (0x30 ≤ c && c ≤ 0x39) || (0x41 ≤ c && c ≤ 0x5a) || (0x61 ≤ c && c ≤ 0x7a)

-- The three marks are '.', '_' and '-'.
def assetCharacter (c : UInt8) : Bool := isalnum c || c == 0x2e || c == 0x5f || c == 0x2d

def validateAsset (asset : Bytes) : Except Error Unit := do
  throwIf (asset.isEmpty ∨ asset.length > maxAssetCodeLength) (.invalidArgument "invalid asset code length")
  throwIf (¬asset.all assetCharacter) (.invalidArgument "invalid asset code character")

def validatePrintable (value : Bytes) (maximum : Nat) (allowSpaces : Bool) (label : String) :
    Except Error Unit := do
  throwIf (value.isEmpty ∨ value.length > maximum) (.invalidArgument ("invalid " ++ label ++ " length"))
  throwIf (¬value.all (fun c => (0x21 ≤ c && c ≤ 0x7e) || (allowSpaces && c == 0x20)))
    (.invalidArgument ("invalid " ++ label ++ " character"))

def validateNonzeroId {n : Nat} (id : Vector UInt8 n) (label : String) : Except Error Unit :=
  throwIf (id.toList.all (· == 0)) (.invalidArgument (label ++ " must not be zero"))

def validateAddress (address : Bytes) : Except Error Unit :=
  validatePrintable address maxAddressLength false "address"

def validateRoomId (id : RoomId) : Except Error Unit := validateNonzeroId id "room id"

def validateTerms (terms : TradeTerms) : Except Error Unit := do
  throwIf (terms.version ≠ protocolVersion) (.invalidArgument "unsupported trade terms version")
  validateAsset terms.assetA
  validateAsset terms.assetB
  throwIf (terms.assetA = terms.assetB) (.invalidArgument "assets must differ")
  throwIf (terms.totalA = 0 ∨ terms.totalB = 0) (.invalidArgument "trade totals must be positive")
  throwIf (terms.rounds = 0 ∨ terms.rounds > maxRounds) (.invalidArgument "invalid round count")
  throwIf (terms.rounds.toUInt64 > terms.totalA ∨ terms.rounds.toUInt64 > terms.totalB)
    (.invalidArgument "each round must contain a positive integer amount")

def validateFeeTerms (fee : FeeTerms) : Except Error Unit := do
  if fee.amount = 0 then
    throwIf (¬fee.asset.isEmpty ∨ ¬fee.address.isEmpty)
      (.invalidArgument "fee asset and address must be empty when the fee amount is zero")
  else
    validateAsset fee.asset
    validateAddress fee.address

-- A text field behind its two-byte length.
def shortString (value : Bytes) (maximum : Nat) : Except Error Bytes := do
  throwIf (value.length > maximum ∨ value.length > 65535) (.invalidArgument "string exceeds protocol limit")
  return Wire.bigEndian 2 value.length ++ value

def encodeTerms (terms : TradeTerms) : Except Error Bytes := do
  validateTerms terms
  let assetA ← shortString terms.assetA maxAssetCodeLength
  let assetB ← shortString terms.assetB maxAssetCodeLength
  return Wire.bigEndian 2 terms.version.toNat ++ (assetA ++ (assetB ++ (Wire.bigEndian 8 terms.totalA.toNat ++
    (Wire.bigEndian 8 terms.totalB.toNat ++ (Wire.bigEndian 4 terms.rounds.toNat ++ [terms.firstSender.toByte])))))

-- The checks of a turn's encoder.
def validateTurn (turn : TurnMessage) : Except Error Unit := do
  validateRoomId turn.roomId
  validateAsset turn.asset
  validateAddress turn.destination
  throwIf (turn.amount = 0) (.invalidArgument "turn amount must be positive")

def validateReason (text : Bytes) : Except Error Unit := validatePrintable text maxReasonLength true "reason"

def trancheAmount (total : UInt64) (rounds roundIndex : UInt32) : Except Error UInt64 := do
  throwIf (total = 0 ∨ rounds = 0 ∨ roundIndex ≥ rounds ∨ rounds.toUInt64 > total)
    (.invalidArgument "invalid tranche inputs")
  let base := total / rounds.toUInt64
  let remainder := total % rounds.toUInt64
  return base + (if roundIndex.toUInt64 < remainder then 1 else 0)

/- What the checks establish. -/
section Checked

structure ValidTerms (t : TradeTerms) : Prop where
  rounds : 0 < t.rounds.toNat
  roundsBound : t.rounds ≤ maxRounds
  totalA : t.rounds.toNat ≤ t.totalA.toNat
  totalB : t.rounds.toNat ≤ t.totalB.toNat

theorem validTerms {t : TradeTerms} (ok : validateTerms t = .ok ()) : ValidTerms t := by
  simp only [validateTerms, check_ok, throwIf_ok, not_or] at ok
  obtain ⟨_, _, _, _, _, ⟨positive, bound⟩, totalA, totalB⟩ := ok
  have rounds : t.rounds.toNat ≠ 0 := fun zero => positive (UInt32.toNat_inj.mp zero)
  simp only [gt_iff_lt, UInt64.lt_iff_toNat_lt, UInt32.toNat_toUInt64, Nat.not_lt, UInt32.not_lt] at bound totalA totalB
  exact ⟨by omega, bound, totalA, totalB⟩

/- The amount `tranche_amount` returns when it does not throw. -/
def tranche (total : UInt64) (rounds roundIndex : UInt32) : UInt64 :=
  total / rounds.toUInt64 + (if roundIndex.toUInt64 < total % rounds.toUInt64 then 1 else 0)

theorem trancheAmountOk {total : UInt64} {rounds roundIndex : UInt32} (more : roundIndex < rounds)
    (enough : rounds.toNat ≤ total.toNat) :
    trancheAmount total rounds roundIndex = .ok (tranche total rounds roundIndex) := by
  have fine : ¬(total = 0 ∨ rounds = 0 ∨ roundIndex ≥ rounds ∨ rounds.toUInt64 > total) := by
    rw [UInt32.lt_iff_toNat_lt] at more
    simp only [← UInt64.toNat_inj, ← UInt32.toNat_inj, ge_iff_le, UInt32.le_iff_toNat_le, gt_iff_lt,
      UInt64.lt_iff_toNat_lt, UInt32.toNat_toUInt64, UInt64.toNat_zero, UInt32.toNat_zero]
    omega
  simp only [trancheAmount, throwIf_not fine, bind, Except.bind]
  rfl

theorem trancheValue {total : UInt64} {rounds roundIndex : UInt32} (positive : 0 < rounds.toNat) :
    (tranche total rounds roundIndex).toNat = total.toNat / rounds.toNat +
      (if roundIndex.toNat < total.toNat % rounds.toNat then 1 else 0) := by
  have bound := total.toNat_lt
  have small := Nat.div_le_self total.toNat rounds.toNat
  have room : roundIndex.toNat < total.toNat % rounds.toNat → total.toNat / rounds.toNat + 1 < 2 ^ 64 := by
    intro extra
    have below := Nat.mod_lt total.toNat positive
    have half := Nat.div_le_div_left (a := total.toNat) (show 2 ≤ rounds.toNat by omega) (by decide)
    omega
  simp only [tranche, UInt64.toNat_add, UInt64.toNat_div, UInt32.toNat_toUInt64, UInt64.lt_iff_toNat_lt,
    UInt64.toNat_mod]
  split
  · rename_i extra
    rw [UInt64.toNat_one, Nat.mod_eq_of_lt (room extra)]
  · rw [UInt64.toNat_zero, Nat.mod_eq_of_lt (by omega)]

theorem tranchePositive {total : UInt64} {rounds roundIndex : UInt32} (positive : 0 < rounds.toNat)
    (enough : rounds.toNat ≤ total.toNat) : 0 < (tranche total rounds roundIndex).toNat := by
  have base := Nat.div_pos enough positive
  rw [trancheValue positive]
  omega

/- Quotient and remainder dealt out over the rounds, the first `remainder` of them one more. -/
theorem dealtSum (q r n : Nat) :
    ((List.range n).map (fun i => q + if i < r then 1 else 0)).sum = n * q + min n r := by
  induction n with
  | zero => simp
  | succ n ih =>
      simp only [List.range_succ, List.map_append, List.sum_append, ih, List.map_singleton, List.sum_singleton,
        Nat.succ_mul]
      split <;> omega

theorem trancheSum {rounds : Nat} (positive : 0 < rounds) (total : Nat) :
    ((List.range rounds).map (fun i => total / rounds + if i < total % rounds then 1 else 0)).sum = total := by
  have below := Nat.mod_lt total positive
  rw [dealtSum, Nat.min_eq_right (by omega)]
  exact Nat.div_add_mod total rounds

end Checked

end TradeP2P
