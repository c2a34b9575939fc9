import TradeP2P.Credential.Authorization
import TradeP2P.Lib.Directory
import TradeP2P.Registry.Refresh

/-! The markers of issued credentials: one file for each completed room, party and epoch, created
exclusively. -/
namespace TradeP2P.Credential
open Wire (Bytes ascii bigEndian ofBigEndian)
open Checks
open Directory (Files)

structure IssuanceContext where
  version : UInt8 := credentialVersion
  issuerScope : UInt8 := 0
  epoch : UInt32 := 0
  roomId : RoomId
  party : UInt8
  deriving DecidableEq, Repr

namespace IssuanceContext

def encode (context : IssuanceContext) : Bytes :=
  [context.version] ++ ([context.issuerScope] ++ (bigEndian 4 context.epoch.toNat ++ (context.roomId.toList ++
    [context.party])))

def decode (bytes : Bytes) : Except Error IssuanceContext := do
  throwIf (bytes.length ≠ 39) (.runtimeError
    ("q7933_credential: IssuanceContext must be exactly 39 bytes, got " ++ toString bytes.length))
  let fields : Wire.Reader Error IssuanceContext := do
    let version ← Wire.u8 (.runtimeError "truncated")
    let issuerScope ← Wire.u8 (.runtimeError "truncated")
    let epoch ← Wire.u32 (.runtimeError "truncated")
    let roomId ← Wire.fixed (.runtimeError "truncated") 32
    let party ← Wire.u8 (.runtimeError "truncated")
    return { version, issuerScope, epoch, roomId, party }
  let (context, _) ← fields bytes
  throwIf (context.version ≠ credentialVersion) (.runtimeError "q7933_credential: unsupported IssuanceContext version")
  throwIf (context.party > 1) (.runtimeError "q7933_credential: invalid IssuanceContext party")
  return context

/- A context of this program's version, for one of the two parties. -/
structure WellFormed (context : IssuanceContext) : Prop where
  version : context.version = credentialVersion
  party : context.party ≤ 1

theorem encodeInjective {a b : IssuanceContext} (same : a.encode = b.encode) : a = b := by
  simp only [encode, List.cons_append, List.nil_append, List.cons.injEq, Wire.u32Front, Wire.fixedFront] at same
  obtain ⟨version, scope, epoch, room, party, _⟩ := same
  cases a
  cases b
  simp_all

theorem encodeLength (context : IssuanceContext) : context.encode.length = 39 := by simp [encode]

theorem decodeEncode {context : IssuanceContext} (fine : context.WellFormed) : decode context.encode = .ok context := by
  simp only [decode, encodeLength, bind_ok, throwIf_ok, pure_ok]
  refine ⟨(), by decide, (context, []), ?_, (), ?_, (), ?_, rfl⟩
  · simp [encode]
    exact ⟨context.roomId, rfl, rfl⟩
  · simpa using fine.version
  · simpa using fine.party

end IssuanceContext

/-! File names. The room's digits switch the stream to hexadecimal, and the party behind them is
printed that way too. -/

def hexDigit (n : Nat) : UInt8 := UInt8.ofNat (if n < 10 then 48 + n else 87 + n)

def hexByte (byte : UInt8) : Bytes := [hexDigit (byte.toNat / 16), hexDigit (byte.toNat % 16)]

def hexNumber (byte : UInt8) : Bytes :=
  if byte.toNat < 16 then [hexDigit byte.toNat] else hexByte byte

def computeRecordPath (context : IssuanceContext) : Bytes :=
  ascii "issuance_" ++ (decimal context.version.toNat ++ 0x5f :: (decimal context.issuerScope.toNat ++
    0x5f :: (decimal context.epoch.toNat ++ 0x5f :: (context.roomId.toList.flatMap hexByte ++
    0x5f :: (hexNumber context.party ++ ascii ".record")))))

theorem hexDigitInj {m n : Nat} (small : m < 16) (small' : n < 16) (same : hexDigit m = hexDigit n) : m = n := by
  have bytes := congrArg UInt8.toNat same
  simp only [hexDigit, UInt8.toNat_ofNat'] at bytes
  split at bytes <;> split at bytes <;> omega

theorem hexByteInj {a b : UInt8} (same : hexByte a = hexByte b) : a = b := by
  have boundA := a.toNat_lt
  have boundB := b.toNat_lt
  simp only [hexByte, List.cons.injEq, and_true] at same
  have high := hexDigitInj (by omega) (by omega) same.1
  have low := hexDigitInj (by omega) (by omega) same.2
  rw [← UInt8.toNat_inj]
  omega

theorem hexNumberInj {a b : UInt8} (same : hexNumber a = hexNumber b) : a = b := by
  simp only [hexNumber] at same
  split at same <;> split at same
  · rename_i smallA smallB
    exact UInt8.toNat_inj.mp (hexDigitInj smallA smallB (List.cons.inj same).1)
  · simp [hexByte] at same
  · simp [hexByte] at same
  · exact hexByteInj same

theorem hexBytesInj {as bs : Bytes} (same : as.flatMap hexByte = bs.flatMap hexByte) : as = bs := by
  induction as generalizing bs with
  | nil =>
      cases bs with
      | nil => rfl
      | cons b bs => simp [hexByte] at same
  | cons a as ih =>
      cases bs with
      | nil => simp [hexByte] at same
      | cons b bs =>
          rw [List.flatMap_cons, List.flatMap_cons] at same
          obtain ⟨front, rest⟩ := List.append_inj same rfl
          rw [hexByteInj front, ih rest]

theorem underscoreNotDigit (n : Nat) : (0x5f : UInt8) ∉ decimal n :=
  fun mem => absurd (decimalByte mem).2 (by decide)

/- Every context has a file of its own. -/
theorem recordPathInj {a b : IssuanceContext} (same : computeRecordPath a = computeRecordPath b) : a = b := by
  have rest := List.append_cancel_left same
  obtain ⟨version, rest⟩ := Separators.first rest (underscoreNotDigit _) (underscoreNotDigit _)
  obtain ⟨scope, rest⟩ := Separators.first rest (underscoreNotDigit _) (underscoreNotDigit _)
  obtain ⟨epoch, rest⟩ := Separators.first rest (underscoreNotDigit _) (underscoreNotDigit _)
  have width (context : IssuanceContext) : (context.roomId.toList.flatMap hexByte).length = 64 := by
    have each : ∀ byte : UInt8, (hexByte byte).length = 2 := fun _ => rfl
    simp [List.length_flatMap, each]
  obtain ⟨room, rest⟩ := List.append_inj rest ((width a).trans (width b).symm)
  have party := List.append_cancel_right (List.cons.inj rest).2
  cases a
  cases b
  simp only [IssuanceContext.mk.injEq]
  exact ⟨UInt8.toNat_inj.mp (decimalInj version), UInt8.toNat_inj.mp (decimalInj scope),
    UInt32.toNat_inj.mp (decimalInj epoch), Vector.toList_inj.mp (hexBytesInj room), hexNumberInj party⟩

/-! The store's operations on its directory. -/

abbrev Records := Files Bytes Bytes

inductive IssuanceStoreError where
  | store (text : String)
  | format (text : String)
  deriving DecidableEq, Repr

def hasBeenIssued (records : Records) (context : IssuanceContext) : Except IssuanceStoreError Bool :=
  match Directory.read records (computeRecordPath context) with
  | none => .ok false
  | some data =>
      match IssuanceContext.decode data with
      | .error _ => .error (.format "Corrupted issuance record")
      | .ok decoded =>
          if decoded.encode ≠ context.encode then
            .error (.format "Issuance record content does not match its context")
          else .ok true

def rollbackUncommittedIssuance (records : Records) (context : IssuanceContext) : Records :=
  Directory.unlink records (computeRecordPath context)

end TradeP2P.Credential
