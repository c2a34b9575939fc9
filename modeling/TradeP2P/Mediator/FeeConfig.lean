import TradeP2P.Lib.DoubleQuotes
import TradeP2P.Registry.Refresh

/-! The fee of the mediator, as it is kept in the file of settings that the shell reads when the mediator is set up. A
change of the fee rewrites three of its lines. -/
namespace TradeP2P
open Wire (Bytes ascii)
open Checks DoubleQuotes

/-! Lines, as getline reads them and as they are written again. -/

def newline : UInt8 := 0x0a

-- What is behind the last newline is a line only if it is not empty.
def readLines (file : Bytes) : List Bytes :=
  let pieces := file.splitOn newline
  if pieces.getLast? = some [] then pieces.dropLast else pieces

def writeLines (lines : List Bytes) : Bytes := lines.flatMap fun line => line ++ [newline]

/-! The three settings. -/

inductive FeeSetting where | asset | amount | address
  deriving DecidableEq, Repr

namespace FeeSetting

def assigns : FeeSetting → Bytes
  | .asset => ascii "FEE_ASSET="
  | .amount => ascii "FEE_AMOUNT="
  | .address => ascii "FEE_ADDRESS="

def value (fee : FeeTerms) : FeeSetting → Bytes
  | .asset => fee.asset
  | .amount => if fee.amount = 0 then [] else decimal fee.amount.toNat
  | .address => fee.address

def line (fee : FeeTerms) (setting : FeeSetting) : Bytes := setting.assigns ++ quote :: (setting.value fee ++ [quote])

-- They are looked for in this order.
def ofLine (line : Bytes) : Option FeeSetting := [asset, amount, address].find? fun setting => setting.assigns.isPrefixOf line

end FeeSetting

def unreadableFeeFile (path : String) : Error := .runtimeError ("cannot open fee config file '" ++ path ++ "' for reading")
def unwritableFeeFile (path : String) : Error := .runtimeError ("cannot open fee config file '" ++ path ++ "' for writing")

def missingFeeLines (path : String) : Error :=
  .runtimeError ("fee config file '" ++ path ++ "' is missing FEE_ASSET/FEE_AMOUNT/FEE_ADDRESS lines")

def rewriteFee (fee : FeeTerms) (line : Bytes) : Bytes := ((FeeSetting.ofLine line).map (FeeSetting.line fee)).getD line

/- The file, if it can be read and whether it can be written, and what is in it afterwards. -/
def persistFeeToFile (path : String) (file : Option Bytes) (writable : Bool) (fee : FeeTerms) : Except Error Bytes := do
  throwIf (quote ∈ fee.asset ∨ quote ∈ fee.address) (.runtimeError "fee asset/address must not contain '\"' to be persisted")
  match file with
  | none => throw (unreadableFeeFile path)
  | some before => do
      let lines := readLines before
      throwIf (¬∀ setting ∈ [FeeSetting.asset, .amount, .address], ∃ line ∈ lines, FeeSetting.ofLine line = some setting)
        (missingFeeLines path)
      throwIf (!writable) (unwritableFeeFile path)
      return writeLines (lines.map (rewriteFee fee))

/- What the lobby charges, and the file it keeps that in. -/
structure FeeHolder where
  path : String
  file : Option Bytes
  writable : Bool
  fee : FeeTerms

def FeeHolder.setFee (holder : FeeHolder) (fee : FeeTerms) : Except Error FeeHolder := do
  if holder.path = "" then
    return { holder with fee }
  else do
    let kept ← persistFeeToFile holder.path holder.file holder.writable fee
    return { holder with fee, file := some kept }

/-! The lines that are written are read again. -/
section Lines
variable {lines : List Bytes}

theorem pieceWhole (file : Bytes) : ∀ piece ∈ file.splitOn newline, newline ∉ piece := by
  induction file with
  | nil => simp [List.splitOn_nil]
  | cons c rest ih =>
    rw [List.splitOn_cons_eq_if_modifyHead]
    split
    next ends => simpa using ih
    next goesOn =>
      obtain ⟨first, more, pieces⟩ := List.exists_cons_of_ne_nil (List.splitOn_ne_nil newline rest)
      rw [pieces] at ih ⊢
      simp only [List.modifyHead_cons, List.forall_mem_cons] at ih ⊢
      have differs : newline ≠ c := fun same => goesOn (by simp [same])
      exact ⟨List.not_mem_cons_of_ne_of_not_mem differs ih.1, ih.2⟩

theorem lineWhole (file : Bytes) : ∀ line ∈ readLines file, newline ∉ line := by
  intro line mem
  simp only [readLines] at mem
  split at mem
  · exact pieceWhole file line (List.dropLast_subset _ mem)
  · exact pieceWhole file line mem

theorem linesReadAgain (whole : ∀ line ∈ lines, newline ∉ line) : readLines (writeLines lines) = lines := by
  have pieces : (writeLines lines).splitOn newline = lines ++ [[]] := by
    induction lines with
    | nil => exact List.splitOn_nil newline
    | cons line more ih =>
      have first : newline ∉ line := whole line List.mem_cons_self
      have written : writeLines (line :: more) = line ++ newline :: writeLines more := by simp [writeLines]
      rw [written, List.splitOn_append_cons_self_of_not_mem first _,
        ih fun next mem => whole next (List.mem_cons_of_mem line mem), List.cons_append]
  simp [readLines, pieces]

end Lines

/-! A fee that is kept. The shell reads the lines of the file again, each by itself. -/
section Fees
variable {fee : FeeTerms} {line : Bytes}

namespace FeeSetting

/- What the shell assigns on such a line: one quoted word, and nothing else. -/
def read (setting : FeeSetting) (line : Bytes) : Option Bytes :=
  let opens := setting.assigns ++ [quote]
  if opens.isPrefixOf line then unquote (line.drop opens.length) else none

theorem readOwnLine (fee : FeeTerms) (setting : FeeSetting) :
    setting.read (setting.line fee) = some (setting.value fee) ↔ plain (setting.value fee) = true := by
  have split : setting.line fee = (setting.assigns ++ [quote]) ++ (setting.value fee ++ [quote]) := by simp [FeeSetting.line]
  have opens : (setting.assigns ++ [quote]).isPrefixOf (setting.line fee) = true := by
    rw [split]
    exact List.isPrefixOf_iff_prefix.mpr (List.prefix_append _ _)
  simp only [read, opens, if_true]
  rw [split, List.drop_left, unquoteItself]

end FeeSetting

/- A line that assigns a setting now assigns it the new value, another line is as it was. -/
structure RewrittenLine (fee : FeeTerms) (line line' : Bytes) : Prop where
  assigned : ∀ setting, FeeSetting.ofLine line = some setting → setting.read line' = some (setting.value fee)
  kept : FeeSetting.ofLine line = none → line' = line

structure RewrittenFile (fee : FeeTerms) (before after : Bytes) : Prop where
  lines : List.Forall₂ (RewrittenLine fee) (readLines before) (readLines after)
  reads : ∀ setting : FeeSetting, ∃ line ∈ readLines after, setting.read line = some (setting.value fee)

def HasFeeLines (file : Bytes) : Prop :=
  ∀ setting : FeeSetting, ∃ line ∈ readLines file, FeeSetting.ofLine line = some setting

theorem assetOrdinary {c : UInt8} (letter : assetCharacter c = true) : escapable c = false ∧ c ≠ newline := by
  constructor
  · by_contra special
    simp only [escapable, Bool.not_eq_false, Bool.or_eq_true, decide_eq_true_eq] at special
    rcases special with ((rfl | rfl) | rfl) | rfl <;> exact absurd letter (by decide)
  · rintro rfl
    exact absurd letter (by decide)

theorem digitOrdinary {n : Nat} {c : UInt8} (digit : c ∈ decimal n) : assetCharacter c = true := by
  obtain ⟨low, high⟩ := decimalByte digit
  have isDigit : (0x30 ≤ c && c ≤ 0x39) = true := by
    simp only [Bool.and_eq_true, decide_eq_true_eq, UInt8.le_iff_toNat_le]
    exact ⟨low, high⟩
  simp [assetCharacter, isalnum, isDigit]

/- The asset and the amount are never anything but letters, digits and the three marks. -/
structure TidyFee (fee : FeeTerms) : Prop where
  ordinary : ∀ setting ≠ FeeSetting.address, ∀ c ∈ setting.value fee, assetCharacter c = true
  address : ∀ c ∈ fee.address, c ≠ newline

theorem tidyFee (valid : validateFeeTerms fee = .ok ()) : TidyFee fee := by
  have amounts : ∀ c ∈ FeeSetting.amount.value fee, assetCharacter c = true := by
    intro c mem
    simp only [FeeSetting.value] at mem
    split at mem
    · cases mem
    · exact digitOrdinary mem
  simp only [validateFeeTerms] at valid
  split at valid
  next free =>
    simp only [throwIf_ok, List.isEmpty_iff, not_or, not_not] at valid
    obtain ⟨noAsset, noAddress⟩ := valid
    refine ⟨fun setting other c mem => ?_, by simp [noAddress]⟩
    cases setting with
    | asset => simp [FeeSetting.value, noAsset] at mem
    | amount => exact amounts c mem
    | address => exact absurd rfl other
  next charged =>
    simp only [check_ok, validateAsset, validateAddress, validatePrintable, throwIf_ok, not_not, List.all_eq_true] at valid
    obtain ⟨⟨_, letters⟩, _, printable⟩ := valid
    refine ⟨fun setting other c mem => ?_, fun c mem => ?_⟩
    · cases setting with
      | asset => exact letters c mem
      | amount => exact amounts c mem
      | address => exact absurd rfl other
    · rintro rfl
      exact absurd (printable newline mem) (by decide)

theorem TidyFee.plainly (tidy : TidyFee fee) (address : plain fee.address = true) (setting : FeeSetting) :
    plain (setting.value fee) = true := by
  by_cases named : setting = .address
  · rw [named]
    exact address
  · exact plainOrdinary fun c mem => (assetOrdinary (tidy.ordinary setting named c mem)).1

theorem TidyFee.lineWhole (tidy : TidyFee fee) (setting : FeeSetting) : newline ∉ setting.line fee := by
  have value : newline ∉ setting.value fee := by
    intro mem
    by_cases named : setting = .address
    · subst named
      exact tidy.address newline mem rfl
    · exact (assetOrdinary (tidy.ordinary setting named newline mem)).2 rfl
  have assigns : newline ∉ setting.assigns := by cases setting <;> decide
  have other : newline ≠ quote := by decide
  simp [FeeSetting.line, value, assigns, other]

theorem rewrittenWhole (tidy : TidyFee fee) (whole : newline ∉ line) : newline ∉ rewriteFee fee line := by
  cases setting : FeeSetting.ofLine line with
  | none => simpa [rewriteFee, setting] using whole
  | some setting' => simpa [rewriteFee, setting] using tidy.lineWhole setting'

theorem rewrittenFile (tidy : TidyFee fee) (before : Bytes) :
    readLines (writeLines ((readLines before).map (rewriteFee fee))) = (readLines before).map (rewriteFee fee) := by
  refine linesReadAgain fun line mem => ?_
  obtain ⟨old, inside, rfl⟩ := List.mem_map.mp mem
  exact rewrittenWhole tidy (lineWhole before old inside)

/- When the file is written, and what is written. -/
theorem persistsFee {path : String} {before after : Bytes} :
    persistFeeToFile path (some before) true fee = .ok after ↔
      (quote ∉ fee.asset ∧ quote ∉ fee.address) ∧ HasFeeLines before ∧
        after = writeLines ((readLines before).map (rewriteFee fee)) := by
  have listed : (∀ setting ∈ [FeeSetting.asset, .amount, .address], ∃ line ∈ readLines before,
      FeeSetting.ofLine line = some setting) ↔ HasFeeLines before := by
    refine ⟨fun all setting => all setting (by cases setting <;> decide), fun all setting _ => all setting⟩
  simp only [persistFeeToFile, check_ok, throwIf_ok, listed]
  simp only [pure_ok, Bool.not_true, Bool.false_eq_true, not_false_eq_true, not_or, not_not, true_and, and_assoc,
    eq_comm (a := after)]

end Fees

/- A fee that could not be kept is not set either. -/
theorem unkeptFee {holder holder' : FeeHolder} {fee : FeeTerms} (kept : holder.path ≠ "")
    (set : holder.setFee fee = .ok holder') :
    ∃ after, persistFeeToFile holder.path holder.file holder.writable fee = .ok after ∧ holder'.file = some after := by
  simp only [FeeHolder.setFee, if_neg kept] at set
  obtain ⟨after, persisted, last⟩ := bind_ok.mp set
  obtain rfl := pure_ok.mp last
  exact ⟨after, persisted, rfl⟩

/- Where the address is plain the file says what is charged. -/
theorem rewritesPlain {fee : FeeTerms} {before : Bytes} (tidy : TidyFee fee) (address : plain fee.address = true)
    (has : HasFeeLines before) : RewrittenFile fee before (writeLines ((readLines before).map (rewriteFee fee))) := by
  have written : ∀ {line setting}, FeeSetting.ofLine line = some setting →
      setting.read (rewriteFee fee line) = some (setting.value fee) := by
    intro line setting assigns
    have own := (FeeSetting.readOwnLine fee setting).mpr (tidy.plainly address setting)
    simpa [rewriteFee, assigns] using own
  constructor
  · rw [rewrittenFile tidy, List.forall₂_map_right_iff, List.forall₂_same]
    exact fun line _ => ⟨fun _ => written, fun other => by simp [rewriteFee, other]⟩
  · intro setting
    obtain ⟨line, mem, assigns⟩ := has setting
    rw [rewrittenFile tidy]
    exact ⟨_, List.mem_map_of_mem mem, written assigns⟩

/- And where it is not, the shell does not read that address from it. -/
theorem misreadsSpecial {fee : FeeTerms} {before : Bytes} (tidy : TidyFee fee) (has : HasFeeLines before)
    (rewritten : RewrittenFile fee before (writeLines ((readLines before).map (rewriteFee fee)))) : plain fee.address = true := by
  obtain ⟨line, mem, assigns⟩ := has .address
  have lines := rewritten.lines
  rw [rewrittenFile tidy, List.forall₂_map_right_iff, List.forall₂_same] at lines
  have read := (lines line mem).assigned .address assigns
  simp only [rewriteFee, assigns, Option.map_some, Option.getD_some] at read
  exact (FeeSetting.readOwnLine fee .address).mp read

theorem feeReadBack {path : String} {fee : FeeTerms} (before : Bytes) (valid : validateFeeTerms fee = .ok ()) :
    (∃ after, persistFeeToFile path (some before) true fee = .ok after ∧ RewrittenFile fee before after) ↔
      HasFeeLines before ∧ plain fee.address = true := by
  have tidy := tidyFee valid
  constructor
  · rintro ⟨after, persisted, rewritten⟩
    obtain ⟨_, has, rfl⟩ := persistsFee.mp persisted
    exact ⟨has, misreadsSpecial tidy has rewritten⟩
  · rintro ⟨has, address⟩
    have unquoted : ∀ setting, quote ∉ FeeSetting.value fee setting := fun setting =>
      unquotedPlain (tidy.plainly address setting)
    exact ⟨_, persistsFee.mpr ⟨⟨unquoted .asset, unquoted .address⟩, has, rfl⟩, rewritesPlain tidy address has⟩

/-! A new fee, with an address that runs a command and with one that does not. -/

def feeFile : Bytes := ascii "ADMIN_TOKEN=\"t\"\nFEE_ASSET=\"\"\nFEE_AMOUNT=\"\"\nFEE_ADDRESS=\"\"\n"
def bitcoinFee (address : String) : FeeTerms := { asset := ascii "BTC", amount := 5, address := ascii address }

theorem feeFixtures : HasFeeLines feeFile ∧ validateFeeTerms (bitcoinFee "bc1") = .ok () ∧
    plain (bitcoinFee "bc1").address = true ∧ validateFeeTerms (bitcoinFee "$(reboot)") = .ok () ∧
    plain (bitcoinFee "$(reboot)").address = false := by
  refine ⟨fun setting => ?_, by decide, by decide, by decide, by decide⟩
  cases setting <;> decide

theorem bitcoinFeeReadBack : ∃ after, persistFeeToFile "mediator.conf" (some feeFile) true (bitcoinFee "bc1") = .ok after ∧
    RewrittenFile (bitcoinFee "bc1") feeFile after :=
  (feeReadBack feeFile feeFixtures.2.1).mpr ⟨feeFixtures.1, feeFixtures.2.2.1⟩

/- The file is written, and the command is in it. -/
theorem feeRunsCommand : validateFeeTerms (bitcoinFee "$(reboot)") = .ok () ∧
    ∃ after, persistFeeToFile "mediator.conf" (some feeFile) true (bitcoinFee "$(reboot)") = .ok after ∧
      ¬RewrittenFile (bitcoinFee "$(reboot)") feeFile after := by
  obtain ⟨has, _, _, valid, special⟩ := feeFixtures
  refine ⟨valid, _, persistsFee.mpr ⟨⟨by decide, by decide⟩, has, rfl⟩, fun rewritten => ?_⟩
  have address := misreadsSpecial (tidyFee valid) has rewritten
  exact absurd (special.symm.trans address) (by decide)

end TradeP2P
