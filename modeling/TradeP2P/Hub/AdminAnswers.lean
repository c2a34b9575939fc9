import TradeP2P.Hub.AdminChannel
import TradeP2P.Identity.Enumeration

/-! What the channel answers can be sent back over it: the fee that is in force sets itself, and the ids of the rooms that wait name
these rooms. A line is the same in whatever pieces it comes. -/
namespace TradeP2P
open Wire (Bytes ascii)
open Checks
open RegistryServer (isSpace)

/-! Words. -/

structure Solid (word : Bytes) : Prop where
  some_ : word ≠ []
  plain : ∀ c ∈ word, isSpace c = false

theorem solidWord {word : Bytes} (plain : (word.isEmpty || word.any isSpace) = false) : Solid word := by
  rw [Bool.or_eq_false_iff, List.isEmpty_eq_false_iff, List.any_eq_false] at plain
  exact ⟨plain.1, fun c mem => by simpa using plain.2 c mem⟩

section Words
variable {word rest : Bytes}

theorem wordsMore (solid : Solid word) (rest : Bytes) : RegistryServer.words (word ++ 0x20 :: rest) = word :: RegistryServer.words rest := by
  rw [RegistryServer.words, List.splitOnP_append_cons_of_forall_mem solid.plain 0x20 (by decide) rest,
    List.filter_cons_of_pos (by simpa using solid.some_)]
  rfl

theorem wordsLast (solid : Solid word) : RegistryServer.words word = [word] := by
  rw [RegistryServer.words, List.splitOnP_eq_singleton solid.plain, List.filter_cons_of_pos (by simpa using solid.some_), List.filter_nil]

theorem decimalValue (n : Nat) : (decimal n).foldl (fun value digit => 10 * value + (digit.toNat - 0x30)) 0 = n := by
  have same : ∀ (value : Nat), ∀ c ∈ Nat.toDigits 10 n,
      10 * value + ((UInt8.ofNat c.toNat).toNat - 0x30) = 10 * value + (c.toNat - '0'.toNat) := by
    intro value c mem
    have digit := Nat.isDigit_of_mem_toDigits (by decide) (by decide) mem
    simp only [Char.isDigit, Bool.and_eq_true, decide_eq_true_eq] at digit
    have most : c.toNat ≤ 57 := digit.2
    rw [UInt8.toNat_ofNat', Nat.mod_eq_of_lt (by omega)]
    rfl
  rw [decimal, List.foldl_map, List.foldl_ext _ _ 0 same, ← Nat.ofDigitChars_eq_foldl, Nat.ofDigitChars_ten_toDigits]

theorem decimalSome (n : Nat) : decimal n ≠ [] := by
  simp [decimal, Nat.toDigits_ne_nil]

theorem fromCharsDecimal (n : UInt64) : fromChars (decimal n.toNat) = some n := by
  have digits : (decimal n.toNat).all (fun digit => 0x30 ≤ digit ∧ digit ≤ 0x39) = true := by
    rw [List.all_eq_true]
    intro c mem
    have digit := decimalByte mem
    simp only [decide_eq_true_eq, UInt8.le_iff_toNat_le]
    exact digit
  simp only [fromChars, decimalValue, digits]
  rw [if_pos ⟨decimalSome _, trivial, n.toNat_lt⟩, UInt64.ofNat_toNat]

theorem decimalSolid (n : Nat) : Solid (decimal n) := by
  refine ⟨decimalSome n, fun c mem => ?_⟩
  have digit := decimalByte mem
  simp only [isSpace, decide_eq_false_iff_not, not_or, not_and, UInt8.le_iff_toNat_le]
  refine ⟨?_, fun _ => ?_⟩
  · rintro rfl
    exact absurd digit (by decide)
  · have : (0x0d : UInt8).toNat = 13 := rfl
    omega

theorem assetSolid {asset : Bytes} (valid : validateAsset asset = .ok ()) : Solid asset := by
  simp only [validateAsset, check_ok, throwIf_ok, not_or, not_not, List.isEmpty_iff, List.all_eq_true] at valid
  obtain ⟨⟨some_, _⟩, letters⟩ := valid
  refine ⟨some_, fun c mem => ?_⟩
  by_contra space
  have every : ∀ k : Fin 256, assetCharacter (UInt8.ofFin k) = true → isSpace (UInt8.ofFin k) = false := by decide +kernel
  exact space (every c.toFin (letters c mem))

theorem addressSolid {address : Bytes} (valid : validateAddress address = .ok ()) : Solid address := by
  simp only [validateAddress, validatePrintable, check_ok, throwIf_ok, not_or, not_not, List.isEmpty_iff, List.all_eq_true] at valid
  obtain ⟨⟨some_, _⟩, printable⟩ := valid
  refine ⟨some_, fun c mem => ?_⟩
  have visible := printable c mem
  simp only [Bool.false_and, Bool.or_false, Bool.and_eq_true, decide_eq_true_eq, UInt8.le_iff_toNat_le] at visible
  simp only [isSpace, decide_eq_false_iff_not, not_or, not_and, UInt8.le_iff_toNat_le]
  have least : (0x21 : UInt8).toNat = 33 := rfl
  refine ⟨?_, fun _ => ?_⟩
  · rintro rfl
    exact absurd visible.1 (by decide)
  · have : (0x0d : UInt8).toNat = 13 := rfl
    omega

theorem hexLength (id : RoomId) : (toHex id.toList).length = 64 := by
  simp [toHex, List.length_flatMap, Credential.hexByte]

theorem hexRead (id : RoomId) (valid : validateRoomId id = .ok ()) : roomIdFromHex (toHex id.toList) = .ok id := by
  have same : (⟨id.toList.toArray, by simp⟩ : RoomId) = id := by
    apply Vector.toList_inj.mp
    simp
  have sized : id.toList.length = 32 := by simp
  rw [roomIdFromHex, hexLength, KeyLogin.hexBytesBack]
  simp only [sized, dif_pos, same, check_ok, throwIf_ok, valid, pure_ok, ne_eq, not_true_eq_false, not_false_eq_true, true_and]

theorem hexSolid (id : RoomId) : Solid (toHex id.toList) := by
  have every : ∀ k : Fin 256, (Credential.hexByte (UInt8.ofFin k)).any isSpace = false := by decide +kernel
  refine ⟨fun none_ => ?_, fun c mem => ?_⟩
  · have long := hexLength id
    simp [none_] at long
  · obtain ⟨byte, _, inside⟩ := List.mem_flatMap.mp mem
    exact Bool.eq_false_iff.mpr (List.any_eq_false.mp (every byte.toFin) c inside)

end Words

namespace AdminChannel

/-! A fee that is sent back. -/

def setFeeLine (token : Bytes) (fee : FeeTerms) : Bytes := ascii "SETFEE" ++ 0x20 :: (token ++ 0x20 :: feeWords fee)
def confirmFeeLine (token roomId : Bytes) : Bytes := ascii "CONFIRMFEE" ++ 0x20 :: (token ++ 0x20 :: roomId)

section Lines
variable {settings : Settings} {fee : FeeTerms} {token : Bytes}

theorem chargedFee (valid : validateFeeTerms fee = .ok ()) (charged : fee.amount ≠ 0) :
    validateAsset fee.asset = .ok () ∧ validateAddress fee.address = .ok () := by
  rw [validateFeeTerms, if_neg charged] at valid
  exact check_ok.mp valid

theorem setFeeWords (token_ : Solid token) (valid : validateFeeTerms fee = .ok ()) (charged : fee.amount ≠ 0) :
    RegistryServer.words (setFeeLine token fee) = [ascii "SETFEE", token, fee.asset, decimal fee.amount.toNat, fee.address] := by
  obtain ⟨asset, address⟩ := chargedFee valid charged
  have name : Solid (ascii "SETFEE") := solidWord (by decide)
  rw [setFeeLine, feeWords, wordsMore name, wordsMore token_, wordsMore (assetSolid asset), wordsMore (decimalSolid _),
    wordsLast (addressSolid address)]

theorem confirmFeeWords (token_ : Solid token) {roomId : Bytes} (id : Solid roomId) :
    RegistryServer.words (confirmFeeLine token roomId) = [ascii "CONFIRMFEE", token, roomId] := by
  have name : Solid (ascii "CONFIRMFEE") := solidWord (by decide)
  rw [confirmFeeLine, wordsMore name, wordsMore token_, wordsLast id]

theorem fullAccess (token_ : Solid token) (full : token = settings.adminToken) {line : Bytes}
    (carries : (RegistryServer.words line).getD 1 [] = token) : access settings line = some .full := by
  simp only [access, carries]
  rw [if_pos ⟨full ▸ token_.some_, full⟩]

theorem someAccess (token_ : Solid token) (known : token = settings.adminToken ∨ token = settings.adminFeeToken) {line : Bytes}
    (carries : (RegistryServer.words line).getD 1 [] = token) : ∃ granted, access settings line = some granted := by
  by_cases full : token = settings.adminToken
  · exact ⟨.full, fullAccess token_ full carries⟩
  · have fees := known.resolve_left full
    refine ⟨.fees, ?_⟩
    simp only [access, carries]
    rw [if_neg fun both => full both.2, if_pos ⟨fees ▸ token_.some_, fees⟩]

theorem setFeeAdmitted (token_ : Solid token) (full : token = settings.adminToken) (valid : validateFeeTerms fee = .ok ())
    (charged : fee.amount ≠ 0) :
    admitted settings (setFeeLine token fee) = some (.setFee fee.asset (decimal fee.amount.toNat) fee.address) := by
  have is := setFeeWords token_ valid charged
  have granted : access settings (setFeeLine token fee) = some .full := fullAccess token_ full (by rw [is]; rfl)
  have other : ascii "SETFEE" ≠ ascii "GETFEE" := by decide
  simp only [admitted, granted, Command.read, is]
  simp [other]

theorem feeTermsBack (valid : validateFeeTerms fee = .ok ()) (charged : fee.amount ≠ 0) :
    feeTerms fee.asset (decimal fee.amount.toNat) fee.address = .ok fee ↔ fee.asset ≠ ascii "-" := by
  have some_ := (assetSolid (chargedFee valid charged).1).some_
  constructor
  · rintro read marked
    rw [feeTerms, if_neg fun both => both.1 marked] at read
    obtain rfl := pure_ok.mp read
    exact charged rfl
  · intro other
    simp only [feeTerms, if_pos (And.intro other some_), fromCharsDecimal, check_ok, throwIf_ok, charged, not_false_eq_true, valid, pure_ok,
      true_and]

theorem confirmFeeNames (token_ : Solid token) (known : token = settings.adminToken ∨ token = settings.adminFeeToken) (id : RoomId)
    (valid : validateRoomId id = .ok ()) : names settings (confirmFeeLine token (toHex id.toList)) = some id := by
  have is := confirmFeeWords token_ (hexSolid id)
  obtain ⟨granted, access⟩ : ∃ granted, access settings (confirmFeeLine token (toHex id.toList)) = some granted :=
    someAccess token_ known (by rw [is]; rfl)
  have read : Command.read (confirmFeeLine token (toHex id.toList)) = .confirmFee (toHex id.toList) := by
    simp only [Command.read, is]
    rfl
  have admits : admitted settings (confirmFeeLine token (toHex id.toList)) = some (.confirmFee (toHex id.toList)) := by
    simp only [admitted, access, read]
    cases granted <;> rfl
  simp only [names, admits, hexRead id valid]
  rfl

/-! The ids of the rooms that wait. -/

theorem listedIds {found : List PendingFeeDetail} {reply : Bytes} (some_ : found ≠ []) (told : listed found = .ok reply) :
    reply = ascii "OK " ++ List.intercalate [0x2c] (found.map fun detail => toHex detail.roomId.toList) ∧
      ∀ detail ∈ found, validateRoomId detail.roomId = .ok () := by
  simp only [listed, if_neg some_, bind_ok, pure_ok] at told
  obtain ⟨ids, mapped, rfl⟩ := told
  have each : ids = found.map (fun detail => toHex detail.roomId.toList) ∧ ∀ detail ∈ found, validateRoomId detail.roomId = .ok () := by
    clear some_
    induction found generalizing ids with
    | nil =>
      obtain rfl := pure_ok.mp mapped
      exact ⟨rfl, by simp⟩
    | cons detail rest ih =>
      simp only [List.mapM_cons, bind_ok, pure_ok] at mapped
      obtain ⟨id, first, more, others, rfl⟩ := mapped
      simp only [roomIdToHex, check_ok, pure_ok] at first
      obtain ⟨valid, rfl⟩ := first
      obtain ⟨rfl, rest⟩ := ih more others
      exact ⟨rfl, by simpa using ⟨valid, rest⟩⟩
  exact ⟨by rw [each.1], each.2⟩

theorem listedNames (token_ : Solid token) (known : token = settings.adminToken ∨ token = settings.adminFeeToken)
    {found : List PendingFeeDetail} {reply : Bytes} (some_ : found ≠ []) (told : listed found = .ok reply) :
    ((reply.drop 3).splitOn 0x2c).map (fun id => names settings (confirmFeeLine token id)) =
      found.map fun detail => some detail.roomId := by
  obtain ⟨rfl, valid⟩ := listedIds some_ told
  have plain : ∀ id ∈ found.map (fun detail => toHex detail.roomId.toList), (0x2c : UInt8) ∉ id := by
    have every : ∀ k : Fin 256, (0x2c : UInt8) ∉ Credential.hexByte (UInt8.ofFin k) := by decide +kernel
    intro id mem comma
    obtain ⟨detail, _, rfl⟩ := List.mem_map.mp mem
    obtain ⟨byte, _, inside⟩ := List.mem_flatMap.mp comma
    exact every byte.toFin inside
  have body : (ascii "OK " ++ List.intercalate [0x2c] (found.map fun detail => toHex detail.roomId.toList)).drop 3 =
      List.intercalate [0x2c] (found.map fun detail => toHex detail.roomId.toList) := rfl
  rw [body, List.splitOn_intercalate 0x2c plain (by simpa using some_), List.map_map]
  exact List.map_congr_left fun detail mem => confirmFeeNames token_ known detail.roomId (valid detail mem)

end Lines

/-! A line in pieces. -/

theorem takenFront {line rest front back : Bytes} (whole : newline ∉ line) (ends : newline ∈ front)
    (joined : front ++ back = line ++ newline :: rest) : front.takeWhile (· ≠ newline) = line := by
  rcases List.append_eq_append_iff.mp joined with ⟨middle, rfl, _⟩ | ⟨middle, rfl, after⟩
  · exact absurd (List.mem_append_left middle ends) whole
  · cases middle with
    | nil => exact absurd (by simpa using ends) whole
    | cons first middle =>
      obtain rfl := (List.cons.inj after).1
      have before : ∀ c ∈ line, decide (c ≠ newline) = true := fun c mem => decide_eq_true fun same => whole (same ▸ mem)
      rw [List.takeWhile_append_of_pos before]
      simp

theorem openFront {line rest front back : Bytes} (open_ : newline ∉ front) (joined : front ++ back = line ++ newline :: rest) :
    front.length ≤ line.length := by
  rcases List.append_eq_append_iff.mp joined with ⟨middle, rfl, _⟩ | ⟨middle, rfl, after⟩
  · simp
  · cases middle with
    | nil => simp
    | cons first middle =>
      obtain rfl := (List.cons.inj after).1
      simp at open_

theorem piecesRead {settings : Settings} {line rest : Bytes} (whole : newline ∉ line) (short : line.length ≤ 4096)
    {pieces : List Bytes} (pieces_ : ∀ piece ∈ pieces, piece ≠ [] ∧ piece.length ≤ 512) {s : State} {received : Bytes}
    (here : s.place = .reading received) (open_ : newline ∉ received) (joined : received ++ pieces.flatten = line ++ newline :: rest) :
    ∃ front back, pieces = front ++ back ∧
      Schedules.play (fire settings) (fun _ _ => True) s (front.map .receives) = some { s with place := .heard (lineOf (line ++ [newline])) } := by
  induction pieces generalizing s received with
  | nil =>
    rw [List.flatten_nil, List.append_nil] at joined
    exact absurd (joined ▸ List.mem_append_right _ List.mem_cons_self) open_
  | cons piece more ih =>
    obtain ⟨some_, small⟩ := pieces_ piece List.mem_cons_self
    have fired : fire settings s (.receives piece) = some (s.read (received ++ piece)) := by
      simp only [fire, here, if_pos (And.intro some_ small)]
    rw [List.flatten_cons, ← List.append_assoc] at joined
    by_cases ends : newline ∈ received ++ piece
    · refine ⟨[piece], more, rfl, ?_⟩
      have own : (line ++ [newline]).takeWhile (· ≠ newline) = line := takenFront whole (by simp) (List.append_nil _)
      have taken : lineOf (received ++ piece) = lineOf (line ++ [newline]) := by
        rw [lineOf, lineOf, takenFront whole ends joined, own]
      have read : s.read (received ++ piece) = { s with place := .heard (lineOf (line ++ [newline])) } := by
        rw [State.read, if_pos (.inl ends), taken]
      simp only [List.map_cons, List.map_nil, Schedules.play, if_true, fired, read, Option.bind_some]
    · have less := openFront ends joined
      have read : s.read (received ++ piece) = { s with place := .reading (received ++ piece) } := by
        rw [State.read, if_neg fun either => either.elim ends fun long => by omega]
      obtain ⟨front, back, split, played⟩ := ih (fun other mem => pieces_ other (List.mem_cons_of_mem piece mem))
        (s := { s with place := .reading (received ++ piece) }) rfl ends joined
      refine ⟨piece :: front, back, by rw [split, List.cons_append], ?_⟩
      simp only [List.map_cons, Schedules.play, if_true, fired, read, Option.bind_some]
      exact played

/-! The fee that is in force over a run. -/
section Runs
variable {settings : Settings} {start : FeeTerms} {s : State} {lobby : Lobby.State} {file : Option Bytes} {token : Bytes}

theorem feeTermsValid {asset amount address : Bytes} {fee : FeeTerms} (read : feeTerms asset amount address = .ok fee) :
    validateFeeTerms fee = .ok () ∧ fee.asset ≠ ascii "-" := by
  unfold feeTerms at read
  split at read
  · rename_i marked
    split at read
    · cases read
    · simp only [check_ok, throwIf_ok, pure_ok] at read
      obtain ⟨_, valid, rfl⟩ := read
      exact ⟨valid, marked.1⟩
  · obtain rfl := pure_ok.mp read
    exact ⟨by decide, by decide⟩

theorem inForceValid (settings : Settings) (valid : validateFeeTerms start = .ok ()) (answers : List (Bytes × Bytes)) :
    validateFeeTerms (inForce settings start answers) = .ok () ∧
      (inForce settings start answers = start ∨ (inForce settings start answers).asset ≠ ascii "-") := by
  induction answers using List.reverseRecOn with
  | nil => exact ⟨valid, .inl rfl⟩
  | append_singleton answers said ih =>
    rw [inForceMore]
    cases is : feeSet settings said with
    | none => exact ih
    | some fee =>
      unfold feeSet at is
      split at is
      · split_ifs at is
        rename_i asset amount address _ _
        cases read : feeTerms asset amount address with
        | error e =>
          rw [read] at is
          cases is
        | ok made =>
          rw [read] at is
          obtain rfl := Option.some.inj is
          obtain ⟨valid, marked⟩ := feeTermsValid read
          exact ⟨valid, .inr marked⟩
      · cases is

/- What was answered is read again as what it says. A fee whose asset is a dash is the one exception, and no line sets such a fee. -/
structure GivenBack (settings : Settings) (start : FeeTerms) (s : State) (token : Bytes) : Prop where
  fee : s.lobby.tables.fee.amount ≠ 0 →
    currentFee s.lobby.tables.fee = ascii "OK " ++ feeWords s.lobby.tables.fee ∧
      ∃ asset amount address, admitted settings (setFeeLine token s.lobby.tables.fee) = some (.setFee asset amount address) ∧
        (feeTerms asset amount address = .ok s.lobby.tables.fee ↔ s.lobby.tables.fee.asset ≠ ascii "-")
  dash : s.lobby.tables.fee.asset = ascii "-" → s.lobby.tables.fee = start
  rooms : ∀ found reply, found ≠ [] → listed found = .ok reply →
    ((reply.drop 3).splitOn 0x2c).map (fun id => names settings (confirmFeeLine token id)) = found.map fun detail => some detail.roomId
  pieces : ∀ (line rest : Bytes) (pieces : List Bytes), newline ∉ line → line.length ≤ 4096 → (∀ piece ∈ pieces, piece ≠ [] ∧ piece.length ≤ 512) →
    s.place = .reading [] → pieces.flatten = line ++ newline :: rest →
    ∃ front back : List Bytes, pieces = front ++ back ∧ Schedules.play (fire settings) (fun _ _ => True) s (front.map .receives) =
      some { s with place := .heard (lineOf (line ++ [newline])) }

theorem answersGivenBack (began : Lobby.Started settings.lobby lobby) (valid : validateFeeTerms lobby.tables.fee = .ok ())
    (run : Run settings (started lobby file) s) (solid : Solid token) (full : token = settings.adminToken) :
    GivenBack settings lobby.tables.fee s token := by
  have inForce := (runKept (startKept began) run).fee
  obtain ⟨sound, marked⟩ := inForceValid settings valid s.answers
  rw [← inForce] at sound marked
  refine ⟨fun charged => ⟨if_neg charged, _, _, _, setFeeAdmitted solid full sound charged, feeTermsBack sound charged⟩,
    fun dash => marked.resolve_right fun other => other dash, fun found reply some_ told => listedNames solid (.inl full) some_ told, ?_⟩
  intro line rest pieces whole short pieces_ here joined
  exact piecesRead whole short pieces_ here (by simp) joined

theorem swapGivenBack : ∃ s, Run swapSettings (started (Lobby.opened MediatorSession.swapFee) none) s ∧
    currentFee s.lobby.tables.fee = ascii "OK BTC 1 btcM" ∧ GivenBack swapSettings MediatorSession.swapFee s (ascii "top") := by
  obtain ⟨s, played, there⟩ := Option.map_eq_some_iff.mp swapSeen.1
  have fee : s.lobby.tables.fee = MediatorSession.swapFee := congrArg Seen.fee there
  refine ⟨s, Schedules.playRun played, by rw [fee]; decide, ?_⟩
  exact answersGivenBack (.opened MediatorSession.swapFee) (by decide) (Schedules.playRun played) (solidWord (by decide)) rfl

end Runs
end AdminChannel
end TradeP2P
