import TradeP2P.Identity.Entries

/-! A history across a restart. The file a history is kept in opens again with the same entries, as long
as it is no longer than the reader takes. -/
namespace TradeP2P
open Wire (Bytes Inverts bigEndian prefixed writeMany readMany)
open Checks Machine
open Aead (Cipher)

namespace HistoryCodec

attribute [local simp] bind_ok check_ok pure_ok throwIf_ok

/-! What the readers accept. -/
section Reading
variable {input rest : Bytes}

theorem stringU16Ok {maxLen : Nat} {text : Bytes} :
    stringU16 maxLen input = .ok (text, rest) ↔ text.length ≤ maxLen ∧ text.length ≤ 65535 ∧ input = prefixed text ++ rest :=
  Wire.takePrefixedRead

theorem bytesU32Ok {maxLen : Nat} (bound : maxLen < 2 ^ 32) {bytes : Bytes} : bytesU32 maxLen input = .ok (bytes, rest) ↔
    bytes.length ≤ maxLen ∧ input = bigEndian 4 bytes.length ++ (bytes ++ rest) :=
  Wire.takePrefixed32Read bound

theorem oneOfOk {α : Type} {values : List (UInt8 × α)} {toByte : α → UInt8}
    (table : ∀ raw a, values.lookup raw = some a ↔ raw = toByte a) {unknown : String} {a : α} :
    oneOf values unknown input = .ok (a, rest) ↔ input = toByte a :: rest := by
  simp only [oneOf, Wire.bindRead, Wire.u8Read]
  constructor
  · rintro ⟨raw, mid, rfl, ok⟩
    cases found : values.lookup raw with
    | none =>
        rw [found] at ok
        contradiction
    | some value =>
        rw [found] at ok
        obtain ⟨rfl, rfl⟩ := Wire.pureRead.mp ok
        rw [(table raw value).mp found]
        rfl
  · rintro rfl
    refine ⟨toByte a, rest, rfl, ?_⟩
    rw [(table (toByte a) a).mpr rfl]
    rfl

theorem countedOk {α β : Type} {r : Wire.Reader HistoryError α} {w : α → Except HistoryError Bytes} (h : Inverts r w)
    {k : List α → Wire.Reader HistoryError β} {b : β} :
    (do let count ← u16; let items ← readMany r count.toNat; k items : Wire.Reader HistoryError β) input = .ok (b, rest) ↔
      ∃ items bytes mid, items.length ≤ 65535 ∧ writeMany w items = .ok bytes ∧
        input = bigEndian 2 items.length ++ (bytes ++ mid) ∧ k items mid = .ok (b, rest) := by
  simp only [Wire.bindRead, Wire.u16Read, h.many]
  constructor
  · rintro ⟨count, _, rfl, items, mid, ⟨same, bytes, written, rfl⟩, ok⟩
    have bound := count.toNat_lt
    exact ⟨items, bytes, mid, by omega, written, by rw [same], ok⟩
  · rintro ⟨items, bytes, mid, short, written, rfl, ok⟩
    have same : (UInt16.ofNat items.length).toNat = items.length := UInt16.toNat_ofNat_of_lt' (Nat.lt_succ_of_le short)
    exact ⟨UInt16.ofNat items.length, _, by rw [same], items, mid, ⟨same.symm, bytes, written, rfl⟩, ok⟩

end Reading

/- A table of an enumeration, in any order, names each value by its byte. -/
theorem tableOk {α : Type} {toByte : α → UInt8} (apart : ∀ a b, toByte a = toByte b → a = b) (all : List α) (raw : UInt8) (a : α) :
    (all.map fun value => (toByte value, value)).lookup raw = some a ↔ a ∈ all ∧ raw = toByte a := by
  induction all with
  | nil => simp
  | cons b rest ih =>
      rw [List.map_cons, List.lookup_cons]
      by_cases same : raw = toByte b
      · subst same
        simp only [beq_self_eq_true, Option.some.injEq, List.mem_cons]
        constructor
        · rintro rfl
          exact ⟨.inl rfl, rfl⟩
        · intro there
          exact apart b a there.2
      · have differs : (raw == toByte b) = false := beq_false_of_ne same
        simp only [differs, ih, List.mem_cons]
        constructor
        · intro there
          exact ⟨.inr there.1, there.2⟩
        · rintro ⟨rfl | inside, rfl⟩
          · exact absurd rfl same
          · exact ⟨inside, rfl⟩

theorem scopeTable (raw : UInt8) (scope : FingerprintScope) : scopes.lookup raw = some scope ↔ raw = scope.toByte := by
  have apart : ∀ a b, FingerprintScope.toByte a = FingerprintScope.toByte b → a = b := fun a b _ => by cases a; cases b; rfl
  refine (tableOk apart [.perMediator] raw scope).trans ?_
  cases scope
  simp

theorem outcomeTable (raw : UInt8) (outcome : LocalOutcome) : outcomes.lookup raw = some outcome ↔ raw = outcome.toByte := by
  have apart : ∀ a b : LocalOutcome, a.toByte = b.toByte → a = b := by
    intro a b same
    cases a <;> cases b <;> simp_all [LocalOutcome.toByte]
  refine (tableOk apart [.unknown, .successful, .incomplete] raw outcome).trans ?_
  cases outcome <;> simp

theorem flagTable (raw : UInt8) (flag : Bool) : flags.lookup raw = some flag ↔ raw = blockedByte flag := by
  have apart : ∀ a b, blockedByte a = blockedByte b → a = b := by decide
  refine (tableOk apart [false, true] raw flag).trans ?_
  cases flag <;> simp

theorem levelTable (raw : UInt8) (level : ConfidenceLevel) : levels.lookup raw = some level ↔ raw = level.toByte := by
  have apart : ∀ a b : ConfidenceLevel, a.toByte = b.toByte → a = b := by
    intro a b same
    cases a <;> cases b <;> simp_all [ConfidenceLevel.toByte]
  refine (tableOk apart [.unknown, .low, .medium, .high] raw level).trans ?_
  cases level <;> simp

/-! The parts of an entry, and entries. -/

theorem invertsOutcome : Inverts readOutcome encodeOutcome := by
  intro input rest outcome
  rw [readOutcome, oneOfOk outcomeTable]
  simp [encodeOutcome]

theorem invertsHash : Inverts (fixed 32) encodeHash := by
  intro input rest hash
  simp [encodeHash]

theorem invertsNote : Inverts readNote encodeNote := by
  intro input rest note
  simp only [readNote, encodeNote, Wire.bindRead, Wire.u64Read, stringU16Ok, Wire.pureRead, bind_ok, pure_ok,
    Wire.lengthPrefixedOk]
  constructor
  · rintro ⟨recordedAt, _, rfl, text, _, ⟨small, short, rfl⟩, rfl, rfl⟩
    exact ⟨_, ⟨_, ⟨small, short, rfl⟩, rfl⟩, by rw [List.append_assoc]⟩
  · rintro ⟨_, ⟨_, ⟨small, short, rfl⟩, rfl⟩, rfl⟩
    exact ⟨note.recordedAt, _, List.append_assoc _ _ _, note.text, rest, ⟨small, short, rfl⟩, rfl, rfl⟩

theorem invertsEntry : Inverts decodeEntry encodeEntry := by
  intro input rest entry
  simp only [decodeEntry, countedOk invertsOutcome, countedOk invertsNote, countedOk invertsHash,
    Wire.bindRead (r := fixed 32), Wire.fixedRead, Wire.bindRead (r := oneOf scopes _), oneOfOk scopeTable,
    Wire.bindRead (r := stringU16 _), stringU16Ok, Wire.bindRead (r := u64), Wire.u64Read,
    Wire.bindRead (r := oneOf flags _), oneOfOk flagTable, Wire.bindRead (r := oneOf levels _), oneOfOk levelTable,
    Wire.pureRead]
  simp only [encodeEntry, bind_ok, pure_ok, throwIf_ok, Wire.lengthPrefixedOk]
  constructor
  · intro read
    obtain ⟨fingerprint, _, rfl, scope, _, rfl, mediatorId, _, ⟨small, short, rfl⟩, firstSeen, _, rfl, lastSeen, _, rfl,
      encounterCount, _, rfl, outcomeLabels, labels, _, fewLabels, writtenLabels, rfl, blocked, _, rfl,
      notes, noteBytes, _, fewNotes, writtenNotes, rfl, hashes, hashBytes, _, fewHashes, writtenHashes, rfl,
      confidence, _, rfl, rfl, rfl⟩ := read
    exact ⟨_, ⟨_, ⟨small, short, rfl⟩, (), Nat.not_lt_of_le fewLabels, labels, writtenLabels, (), Nat.not_lt_of_le fewNotes,
      noteBytes, writtenNotes, (), Nat.not_lt_of_le fewHashes, hashBytes, writtenHashes, rfl⟩, by simp⟩
  · intro written
    obtain ⟨_, ⟨_, ⟨small, short, rfl⟩, _, fewLabels, labels, writtenLabels, _, fewNotes, noteBytes, writtenNotes,
      _, fewHashes, hashBytes, writtenHashes, rfl⟩, rfl⟩ := written
    exact ⟨entry.fingerprint, _, by simp, entry.scope, _, rfl, entry.mediatorId, _, ⟨small, short, rfl⟩,
      entry.firstSeen, _, rfl, entry.lastSeen, _, rfl, entry.encounterCount, _, rfl,
      entry.outcomeLabels, labels, _, Nat.le_of_not_lt fewLabels, writtenLabels, rfl, entry.locallyBlocked, _, rfl,
      entry.notes, noteBytes, _, Nat.le_of_not_lt fewNotes, writtenNotes, rfl,
      entry.evidenceHashes, hashBytes, _, Nat.le_of_not_lt fewHashes, writtenHashes, rfl, entry.confidence, rest, rfl, rfl, rfl⟩

/-! Stores, and the file around them. -/

theorem decodePayloadOk {plaintext : Bytes} {entries : List CounterpartyHistoryEntry} :
    decodePayload plaintext = .ok entries ↔ entries.length ≤ historyMaxEntries ∧ encodePayload entries = .ok plaintext := by
  simp only [decodePayload, Wire.readAllOk, readPayload, Wire.bindRead, Wire.u32Read, Wire.checkRead, throwIf_ok,
    invertsEntry.many, encodePayload, bind_ok, pure_ok, List.append_nil]
  constructor
  · intro read
    obtain ⟨count, _, rfl, _, _, ⟨few, rfl⟩, same, _, encoded, rfl⟩ := read
    have bound := count.toNat_lt
    exact ⟨by omega, (), by omega, _, encoded, by rw [same]⟩
  · intro encoded
    obtain ⟨few, _, small, bytes, written, rfl⟩ := encoded
    have same : (UInt32.ofNat entries.length).toNat = entries.length :=
      UInt32.toNat_ofNat_of_lt' (by show _ < 2 ^ 32; omega)
    exact ⟨UInt32.ofNat entries.length, _, by rw [same], (), _, ⟨by omega, rfl⟩, same.symm, bytes, written, rfl⟩

theorem decodeFileOk {raw : Bytes} {decoded : DecodedFile} : decodeFile raw = .ok decoded ↔
    decoded.formatVersion = historyFormatVersion ∧ decoded.aad = header ∧
      decoded.ciphertext.length ≤ historyMaxCiphertextLength ∧
      raw = fileBytes decoded.nonce ⟨decoded.ciphertext, decoded.tag⟩ := by
  have bound : historyMaxCiphertextLength < 2 ^ 32 := by decide
  simp only [decodeFile, Wire.readAllOk, readFile, Wire.bindRead, Wire.fixedRead, Wire.u16Read, Wire.checkRead, throwIf_ok,
    Wire.positionRead, bytesU32Ok bound, Wire.pureRead, ne_eq, not_not]
  constructor
  · intro read
    obtain ⟨_, _, rfl, _, _, ⟨rfl, rfl⟩, _, _, rfl, _, _, ⟨rfl, rfl⟩, aadLength, _, ⟨position, rfl⟩, nonce, _, rfl,
      ciphertext, _, ⟨small, rfl⟩, tag, _, rfl, rfl, rfl⟩ := read
    refine ⟨rfl, ?_, small, by simp [fileBytes, header]⟩
    rw [← position, ← List.append_assoc]
    exact Wire.takeFront _ _
  · intro whole
    obtain ⟨version, aad, small, rfl⟩ := whole
    refine ⟨historyMagic, _, by rw [fileBytes, header, List.append_assoc], (), _, ⟨rfl, rfl⟩, historyFormatVersion, _, rfl, (), _, ⟨rfl, rfl⟩, _, _, ⟨rfl, rfl⟩, decoded.nonce, _, rfl,
      decoded.ciphertext, _, ⟨small, rfl⟩, decoded.tag, _, by rw [List.append_nil], ?_, rfl⟩
    rw [fileBytes, Wire.takeFront]
    cases decoded
    rw [← version, ← aad]

/-! Sizes. -/

def noteSize (note : HistoryNote) : Nat := 10 + note.text.length

def entrySize (entry : CounterpartyHistoryEntry) : Nat :=
  67 + entry.mediatorId.length + entry.outcomeLabels.length + (entry.notes.map noteSize).sum + 32 * entry.evidenceHashes.length

def storedSize (entries : List CounterpartyHistoryEntry) : Nat := 4 + (entries.map entrySize).sum

theorem encodedNoteSize {note : HistoryNote} {bytes : Bytes} (encoded : encodeNote note = .ok bytes) :
    bytes.length = noteSize note := by
  simp only [encodeNote, bind_ok, pure_ok, Wire.lengthPrefixedOk] at encoded
  obtain ⟨_, ⟨_, _, rfl⟩, rfl⟩ := encoded
  simp only [List.length_append, Wire.bigEndianLength, prefixed, noteSize]
  omega

theorem encodedEntrySize {entry : CounterpartyHistoryEntry} {bytes : Bytes} (encoded : encodeEntry entry = .ok bytes) :
    bytes.length = entrySize entry := by
  simp only [encodeEntry, bind_ok, pure_ok, throwIf_ok, Wire.lengthPrefixedOk] at encoded
  obtain ⟨_, ⟨_, _, rfl⟩, _, _, labels, writtenLabels, _, _, noteBytes, writtenNotes, _, _, hashBytes, writtenHashes, rfl⟩ := encoded
  have labelSizes : labels.length = (entry.outcomeLabels.map fun _ => 1).sum :=
    Wire.writeManySize (fun written => by obtain rfl := Except.ok.inj written; rfl) writtenLabels
  have hashSizes : hashBytes.length = (entry.evidenceHashes.map fun _ => 32).sum :=
    Wire.writeManySize (fun written => by obtain rfl := Except.ok.inj written; simp) writtenHashes
  have noteSizes : noteBytes.length = (entry.notes.map noteSize).sum := Wire.writeManySize encodedNoteSize writtenNotes
  simp only [List.map_const', List.sum_replicate_nat, Nat.mul_one] at labelSizes hashSizes
  simp only [List.length_append, Wire.bigEndianLength, prefixed, entrySize, Vector.length_toList, List.length_singleton,
    labelSizes, hashSizes, noteSizes]
  omega

end HistoryCodec

namespace LocalCounterpartyHistory
open HistoryCodec

/-! The limits of an entry, which every call keeps. -/

structure Fits (entry : CounterpartyHistoryEntry) : Prop where
  mediatorId : entry.mediatorId.length ≤ historyMaxMediatorIdLength
  outcomes : entry.outcomeLabels.length ≤ historyMaxOutcomesPerEntry
  notes : entry.notes.length ≤ historyMaxNotesPerEntry
  texts : ∀ note ∈ entry.notes, note.text.length ≤ historyMaxNoteLength
  hashes : entry.evidenceHashes.length ≤ historyMaxEvidenceHashesPerEntry

theorem fitsFresh {call : Call} (fits : call.fits) : Fits call.fresh := by
  simp only [Call.fits, Bool.and_eq_true, decide_eq_true_eq] at fits
  exact ⟨fits.1, Nat.zero_le _, Nat.zero_le _, by simp [Call.fresh], Nat.zero_le _⟩

theorem fitsRecomputed {entry : CounterpartyHistoryEntry} (fits : Fits entry) : Fits (recomputeConfidence entry) :=
  ⟨fits.mediatorId, fits.outcomes, fits.notes, fits.texts, fits.hashes⟩

theorem fitsEncountered {entry : CounterpartyHistoryEntry} (fits : Fits entry) (outcome : LocalOutcome) (now : UInt64) :
    Fits (encountered outcome now entry) where
  mediatorId := fits.mediatorId
  outcomes := by
    unfold encountered
    dsimp only
    split
    · rename_i room
      rw [List.length_append, List.length_singleton]
      exact room.2
    · exact fits.outcomes
  notes := fits.notes
  texts := fits.texts
  hashes := fits.hashes

theorem fitsEdited {call : Call} (within : call.fits) {entry : CounterpartyHistoryEntry} (fits : Fits entry) :
    Fits (call.edit entry) := by
  unfold Call.edit
  cases how : call.change with
  | recordEncounter outcome now => exact fitsRecomputed (fitsEncountered fits outcome _)
  | setBlocked blocked => exact ⟨fits.mediatorId, fits.outcomes, fits.notes, fits.texts, fits.hashes⟩
  | addNote text now =>
      dsimp only
      split
      · exact fits
      · rename_i room
        have short : text.length ≤ historyMaxNoteLength := by
          simp only [Call.fits, how, Bool.and_eq_true, decide_eq_true_eq] at within
          exact within.2
        refine ⟨fits.mediatorId, fits.outcomes, ?_, ?_, fits.hashes⟩
        · rw [List.length_append, List.length_singleton]
          omega
        · intro note mem
          rcases List.mem_append.mp mem with inside | last
          · exact fits.texts note inside
          · rw [List.mem_singleton.mp last]
            exact short
  | addEvidenceHash hash =>
      dsimp only
      split
      · exact fits
      · rename_i room
        refine fitsRecomputed ⟨fits.mediatorId, fits.outcomes, fits.notes, fits.texts, ?_⟩
        rw [List.length_append, List.length_singleton]
        omega

structure FitStore (entries : List CounterpartyHistoryEntry) : Prop where
  few : entries.length ≤ historyMaxEntries
  each : ∀ entry ∈ entries, Fits entry

theorem fitStoreEffect (call : Call) {entries : List CounterpartyHistoryEntry} (fit : FitStore entries) :
    FitStore (call.effect entries) := by
  unfold Call.effect
  split
  · rename_i within
    exact ⟨Keyed.touchLength fit.few, Keyed.touchAll fit.each (fitsEdited within (fitsFresh within))
      fun entry fits => fitsEdited within fits⟩
  · exact fit

theorem fitStoreRun (calls : List Call) {entries : List CounterpartyHistoryEntry} (fit : FitStore entries) :
    FitStore (effects calls entries) := by
  induction calls generalizing entries with
  | nil => exact fit
  | cons call rest ih => exact ih (fitStoreEffect call fit)

/-! What is written, and what is read. -/

theorem encodesEntry {entry : CounterpartyHistoryEntry} (fits : Fits entry) : ∃ bytes, encodeEntry entry = .ok bytes := by
  obtain ⟨mediatorId, outcomes, notes, texts, hashes⟩ := fits
  simp only [historyMaxMediatorIdLength, historyMaxOutcomesPerEntry, historyMaxNotesPerEntry,
    historyMaxEvidenceHashesPerEntry] at mediatorId outcomes notes hashes
  obtain ⟨labels, writtenLabels⟩ := Wire.writesMany encodeOutcome entry.outcomeLabels fun _ _ => ⟨_, rfl⟩
  obtain ⟨hashBytes, writtenHashes⟩ := Wire.writesMany encodeHash entry.evidenceHashes fun _ _ => ⟨_, rfl⟩
  obtain ⟨noteBytes, writtenNotes⟩ := Wire.writesMany encodeNote entry.notes fun note mem => by
    have short := texts note mem
    simp only [historyMaxNoteLength] at short
    simp only [encodeNote, bind_ok, pure_ok, Wire.lengthPrefixedOk, historyMaxNoteLength]
    exact ⟨_, _, ⟨short, by omega, rfl⟩, rfl⟩
  simp only [encodeEntry, bind_ok, pure_ok, throwIf_ok, Wire.lengthPrefixedOk, historyMaxMediatorIdLength]
  exact ⟨_, _, ⟨mediatorId, by omega, rfl⟩, (), by omega, labels, writtenLabels, (), by omega, noteBytes, writtenNotes,
    (), by omega, hashBytes, writtenHashes, rfl⟩

theorem encodesPayload {entries : List CounterpartyHistoryEntry} (fit : FitStore entries) :
    ∃ payload, encodePayload entries = .ok payload ∧ payload.length = storedSize entries := by
  obtain ⟨written, encoded⟩ := Wire.writesMany _ _ fun entry mem => encodesEntry (fit.each entry mem)
  have few := fit.few
  simp only [historyMaxEntries] at few
  have size : written.length = (entries.map entrySize).sum := Wire.writeManySize encodedEntrySize encoded
  refine ⟨bigEndian 4 entries.length ++ written, ?_, by rw [List.length_append, Wire.bigEndianLength, size]; rfl⟩
  simp only [encodePayload, bind_ok, pure_ok, throwIf_ok]
  exact ⟨(), by omega, written, encoded, rfl⟩

/- A sealed payload is read back when it is not too long, and not at all when it is. -/
theorem opensSealed {cipher : Cipher} (faithful : cipher.Faithful) {key : Aead.Key} {nonce : Aead.Nonce}
    {entries : List CounterpartyHistoryEntry} (few : entries.length ≤ historyMaxEntries) {payload : Bytes}
    (encoded : encodePayload entries = .ok payload) {sealing : Aead.Sealed}
    (made : cipher.encrypt key nonce header payload = some sealing) :
    openEntries cipher key (fileBytes nonce sealing) = .ok entries ↔ payload.length ≤ historyMaxCiphertextLength := by
  have length := faithful.length made
  constructor
  · intro opened
    simp only [openEntries, bind_ok] at opened
    obtain ⟨decoded, read, _⟩ := opened
    obtain ⟨_, _, small, whole⟩ := decodeFileOk.mp read
    have sizes := congrArg List.length whole
    simp only [fileBytes, List.length_append, Vector.length_toList, Wire.bigEndianLength] at sizes
    omega
  · intro small
    have read : decodeFile (fileBytes nonce sealing) = .ok ⟨historyFormatVersion, nonce, sealing.ciphertext, sealing.tag, header⟩ :=
      decodeFileOk.mpr ⟨rfl, rfl, (le_of_eq length).trans small, rfl⟩
    simp only [openEntries, bind_ok]
    refine ⟨_, read, ?_⟩
    simp only [faithful.opens made]
    exact decodePayloadOk.mpr ⟨few, encoded⟩

section Persisting
variable {cipher : Cipher} {env : HistoryEnv} {s : HistoryOnDisk} {payload : Bytes} {nonce : Aead.Nonce}

theorem persistSealed (encoded : encodePayload s.history.entries = .ok payload) (random : env.nonce = .ok nonce)
    (writes : env.writeReplaceAtomic = .ok ()) {sealing : Aead.Sealed}
    (made : cipher.encrypt s.history.aeadKey nonce header payload = some sealing) :
    persist cipher env s = .ok () { s with file := some (fileBytes nonce sealing) } := by
  simp only [persist, bind_run, get_run, lift_run, set_run, encoded, random, writes, standardly, chacha20poly1305Seal, made]

theorem persistUnsealed (encoded : encodePayload s.history.entries = .ok payload) (random : env.nonce = .ok nonce)
    (made : cipher.encrypt s.history.aeadKey nonce header payload = none) :
    persist cipher env s = .error (.standard (.runtimeError "failed to encrypt history payload")) s := by
  simp only [persist, bind_run, get_run, lift_run, encoded, random, standardly, chacha20poly1305Seal, made]

theorem openStoreOk {raw : Bytes} {history : LocalCounterpartyHistory} :
    openStore cipher history.aeadKey (some raw) = .ok history ↔
      openEntries cipher history.aeadKey raw = .ok history.entries := by
  simp only [openStore, bind_ok, pure_ok]
  constructor
  · intro opened
    obtain ⟨entries, ok, same⟩ := opened
    rw [ok, ← same]
  · intro opened
    exact ⟨history.entries, opened, rfl⟩

end Persisting

/- Once the file is written, a restart finds the history as it was. -/
def Survives (cipher : Cipher) (s : HistoryOnDisk) : Prop :=
  ∀ env nonce, env.nonce = .ok nonce → env.writeReplaceAtomic = .ok () →
    ∃ raw, persist cipher env s = .ok () { s with file := some raw } ∧
      openStore cipher s.history.aeadKey (some raw) = .ok s.history

theorem survivesIff {cipher : Cipher} (faithful : cipher.Faithful) {s : HistoryOnDisk} (fit : FitStore s.history.entries) :
    Survives cipher s ↔ storedSize s.history.entries ≤ historyMaxCiphertextLength := by
  obtain ⟨payload, encoded, size⟩ := encodesPayload fit
  rw [← size]
  constructor
  · intro survives
    obtain ⟨raw, wrote, opened⟩ := survives ⟨0, .ok (Vector.replicate 12 0), .ok ()⟩ (Vector.replicate 12 0) rfl rfl
    cases made : cipher.encrypt s.history.aeadKey (Vector.replicate 12 0) header payload with
    | none =>
        rw [persistUnsealed encoded rfl made] at wrote
        contradiction
    | some sealing =>
        rw [persistSealed encoded rfl rfl made] at wrote
        obtain rfl : fileBytes _ sealing = raw := by simpa using wrote
        exact (opensSealed faithful fit.few encoded made).mp (openStoreOk.mp opened)
  · intro small env nonce random writes
    have short : payload.length < 2 ^ 31 := lt_of_le_of_lt small (by decide)
    obtain ⟨sealing, made⟩ := faithful.seals s.history.aeadKey nonce header payload short
    exact ⟨fileBytes nonce sealing, persistSealed encoded random writes made,
      openStoreOk.mpr ((opensSealed faithful fit.few encoded made).mpr small)⟩

-- A settlement, a block and a note.
def met : List Call :=
  let env : HistoryEnv := ⟨1700000000, .ok (Vector.replicate 12 0), .ok ()⟩
  [⟨env, Vector.replicate 32 7, [0x6d], .recordEncounter .successful 0⟩, ⟨env, Vector.replicate 32 9, [0x6d], .setBlocked true⟩,
    ⟨env, Vector.replicate 32 7, [0x6d], .addNote [0x6f, 0x6b] 0⟩]

/- The file of any run opens again with the same entries exactly while it is short enough to be read. -/
theorem historySurvives (cipher : Cipher) (faithful : cipher.Faithful) (aeadKey : Aead.Key) (calls : List Call) :
    Survives cipher (exec (object cipher) (create aeadKey) calls) ↔
      storedSize (exec (object cipher) (create aeadKey) calls).history.entries ≤ historyMaxCiphertextLength := by
  refine survivesIff faithful ?_
  rw [runEntries]
  exact fitStoreRun calls ⟨Nat.zero_le _, by simp⟩

theorem historySurvivesNoted : Survives Aead.chacha20Poly1305
    (exec (object Aead.chacha20Poly1305) (create (Vector.replicate 32 1)) met) :=
  (historySurvives Aead.chacha20Poly1305 Aead.chacha20Poly1305Faithful (Vector.replicate 32 1) met).mpr (by
    rw [runEntries]
    decide)

/- A store well within the limits of its entries can still be too long to be read: sixty-four
counterparties with all their notes are enough. -/
section Swollen

def longText : Bytes := List.replicate historyMaxNoteLength 0x20

def stranger (i : Nat) : CounterpartyFingerprint := Vector.replicate 32 (UInt8.ofNat i)

def noted (i : Nat) : Call where
  env := ⟨1700000000, .ok (Vector.replicate 12 0), .ok ()⟩
  fingerprint := stranger i
  mediatorId := []
  change := .addNote longText 0

def noteful (i count : Nat) : CounterpartyHistoryEntry :=
  { (noted i).fresh with notes := List.replicate count ⟨1700000000, longText⟩ }

def swollen (count : Nat) : List Call :=
  (List.range count).flatMap fun i => List.replicate historyMaxNotesPerEntry (noted i)

theorem longTextLength : longText.length = historyMaxNoteLength := List.length_replicate

theorem notedFits (i : Nat) : (noted i).fits = true := by
  have mediatorId : (noted i).mediatorId = [] := rfl
  have change : (noted i).change = .addNote longText 0 := rfl
  simp [Call.fits, mediatorId, change, longTextLength]

theorem editNoteful {i count : Nat} (room : count < historyMaxNotesPerEntry) :
    (noted i).edit (noteful i count) = noteful i (count + 1) := by
  have change : (noted i).change = .addNote longText 0 := rfl
  have now : (noted i).env.orNow 0 = 1700000000 := rfl
  have few : ¬(noteful i count).notes.length ≥ historyMaxNotesPerEntry := by simpa [noteful] using room
  simp only [Call.edit, change, now, if_neg few]
  simp [noteful, List.replicate_succ']

theorem effectNoteful (i : Nat) {count : Nat} (room : count < historyMaxNotesPerEntry) {entries : List CounterpartyHistoryEntry}
    (others : ∀ entry ∈ entries, entry.pair ≠ (noted i).pair) :
    (noted i).effect (entries ++ [noteful i count]) = entries ++ [noteful i (count + 1)] := by
  have own : (noteful i count).pair = (noted i).pair := rfl
  rw [Call.effect, if_pos (notedFits i), Keyed.touchPast others, Keyed.touch, if_pos own, editNoteful room]

theorem effectsNoteful (i count more : Nat) (room : count + more ≤ historyMaxNotesPerEntry)
    {entries : List CounterpartyHistoryEntry} (others : ∀ entry ∈ entries, entry.pair ≠ (noted i).pair) :
    effects (List.replicate more (noted i)) (entries ++ [noteful i count]) = entries ++ [noteful i (count + more)] := by
  induction more generalizing count with
  | zero => rfl
  | succ more ih =>
      have step := effectNoteful i (by omega : count < historyMaxNotesPerEntry) others
      have rest := ih (count + 1) (by omega)
      rw [List.replicate_succ, effects, List.foldl_cons, step]
      rw [effects] at rest
      rw [rest, Nat.add_right_comm, Nat.add_assoc]

theorem effectsNew {i : Nat} {entries : List CounterpartyHistoryEntry} (room : entries.length < historyMaxEntries)
    (others : ∀ entry ∈ entries, entry.pair ≠ (noted i).pair) :
    effects (List.replicate historyMaxNotesPerEntry (noted i)) entries = entries ++ [noteful i historyMaxNotesPerEntry] := by
  obtain ⟨left, free⟩ : ∃ left, historyMaxEntries - entries.length = left + 1 := ⟨historyMaxEntries - entries.length - 1, by omega⟩
  have start : (noted i).fresh = noteful i 0 := rfl
  have first : (noted i).effect (entries ++ []) = entries ++ [noteful i 1] := by
    rw [Call.effect, if_pos (notedFits i), Keyed.touchPast others, free, Keyed.touch, start, editNoteful (by decide)]
  have rest := effectsNoteful i 1 255 (by decide) others
  rw [List.append_nil] at first
  rw [historyMaxNotesPerEntry, List.replicate_succ, effects, List.foldl_cons, first]
  exact rest

theorem strangersApart {i j : Nat} (small : i < 256) (small' : j < 256) (same : stranger i = stranger j) : i = j := by
  have bytes := congrArg (fun v : CounterpartyFingerprint => v[0].toNat) same
  simp only [stranger, Vector.getElem_replicate, UInt8.toNat_ofNat'] at bytes
  omega

theorem swollenEntries {count : Nat} (few : count ≤ 256) :
    effects (swollen count) [] = (List.range count).map fun i => noteful i historyMaxNotesPerEntry := by
  induction count with
  | zero => rfl
  | succ count ih =>
      have before := ih (by omega)
      have others : ∀ entry ∈ (List.range count).map fun i => noteful i historyMaxNotesPerEntry, entry.pair ≠ (noted count).pair := by
        intro entry mem same
        obtain ⟨i, inside, rfl⟩ := List.mem_map.mp mem
        have earlier := List.mem_range.mp inside
        have alike := strangersApart (by omega) (by omega) (congrArg Prod.fst same)
        omega
      have room : ((List.range count).map fun i => noteful i historyMaxNotesPerEntry).length < historyMaxEntries := by
        simp only [List.length_map, List.length_range, historyMaxEntries]
        omega
      have split : swollen (count + 1) = swollen count ++ List.replicate historyMaxNotesPerEntry (noted count) := by
        simp [swollen, List.range_succ]
      rw [split, effectsAppend, before, effectsNew room others, List.range_succ, List.map_append, List.map_singleton]

theorem notefulSize (i count : Nat) : entrySize (noteful i count) = 67 + count * (10 + historyMaxNoteLength) := by
  simp [entrySize, noteful, noteSize, longTextLength, Call.fresh, noted]

theorem sizesAlike {f : Nat → CounterpartyHistoryEntry} {size : Nat} (each : ∀ i, entrySize (f i) = size) (count : Nat) :
    storedSize ((List.range count).map f) = 4 + count * size := by
  have alike : entrySize ∘ f = fun _ => size := funext each
  rw [storedSize, List.map_map, alike, List.map_const', List.sum_replicate_nat, List.length_range]

theorem swollenSize {count : Nat} (few : count ≤ 256) : storedSize (effects (swollen count) []) =
    4 + count * (67 + historyMaxNotesPerEntry * (10 + historyMaxNoteLength)) := by
  rw [swollenEntries few]
  exact sizesAlike (fun i => notefulSize i historyMaxNotesPerEntry) count

theorem unreadable : ¬Survives Aead.chacha20Poly1305
    (exec (object Aead.chacha20Poly1305) (create (Vector.replicate 32 1)) (swollen 64)) := by
  have fit : FitStore (effects (swollen 64) []) := fitStoreRun _ ⟨Nat.zero_le _, by simp⟩
  rw [survivesIff Aead.chacha20Poly1305Faithful (by rwa [runEntries]), runEntries, swollenSize (by decide)]
  decide

end Swollen

end LocalCounterpartyHistory
end TradeP2P
