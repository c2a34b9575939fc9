import TradeP2P.Journal.Replay

/-! What opening accepts: the bytes of records that fit one after the other, with a torn record behind
them at most, and a head pointer that agrees. -/
namespace TradeP2P
open Wire (Bytes bigEndian)
open Checks Machine

namespace JournalReader
variable {input rest : Bytes}

theorem stringU16Ok {maxLength : Nat} {text : Bytes} : stringU16 maxLength input = .ok (text, rest) ↔
    text.length ≤ maxLength ∧ text.length < 2 ^ 16 ∧ input = bigEndian 2 text.length ++ (text ++ rest) := by
  simp only [stringU16, Wire.bindRead, Wire.u16Read, Wire.checkRead, Wire.takeRead, throwIf_ok, Nat.not_lt]
  constructor
  · rintro ⟨length, _, rfl, _, _, ⟨small, rfl⟩, same, rfl⟩
    have bound := length.toNat_lt
    rw [same]
    exact ⟨small, bound, rfl⟩
  · rintro ⟨small, short, rfl⟩
    have same : (UInt16.ofNat text.length).toNat = text.length := UInt16.toNat_ofNat_of_lt' short
    exact ⟨_, _, by rw [same], (), _, ⟨by rwa [same], rfl⟩, same.symm, rfl⟩

theorem signatureRemainingOk {expected : Nat} {e : JournalError} {signature : Bytes} :
    signatureRemaining expected e input = .ok (signature, rest) ↔
      expected ≠ 0 ∧ signature.length = expected ∧ input = signature ∧ rest = [] := by
  simp only [signatureRemaining]
  split
  · next bad => 
      refine iff_of_false (by simp) ?_
      rintro ⟨some, length, rfl, _⟩
      exact bad.elim some (fun other => other length)
  · next good =>
      rw [not_or, not_not] at good
      rw [Except.ok.injEq, Prod.mk.injEq]
      constructor
      · rintro ⟨rfl, rfl⟩
        exact ⟨good.1, good.2, rfl, rfl⟩
      · rintro ⟨_, _, rfl, rfl⟩
        exact ⟨rfl, rfl⟩

end JournalReader
open JournalReader

/-! Bodies of records. -/
section Bodies
variable {input rest : Bytes}

theorem decodeEntryFieldsOk {fields : JournalEntryFields} (ok : decodeEntryFields input = .ok (fields, rest)) :
    fields.mediatorId.length ≤ journalMaxMediatorIdLength ∧ input = fieldBytes fields ++ rest := by
  simp only [decodeEntryFields, Wire.bindRead, Wire.pureRead, Wire.u8Read, Wire.u16Read, Wire.u32Read, Wire.u64Read,
    Wire.fixedRead, stringU16Ok] at ok
  obtain ⟨_, _, rfl, _, _, rfl, _, _, rfl, _, _, ⟨short, _, rfl⟩, _, _, rfl, _, _, rfl, _, _, rfl, _, _, rfl, _, _, rfl,
    _, _, rfl, _, _, rfl, _, _, rfl, _, _, rfl, rfl, rfl⟩ := ok
  refine ⟨short, ?_⟩
  simp [fieldBytes, bigEndian]

theorem readEntryOk {body : Bytes} {e : JournalEntry} {content : Bytes} (ok : readEntry body = .ok (e, content)) :
    e.fields.mediatorId.length ≤ journalMaxMediatorIdLength ∧ body = e.body ∧ content = entryBytes e.index e.fields := by
  simp only [readEntry, bind_ok, Wire.readAllOk] at ok
  obtain ⟨⟨⟨index, entered⟩, rest⟩, content, ⟨previousHash, entryHash⟩, links, ok⟩ := ok
  obtain ⟨rfl, rfl⟩ := Prod.mk.inj (pure_ok.mp ok)
  simp only [readEntryContent, Wire.bindRead, Wire.pureRead, Wire.u64Read] at content
  obtain ⟨_, _, rfl, fields, _, decoded, ⟨⟩, rfl⟩ := content
  simp only [readLinks, Wire.bindRead, Wire.pureRead, Wire.fixedRead] at links
  obtain ⟨_, _, rfl, _, _, rfl, ⟨⟩, rfl⟩ := links
  obtain ⟨short, rfl⟩ := decodeEntryFieldsOk decoded
  refine ⟨short, ?_, ?_⟩
  · simp [JournalEntry.body, entryBytes]
  · have split : bigEndian 8 index.toNat ++ (fieldBytes entered ++ (previousHash.toList ++ (entryHash.toList ++ []))) =
        entryBytes index entered ++ (previousHash.toList ++ (entryHash.toList ++ [])) := by simp [entryBytes]
    rw [split, List.length_append, Nat.add_sub_cancel, List.take_left]

theorem decodeCheckpointOk {c : Checkpoint} (ok : decodeCheckpoint input = .ok (c, rest)) : input = c.body ++ rest := by
  simp only [decodeCheckpoint, Wire.bindRead, Wire.pureRead, Wire.u64Read, Wire.fixedRead] at ok
  obtain ⟨_, _, rfl, _, _, rfl, _, _, rfl, _, _, rfl, rfl, rfl⟩ := ok
  simp [Checkpoint.body]

theorem decodeSuiteCheckpointOk {mismatch : JournalError} {c : HeadPointer}
    (ok : decodeSuiteCheckpoint mismatch input = .ok (c, rest)) : c.WellSized ∧ input = c.body := by
  simp only [decodeSuiteCheckpoint, Wire.bindRead, Wire.pureRead, Wire.u16Read, Wire.u64Read, Wire.fixedRead,
    signatureRemainingOk] at ok
  obtain ⟨_, _, rfl, _, _, rfl, _, _, rfl, _, _, rfl, _, _, ⟨known, length, rfl, rfl⟩, rfl, rfl⟩ := ok
  exact ⟨⟨known, length⟩, rfl⟩

end Bodies

namespace Journal
variable {crypto : Crypto} {keys : HistoryKeys} {journal after : Journal}

/-! Replay of one record: what it accepts is the frame of a record that fits. -/

theorem replayEntryOk {body : Bytes} (ok : replayEntry crypto journal body = .ok after) :
    ∃ e, FitsEntry crypto journal e ∧ body = e.body ∧ after = journal.push e := by
  unfold replayEntry at ok
  obtain ⟨⟨e, content⟩, read, ok⟩ := bind_ok.mp ok
  simp only [check_ok, throwIf_ok, not_not, Nat.not_le, pure_ok] at ok
  obtain ⟨index, link, hash, moves, room, rfl⟩ := ok
  obtain ⟨short, rfl, rfl⟩ := readEntryOk read
  exact ⟨e, ⟨short, index, link, hash, (checkTransitionOk _).mp moves, room⟩, rfl, rfl⟩

theorem checkReferenceRefers {index : UInt64} {hash : JournalHash} {u : Unit}
    (ok : checkReference journal index hash = .ok u) : Refers journal index hash := by
  simp only [checkReference, check_ok, throwIf_ok, not_not, Nat.not_le, not_and, UInt64.not_lt] at ok
  exact ⟨ok.1, ok.2.1, ok.2.2⟩

theorem replayCheckpointOk {body : Bytes} (ok : replayCheckpoint crypto keys journal body = .ok after) :
    ∃ c, FitsCheckpoint crypto keys journal c ∧ body = c.body ∧ after = journal.checkpointedAt c.index := by
  simp only [replayCheckpoint, bind_ok, Wire.readAllOk, standardOk, throwIf_ok, pure_ok, not_not] at ok
  obtain ⟨c, read, _, refers, verified, verifies, _, rfl, rfl⟩ := ok
  have whole := decodeCheckpointOk read
  rw [List.append_nil] at whole
  exact ⟨c, ⟨checkReferenceRefers refers, verifies⟩, whole, rfl⟩

theorem replaySuiteOk {body : Bytes} (ok : replayCheckpointSuite crypto keys journal body = .ok after) :
    ∃ c, FitsSuite crypto keys journal c ∧ body = c.body ∧ after = journal.checkpointedAt c.index := by
  simp only [replayCheckpointSuite, bind_ok] at ok
  obtain ⟨⟨c, rest⟩, read, ok⟩ := ok
  simp only [throwIf_ok, pure_ok, not_not] at ok
  obtain ⟨_, refers, verified, verifies, _, rfl, rfl⟩ := ok
  obtain ⟨sized, whole⟩ := decodeSuiteCheckpointOk read
  exact ⟨c, ⟨checkReferenceRefers refers, sized, verifies⟩, whole, rfl⟩

theorem replayRecordOk {f : Framing.Frame} (ok : replayRecord crypto keys journal f = .ok after) :
    ∃ r, Fits crypto keys journal r ∧ r.frame = f ∧ journal.extend r = after := by
  obtain ⟨kind, body⟩ := f
  simp only [replayRecord] at ok
  split at ok
  · next entry =>
      obtain ⟨e, fits, rfl, rfl⟩ := replayEntryOk ok
      exact ⟨.entry e, fits, by rw [entry]; rfl, rfl⟩
  · split at ok
    · next checkpoint =>
        obtain ⟨c, fits, rfl, rfl⟩ := replayCheckpointOk ok
        exact ⟨.checkpoint c, fits, by rw [checkpoint]; rfl, rfl⟩
    · split at ok
      · next suite =>
          obtain ⟨c, fits, rfl, rfl⟩ := replaySuiteOk ok
          exact ⟨.checkpointSuiteV1 c, fits, by rw [suite]; rfl, rfl⟩
      · contradiction

theorem replayFramesOk {frames : List Framing.Frame}
    (ok : frames.foldlM (replayRecord crypto keys) journal = .ok after) :
    ∃ records, records.map Record.frame = frames ∧ Fitting crypto keys journal records ∧
      records.foldl extend journal = after := by
  induction frames generalizing journal with
  | nil => exact ⟨[], rfl, trivial, pure_ok.mp ok⟩
  | cons f rest ih =>
      rw [List.foldlM_cons, bind_ok] at ok
      obtain ⟨next, here, later⟩ := ok
      obtain ⟨r, fits, rfl, rfl⟩ := replayRecordOk here
      obtain ⟨records, rfl, fitting, rfl⟩ := ih later
      exact ⟨r :: records, rfl, ⟨fits, fitting⟩, rfl⟩

/-! The head pointer and the whole files. -/

theorem checkHeadOk (coherent : Coherent journal) {bytes : Bytes} {u : Unit}
    (ok : checkHead crypto keys journal bytes = .ok u) : HeadAgrees crypto keys journal (some bytes) := by
  simp only [checkHead, bind_ok, throwIf_ok, not_not, not_or, not_and, gt_iff_lt, UInt64.not_lt] at ok
  obtain ⟨head, decoded, _, verified, _, rfl, _, ⟨has, reached⟩, same⟩ := ok
  have last := coherent.checkpoint has
  rw [UInt64.le_iff_toNat_le] at reached
  exact ⟨head, ⟨decoded, verified⟩, same (by omega), has, UInt64.le_iff_toNat_le.mpr reached⟩

theorem openOk {disk left : Disk} (ok : Journal.open crypto keys disk = .ok journal left) :
    ∃ records torn, disk.log = Framing.logBytes Record.frame records ++ torn ∧
      Kept crypto keys ⟨journal, left⟩ records ∧ left.head = disk.head := by
  have opened := ok
  simp only [Journal.open, bind_returns, get_returns, lift_returns] at ok
  obtain ⟨_, _, ⟨rfl, rfl⟩, ⟨replayed, torn⟩, _, ⟨scanned, rfl⟩, _⟩ := ok
  rw [openScanned _ scanned] at opened
  cases checked : headOutcome crypto keys replayed disk.head with
  | error e => simp [checked] at opened
  | ok u =>
      simp only [checked, EStateM.Result.ok.injEq] at opened
      obtain ⟨rfl, rfl⟩ := opened
      obtain ⟨frames, whole, run⟩ := Framing.scanOk scanned
      obtain ⟨records, rfl, fits, rfl⟩ := replayFramesOk run
      have bytes : Framing.logBytes id (records.map Record.frame) = Framing.logBytes Record.frame records := by
        simp [Framing.logBytes, List.flatMap_map]
      rw [bytes] at whole
      refine ⟨records, torn, whole, ⟨fits, rfl, ?log, ?head⟩, rfl⟩
      case log => simp [whole]
      case head =>
        cases found : disk.head with
        | none => trivial
        | some head =>
            rw [found] at checked
            exact checkHeadOk (coherentReplayed fits) checked

/- A log that does not open may lose a torn record; the head pointer stays as it was. -/
theorem openFails {disk left : Disk} {e : JournalError} (failed : Journal.open crypto keys disk = .error e left) :
    left.head = disk.head := by
  cases scanned : Framing.scan maxRecordBodyLength oversize (replayRecord crypto keys) {} disk.log with
  | error e' =>
      simp only [Journal.open, bind_run, get_run, lift_run, scanned, EStateM.Result.error.injEq] at failed
      rw [failed.2]
  | ok read =>
      obtain ⟨replayed, torn⟩ := read
      rw [openScanned _ scanned] at failed
      cases checked : headOutcome crypto keys replayed disk.head with
      | error e' =>
          simp only [checked, EStateM.Result.error.injEq] at failed
          rw [← failed.2]
      | ok u => simp [checked] at failed

end Journal
end TradeP2P
