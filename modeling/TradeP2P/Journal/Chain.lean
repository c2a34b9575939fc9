import TradeP2P.Journal.Journal

/-! The journal as the records behind it. Each record fits the journal the earlier ones make, and
replaying its frame adds exactly that record. -/
namespace TradeP2P
open Wire (Bytes)
open Checks

/- What the transition check lets through, whatever text it would throw. -/
def Moves (last : Option SessionState) (localState : UInt8) : Prop :=
  ∃ target, SessionState.ofByte localState = some target ∧
    match last with
    | none => target = .waitingForPeer
    | some origin => isValidTransition origin target = true

theorem checkTransitionOk {last : Option SessionState} {localState : UInt8} (invalid : String) :
    checkTransition last localState invalid = .ok () ↔ Moves last localState := by
  unfold checkTransition Moves
  cases last with
  | none =>
      cases SessionState.ofByte localState with
      | none => simp
      | some target => cases target <;> simp
  | some origin =>
      cases SessionState.ofByte localState with
      | none => simp
      | some target => simp [throwIf_ok]

namespace Journal
variable (crypto : Crypto) (keys : HistoryKeys)

def extend (journal : Journal) : Record → Journal
  | .entry e => journal.push e
  | .checkpoint c => journal.checkpointedAt c.index
  | .checkpointSuiteV1 c => journal.checkpointedAt c.index

structure FitsEntry (journal : Journal) (e : JournalEntry) : Prop where
  mediatorId : e.fields.mediatorId.length ≤ journalMaxMediatorIdLength
  index : e.index.toNat = journal.entries.length
  link : e.previousHash = journal.chainHead
  hash : crypto.sha256 (entryBytes e.index e.fields ++ e.previousHash.toList) = e.entryHash
  moves : Moves (journal.lastStateByTrade e.fields.tradeId) e.fields.localState
  room : journal.entries.length < vectorMaxSize

structure Refers (journal : Journal) (index : UInt64) (hash : JournalHash) : Prop where
  known : index.toNat < journal.entries.length
  hash : journal.hashAt index = some hash
  forward : journal.hasCheckpoint = true → journal.lastCheckpointIndex ≤ index

structure FitsCheckpoint (journal : Journal) (c : Checkpoint) : Prop extends Refers journal c.index c.hash where
  verified : crypto.ed25519.verify keys.ed25519 (checkpointSignedBytes c.index c.hash c.signedAt) c.signature = .ok true

structure FitsSuite (journal : Journal) (c : HeadPointer) : Prop extends Refers journal c.index c.hash where
  sized : c.WellSized
  verified : verifySuiteCheckpoint crypto keys c = .ok true

def Fits (journal : Journal) : Record → Prop
  | .entry e => FitsEntry crypto journal e
  | .checkpoint c => FitsCheckpoint crypto keys journal c
  | .checkpointSuiteV1 c => FitsSuite crypto keys journal c

def Fitting : Journal → List Record → Prop
  | _, [] => True
  | journal, r :: rest => Fits crypto keys journal r ∧ Fitting (journal.extend r) rest

def replayed (records : List Record) : Journal := records.foldl extend {}

variable {crypto keys} {journal : Journal} {r : Record} {records more : List Record}

theorem fittingAppend :
    Fitting crypto keys journal (records ++ more) ↔
      Fitting crypto keys journal records ∧ Fitting crypto keys (records.foldl extend journal) more := by
  induction records generalizing journal with
  | nil => simp [Fitting]
  | cons r rest ih => simp [Fitting, ih, and_assoc]

theorem fittingSnoc (fits : Fitting crypto keys {} records) (last : Fits crypto keys (replayed records) r) :
    Fitting crypto keys {} (records ++ [r]) :=
  fittingAppend.mpr ⟨fits, last, trivial⟩

theorem fittingPrefix (fits : Fitting crypto keys {} more) (front : records <+: more) :
    Fitting crypto keys {} records := by
  obtain ⟨rest, rfl⟩ := front
  exact (fittingAppend.mp fits).1

@[simp] theorem replayedSnoc : replayed (records ++ [r]) = (replayed records).extend r := by simp [replayed]

/-! Replay of one record. -/

theorem checkReferenceOk {index : UInt64} {hash : JournalHash} (refers : Refers journal index hash) :
    checkReference journal index hash = .ok () := by
  have known : ¬journal.entries.length ≤ index.toNat := by have := refers.known; omega
  have forward : ¬(journal.hasCheckpoint = true ∧ index < journal.lastCheckpointIndex) :=
    fun ⟨has, behind⟩ => UInt64.not_lt.mpr (refers.forward has) behind
  simp [checkReference, throwIf_not known, throwIf_not (not_not.mpr refers.hash), throwIf_not forward, bind, Except.bind]

theorem replayEntryBody {e : JournalEntry} (fits : FitsEntry crypto journal e) :
    replayEntry crypto journal e.body = .ok (journal.push e) := by
  have room : ¬vectorMaxSize ≤ journal.entries.length := by have := fits.room; omega
  simp [replayEntry, readEntryBody fits.mediatorId, throwIf_not (not_not.mpr fits.index),
    throwIf_not (not_not.mpr fits.link), throwIf_not (not_not.mpr fits.hash), (checkTransitionOk _).mpr fits.moves,
    throwIf_not room, bind, Except.bind, pure, Except.pure]

theorem replayCheckpointBody {c : Checkpoint} (fits : FitsCheckpoint crypto keys journal c) :
    replayCheckpoint crypto keys journal c.body = .ok (journal.checkpointedAt c.index) := by
  simp [replayCheckpoint, (readsCheckpoint c).exhausts.readAll, checkReferenceOk fits.toRefers, fits.verified, standard,
    Except.mapError, throwIf, bind, Except.bind, pure, Except.pure]

theorem replaySuiteBody {c : HeadPointer} (fits : FitsSuite crypto keys journal c) :
    replayCheckpointSuite crypto keys journal c.body = .ok (journal.checkpointedAt c.index) := by
  have read := exhaustsSuiteCheckpoint fits.sized
    (.format "journal checkpoint signature length does not match its suite id")
  simp only [Wire.Exhausts] at read
  simp [replayCheckpointSuite, read, checkReferenceOk fits.toRefers, fits.verified, throwIf, bind, Except.bind, pure,
    Except.pure]

theorem replayFrame (fits : Fits crypto keys journal r) :
    replayRecord crypto keys journal r.frame = .ok (journal.extend r) := by
  cases r with
  | entry e => exact replayEntryBody fits
  | checkpoint c => exact replayCheckpointBody fits
  | checkpointSuiteV1 c => exact replaySuiteBody fits

theorem replayFrames (fits : Fitting crypto keys journal records) :
    records.foldlM (fun j r => replayRecord crypto keys j r.frame) journal = .ok (records.foldl extend journal) := by
  induction records generalizing journal with
  | nil => rfl
  | cons r rest ih =>
      obtain ⟨here, later⟩ := fits
      simp only [List.foldlM_cons, replayFrame here, List.foldl_cons, bind, Except.bind]
      exact ih later

theorem smallBody (fits : Fits crypto keys journal r) : r.frame.body.length ≤ maxRecordBodyLength := by
  cases r with
  | entry e =>
      have short := FitsEntry.mediatorId fits
      simp only [Record.frame, JournalEntry.body, List.length_append, lengthEntryBytes, Vector.length_toList,
        maxRecordBodyLength, journalMaxMediatorIdLength] at short ⊢
      omega
  | checkpoint c =>
      simp [Record.frame, Checkpoint.body, maxRecordBodyLength]
  | checkpointSuiteV1 c =>
      have sized := (FitsSuite.sized fits).2
      have longest : expectedCheckpointSignatureLength c.suiteId ≤ 3309 := by
        unfold expectedCheckpointSignatureLength
        split_ifs <;> omega
      simp only [Record.frame, HeadPointer.body, List.length_append, Wire.bigEndianLength, Vector.length_toList,
        maxRecordBodyLength]
      omega

theorem smallBodies (fits : Fitting crypto keys journal records) :
    ∀ r ∈ records, r.frame.body.length ≤ maxRecordBodyLength := by
  induction records generalizing journal with
  | nil => simp
  | cons r rest ih =>
      obtain ⟨here, later⟩ := fits
      intro s mem
      rcases List.mem_cons.mp mem with rfl | behind
      · exact smallBody here
      · exact ih later s behind

/-! What holds of every replayed journal. -/

structure Coherent (journal : Journal) : Prop where
  indices : ∀ (i : Nat) (e : JournalEntry), journal.entries[i]? = some e → e.index.toNat = i
  head : journal.chainHead = (journal.entries.getLast?.map JournalEntry.entryHash).getD genesisHash
  checkpoint : journal.hasCheckpoint = true → journal.lastCheckpointIndex.toNat < journal.entries.length

theorem coherentEmpty : Coherent {} := ⟨by simp, rfl, by simp⟩

theorem Coherent.push {e : JournalEntry} (coherent : Coherent journal) (fits : FitsEntry crypto journal e) :
    Coherent (journal.push e) := by
  refine ⟨?indices, by simp [Journal.push], ?recent⟩
  case indices =>
    intro i f found
    simp only [Journal.push] at found
    rcases Nat.lt_trichotomy i journal.entries.length with before | here | behind
    · rw [List.getElem?_append_left before] at found
      exact coherent.indices i f found
    · subst here
      simp only [List.getElem?_concat_length, Option.some.injEq] at found
      rw [← found]
      exact fits.index
    · rw [List.getElem?_eq_none (by simp; omega)] at found
      contradiction
  case recent =>
    intro has
    have within := coherent.checkpoint has
    simp only [Journal.push, List.length_append, List.length_singleton]
    omega

theorem Coherent.extend (coherent : Coherent journal) (fits : Fits crypto keys journal r) :
    Coherent (journal.extend r) := by
  cases r with
  | entry e => exact coherent.push fits
  | checkpoint c => exact ⟨coherent.indices, coherent.head, fun _ => (FitsCheckpoint.toRefers fits).known⟩
  | checkpointSuiteV1 c => exact ⟨coherent.indices, coherent.head, fun _ => (FitsSuite.toRefers fits).known⟩

theorem coherentRun (start : Coherent journal) (fits : Fitting crypto keys journal records) :
    Coherent (records.foldl Journal.extend journal) := by
  induction records generalizing journal with
  | nil => exact start
  | cons r rest ih => exact ih (start.extend fits.1) fits.2

theorem coherentReplayed (fits : Fitting crypto keys {} records) : Coherent (replayed records) :=
  coherentRun coherentEmpty fits

end Journal
end TradeP2P
