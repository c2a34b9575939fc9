import TradeP2P.Journal.Replay

/-! A log cut short by a crash. The records inside the cut come back and the rest is dropped, unless
the head pointer names a checkpoint that was cut off. -/
namespace TradeP2P
open Wire (Bytes)
open Checks Machine

def Record.entry? : Record → Option JournalEntry
  | .entry e => some e
  | _ => none

def Record.checkpointIndex? : Record → Option UInt64
  | .entry _ => none
  | .checkpoint c => some c.index
  | .checkpointSuiteV1 c => some c.index

namespace Journal
variable {crypto : Crypto} {keys : HistoryKeys} {journal : Journal} {s t : Store} {records : List Record}

/- The records still contain a checkpoint at or behind the entry the head pointer names. -/
def ReachesHead (head : Option Bytes) (records : List Record) : Prop :=
  match head with
  | none => True
  | some bytes => ∃ head, decodeHead bytes = .ok head ∧
      ∃ r ∈ records, ∃ index, r.checkpointIndex? = some index ∧ head.index ≤ index

theorem replayedEntries (records : List Record) : (replayed records).entries = records.filterMap Record.entry? := by
  induction records using List.reverseRecOn with
  | nil => rfl
  | append_singleton rest r ih =>
      rw [replayedSnoc, List.filterMap_append, ← ih]
      cases r <;> simp [extend, push, checkpointedAt, Record.entry?]

theorem hashAtExtend {index : UInt64} {hash : JournalHash} (found : journal.hashAt index = some hash) (r : Record) :
    (journal.extend r).hashAt index = some hash := by
  cases r with
  | entry e => exact hashAtPush found
  | checkpoint c => exact found
  | checkpointSuiteV1 c => exact found

theorem hashAtRun {index : UInt64} {hash : JournalHash} (found : journal.hashAt index = some hash)
    (records : List Record) : (records.foldl extend journal).hashAt index = some hash := by
  induction records generalizing journal with
  | nil => exact found
  | cons r rest ih => exact ih (hashAtExtend found r)

theorem hashAtMore {index : UInt64} {hash : JournalHash} {inside : List Record}
    (found : (replayed inside).hashAt index = some hash) (rest : List Record) :
    (replayed (inside ++ rest)).hashAt index = some hash := by
  simp only [replayed, List.foldl_append]
  exact hashAtRun found rest

theorem reachedCheckpoint {index : UInt64} {head : HeadPointer} :
    HeadReached (journal.checkpointedAt index) head ↔ head.index ≤ index :=
  ⟨fun reached => reached.reached, fun reached => ⟨rfl, reached⟩⟩

theorem reachedAgain {index : UInt64} {hash : JournalHash} {head : HeadPointer} (refers : Refers journal index hash)
    (reached : HeadReached journal head) : head.index ≤ index :=
  UInt64.le_trans reached.reached (refers.forward reached.checkpointed)

/- The last checkpoint of a replayed journal is the furthest of all its checkpoints. -/
theorem reachedIff {head : HeadPointer} (fits : Fitting crypto keys {} records) :
    HeadReached (replayed records) head ↔
      ∃ r ∈ records, ∃ index, r.checkpointIndex? = some index ∧ head.index ≤ index := by
  induction records using List.reverseRecOn with
  | nil =>
      refine ⟨fun reached => ?_, by simp⟩
      have checkpointed := reached.checkpointed
      contradiction
  | append_singleton rest r ih =>
      obtain ⟨before, last, _⟩ := fittingAppend.mp fits
      have earlier := ih before
      simp only [replayedSnoc, List.mem_append, List.mem_singleton, or_and_right, exists_or, ← earlier, exists_eq_left]
      cases r with
      | entry e => simpa [Record.checkpointIndex?] using ⟨fun h => ⟨h.1, h.2⟩, fun h => ⟨h.1, h.2⟩⟩
      | checkpoint c =>
          rw [extend, reachedCheckpoint]
          simp only [Record.checkpointIndex?, Option.some.injEq, exists_eq_left']
          exact ⟨.inr, fun either => either.elim (reachedAgain (FitsCheckpoint.toRefers last)) id⟩
      | checkpointSuiteV1 c =>
          rw [extend, reachedCheckpoint]
          simp only [Record.checkpointIndex?, Option.some.injEq, exists_eq_left']
          exact ⟨.inr, fun either => either.elim (reachedAgain (FitsSuite.toRefers last)) id⟩

/-! The head pointer of a run, compared with the records a cut leaves. -/

theorem insideAgrees {inside : List Record} {head : Option Bytes} (fits : Fitting crypto keys {} records)
    (agrees : HeadAgrees crypto keys (replayed records) head) (front : inside <+: records)
    (reaches : ReachesHead head inside) : HeadAgrees crypto keys (replayed inside) head := by
  cases head with
  | none => trivial
  | some bytes =>
      obtain ⟨pointer, genuine, hash, _⟩ := agrees
      obtain ⟨decoded, read, checkpoint⟩ := reaches
      obtain rfl : decoded = pointer := Except.ok.inj (read.symm.trans genuine.decoded)
      have within := fittingPrefix fits front
      have reached := (reachedIff within).mpr checkpoint
      have recent := (coherentReplayed within).checkpoint reached.checkpointed
      have known : decoded.index.toNat < (replayed inside).entries.length :=
        Nat.lt_of_le_of_lt (UInt64.le_iff_toNat_le.mp reached.reached) recent
      obtain ⟨rest, rfl⟩ := front
      have found : (replayed inside).hashAt decoded.index = some ((replayed inside).entries[decoded.index.toNat]).entryHash := by
        simp [hashAt, known]
      have later := hashAtMore found rest
      exact ⟨decoded, genuine, found.trans (later.symm.trans hash), reached⟩

theorem insideBehind {inside : List Record} {head : Option Bytes} (fits : Fitting crypto keys {} inside)
    (agrees : HeadAgrees crypto keys (replayed records) head) (behind : ¬ReachesHead head inside) :
    headOutcome crypto keys (replayed inside) head = .error behindHead := by
  cases head with
  | none => exact absurd trivial behind
  | some bytes =>
      obtain ⟨pointer, genuine, _⟩ := agrees
      refine checkHeadBehind genuine (fun reached => behind ?_)
      exact ⟨pointer, genuine.decoded, (reachedIff fits).mp reached⟩

/- A journal recovered from a cut is one that a run could have written. -/
theorem keptInside (kept : Kept crypto keys s records) {inside : List Record} (front : inside <+: records)
    (reaches : ReachesHead s.disk.head inside) :
    Kept crypto keys ⟨replayed inside, ⟨Framing.logBytes Record.frame inside, s.disk.head⟩⟩ inside where
  fits := fittingPrefix kept.fits front
  journal := rfl
  log := rfl
  head := insideAgrees kept.fits (kept.journal ▸ kept.head) front reaches

/- However many bytes of a run's log survive, the records wholly inside them come back, no other, and
the file is cut to them; only where no checkpoint reaching the head pointer is left does opening
fail, as a rollback. What is written after the recovery replays again. -/
theorem tornTailRecovered (correct : crypto.Correct) {disk : Disk}
    (created : Journal.open crypto keys {} = .ok journal disk) {calls : List (JournalEnv × Call)}
    (own : ∀ call ∈ calls, call.2.SignsFor crypto keys)
    (ran : completes (perform crypto) ⟨journal, disk⟩ calls = some s) :
    ∃ records : List Record, records.length = calls.length ∧
      s.disk.log = Framing.logBytes Record.frame records ∧ s.journal = replayed records ∧
      ∀ n : Nat,
        let inside := Framing.within (fun r => r.bytes.length) records n
        let cut : Disk := { s.disk with log := s.disk.log.take n }
        let recovered : Store := ⟨replayed inside, { s.disk with log := Framing.logBytes Record.frame inside }⟩
        (ReachesHead s.disk.head inside →
          Journal.open crypto keys cut = .ok recovered.journal recovered.disk ∧
          recovered.journal.entries = inside.filterMap Record.entry? ∧
          ∀ (more : List (JournalEnv × Call)) (t : Store), (∀ call ∈ more, call.2.SignsFor crypto keys) →
            completes (perform crypto) recovered more = some t →
            Journal.open crypto keys t.disk = .ok t.journal t.disk) ∧
        (¬ReachesHead s.disk.head inside →
          Journal.open crypto keys cut = .error behindHead recovered.disk) := by
  rw [openEmpty] at created
  cases created
  obtain ⟨records, size, kept⟩ := keptEmpty.run correct own ran
  simp only [List.nil_append] at kept
  refine ⟨records, size, kept.log, kept.journal, ?_⟩
  intro n inside cut recovered
  have front : inside <+: records := Framing.withinPrefix _ records n
  have opened := openCut kept.fits s.disk.head n
  rw [← kept.log] at opened
  constructor
  case left =>
    intro reaches
    have keptThere := keptInside kept front reaches
    refine ⟨?_, replayedEntries inside, ?_⟩
    · have checked : headOutcome crypto keys (replayed inside) s.disk.head = .ok () :=
        headAgreesChecked keptThere.head
      rw [checked] at opened
      exact opened
    · intro more t ownMore ranMore
      obtain ⟨_, _, later⟩ := keptThere.run correct ownMore ranMore
      exact openWhole later
  case right =>
    intro behind
    rw [insideBehind (fittingPrefix kept.fits front) (kept.journal ▸ kept.head) behind] at opened
    exact opened

theorem firstRecovered :
    ∃ records : List Record, records.length = firstCalls.length ∧
      firstStore.disk.log = Framing.logBytes Record.frame records ∧ firstStore.journal = replayed records ∧
      ∀ n : Nat,
        let inside := Framing.within (fun r => r.bytes.length) records n
        let cut : Disk := { firstStore.disk with log := firstStore.disk.log.take n }
        let recovered : Store :=
          ⟨replayed inside, { firstStore.disk with log := Framing.logBytes Record.frame inside }⟩
        (ReachesHead firstStore.disk.head inside →
          Journal.open firstCrypto firstKeys cut = .ok recovered.journal recovered.disk ∧
          recovered.journal.entries = inside.filterMap Record.entry? ∧
          ∀ (more : List (JournalEnv × Call)) (t : Store),
            (∀ call ∈ more, call.2.SignsFor firstCrypto firstKeys) →
            completes (perform firstCrypto) recovered more = some t →
            Journal.open firstCrypto firstKeys t.disk = .ok t.journal t.disk) ∧
        (¬ReachesHead firstStore.disk.head inside →
          Journal.open firstCrypto firstKeys cut = .error behindHead recovered.disk) :=
  tornTailRecovered firstCryptoCorrect openEmpty firstCallsOwn firstCallsComplete

end Journal
end TradeP2P
