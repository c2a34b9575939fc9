import TradeP2P.Journal.Chain

/-! Every call that returns adds one record that fits the journal, so opening the files reproduces
the journal that wrote them. -/
namespace TradeP2P
open Wire (Bytes)
open Checks Machine

theorem standardOk {α : Type} {x : Except Error α} {a : α} : standard x = .ok a ↔ x = .ok a := by
  cases x <;> simp [standard, Except.mapError]

theorem fixedFromToList {n : Nat} (v : Vector UInt8 n) : fixedFrom v.toList = v := by
  ext i h
  simp [fixedFrom]

namespace Journal
variable {crypto : Crypto} {keys : HistoryKeys} {journal : Journal} {s t : Store} {records : List Record}

/- The seed a call signs with belongs to the key the journal is opened with. -/
def Call.SignsFor (crypto : Crypto) (keys : HistoryKeys) : Call → Prop
  | .append _ => True
  | .checkpoint seed => crypto.ed25519.publicKey seed = keys.ed25519
  | .checkpointMldsa65 seed => some (crypto.mldsa65.publicKey seed) = keys.mldsa65

/-! One call. -/

theorem writeReturns {fault : Option Nat} {bytes : Bytes} {u : Unit} (ok : writeAllAndSync fault bytes s = .ok u t) :
    t = { s with disk := { s.disk with log := s.disk.log ++ bytes } } := by
  simp only [writeAllAndSync, bind_returns, get_returns, set_returns, lift_returns, throwIf_ok] at ok
  obtain ⟨_, _, ⟨rfl, rfl⟩, _, _, rfl, whole, rfl⟩ := ok
  have all : bytes.length ≤ fault.getD bytes.length := by
    simp only [List.length_take] at whole
    omega
  rw [List.take_of_length_le all]

theorem replaceReturns {fault : Option Error} {bytes : Bytes} {u : Unit} (ok : writeReplaceAtomic fault bytes s = .ok u t) :
    t = { s with disk := { s.disk with head := some bytes } } := by
  cases fault with
  | some e => simp [writeReplaceAtomic, throw_run] at ok
  | none =>
      simp only [writeReplaceAtomic, modify_returns] at ok
      exact ok.symm

theorem appendReturns {env : JournalEnv} {given : JournalEntryFields} {e : JournalEntry}
    (ok : append crypto env given s = .ok e t) :
    FitsEntry crypto s.journal e ∧
      t = ⟨s.journal.push e, { s.disk with log := s.disk.log ++ (Record.entry e).bytes }⟩ := by
  simp only [append, canonicalEntryBytes, bind_returns, get_returns, lift_returns, modify_returns, pure_returns,
    check_ok, throwIf_ok, pure_ok] at ok
  obtain ⟨_, _, ⟨rfl, rfl⟩, _, _, ⟨moves, rfl⟩, _, _, ⟨⟨short, rfl⟩, rfl⟩, _, _, write, _, _, ⟨room, rfl⟩, _, _, rfl,
    rfl, rfl⟩ := ok
  have stored := writeReturns write
  refine ⟨⟨by simpa using short, ?_, rfl, rfl, (checkTransitionOk _).mp moves, by simpa using room⟩, ?_⟩
  · simp only [UInt64.toNat_ofNat', vectorMaxSize] at room ⊢
    omega
  · rw [stored]
    rfl

theorem refersLast (coherent : Coherent journal) {e : JournalEntry} (last : journal.entries.getLast? = some e) :
    Refers journal e.index journal.chainHead := by
  have found := last
  rw [List.getLast?_eq_getElem?] at found
  have index := coherent.indices _ e found
  have known := (List.getElem?_eq_some_iff.mp found).1
  refine ⟨by omega, ?_, fun has => ?_⟩
  · rw [hashAt, index, found, coherent.head, last]
    rfl
  · have recent := coherent.checkpoint has
    rw [UInt64.le_iff_toNat_le]
    omega

/- What a checkpoint that returned has signed and written. -/
theorem checkpointWrites {env : JournalEnv} {seed : Ed25519PrivateSeed} {u : Unit} (coherent : Coherent s.journal)
    (ok : checkpoint crypto env seed s = .ok u t) :
    ∃ c : Checkpoint, Refers s.journal c.index c.hash ∧
      crypto.ed25519.sign seed env.entropy (checkpointSignedBytes c.index c.hash c.signedAt) = .ok c.signature ∧
      t = ⟨s.journal.checkpointedAt c.index, ⟨s.disk.log ++ (Record.checkpoint c).bytes, some (encodeHead
        { index := c.index, hash := c.hash, signedAt := c.signedAt, signature := c.signature.toList })⟩⟩ := by
  simp only [checkpoint, bind_returns, get_returns] at ok
  obtain ⟨_, _, ⟨rfl, rfl⟩, ok⟩ := ok
  cases last : s.journal.entries.getLast? with
  | none => simp [last, throw_run] at ok
  | some e =>
      simp only [last, bind_returns, lift_returns, modify_returns, standardOk] at ok
      obtain ⟨signature, _, ⟨signed, rfl⟩, _, _, write, _, _, replace, rfl⟩ := ok
      have stored := writeReturns write
      have replaced := replaceReturns replace
      refine ⟨⟨e.index, s.journal.chainHead, env.now, signature⟩, refersLast coherent last, signed, ?_⟩
      rw [replaced, stored]
      rfl

theorem checkpointReturns (correct : crypto.ed25519.Correct) {env : JournalEnv} {seed : Ed25519PrivateSeed} {u : Unit}
    (own : crypto.ed25519.publicKey seed = keys.ed25519) (coherent : Coherent s.journal)
    (ok : checkpoint crypto env seed s = .ok u t) :
    ∃ c, FitsCheckpoint crypto keys s.journal c ∧
      t = ⟨s.journal.checkpointedAt c.index, ⟨s.disk.log ++ (Record.checkpoint c).bytes, some (encodeHead
        { index := c.index, hash := c.hash, signedAt := c.signedAt, signature := c.signature.toList })⟩⟩ := by
  obtain ⟨c, refers, signed, stored⟩ := checkpointWrites coherent ok
  have verified := correct _ _ _ _ signed
  rw [own] at verified
  exact ⟨c, ⟨refers, verified⟩, stored⟩

theorem verifyMldsa65Ok {c : HeadPointer} {key : MlDsa65PublicKey} {signature : MlDsa65Signature} {noKey : String}
    (own : some key = keys.mldsa65) (bytes : c.signature = signature.toList)
    (verified : crypto.mldsa65.verify key (checkpointSuiteSignedBytes c.suiteId c.index c.hash c.signedAt) signature =
      .ok true) : verifyMldsa65 crypto keys noKey c = .ok true := by
  simp only [verifyMldsa65, ← own, bytes, fixedFromToList]
  exact standardOk.mpr verified

theorem checkpointMldsa65Writes {env : JournalEnv} {seed : MlDsa65PrivateSeed} {u : Unit} (coherent : Coherent s.journal)
    (ok : checkpointMldsa65 crypto env seed s = .ok u t) :
    ∃ c signature, Refers s.journal c.index c.hash ∧ c.suiteId = checkpointSuiteMlDsa65V1 ∧
      c.signature = Vector.toList signature ∧ crypto.mldsa65.sign seed env.entropy
        (checkpointSuiteSignedBytes c.suiteId c.index c.hash c.signedAt) = .ok signature ∧
      t = ⟨s.journal.checkpointedAt c.index, ⟨s.disk.log ++ (Record.checkpointSuiteV1 c).bytes, some (encodeHead c)⟩⟩ := by
  simp only [checkpointMldsa65, bind_returns, get_returns] at ok
  obtain ⟨_, _, ⟨rfl, rfl⟩, ok⟩ := ok
  cases last : s.journal.entries.getLast? with
  | none => simp [last, throw_run] at ok
  | some e =>
      simp only [last, bind_returns, lift_returns, modify_returns, standardOk] at ok
      obtain ⟨signature, _, ⟨signed, rfl⟩, _, _, write, _, _, replace, rfl⟩ := ok
      have stored := writeReturns write
      have replaced := replaceReturns replace
      refine ⟨⟨checkpointSuiteMlDsa65V1, e.index, s.journal.chainHead, env.now, signature.toList⟩, signature,
        refersLast coherent last, rfl, rfl, signed, ?_⟩
      rw [replaced, stored]
      rfl

theorem mldsa65Sized {c : HeadPointer} {signature : MlDsa65Signature} (suite : c.suiteId = checkpointSuiteMlDsa65V1)
    (bytes : c.signature = signature.toList) : c.WellSized := by
  simp [HeadPointer.WellSized, expectedCheckpointSignatureLength, checkpointSuiteMlDsa65V1, checkpointSuiteEd25519V1,
    suite, bytes]

theorem checkpointMldsa65Returns (correct : crypto.mldsa65.Correct) {env : JournalEnv} {seed : MlDsa65PrivateSeed}
    {u : Unit} (own : some (crypto.mldsa65.publicKey seed) = keys.mldsa65) (coherent : Coherent s.journal)
    (ok : checkpointMldsa65 crypto env seed s = .ok u t) :
    ∃ c, FitsSuite crypto keys s.journal c ∧ verifyHead crypto keys c = .ok true ∧
      t = ⟨s.journal.checkpointedAt c.index, ⟨s.disk.log ++ (Record.checkpointSuiteV1 c).bytes, some (encodeHead c)⟩⟩ := by
  obtain ⟨c, signature, refers, suite, bytes, signed, stored⟩ := checkpointMldsa65Writes coherent ok
  have verified {noKey : String} : verifyMldsa65 crypto keys noKey c = .ok true :=
    verifyMldsa65Ok own bytes (correct _ _ _ _ signed)
  refine ⟨c, ⟨refers, mldsa65Sized suite bytes, ?_⟩, ?_, stored⟩
  · simp [verifySuiteCheckpoint, suite, verified]
  · simp [verifyHead, suite, verified]

/-! The head pointer. -/

structure GenuineHead (crypto : Crypto) (keys : HistoryKeys) (bytes : Bytes) (head : HeadPointer) : Prop where
  decoded : decodeHead bytes = .ok head
  verified : verifyHead crypto keys head = .ok true

structure HeadReached (journal : Journal) (head : HeadPointer) : Prop where
  checkpointed : journal.hasCheckpoint = true
  reached : head.index ≤ journal.lastCheckpointIndex

def HeadAgrees (crypto : Crypto) (keys : HistoryKeys) (journal : Journal) : Option Bytes → Prop
  | none => True
  | some bytes => ∃ head, GenuineHead crypto keys bytes head ∧ journal.hashAt head.index = some head.hash ∧
      HeadReached journal head

theorem checkHeadReached {bytes : Bytes} {head : HeadPointer} (genuine : GenuineHead crypto keys bytes head)
    (hash : journal.hashAt head.index = some head.hash) (reached : HeadReached journal head) :
    checkHead crypto keys journal bytes = .ok () := by
  have forward : ¬(¬journal.hasCheckpoint = true ∨ head.index > journal.lastCheckpointIndex) := by
    rintro (none | further)
    · exact none reached.checkpointed
    · exact UInt64.not_lt.mpr reached.reached further
  simp only [checkHead, genuine.decoded, genuine.verified, bind, Except.bind, throwIf_not (not_not.mpr trivial),
    throwIf_not forward]
  exact throwIf_not (fun both => both.2 hash)

theorem checkHeadBehind {bytes : Bytes} {head : HeadPointer} (genuine : GenuineHead crypto keys bytes head)
    (behind : ¬HeadReached journal head) : checkHead crypto keys journal bytes = .error behindHead := by
  have further : ¬journal.hasCheckpoint = true ∨ head.index > journal.lastCheckpointIndex := by
    by_contra neither
    rw [not_or, not_not, gt_iff_lt, UInt64.not_lt] at neither
    exact behind ⟨neither.1, neither.2⟩
  simp only [checkHead, genuine.decoded, genuine.verified, bind, Except.bind, throwIf_not (not_not.mpr trivial),
    throwIf_bad further]

theorem hashAtPush {e : JournalEntry} {index : UInt64} {hash : JournalHash} (found : journal.hashAt index = some hash) :
    (journal.push e).hashAt index = some hash := by
  simp only [hashAt, Option.map_eq_some_iff] at found ⊢
  obtain ⟨f, there, same⟩ := found
  have known := (List.getElem?_eq_some_iff.mp there).1
  exact ⟨f, (List.getElem?_append_left known).trans there, same⟩

/-! Runs. -/

structure Kept (crypto : Crypto) (keys : HistoryKeys) (s : Store) (records : List Record) : Prop where
  fits : Fitting crypto keys {} records
  journal : s.journal = replayed records
  log : s.disk.log = Framing.logBytes Record.frame records
  head : HeadAgrees crypto keys s.journal s.disk.head

theorem keptEmpty : Kept crypto keys {} [] := ⟨trivial, rfl, rfl, trivial⟩

theorem Kept.coherent (kept : Kept crypto keys s records) : Coherent s.journal := by
  rw [kept.journal]
  exact coherentReplayed kept.fits

theorem Kept.record (kept : Kept crypto keys s records) {r : Record} {head : Option Bytes}
    (fits : Fits crypto keys s.journal r) (agrees : HeadAgrees crypto keys (s.journal.extend r) head) :
    Kept crypto keys ⟨s.journal.extend r, ⟨s.disk.log ++ r.bytes, head⟩⟩ (records ++ [r]) where
  fits := fittingSnoc kept.fits (kept.journal ▸ fits)
  journal := by rw [replayedSnoc, kept.journal]
  log := by rw [Framing.logBytes_append, ← kept.log]; simp [Record.bytes]
  head := agrees

theorem headAgreesPush {e : JournalEntry} {head : Option Bytes} (agrees : HeadAgrees crypto keys journal head) :
    HeadAgrees crypto keys (journal.push e) head := by
  cases head with
  | none => trivial
  | some bytes =>
      obtain ⟨head, genuine, hash, reached⟩ := agrees
      exact ⟨head, genuine, hashAtPush hash, reached.checkpointed, reached.reached⟩

theorem headAgreesCheckpoint {head : HeadPointer} (sized : head.WellSized) (refers : Refers journal head.index head.hash)
    (verified : verifyHead crypto keys head = .ok true) :
    HeadAgrees crypto keys (journal.checkpointedAt head.index) (some (encodeHead head)) :=
  ⟨head, ⟨decodeEncodedHead sized, verified⟩, refers.hash, rfl, UInt64.le_refl _⟩

/- Every call that returns adds one record that fits. -/
theorem Kept.step (correct : crypto.Correct) (kept : Kept crypto keys s records) {env : JournalEnv} {call : Call}
    (own : call.SignsFor crypto keys) (ok : Accepts (perform crypto) s (env, call) t) :
    ∃ r, Kept crypto keys t (records ++ [r]) := by
  cases call with
  | append given =>
      simp only [Accepts, perform, bind_returns, pure_returns] at ok
      obtain ⟨e, _, ok, _, rfl⟩ := ok
      obtain ⟨fits, rfl⟩ := appendReturns ok
      exact ⟨.entry e, kept.record (r := .entry e) fits (headAgreesPush kept.head)⟩
  | checkpoint seed =>
      obtain ⟨c, fits, rfl⟩ := checkpointReturns correct.ed25519 own kept.coherent ok
      refine ⟨.checkpoint c, kept.record (r := .checkpoint c) fits (headAgreesCheckpoint ?_ fits.toRefers ?_)⟩
      · simp [HeadPointer.WellSized, expectedCheckpointSignatureLength]
      · have verified := fits.verified
        simpa [verifyHead, checkpointSuiteEd25519V1, checkpointSuiteMlDsa65V1, fixedFromToList, standardOk] using verified
  | checkpointMldsa65 seed =>
      obtain ⟨c, fits, verified, rfl⟩ := checkpointMldsa65Returns correct.mldsa65 own kept.coherent ok
      exact ⟨.checkpointSuiteV1 c, kept.record (r := .checkpointSuiteV1 c) fits
        (headAgreesCheckpoint fits.sized fits.toRefers verified)⟩

theorem Kept.run (correct : crypto.Correct) (kept : Kept crypto keys s records) {calls : List (JournalEnv × Call)}
    (own : ∀ call ∈ calls, call.2.SignsFor crypto keys) (ran : completes (perform crypto) s calls = some t) :
    ∃ more, more.length = calls.length ∧ Kept crypto keys t (records ++ more) := by
  refine completes_history (I := fun done t => ∃ more, more.length = done.length ∧
    Kept crypto keys t (records ++ more)) ⟨[], rfl, by simpa using kept⟩ ?_ ran
  rintro done t ⟨env, call⟩ u mem ⟨more, size, kept⟩ ok
  obtain ⟨r, next⟩ := kept.step correct (own _ mem) ok
  exact ⟨more ++ [r], by simp [size], by simpa using next⟩

/-! Opening the files. -/

def headOutcome (crypto : Crypto) (keys : HistoryKeys) (journal : Journal) : Option Bytes → Except JournalError Unit
  | none => .ok ()
  | some bytes => checkHead crypto keys journal bytes

theorem openScanned (disk : Disk) {torn : Bytes}
    (scanned : Framing.scan maxRecordBodyLength oversize (replayRecord crypto keys) {} disk.log = .ok (journal, torn)) :
    Journal.open crypto keys disk =
      match headOutcome crypto keys journal disk.head with
      | .ok _ => .ok journal { disk with log := disk.log.take (disk.log.length - torn.length) }
      | .error e => .error e { disk with log := disk.log.take (disk.log.length - torn.length) } := by
  have whole : torn = [] → { disk with log := disk.log.take (disk.log.length - torn.length) } = disk := by
    rintro rfl
    simp
  simp only [Journal.open, bind_run, get_run, lift_run, scanned]
  cases torn with
  | nil =>
      rw [whole rfl]
      cases disk.head with
      | none => rfl
      | some bytes => 
          simp only [headOutcome, List.isEmpty_nil, Bool.not_true, Bool.false_eq_true, if_false, pure_run, bind_run, lift_run]
          cases checkHead crypto keys journal bytes <;> rfl
  | cons byte rest =>
      cases disk.head with
      | none => rfl
      | some bytes => 
          simp only [headOutcome, List.isEmpty_cons, Bool.not_false, if_true, set_run, bind_run, lift_run]
          cases checkHead crypto keys journal bytes <;> rfl

theorem openEmpty : Journal.open crypto keys {} = .ok {} {} :=
  openScanned {} (Framing.scanDone _)

/- Opening a log cut after `n` bytes replays the records inside the cut and leaves their bytes. -/
theorem openCut (fits : Fitting crypto keys {} records) (head : Option Bytes) (n : Nat) :
    Journal.open crypto keys ⟨(Framing.logBytes Record.frame records).take n, head⟩ =
      match headOutcome crypto keys (replayed (Framing.within (fun r => r.bytes.length) records n)) head with
      | .ok _ => .ok (replayed (Framing.within (fun r => r.bytes.length) records n))
          ⟨Framing.logBytes Record.frame (Framing.within (fun r => r.bytes.length) records n), head⟩
      | .error e => .error e
          ⟨Framing.logBytes Record.frame (Framing.within (fun r => r.bytes.length) records n), head⟩ := by
  have inside := fittingPrefix fits (Framing.withinPrefix (fun r => r.bytes.length) records n)
  have scanned : Framing.scan maxRecordBodyLength oversize (replayRecord crypto keys) {} _ = _ :=
    Framing.scanCut Record.frame (by decide) (smallBodies fits) ({} : Journal) n
  rw [show (fun r => (Record.frame r).encode.length) = (fun r => r.bytes.length) from rfl, replayFrames inside] at scanned
  obtain ⟨torn, cut⟩ := Framing.withinBytes Record.frame records n
  rw [show (fun r => (Record.frame r).encode.length) = (fun r => r.bytes.length) from rfl] at cut
  simp only [← cut, List.drop_left, Except.map] at scanned ⊢
  have run := openScanned ⟨_, head⟩ scanned
  simpa only [replayed, List.length_append, Nat.add_sub_cancel, List.take_left] using run

theorem headAgreesChecked {head : Option Bytes} (agrees : HeadAgrees crypto keys journal head) :
    headOutcome crypto keys journal head = .ok () := by
  cases head with
  | none => rfl
  | some bytes =>
      obtain ⟨_, genuine, hash, reached⟩ := agrees
      exact checkHeadReached genuine hash reached

theorem openWhole (kept : Kept crypto keys s records) : Journal.open crypto keys s.disk = .ok s.journal s.disk := by
  have cut := openCut kept.fits s.disk.head s.disk.log.length
  have whole : Framing.within (fun r => r.bytes.length) records s.disk.log.length = records :=
    Framing.withinAll Record.frame records (by rw [kept.log])
  rw [whole, ← kept.journal, headAgreesChecked kept.head, ← kept.log, List.take_length] at cut
  exact cut

/- Whatever a run of successful calls from a new journal leaves on disk, opening it gives back the
journal in memory: entries, chain head, next index, last checkpoint and the state of each trade. -/
theorem replayReproduces (correct : crypto.Correct) {disk : Disk} (created : Journal.open crypto keys {} = .ok journal disk)
    {calls : List (JournalEnv × Call)} (own : ∀ call ∈ calls, call.2.SignsFor crypto keys)
    (ran : completes (perform crypto) ⟨journal, disk⟩ calls = some s) :
    Journal.open crypto keys s.disk = .ok s.journal s.disk := by
  rw [openEmpty] at created
  cases created
  obtain ⟨records, _, kept⟩ := keptEmpty.run correct own ran
  exact openWhole kept

/- One trade's first entry and a checkpoint over it, with the digest and the signature the library
computes for them. -/
def firstHash : JournalHash :=
  #v[0xce, 0x49, 0x68, 0xdc, 0x19, 0xd6, 0x50, 0xc3, 0x68, 0x2e, 0x77, 0x54, 0xeb, 0xbb, 0x32, 0x5b,
     0x52, 0x49, 0xb2, 0xdc, 0x84, 0x38, 0x8d, 0xe6, 0xdd, 0xcf, 0x01, 0x96, 0xb1, 0xfd, 0x18, 0xe2]

def zeroSeedKey : Ed25519PublicKey :=
  #v[0x3b, 0x6a, 0x27, 0xbc, 0xce, 0xb6, 0xa4, 0x2d, 0x62, 0xa3, 0xa8, 0xd0, 0x2a, 0x6f, 0x0d, 0x73,
     0x65, 0x32, 0x15, 0x77, 0x1d, 0xe2, 0x43, 0xa6, 0x3a, 0xc0, 0x48, 0xa1, 0x8b, 0x59, 0xda, 0x29]

def firstSignature : Ed25519Signature :=
  #v[0xca, 0x19, 0x21, 0xfc, 0x07, 0x38, 0x69, 0x27, 0xc6, 0x27, 0x24, 0xf7, 0x81, 0x9f, 0x6f, 0xc7,
     0xc8, 0x1f, 0x3c, 0xd7, 0xaa, 0x27, 0xdb, 0x09, 0x66, 0xf8, 0x02, 0x2a, 0xb9, 0xc9, 0x1a, 0x07,
     0xb6, 0x94, 0x82, 0x37, 0x5d, 0xc8, 0x07, 0x93, 0x43, 0x1d, 0x30, 0x79, 0x49, 0x95, 0xee, 0x65,
     0x74, 0x20, 0x92, 0x97, 0x30, 0x05, 0x79, 0xf7, 0xc1, 0x37, 0x6d, 0x03, 0x06, 0xe0, 0xd1, 0x07]

-- ML-DSA-65 is as in a build of the library that does not provide it.
def firstCrypto : Crypto where
  sha256 := fun _ => firstHash
  ed25519 := {
    publicKey := fun _ => zeroSeedKey
    sign := fun _ _ _ => .ok firstSignature
    verify := fun _ _ signature => .ok (signature == firstSignature) }
  mldsa65 := {
    publicKey := fun _ => Vector.replicate 1952 0
    sign := fun _ _ _ => .error (.runtimeError "failed to create ML-DSA-65 keygen context")
    verify := fun _ _ _ => .error (.runtimeError "failed to load ML-DSA-65 public key") }

theorem firstCryptoCorrect : firstCrypto.Correct where
  ed25519 := by
    intro _ _ _ signature signed
    cases signed
    simp [firstCrypto]
  mldsa65 := by
    intro _ _ _ signature signed
    cases signed

def firstFields : JournalEntryFields where
  roomId := Vector.replicate 32 0
  tradeId := #v[1, 0, 0, 0, 0, 0, 0, 0, 0, 0, 0, 0, 0, 0, 0, 0]
  mediatorId := Wire.ascii "m"
  counterpartyFingerprint := Vector.replicate 32 0
  termsCommitment := Vector.replicate 32 0
  round := 0
  direction := 0
  messageType := 1
  messageHash := Vector.replicate 32 0
  ackState := 0
  localState := 0
  timestamp := 1700000000

def firstCalls : List (JournalEnv × Call) :=
  [({ now := 1700000000 }, .append firstFields), ({ now := 1700000060 }, .checkpoint (Vector.replicate 32 0))]

def firstKeys : HistoryKeys := { ed25519 := zeroSeedKey }

def firstStore : Store := (completes (perform firstCrypto) {} firstCalls).getD {}

theorem firstCallsOwn : ∀ call ∈ firstCalls, call.2.SignsFor firstCrypto firstKeys := by
  simp [firstCalls, Call.SignsFor, firstCrypto, firstKeys]

theorem firstCallsComplete : completes (perform firstCrypto) {} firstCalls = some firstStore := by
  have returns : (completes (perform firstCrypto) {} firstCalls).isSome = true := by decide +kernel
  obtain ⟨store, ran⟩ := Option.isSome_iff_exists.mp returns
  rw [firstStore, ran, Option.getD_some]

theorem firstReplayed : Journal.open firstCrypto firstKeys firstStore.disk = .ok firstStore.journal firstStore.disk :=
  replayReproduces firstCryptoCorrect openEmpty firstCallsOwn firstCallsComplete

end Journal
end TradeP2P
