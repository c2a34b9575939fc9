import TradeP2P.Lib.Contracts
import TradeP2P.Lib.HashChain
import TradeP2P.Journal.Accepts
import TradeP2P.Protocol.SignedPayloads

/-! Tamper evidence. Whatever log stands beside the head pointer a run has left, what opens agrees with
the run as far back as the head reaches. -/
namespace TradeP2P
open Wire (Bytes bigEndian)
open Checks Machine

namespace Journal

/-! Runs of a client: calls on its journal, of which any may fail, and files opened again. -/

inductive Act where
  | call (env : JournalEnv) (call : Call)
  | reopen

-- Where the files do not open a client has no journal to go on with. A run may go on, which only adds runs.
def act (crypto : Crypto) (keys : HistoryKeys) : Object JournalError Store Act
  | .call env call => perform crypto (env, call)
  | .reopen => fun store => match Journal.open crypto keys store.disk with
    | .ok journal disk => .ok () { journal, disk }
    | .error e disk => .error e { store with disk }

abbrev written (crypto : Crypto) (keys : HistoryKeys) (acts : List Act) : Store := exec (act crypto keys) {} acts

/-! What the hashes of a journal cover. -/

def hashedBytes (e : JournalEntry) : Bytes := entryBytes e.index e.fields ++ e.previousHash.toList

def Hashed (journal : Journal) : Set Bytes := {bytes | ∃ e ∈ journal.entries, hashedBytes e = bytes}

structure Chained (crypto : Crypto) (journal : Journal) : Prop where
  short : ∀ e ∈ journal.entries, e.fields.mediatorId.length ≤ journalMaxMediatorIdLength
  sealed : ∀ e ∈ journal.entries, crypto.sha256 (hashedBytes e) = e.entryHash
  linked : HashChain.Linked JournalEntry.entryHash JournalEntry.previousHash journal.entries

section Chains
variable {crypto : Crypto} {keys : HistoryKeys} {journal : Journal} {records : List Record}

theorem chainedEmpty : Chained crypto {} := ⟨by simp, by simp, by simp [HashChain.Linked]⟩

theorem Chained.push {e : JournalEntry} (chained : Chained crypto journal) (coherent : Coherent journal)
    (fits : FitsEntry crypto journal e) : Chained crypto (journal.push e) where
  short := by
    intro f mem
    rcases List.mem_append.mp mem with old | new
    · exact chained.short f old
    · rw [List.mem_singleton.mp new]
      exact fits.mediatorId
  sealed := by
    intro f mem
    rcases List.mem_append.mp mem with old | new
    · exact chained.sealed f old
    · rw [List.mem_singleton.mp new]
      exact fits.hash
  linked := by
    refine HashChain.linkedSnoc chained.linked fun last found => ?_
    rw [fits.link, coherent.head, found]
    rfl

theorem chainedRun (chained : Chained crypto journal) (coherent : Coherent journal)
    (fits : Fitting crypto keys journal records) : Chained crypto (records.foldl Journal.extend journal) := by
  induction records generalizing journal with
  | nil => exact chained
  | cons r rest ih =>
      obtain ⟨here, later⟩ := fits
      refine ih ?_ (coherent.extend here) later
      cases r with
      | entry e => exact chained.push coherent here
      | checkpoint c => exact ⟨chained.short, chained.sealed, chained.linked⟩
      | checkpointSuiteV1 c => exact ⟨chained.short, chained.sealed, chained.linked⟩

/- The hashed bytes say which entry it is, but for its own hash. -/
theorem hashedDetermines {a b : JournalEntry} (shortA : a.fields.mediatorId.length ≤ journalMaxMediatorIdLength)
    (shortB : b.fields.mediatorId.length ≤ journalMaxMediatorIdLength) (bytes : hashedBytes a = hashedBytes b)
    (hash : a.entryHash = b.entryHash) : a = b := by
  have readA := readsEntryContent a.index a.fields shortA a.previousHash.toList
  have readB := readsEntryContent b.index b.fields shortB b.previousHash.toList
  unfold hashedBytes at bytes
  rw [bytes, readB, Except.ok.injEq, Prod.mk.injEq, Prod.mk.injEq, Vector.toList_inj] at readA
  obtain ⟨⟨index, fields⟩, previous⟩ := readA
  cases a
  cases b
  simp_all

theorem told {a b : Journal} (chainedA : Chained crypto a) (chainedB : Chained crypto b)
    (collisionFree : Set.InjOn crypto.sha256 (Hashed a ∪ Hashed b)) :
    HashChain.Told JournalEntry.entryHash a.entries b.entries := by
  refine HashChain.toldHashes chainedA.sealed chainedB.sealed (collisionFree.mono ?_) ?_
  · intro bytes covered
    obtain ⟨e, inA | inB, rfl⟩ := covered
    · exact .inl ⟨e, inA, rfl⟩
    · exact .inr ⟨e, inB, rfl⟩
  · intro e inA f inB
    exact hashedDetermines (chainedA.short e inA) (chainedB.short f inB)

end Chains

/-! What holds of a client's store through every run: its head pointer is that of an entry it holds. -/

def HeadNames (journal : Journal) (head : Option Bytes) : Prop :=
  ∀ bytes, head = some bytes → ∃ head, decodeHead bytes = .ok head ∧ journal.hashAt head.index = some head.hash

structure Anchored (crypto : Crypto) (s : Store) : Prop where
  coherent : Coherent s.journal
  chained : Chained crypto s.journal
  head : HeadNames s.journal s.disk.head

/- The log aside, the call has left everything as it was. -/
def Untouched (s t : Store) : Prop := t.journal = s.journal ∧ t.disk.head = s.disk.head

section Steps
variable {crypto : Crypto} {keys : HistoryKeys} {s t : Store}

theorem Anchored.untouched (anchored : Anchored crypto s) (same : Untouched s t) : Anchored crypto t := by
  obtain ⟨journal, head⟩ := same
  exact ⟨journal ▸ anchored.coherent, journal ▸ anchored.chained, by rw [journal, head]; exact anchored.head⟩

theorem anchoredKept {records : List Record} (kept : Kept crypto keys s records) : Anchored crypto s where
  coherent := kept.coherent
  chained := by
    rw [kept.journal]
    exact chainedRun chainedEmpty coherentEmpty kept.fits
  head := by
    intro bytes found
    have agrees := kept.head
    rw [found] at agrees
    obtain ⟨head, genuine, hash, _⟩ := agrees
    exact ⟨head, genuine.decoded, hash⟩

theorem Anchored.append {e : JournalEntry} {bytes : Bytes} (anchored : Anchored crypto s)
    (fits : FitsEntry crypto s.journal e) :
    Anchored crypto ⟨s.journal.push e, { s.disk with log := s.disk.log ++ bytes }⟩ where
  coherent := anchored.coherent.push fits
  chained := anchored.chained.push anchored.coherent fits
  head := by
    intro bytes found
    obtain ⟨head, decoded, hash⟩ := anchored.head bytes found
    exact ⟨head, decoded, hashAtPush hash⟩

theorem Anchored.checkpoint {head : HeadPointer} {log : Bytes} (anchored : Anchored crypto s) (sized : head.WellSized)
    (refers : Refers s.journal head.index head.hash) :
    Anchored crypto ⟨s.journal.checkpointedAt head.index, ⟨log, some (encodeHead head)⟩⟩ where
  coherent := ⟨anchored.coherent.indices, anchored.coherent.head, fun _ => refers.known⟩
  chained := ⟨anchored.chained.short, anchored.chained.sealed, anchored.chained.linked⟩
  head := by
    intro bytes found
    obtain rfl := Option.some.inj found
    exact ⟨head, decodeEncodedHead sized, refers.hash⟩

/-! A call that throws has touched nothing but the log. -/

theorem writeKeeps (fault : Option Nat) (bytes : Bytes) :
    Ensures (writeAllAndSync fault bytes) s (fun _ t => Untouched s t) (fun _ t => Untouched s t) := by
  simp only [writeAllAndSync, ensuresBind, ensuresGet, ensuresSet, ensuresLift]
  exact ⟨fun _ _ => ⟨rfl, rfl⟩, fun _ _ => ⟨rfl, rfl⟩⟩

theorem appendKeeps (env : JournalEnv) (given : JournalEntryFields) :
    Ensures (append crypto env given) s (fun _ _ => True) (fun _ t => Untouched s t) := by
  simp only [append, ensuresBind, ensuresGet, ensuresLift, ensuresModify, ensuresPure]
  refine ⟨fun _ _ => ⟨fun content _ => ?_, fun _ _ => ⟨rfl, rfl⟩⟩, fun _ _ => ⟨rfl, rfl⟩⟩
  refine (writeKeeps env.logFault _).weaken ?_ (fun _ _ _ same => same)
  intro _ t _ same
  exact ⟨fun _ _ => trivial, fun _ _ => same⟩

theorem replaceKeeps (fault : Option Error) (bytes : Bytes) :
    Ensures (writeReplaceAtomic fault bytes) t (fun _ _ => True) (fun _ u => u = t) := by
  cases fault with
  | none => trivial
  | some e => exact rfl

theorem checkpointKeeps (env : JournalEnv) (seed : Ed25519PrivateSeed) :
    Ensures (checkpoint crypto env seed) s (fun _ _ => True) (fun _ t => Untouched s t) := by
  simp only [checkpoint, ensuresBind, ensuresGet]
  cases s.journal.entries.getLast? with
  | none => exact ⟨rfl, rfl⟩
  | some last =>
      simp only [ensuresBind, ensuresLift, ensuresModify]
      refine ⟨fun signature _ => ?_, fun _ _ => ⟨rfl, rfl⟩⟩
      refine (writeKeeps env.logFault _).weaken ?_ (fun _ _ _ same => same)
      intro _ t _ same
      exact (replaceKeeps env.headFault _).weaken (fun _ _ _ _ => trivial) (fun _ _ _ unchanged => unchanged ▸ same)

theorem checkpointMldsa65Keeps (env : JournalEnv) (seed : MlDsa65PrivateSeed) :
    Ensures (checkpointMldsa65 crypto env seed) s (fun _ _ => True) (fun _ t => Untouched s t) := by
  simp only [checkpointMldsa65, ensuresBind, ensuresGet]
  cases s.journal.entries.getLast? with
  | none => exact ⟨rfl, rfl⟩
  | some last =>
      simp only [ensuresBind, ensuresLift, ensuresModify]
      refine ⟨fun signature _ => ?_, fun _ _ => ⟨rfl, rfl⟩⟩
      refine (writeKeeps env.logFault _).weaken ?_ (fun _ _ _ same => same)
      intro _ t _ same
      exact (replaceKeeps env.headFault _).weaken (fun _ _ _ _ => trivial) (fun _ _ _ unchanged => unchanged ▸ same)

theorem Anchored.call (anchored : Anchored crypto s) (call : JournalEnv × Call) :
    Ensures (perform crypto call) s (fun _ t => Anchored crypto t) (fun _ t => Anchored crypto t) := by
  obtain ⟨env, call⟩ := call
  cases call with
  | append given =>
      simp only [perform, ensuresBind, ensuresPure]
      refine (appendKeeps env given).weaken ?_ (fun _ _ _ same => anchored.untouched same)
      intro e t ok _
      obtain ⟨fits, rfl⟩ := appendReturns ok
      exact anchored.append fits
  | checkpoint seed =>
      refine (checkpointKeeps env seed).weaken ?_ (fun _ _ _ same => anchored.untouched same)
      intro _ t ok _
      obtain ⟨c, refers, _, rfl⟩ := checkpointWrites anchored.coherent ok
      have sized : HeadPointer.WellSized
          { index := c.index, hash := c.hash, signedAt := c.signedAt, signature := c.signature.toList } := by
        simp [HeadPointer.WellSized, expectedCheckpointSignatureLength]
      exact anchored.checkpoint sized refers
  | checkpointMldsa65 seed =>
      refine (checkpointMldsa65Keeps env seed).weaken ?_ (fun _ _ _ same => anchored.untouched same)
      intro _ t ok _
      obtain ⟨c, signature, refers, suite, bytes, _, rfl⟩ := checkpointMldsa65Writes anchored.coherent ok
      exact anchored.checkpoint (mldsa65Sized suite bytes) refers

theorem Anchored.step (anchored : Anchored crypto s) (a : Act) : Anchored crypto (next (act crypto keys) s a) := by
  cases a with
  | call env call =>
      have kept := anchored.call (env, call)
      unfold Ensures at kept
      unfold next act
      cases ran : perform crypto (env, call) s with
      | ok u t => simpa [ran] using kept
      | error e t => simpa [ran] using kept
  | reopen =>
      cases opened : Journal.open crypto keys s.disk with
      | ok journal disk =>
          simp only [next, act, opened]
          obtain ⟨_, _, _, kept, _⟩ := openOk opened
          exact anchoredKept kept
      | error e disk =>
          simp only [next, act, opened]
          exact anchored.untouched ⟨rfl, openFails opened⟩

theorem anchoredWritten (acts : List Act) : Anchored crypto (written crypto keys acts) := by
  refine exec_history (I := fun _ s => Anchored crypto s) ?_ (fun _ a anchored => anchored.step a) acts
  exact ⟨coherentEmpty, chainedEmpty, by simp [HeadNames]⟩

end Steps

/-! Who signed a checkpoint. -/
section Signed
variable (crypto : Crypto) (keys : HistoryKeys) (acts : List Act)

def Called (P : Journal → JournalEnv → Call → Prop) : Prop :=
  ∃ done env call rest, acts = done ++ .call env call :: rest ∧ P (written crypto keys done).journal env call

structure Marks (journal : Journal) (env : JournalEnv) (index : UInt64) (hash : JournalHash) (signedAt : UInt64) :
    Prop where
  last : journal.entries.getLast?.map JournalEntry.index = some index
  hash : journal.chainHead = hash
  time : env.now = signedAt

def MadeEd25519 (index : UInt64) (hash : JournalHash) (signedAt : UInt64) : Prop :=
  Called crypto keys acts fun journal env call => Marks journal env index hash signedAt ∧
    ∃ seed signature, call = .checkpoint seed ∧ crypto.ed25519.publicKey seed = keys.ed25519 ∧
      crypto.ed25519.sign seed env.entropy (checkpointSignedBytes index hash signedAt) = .ok signature

def MadeMldsa65 (index : UInt64) (hash : JournalHash) (signedAt : UInt64) : Prop :=
  Called crypto keys acts fun journal env call => Marks journal env index hash signedAt ∧
    ∃ seed signature, call = .checkpointMldsa65 seed ∧ some (crypto.mldsa65.publicKey seed) = keys.mldsa65 ∧
      crypto.mldsa65.sign seed env.entropy
        (checkpointSuiteSignedBytes checkpointSuiteMlDsa65V1 index hash signedAt) = .ok signature

inductive CheckpointPayload : Bytes → Prop where
  | plain (index : UInt64) (hash : JournalHash) (signedAt : UInt64) :
      CheckpointPayload (checkpointSignedBytes index hash signedAt)
  | suite (suiteId : UInt16) (index : UInt64) (hash : JournalHash) (signedAt : UInt64) :
      CheckpointPayload (checkpointSuiteSignedBytes suiteId index hash signedAt)

/- A checkpoint's signature verifies on what the run signed, and on nothing else. -/
structure Unforged : Prop where
  ed25519 : ∀ message signature, CheckpointPayload message →
    crypto.ed25519.verify keys.ed25519 message signature = .ok true →
    ∃ index hash signedAt, MadeEd25519 crypto keys acts index hash signedAt ∧
      message = checkpointSignedBytes index hash signedAt
  mldsa65 : ∀ key message signature, keys.mldsa65 = some key → CheckpointPayload message →
    crypto.mldsa65.verify key message signature = .ok true →
    ∃ index hash signedAt, MadeMldsa65 crypto keys acts index hash signedAt ∧
      message = checkpointSuiteSignedBytes checkpointSuiteMlDsa65V1 index hash signedAt

/- A checkpoint record tells of a checkpoint the run made. -/
def Attested : Record → Prop
  | .entry _ => True
  | .checkpoint c => MadeEd25519 crypto keys acts c.index c.hash c.signedAt
  | .checkpointSuiteV1 c => c.suiteId = checkpointSuiteMlDsa65V1 ∧ MadeMldsa65 crypto keys acts c.index c.hash c.signedAt

variable {crypto keys acts} {journal : Journal} {r : Record} {records : List Record}

theorem attestedFits (unforged : Unforged crypto keys acts) (fits : Fits crypto keys journal r) :
    Attested crypto keys acts r := by
  cases r with
  | entry e => trivial
  | checkpoint c =>
      obtain ⟨index, hash, signedAt, made, message⟩ := unforged.ed25519 _ _ (.plain ..) (FitsCheckpoint.verified fits)
      obtain ⟨rfl, rfl, rfl⟩ := checkpointInjective message
      exact made
  | checkpointSuiteV1 c =>
      have verified := FitsSuite.verified fits
      unfold verifySuiteCheckpoint at verified
      split at verified
      · next suite =>
          unfold verifyMldsa65 at verified
          cases key : keys.mldsa65 with
          | none => simp [key] at verified
          | some k =>
              simp only [key, standardOk] at verified
              obtain ⟨index, hash, signedAt, made, message⟩ := unforged.mldsa65 k _ _ key (.suite ..) verified
              obtain ⟨_, rfl, rfl, rfl⟩ := checkpointSuiteInjective message
              exact ⟨suite, made⟩
      · split at verified
        · rw [standardOk] at verified
          obtain ⟨index, hash, signedAt, _, message⟩ := unforged.ed25519 _ _ (.suite ..) verified
          -- The two payloads start with labels of their own.
          have separate := payloadsSeparate (a := .checkpointSuite c.suiteId c.index c.hash c.signedAt)
            (b := .checkpoint index hash signedAt) rfl (congrArg Except.ok message.symm)
          contradiction
        · contradiction

theorem attestedFitting (unforged : Unforged crypto keys acts) (fits : Fitting crypto keys journal records) :
    ∀ r ∈ records, Attested crypto keys acts r := by
  induction records generalizing journal with
  | nil => simp
  | cons r rest ih =>
      obtain ⟨here, later⟩ := fits
      exact List.forall_mem_cons.mpr ⟨attestedFits unforged here, ih later⟩

end Signed

section Tampering
variable {crypto : Crypto} {keys : HistoryKeys} {acts : List Act} {bytes log : Bytes} {journal : Journal} {left : Disk}

/- Two journals with the digest of one entry in common have all entries up to it in common. -/
theorem sameEntries {a b : Journal} (chainedA : Chained crypto a) (chainedB : Chained crypto b)
    (collisionFree : Set.InjOn crypto.sha256 (Hashed a ∪ Hashed b)) {index : UInt64} {hash : JournalHash}
    (hashA : a.hashAt index = some hash) (hashB : b.hashAt index = some hash) :
    a.entries.take (index.toNat + 1) = b.entries.take (index.toNat + 1) := by
  simp only [hashAt, Option.map_eq_some_iff] at hashA hashB
  obtain ⟨e, foundA, same⟩ := hashA
  obtain ⟨f, foundB, same'⟩ := hashB
  exact HashChain.samePrefix chainedA.linked chainedB.linked (told chainedA chainedB collisionFree) foundA foundB
    (same.trans same'.symm)

/- Any log that opens beside the head pointer a run left holds the entries the run wrote, up to the
head's, and no checkpoint the run did not make. -/
theorem tamperEvident (acts : List Act) (recorded : (written crypto keys acts).disk.head = some bytes)
    (accepted : Journal.open crypto keys ⟨log, some bytes⟩ = .ok journal left)
    (collisionFree : Set.InjOn crypto.sha256 (Hashed journal ∪ Hashed (written crypto keys acts).journal))
    (unforged : Unforged crypto keys acts) :
    ∃ head, decodeHead bytes = .ok head ∧ HeadReached journal head ∧
      head.index.toNat < (written crypto keys acts).journal.entries.length ∧
      journal.entries.take (head.index.toNat + 1) =
        (written crypto keys acts).journal.entries.take (head.index.toNat + 1) ∧
      ∃ records torn, log = Framing.logBytes Record.frame records ++ torn ∧ journal = replayed records ∧
        ∀ r ∈ records, Attested crypto keys acts r := by
  have anchored : Anchored crypto (written crypto keys acts) := anchoredWritten acts
  obtain ⟨head, decoded, hash⟩ := anchored.head bytes recorded
  obtain ⟨records, torn, whole, kept, same⟩ := openOk accepted
  have agrees := kept.head
  rw [same] at agrees
  obtain ⟨head', genuine, hash', reached⟩ := agrees
  obtain rfl : head = head' := Except.ok.inj (decoded.symm.trans genuine.decoded)
  have known : head.index.toNat < (written crypto keys acts).journal.entries.length := by
    simp only [hashAt, Option.map_eq_some_iff] at hash
    obtain ⟨e, found, _⟩ := hash
    exact (List.getElem?_eq_some_iff.mp found).1
  have entries := sameEntries (anchoredKept kept).chained anchored.chained collisionFree hash' hash
  exact ⟨head, decoded, reached, known, entries, records, torn, whole, kept.journal, attestedFitting unforged kept.fits⟩

end Tampering

/-! A trade of two entries, each checkpointed, and the same trade without its first checkpoint. -/

def secondHash : JournalHash :=
  #v[0x9d, 0xcf, 0x40, 0x4d, 0x15, 0x7c, 0x99, 0x0b, 0x95, 0x13, 0xc7, 0x64, 0x0c, 0x21, 0xc2, 0xe5,
     0xd9, 0x76, 0x13, 0x8d, 0x1e, 0x4d, 0x2f, 0xf8, 0xa9, 0x58, 0x34, 0xac, 0xe4, 0xe9, 0x8a, 0xd3]

def secondSignature : Ed25519Signature :=
  #v[0x37, 0xa8, 0x2c, 0x2a, 0xa5, 0x18, 0xf8, 0x9c, 0x30, 0x73, 0x7c, 0x3f, 0x1e, 0x1d, 0x54, 0xfe,
     0x55, 0x92, 0x33, 0x3c, 0x5f, 0x26, 0x25, 0x7a, 0xe1, 0xce, 0x4c, 0x8c, 0x11, 0x64, 0xb5, 0xb3,
     0x70, 0x72, 0x7c, 0xf2, 0xd8, 0xa9, 0x0e, 0x74, 0x5d, 0x4d, 0x48, 0xa9, 0x86, 0xc7, 0x03, 0x5d,
     0x58, 0x78, 0x79, 0x22, 0x22, 0xd3, 0xbc, 0x1c, 0xa2, 0xca, 0xb0, 0x0a, 0x6c, 0x44, 0x58, 0x0d]

def tradeCrypto : Crypto where
  sha256 bytes := if bytes.take 8 = bigEndian 8 1 then secondHash else firstHash
  ed25519 := signatureTable (fun _ => zeroSeedKey)
    [(zeroSeedKey, checkpointSignedBytes 0 firstHash 1700000060, firstSignature),
     (zeroSeedKey, checkpointSignedBytes 1 secondHash 1700000180, secondSignature)]
  mldsa65 := firstCrypto.mldsa65

def firstEntryCall : JournalEnv × Call := ({ now := 1700000000 }, .append firstFields)
def firstCheckpointCall : JournalEnv × Call := ({ now := 1700000060 }, .checkpoint (Vector.replicate 32 0))
def secondEntryCall : JournalEnv × Call :=
  ({ now := 1700000120 }, .append { firstFields with localState := 1, timestamp := 1700000120 })
def secondCheckpointCall : JournalEnv × Call := ({ now := 1700000180 }, .checkpoint (Vector.replicate 32 0))

def tradeActs : List Act :=
  [firstEntryCall, firstCheckpointCall, secondEntryCall, secondCheckpointCall].map fun call => .call call.1 call.2

def clearedCalls : List (JournalEnv × Call) := [firstEntryCall, secondEntryCall, secondCheckpointCall]

def clearedStore : Store := (completes (perform tradeCrypto) {} clearedCalls).getD {}

theorem opensBeside {crypto : Crypto} {keys : HistoryKeys} {disk left : Disk} {journal : Journal} {head : Option Bytes}
    (same : disk.head = head) (opens : Journal.open crypto keys disk = .ok journal left) :
    Journal.open crypto keys ⟨disk.log, head⟩ = .ok journal left := by
  cases disk
  subst same
  exact opens

theorem tradeCryptoCorrect : tradeCrypto.Correct where
  ed25519 := tableCorrect
  mldsa65 := firstCryptoCorrect.mldsa65

theorem bothRun : (completes (perform tradeCrypto) {} clearedCalls).isSome = true ∧
    (written tradeCrypto firstKeys tradeActs).disk.head = clearedStore.disk.head ∧
    clearedStore.disk.head = some (clearedStore.disk.head.getD []) ∧
    clearedStore.journal.entries = (written tradeCrypto firstKeys tradeActs).journal.entries ∧
    clearedStore.disk.log.length < (written tradeCrypto firstKeys tradeActs).disk.log.length := by
  decide +kernel

theorem headLeft : (written tradeCrypto firstKeys tradeActs).disk.head = clearedStore.disk.head := bothRun.2.1

theorem headWritten : clearedStore.disk.head = some (clearedStore.disk.head.getD []) := bothRun.2.2.1

theorem clearedOpens : Journal.open tradeCrypto firstKeys clearedStore.disk =
    .ok clearedStore.journal clearedStore.disk := by
  obtain ⟨store, ran⟩ := Option.isSome_iff_exists.mp bothRun.1
  have own : ∀ call ∈ clearedCalls, call.2.SignsFor tradeCrypto firstKeys := by
    simp [clearedCalls, firstEntryCall, secondEntryCall, secondCheckpointCall, Call.SignsFor, tradeCrypto, firstKeys,
      signatureTable]
  obtain ⟨records, _, kept⟩ := keptEmpty.run tradeCryptoCorrect own ran
  rw [clearedStore, ran, Option.getD_some]
  exact openWhole kept

theorem tradeUnforged : Unforged tradeCrypto firstKeys tradeActs where
  ed25519 := by
    intro message signature _ verified
    have known := tableVerifies.mp verified
    rcases List.mem_cons.mp known with first | second
    · cases first
      refine ⟨0, firstHash, 1700000060, ⟨[.call firstEntryCall.1 firstEntryCall.2], firstCheckpointCall.1,
        firstCheckpointCall.2, _, rfl, ⟨?_, ?_, rfl⟩, _, firstSignature, rfl, rfl, ?_⟩, rfl⟩
      · decide +kernel
      · decide +kernel
      · simp [tradeCrypto, signatureTable]
    · cases List.mem_singleton.mp second
      refine ⟨1, secondHash, 1700000180, ⟨[.call firstEntryCall.1 firstEntryCall.2,
        .call firstCheckpointCall.1 firstCheckpointCall.2, .call secondEntryCall.1 secondEntryCall.2],
        secondCheckpointCall.1, secondCheckpointCall.2, _, rfl, ⟨?_, ?_, rfl⟩, _, secondSignature, rfl, rfl, ?_⟩, rfl⟩
      · decide +kernel
      · decide +kernel
      · refine tableSigns _ _ rfl (.inr ?_)
        decide +kernel
  mldsa65 := by
    intro key _ _ known
    cases known

theorem sameTrade : clearedStore.journal.entries = (written tradeCrypto firstKeys tradeActs).journal.entries :=
  bothRun.2.2.2.1

theorem tradeCollisionFree : Set.InjOn tradeCrypto.sha256
    (Hashed clearedStore.journal ∪ Hashed (written tradeCrypto firstKeys tradeActs).journal) := by
  have distinct : ∀ e ∈ clearedStore.journal.entries, ∀ f ∈ clearedStore.journal.entries,
      tradeCrypto.sha256 (hashedBytes e) = tradeCrypto.sha256 (hashedBytes f) → hashedBytes e = hashedBytes f := by
    decide +kernel
  have same : Hashed (written tradeCrypto firstKeys tradeActs).journal = Hashed clearedStore.journal := by
    simp only [Hashed, sameTrade]
  rw [same, Set.union_self]
  rintro _ ⟨e, inE, rfl⟩ _ ⟨f, inF, rfl⟩ digests
  exact distinct e inE f inF digests

/- The assumptions hold, the head pointer is as it was left, and still a checkpoint record is gone. -/
theorem firstCheckpointDropped :
    Unforged tradeCrypto firstKeys tradeActs ∧
      Set.InjOn tradeCrypto.sha256
        (Hashed clearedStore.journal ∪ Hashed (written tradeCrypto firstKeys tradeActs).journal) ∧
      Journal.open tradeCrypto firstKeys ⟨clearedStore.disk.log, (written tradeCrypto firstKeys tradeActs).disk.head⟩ =
        .ok clearedStore.journal clearedStore.disk ∧
      ¬(written tradeCrypto firstKeys tradeActs).disk.log <+: clearedStore.disk.log := by
  have shorter := bothRun.2.2.2.2
  have opens := opensBeside headLeft.symm clearedOpens
  exact ⟨tradeUnforged, tradeCollisionFree, opens, fun front => absurd front.length_le (by omega)⟩

theorem clearedTold : ∃ head, decodeHead (clearedStore.disk.head.getD []) = .ok head ∧
    HeadReached clearedStore.journal head ∧
    head.index.toNat < (written tradeCrypto firstKeys tradeActs).journal.entries.length ∧
    clearedStore.journal.entries.take (head.index.toNat + 1) =
      (written tradeCrypto firstKeys tradeActs).journal.entries.take (head.index.toNat + 1) ∧
    ∃ records torn, clearedStore.disk.log = Framing.logBytes Record.frame records ++ torn ∧
      clearedStore.journal = replayed records ∧ ∀ r ∈ records, Attested tradeCrypto firstKeys tradeActs r := by
  have left : (written tradeCrypto firstKeys tradeActs).disk.head = some (clearedStore.disk.head.getD []) :=
    headLeft.trans headWritten
  have opens := opensBeside headWritten clearedOpens
  exact tamperEvident tradeActs left opens tradeCollisionFree tradeUnforged

end Journal
end TradeP2P
