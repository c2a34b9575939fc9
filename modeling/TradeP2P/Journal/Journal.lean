import TradeP2P.Journal.Records

/-! A client's journal: what it keeps in memory, what it writes, and how it is opened again. A
write may fail after some of its bytes have reached the log; the head pointer is replaced
atomically. -/
namespace TradeP2P
open Wire (Bytes)
open Checks

def isValidTransition (origin target : SessionState) : Bool :=
  if origin = target then true
  else match origin with
    | .waitingForPeer => target = .waitingForSent || target = .aborted
    | .waitingForSent => target = .waitingForReceived || target = .aborted
    | .waitingForReceived =>
        target = .waitingForSent || target = .waitingForFinalReceiptAck || target = .complete || target = .aborted
    | .waitingForFinalReceiptAck => target = .waitingForSent || target = .waitingForFeeSent || target = .aborted
    | .waitingForFeeSent => target = .complete || target = .waitingForFeeConfirmation || target = .aborted
    | .waitingForFeeConfirmation => target = .complete || target = .aborted
    | .complete | .aborted => false

/- Whether a trade may go on with this local state. A byte outside the enumeration is no state a
trade can begin or go on in. -/
def checkTransition (last : Option SessionState) (localState : UInt8) (invalid : String) : Except JournalError Unit :=
  match last, SessionState.ofByte localState with
  | none, some .waitingForPeer => .ok ()
  | none, _ => .error (.tamper
      "malformed local state transition: a trade's first journal entry must begin at WaitingForPeer")
  | some origin, some target => throwIf (¬isValidTransition origin target) (.tamper invalid)
  | some _, none => .error (.tamper invalid)

structure Journal where
  entries : List JournalEntry := []
  chainHead : JournalHash := genesisHash
  lastCheckpointIndex : UInt64 := 0
  hasCheckpoint : Bool := false
  lastStateByTrade : TradeId → Option SessionState := fun _ => none

structure Disk where
  log : Bytes := []
  head : Option Bytes := none
  deriving DecidableEq, Repr

structure Store where
  journal : Journal := {}
  disk : Disk := {}

-- The local-history public keys a journal is opened with.
structure HistoryKeys where
  ed25519 : Ed25519PublicKey
  mldsa65 : Option MlDsa65PublicKey := none

/- What a call meets outside the journal: the clock, the randomness of the signature, how many bytes
of its record the log takes before the write fails, and whether the head can be replaced. -/
structure JournalEnv where
  now : UInt64
  entropy : Bytes := []
  logFault : Option Nat := none
  headFault : Option Error := none

def standard {α : Type} (x : Except Error α) : Except JournalError α := x.mapError .standard

-- The array of a signature whose bytes were read into a vector.
def fixedFrom {n : Nat} (bytes : Bytes) : Vector UInt8 n := Vector.ofFn (fun i => bytes.getD i 0)

-- PTRDIFF_MAX, above the capacity of any vector.
def vectorMaxSize : Nat := 2 ^ 63 - 1

def vectorFull : JournalError := .standard (.logicError "vector::_M_realloc_append")

namespace Journal

def push (journal : Journal) (entry : JournalEntry) : Journal :=
  { journal with
    entries := journal.entries ++ [entry]
    chainHead := entry.entryHash
    lastStateByTrade := Function.update journal.lastStateByTrade entry.fields.tradeId
      (SessionState.ofByte entry.fields.localState) }

def checkpointedAt (journal : Journal) (index : UInt64) : Journal :=
  { journal with lastCheckpointIndex := index, hasCheckpoint := true }

/-! Writing. -/

def writeAllAndSync (fault : Option Nat) (bytes : Bytes) : EStateM JournalError Store Unit := do
  let store ← get
  let written := bytes.take (fault.getD bytes.length)
  set { store with disk := { store.disk with log := store.disk.log ++ written } }
  throwIf (written.length < bytes.length) (JournalError.standard (.runtimeError "failed to write journal file contents"))

def writeReplaceAtomic (fault : Option Error) (bytes : Bytes) : EStateM JournalError Store Unit := do
  match fault with
  | some e => throw (.standard e)
  | none => modify fun store => { store with disk := { store.disk with head := some bytes } }

def append (crypto : Crypto) (env : JournalEnv) (given : JournalEntryFields) :
    EStateM JournalError Store JournalEntry := do
  let fields := if given.timestamp = 0 then { given with timestamp := env.now } else given
  let store ← get
  let journal := store.journal
  checkTransition (journal.lastStateByTrade fields.tradeId) fields.localState
    "attempted to append an invalid local state transition"
  let index := UInt64.ofNat journal.entries.length
  let content ← canonicalEntryBytes index fields
  let entryHash := crypto.sha256 (content ++ journal.chainHead.toList)
  let body := content ++ (journal.chainHead.toList ++ entryHash.toList)
  writeAllAndSync env.logFault (Framing.Frame.encode ⟨recordKindEntry, body⟩)
  throwIf (vectorMaxSize ≤ journal.entries.length) vectorFull
  let entry : JournalEntry := { index, fields, previousHash := journal.chainHead, entryHash }
  modify fun store => { store with journal := journal.push entry }
  return entry

def nothingToCheckpoint : JournalError := .standard (.logicError "cannot checkpoint a journal with no entries")

def checkpoint (crypto : Crypto) (env : JournalEnv) (seed : Ed25519PrivateSeed) : EStateM JournalError Store Unit := do
  let store ← get
  let journal := store.journal
  match journal.entries.getLast? with
  | none => throw nothingToCheckpoint
  | some last => do
      let index := last.index
      let hash := journal.chainHead
      let signedAt := env.now
      let signature ← standard (crypto.ed25519.sign seed env.entropy (checkpointSignedBytes index hash signedAt))
      let body := Checkpoint.body { index, hash, signedAt, signature }
      writeAllAndSync env.logFault (Framing.Frame.encode ⟨recordKindCheckpoint, body⟩)
      writeReplaceAtomic env.headFault (encodeHead { index, hash, signedAt, signature := signature.toList })
      modify fun store => { store with journal := journal.checkpointedAt index }

def checkpointMldsa65 (crypto : Crypto) (env : JournalEnv) (seed : MlDsa65PrivateSeed) :
    EStateM JournalError Store Unit := do
  let store ← get
  let journal := store.journal
  match journal.entries.getLast? with
  | none => throw nothingToCheckpoint
  | some last => do
      let suiteId := checkpointSuiteMlDsa65V1
      let index := last.index
      let hash := journal.chainHead
      let signedAt := env.now
      let signature ← standard (crypto.mldsa65.sign seed env.entropy
        (checkpointSuiteSignedBytes suiteId index hash signedAt))
      let head : HeadPointer := { suiteId, index, hash, signedAt, signature := signature.toList }
      writeAllAndSync env.logFault (Framing.Frame.encode ⟨recordKindCheckpointSuiteV1, head.body⟩)
      writeReplaceAtomic env.headFault (encodeHead head)
      modify fun store => { store with journal := journal.checkpointedAt index }

inductive Call where
  | append (fields : JournalEntryFields)
  | checkpoint (seed : Ed25519PrivateSeed)
  | checkpointMldsa65 (seed : MlDsa65PrivateSeed)

def perform (crypto : Crypto) : Machine.Object JournalError Store (JournalEnv × Call)
  | (env, .append fields) => do
      let _ ← append crypto env fields
      return
  | (env, .checkpoint seed) => checkpoint crypto env seed
  | (env, .checkpointMldsa65 seed) => checkpointMldsa65 crypto env seed

/-! Opening. -/

def replayEntry (crypto : Crypto) (journal : Journal) (body : Bytes) : Except JournalError Journal := do
  let (entry, content) ← readEntry body
  throwIf (entry.index.toNat ≠ journal.entries.length)
    (.tamper "journal entry index out of sequence (deleted, reordered, or inserted entry)")
  throwIf (entry.previousHash ≠ journal.chainHead)
    (.tamper "journal chain link mismatch (entry does not follow the previous one)")
  throwIf (crypto.sha256 (content ++ entry.previousHash.toList) ≠ entry.entryHash)
    (.tamper "journal entry hash does not match its recomputation (content tampered)")
  checkTransition (journal.lastStateByTrade entry.fields.tradeId) entry.fields.localState
    "malformed local state transition detected during journal replay"
  throwIf (vectorMaxSize ≤ journal.entries.length) vectorFull
  return journal.push entry

-- The hash of the entry at an index, where there is one.
def hashAt (journal : Journal) (index : UInt64) : Option JournalHash :=
  journal.entries[index.toNat]?.map JournalEntry.entryHash

-- Both checkpoint kinds refer to the entries before them in the same way.
def checkReference (journal : Journal) (index : UInt64) (hash : JournalHash) : Except JournalError Unit := do
  throwIf (journal.entries.length ≤ index.toNat)
    (.tamper "checkpoint references an entry index that has not occurred yet")
  throwIf (journal.hashAt index ≠ some hash)
    (.tamper "checkpoint hash does not match the entry it claims to checkpoint")
  throwIf (journal.hasCheckpoint ∧ index < journal.lastCheckpointIndex)
    (.tamper "checkpoint index moved backward (rollback to an older checkpoint within the same log)")

def unverified : JournalError :=
  .tamper "checkpoint signature does not verify against the local-history public key"

def replayCheckpoint (crypto : Crypto) (keys : HistoryKeys) (journal : Journal) (body : Bytes) :
    Except JournalError Journal := do
  let c ← Wire.readAll JournalReader.trailing decodeCheckpoint body
  checkReference journal c.index c.hash
  let verified ← standard (crypto.ed25519.verify keys.ed25519 (checkpointSignedBytes c.index c.hash c.signedAt)
    c.signature)
  throwIf (¬verified) unverified
  return journal.checkpointedAt c.index

def verifyMldsa65 (crypto : Crypto) (keys : HistoryKeys) (noKey : String) (c : HeadPointer) : Except JournalError Bool :=
  match keys.mldsa65 with
  | none => .error (.tamper noKey)
  | some key => standard (crypto.mldsa65.verify key
      (checkpointSuiteSignedBytes c.suiteId c.index c.hash c.signedAt) (fixedFrom c.signature))

def verifySuiteCheckpoint (crypto : Crypto) (keys : HistoryKeys) (c : HeadPointer) : Except JournalError Bool :=
  if c.suiteId = checkpointSuiteMlDsa65V1 then
    verifyMldsa65 crypto keys ("journal contains an ML-DSA-65 checkpoint but no ML-DSA-65 " ++
      "local-history public key was supplied to verify it against") c
  else if c.suiteId = checkpointSuiteEd25519V1 then
    standard (crypto.ed25519.verify keys.ed25519
      (checkpointSuiteSignedBytes c.suiteId c.index c.hash c.signedAt) (fixedFrom c.signature))
  else .error (.format "unknown journal checkpoint suite id")

def replayCheckpointSuite (crypto : Crypto) (keys : HistoryKeys) (journal : Journal) (body : Bytes) :
    Except JournalError Journal := do
  let (c, _) ← decodeSuiteCheckpoint (.format "journal checkpoint signature length does not match its suite id") body
  checkReference journal c.index c.hash
  let verified ← verifySuiteCheckpoint crypto keys c
  throwIf (¬verified) unverified
  return journal.checkpointedAt c.index

def replayRecord (crypto : Crypto) (keys : HistoryKeys) (journal : Journal) (record : Framing.Frame) :
    Except JournalError Journal :=
  if record.kind = recordKindEntry then replayEntry crypto journal record.body
  else if record.kind = recordKindCheckpoint then replayCheckpoint crypto keys journal record.body
  else if record.kind = recordKindCheckpointSuiteV1 then replayCheckpointSuite crypto keys journal record.body
  else .error (.format "unknown journal record kind")

def verifyHead (crypto : Crypto) (keys : HistoryKeys) (head : HeadPointer) : Except JournalError Bool :=
  if head.suiteId = checkpointSuiteMlDsa65V1 then
    verifyMldsa65 crypto keys ("journal head-pointer file is an ML-DSA-65 checkpoint but no ML-DSA-65 " ++
      "local-history public key was supplied to verify it against") head
  else standard (crypto.ed25519.verify keys.ed25519 (checkpointSignedBytes head.index head.hash head.signedAt)
    (fixedFrom head.signature))

def behindHead : JournalError :=
  .rollback ("journal head-pointer file references a checkpoint further along than " ++
    "the main log replays to - the main log looks like an older copy of itself")

def checkHead (crypto : Crypto) (keys : HistoryKeys) (journal : Journal) (bytes : Bytes) : Except JournalError Unit := do
  let head ← decodeHead bytes
  let verified ← verifyHead crypto keys head
  throwIf (¬verified) (.tamper ("journal head-pointer file signature does not verify - " ++
    "possibly corrupted or forged independently of the main log"))
  throwIf (¬journal.hasCheckpoint ∨ head.index > journal.lastCheckpointIndex) behindHead
  throwIf (head.index.toNat < journal.entries.length ∧ journal.hashAt head.index ≠ some head.hash)
    (.tamper "journal head-pointer file's hash does not match the corresponding entry in the main log")

def oversize : JournalError := .format "journal record body exceeds maximum allowed length"

/- Replays the log, cuts a torn last record off the file, and compares with the head pointer if there
is one. A failed comparison comes after the cut. -/
def «open» (crypto : Crypto) (keys : HistoryKeys) : EStateM JournalError Disk Journal := do
  let disk ← get
  let (journal, torn) ← Framing.scan maxRecordBodyLength oversize (replayRecord crypto keys) {} disk.log
  if !torn.isEmpty then set { disk with log := disk.log.take (disk.log.length - torn.length) }
  match disk.head with
  | none => return journal
  | some bytes => do
      checkHead crypto keys journal bytes
      return journal

end Journal
end TradeP2P
