import TradeP2P.Lib.Framing
import TradeP2P.Mediator.Session
import TradeP2P.Protocol.Crypto

/-! The files of a client's journal: the records of the log, the head pointer, and the bytes a
checkpoint signs. Every reader is paired with the lemma that it reads what is written. -/
namespace TradeP2P
open Wire (Bytes Reader Reads Exhausts ascii bigEndian)
open Checks

inductive JournalError where
  | format (text : String)
  | tamper (text : String)
  | rollback (text : String)
  | standard (e : Error)
  deriving DecidableEq, Repr

abbrev JournalHash := Vector UInt8 32
abbrev TradeId := Vector UInt8 16

def SessionState.toByte : SessionState → UInt8
  | .waitingForPeer => 0
  | .waitingForSent => 1
  | .waitingForReceived => 2
  | .waitingForFeeSent => 3
  | .complete => 4
  | .aborted => 5
  | .waitingForFinalReceiptAck => 6
  | .waitingForFeeConfirmation => 7

def SessionState.ofByte (byte : UInt8) : Option SessionState :=
  [.waitingForPeer, .waitingForSent, .waitingForReceived, .waitingForFeeSent, .complete, .aborted,
    .waitingForFinalReceiptAck, .waitingForFeeConfirmation][byte.toNat]?

/- The four enumerations are held as the integers under them: the reader casts any value it finds,
and only the local state is ever looked at. -/
structure JournalEntryFields where
  version : UInt16 := 1
  roomId : RoomId
  tradeId : TradeId
  mediatorId : Bytes
  counterpartyFingerprint : Vector UInt8 32
  termsCommitment : JournalHash
  round : UInt32
  direction : UInt8
  messageType : UInt16
  messageHash : JournalHash
  ackState : UInt8
  localState : UInt8
  timestamp : UInt64
  deriving DecidableEq, Repr

structure JournalEntry where
  index : UInt64
  fields : JournalEntryFields
  previousHash : JournalHash
  entryHash : JournalHash
  deriving DecidableEq, Repr

def journalMaxMediatorIdLength : Nat := 256
def recordKindEntry : UInt8 := 1
def recordKindCheckpoint : UInt8 := 2
def recordKindCheckpointSuiteV1 : UInt8 := 3
def maxRecordBodyLength : Nat := 16384
def checkpointSuiteEd25519V1 : UInt16 := 1
def checkpointSuiteMlDsa65V1 : UInt16 := 2
def headMagic : Vector UInt8 4 := #v[0x54, 0x50, 0x4a, 0x48]
def headFormatVersion : UInt16 := 1
def headFormatVersionSuiteV1 : UInt16 := 2
def genesisHash : JournalHash := Vector.replicate 32 0

namespace JournalReader

def truncated : JournalError := .format "truncated journal record"
def trailing : JournalError := .format "trailing bytes after journal record body"

abbrev u8 : Reader JournalError UInt8 := Wire.u8 truncated
abbrev u16 : Reader JournalError UInt16 := Wire.u16 truncated
abbrev u32 : Reader JournalError UInt32 := Wire.u32 truncated
abbrev u64 : Reader JournalError UInt64 := Wire.u64 truncated
abbrev fixed (n : Nat) : Reader JournalError (Vector UInt8 n) := Wire.fixed truncated n

def stringU16 (maxLength : Nat) : Reader JournalError Bytes := do
  let length ← u16
  throwIf (length.toNat > maxLength) (JournalError.format "journal field exceeds maximum allowed length")
  Wire.take truncated length.toNat

-- A trailing signature has no length of its own: its suite says how long it must be.
def signatureRemaining (expected : Nat) (e : JournalError) : Reader JournalError Bytes := fun rest =>
  if expected = 0 ∨ rest.length ≠ expected then .error e else .ok (rest, [])

theorem readsStringU16 {maxLength : Nat} {text : Bytes} (short : text.length ≤ maxLength)
    (bound : maxLength < 2 ^ 16) : Reads (stringU16 maxLength) (bigEndian 2 text.length ++ text) text := by
  have size : (UInt16.ofNat text.length).toNat = text.length := by
    rw [UInt16.toNat_ofNat', Nat.mod_eq_of_lt (by omega)]
  have length := Wire.readsU16 truncated (UInt16.ofNat text.length)
  rw [size] at length
  refine length.bind ?_
  refine .behind (throwIf_not (by omega)) ?_
  rw [size]
  exact Wire.readsTake truncated text

theorem exhaustsSignature {expected : Nat} {signature : Bytes} (e : JournalError) (some : expected ≠ 0)
    (length : signature.length = expected) : Exhausts (signatureRemaining expected e) signature signature := by
  simp [Exhausts, signatureRemaining, some, length]

end JournalReader
open JournalReader

/-! Entries. -/

def fieldBytes (fields : JournalEntryFields) : Bytes :=
  bigEndian 2 fields.version.toNat ++ (fields.roomId.toList ++ (fields.tradeId.toList ++
    ((bigEndian 2 fields.mediatorId.length ++ fields.mediatorId) ++
    (fields.counterpartyFingerprint.toList ++ (fields.termsCommitment.toList ++
    (bigEndian 4 fields.round.toNat ++ (bigEndian 1 fields.direction.toNat ++
    (bigEndian 2 fields.messageType.toNat ++ (fields.messageHash.toList ++
    (bigEndian 1 fields.ackState.toNat ++ (bigEndian 1 fields.localState.toNat ++
    bigEndian 8 fields.timestamp.toNat)))))))))))

def entryBytes (index : UInt64) (fields : JournalEntryFields) : Bytes :=
  bigEndian 8 index.toNat ++ fieldBytes fields

def canonicalEntryBytes (index : UInt64) (fields : JournalEntryFields) : Except JournalError Bytes := do
  throwIf (fields.mediatorId.length > journalMaxMediatorIdLength)
    (.standard (.invalidArgument "journal mediator id exceeds maximum length"))
  return entryBytes index fields

def decodeEntryFields : Reader JournalError JournalEntryFields := do
  let version ← u16
  let roomId ← fixed 32
  let tradeId ← fixed 16
  let mediatorId ← stringU16 journalMaxMediatorIdLength
  let counterpartyFingerprint ← fixed 32
  let termsCommitment ← fixed 32
  let round ← u32
  let direction ← u8
  let messageType ← u16
  let messageHash ← fixed 32
  let ackState ← u8
  let localState ← u8
  let timestamp ← u64
  return { version, roomId, tradeId, mediatorId, counterpartyFingerprint, termsCommitment, round,
           direction, messageType, messageHash, ackState, localState, timestamp }

def readEntryContent : Reader JournalError (UInt64 × JournalEntryFields) := do
  let index ← u64
  let fields ← decodeEntryFields
  return (index, fields)

def readLinks : Reader JournalError (JournalHash × JournalHash) := do
  let previousHash ← fixed 32
  let entryHash ← fixed 32
  return (previousHash, entryHash)

-- The entry of a record body, with the part of the body its hash covers.
def readEntry (body : Bytes) : Except JournalError (JournalEntry × Bytes) := do
  let ((index, fields), rest) ← readEntryContent body
  let (previousHash, entryHash) ← Wire.readAll trailing readLinks rest
  return (⟨index, fields, previousHash, entryHash⟩, body.take (body.length - rest.length))

def JournalEntry.body (e : JournalEntry) : Bytes :=
  entryBytes e.index e.fields ++ (e.previousHash.toList ++ e.entryHash.toList)

theorem readsEntryFields (fields : JournalEntryFields)
    (short : fields.mediatorId.length ≤ journalMaxMediatorIdLength) :
    Reads decodeEntryFields (fieldBytes fields) fields := by
  refine (Wire.readsU16 _ fields.version).bind ?_
  refine (Wire.readsFixed _ fields.roomId).bind ?_
  refine (Wire.readsFixed _ fields.tradeId).bind ?_
  refine (readsStringU16 short (by decide)).bind ?_
  refine (Wire.readsFixed _ fields.counterpartyFingerprint).bind ?_
  refine (Wire.readsFixed _ fields.termsCommitment).bind ?_
  refine (Wire.readsU32 _ fields.round).bind ?_
  refine (Wire.readsU8 _ fields.direction).bind ?_
  refine (Wire.readsU16 _ fields.messageType).bind ?_
  refine (Wire.readsFixed _ fields.messageHash).bind ?_
  refine (Wire.readsU8 _ fields.ackState).bind ?_
  refine (Wire.readsU8 _ fields.localState).bind ?_
  exact (Wire.readsU64 _ fields.timestamp).returns _

theorem readsEntryContent (index : UInt64) (fields : JournalEntryFields)
    (short : fields.mediatorId.length ≤ journalMaxMediatorIdLength) :
    Reads readEntryContent (entryBytes index fields) (index, fields) :=
  (Wire.readsU64 _ index).bind ((readsEntryFields fields short).returns _)

theorem readsLinks (previousHash entryHash : JournalHash) :
    Reads readLinks (previousHash.toList ++ entryHash.toList) (previousHash, entryHash) :=
  (Wire.readsFixed _ previousHash).bind ((Wire.readsFixed _ entryHash).returns _)

theorem readEntryBody {e : JournalEntry} (short : e.fields.mediatorId.length ≤ journalMaxMediatorIdLength) :
    readEntry e.body = .ok (e, entryBytes e.index e.fields) := by
  have content := readsEntryContent e.index e.fields short (e.previousHash.toList ++ e.entryHash.toList)
  have links := (readsLinks e.previousHash e.entryHash).exhausts.readAll trailing
  have front : e.body.take (e.body.length - (e.previousHash.toList ++ e.entryHash.toList).length) =
      entryBytes e.index e.fields := by
    simp only [JournalEntry.body, List.length_append, Nat.add_sub_cancel, List.take_left]
  rw [readEntry, show e.body = entryBytes e.index e.fields ++ (e.previousHash.toList ++ e.entryHash.toList) from rfl,
    content]
  simp only [bind, Except.bind, links]
  rw [show entryBytes e.index e.fields ++ (e.previousHash.toList ++ e.entryHash.toList) = e.body from rfl, front]
  rfl

theorem lengthEntryBytes (index : UInt64) (fields : JournalEntryFields) :
    (entryBytes index fields).length = 173 + fields.mediatorId.length := by
  simp only [entryBytes, fieldBytes, List.length_append, Wire.bigEndianLength, Vector.length_toList]
  omega

/-! Checkpoints. What is signed is a label, the suite where the record names one, and the three
fields behind it. -/

-- The label is short, so the length check of the writer never fires.
def bytesU16 (label : String) : Bytes := bigEndian 2 (ascii label).length ++ ascii label

def checkpointSignedBytes (index : UInt64) (hash : JournalHash) (signedAt : UInt64) : Bytes :=
  bytesU16 "tradep2p-journal-checkpoint-v1" ++ (bigEndian 8 index.toNat ++ (hash.toList ++
    bigEndian 8 signedAt.toNat))

def checkpointSuiteSignedBytes (suiteId : UInt16) (index : UInt64) (hash : JournalHash) (signedAt : UInt64) : Bytes :=
  bytesU16 "tradep2p-journal-checkpoint-suite-v1" ++ (bigEndian 2 suiteId.toNat ++ (bigEndian 8 index.toNat ++
    (hash.toList ++ bigEndian 8 signedAt.toNat)))

def expectedCheckpointSignatureLength (suiteId : UInt16) : Nat :=
  if suiteId = checkpointSuiteEd25519V1 then 64
  else if suiteId = checkpointSuiteMlDsa65V1 then 3309
  else 0

structure Checkpoint where
  index : UInt64
  hash : JournalHash
  signedAt : UInt64
  signature : Ed25519Signature
  deriving DecidableEq, Repr

-- A suite-tagged record of the log holds the same five fields as the head pointer.
structure HeadPointer where
  suiteId : UInt16 := checkpointSuiteEd25519V1
  index : UInt64
  hash : JournalHash
  signedAt : UInt64
  signature : Bytes
  deriving DecidableEq, Repr

def Checkpoint.body (c : Checkpoint) : Bytes :=
  bigEndian 8 c.index.toNat ++ (c.hash.toList ++ (bigEndian 8 c.signedAt.toNat ++ c.signature.toList))

def HeadPointer.body (c : HeadPointer) : Bytes :=
  bigEndian 2 c.suiteId.toNat ++ (bigEndian 8 c.index.toNat ++ (c.hash.toList ++
    (bigEndian 8 c.signedAt.toNat ++ c.signature)))

def decodeCheckpoint : Reader JournalError Checkpoint := do
  let index ← u64
  let hash ← fixed 32
  let signedAt ← u64
  let signature ← fixed 64
  return { index, hash, signedAt, signature }

def decodeSuiteCheckpoint (mismatch : JournalError) : Reader JournalError HeadPointer := do
  let suiteId ← u16
  let index ← u64
  let hash ← fixed 32
  let signedAt ← u64
  let signature ← signatureRemaining (expectedCheckpointSignatureLength suiteId) mismatch
  return { suiteId, index, hash, signedAt, signature }

def HeadPointer.WellSized (c : HeadPointer) : Prop :=
  expectedCheckpointSignatureLength c.suiteId ≠ 0 ∧
    c.signature.length = expectedCheckpointSignatureLength c.suiteId

theorem readsCheckpoint (c : Checkpoint) : Reads decodeCheckpoint c.body c :=
  (Wire.readsU64 _ c.index).bind ((Wire.readsFixed _ c.hash).bind ((Wire.readsU64 _ c.signedAt).bind
    ((Wire.readsFixed _ c.signature).returns _)))

theorem exhaustsSuiteCheckpoint {c : HeadPointer} (sized : c.WellSized) (mismatch : JournalError) :
    Exhausts (decodeSuiteCheckpoint mismatch) c.body c :=
  (Wire.readsU16 _ c.suiteId).bindExhausts ((Wire.readsU64 _ c.index).bindExhausts
    ((Wire.readsFixed _ c.hash).bindExhausts ((Wire.readsU64 _ c.signedAt).bindExhausts
    ((exhaustsSignature mismatch sized.1 sized.2).returns _))))

/-! The head pointer. -/

def encodeHead (head : HeadPointer) : Bytes :=
  if head.suiteId = checkpointSuiteEd25519V1 then
    headMagic.toList ++ (bigEndian 2 headFormatVersion.toNat ++ (bigEndian 8 head.index.toNat ++
      (head.hash.toList ++ (bigEndian 8 head.signedAt.toNat ++ head.signature))))
  else headMagic.toList ++ (bigEndian 2 headFormatVersionSuiteV1.toNat ++ head.body)

def readHead : Reader JournalError HeadPointer := do
  let magic ← fixed 4
  throwIf (magic ≠ headMagic) (JournalError.format "not a tradep2p journal head-pointer file (bad magic)")
  let version ← u16
  if version = headFormatVersion then do
    let c ← decodeCheckpoint
    return { index := c.index, hash := c.hash, signedAt := c.signedAt, signature := c.signature.toList }
  else if version = headFormatVersionSuiteV1 then
    decodeSuiteCheckpoint (.format "journal head-pointer signature length does not match its suite id")
  else throw (.format "unsupported journal head-pointer format version")

def decodeHead (bytes : Bytes) : Except JournalError HeadPointer := Wire.readAll trailing readHead bytes

theorem exhaustsHead {head : HeadPointer} (sized : head.WellSized) : Exhausts readHead (encodeHead head) head := by
  unfold encodeHead
  split
  · next ed25519 =>
      obtain ⟨suiteId, index, hash, signedAt, signature⟩ := head
      obtain rfl : suiteId = checkpointSuiteEd25519V1 := ed25519
      have length : signature.toArray.size = 64 := by simpa [expectedCheckpointSignatureLength] using sized.2
      refine (Wire.readsFixed _ headMagic).bindExhausts (.behind (throwIf_not (by simp)) ?_)
      refine (Wire.readsU16 _ headFormatVersion).bindExhausts ?_
      exact ((readsCheckpoint ⟨index, hash, signedAt, ⟨signature.toArray, length⟩⟩).returns _).exhausts
  · refine (Wire.readsFixed _ headMagic).bindExhausts (.behind (throwIf_not (by simp)) ?_)
    refine (Wire.readsU16 _ headFormatVersionSuiteV1).bindExhausts ?_
    exact exhaustsSuiteCheckpoint sized _

theorem decodeEncodedHead {head : HeadPointer} (sized : head.WellSized) : decodeHead (encodeHead head) = .ok head :=
  (exhaustsHead sized).readAll _

/-! Records of the log. -/

inductive Record where
  | entry (e : JournalEntry)
  | checkpoint (c : Checkpoint)
  | checkpointSuiteV1 (c : HeadPointer)
  deriving DecidableEq, Repr

def Record.frame : Record → Framing.Frame
  | .entry e => ⟨recordKindEntry, e.body⟩
  | .checkpoint c => ⟨recordKindCheckpoint, c.body⟩
  | .checkpointSuiteV1 c => ⟨recordKindCheckpointSuiteV1, c.body⟩

def Record.bytes (r : Record) : Bytes := r.frame.encode

end TradeP2P
