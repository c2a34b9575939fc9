import TradeP2P.Lib.Aead
import TradeP2P.Lib.Fields
import TradeP2P.Lib.Machine
import TradeP2P.Protocol.Terms

/-! A client's own record of the counterparties it has met. Entries go by a fingerprint and a mediator
together. Every change rewrites the whole store as one sealed file. -/
namespace TradeP2P
open Wire (Bytes Reader ascii bigEndian readMany writeMany readAll lengthPrefixed)
open Checks Machine
open Aead (Cipher Sealed)

inductive HistoryError where
  | format (text : String)
  | authentication (text : String)
  | standard (e : Error)
  deriving DecidableEq, Repr

def historyFormatVersion : UInt16 := 1
def historyMaxMediatorIdLength : Nat := 256
def historyMaxNoteLength : Nat := 4096
def historyMaxNotesPerEntry : Nat := 256
def historyMaxOutcomesPerEntry : Nat := 4096
def historyMaxEvidenceHashesPerEntry : Nat := 256
def historyMaxEntries : Nat := 4096
def historyMagic : Vector UInt8 4 := #v[0x54, 0x50, 0x43, 0x48]
def historyMaxCiphertextLength : Nat := 64 * 1024 * 1024

abbrev CounterpartyFingerprint := Vector UInt8 32
abbrev EvidenceHash := Vector UInt8 32

inductive FingerprintScope where | perMediator
  deriving DecidableEq, Repr

inductive LocalOutcome where | unknown | successful | incomplete
  deriving DecidableEq, Repr

inductive ConfidenceLevel where | unknown | low | medium | high
  deriving DecidableEq, Repr

inductive DisplayCategory where
  | unknownIdentity
  | previouslyEncountered
  | previousSuccessfulInteraction
  | previousIncompleteInteraction
  | locallyBlocked
  deriving DecidableEq, Repr

def FingerprintScope.toByte : FingerprintScope → UInt8
  | .perMediator => 1

def LocalOutcome.toByte : LocalOutcome → UInt8
  | .unknown => 0
  | .successful => 1
  | .incomplete => 2

def ConfidenceLevel.toByte : ConfidenceLevel → UInt8
  | .unknown => 0
  | .low => 1
  | .medium => 2
  | .high => 3

def blockedByte (locallyBlocked : Bool) : UInt8 := if locallyBlocked then 1 else 0

structure HistoryNote where
  recordedAt : UInt64
  text : Bytes
  deriving DecidableEq, Repr

structure CounterpartyHistoryEntry where
  fingerprint : CounterpartyFingerprint
  scope : FingerprintScope := .perMediator
  mediatorId : Bytes
  firstSeen : UInt64
  lastSeen : UInt64
  encounterCount : UInt64 := 0
  outcomeLabels : List LocalOutcome := []
  locallyBlocked : Bool := false
  notes : List HistoryNote := []
  evidenceHashes : List EvidenceHash := []
  confidence : ConfidenceLevel := .unknown
  deriving DecidableEq, Repr

/-! What is shown of an entry. -/

def classifyForDisplay : Option CounterpartyHistoryEntry → DisplayCategory
  | none => .unknownIdentity
  | some entry =>
      if entry.locallyBlocked then .locallyBlocked
      else if .incomplete ∈ entry.outcomeLabels then .previousIncompleteInteraction
      else if .successful ∈ entry.outcomeLabels then .previousSuccessfulInteraction
      else if entry.encounterCount = 0 then .unknownIdentity
      else .previouslyEncountered

def settlementCount (entry : CounterpartyHistoryEntry) : Nat := entry.outcomeLabels.count .successful
def incompleteCount (entry : CounterpartyHistoryEntry) : Nat := entry.outcomeLabels.count .incomplete

/-! Entries on disk. -/

namespace HistoryCodec

def invalid (text : String) : HistoryError := .standard (.invalidArgument text)
def truncated : HistoryError := .format "truncated history file"
def trailing : HistoryError := .format "trailing bytes after history record"

abbrev u8 : Reader HistoryError UInt8 := Wire.u8 truncated
abbrev u16 : Reader HistoryError UInt16 := Wire.u16 truncated
abbrev u32 : Reader HistoryError UInt32 := Wire.u32 truncated
abbrev u64 : Reader HistoryError UInt64 := Wire.u64 truncated
abbrev fixed (n : Nat) : Reader HistoryError (Vector UInt8 n) := Wire.fixed truncated n

def stringU16 (maxLen : Nat) : Reader HistoryError Bytes :=
  Wire.takePrefixed truncated (.format "history field exceeds maximum allowed length") maxLen

def bytesU32 (maxLen : Nat) : Reader HistoryError Bytes :=
  Wire.takePrefixed32 truncated (.format "history payload exceeds maximum allowed length") maxLen

-- The values a byte may stand for, in the order of an enumeration, and what is thrown at any other.
def oneOf {α : Type} (values : List (UInt8 × α)) (unknown : String) : Reader HistoryError α := do
  let raw ← u8
  match values.lookup raw with
  | some value => return value
  | none => throw (.format unknown)

def scopes : List (UInt8 × FingerprintScope) := [(1, .perMediator)]
def outcomes : List (UInt8 × LocalOutcome) := [(0, .unknown), (1, .successful), (2, .incomplete)]
def flags : List (UInt8 × Bool) := [(0, false), (1, true)]
def levels : List (UInt8 × ConfidenceLevel) := [(0, .unknown), (1, .low), (2, .medium), (3, .high)]

def encodeNote (note : HistoryNote) : Except HistoryError Bytes := do
  let text ← lengthPrefixed (invalid "history field exceeds protocol limit") note.text historyMaxNoteLength
  return bigEndian 8 note.recordedAt.toNat ++ text

def readNote : Reader HistoryError HistoryNote := do
  let recordedAt ← u64
  let text ← stringU16 historyMaxNoteLength
  return { recordedAt, text }

def encodeOutcome (outcome : LocalOutcome) : Except HistoryError Bytes := .ok [outcome.toByte]

def readOutcome : Reader HistoryError LocalOutcome := oneOf outcomes "unknown local outcome identifier"

def encodeHash (hash : EvidenceHash) : Except HistoryError Bytes := .ok hash.toList

def encodeEntry (entry : CounterpartyHistoryEntry) : Except HistoryError Bytes := do
  let mediatorId ← lengthPrefixed (invalid "history field exceeds protocol limit") entry.mediatorId
    historyMaxMediatorIdLength
  throwIf (entry.outcomeLabels.length > 65535) (invalid "history entry has too many outcome labels")
  let outcomeLabels ← writeMany encodeOutcome entry.outcomeLabels
  throwIf (entry.notes.length > 65535) (invalid "history entry has too many notes")
  let notes ← writeMany encodeNote entry.notes
  throwIf (entry.evidenceHashes.length > 65535) (invalid "history entry has too many evidence hashes")
  let evidenceHashes ← writeMany encodeHash entry.evidenceHashes
  return entry.fingerprint.toList ++ ([entry.scope.toByte] ++ (mediatorId ++
    (bigEndian 8 entry.firstSeen.toNat ++ (bigEndian 8 entry.lastSeen.toNat ++
    (bigEndian 8 entry.encounterCount.toNat ++
    (bigEndian 2 entry.outcomeLabels.length ++ (outcomeLabels ++
    ([blockedByte entry.locallyBlocked] ++
    (bigEndian 2 entry.notes.length ++ (notes ++
    (bigEndian 2 entry.evidenceHashes.length ++ (evidenceHashes ++
    [entry.confidence.toByte]))))))))))))

def decodeEntry : Reader HistoryError CounterpartyHistoryEntry := do
  let fingerprint ← fixed 32
  let scope ← oneOf scopes "unknown fingerprint scope identifier"
  let mediatorId ← stringU16 historyMaxMediatorIdLength
  let firstSeen ← u64
  let lastSeen ← u64
  let encounterCount ← u64
  let outcomeCount ← u16
  let outcomeLabels ← readMany readOutcome outcomeCount.toNat
  let locallyBlocked ← oneOf flags "invalid locally_blocked flag"
  let noteCount ← u16
  let notes ← readMany readNote noteCount.toNat
  let evidenceCount ← u16
  let evidenceHashes ← readMany (fixed 32) evidenceCount.toNat
  let confidence ← oneOf levels "unknown confidence level identifier"
  return { fingerprint, scope, mediatorId, firstSeen, lastSeen, encounterCount, outcomeLabels, locallyBlocked,
           notes, evidenceHashes, confidence }

def encodePayload (entries : List CounterpartyHistoryEntry) : Except HistoryError Bytes := do
  throwIf (entries.length > 4294967295) (invalid "history store has too many entries to encode")
  let written ← writeMany encodeEntry entries
  return bigEndian 4 entries.length ++ written

def readPayload : Reader HistoryError (List CounterpartyHistoryEntry) := do
  let count ← u32
  throwIf (count.toNat > historyMaxEntries)
    (HistoryError.format "history store exceeds maximum allowed entry count")
  readMany decodeEntry count.toNat

def decodePayload (plaintext : Bytes) : Except HistoryError (List CounterpartyHistoryEntry) :=
  readAll trailing readPayload plaintext

/-! The file: a header, which is also the associated data, and the sealed entries. -/

structure DecodedFile where
  formatVersion : UInt16
  nonce : Aead.Nonce
  ciphertext : Bytes
  tag : Aead.Tag
  aad : Bytes
  deriving DecidableEq, Repr

def readFile (bytes : Bytes) : Reader HistoryError DecodedFile := do
  let magic ← fixed 4
  throwIf (magic ≠ historyMagic) (HistoryError.format "not a tradep2p counterparty history file (bad magic)")
  let formatVersion ← u16
  throwIf (formatVersion ≠ historyFormatVersion) (HistoryError.format "unsupported history file format version")
  let aadLength ← Wire.position bytes
  let nonce ← fixed 12
  let ciphertext ← bytesU32 historyMaxCiphertextLength
  let tag ← fixed 16
  return { formatVersion, nonce, ciphertext, tag, aad := bytes.take aadLength }

def decodeFile (bytes : Bytes) : Except HistoryError DecodedFile := readAll trailing (readFile bytes) bytes

def header : Bytes := historyMagic.toList ++ bigEndian 2 historyFormatVersion.toNat

def fileBytes (nonce : Aead.Nonce) (sealing : Sealed) : Bytes :=
  header ++ (nonce.toList ++ (bigEndian 4 sealing.ciphertext.length ++ (sealing.ciphertext ++ sealing.tag.toList)))

end HistoryCodec
open HistoryCodec

/-! The store, and the file it is kept in. -/

structure LocalCounterpartyHistory where
  aeadKey : Aead.Key
  entries : List CounterpartyHistoryEntry := []
  deriving DecidableEq, Repr

/- What a call meets outside: the clock, the randomness, and whether the file can be replaced. -/
structure HistoryEnv where
  nowUnixSeconds : UInt64
  nonce : Except Error Aead.Nonce
  writeReplaceAtomic : Except Error Unit

structure HistoryOnDisk where
  file : Option Bytes := none
  history : LocalCounterpartyHistory
  deriving DecidableEq, Repr

abbrev HistoryM := EStateM HistoryError HistoryOnDisk

-- Callers give zero for the present.
def HistoryEnv.orNow (env : HistoryEnv) (now : UInt64) : UInt64 := if now = 0 then env.nowUnixSeconds else now

/- What the file system or the library throws. -/
def standardly {α : Type} : Except Error α → Except HistoryError α
  | .ok value => .ok value
  | .error e => .error (.standard e)

namespace LocalCounterpartyHistory

def openEntries (cipher : Cipher) (aeadKey : Aead.Key) (raw : Bytes) :
    Except HistoryError (List CounterpartyHistoryEntry) := do
  let decoded ← decodeFile raw
  match cipher.decrypt aeadKey decoded.nonce decoded.aad decoded.ciphertext decoded.tag with
  | some plaintext => decodePayload plaintext
  | none => throw (.authentication "history authentication failed (wrong keystore or corrupted file)")

-- A missing file is an empty store.
def openStore (cipher : Cipher) (aeadKey : Aead.Key) : Option Bytes → Except HistoryError LocalCounterpartyHistory
  | none => return { aeadKey }
  | some raw => do
      let entries ← openEntries cipher aeadKey raw
      return { aeadKey, entries }

def chacha20poly1305Seal (cipher : Cipher) (key : Aead.Key) (nonce : Aead.Nonce) (aad plaintext : Bytes) :
    Except HistoryError Sealed :=
  match cipher.encrypt key nonce aad plaintext with
  | some sealing => .ok sealing
  | none => .error (.standard (.runtimeError "failed to encrypt history payload"))

def persist (cipher : Cipher) (env : HistoryEnv) : HistoryM Unit := do
  let s ← get
  let plaintextPayload ← encodePayload s.history.entries
  let nonce ← standardly env.nonce
  let sealing ← chacha20poly1305Seal cipher s.history.aeadKey nonce header plaintextPayload
  standardly env.writeReplaceAtomic
  set { s with file := some (fileBytes nonce sealing) }

def isFor (fingerprint : CounterpartyFingerprint) (mediatorId : Bytes) (entry : CounterpartyHistoryEntry) : Bool :=
  entry.fingerprint = fingerprint ∧ entry.mediatorId = mediatorId

-- The place behind the last entry when there is none for the pair.
def indexOf (history : LocalCounterpartyHistory) (fingerprint : CounterpartyFingerprint) (mediatorId : Bytes) : Nat :=
  history.entries.findIdx (isFor fingerprint mediatorId)

/- A reference to an entry is its place in the list. -/
def getOrCreate (fingerprint : CounterpartyFingerprint) (mediatorId : Bytes) (now : UInt64) : HistoryM Nat := do
  throwIf (mediatorId.length > historyMaxMediatorIdLength) (invalid "mediator id exceeds maximum length")
  let s ← get
  let idx := s.history.indexOf fingerprint mediatorId
  if idx ≠ s.history.entries.length then return idx
  else do
    throwIf (s.history.entries.length ≥ historyMaxEntries) (invalid "counterparty history store is full")
    let entry : CounterpartyHistoryEntry := { fingerprint, mediatorId, firstSeen := now, lastSeen := now }
    set { s with history.entries := s.history.entries ++ [entry] }
    return s.history.entries.length

def entryAt (idx : Nat) : HistoryM (Option CounterpartyHistoryEntry) := do
  let s ← get
  return s.history.entries[idx]?

def change (idx : Nat) (f : CounterpartyHistoryEntry → CounterpartyHistoryEntry) : HistoryM Unit :=
  modify fun s => { s with history.entries := s.history.entries.modify idx f }

def recomputeConfidence (entry : CounterpartyHistoryEntry) : CounterpartyHistoryEntry :=
  { entry with confidence :=
      if entry.evidenceHashes = [] ∧ entry.encounterCount ≤ 1 then .unknown
      else if entry.evidenceHashes = [] then .low
      else if entry.evidenceHashes.length < 3 then .medium
      else .high }

-- Past the limit an outcome is not kept, and nothing is thrown.
def encountered (outcome : LocalOutcome) (now : UInt64) (entry : CounterpartyHistoryEntry) : CounterpartyHistoryEntry :=
  { entry with
    lastSeen := now
    encounterCount := entry.encounterCount + 1
    outcomeLabels :=
      if outcome ≠ .unknown ∧ entry.outcomeLabels.length < historyMaxOutcomesPerEntry then
        entry.outcomeLabels ++ [outcome]
      else entry.outcomeLabels }

section Mutators
variable (cipher : Cipher) (env : HistoryEnv) (fingerprint : CounterpartyFingerprint) (mediatorId : Bytes)

def recordEncounter (outcome : LocalOutcome) (now : UInt64) : HistoryM (Option CounterpartyHistoryEntry) := do
  let now := env.orNow now
  let idx ← getOrCreate fingerprint mediatorId now
  change idx (encountered outcome now)
  change idx recomputeConfidence
  persist cipher env
  entryAt idx

def setBlocked (blocked : Bool) : HistoryM (Option CounterpartyHistoryEntry) := do
  let idx ← getOrCreate fingerprint mediatorId env.nowUnixSeconds
  change idx fun entry => { entry with locallyBlocked := blocked }
  persist cipher env
  entryAt idx

def addNote (text : Bytes) (now : UInt64) : HistoryM (Option CounterpartyHistoryEntry) := do
  throwIf (text.length > historyMaxNoteLength) (invalid "note text exceeds maximum length")
  let now := env.orNow now
  let idx ← getOrCreate fingerprint mediatorId now
  let entry ← entryAt idx
  throwIf (entry.any fun entry => decide (entry.notes.length ≥ historyMaxNotesPerEntry))
    (invalid "counterparty already has the maximum number of notes")
  change idx fun entry => { entry with notes := entry.notes ++ [⟨now, text⟩] }
  persist cipher env
  entryAt idx

def addEvidenceHash (hash : EvidenceHash) : HistoryM (Option CounterpartyHistoryEntry) := do
  let idx ← getOrCreate fingerprint mediatorId env.nowUnixSeconds
  let entry ← entryAt idx
  throwIf (entry.any fun entry => decide (entry.evidenceHashes.length ≥ historyMaxEvidenceHashesPerEntry))
    (invalid "counterparty already has the maximum number of evidence hashes")
  change idx fun entry => { entry with evidenceHashes := entry.evidenceHashes ++ [hash] }
  change idx recomputeConfidence
  persist cipher env
  entryAt idx

end Mutators

def find (history : LocalCounterpartyHistory) (fingerprint : CounterpartyFingerprint) (mediatorId : Bytes) :
    Option CounterpartyHistoryEntry :=
  history.entries[history.indexOf fingerprint mediatorId]?

/-! Calls. -/

inductive Change where
  | recordEncounter (outcome : LocalOutcome) (now : UInt64)
  | setBlocked (blocked : Bool)
  | addNote (text : Bytes) (now : UInt64)
  | addEvidenceHash (hash : EvidenceHash)
  deriving DecidableEq, Repr

structure Call where
  env : HistoryEnv
  fingerprint : CounterpartyFingerprint
  mediatorId : Bytes
  change : Change

def perform (cipher : Cipher) (call : Call) : HistoryM (Option CounterpartyHistoryEntry) :=
  match call.change with
  | .recordEncounter outcome now => recordEncounter cipher call.env call.fingerprint call.mediatorId outcome now
  | .setBlocked blocked => setBlocked cipher call.env call.fingerprint call.mediatorId blocked
  | .addNote text now => addNote cipher call.env call.fingerprint call.mediatorId text now
  | .addEvidenceHash hash => addEvidenceHash cipher call.env call.fingerprint call.mediatorId hash

def object (cipher : Cipher) : Object HistoryError HistoryOnDisk Call := fun call => do
  let _ ← perform cipher call
  return ()

end LocalCounterpartyHistory
end TradeP2P
