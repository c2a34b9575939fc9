import TradeP2P.Lib.Machine
import TradeP2P.Protocol.Messages
import TradeP2P.Protocol.SignedPayloads

/-! Recognition of a counterparty. A client that wants to know whether its peer holds a key issues a
challenge and keeps it until a response takes it off again. -/
namespace TradeP2P
open Wire (Bytes)
open Checks Machine

def recognitionSuiteMlDsa65V1 : UInt16 := 2
def recognitionChallengeTtlSeconds : UInt64 := 120
def recognitionMaxOutstandingChallenges : Nat := 256

def fixedBytes (n : Nat) (bytes : Bytes) : Option (Vector UInt8 n) :=
  if size : bytes.length = n then some ⟨bytes.toArray, by simpa using size⟩ else none

/- The families differ only in the lengths. -/
def parseKey (n : Nat) (bytes : Bytes) : Option (Vector UInt8 n) :=
  (fixedBytes n bytes).filter fun key => !key.toList.all (· == 0)

def parseEd25519PublicKey (bytes : Bytes) : Option Ed25519PublicKey := parseKey 32 bytes
def parseMldsa65PublicKey (bytes : Bytes) : Option MlDsa65PublicKey := parseKey 1952 bytes

/- What a call meets outside the tracker. -/
structure RecognitionEnv where
  nowUnixSeconds : UInt64
  nonce : Except Error (Vector UInt8 32)

-- Callers give zero for the present.
def RecognitionEnv.orNow (env : RecognitionEnv) (now : UInt64) : UInt64 := if now = 0 then env.nowUnixSeconds else now

section Verifying
variable (crypto : Crypto)

def recognitionFingerprint (publicKey : Bytes) : Vector UInt8 32 := crypto.sha256 publicKey

/- The check of one suite, from what the response carries. -/
def answerUnder {n m : Nat} (publicKey : Option (Vector UInt8 n)) (signature : Option (Vector UInt8 m))
    (verify : Vector UInt8 n → Vector UInt8 m → Except Error Bool) : Except Error (Option (Vector UInt8 32)) :=
  match publicKey, signature with
  | some key, some signature => do
      let verifies ← verify key signature
      return if verifies then some (recognitionFingerprint crypto key.toList) else none
  | _, _ => return none

def checkAnswer (fields : RecognitionChallengeFields) (response : RecognitionResponseMessage) :
    Except Error (Option (Vector UInt8 32)) :=
  if fields.suiteId = recognitionSuiteEd25519V1 then
    answerUnder crypto (parseEd25519PublicKey response.proverPublicKey) (fixedBytes 64 response.signature)
      fun key signature => verifyRecognitionResponse crypto key fields signature
  else if fields.suiteId = recognitionSuiteMlDsa65V1 then
    answerUnder crypto (parseMldsa65PublicKey response.proverPublicKey) (fixedBytes 3309 response.signature)
      fun key signature => verifyRecognitionResponseMldsa65 crypto key fields signature
  else return none

end Verifying

structure RecognitionChallengeTracker where
  outstanding : List RecognitionChallengeFields := []
  deriving DecidableEq, Repr

namespace RecognitionChallengeTracker

abbrev TrackerM := EStateM Error RecognitionChallengeTracker

def issue (env : RecognitionEnv) (mediatorId : Bytes) (roomId : RoomId) (now : UInt64) (suiteId : UInt16) :
    TrackerM RecognitionChallengeFields := do
  let tracker ← get
  throwIf (tracker.outstanding.length ≥ recognitionMaxOutstandingChallenges)
    (Error.invalidArgument "too many outstanding recognition challenges")
  let now := env.orNow now
  let nonce ← env.nonce
  let fields : RecognitionChallengeFields := { suiteId, protocolVersion, mediatorId, roomId, nonce, createdAt := now
                                               expiresAt := now + recognitionChallengeTtlSeconds }
  set { tracker with outstanding := tracker.outstanding ++ [fields] }
  return fields

def expireStale (env : RecognitionEnv) (now : UInt64) : TrackerM Unit := modify fun tracker =>
  { tracker with outstanding := tracker.outstanding.filter fun fields => !decide (env.orNow now > fields.expiresAt) }

def isFor (mediatorId : Bytes) (response : RecognitionResponseMessage) (fields : RecognitionChallengeFields) : Bool :=
  fields.nonce = response.nonce ∧ fields.roomId = response.roomId ∧ fields.mediatorId = mediatorId

-- The challenge is gone before it is known whether the response is any good.
def consume (crypto : Crypto) (env : RecognitionEnv) (mediatorId : Bytes) (response : RecognitionResponseMessage)
    (now : UInt64) : TrackerM (Option (Vector UInt8 32)) := do
  let tracker ← get
  match tracker.outstanding.find? (isFor mediatorId response) with
  | none => return none
  | some fields => do
      set { tracker with outstanding := tracker.outstanding.eraseP (isFor mediatorId response) }
      if env.orNow now > fields.expiresAt then return none
      else if response.suiteId ≠ fields.suiteId then return none
      else checkAnswer crypto fields response

/-! Calls, and what they leave on record. -/

inductive Call where
  | issue (mediatorId : Bytes) (roomId : RoomId) (now : UInt64) (suiteId : UInt16)
  | expireStale (now : UInt64)
  | consume (mediatorId : Bytes) (response : RecognitionResponseMessage) (now : UInt64)
  deriving DecidableEq, Repr

inductive Returned where
  | issued (fields : RecognitionChallengeFields)
  | expired
  | consumed (fingerprint : Option (Vector UInt8 32))
  deriving DecidableEq, Repr

def perform (crypto : Crypto) (env : RecognitionEnv) : Call → TrackerM Returned
  | .issue mediatorId roomId now suiteId => do
      let fields ← issue env mediatorId roomId now suiteId
      return .issued fields
  | .expireStale now => do
      expireStale env now
      return .expired
  | .consume mediatorId response now => do
      let fingerprint ← consume crypto env mediatorId response now
      return .consumed fingerprint

structure Event where
  before : List RecognitionChallengeFields
  env : RecognitionEnv
  call : Call
  result : Except Error Returned
  after : List RecognitionChallengeFields

def event (crypto : Crypto) (tracker : RecognitionChallengeTracker) (env : RecognitionEnv) (call : Call) : Event :=
  match perform crypto env call tracker with
  | .ok returned next => ⟨tracker.outstanding, env, call, .ok returned, next.outstanding⟩
  | .error e next => ⟨tracker.outstanding, env, call, .error e, next.outstanding⟩

def events (crypto : Crypto) : RecognitionChallengeTracker → List (RecognitionEnv × Call) → List Event
  | _, [] => []
  | tracker, (env, call) :: later =>
      event crypto tracker env call :: events crypto ⟨(event crypto tracker env call).after⟩ later

end RecognitionChallengeTracker
end TradeP2P
