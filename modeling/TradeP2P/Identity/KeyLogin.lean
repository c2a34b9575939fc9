import TradeP2P.Credential.IssuanceStore
import TradeP2P.Identity.Login

/-! Logging in to the web client by signing a challenge. A request is served by a thread of its own, and one step is
what the thread does up to its next call of the tracker, the account store, the rate limiter or the sessions. -/
namespace TradeP2P
open Wire (Bytes ascii)
open Checks Machine

/-! Form fields. -/

def requiredParam (name : String) : Option Bytes → Except Error Bytes
  | none => .error (.invalidArgument ("missing form field: " ++ name))
  | some [] => .error (.invalidArgument ("empty form field: " ++ name))
  | some value => .ok value

def isBlank (c : UInt8) : Bool := c = 32 || c = 9 || c = 13 || c = 10

def trimmed (text : Bytes) : Bytes := ((text.dropWhile isBlank).reverse.dropWhile isBlank).reverse

def hexValue (c : UInt8) : Option UInt8 :=
  if 48 ≤ c ∧ c ≤ 57 then some (c - 48)
  else if 97 ≤ c ∧ c ≤ 102 then some (c - 87)
  else if 65 ≤ c ∧ c ≤ 70 then some (c - 55)
  else none

def hexBytes : Bytes → Option Bytes
  | high :: low :: rest => do return (16 * (← hexValue high) + (← hexValue low)) :: (← hexBytes rest)
  | [] => some []
  | [_] => none

def fromHex (rawText : Bytes) : Except Error Bytes :=
  match hexBytes (trimmed rawText) with
  | some bytes => .ok bytes
  | none => .error (.invalidArgument "expected a hex string with an even number of characters")

def toHex (bytes : Bytes) : Bytes := bytes.flatMap Credential.hexByte

/-! Accounts. Of an account only what a login with a key reads. -/

def expectedLoginKeyLength (suiteId : UInt16) : Nat :=
  if suiteId = loginSuiteEd25519V1 then 32 else if suiteId = loginSuiteMlDsa65V1 then 1952 else 0

def expectedLoginSignatureLength (suiteId : UInt16) : Nat :=
  if suiteId = loginSuiteEd25519V1 then 64 else if suiteId = loginSuiteMlDsa65V1 then 3309 else 0

def loginSuiteName (suiteId : UInt16) : String :=
  if suiteId = loginSuiteEd25519V1 then "ed25519" else if suiteId = loginSuiteMlDsa65V1 then "ml-dsa-65" else "unknown"

-- Both places that enrol a key check its length first.
structure EnrolledLoginKey where
  suiteId : UInt16
  bytes : Bytes
  sized : bytes.length = expectedLoginKeyLength suiteId
  deriving DecidableEq

structure Account where
  loginKey : Option EnrolledLoginKey := none
  deriving DecidableEq

structure AccountStore where
  accounts : Bytes → Option Account := fun _ => none

namespace AccountStore

def loginKey (store : AccountStore) (username : Bytes) : Option EnrolledLoginKey := (store.accounts username).bind Account.loginKey

-- The line is appended to the file before the account is there.
def create (username : Bytes) (appended : Except Error Unit) : EStateM Error AccountStore Unit := do
  let store ← get
  throwIf (store.accounts username).isSome (Error.runtimeError "that username is already registered")
  appended
  set ({ accounts := Function.update store.accounts username (some {}) } : AccountStore)

-- The key is there before the line is appended to the file.
def setLoginKey (username : Bytes) (key : EnrolledLoginKey) (appended : Except Error Unit) : EStateM Error AccountStore Unit := do
  let store ← get
  throwIf (store.accounts username).isNone (Error.runtimeError "unknown account")
  set ({ accounts := Function.update store.accounts username (some ⟨some key⟩) } : AccountStore)
  appended

end AccountStore

/-! The rate limiter. Times are in nanoseconds of a clock that never goes back; a name without failures has no entry. -/

structure AuthRateLimiter where
  failures : Bytes → List Int := fun _ => []

namespace AuthRateLimiter

def maxAttempts : Nat := 5
def window : Int := 60000000000

def prune (now : Int) (username : Bytes) (limiter : AuthRateLimiter) : AuthRateLimiter :=
  { failures := Function.update limiter.failures username
      ((limiter.failures username).filter fun when_ => !decide (when_ < now - window)) }

def allowed (limiter : AuthRateLimiter) (username : Bytes) : Bool := (limiter.failures username).length < maxAttempts

def recordFailure (now then_ : Int) (username : Bytes) (limiter : AuthRateLimiter) : AuthRateLimiter :=
  let pruned := limiter.prune now username
  { failures := Function.update pruned.failures username (pruned.failures username ++ [then_]) }

def recordSuccess (username : Bytes) (limiter : AuthRateLimiter) : AuthRateLimiter :=
  { failures := Function.update limiter.failures username [] }

end AuthRateLimiter

/-! Requests and what answers them. -/

-- A request is admitted when its host, its origin and its pre-login cookie are right.
inductive KeyRequest where
  | challenge (admitted : Bool) (username : Option Bytes)
  | verify (admitted : Bool) (username sessionId signature : Option Bytes)
  deriving DecidableEq, Repr

structure ChallengeJson where
  sessionId : Bytes
  nonce : Bytes
  serviceId : Bytes
  serverIdentity : Bytes
  suiteId : UInt16
  suite : String
  createdAt : UInt64
  expiresAt : UInt64
  deriving DecidableEq, Repr

inductive KeyResponse where
  | forbidden
  | failed (text : String)
  | challenge (json : ChallengeJson)
  | authenticated (session : Except Error Bytes)

def loginServiceId : Bytes := ascii "tradep2p-webclient"

def challengeJson (fields : LoginChallengeFields) : ChallengeJson where
  sessionId := toHex fields.sessionId.toList
  nonce := toHex fields.nonce.toList
  serviceId := fields.serviceId
  serverIdentity := fields.serverIdentity
  suiteId := fields.suiteId
  suite := loginSuiteName fields.suiteId
  createdAt := fields.createdAt
  expiresAt := fields.expiresAt

/-! Verification. -/

def suiteOf (enrolled : Option EnrolledLoginKey) : UInt16 := (enrolled.map EnrolledLoginKey.suiteId).getD loginSuiteMlDsa65V1

-- Bytes of the right length, copied into an array.
def copied (n : Nat) (bytes : Bytes) : Vector UInt8 n := Vector.ofFn fun i => bytes.getD i 0

structure Attempt where
  username : Bytes
  sessionId : LoginSessionId
  signature : Bytes
  deriving DecidableEq, Repr

section Steps
variable (crypto : Crypto)

def EnrolledLoginKey.verify (key : EnrolledLoginKey) (challenge : LoginChallengeFields) (signature : Bytes) : Except Error Bool :=
  if key.suiteId = loginSuiteEd25519V1 then verifyLoginResponse crypto (copied 32 key.bytes) challenge (copied 64 signature)
  else if key.suiteId = loginSuiteMlDsa65V1 then verifyLoginResponseMldsa65 crypto (copied 1952 key.bytes) challenge (copied 3309 signature)
  else return false

-- Without a key or a challenge that matches, the signature is not looked at.
def judge (attempt : Attempt) (challenge : Option LoginChallengeFields) (enrolled : Option EnrolledLoginKey) : Except Error Bool :=
  if attempt.signature.length = expectedLoginSignatureLength (suiteOf enrolled) then
    match challenge, enrolled with
    | some challenge, some key =>
        if challenge.username = attempt.username ∧ challenge.suiteId = key.suiteId then key.verify crypto challenge attempt.signature
        else return false
    | _, _ => return false
  else return false

/-! The threads. -/

-- What a step gets from outside: the clocks, the second time a failure reads its clock, and what the sessions answer.
structure WebEnv extends LoginEnv where
  steady : Int
  steadyThen : Int
  session : Except Error Bytes

structure WebState where
  tracker : LoginChallengeTracker := {}
  accounts : AccountStore := {}
  limiter : AuthRateLimiter := {}

-- Where a thread has come to: what it is about to call.
inductive KeyTask where
  | asked (request : KeyRequest)
  | enrolled (username : Bytes)
  | issuing (username : Bytes) (suiteId : UInt16)
  | looking (attempt : Attempt)
  | taking (attempt : Attempt) (challenge : Option LoginChallengeFields)
  | fetching (attempt : Attempt) (challenge : Option LoginChallengeFields)
  | failing (username : Bytes)
  | succeeding (username : Bytes)
  | admitting (username : Bytes)
  | answered (response : KeyResponse)

def tooMany : Error := .invalidArgument "too many attempts, try again later"

def throttled (env : WebEnv) (username : Bytes) (next : Except Error KeyTask) : EStateM Error WebState KeyTask := do
  modify fun s => { s with limiter := s.limiter.prune env.steady username }
  let s ← get
  throwIf (!s.limiter.allowed username) tooMany
  next

def attempted (username sessionIdHex signatureHex : Bytes) : Except Error KeyTask := do
  let sessionIdBytes ← fromHex sessionIdHex
  let signature ← fromHex signatureHex
  if sessionIdBytes.length = 16 then return .looking ⟨username, copied 16 sessionIdBytes, signature⟩
  else return .failing username

def start (env : WebEnv) : KeyRequest → EStateM Error WebState KeyTask
  | .challenge admitted username => do
      if admitted then
        let username ← requiredParam "username" username
        throttled env username (return .enrolled username)
      else return .answered .forbidden
  | .verify admitted username sessionId signature => do
      if admitted then
        let username ← requiredParam "username" username
        let sessionIdHex ← requiredParam "session_id" sessionId
        let signatureHex ← requiredParam "signature" signature
        throttled env username (attempted username sessionIdHex signatureHex)
      else return .answered .forbidden

def KeyTask.run (serverIdentity : Bytes) (env : WebEnv) : KeyTask → EStateM Error WebState KeyTask
  | .asked request => start env request
  | .enrolled username => do
      let s ← get
      return .issuing username (suiteOf (s.accounts.loginKey username))
  | .issuing username suiteId => do
      let s ← get
      match LoginChallengeTracker.issue env.toLoginEnv loginServiceId serverIdentity username 0 suiteId s.tracker with
      | .ok fields tracker => do
          set { s with tracker }
          return .answered (.challenge (challengeJson fields))
      | .error e tracker => do
          set { s with tracker }
          throw e
  | .looking attempt => do
      let s ← get
      return .taking attempt (LoginChallengeTracker.peek env.toLoginEnv s.tracker attempt.sessionId 0)
  | .taking attempt challenge => do
      modify fun s => { s with tracker := s.tracker.consume attempt.sessionId }
      return .fetching attempt challenge
  | .fetching attempt challenge => do
      let s ← get
      let ok ← judge crypto attempt challenge (s.accounts.loginKey attempt.username)
      return if ok then .succeeding attempt.username else .failing attempt.username
  | .failing username => do
      modify fun s => { s with limiter := s.limiter.recordFailure env.steady env.steadyThen username }
      throw (.invalidArgument "invalid login")
  | .succeeding username => do
      modify fun s => { s with limiter := s.limiter.recordSuccess username }
      return .admitting username
  | .admitting _ => return .answered (.authenticated env.session)
  | .answered response => return .answered response

-- What a handler throws it answers with.
def KeyTask.step (serverIdentity : Bytes) (env : WebEnv) (task : KeyTask) (s : WebState) : KeyTask × WebState :=
  match task.run crypto serverIdentity env s with
  | .ok next t => (next, t)
  | .error e t => (.answered (.failed e.text), t)

/-! What a step comes to. -/

def KeyResponse.logsIn : KeyResponse → Bool
  | .authenticated _ => true
  | _ => false

/- A request, once begun, has not looked at any challenge. -/
inductive Begun : KeyTask → Prop where
  | enrolled (username : Bytes) : Begun (.enrolled username)
  | looking (attempt : Attempt) : Begun (.looking attempt)
  | failing (username : Bytes) : Begun (.failing username)
  | answered (response : KeyResponse) (no : response.logsIn = false) : Begun (.answered response)

inductive Proceeds (serverIdentity : Bytes) (env : WebEnv) (s : WebState) : KeyTask → KeyTask → WebState → Prop where
  | begun (request : KeyRequest) (next : KeyTask) (limiter : AuthRateLimiter) (begun : Begun next) :
      Proceeds serverIdentity env s (.asked request) next { s with limiter }
  | enrolled (username : Bytes) :
      Proceeds serverIdentity env s (.enrolled username) (.issuing username (suiteOf (s.accounts.loginKey username))) s
  | issued (username : Bytes) (suiteId : UInt16) (fields : LoginChallengeFields) (user : fields.username = username)
      (suite : fields.suiteId = suiteId) (service : fields.serviceId = loginServiceId) (identity : fields.serverIdentity = serverIdentity) :
      Proceeds serverIdentity env s (.issuing username suiteId) (.answered (.challenge (challengeJson fields)))
        { s with tracker := ⟨s.tracker.outstanding ++ [fields]⟩ }
  | refused (username : Bytes) (suiteId : UInt16) (e : Error) :
      Proceeds serverIdentity env s (.issuing username suiteId) (.answered (.failed e.text)) s
  | looked (attempt : Attempt) : Proceeds serverIdentity env s (.looking attempt)
      (.taking attempt (LoginChallengeTracker.peek env.toLoginEnv s.tracker attempt.sessionId 0)) s
  | took (attempt : Attempt) (challenge : Option LoginChallengeFields) :
      Proceeds serverIdentity env s (.taking attempt challenge) (.fetching attempt challenge)
        { s with tracker := s.tracker.consume attempt.sessionId }
  | verified (attempt : Attempt) (challenge : Option LoginChallengeFields)
      (ok : judge crypto attempt challenge (s.accounts.loginKey attempt.username) = .ok true) :
      Proceeds serverIdentity env s (.fetching attempt challenge) (.succeeding attempt.username) s
  | unverified (attempt : Attempt) (challenge : Option LoginChallengeFields)
      (ok : judge crypto attempt challenge (s.accounts.loginKey attempt.username) = .ok false) :
      Proceeds serverIdentity env s (.fetching attempt challenge) (.failing attempt.username) s
  | unjudged (attempt : Attempt) (challenge : Option LoginChallengeFields) (e : Error)
      (threw : judge crypto attempt challenge (s.accounts.loginKey attempt.username) = .error e) :
      Proceeds serverIdentity env s (.fetching attempt challenge) (.answered (.failed e.text)) s
  | failed (username : Bytes) : Proceeds serverIdentity env s (.failing username) (.answered (.failed "invalid login"))
      { s with limiter := s.limiter.recordFailure env.steady env.steadyThen username }
  | succeeded (username : Bytes) : Proceeds serverIdentity env s (.succeeding username) (.admitting username)
      { s with limiter := s.limiter.recordSuccess username }
  | admitted (username : Bytes) : Proceeds serverIdentity env s (.admitting username) (.answered (.authenticated env.session)) s
  | answered (response : KeyResponse) : Proceeds serverIdentity env s (.answered response) (.answered response) s

theorem judgedTrue {attempt : Attempt} {challenge : Option LoginChallengeFields} {enrolled : Option EnrolledLoginKey}
    (ok : judge crypto attempt challenge enrolled = .ok true) : ∃ fields key, challenge = some fields ∧ enrolled = some key ∧
      fields.username = attempt.username ∧ fields.suiteId = key.suiteId ∧ key.verify crypto fields attempt.signature = .ok true := by
  unfold judge at ok
  split at ok
  · split at ok
    · split at ok
      · rename_i matching
        exact ⟨_, _, rfl, rfl, matching.1, matching.2, ok⟩
      · cases ok
    · cases ok
  · cases ok

section Moving
variable {serverIdentity : Bytes} {env : WebEnv} {s : WebState}

theorem stepRan {task next : KeyTask} {t : WebState} (ran : task.run crypto serverIdentity env s = .ok next t) :
    task.step crypto serverIdentity env s = (next, t) := by
  simp [KeyTask.step, ran]

theorem stepThrew {task : KeyTask} {e : Error} {t : WebState} (ran : task.run crypto serverIdentity env s = .error e t) :
    task.step crypto serverIdentity env s = (.answered (.failed e.text), t) := by
  simp [KeyTask.step, ran]

theorem attemptedBegun {username sessionIdHex signatureHex : Bytes} {next : KeyTask}
    (ok : attempted username sessionIdHex signatureHex = .ok next) : Begun next := by
  simp only [attempted, bind_ok] at ok
  obtain ⟨sessionId, _, signature, _, ok⟩ := ok
  split at ok
  · rw [← pure_ok.mp ok]
    exact .looking _
  · rw [← pure_ok.mp ok]
    exact .failing _

theorem admitBegun {username : Bytes} {given : Except Error KeyTask} (begun : ∀ next, given = .ok next → Begun next) :
    Ensures (throttled env username given) s (fun next t => ∃ limiter, t = { s with limiter } ∧ Begun next)
      fun _ t => ∃ limiter, t = { s with limiter } := by
  simp only [throttled, ensuresBind, ensuresModify, ensuresGet, ensuresLift]
  exact ⟨fun _ _ => ⟨fun next ok => ⟨_, rfl, begun next ok⟩, fun _ _ => ⟨_, rfl⟩⟩, fun _ _ => ⟨_, rfl⟩⟩

theorem startBegun (request : KeyRequest) :
    Ensures (start env request) s (fun next t => ∃ limiter, t = { s with limiter } ∧ Begun next)
      fun _ t => ∃ limiter, t = { s with limiter } := by
  cases request with
  | challenge admitted username =>
      simp only [start, ensuresIte, ensuresBind, ensuresLift, ensuresPure]
      refine ⟨fun _ => ⟨fun name _ => admitBegun fun next ok => ?_, fun _ _ => ⟨_, rfl⟩⟩, fun _ => ⟨_, rfl, .answered _ rfl⟩⟩
      rw [← pure_ok.mp ok]
      exact .enrolled name
  | verify admitted username sessionId signature =>
      simp only [start, ensuresIte, ensuresBind, ensuresLift, ensuresPure]
      exact ⟨fun _ => ⟨fun name _ => ⟨fun sessionIdHex _ => ⟨fun signatureHex _ => admitBegun fun _ => attemptedBegun,
        fun _ _ => ⟨_, rfl⟩⟩, fun _ _ => ⟨_, rfl⟩⟩, fun _ _ => ⟨_, rfl⟩⟩, fun _ => ⟨_, rfl, .answered _ rfl⟩⟩

theorem moves (serverIdentity : Bytes) (env : WebEnv) (task : KeyTask) (s : WebState) :
    Proceeds crypto serverIdentity env s task (task.step crypto serverIdentity env s).1 (task.step crypto serverIdentity env s).2 := by
  cases task with
  | asked request =>
      have begun := @startBegun env s request
      unfold Ensures at begun
      cases ran : start env request s with
      | ok next t =>
          rw [ran] at begun
          obtain ⟨limiter, rfl, begun⟩ := begun
          have returned : (KeyTask.asked request).run crypto serverIdentity env s = _ := ran
          rw [stepRan crypto returned]
          exact .begun request next limiter begun
      | error e t =>
          rw [ran] at begun
          obtain ⟨limiter, rfl⟩ := begun
          have threw : (KeyTask.asked request).run crypto serverIdentity env s = _ := ran
          rw [stepThrew crypto threw]
          exact .begun request _ limiter (.answered _ rfl)
  | enrolled username => exact .enrolled username
  | issuing username suiteId =>
      have outcome := LoginChallengeTracker.issueMoves s.tracker env.toLoginEnv loginServiceId serverIdentity username 0 suiteId
      rcases outcome with ⟨e, ran⟩ | ⟨fields, ran, _, user, suite, _⟩
      · have threw : (KeyTask.issuing username suiteId).run crypto serverIdentity env s = .error e s := by
          simp only [KeyTask.run, bind_run, get_run, ran, set_run, throw_run]
        rw [stepThrew crypto threw]
        exact .refused username suiteId e
      · have returned : (KeyTask.issuing username suiteId).run crypto serverIdentity env s =
            .ok (.answered (.challenge (challengeJson fields))) { s with tracker := ⟨s.tracker.outstanding ++ [fields]⟩ } := by
          simp only [KeyTask.run, bind_run, get_run, ran, set_run, pure_run]
        rw [stepRan crypto returned]
        obtain ⟨service, identity⟩ := LoginChallengeTracker.issueNames _ _ _ _ _ _ _ ran
        exact .issued username suiteId fields user suite service identity
  | looking attempt => exact .looked attempt
  | taking attempt challenge => exact .took attempt challenge
  | fetching attempt challenge =>
      cases judged : judge crypto attempt challenge (s.accounts.loginKey attempt.username) with
      | error e =>
          have threw : (KeyTask.fetching attempt challenge).run crypto serverIdentity env s = .error e s := by
            simp only [KeyTask.run, bind_run, get_run, lift_run, judged]
          rw [stepThrew crypto threw]
          exact .unjudged attempt challenge e judged
      | ok ok =>
          have returned : (KeyTask.fetching attempt challenge).run crypto serverIdentity env s =
              .ok (if ok then .succeeding attempt.username else .failing attempt.username) s := by
            simp only [KeyTask.run, bind_run, get_run, lift_run, judged, pure_run]
          rw [stepRan crypto returned]
          cases ok with
          | true => exact .verified attempt challenge judged
          | false => exact .unverified attempt challenge judged
  | failing username => exact .failed username
  | succeeding username => exact .succeeded username
  | admitting username => exact .admitted username
  | answered response => exact .answered response

end Moving
end Steps
end TradeP2P
