import TradeP2P.Lib.Machine
import TradeP2P.Protocol.SignedPayloads

/-! The login challenges a web client has handed out and not yet seen an answer to. Looking a challenge up
and taking it off are two calls. -/
namespace TradeP2P
open Wire (Bytes)
open Checks Machine

def loginSuiteMlDsa65V1 : UInt16 := 2
def loginChallengeTtlSeconds : UInt64 := 120
def loginMaxOutstandingChallenges : Nat := 4096

abbrev LoginSessionId := Vector UInt8 16

/- What a call gets from outside: the clock, and the random bytes of a challenge. -/
structure LoginEnv where
  nowUnixSeconds : UInt64
  sessionId : Except Error LoginSessionId
  nonce : Except Error (Vector UInt8 32)
  deriving DecidableEq, Repr

-- A time of zero asks for the clock.
def LoginEnv.orNow (env : LoginEnv) (now : UInt64) : UInt64 := if now = 0 then env.nowUnixSeconds else now

structure LoginChallengeTracker where
  outstanding : List LoginChallengeFields := []
  deriving DecidableEq, Repr

namespace LoginChallengeTracker

def issue (env : LoginEnv) (serviceId serverIdentity username : Bytes) (now : UInt64) (suiteId : UInt16) :
    EStateM Error LoginChallengeTracker LoginChallengeFields := do
  let tracker ← get
  throwIf (tracker.outstanding.length ≥ loginMaxOutstandingChallenges) (Error.invalidArgument "too many outstanding login challenges")
  let now := env.orNow now
  let sessionId ← env.sessionId
  let nonce ← env.nonce
  let fields : LoginChallengeFields :=
    { suiteId, serviceId, serverIdentity, username, sessionId, nonce, createdAt := now, expiresAt := now + loginChallengeTtlSeconds }
  set { tracker with outstanding := tracker.outstanding ++ [fields] }
  return fields

def isSession (sessionId : LoginSessionId) (fields : LoginChallengeFields) : Bool := fields.sessionId = sessionId

def peek (env : LoginEnv) (tracker : LoginChallengeTracker) (sessionId : LoginSessionId) (now : UInt64) : Option LoginChallengeFields :=
  match tracker.outstanding.find? (isSession sessionId) with
  | none => none
  | some fields => if env.orNow now > fields.expiresAt then none else some fields

def consume (tracker : LoginChallengeTracker) (sessionId : LoginSessionId) : LoginChallengeTracker :=
  { tracker with outstanding := tracker.outstanding.filter fun fields => !isSession sessionId fields }

def expireStale (env : LoginEnv) (tracker : LoginChallengeTracker) (now : UInt64) : LoginChallengeTracker :=
  { tracker with outstanding := tracker.outstanding.filter fun fields => !decide (env.orNow now > fields.expiresAt) }

/-! What a call to `issue` comes to. -/
section Issue
variable (tracker : LoginChallengeTracker) (env : LoginEnv) (serviceId serverIdentity username : Bytes) (now : UInt64) (suiteId : UInt16)

theorem issueFull (full : loginMaxOutstandingChallenges ≤ tracker.outstanding.length) :
    issue env serviceId serverIdentity username now suiteId tracker =
      .error (.invalidArgument "too many outstanding login challenges") tracker := by
  simp only [issue, bind_run, get_run, lift_run, throwIf_bad full]

theorem issueOk {sessionId : LoginSessionId} {nonce : Vector UInt8 32} (session : env.sessionId = .ok sessionId)
    (drawn : env.nonce = .ok nonce) (room : tracker.outstanding.length < loginMaxOutstandingChallenges) :
    ∃ fields : LoginChallengeFields,
      issue env serviceId serverIdentity username now suiteId tracker = .ok fields ⟨tracker.outstanding ++ [fields]⟩ ∧
      fields.username = username ∧ fields.suiteId = suiteId ∧ fields.sessionId = sessionId ∧
      fields.expiresAt = env.orNow now + loginChallengeTtlSeconds := by
  refine ⟨⟨suiteId, loginProtocolVersion, serviceId, serverIdentity, username, sessionId, nonce, env.orNow now,
    env.orNow now + loginChallengeTtlSeconds⟩, ?_, rfl, rfl, rfl, rfl⟩
  simp only [issue, bind_run, get_run, lift_run, throwIf_not (Nat.not_le_of_lt room), session, drawn, set_run, pure_run]

/- It throws and changes nothing, or adds the challenge it returns. -/
theorem issueMoves : (∃ e, issue env serviceId serverIdentity username now suiteId tracker = .error e tracker) ∨
    ∃ fields : LoginChallengeFields,
      issue env serviceId serverIdentity username now suiteId tracker = .ok fields ⟨tracker.outstanding ++ [fields]⟩ ∧
      tracker.outstanding.length < loginMaxOutstandingChallenges ∧ fields.username = username ∧ fields.suiteId = suiteId ∧
      env.sessionId = .ok fields.sessionId := by
  by_cases full : loginMaxOutstandingChallenges ≤ tracker.outstanding.length
  · exact .inl ⟨_, issueFull tracker env serviceId serverIdentity username now suiteId full⟩
  have room := Nat.lt_of_not_le full
  cases session : env.sessionId with
  | error e =>
      refine .inl ⟨e, ?_⟩
      simp only [issue, bind_run, get_run, lift_run, throwIf_not full, session]
  | ok sessionId =>
      cases drawn : env.nonce with
      | error e =>
          refine .inl ⟨e, ?_⟩
          simp only [issue, bind_run, get_run, lift_run, throwIf_not full, session, drawn]
      | ok nonce =>
          obtain ⟨fields, ran, user, suite, named, _⟩ :=
            issueOk tracker env serviceId serverIdentity username now suiteId session drawn room
          exact .inr ⟨fields, ran, room, user, suite, by rw [named]⟩

theorem issueNames {fields : LoginChallengeFields} {next : LoginChallengeTracker}
    (ran : issue env serviceId serverIdentity username now suiteId tracker = .ok fields next) :
    fields.serviceId = serviceId ∧ fields.serverIdentity = serverIdentity := by
  simp only [issue, bind_returns, get_returns, lift_returns, set_returns, pure_returns] at ran
  obtain ⟨_, _, _, _, _, _, _, _, _, _, _, _, _, _, _, rfl, _⟩ := ran
  exact ⟨rfl, rfl⟩

end Issue

/-! Calls, and what they leave on record. -/

inductive Call where
  | issue (serviceId serverIdentity username : Bytes) (now : UInt64) (suiteId : UInt16)
  | peek (sessionId : LoginSessionId) (now : UInt64)
  | consume (sessionId : LoginSessionId)
  | expireStale (now : UInt64)
  deriving DecidableEq, Repr

inductive Returned where
  | issued (fields : LoginChallengeFields)
  | peeked (fields : Option LoginChallengeFields)
  | done
  deriving DecidableEq, Repr

def perform (env : LoginEnv) : Call → EStateM Error LoginChallengeTracker Returned
  | .issue serviceId serverIdentity username now suiteId => do
      let fields ← issue env serviceId serverIdentity username now suiteId
      return .issued fields
  | .peek sessionId now => do
      let tracker ← get
      return .peeked (peek env tracker sessionId now)
  | .consume sessionId => do
      modify (·.consume sessionId)
      return .done
  | .expireStale now => do
      modify (expireStale env · now)
      return .done

structure Event where
  before : List LoginChallengeFields
  env : LoginEnv
  call : Call
  result : Except Error Returned
  after : List LoginChallengeFields

def event (tracker : LoginChallengeTracker) (env : LoginEnv) (call : Call) : Event :=
  match perform env call tracker with
  | .ok returned next => ⟨tracker.outstanding, env, call, .ok returned, next.outstanding⟩
  | .error e next => ⟨tracker.outstanding, env, call, .error e, next.outstanding⟩

def events : LoginChallengeTracker → List (LoginEnv × Call) → List Event
  | _, [] => []
  | tracker, (env, call) :: later => event tracker env call :: events ⟨(event tracker env call).after⟩ later

def left : LoginChallengeTracker → List (LoginEnv × Call) → LoginChallengeTracker
  | tracker, [] => tracker
  | tracker, (env, call) :: later => left ⟨(event tracker env call).after⟩ later

/- The challenge a call hands out, and the ones it takes off. -/
def Event.issues (e : Event) : List LoginChallengeFields :=
  match e.result with
  | .ok (.issued fields) => [fields]
  | _ => []

def Event.takes (e : Event) : List LoginChallengeFields :=
  match e.call with
  | .consume sessionId => e.before.filter (isSession sessionId)
  | _ => []

end LoginChallengeTracker
end TradeP2P
