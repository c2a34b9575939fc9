import TradeP2P.Protocol.Terms
import Mathlib.Data.List.AList
import Mathlib.Logic.Function.Basic

/-! The web client's sessions. One mutex guards them, every account's client has a worker thread of its own, and the
worker's callbacks take the mutex too. A client goes with its last reference, and its destructor waits for the worker. -/
namespace TradeP2P
open Wire (Bytes ascii)

/- Of a keystore and a history, whether they are open: their content is no concern of the sessions. -/
structure AccountKeystore where
  unlocked : Bool
  deriving DecidableEq, Repr

structure WebSession where
  username : Bytes
  csrfToken : Bytes
  client : Nat
  lastSeen : Nat
  keystore : Option AccountKeystore := none
  keystorePath : Bytes := []
  historyOpen : Bool := false
  deriving DecidableEq, Repr

structure SessionManager where
  sessions : AList fun _ : Bytes => WebSession := ∅
  activeByUser : AList fun _ : Bytes => Bytes := ∅

structure SessionConfig where
  maxSessions : Nat
  idleTimeout : Nat
  keystoreDir : Bytes

/- What a locked section meets: the clock, its random draws, and the account's files. -/
structure SessionEnv where
  now : Nat := 0
  token : Except Error Bytes
  csrfToken : Except Error Bytes
  keystoreOpens : Except Error Unit := .ok ()
  historyOpens : Except Error Unit := .ok ()

inductive SessionCall where
  | login (username : Bytes)
  | logout (token : Bytes)
  | touch (token : Bytes)
  | reapIdle (now : Nat)
  | keystoreEnable (token : Bytes)
  | keystoreLock (token : Bytes)
  | keystoreStatus (token : Bytes)
  | keystoreExport (token : Bytes)
  | historyList (token : Bytes)
  | historyChange (token : Bytes)
  deriving DecidableEq, Repr

/- Where a request's thread is; the reaper's is one of them. From `reaping` to `leaving` it holds the mutex; `joining` is
a destructor that runs there, `dropping` one that runs with no lock held. -/
inductive SessionTask where
  | idle
  | waiting (call : SessionCall)
  | reaping (now : Nat) (tokens : List Bytes)
  | joining (client : Nat) (rest : SessionTask)
  | naming (username token : Bytes)
  | leaving
  | dropping (client : Nat)
  deriving DecidableEq, Repr

inductive Callback where
  | recognitionKey (token : Bytes)
  | recognitionOutcome (token : Bytes)
  deriving DecidableEq, Repr

inductive ClientWorker where
  | unstarted
  | running
  | waiting (callback : Callback)
  | inside
  | finished
  deriving DecidableEq, Repr

inductive MutexHolder where
  | request (n : Nat)
  | worker (client : Nat)
  deriving DecidableEq, Repr

structure WebClient where
  manager : SessionManager := {}
  owner : Option MutexHolder := none
  tasks : Nat → SessionTask := fun _ => .idle
  handles : Nat → List Nat := fun _ => []
  workers : Nat → ClientWorker := fun _ => .unstarted
  stopped : Nat → Bool := fun _ => false
  useCount : Nat → Nat := fun _ => 0
  clients : Nat := 0

namespace SessionManager

def keystorePathFor (config : SessionConfig) (username : Bytes) : Bytes :=
  config.keystoreDir ++ ascii "/" ++ username ++ ascii ".keystore"

-- A keystore that is there and unlocked.
def unlocked (session : WebSession) : Bool := session.keystore.any (·.unlocked)

def ensureHistoryOpen (env : SessionEnv) (session : WebSession) : Except Error WebSession :=
  if ¬unlocked session then .error (.invalidArgument "no unlocked trading identity; enable one first")
  else if session.historyOpen then .ok session
  else env.historyOpens.map fun _ => { session with historyOpen := true }

-- A section that only works on the caller's own session; what a throw leaves of it is the session as it was.
def onSession (manager : SessionManager) (token : Bytes) (change : WebSession → Except Error WebSession) : SessionManager :=
  match manager.sessions.lookup token with
  | none => manager
  | some session => match change session with
    | .ok changed => { manager with sessions := manager.sessions.insert token changed }
    | .error _ => manager

def keystoreEnable (config : SessionConfig) (env : SessionEnv) (session : WebSession) : Except Error WebSession :=
  env.keystoreOpens.map fun _ => { session with
    keystore := some ⟨true⟩, keystorePath := keystorePathFor config session.username, historyOpen := false }

def keystoreLock (session : WebSession) : Except Error WebSession :=
  .ok { session with keystore := session.keystore.map fun _ => ⟨false⟩ }

def historyList (env : SessionEnv) (session : WebSession) : Except Error WebSession :=
  if unlocked session then ensureHistoryOpen env session else .ok session

def callback (env : SessionEnv) (manager : SessionManager) : Callback → SessionManager
  | .recognitionKey _ => manager
  | .recognitionOutcome token => manager.onSession token (historyList env)

/- What the call's user is logged in under. -/
def attached (manager : SessionManager) (username : Bytes) : Option (Bytes × WebSession) :=
  (manager.activeByUser.lookup username).bind fun token => (manager.sessions.lookup token).map fun session => (token, session)

def erase (manager : SessionManager) (token : Bytes) (session : WebSession) : SessionManager where
  sessions := manager.sessions.erase token
  activeByUser := manager.activeByUser.erase session.username

end SessionManager

namespace WebClient
open SessionManager

def at_ (s : WebClient) (n : Nat) (task : SessionTask) : WebClient := { s with tasks := Function.update s.tasks n task }

/- A reference goes: the last one takes the client along, and whoever let go of it waits for its worker. -/
def release (s : WebClient) (n client : Nat) (waits rest : SessionTask) : WebClient :=
  let s := { s with useCount := Function.update s.useCount client (s.useCount client - 1) }
  if s.useCount client = 0 then { s with stopped := Function.update s.stopped client true }.at_ n waits else s.at_ n rest

-- A client is made and its worker started, under a reference of the section's own.
def startClient (s : WebClient) : WebClient :=
  { s with workers := Function.update s.workers s.clients .running
           useCount := Function.update s.useCount s.clients 1, clients := s.clients + 1 }

def login (config : SessionConfig) (env : SessionEnv) (s : WebClient) (n : Nat) (username : Bytes) : WebClient :=
  match s.manager.attached username with
  | some (token, session) =>
      let sessions := s.manager.sessions.insert token { session with lastSeen := env.now }
      { s with manager := { s.manager with sessions } }.at_ n .leaving
  | none =>
      let s := { s with manager := { s.manager with activeByUser := s.manager.activeByUser.erase username } }
      if s.manager.sessions.keys.length ≥ config.maxSessions then s.at_ n .leaving
      else match env.token with
        | .error _ => s.at_ n .leaving
        | .ok token =>
            let client := s.clients
            let s := s.startClient
            match env.csrfToken with
            -- The throw unwinds the section, and the client with it.
            | .error _ => s.release n client (.joining client .leaving) .leaving
            | .ok csrfToken =>
                -- A token that is taken already is not taken again; the new session goes at once.
                if s.manager.sessions.lookup token ≠ none then
                  s.release n client (.joining client (.naming username token)) (.naming username token)
                else
                  let sessions := s.manager.sessions.insert token { username, csrfToken, client, lastSeen := env.now }
                  { s with manager := ⟨sessions, s.manager.activeByUser.insert username token⟩ }.at_ n .leaving

def logout (s : WebClient) (n : Nat) (token : Bytes) : WebClient :=
  match s.manager.sessions.lookup token with
  | none => s.at_ n .leaving
  | some session => { s with manager := s.manager.erase token session }.release n session.client
      (.joining session.client .leaving) .leaving

def touch (env : SessionEnv) (s : WebClient) (n : Nat) (token : Bytes) : WebClient :=
  match s.manager.sessions.lookup token with
  | none => s.at_ n .leaving
  | some session =>
      let sessions := s.manager.sessions.insert token { session with lastSeen := env.now }
      { s with manager := { s.manager with sessions }
               handles := Function.update s.handles n (session.client :: s.handles n)
               useCount := Function.update s.useCount session.client (s.useCount session.client + 1) }.at_ n .leaving

/- What a call does once it has the mutex. -/
def enter (config : SessionConfig) (env : SessionEnv) (s : WebClient) (n : Nat) : SessionCall → WebClient
  | .login username => s.login config env n username
  | .logout token => s.logout n token
  | .touch token => s.touch env n token
  | .reapIdle now => s.at_ n (.reaping now s.manager.sessions.keys)
  | .keystoreEnable token => { s with manager := s.manager.onSession token (keystoreEnable config env) }.at_ n .leaving
  | .keystoreLock token => { s with manager := s.manager.onSession token keystoreLock }.at_ n .leaving
  | .keystoreStatus _ | .keystoreExport _ => s.at_ n .leaving
  | .historyList token => { s with manager := s.manager.onSession token (historyList env) }.at_ n .leaving
  | .historyChange token => { s with manager := s.manager.onSession token (ensureHistoryOpen env) }.at_ n .leaving

-- One round of the reaper's loop.
def reap (config : SessionConfig) (s : WebClient) (n now : Nat) (token : Bytes) (tokens : List Bytes) : WebClient :=
  match s.manager.sessions.lookup token with
  | none => s.at_ n (.reaping now tokens)
  | some session =>
      if now > session.lastSeen + config.idleTimeout then
        { s with manager := s.manager.erase token session }.release n session.client
          (.joining session.client (.reaping now tokens)) (.reaping now tokens)
      else s.at_ n (.reaping now tokens)

inductive Event where
  | asks (n : Nat) (call : SessionCall)
  | enters (n : Nat) (env : SessionEnv)
  | goes (n : Nat)
  | drops (n client : Nat)
  | calls (client : Nat) (callback : Callback)
  | resumes (client : Nat) (env : SessionEnv)
  | returns (client : Nat)
  | ends (client : Nat)

def fire (config : SessionConfig) (s : WebClient) : Event → Option WebClient
  | .asks n call => if s.tasks n = .idle then some (s.at_ n (.waiting call)) else none
  | .enters n env => match s.tasks n, s.owner with
    | .waiting call, none => some ({ s with owner := some (.request n) }.enter config env n call)
    | _, _ => none
  | .goes n => match s.tasks n with
    | .reaping now (token :: tokens) => some (s.reap config n now token tokens)
    | .reaping _ [] => some (s.at_ n .leaving)
    | .joining client rest => if s.workers client = .finished then some (s.at_ n rest) else none
    | .naming username token =>
        some ({ s with manager := { s.manager with activeByUser := s.manager.activeByUser.insert username token } }.at_ n .leaving)
    | .leaving => some ({ s with owner := none }.at_ n .idle)
    | .dropping client => if s.workers client = .finished then some (s.at_ n .idle) else none
    | _ => none
  | .drops n client =>
      if s.tasks n = .idle ∧ client ∈ s.handles n then
        some ({ s with handles := Function.update s.handles n ((s.handles n).erase client) }.release n client
          (.dropping client) .idle)
      else none
  | .calls client callback =>
      if s.workers client = .running then some { s with workers := Function.update s.workers client (.waiting callback) } else none
  | .resumes client env => match s.workers client, s.owner with
    | .waiting callback, none => some { s with owner := some (.worker client), manager := s.manager.callback env callback
                                               workers := Function.update s.workers client .inside }
    | _, _ => none
  | .returns client =>
      if s.workers client = .inside then
        some { s with owner := none, workers := Function.update s.workers client .running }
      else none
  | .ends client =>
      if s.workers client = .running ∧ s.stopped client = true then
        some { s with workers := Function.update s.workers client .finished }
      else none

inductive Run (config : SessionConfig) (meets : WebClient → Event → Prop) : WebClient → WebClient → Prop where
  | refl (s : WebClient) : Run config meets s s
  | step {s t u : WebClient} {event : Event} (run : Run config meets s t) (met : meets t event)
      (fired : t.fire config event = some u) : Run config meets s u

end WebClient
end TradeP2P
