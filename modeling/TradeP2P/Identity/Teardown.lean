import TradeP2P.Lib.Maps
import TradeP2P.Identity.SessionManager

/-! Sessions that end. A thread that holds the mutex when it lets go of a client's last reference waits there for the
worker, and the worker may be on its way into a callback. -/
namespace TradeP2P
open Wire (Bytes ascii)
open Maps

/- The two maps name each other, so that a user has at most one session. -/
structure SessionManager.Paired (manager : SessionManager) : Prop where
  named : ∀ token session, manager.sessions.lookup token = some session →
    manager.activeByUser.lookup session.username = some token
  held : ∀ username token, manager.activeByUser.lookup username = some token →
    ∃ session, manager.sessions.lookup token = some session ∧ session.username = username

-- Outside the branches that wait for a worker, and the one after a token that was taken.
def SessionTask.Calm : SessionTask → Prop
  | .joining _ _ | .naming _ _ => False
  | _ => True

-- Under the mutex.
def SessionTask.Inside : SessionTask → Prop
  | .reaping _ _ | .joining _ _ | .naming _ _ | .leaving => True
  | _ => False

namespace WebClient
open SessionManager

/- A thread that holds the mutex waits for a worker that waits for the mutex. -/
def Stuck (s : WebClient) : Prop :=
  ∃ n client rest callback, s.owner = some (.request n) ∧ s.tasks n = .joining client rest ∧
    s.workers client = .waiting callback

/- Under the mutex no client loses its last reference, and no token is drawn twice. -/
def Keeps (config : SessionConfig) (s : WebClient) : Event → Prop
  | .enters n env =>
      (∀ username, s.tasks n = .waiting (.login username) → (∀ token, env.token = .ok token → s.manager.sessions.lookup token = none) ∧
        ∃ csrfToken, env.csrfToken = .ok csrfToken) ∧
      ∀ token session, s.tasks n = .waiting (.logout token) → s.manager.sessions.lookup token = some session →
        1 < s.useCount session.client
  | .goes n => ∀ now token tokens session, s.tasks n = .reaping now (token :: tokens) →
      s.manager.sessions.lookup token = some session → now > session.lastSeen + config.idleTimeout → 1 < s.useCount session.client
  | _ => True

/-! The maps. -/

section Maps
variable {manager : SessionManager} {token : Bytes} {session changed : WebSession}

theorem pairedReplaced (paired : manager.Paired) (there : manager.sessions.lookup token = some session)
    (same : changed.username = session.username) :
    SessionManager.Paired { manager with sessions := manager.sessions.insert token changed } := by
  constructor
  · intro other held found
    rcases lookupInserted found with ⟨rfl, rfl⟩ | ⟨_, old⟩
    · rw [same]
      exact paired.named _ _ there
    · exact paired.named _ _ old
  · intro username other active
    obtain ⟨old, found, named⟩ := paired.held username other active
    by_cases here : other = token
    · subst here
      rw [there] at found
      cases found
      exact ⟨changed, AList.lookup_insert .., same.trans named⟩
    · exact ⟨old, (AList.lookup_insert_ne here).trans found, named⟩

theorem pairedErased (paired : manager.Paired) (there : manager.sessions.lookup token = some session) :
    (manager.erase token session).Paired := by
  constructor
  · intro other held found
    obtain ⟨apart, old⟩ := lookupErased found
    have named := paired.named _ _ old
    have differ : held.username ≠ session.username := by
      intro same
      rw [same, paired.named _ _ there] at named
      exact apart (Option.some.inj named).symm
    exact (AList.lookup_erase_ne differ).trans named
  · intro username other active
    obtain ⟨differ, active⟩ := lookupErased active
    obtain ⟨old, found, named⟩ := paired.held username other active
    have apart : other ≠ token := by
      intro same
      rw [same, there] at found
      cases found
      exact differ named.symm
    exact ⟨old, (AList.lookup_erase_ne apart).trans found, named⟩

theorem unattached (paired : manager.Paired) {username : Bytes} (none_ : manager.attached username = none) :
    manager.activeByUser.lookup username = none := by
  cases active : manager.activeByUser.lookup username with
  | none => rfl
  | some token =>
    obtain ⟨session, found, _⟩ := paired.held username token active
    simp [attached, active, found] at none_

theorem pairedUnnamed (paired : manager.Paired) {username : Bytes} (none_ : manager.activeByUser.lookup username = none) :
    SessionManager.Paired { manager with activeByUser := manager.activeByUser.erase username } := by
  constructor
  · intro other held found
    have named := paired.named _ _ found
    have differ : held.username ≠ username := by
      intro same
      rw [same, none_] at named
      cases named
    exact (AList.lookup_erase_ne differ).trans named
  · intro name other active
    exact paired.held name other (lookupErased active).2

theorem pairedAdded (paired : manager.Paired) (free : manager.sessions.lookup token = none)
    (unnamed : manager.activeByUser.lookup session.username = none) :
    SessionManager.Paired ⟨manager.sessions.insert token session, manager.activeByUser.insert session.username token⟩ := by
  constructor
  · intro other held found
    rcases lookupInserted found with ⟨rfl, rfl⟩ | ⟨_, old⟩
    · exact AList.lookup_insert ..
    · have named := paired.named _ _ old
      have differ : held.username ≠ session.username := by
        intro same
        rw [same, unnamed] at named
        cases named
      exact (AList.lookup_insert_ne differ).trans named
  · intro username other active
    rcases lookupInserted active with ⟨rfl, rfl⟩ | ⟨_, old⟩
    · exact ⟨session, AList.lookup_insert .., rfl⟩
    · obtain ⟨held, found, named⟩ := paired.held username other old
      have apart : other ≠ token := by
        intro same
        rw [same, free] at found
        cases found
      exact ⟨held, (AList.lookup_insert_ne apart).trans found, named⟩

end Maps

/-! What a step keeps. -/

structure Sound (config : SessionConfig) (manager : SessionManager) : Prop where
  paired : manager.Paired
  fits : manager.sessions.keys.length ≤ config.maxSessions

structure Kept (config : SessionConfig) (s : WebClient) : Prop where
  sound : Sound config s.manager
  calm : ∀ n, (s.tasks n).Calm

section Steps
variable {config : SessionConfig} {env : SessionEnv} {manager : SessionManager} {s t : WebClient} {n client : Nat}
  {token : Bytes} {session changed : WebSession} {task waits rest : SessionTask}

theorem Sound.replaced (sound : Sound config manager) (there : manager.sessions.lookup token = some session)
    (same : changed.username = session.username) : Sound config { manager with sessions := manager.sessions.insert token changed } := by
  refine ⟨pairedReplaced sound.paired there same, ?_⟩
  rw [keysReplaced (by simp [there])]
  exact sound.fits

theorem Sound.erased (sound : Sound config manager) (there : manager.sessions.lookup token = some session) :
    Sound config (manager.erase token session) :=
  ⟨pairedErased sound.paired there, (keysErased ..).trans sound.fits⟩

theorem Sound.onSession (sound : Sound config manager) {change : WebSession → Except Error WebSession}
    (same : ∀ session changed, change session = .ok changed → changed.username = session.username) :
    Sound config (manager.onSession token change) := by
  unfold SessionManager.onSession
  split
  · exact sound
  next session there =>
    split
    next changed done => exact sound.replaced there (same session changed done)
    next => exact sound

theorem ensuredUser (ensured : ensureHistoryOpen env session = .ok changed) : changed.username = session.username := by
  unfold ensureHistoryOpen at ensured
  split_ifs at ensured
  · cases ensured
    rfl
  · cases opens : env.historyOpens with
    | error e =>
      rw [opens] at ensured
      cases ensured
    | ok _ =>
      rw [opens] at ensured
      cases ensured
      rfl

theorem listedUser (listed : historyList env session = .ok changed) : changed.username = session.username := by
  unfold historyList at listed
  split at listed
  · exact ensuredUser listed
  · cases listed
    rfl

theorem enabledUser (enabled : keystoreEnable config env session = .ok changed) : changed.username = session.username := by
  unfold keystoreEnable at enabled
  cases opens : env.keystoreOpens with
  | error e =>
    rw [opens] at enabled
    cases enabled
  | ok _ =>
    rw [opens] at enabled
    cases enabled
    rfl

theorem Sound.callback (sound : Sound config manager) (callback : Callback) : Sound config (manager.callback env callback) := by
  cases callback with
  | recognitionKey token => exact sound
  | recognitionOutcome token => exact sound.onSession fun _ _ => listedUser

theorem atOwn (s : WebClient) (n : Nat) (task : SessionTask) : (s.at_ n task).tasks n = task := Function.update_self ..

theorem atOther {m : Nat} (other : m ≠ n) : (s.at_ n task).tasks m = s.tasks m := Function.update_of_ne other ..

theorem Kept.goes (calm : ∀ m, (s.tasks m).Calm) (sound : Sound config s.manager) (quiet : task.Calm) : Kept config (s.at_ n task) := by
  refine ⟨sound, fun m => ?_⟩
  by_cases own : m = n
  · rw [own, atOwn]
    exact quiet
  · rw [atOther own]
    exact calm m

/- A reference that is not the last one changes nothing but the count. -/
theorem Kept.releases (calm : ∀ m, (s.tasks m).Calm) (sound : Sound config s.manager) (more : 1 < s.useCount client) (quiet : rest.Calm) :
    Kept config (s.release n client waits rest) := by
  have others : s.useCount client - 1 ≠ 0 := by omega
  simp only [release, Function.update_self, others, if_false]
  exact .goes calm sound quiet

theorem Kept.drops (calm : ∀ m, (s.tasks m).Calm) (sound : Sound config s.manager) (waitsQuiet : waits.Calm) (quiet : rest.Calm) :
    Kept config (s.release n client waits rest) := by
  simp only [release]
  split
  · exact .goes calm sound waitsQuiet
  · exact .goes calm sound quiet

theorem Kept.logsIn (kept : Kept config s) (username : Bytes)
    (fresh : ∀ token, env.token = .ok token → s.manager.sessions.lookup token = none) {csrfToken : Bytes}
    (drawn : env.csrfToken = .ok csrfToken) : Kept config (s.login config env n username) := by
  unfold login
  split
  next token session there =>
    have found : s.manager.sessions.lookup token = some session := by
      simp only [attached, Option.bind_eq_some_iff, Option.map_eq_some_iff, Prod.mk.injEq] at there
      obtain ⟨_, _, _, found, rfl, rfl⟩ := there
      exact found
    exact .goes kept.calm (kept.sound.replaced found rfl) trivial
  next none_ =>
    have unnamed := unattached kept.sound.paired none_
    have sound : Sound config { s.manager with activeByUser := s.manager.activeByUser.erase username } :=
      ⟨pairedUnnamed kept.sound.paired unnamed, kept.sound.fits⟩
    dsimp only
    split
    · exact .goes kept.calm sound trivial
    next roomy =>
      split
      · exact .goes kept.calm sound trivial
      next token given =>
        have free := fresh token given
        rw [drawn]
        dsimp only
        split
        next taken => exact absurd free taken
        next =>
          refine .goes kept.calm ⟨pairedAdded sound.paired free (AList.lookup_erase ..), ?_⟩ trivial
          exact (keysAdded ..).trans (Nat.not_le.mp roomy)

theorem Kept.enters (kept : Kept config s) (call : SessionCall) (waiting : s.tasks n = .waiting call)
    (met : Keeps config s (.enters n env)) : Kept config ({ s with owner := some (.request n) }.enter config env n call) := by
  have held : Kept config { s with owner := some (.request n) } := ⟨kept.sound, kept.calm⟩
  have changes (change : WebSession → Except Error WebSession) (token : Bytes)
      (same : ∀ session changed, change session = .ok changed → changed.username = session.username) :
      Kept config ({ s with owner := some (.request n), manager := s.manager.onSession token change }.at_ n .leaving) :=
    .goes kept.calm (kept.sound.onSession same) trivial
  cases call with
  | login username =>
    obtain ⟨fresh, _, drawn⟩ := met.1 username waiting
    exact held.logsIn username fresh drawn
  | logout token =>
    simp only [enter, logout]
    split
    · exact .goes kept.calm kept.sound trivial
    next session there => exact .releases kept.calm (kept.sound.erased there) (met.2 token session waiting there) trivial
  | touch token =>
    simp only [enter, touch]
    split
    · exact .goes kept.calm kept.sound trivial
    next session there => exact .goes kept.calm (kept.sound.replaced there rfl) trivial
  | reapIdle now => exact .goes kept.calm kept.sound trivial
  | keystoreEnable token => exact changes _ token fun _ _ => enabledUser
  | keystoreLock token =>
    refine changes _ token fun session changed locked => ?_
    cases locked
    rfl
  | keystoreStatus token => exact .goes kept.calm kept.sound trivial
  | keystoreExport token => exact .goes kept.calm kept.sound trivial
  | historyList token => exact changes _ token fun _ _ => listedUser
  | historyChange token => exact changes _ token fun _ _ => ensuredUser

theorem Kept.reaps (kept : Kept config s) {now : Nat} {tokens : List Bytes} (reaping : s.tasks n = .reaping now (token :: tokens))
    (met : Keeps config s (.goes n)) : Kept config (s.reap config n now token tokens) := by
  unfold reap
  split
  · exact .goes kept.calm kept.sound trivial
  next session there =>
    split
    next idle => exact .releases kept.calm (kept.sound.erased there) (met now token tokens session reaping there idle) trivial
    next => exact .goes kept.calm kept.sound trivial

theorem Kept.step (kept : Kept config s) {event : Event} (met : Keeps config s event) (fired : s.fire config event = some t) :
    Kept config t := by
  cases event with
  | asks n call =>
    simp only [fire, Option.ite_none_right_eq_some] at fired
    cases fired.2
    exact .goes kept.calm kept.sound trivial
  | enters n env =>
    simp only [fire] at fired
    split at fired
    next call waiting free =>
      cases fired
      exact kept.enters call waiting met
    next => cases fired
  | goes n =>
    have calm := kept.calm n
    simp only [fire] at fired
    split at fired
    next now token tokens reaping =>
      cases fired
      exact kept.reaps reaping met
    next =>
      cases fired
      exact .goes kept.calm kept.sound trivial
    next client rest joining =>
      rw [joining] at calm
      exact calm.elim
    next username token naming =>
      rw [naming] at calm
      exact calm.elim
    next =>
      cases fired
      exact .goes kept.calm kept.sound trivial
    next =>
      simp only [Option.ite_none_right_eq_some] at fired
      cases fired.2
      exact .goes kept.calm kept.sound trivial
    next => cases fired
  | drops n client =>
    simp only [fire, Option.ite_none_right_eq_some] at fired
    cases fired.2
    exact .drops kept.calm kept.sound trivial trivial
  | resumes client env =>
    simp only [fire] at fired
    split at fired
    next callback waiting free =>
      cases fired
      exact ⟨kept.sound.callback callback, kept.calm⟩
    next => cases fired
  | calls client callback | returns client | ends client =>
    simp only [fire, Option.ite_none_right_eq_some] at fired
    cases fired.2
    exact ⟨kept.sound, kept.calm⟩

theorem keptFirst (config : SessionConfig) : Kept config {} := by
  refine ⟨⟨⟨?_, ?_⟩, Nat.zero_le _⟩, fun _ => trivial⟩ <;> intro _ _ found <;> simp [AList.lookup_empty] at found

theorem Kept.run (kept : Kept config s) (run : Run config (Keeps config) s t) : Kept config t := by
  induction run with
  | refl => exact kept
  | step _ met fired ih => exact ih.step met fired

end Steps

/-! A thread that waits so has waited for good: nobody else can be under the mutex. -/

section Waiting
variable {config : SessionConfig} {env : SessionEnv} {s t : WebClient} {n m client : Nat} {token : Bytes} {task waits rest : SessionTask}

structure Exclusive (s : WebClient) : Prop where
  request : ∀ n, (s.tasks n).Inside → s.owner = some (.request n)
  worker : ∀ client, s.workers client = .inside → s.owner = some (.worker client)

/- A step of one thread: the others stay where they are, and no worker gets under the mutex. -/
structure Acts (s t : WebClient) (n : Nat) : Prop where
  others : ∀ m, m ≠ n → t.tasks m = s.tasks m
  owner : t.owner = s.owner
  workers : ∀ client, t.workers client = .inside → s.workers client = .inside

theorem actsAt (s : WebClient) (n : Nat) (task : SessionTask) : Acts s (s.at_ n task) n :=
  ⟨fun _ other => atOther other, rfl, fun _ inside => inside⟩

theorem actsRelease (s : WebClient) (n client : Nat) (waits rest : SessionTask) : Acts s (s.release n client waits rest) n := by
  simp only [release]
  split
  · exact ⟨fun _ other => atOther other, rfl, fun _ inside => inside⟩
  · exact ⟨fun _ other => atOther other, rfl, fun _ inside => inside⟩

theorem Acts.since {u : WebClient} (acts : Acts u t n) (tasks : u.tasks = s.tasks) (owner : u.owner = s.owner)
    (workers : ∀ client, u.workers client = .inside → s.workers client = .inside) : Acts s t n :=
  ⟨fun m other => (acts.others m other).trans (congrFun tasks m), acts.owner.trans owner,
    fun client inside => workers client (acts.workers client inside)⟩

theorem insideBefore {workers : Nat → ClientWorker} {one : Nat} {worker : ClientWorker} (out : worker ≠ .inside)
    (inside : Function.update workers one worker client = .inside) : client ≠ one ∧ workers client = .inside := by
  by_cases same : client = one
  · rw [same, Function.update_self] at inside
    exact absurd inside out
  · rw [Function.update_of_ne same] at inside
    exact ⟨same, inside⟩

theorem startedInside (inside : s.startClient.workers client = .inside) : s.workers client = .inside :=
  (insideBefore (by simp) inside).2

theorem actsLogin (config : SessionConfig) (env : SessionEnv) (s : WebClient) (n : Nat) (username : Bytes) :
    Acts s (s.login config env n username) n := by
  unfold login
  split
  · exact (actsAt _ n _).since rfl rfl fun _ inside => inside
  · dsimp only
    split
    · exact (actsAt _ n _).since rfl rfl fun _ inside => inside
    · split
      · exact (actsAt _ n _).since rfl rfl fun _ inside => inside
      · split
        · exact (actsRelease _ n _ _ _).since rfl rfl fun _ inside => startedInside inside
        · split
          · exact (actsRelease _ n _ _ _).since rfl rfl fun _ inside => startedInside inside
          · exact (actsAt _ n _).since rfl rfl fun _ inside => startedInside inside

theorem actsEnter (config : SessionConfig) (env : SessionEnv) (s : WebClient) (n : Nat) (call : SessionCall) :
    Acts s (s.enter config env n call) n := by
  cases call with
  | login username => exact actsLogin config env s n username
  | logout token =>
    simp only [enter, logout]
    split
    · exact actsAt s n _
    · exact (actsRelease _ n _ _ _).since rfl rfl fun _ inside => inside
  | touch token =>
    simp only [enter, touch]
    split
    · exact actsAt s n _
    · exact (actsAt _ n _).since rfl rfl fun _ inside => inside
  | _ => exact (actsAt _ n _).since rfl rfl fun _ inside => inside

theorem actsReap (config : SessionConfig) (s : WebClient) (n now : Nat) (token : Bytes) (tokens : List Bytes) :
    Acts s (s.reap config n now token tokens) n := by
  unfold reap
  split
  · exact actsAt s n _
  · split
    · exact (actsRelease _ n _ _ _).since rfl rfl fun _ inside => inside
    · exact actsAt s n _

-- The thread that has the mutex may go wherever it goes.
theorem Exclusive.acts (exclusive : Exclusive s) (acts : Acts s t n) (owns : s.owner = some (.request n)) : Exclusive t := by
  constructor
  · intro m inside
    by_cases own : m = n
    · rw [own, acts.owner, owns]
    · rw [acts.others m own] at inside
      rw [acts.owner]
      exact exclusive.request m inside
  · intro client inside
    rw [acts.owner]
    exact exclusive.worker client (acts.workers client inside)

-- One that has not stays out.
theorem Exclusive.outside (exclusive : Exclusive s) (acts : Acts s t n) (out : ¬(t.tasks n).Inside) : Exclusive t := by
  constructor
  · intro m inside
    by_cases own : m = n
    · rw [own] at inside
      exact absurd inside out
    · rw [acts.others m own] at inside
      rw [acts.owner]
      exact exclusive.request m inside
  · intro client inside
    rw [acts.owner]
    exact exclusive.worker client (acts.workers client inside)

theorem releasedOutside (s : WebClient) (n client : Nat) : ¬((s.release n client (.dropping client) .idle).tasks n).Inside := by
  simp only [release]
  split <;> rw [atOwn] <;> exact id

theorem Exclusive.none_ (exclusive : Exclusive s) (free : s.owner = none) :
    (∀ n, ¬(s.tasks n).Inside) ∧ ∀ client, s.workers client ≠ .inside := by
  constructor
  · intro n inside
    have owns := exclusive.request n inside
    rw [free] at owns
    cases owns
  · intro client inside
    have owns := exclusive.worker client inside
    rw [free] at owns
    cases owns

theorem Exclusive.goes (exclusive : Exclusive s) (fired : s.fire config (.goes n) = some t) : Exclusive t := by
  have owns := exclusive.request n
  simp only [fire] at fired
  split at fired
  next now token tokens reaping =>
    cases fired
    exact exclusive.acts (actsReap ..) (owns (by rw [reaping]; trivial))
  next reaping =>
    cases fired
    exact exclusive.acts (actsAt ..) (owns (by rw [reaping]; trivial))
  next client rest joining =>
    simp only [Option.ite_none_right_eq_some] at fired
    cases fired.2
    exact exclusive.acts (actsAt ..) (owns (by rw [joining]; trivial))
  next username token naming =>
    cases fired
    exact exclusive.acts ((actsAt _ n _).since rfl rfl fun _ inside => inside) (owns (by rw [naming]; trivial))
  next leaving =>
    cases fired
    have owns := owns (by rw [leaving]; trivial)
    constructor
    · intro m inside
      by_cases own : m = n
      · rw [own, atOwn] at inside
        exact inside.elim
      · rw [atOther own] at inside
        have other := exclusive.request m inside
        rw [owns] at other
        cases other
        exact absurd rfl own
    · intro client inside
      have other := exclusive.worker client inside
      rw [owns] at other
      cases other
  next =>
    simp only [Option.ite_none_right_eq_some] at fired
    cases fired.2
    exact exclusive.outside (actsAt ..) (by rw [atOwn]; exact id)
  next => cases fired

theorem Exclusive.step (exclusive : Exclusive s) {event : Event} (fired : s.fire config event = some t) : Exclusive t := by
  cases event with
  | asks n call =>
    simp only [fire, Option.ite_none_right_eq_some] at fired
    cases fired.2
    exact exclusive.outside (actsAt ..) (by rw [atOwn]; exact id)
  | enters n env =>
    simp only [fire] at fired
    split at fired
    next call _ free =>
      cases fired
      obtain ⟨requests, workers⟩ := exclusive.none_ free
      have taken : Exclusive { s with owner := some (.request n) } :=
        ⟨fun m inside => absurd inside (requests m), fun client inside => absurd inside (workers client)⟩
      exact taken.acts (actsEnter ..) rfl
    next => cases fired
  | goes n => exact exclusive.goes fired
  | drops n client =>
    simp only [fire, Option.ite_none_right_eq_some] at fired
    cases fired.2
    exact exclusive.outside ((actsRelease _ n _ _ _).since rfl rfl fun _ inside => inside) (releasedOutside _ n client)
  | calls client callback =>
    simp only [fire, Option.ite_none_right_eq_some] at fired
    cases fired.2
    exact ⟨exclusive.request, fun other inside => exclusive.worker other (insideBefore (by simp) inside).2⟩
  | ends client =>
    simp only [fire, Option.ite_none_right_eq_some] at fired
    cases fired.2
    exact ⟨exclusive.request, fun other inside => exclusive.worker other (insideBefore (by simp) inside).2⟩
  | resumes client env =>
    simp only [fire] at fired
    split at fired
    next callback _ free =>
      cases fired
      obtain ⟨requests, workers⟩ := exclusive.none_ free
      refine ⟨fun m inside => absurd inside (requests m), fun other inside => ?_⟩
      by_cases same : other = client
      · rw [same]
      · exact absurd ((Function.update_of_ne same ..).symm.trans inside) (workers other)
    next => cases fired
  | returns client =>
    simp only [fire, Option.ite_none_right_eq_some] at fired
    obtain ⟨held, moved⟩ := fired
    cases moved
    have owns := exclusive.worker client held
    constructor
    · intro m inside
      have other := exclusive.request m inside
      rw [owns] at other
      cases other
    · intro other inside
      obtain ⟨apart, was⟩ := insideBefore (by simp) inside
      have owner := exclusive.worker other was
      rw [owns] at owner
      cases owner
      exact absurd rfl apart

theorem releasedOther (s : WebClient) (client : Nat) (waits rest : SessionTask) (other : m ≠ n) :
    (s.release n client waits rest).tasks m = s.tasks m ∧ (s.release n client waits rest).workers = s.workers := by
  simp only [release]
  split <;> exact ⟨atOther other, rfl⟩

/- No step ends the wait. -/
theorem stuckStep (exclusive : Exclusive s) (stuck : Stuck s) {event : Event} (fired : s.fire config event = some t) : Stuck t := by
  obtain ⟨n, client, rest, callback, owns, joins, waits⟩ := stuck
  have apart {m : Nat} (idle : s.tasks m = .idle) : n ≠ m := by
    intro same
    rw [← same, joins] at idle
    cases idle
  have busy {c : Nat} (running : s.workers c = .running) : client ≠ c := by
    intro same
    rw [← same, waits] at running
    cases running
  cases event with
  | asks m call =>
    simp only [fire, Option.ite_none_right_eq_some] at fired
    obtain ⟨idle, moved⟩ := fired
    cases moved
    exact ⟨n, client, rest, callback, owns, (atOther (apart idle)).trans joins, waits⟩
  | enters m env =>
    simp only [fire, owns] at fired
    split at fired
    next free => cases free
    next => cases fired
  | goes m =>
    have alone : (s.tasks m).Inside → m = n := by
      intro inside
      have other := exclusive.request m inside
      rw [owns] at other
      cases other
      rfl
    by_cases own : m = n
    · simp [fire, own, joins, waits] at fired
    · simp only [fire] at fired
      split at fired
      next dropping =>
        exact absurd (alone (by rw [dropping]; trivial)) own
      next dropping =>
        exact absurd (alone (by rw [dropping]; trivial)) own
      next dropping =>
        exact absurd (alone (by rw [dropping]; trivial)) own
      next dropping =>
        exact absurd (alone (by rw [dropping]; trivial)) own
      next dropping =>
        exact absurd (alone (by rw [dropping]; trivial)) own
      next =>
        simp only [Option.ite_none_right_eq_some] at fired
        cases fired.2
        exact ⟨n, client, rest, callback, owns, (atOther (Ne.symm own)).trans joins, waits⟩
      next => cases fired
  | drops m other =>
    simp only [fire, Option.ite_none_right_eq_some] at fired
    obtain ⟨⟨idle, _⟩, moved⟩ := fired
    cases moved
    have kept := actsRelease { s with handles := Function.update s.handles m ((s.handles m).erase other) } m other
      (.dropping other) .idle
    have same := releasedOther { s with handles := Function.update s.handles m ((s.handles m).erase other) } other
      (.dropping other) .idle (apart idle)
    exact ⟨n, client, rest, callback, kept.owner.trans owns, same.1.trans joins, (congrFun same.2 client).trans waits⟩
  | calls other _ =>
    simp only [fire, Option.ite_none_right_eq_some] at fired
    obtain ⟨running, moved⟩ := fired
    cases moved
    exact ⟨n, client, rest, callback, owns, joins, (Function.update_of_ne (busy running) ..).trans waits⟩
  | ends other =>
    simp only [fire, Option.ite_none_right_eq_some] at fired
    obtain ⟨⟨running, _⟩, moved⟩ := fired
    cases moved
    exact ⟨n, client, rest, callback, owns, joins, (Function.update_of_ne (busy running) ..).trans waits⟩
  | resumes other env =>
    simp only [fire, owns] at fired
    split at fired
    next free => cases free
    next => cases fired
  | returns other =>
    simp only [fire, Option.ite_none_right_eq_some] at fired
    have owner := exclusive.worker other fired.1
    rw [owns] at owner
    cases owner

theorem exclusiveRun {meets : WebClient → Event → Prop} (exclusive : Exclusive s) (run : Run config meets s t) : Exclusive t := by
  induction run with
  | refl => exact exclusive
  | step _ _ fired ih => exact ih.step fired

theorem stuckForGood {meets : WebClient → Event → Prop} (exclusive : Exclusive s) (stuck : Stuck s) (run : Run config meets s t) :
    Stuck t := by
  induction run with
  | refl => exact stuck
  | step run _ fired ih => exact stuckStep (exclusiveRun exclusive run) ih fired

end Waiting
/- In every run in which no client loses its last reference under the mutex, and no token is drawn twice, no thread
under the mutex waits for a worker that waits for it; users and sessions go one to one, within the limit. -/
theorem teardownFree (config : SessionConfig) (s : WebClient) (run : Run config (Keeps config) {} s) :
    ¬Stuck s ∧ s.manager.Paired ∧ s.manager.sessions.keys.length ≤ config.maxSessions ∧
      ∀ a b x y, s.manager.sessions.lookup a = some x → s.manager.sessions.lookup b = some y → x.username = y.username → a = b := by
  have kept := (keptFirst config).run run
  refine ⟨fun stuck => ?_, kept.sound.paired, kept.sound.fits, fun a b x y first second same => ?_⟩
  · obtain ⟨n, client, rest, _, _, joins, _⟩ := stuck
    have calm := kept.calm n
    rw [joins] at calm
    exact calm
  · have one := kept.sound.paired.named a x first
    rw [same, kept.sound.paired.named b y second] at one
    exact (Option.some.inj one).symm

/- One account: the reaper takes its session away while its worker is being asked for a key, and a logout that holds
on to the client until it has given the mutex back. -/
section Alice

def aliceConfig : SessionConfig := ⟨4, 10, ascii "/k"⟩
def aliceToken : Bytes := ascii "t"
def aliceEnv : SessionEnv := { token := .ok aliceToken, csrfToken := .ok (ascii "c") }
def aliceLogin : List Event := [.asks 0 (.login (ascii "alice")), .enters 0 aliceEnv, .goes 0]

def reaped : List Event := aliceLogin ++ [.asks 1 (.reapIdle 100), .enters 1 aliceEnv, .goes 1, .calls 0 (.recognitionKey aliceToken)]

def loggedOut : List Event := aliceLogin ++ [.asks 0 (.touch aliceToken), .enters 0 aliceEnv, .goes 0,
  .calls 0 (.recognitionKey aliceToken), .asks 0 (.logout aliceToken), .enters 0 aliceEnv, .goes 0, .drops 0 0,
  .resumes 0 aliceEnv, .returns 0, .ends 0, .goes 0]

def play (meets : WebClient → Event → Bool) (s : WebClient) : List Event → Option WebClient
  | [] => some s
  | event :: later => if meets s event then (s.fire aliceConfig event).bind fun t => play meets t later else none

theorem playRun {meets : WebClient → Event → Prop} {check : WebClient → Event → Bool}
    (checked : ∀ s event, check s event = true → meets s event) {first s t : WebClient} (run : Run aliceConfig meets first s)
    {events : List Event} (played : play check s events = some t) : Run aliceConfig meets first t := by
  induction events generalizing s with
  | nil =>
    cases played
    exact run
  | cons event later ih =>
    simp only [play, Option.ite_none_right_eq_some] at played
    obtain ⟨meets, played⟩ := played
    obtain ⟨u, fired, rest⟩ := Option.bind_eq_some_iff.mp played
    exact ih (run.step (checked s event meets) fired) rest

theorem reaperStuck : ∃ s, Run aliceConfig (fun _ _ => True) {} s ∧ Stuck s ∧
    ∀ t, Run aliceConfig (fun _ _ => True) s t → Stuck t := by
  have played : (play (fun _ _ => true) {} reaped).map (fun s => (s.owner, s.tasks 1, s.workers 0)) =
      some (some (.request 1), .joining 0 (.reaping 100 []), .waiting (.recognitionKey aliceToken)) := by decide +kernel
  obtain ⟨s, ran, view⟩ := Option.map_eq_some_iff.mp played
  simp only [Prod.mk.injEq] at view
  have run : Run aliceConfig (fun _ _ => True) {} s := playRun (fun _ _ _ => trivial) (.refl {}) ran
  have stuck : Stuck s := ⟨1, 0, _, _, view.1, view.2.1, view.2.2⟩
  have fresh : Exclusive {} := ⟨fun _ inside => inside.elim, fun _ inside => by cases inside⟩
  exact ⟨s, run, stuck, fun t later => stuckForGood (exclusiveRun fresh run) stuck later⟩

def freshDraws (s : WebClient) (env : SessionEnv) : Bool :=
  (env.token.toOption.all fun token => (s.manager.sessions.lookup token).isNone) && env.csrfToken.isOk

def shared (s : WebClient) (token : Bytes) : Bool := (s.manager.sessions.lookup token).all fun session => 1 < s.useCount session.client

def keepsCheck (s : WebClient) : Event → Bool
  | .enters n env => match s.tasks n with
    | .waiting (.login _) => freshDraws s env
    | .waiting (.logout token) => shared s token
    | _ => true
  | .goes n => match s.tasks n with
    | .reaping _ (token :: _) => shared s token
    | _ => true
  | _ => true

theorem sharedOne {s : WebClient} {token : Bytes} {session : WebSession} (checked : shared s token = true)
    (there : s.manager.sessions.lookup token = some session) : 1 < s.useCount session.client := by
  simpa [shared, there] using checked

theorem keepsChecked (s : WebClient) (event : Event) (checked : keepsCheck s event = true) : Keeps aliceConfig s event := by
  cases event with
  | enters n env =>
    constructor
    · intro username waiting
      simp only [keepsCheck, waiting, freshDraws, Bool.and_eq_true] at checked
      refine ⟨fun token given => ?_, ?_⟩
      · simpa [given, Except.toOption] using checked.1
      · cases drawn : env.csrfToken with
        | ok csrfToken => exact ⟨csrfToken, rfl⟩
        | error e => simp [drawn, Except.isOk, Except.toBool] at checked
    · intro token session waiting there
      simp only [keepsCheck, waiting] at checked
      exact sharedOne checked there
  | goes n =>
    intro now token tokens session reaping there _
    simp only [keepsCheck, reaping] at checked
    exact sharedOne checked there
  | _ => trivial

theorem logoutFree : ∃ s, Run aliceConfig (Keeps aliceConfig) {} s ∧ s.workers 0 = .finished ∧ ¬Stuck s := by
  have played : (play keepsCheck {} loggedOut).map (fun s => s.workers 0) = some .finished := by decide +kernel
  obtain ⟨s, ran, view⟩ := Option.map_eq_some_iff.mp played
  have run : Run aliceConfig (Keeps aliceConfig) {} s := playRun keepsChecked (.refl {}) ran
  exact ⟨s, run, view, (teardownFree aliceConfig s run).1⟩

end Alice
end WebClient
end TradeP2P
