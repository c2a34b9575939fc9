import TradeP2P.Identity.KeyLogin

/-! Login challenges under concurrent requests. Every request has a thread of its own, the threads take their steps in
any order, and accounts are registered and keys enrolled in between. The books follow each challenge from where it was
issued to the login it leads to; the code does not keep them. -/
namespace TradeP2P.KeyLogin
open Wire (Bytes ascii)
open Checks Machine

/-! The books. Challenges are told apart by the order in which they were issued. -/

/- What a thread has gone by: the challenge it found and when, the key it fetched, and the signature it was given. -/
structure Trail where
  number : Nat
  peekedAt : UInt64
  key : Option EnrolledLoginKey := none
  signature : Bytes := []

structure Login where
  thread : Nat
  username : Bytes
  trail : Trail

structure Books where
  issued : List LoginChallengeFields := []
  numbered : List (Nat × LoginChallengeFields) := []
  trail : Nat → Option Trail := fun _ => none
  logins : List Login := []

def isSession (sessionId : LoginSessionId) (challenge : Nat × LoginChallengeFields) : Bool :=
  LoginChallengeTracker.isSession sessionId challenge.2

def Books.note (books : Books) (n : Nat) (env : WebEnv) (before : WebState) (task next : KeyTask) (after : WebState) : Books :=
  match task, next with
  | .issuing _ _, _ =>
      let fresh := after.tracker.outstanding.drop before.tracker.outstanding.length
      { books with issued := books.issued ++ fresh, numbered := books.numbered ++ fresh.map (books.issued.length, ·) }
  | .looking attempt, .taking _ challenge =>
      let found := if challenge.isSome then books.numbered.find? (isSession attempt.sessionId) else none
      { books with trail := Function.update books.trail n (found.map fun challenge => ⟨challenge.1, env.orNow 0, none, []⟩) }
  | .taking attempt _, _ => { books with numbered := books.numbered.filter fun challenge => !isSession attempt.sessionId challenge }
  | .fetching attempt _, _ =>
      { books with trail := Function.update books.trail n ((books.trail n).map fun trail =>
          { trail with key := before.accounts.loginKey attempt.username, signature := attempt.signature }) }
  | .admitting username, .answered (.authenticated (.ok _)) =>
      { books with logins := books.logins ++ ((books.trail n).map fun trail => ⟨n, username, trail⟩).toList }
  | _, _ => books

/-! Runs. -/

structure State where
  web : WebState := {}
  tasks : Nat → Option KeyTask := fun _ => none
  books : Books := {}

inductive Event where
  | arrives (n : Nat) (request : KeyRequest)
  | acts (n : Nat) (env : WebEnv)
  | creates (username : Bytes) (appended : Except Error Unit)
  | enrols (username : Bytes) (key : EnrolledLoginKey) (appended : Except Error Unit)

def State.store (s : State) (accounts : AccountStore) : State := { s with web := { s.web with accounts } }

section Runs
variable (crypto : Crypto) (serverIdentity : Bytes)

def State.act (s : State) (n : Nat) (env : WebEnv) (task : KeyTask) : State :=
  let moved := task.step crypto serverIdentity env s.web
  { web := moved.2
    tasks := Function.update s.tasks n (some moved.1)
    books := s.books.note n env s.web task moved.1 moved.2 }

def fire (s : State) : Event → Option State
  | .arrives n request =>
      if (s.tasks n).isNone then some { s with tasks := Function.update s.tasks n (some (.asked request)) } else none
  | .acts n env => (s.tasks n).map (s.act crypto serverIdentity n env)
  | .creates username appended => some (s.store (next (fun (_ : Unit) => AccountStore.create username appended) s.web.accounts ()))
  | .enrols username key appended => some (s.store (next (fun (_ : Unit) => AccountStore.setLoginKey username key appended) s.web.accounts ()))

inductive Run (meets : State → Event → Prop) : List Event → State → Prop where
  | start : Run meets [] {}
  | step {events : List Event} {s t : State} {event : Event} (before : Run meets events s) (met : meets s event)
      (fired : fire crypto serverIdentity s event = some t) : Run meets (events ++ [event]) t

end Runs

/- No request looks up a session while another has looked it up and not taken it off yet. -/
def Apart (s : State) : Event → Prop
  | .acts n _ => ∀ attempt, s.tasks n = some (.looking attempt) →
      ∀ m other challenge, s.tasks m = some (.taking other challenge) → other.sessionId ≠ attempt.sessionId
  | _ => True

/- A login goes by a challenge that was issued to its user, had not expired when it was looked up, and is of the suite of
the key the account had when it was fetched, which the signature verifies under. -/
structure Sound (crypto : Crypto) (issued : List LoginChallengeFields) (username : Bytes) (trail : Trail) : Prop where
  challenge : ∃ fields key, issued[trail.number]? = some fields ∧ trail.key = some key ∧ fields.username = username ∧
    fields.suiteId = key.suiteId ∧ trail.peekedAt ≤ fields.expiresAt ∧ key.verify crypto fields trail.signature = .ok true

/-! What every run keeps. -/
section Keeping
variable {crypto : Crypto} {serverIdentity : Bytes} {s t : State} {books after : Books} {n : Nat}

def Keeps (crypto : Crypto) (books : Books) (n : Nat) : Option KeyTask → Prop
  | some (.taking _ challenge) | some (.fetching _ challenge) => ∀ fields, challenge = some fields →
      ∃ trail, books.trail n = some trail ∧ books.issued[trail.number]? = some fields ∧ trail.peekedAt ≤ fields.expiresAt
  | some (.succeeding username) | some (.admitting username) =>
      ∃ trail, books.trail n = some trail ∧ Sound crypto books.issued username trail
  | _ => True

/- A thread that found a challenge has taken it off, or is about to. -/
def Takes (books : Books) (trail : Trail) (task : Option KeyTask) : Prop :=
  trail.number ∉ books.numbered.map Prod.fst ∨ ∃ attempt challenge, task = some (.taking attempt challenge) ∧
    ∃ fields, books.issued[trail.number]? = some fields ∧ fields.sessionId = attempt.sessionId

structure Kept (crypto : Crypto) (s : State) : Prop where
  held : s.books.numbered.map Prod.snd = s.web.tracker.outstanding
  numbers : ∀ challenge ∈ s.books.numbered, s.books.issued[challenge.1]? = some challenge.2
  threads : ∀ n, Keeps crypto s.books n (s.tasks n)
  trails : ∀ n trail, s.books.trail n = some trail → trail.number < s.books.issued.length ∧ Takes s.books trail (s.tasks n)
  logins : ∀ login ∈ s.books.logins, (∃ response, s.tasks login.thread = some (.answered response)) ∧
    s.books.trail login.thread = some login.trail ∧ Sound crypto s.books.issued login.username login.trail
  distinct : (s.books.logins.map Login.thread).Nodup

def Unique (books : Books) : Prop := ∀ n m a b, books.trail n = some a → books.trail m = some b → a.number = b.number → n = m

theorem issuedStays (grows : books.issued <+: after.issued) {k : Nat} {fields : LoginChallengeFields}
    (there : books.issued[k]? = some fields) : after.issued[k]? = some fields := by
  obtain ⟨more, same⟩ := grows
  rw [← same, List.getElem?_append_left (List.getElem?_eq_some_iff.mp there).1]
  exact there

theorem Sound.grows {username : Bytes} {trail : Trail} (sound : Sound crypto books.issued username trail)
    (grows : books.issued <+: after.issued) : Sound crypto after.issued username trail := by
  obtain ⟨fields, key, there, rest⟩ := sound.challenge
  exact ⟨fields, key, issuedStays grows there, rest⟩

theorem keepsGrows {task : Option KeyTask} (same : after.trail n = books.trail n) (grows : books.issued <+: after.issued)
    (keeps : Keeps crypto books n task) : Keeps crypto after n task := by
  unfold Keeps at keeps ⊢
  split
  · intro fields found
    obtain ⟨trail, own, there, early⟩ := keeps fields found
    exact ⟨trail, same.trans own, issuedStays grows there, early⟩
  · intro fields found
    obtain ⟨trail, own, there, early⟩ := keeps fields found
    exact ⟨trail, same.trans own, issuedStays grows there, early⟩
  · obtain ⟨trail, own, sound⟩ := keeps
    exact ⟨trail, same.trans own, sound.grows grows⟩
  · obtain ⟨trail, own, sound⟩ := keeps
    exact ⟨trail, same.trans own, sound.grows grows⟩
  · exact True.intro

/- What the step of a thread has to see to for itself: the others go on as they were. -/
structure Acts (crypto : Crypto) (s : State) (n : Nat) (next : KeyTask) (web : WebState) (books : Books) : Prop where
  held : books.numbered.map Prod.snd = web.tracker.outstanding
  numbers : ∀ challenge ∈ books.numbered, books.issued[challenge.1]? = some challenge.2
  grows : s.books.issued <+: books.issued
  older : ∀ number ∈ books.numbered.map Prod.fst, number ∈ s.books.numbered.map Prod.fst ∨ s.books.issued.length ≤ number
  others : ∀ m, m ≠ n → books.trail m = s.books.trail m
  own : Keeps crypto books n (some next)
  trails : ∀ trail, books.trail n = some trail → trail.number < books.issued.length ∧ Takes books trail (some next)
  logins : ∃ new : Option Login, books.logins = s.books.logins ++ new.toList ∧ ∀ login ∈ new, login.thread = n ∧
    (∃ response, next = .answered response) ∧ books.trail n = some login.trail ∧ Sound crypto books.issued login.username login.trail

theorem Takes.older {trail : Trail} {task : Option KeyTask} (takes : Takes books trail task) (grows : books.issued <+: after.issued)
    (inside : trail.number < books.issued.length)
    (older : ∀ number ∈ after.numbered.map Prod.fst, number ∈ books.numbered.map Prod.fst ∨ books.issued.length ≤ number) :
    Takes after trail task := by
  rcases takes with gone | ⟨attempt, challenge, taking, fields, there, session⟩
  · refine .inl fun back => ?_
    rcases older _ back with before | late
    · exact gone before
    · omega
  · exact .inr ⟨attempt, challenge, taking, fields, issuedStays grows there, session⟩

theorem Kept.acts (kept : Kept crypto s) {task next : KeyTask} {web : WebState} (running : s.tasks n = some task)
    (open_ : ∀ response, task ≠ .answered response) (acts : Acts crypto s n next web books) :
    Kept crypto { web, tasks := Function.update s.tasks n (some next), books } := by
  have apart : ∀ login ∈ s.books.logins, login.thread ≠ n := by
    intro login mem same
    obtain ⟨⟨response, done⟩, _⟩ := kept.logins login mem
    rw [same, running] at done
    exact open_ response (Option.some.inj done)
  obtain ⟨new, logged, news⟩ := acts.logins
  refine ⟨acts.held, acts.numbers, fun m => ?_, fun m trail gone => ?_, fun login mem => ?_, ?_⟩
  · by_cases same : m = n
    · simp only [same, Function.update_self]
      exact acts.own
    · simp only [Function.update_of_ne same]
      exact keepsGrows (acts.others m same) acts.grows (kept.threads m)
  · by_cases same : m = n
    · simp only [same, Function.update_self] at gone ⊢
      exact acts.trails trail gone
    · simp only [Function.update_of_ne same] at gone ⊢
      rw [acts.others m same] at gone
      obtain ⟨inside, takes⟩ := kept.trails m trail gone
      exact ⟨inside.trans_le acts.grows.length_le, takes.older acts.grows inside acts.older⟩
  · simp only [logged, List.mem_append, Option.mem_toList] at mem
    rcases mem with old | mem
    · obtain ⟨done, own, sound⟩ := kept.logins login old
      simp only [Function.update_of_ne (apart login old)]
      exact ⟨done, (acts.others _ (apart login old)).trans own, sound.grows acts.grows⟩
    · obtain ⟨same, ⟨response, done⟩, own, sound⟩ := news login mem
      simp only [same, Function.update_self]
      exact ⟨⟨response, by rw [done]⟩, own, sound⟩
  · simp only [logged, List.map_append, List.nodup_append]
    refine ⟨kept.distinct, by cases new <;> simp, ?_⟩
    intro thread mem other own same
    obtain ⟨login, old, rfl⟩ := List.mem_map.mp mem
    obtain ⟨login', fresh, rfl⟩ := List.mem_map.mp own
    exact apart login old (same.trans (news login' (Option.mem_toList.mp fresh)).1)

theorem Kept.gone (kept : Kept crypto s) {task : KeyTask} (running : s.tasks n = some task)
    (other : ∀ attempt challenge, task ≠ .taking attempt challenge) {trail : Trail} (own : s.books.trail n = some trail) :
    trail.number < s.books.issued.length ∧ trail.number ∉ s.books.numbered.map Prod.fst := by
  obtain ⟨inside, takes⟩ := kept.trails n trail own
  rcases takes with gone | ⟨attempt, challenge, taking, _⟩
  · exact ⟨inside, gone⟩
  · rw [running] at taking
    exact absurd (Option.some.inj taking) (other attempt challenge)

/- A step that writes nothing down. -/
theorem Kept.quiet (kept : Kept crypto s) {task next : KeyTask} {web : WebState} (running : s.tasks n = some task)
    (other : ∀ attempt challenge, task ≠ .taking attempt challenge) (tracker : web.tracker = s.web.tracker)
    (own : Keeps crypto s.books n (some next)) : Acts crypto s n next web s.books where
  held := by rw [tracker]; exact kept.held
  numbers := kept.numbers
  grows := List.prefix_refl _
  older _ mem := .inl mem
  others _ _ := rfl
  own := own
  trails _ own := ⟨(kept.gone running other own).1, .inl (kept.gone running other own).2⟩
  logins := ⟨none, by simp, by simp⟩

theorem Kept.issues (kept : Kept crypto s) {username : Bytes} {suiteId : UInt16} {next : KeyTask} {web : WebState} {env : WebEnv}
    {more : Option LoginChallengeFields} (running : s.tasks n = some (.issuing username suiteId))
    (added : web.tracker.outstanding = s.web.tracker.outstanding ++ more.toList) (own : ∀ books, Keeps crypto books n (some next)) :
    Acts crypto s n next web (s.books.note n env s.web (.issuing username suiteId) next web) := by
  have fresh : web.tracker.outstanding.drop s.web.tracker.outstanding.length = more.toList := by rw [added, List.drop_left]
  simp only [Books.note, fresh]
  refine ⟨?_, ?_, List.prefix_append _ _, ?_, fun _ _ => rfl, own _, ?_, none, by simp, by simp⟩
  · rw [added, ← kept.held]
    cases more <;> simp
  · intro challenge mem
    rcases List.mem_append.mp mem with old | new
    · exact issuedStays (List.prefix_append _ _) (kept.numbers challenge old)
    · obtain ⟨fields, is, rfl⟩ := List.mem_map.mp new
      rw [Option.mem_toList.mp is]
      simp
  · intro number mem
    rw [List.map_append, List.mem_append] at mem
    rcases mem with old | new
    · exact .inl old
    · obtain ⟨challenge, is, rfl⟩ := List.mem_map.mp new
      obtain ⟨fields, _, rfl⟩ := List.mem_map.mp is
      exact .inr (Nat.le_refl _)
  · intro trail own
    obtain ⟨inside, gone⟩ := kept.gone running (by simp) own
    refine ⟨by rw [List.length_append]; omega, .inl ?_⟩
    rw [List.map_append, List.mem_append, not_or]
    refine ⟨gone, fun new => ?_⟩
    obtain ⟨challenge, is, same⟩ := List.mem_map.mp new
    obtain ⟨fields, _, rfl⟩ := List.mem_map.mp is
    simp only at same
    omega

theorem Kept.finds (kept : Kept crypto s) {attempt : Attempt} {env : LoginEnv} {fields : LoginChallengeFields}
    (peeked : LoginChallengeTracker.peek env s.web.tracker attempt.sessionId 0 = some fields) :
    ∃ number, s.books.numbered.find? (isSession attempt.sessionId) = some (number, fields) ∧ s.books.issued[number]? = some fields ∧
      env.orNow 0 ≤ fields.expiresAt ∧ fields.sessionId = attempt.sessionId := by
  unfold LoginChallengeTracker.peek at peeked
  rw [← kept.held, List.find?_map] at peeked
  cases found : s.books.numbered.find? (LoginChallengeTracker.isSession attempt.sessionId ∘ Prod.snd) with
  | none =>
      rw [found] at peeked
      cases peeked
  | some challenge =>
      rw [found] at peeked
      simp only [Option.map_some, Option.ite_none_left_eq_some, Option.some.injEq] at peeked
      obtain ⟨early, rfl⟩ := peeked
      have session := List.find?_some found
      exact ⟨challenge.1, found, kept.numbers challenge (List.mem_of_find?_eq_some found), UInt64.not_lt.mp early,
        by simpa [LoginChallengeTracker.isSession] using session⟩

theorem Kept.looks (kept : Kept crypto s) {attempt : Attempt} {env : WebEnv} :
    Acts crypto s n (.taking attempt (LoginChallengeTracker.peek env.toLoginEnv s.web.tracker attempt.sessionId 0)) s.web
      (s.books.note n env s.web (.looking attempt)
        (.taking attempt (LoginChallengeTracker.peek env.toLoginEnv s.web.tracker attempt.sessionId 0)) s.web) := by
  cases peeked : LoginChallengeTracker.peek env.toLoginEnv s.web.tracker attempt.sessionId 0 with
  | none =>
      refine ⟨kept.held, kept.numbers, List.prefix_refl _, fun _ mem => .inl mem, fun m other => Function.update_of_ne other _ _,
        fun _ found => (by cases found), fun trail own => ?_, none, by simp [Books.note], by simp⟩
      simp [Books.note] at own
  | some fields =>
      obtain ⟨number, found, there, early, session⟩ := kept.finds peeked
      have own : (s.books.note n env s.web (.looking attempt) (.taking attempt (some fields)) s.web).trail n =
          some ⟨number, env.orNow 0, none, []⟩ := by simp [Books.note, found]
      refine ⟨kept.held, kept.numbers, List.prefix_refl _, fun _ mem => .inl mem, fun m other => Function.update_of_ne other _ _,
        fun _ same => ?_, fun trail is => ?_, none, by simp [Books.note], by simp⟩
      · obtain rfl := Option.some.inj same
        exact ⟨_, own, there, early⟩
      · rw [own] at is
        obtain rfl := Option.some.inj is
        exact ⟨(List.getElem?_eq_some_iff.mp there).1, .inr ⟨attempt, _, rfl, fields, there, session⟩⟩

theorem Kept.takes (kept : Kept crypto s) {attempt : Attempt} {challenge : Option LoginChallengeFields} {env : WebEnv}
    (running : s.tasks n = some (.taking attempt challenge)) :
    Acts crypto s n (.fetching attempt challenge) { s.web with tracker := s.web.tracker.consume attempt.sessionId }
      (s.books.note n env s.web (.taking attempt challenge) (.fetching attempt challenge)
        { s.web with tracker := s.web.tracker.consume attempt.sessionId }) := by
  have threads := kept.threads n
  rw [running] at threads
  refine ⟨?_, fun _ mem => kept.numbers _ (List.mem_of_mem_filter mem), List.prefix_refl _,
    fun _ mem => .inl ((List.filter_sublist.map _).subset mem), fun _ _ => rfl, threads, fun trail own => ?_, none, by simp [Books.note], by simp⟩
  · simp only [Books.note, LoginChallengeTracker.consume, ← kept.held, List.filter_map]
    rfl
  · obtain ⟨inside, takes⟩ := kept.trails n trail own
    refine ⟨inside, .inl fun back => ?_⟩
    obtain ⟨⟨number, fields⟩, mem, rfl⟩ := List.mem_map.mp back
    obtain ⟨mem, other⟩ := List.mem_filter.mp mem
    rcases takes with gone | ⟨attempt', challenge', taking, fields', there, session⟩
    · exact gone (List.mem_map_of_mem mem)
    · rw [running] at taking
      cases taking
      have same := (kept.numbers _ mem).symm.trans there
      obtain rfl := Option.some.inj same
      simp only [isSession, LoginChallengeTracker.isSession, Bool.not_eq_true', decide_eq_false_iff_not] at other
      exact other session

theorem Kept.fetches (kept : Kept crypto s) {attempt : Attempt} {challenge : Option LoginChallengeFields} {env : WebEnv} {next : KeyTask}
    (running : s.tasks n = some (.fetching attempt challenge))
    (own : Keeps crypto (s.books.note n env s.web (.fetching attempt challenge) next s.web) n (some next)) :
    Acts crypto s n next s.web (s.books.note n env s.web (.fetching attempt challenge) next s.web) := by
  refine ⟨kept.held, kept.numbers, List.prefix_refl _, fun _ mem => .inl mem, fun m other => Function.update_of_ne other _ _,
    own, fun trail own => ?_, none, by simp [Books.note], by simp⟩
  simp only [Books.note, Function.update_self, Option.map_eq_some_iff] at own
  obtain ⟨trail, own, rfl⟩ := own
  obtain ⟨inside, gone⟩ := kept.gone running (by simp) own
  exact ⟨inside, .inl gone⟩

theorem Kept.verifies (kept : Kept crypto s) {attempt : Attempt} {challenge : Option LoginChallengeFields} {env : WebEnv}
    (running : s.tasks n = some (.fetching attempt challenge))
    (ok : judge crypto attempt challenge (s.web.accounts.loginKey attempt.username) = .ok true) :
    Keeps crypto (s.books.note n env s.web (.fetching attempt challenge) (.succeeding attempt.username) s.web) n
      (some (.succeeding attempt.username)) := by
  obtain ⟨fields, key, found, enrolled, user, suite, verified⟩ := judgedTrue crypto ok
  have threads := kept.threads n
  rw [running] at threads
  obtain ⟨trail, own, there, early⟩ := threads fields found
  refine ⟨{ trail with key := some key, signature := attempt.signature }, ?_, fields, key, there, rfl, user, suite, early, verified⟩
  simp [Books.note, own, enrolled]

theorem Kept.act (kept : Kept crypto s) {env : WebEnv} {task : KeyTask} (running : s.tasks n = some task) :
    Kept crypto (s.act crypto serverIdentity n env task) := by
  have moved := moves crypto serverIdentity env task s.web
  unfold State.act
  dsimp only
  generalize (task.step crypto serverIdentity env s.web).1 = next at moved ⊢
  generalize (task.step crypto serverIdentity env s.web).2 = web at moved ⊢
  cases moved with
  | begun request _ limiter begun =>
      refine kept.acts running (by simp) (kept.quiet running (by simp) rfl ?_)
      cases begun <;> exact True.intro
  | enrolled username => exact kept.acts running (by simp) (kept.quiet running (by simp) rfl True.intro)
  | issued username suiteId fields user suite =>
      exact kept.acts running (by simp) (@Kept.issues _ _ _ kept _ _ _ _ _ (some fields) running rfl fun _ => True.intro)
  | refused username suiteId e =>
      exact kept.acts running (by simp) (@Kept.issues _ _ _ kept _ _ _ _ _ none running (by simp) fun _ => True.intro)
  | looked attempt => exact kept.acts running (by simp) kept.looks
  | took attempt challenge => exact kept.acts running (by simp) (kept.takes running)
  | verified attempt challenge ok => exact kept.acts running (by simp) (kept.fetches running (kept.verifies running ok))
  | unverified attempt challenge ok => exact kept.acts running (by simp) (kept.fetches running True.intro)
  | unjudged attempt challenge e threw => exact kept.acts running (by simp) (kept.fetches running True.intro)
  | failed username => exact kept.acts running (by simp) (kept.quiet running (by simp) rfl True.intro)
  | succeeded username =>
      have own := kept.threads n
      rw [running] at own
      exact kept.acts running (by simp) (kept.quiet running (by simp) rfl own)
  | admitted username =>
      have own := kept.threads n
      rw [running] at own
      obtain ⟨trail, own, sound⟩ := own
      cases answer : env.session with
      | error e => exact kept.acts running (by simp) (kept.quiet running (by simp) rfl True.intro)
      | ok token =>
          refine kept.acts running (by simp) ⟨kept.held, kept.numbers, List.prefix_refl _, fun _ mem => .inl mem, fun _ _ => rfl,
            True.intro, fun trail own => ?_, some ⟨n, username, trail⟩, ?_, ?_⟩
          · exact ⟨(kept.gone running (by simp) own).1, .inl (kept.gone running (by simp) own).2⟩
          · simp [Books.note, own]
          · intro login is
            obtain rfl := Option.some.inj is
            exact ⟨rfl, ⟨_, rfl⟩, own, sound⟩
  | answered response =>
      rw [← running, Function.update_eq_self]
      exact kept

theorem Kept.fired {event : Event} (kept : Kept crypto s) (fired : fire crypto serverIdentity s event = some t) : Kept crypto t := by
  cases event with
  | arrives n request =>
      simp only [fire, Option.ite_none_right_eq_some, Option.isNone_iff_eq_none, Option.some.injEq] at fired
      obtain ⟨idle, rfl⟩ := fired
      have other : ∀ {m task}, s.tasks m = some task → m ≠ n := by
        rintro m task there rfl
        rw [idle] at there
        cases there
      refine ⟨kept.held, kept.numbers, fun m => ?_, fun m trail own => ⟨(kept.trails m trail own).1, ?_⟩, fun login mem => ?_, kept.distinct⟩
      · by_cases same : m = n
        · simp only [same, Function.update_self]
          exact True.intro
        · simp only [Function.update_of_ne same]
          exact kept.threads m
      · rcases (kept.trails m trail own).2 with gone | ⟨attempt, challenge, taking, rest⟩
        · exact .inl gone
        · simp only [Function.update_of_ne (other taking)]
          exact .inr ⟨attempt, challenge, taking, rest⟩
      · obtain ⟨⟨response, done⟩, own, sound⟩ := kept.logins login mem
        simp only [Function.update_of_ne (other done)]
        exact ⟨⟨response, done⟩, own, sound⟩
  | acts n env =>
      obtain ⟨task, running, rfl⟩ := Option.map_eq_some_iff.mp fired
      exact kept.act running
  | creates username appended | enrols username key appended =>
      obtain rfl := Option.some.inj fired
      exact ⟨kept.held, kept.numbers, kept.threads, kept.trails, kept.logins, kept.distinct⟩

/-! Challenges that are looked up by one thread each. -/

/- Only a thread that looks a challenge up comes to another number. -/
theorem noteNumber {env : WebEnv} {before web : WebState} {task next : KeyTask} (other : ∀ attempt, task ≠ .looking attempt) (m : Nat) :
    ((books.note n env before task next web).trail m).map Trail.number = (books.trail m).map Trail.number := by
  unfold Books.note
  split
  · rfl
  · exact absurd rfl (other _)
  · rfl
  · by_cases same : m = n
    · simp [same, Function.comp_def]
    · simp [Function.update_of_ne same]
  · rfl
  · rfl

theorem Unique.numbers (unique : Unique books)
    (same : ∀ m, (after.trail m).map Trail.number = (books.trail m).map Trail.number) : Unique after := by
  intro n m a b own other alike
  have first := same n
  have second := same m
  rw [own, Option.map_some] at first
  rw [other, Option.map_some] at second
  obtain ⟨a', own', number⟩ := Option.map_eq_some_iff.mp first.symm
  obtain ⟨b', other', number'⟩ := Option.map_eq_some_iff.mp second.symm
  exact unique n m a' b' own' other' (by rw [number, number', alike])

theorem Unique.finds (unique : Unique books) {found : Option Trail}
    (fresh : ∀ a, found = some a → ∀ m b, books.trail m = some b → b.number ≠ a.number) :
    Unique { books with trail := Function.update books.trail n found } := by
  intro m m' a b own other alike
  by_cases here : m = n
  · by_cases there : m' = n
    · rw [here, there]
    · simp only [here, Function.update_self, Function.update_of_ne there] at own other
      exact absurd alike.symm (fresh a own m' b other)
  · simp only [Function.update_of_ne here] at own
    by_cases there : m' = n
    · simp only [there, Function.update_self] at other
      exact absurd alike (fresh b other m a own)
    · simp only [Function.update_of_ne there] at other
      exact unique m m' a b own other alike

theorem Kept.unique (kept : Kept crypto s) (unique : Unique s.books) {env : WebEnv} (apart : Apart s (.acts n env)) {task : KeyTask}
    (running : s.tasks n = some task) : Unique (s.act crypto serverIdentity n env task).books := by
  by_cases looking : ∃ attempt, task = .looking attempt
  · obtain ⟨attempt, rfl⟩ := looking
    have fresh : ∀ m trail challenge, s.books.trail m = some trail →
        s.books.numbered.find? (isSession attempt.sessionId) = some challenge → trail.number ≠ challenge.1 := by
      rintro m trail ⟨number, fields⟩ own found same
      have inside := List.mem_of_find?_eq_some found
      obtain ⟨_, gone | ⟨other, challenge, taking, fields', there, session⟩⟩ := kept.trails m trail own
      · exact gone (same ▸ List.mem_map_of_mem (f := Prod.fst) inside)
      · rw [same] at there
        obtain rfl := Option.some.inj ((kept.numbers _ inside).symm.trans there)
        have named := List.find?_some found
        simp only [isSession, LoginChallengeTracker.isSession, decide_eq_true_eq] at named
        exact apart attempt running m other challenge taking (session.symm.trans named)
    refine unique.finds fun a found m b own => ?_
    obtain ⟨challenge, first, rfl⟩ := Option.map_eq_some_iff.mp found
    split at first
    · exact fresh m b challenge own first
    · cases first
  · exact unique.numbers fun m => noteNumber (fun attempt same => looking ⟨attempt, same⟩) m

theorem Unique.once (unique : Unique s.books) (kept : Kept crypto s) : (s.books.logins.map fun login => login.trail.number).Nodup := by
  refine List.pairwise_map.mpr ((List.pairwise_map.mp kept.distinct).imp_of_mem ?_)
  intro login login' mem mem' apart same
  exact apart (unique _ _ _ _ (kept.logins login mem).2.1 (kept.logins login' mem').2.1 same)

theorem runKept {meets : State → Event → Prop} {events : List Event} (run : Run crypto serverIdentity meets events s) : Kept crypto s := by
  induction run with
  | start => constructor <;> simp [Keeps]
  | step before met fired ih => exact ih.fired fired

end Keeping

/-! Two requests that answer one challenge. -/
section Twice

def aliceName : Bytes := ascii "alice"

def aliceKey : EnrolledLoginKey := ⟨loginSuiteEd25519V1, List.replicate 32 7, by decide⟩

def raceSession : LoginSessionId := Vector.replicate 16 9

def raceEnv : WebEnv where
  nowUnixSeconds := 1000
  sessionId := .ok raceSession
  nonce := .ok (Vector.replicate 32 5)
  steady := 0
  steadyThen := 0
  session := .ok (ascii "token")

def raceChallenge : LoginChallengeFields where
  serviceId := loginServiceId
  serverIdentity := ascii "host:1"
  username := aliceName
  sessionId := raceSession
  nonce := Vector.replicate 32 5
  createdAt := 1000
  expiresAt := 1120

def raceSignature : Ed25519Signature := Vector.replicate 64 3

def racePayload : Bytes := ((encodeLoginChallengeSignedPayload raceChallenge).toOption).getD []

-- The one signature there is answers the challenge under the key of the account.
def raceCrypto : Crypto where
  sha256 _ := Vector.replicate 32 0
  ed25519 := signatureTable (fun _ => copied 32 aliceKey.bytes) [(copied 32 aliceKey.bytes, racePayload, raceSignature)]
  mldsa65 := signatureTable (fun _ => Vector.replicate 1952 0) []

def raceAnswer : KeyRequest :=
  .verify true (some aliceName) (some (toHex raceSession.toList)) (some (toHex raceSignature.toList))

def raceOpened : List Event :=
  [.creates aliceName (.ok ()), .enrols aliceName aliceKey (.ok ()), .arrives 0 (.challenge true (some aliceName)),
   .acts 0 raceEnv, .acts 0 raceEnv, .acts 0 raceEnv, .arrives 1 raceAnswer, .arrives 2 raceAnswer,
   .acts 1 raceEnv, .acts 2 raceEnv]

def finishing (n : Nat) : List Event := List.replicate 6 (.acts n raceEnv)

/- The events are taken in turn as long as each meets a condition. -/
def play (meets : State → Event → Bool) (s : State) : List Event → Option State
  | [] => some s
  | event :: later => if meets s event then (fire raceCrypto (ascii "host:1") s event).bind fun t => play meets t later else none

theorem playRun {meets : State → Event → Prop} {check : State → Event → Bool}
    (checked : ∀ before s event, Run raceCrypto (ascii "host:1") meets before s → check s event = true → meets s event)
    {s t : State} {before events : List Event} (run : Run raceCrypto (ascii "host:1") meets before s)
    (played : play check s events = some t) : Run raceCrypto (ascii "host:1") meets (before ++ events) t := by
  induction events generalizing s before with
  | nil =>
      cases played
      rwa [List.append_nil]
  | cons event later ih =>
      simp only [play, Option.ite_none_right_eq_some] at played
      obtain ⟨u, fired, rest⟩ := Option.bind_eq_some_iff.mp played.2
      have longer := ih (run.step (checked before s event run played.1) fired) rest
      rwa [List.append_assoc, List.singleton_append] at longer

def consecutive : List Event := raceOpened ++ finishing 1 ++ finishing 2

end Twice

end TradeP2P.KeyLogin
