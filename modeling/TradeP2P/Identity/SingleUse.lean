import TradeP2P.Identity.Recognition
import Mathlib.Data.List.Nodup

/-! A recognition challenge is good for one response. It goes with the first one that names its nonce, room
and mediator; one that names the nonce only leaves it where it is. -/
namespace TradeP2P
open Wire (Bytes ascii)
open Checks Machine

/- The signature of a response goes with a challenge, under the suite of the challenge. -/
inductive Answers (crypto : Crypto) (fields : RecognitionChallengeFields) (response : RecognitionResponseMessage) :
    Vector UInt8 32 → Prop where
  | ed25519 (suite : fields.suiteId = recognitionSuiteEd25519V1) (key : Ed25519PublicKey) (signature : Ed25519Signature)
      (carried : key.toList = response.proverPublicKey) (signed : signature.toList = response.signature)
      (verifies : verifyRecognitionResponse crypto key fields signature = .ok true) :
      Answers crypto fields response (recognitionFingerprint crypto key.toList)
  | mldsa65 (suite : fields.suiteId = recognitionSuiteMlDsa65V1) (key : MlDsa65PublicKey) (signature : MlDsa65Signature)
      (carried : key.toList = response.proverPublicKey) (signed : signature.toList = response.signature)
      (verifies : verifyRecognitionResponseMldsa65 crypto key fields signature = .ok true) :
      Answers crypto fields response (recognitionFingerprint crypto key.toList)

theorem fixedSome {n : Nat} {bytes : Bytes} {v : Vector UInt8 n} (read : fixedBytes n bytes = some v) :
    v.toList = bytes := by
  unfold fixedBytes at read
  split at read
  · cases read
    rfl
  · contradiction

theorem parsedKey {n : Nat} {bytes : Bytes} {key : Vector UInt8 n} (parsed : parseKey n bytes = some key) :
    key.toList = bytes :=
  fixedSome (Option.filter_eq_some_iff.mp parsed).1

theorem answeredUnder {crypto : Crypto} {n m : Nat} {publicKey : Option (Vector UInt8 n)}
    {signature : Option (Vector UInt8 m)} {verify : Vector UInt8 n → Vector UInt8 m → Except Error Bool}
    {fingerprint : Vector UInt8 32} (answers : answerUnder crypto publicKey signature verify = .ok (some fingerprint)) :
    ∃ key signature', publicKey = some key ∧ signature = some signature' ∧ verify key signature' = .ok true ∧
      fingerprint = recognitionFingerprint crypto key.toList := by
  unfold answerUnder at answers
  split at answers
  · next key signature' =>
      obtain ⟨verifies, verified, last⟩ := bind_ok.mp answers
      cases verifies with
      | true => exact ⟨key, signature', rfl, rfl, verified, by simpa using (pure_ok.mp last).symm⟩
      | false => simp [pure_ok] at last
  · simp [pure_ok] at answers

theorem checkedAnswer {crypto : Crypto} {fields : RecognitionChallengeFields} {response : RecognitionResponseMessage}
    {fingerprint : Vector UInt8 32} (checks : checkAnswer crypto fields response = .ok (some fingerprint)) :
    Answers crypto fields response fingerprint := by
  unfold checkAnswer at checks
  split at checks
  · next suite =>
      obtain ⟨key, signature, parsed, sized, verifies, rfl⟩ := answeredUnder checks
      exact .ed25519 suite key signature (parsedKey parsed) (fixedSome sized) verifies
  · split at checks
    · next suite =>
        obtain ⟨key, signature, parsed, sized, verifies, rfl⟩ := answeredUnder checks
        exact .mldsa65 suite key signature (parsedKey parsed) (fixedSome sized) verifies
    · simp [pure_ok] at checks

namespace RecognitionChallengeTracker

/-! One call. -/

/- The challenge that the response of a call takes off, answered or not. -/
def Event.takes (e : Event) : Option RecognitionChallengeFields :=
  match e.call with
  | .consume mediatorId response _ => e.before.find? (isFor mediatorId response)
  | _ => none

def Event.issues (e : Event) : Option RecognitionChallengeFields :=
  match e.result with
  | .ok (.issued fields) => some fields
  | _ => none

def Event.answered (e : Event) : Option RecognitionChallengeFields :=
  match e.result with
  | .ok (.consumed (some _)) => e.takes
  | _ => none

/- What a call does to the challenges that are outstanding. -/
inductive Moves (crypto : Crypto) : Event → Prop where
  | issued (before : List RecognitionChallengeFields) (env : RecognitionEnv) (mediatorId : Bytes) (roomId : RoomId)
      (now : UInt64) (suiteId : UInt16) (fields : RecognitionChallengeFields)
      (room : before.length < recognitionMaxOutstandingChallenges) (nonce : env.nonce = .ok fields.nonce) :
      Moves crypto ⟨before, env, .issue mediatorId roomId now suiteId, .ok (.issued fields), before ++ [fields]⟩
  | refused (before : List RecognitionChallengeFields) (env : RecognitionEnv) (mediatorId : Bytes) (roomId : RoomId)
      (now : UInt64) (suiteId : UInt16) (e : Error) :
      Moves crypto ⟨before, env, .issue mediatorId roomId now suiteId, .error e, before⟩
  | expired (before : List RecognitionChallengeFields) (env : RecognitionEnv) (now : UInt64) :
      Moves crypto ⟨before, env, .expireStale now, .ok .expired,
        before.filter fun fields => !decide (env.orNow now > fields.expiresAt)⟩
  | unknown (before : List RecognitionChallengeFields) (env : RecognitionEnv) (mediatorId : Bytes)
      (response : RecognitionResponseMessage) (now : UInt64) (none_ : before.find? (isFor mediatorId response) = none) :
      Moves crypto ⟨before, env, .consume mediatorId response now, .ok (.consumed none), before⟩
  | taken (before : List RecognitionChallengeFields) (env : RecognitionEnv) (mediatorId : Bytes)
      (response : RecognitionResponseMessage) (now : UInt64) (fields : RecognitionChallengeFields)
      (found : before.find? (isFor mediatorId response) = some fields) (result : Except Error Returned)
      (unissued : ∀ other, result ≠ .ok (.issued other))
      (answers : ∀ fingerprint, result = .ok (.consumed (some fingerprint)) →
        env.orNow now ≤ fields.expiresAt ∧ response.suiteId = fields.suiteId ∧
          Answers crypto fields response fingerprint) :
      Moves crypto ⟨before, env, .consume mediatorId response now, result, before.eraseP (isFor mediatorId response)⟩

theorem moves (crypto : Crypto) (tracker : RecognitionChallengeTracker) (env : RecognitionEnv) (call : Call) :
    Moves crypto (event crypto tracker env call) := by
  cases call with
  | issue mediatorId roomId now suiteId =>
      simp only [event, perform, issue, bind_run, get_run, lift_run, set_run, pure_run, throwIf]
      by_cases full : tracker.outstanding.length ≥ recognitionMaxOutstandingChallenges
      · simp only [if_pos full]
        exact .refused ..
      · simp only [if_neg full]
        cases nonce : env.nonce with
        | error e => exact .refused ..
        | ok nonce' => exact .issued _ _ _ _ _ _ _ (by omega) nonce
  | expireStale now => exact .expired ..
  | consume mediatorId response now =>
      simp only [event, perform, consume, bind_run, get_run, pure_run]
      cases found : tracker.outstanding.find? (isFor mediatorId response) with
      | none => exact .unknown _ _ _ _ _ found
      | some fields =>
          simp only [bind_run, set_run, ite_run, lift_run, pure_run]
          by_cases late : env.orNow now > fields.expiresAt
          · simp only [if_pos late]
            exact .taken _ _ _ _ _ fields found _ (by simp) (by simp)
          by_cases suite : response.suiteId = fields.suiteId
          · simp only [if_neg late, suite, ne_eq, not_true, if_false]
            cases checks : checkAnswer crypto fields response with
            | error e => exact .taken _ _ _ _ _ fields found _ (by simp) (by simp)
            | ok verdict =>
                refine .taken _ _ _ _ _ fields found _ (by simp) fun fingerprint answers => ?_
                cases answers
                exact ⟨UInt64.not_lt.mp late, suite, checkedAnswer checks⟩
          · simp only [if_neg late, suite, ne_eq, not_false_eq_true, if_true]
            exact .taken _ _ _ _ _ fields found _ (by simp) (by simp)

section Call
variable {crypto : Crypto} {e : Event} {c : RecognitionChallengeFields}

/- Taking the first match off takes one off. -/
theorem countErased {challenges : List RecognitionChallengeFields} {p : RecognitionChallengeFields → Bool}
    (found : challenges.find? p = some c) (d : RecognitionChallengeFields) :
    [c].count d + (challenges.eraseP p).count d = challenges.count d := by
  obtain ⟨matches_, front, back, rfl, others⟩ := List.find?_eq_some_iff_append.mp found
  have passes : ∀ a ∈ front, ¬p a = true := by simpa using others
  rw [List.eraseP_append_right _ passes, List.eraseP_cons_of_pos matches_]
  simp only [List.count_append, List.count_cons, List.count_nil]
  omega

theorem Moves.counts (moves : Moves crypto e) (d : RecognitionChallengeFields) :
    e.takes.toList.count d + e.after.count d ≤ e.issues.toList.count d + e.before.count d := by
  cases moves with
  | issued => simp [Event.takes, Event.issues, List.count_append, Nat.add_comm]
  | refused => simp [Event.takes]
  | expired before env now =>
      have fewer := (List.filter_sublist (p := fun fields => !decide (env.orNow now > fields.expiresAt)) (l := before))
      simpa [Event.takes, Event.issues] using fewer.count_le d
  | unknown _ _ _ _ _ none_ => simp [Event.takes, none_]
  | taken before env mediatorId response now fields found =>
      have erased := countErased found d
      simp only [Event.takes, found, Option.toList_some]
      omega

theorem Moves.bounded (moves : Moves crypto e) (bounded : e.before.length ≤ recognitionMaxOutstandingChallenges) :
    e.after.length ≤ recognitionMaxOutstandingChallenges := by
  cases moves with
  | issued _ _ _ _ _ _ _ room =>
      rw [List.length_append]
      exact room
  | refused => exact bounded
  | expired => exact (List.length_filter_le ..).trans bounded
  | unknown => exact bounded
  | taken => exact (List.length_eraseP_le ..).trans bounded

theorem answeredTakes (answered : e.answered = some c) : e.takes = some c := by
  unfold Event.answered at answered
  split at answered
  · exact answered
  · contradiction

/- What a response that was accepted has to do with the challenge it took off. -/
def Event.AnsweredWith (crypto : Crypto) (e : Event) (fingerprint : Vector UInt8 32) : Prop :=
  ∃ c mediatorId response now, e.call = .consume mediatorId response now ∧ e.answered = some c ∧ c ∈ e.before ∧
    response.nonce = c.nonce ∧ response.roomId = c.roomId ∧ mediatorId = c.mediatorId ∧ response.suiteId = c.suiteId ∧
    Answers crypto c response fingerprint ∧ e.env.orNow now ≤ c.expiresAt

theorem Moves.answers (moves : Moves crypto e) {fingerprint : Vector UInt8 32}
    (accepted : e.result = .ok (.consumed (some fingerprint))) : e.AnsweredWith crypto fingerprint := by
  cases moves with
  | issued => cases accepted
  | refused => cases accepted
  | expired => cases accepted
  | unknown => cases accepted
  | taken before env mediatorId response now fields found result unissued answers =>
      obtain rfl := accepted
      obtain ⟨intime, suite, signed⟩ := answers fingerprint rfl
      have named := List.find?_some found
      simp only [isFor, decide_eq_true_eq] at named
      exact ⟨fields, mediatorId, response, now, rfl, found, List.mem_of_find?_eq_some found, named.1.symm,
        named.2.1.symm, named.2.2.symm, suite, signed, intime⟩

theorem Moves.unknownKeeps (moves : Moves crypto e) {mediatorId : Bytes} {response : RecognitionResponseMessage}
    {now : UInt64} (call : e.call = .consume mediatorId response now) (none_ : e.takes = none) : e.after = e.before := by
  cases moves with
  | issued => cases call
  | refused => rfl
  | expired => cases call
  | unknown => rfl
  | taken before env mediatorId response now fields found =>
      exact absurd (found.symm.trans none_) (by simp)

theorem Moves.consumeIssuesNone (moves : Moves crypto e) {mediatorId : Bytes} {response : RecognitionResponseMessage}
    {now : UInt64} (call : e.call = .consume mediatorId response now) : e.issues = none := by
  cases moves with
  | issued => cases call
  | refused => rfl
  | expired => cases call
  | unknown => rfl
  | taken before env mediatorId response now fields found result unissued =>
      unfold Event.issues
      split
      · next other issued => exact absurd issued (unissued other)
      · rfl

end Call

/-! Runs. -/

def issued (events : List Event) : List RecognitionChallengeFields := events.filterMap Event.issues
def taken (events : List Event) : List RecognitionChallengeFields := events.filterMap Event.takes
def answered (events : List Event) : List RecognitionChallengeFields := events.filterMap Event.answered

def left (crypto : Crypto) : RecognitionChallengeTracker → List (RecognitionEnv × Call) → RecognitionChallengeTracker
  | tracker, [] => tracker
  | tracker, (env, call) :: later => left crypto ⟨(event crypto tracker env call).after⟩ later

section Runs
variable {crypto : Crypto} {tracker : RecognitionChallengeTracker} {calls : List (RecognitionEnv × Call)}
  {front back : List Event} {e : Event} {c : RecognitionChallengeFields}

theorem eventBefore (env : RecognitionEnv) (call : Call) : (event crypto tracker env call).before = tracker.outstanding := by
  unfold event
  split <;> rfl

theorem filterMapCons {α β : Type} (f : α → Option β) (a : α) (as : List α) :
    (a :: as).filterMap f = (f a).toList ++ as.filterMap f := by
  cases some_ : f a <;> simp [some_]

theorem runCounts (crypto : Crypto) (tracker : RecognitionChallengeTracker) (calls : List (RecognitionEnv × Call))
    (c : RecognitionChallengeFields) :
    (taken (events crypto tracker calls)).count c + (left crypto tracker calls).outstanding.count c ≤
      (issued (events crypto tracker calls)).count c + tracker.outstanding.count c := by
  induction calls generalizing tracker with
  | nil => simp [events, taken, issued, left]
  | cons call later ih =>
      obtain ⟨env, call⟩ := call
      have now := (moves crypto tracker env call).counts c
      have rest := ih ⟨(event crypto tracker env call).after⟩
      rw [eventBefore] at now
      simp only [events, left, taken, issued, filterMapCons, List.count_append] at rest ⊢
      omega

theorem answeredCounts (events : List Event) (c : RecognitionChallengeFields) :
    (answered events).count c ≤ (taken events).count c := by
  induction events with
  | nil => rfl
  | cons e later ih =>
      have now : e.answered.toList.count c ≤ e.takes.toList.count c := by
        cases answers : e.answered with
        | none => simp
        | some d => rw [answeredTakes answers]
      simp only [answered, taken, filterMapCons, List.count_append] at ih ⊢
      omega

theorem answeredOnce (calls : List (RecognitionEnv × Call)) (c : RecognitionChallengeFields) :
    (answered (events crypto {} calls)).count c ≤ (issued (events crypto {} calls)).count c := by
  have counts := runCounts crypto {} calls c
  have fewer := answeredCounts (events crypto {} calls) c
  simp only [List.count_nil] at counts
  omega

theorem eventsSplit (split_ : events crypto tracker calls = front ++ e :: back) :
    ∃ earlier env call later, front = events crypto tracker earlier ∧
      e = event crypto (left crypto tracker earlier) env call ∧ back = events crypto ⟨e.after⟩ later := by
  induction front generalizing tracker calls with
  | nil =>
      cases calls with
      | nil => simp [events] at split_
      | cons call later =>
          simp only [events, List.nil_append, List.cons.injEq] at split_
          obtain ⟨rfl, rfl⟩ := split_
          exact ⟨[], _, _, later, rfl, rfl, rfl⟩
  | cons first front ih =>
      cases calls with
      | nil => simp [events] at split_
      | cons call later =>
          simp only [events, List.cons_append, List.cons.injEq] at split_
          obtain ⟨rfl, rest⟩ := split_
          obtain ⟨earlier, env, call', later', rfl, same, back'⟩ := ih rest
          exact ⟨call :: earlier, env, call', later', rfl, same, back'⟩

theorem eventMoves (run : e ∈ events crypto tracker calls) : Moves crypto e := by
  obtain ⟨front, back, split_⟩ := List.append_of_mem run
  obtain ⟨earlier, env, call, _, _, rfl, _⟩ := eventsSplit split_
  exact moves ..

theorem runBounded (start : tracker.outstanding.length ≤ recognitionMaxOutstandingChallenges) :
    ∀ e ∈ events crypto tracker calls, e.after.length ≤ recognitionMaxOutstandingChallenges := by
  induction calls generalizing tracker with
  | nil => simp [events]
  | cons call later ih =>
      have now := (moves crypto tracker call.1 call.2).bounded (by rwa [eventBefore])
      intro e mem
      rcases List.mem_cons.mp mem with rfl | rest
      · exact now
      · exact ih now e rest

/- A nonce is drawn once. -/
def FreshNonces (events : List Event) : Prop := ((issued events).map (·.nonce)).Nodup

/- A response answers with the nonce of a challenge that is still out. -/
def Event.Names (e : Event) (c : RecognitionChallengeFields) : Prop :=
  c ∈ e.before ∧ ∃ mediatorId response now, e.call = .consume mediatorId response now ∧ response.nonce = c.nonce

/- What is named and not answered is gone, and is never answered later. -/
def Burns (events : List Event) : Prop :=
  ∀ front e back, events = front ++ e :: back → ∀ c, e.Names c → e.answered ≠ some c → c ∉ e.after ∧ c ∉ answered back

/- The nonce of a challenge comes back from its own room and mediator. -/
def Event.Addressed (e : Event) : Prop :=
  ∀ mediatorId response now, e.call = .consume mediatorId response now → ∀ c ∈ e.before, response.nonce = c.nonce →
    response.roomId = c.roomId ∧ mediatorId = c.mediatorId

/- What freshness gives at a call in the middle of a run. -/
structure Standing (front : List Event) (e : Event) (back : List Event) : Prop where
  known : ∀ c ∈ e.before, c ∈ issued front
  once : ∀ c ∈ e.before, e.before.count c = 1
  alone : ∀ c ∈ e.before, ∀ d ∈ e.before, c.nonce = d.nonce → c = d
  never : ∀ c ∈ e.before, c ∉ issued back

theorem standing (fresh : FreshNonces (events crypto {} calls)) (split_ : events crypto {} calls = front ++ e :: back) :
    Standing front e back := by
  obtain ⟨earlier, env, call, later, rfl, rfl, _⟩ := eventsSplit split_
  rw [split_] at fresh
  simp only [FreshNonces, issued, List.filterMap_append, filterMapCons, List.map_append] at fresh
  have distinct : ((issued (events crypto {} earlier)).map (·.nonce)).Nodup := (List.nodup_append.mp fresh).1
  have counts (c : RecognitionChallengeFields) : (left crypto {} earlier).outstanding.count c ≤
      (issued (events crypto {} earlier)).count c := by
    have counts := runCounts crypto {} earlier c
    simp only [List.count_nil] at counts
    omega
  have known : ∀ c ∈ (left crypto {} earlier).outstanding, c ∈ issued (events crypto {} earlier) := fun c mem =>
    List.count_pos_iff.mp ((List.count_pos_iff.mpr mem).trans_le (counts c))
  constructor <;> rw [eventBefore]
  · exact known
  · intro c mem
    have least := List.count_pos_iff.mpr mem
    have most := List.nodup_iff_count_le_one.mp distinct.of_map c
    have := counts c
    omega
  · intro c mem d other same
    exact List.inj_on_of_nodup_map distinct (known c mem) (known d other) same
  · intro c mem later
    have apart := (List.nodup_append.mp fresh).2.2
    exact apart c.nonce (List.mem_map_of_mem (known c mem)) c.nonce
      (List.mem_append_right _ (List.mem_map_of_mem later)) rfl

theorem addressedTakes {front back : List Event} (standing : Standing front e back) (addressed : e.Addressed)
    (names : e.Names c) : e.takes = some c := by
  obtain ⟨mem, mediatorId, response, now, call, nonce⟩ := names
  obtain ⟨room, mediator⟩ := addressed mediatorId response now call c mem nonce
  have isFor : isFor mediatorId response c = true := by simp [isFor, nonce, room, mediator]
  simp only [Event.takes, call]
  cases found : e.before.find? (RecognitionChallengeTracker.isFor mediatorId response) with
  | none => exact absurd isFor (List.find?_eq_none.mp found c mem)
  | some d =>
      have matches_ := List.find?_some found
      simp only [RecognitionChallengeTracker.isFor, decide_eq_true_eq] at matches_
      rw [standing.alone d (List.mem_of_find?_eq_some found) c mem (matches_.1.trans nonce)]

/- A challenge that was taken off does not come back, since its nonce is not drawn again. -/
theorem takenForGood (fresh : FreshNonces (events crypto {} calls)) (split_ : events crypto {} calls = front ++ e :: back)
    (names : e.Names c) (takes : e.takes = some c) : c ∉ e.after ∧ c ∉ answered back := by
  have here := standing fresh split_
  obtain ⟨mem, mediatorId, response, now, call, _⟩ := names
  have run : e ∈ events crypto {} calls := by simp [split_]
  have move := eventMoves run
  have gone : e.after.count c = 0 := by
    have counts := move.counts c
    rw [takes, move.consumeIssuesNone call, here.once c mem] at counts
    simp at counts
    exact counts
  obtain ⟨_, _, _, later, _, _, rfl⟩ := eventsSplit split_
  have counts := runCounts crypto ⟨e.after⟩ later c
  have fewer := answeredCounts (events crypto ⟨e.after⟩ later) c
  have unissued := List.count_eq_zero.mpr (here.never c mem)
  simp only at counts
  exact ⟨List.count_eq_zero.mp gone, List.count_eq_zero.mp (by omega)⟩

theorem unaddressedStays (standing : Standing front e back) (move : Moves crypto e) (mem : c ∈ e.before)
    {mediatorId : Bytes} {response : RecognitionResponseMessage} {now : UInt64}
    (call : e.call = .consume mediatorId response now) (nonce : response.nonce = c.nonce)
    (elsewhere : ¬(response.roomId = c.roomId ∧ mediatorId = c.mediatorId)) : e.answered ≠ some c ∧ c ∈ e.after := by
  have none_ : e.takes = none := by
    simp only [Event.takes, call]
    refine List.find?_eq_none.mpr fun d other matches_ => elsewhere ?_
    simp only [isFor, decide_eq_true_eq] at matches_
    obtain rfl := standing.alone d other c mem (matches_.1.trans nonce)
    exact ⟨matches_.2.1.symm, matches_.2.2.symm⟩
  refine ⟨fun answered => ?_, ?_⟩
  · rw [answeredTakes answered] at none_
    contradiction
  · rw [move.unknownKeeps call none_]
    exact mem

end Runs

/- However the tracker is used, a challenge is answered at most as often as it was issued, in its room, for its
mediator, under its suite, with a signature of it and in time, and the tracker stays within its maximum. With
fresh nonces a challenge that is named and not answered is used up exactly when it is named in its own
room, for its own mediator. -/
theorem challengesSingleUse (crypto : Crypto) (calls : List (RecognitionEnv × Call)) :
    (∀ c, (answered (events crypto {} calls)).count c ≤ (issued (events crypto {} calls)).count c) ∧
    (∀ e ∈ events crypto {} calls, ∀ fingerprint, e.result = .ok (.consumed (some fingerprint)) →
      e.AnsweredWith crypto fingerprint) ∧
    (∀ e ∈ events crypto {} calls, e.after.length ≤ recognitionMaxOutstandingChallenges) ∧
    (FreshNonces (events crypto {} calls) → (answered (events crypto {} calls)).Nodup ∧
      (Burns (events crypto {} calls) ↔ ∀ e ∈ events crypto {} calls, e.Addressed)) := by
  refine ⟨answeredOnce calls, fun e mem _ => (eventMoves mem).answers, runBounded (Nat.zero_le _), fun fresh => ⟨?_, ?_⟩⟩
  · rw [List.nodup_iff_count_le_one]
    exact fun c => (answeredOnce calls c).trans (List.nodup_iff_count_le_one.mp fresh.of_map c)
  constructor
  · intro burns e mem mediatorId response now call c out nonce
    obtain ⟨front, back, split_⟩ := List.append_of_mem mem
    by_contra elsewhere
    obtain ⟨unanswered, stays⟩ := unaddressedStays (standing fresh split_) (eventMoves mem) out call nonce elsewhere
    exact (burns front e back split_ c ⟨out, mediatorId, response, now, call, nonce⟩ unanswered).1 stays
  · intro addressed front e back split_ c names _
    have takes := addressedTakes (standing fresh split_) (addressed e (by simp [split_])) names
    exact takenForGood fresh split_ names takes

/- A challenge that a response from another room names first. -/
section Stray

def strayKey : Ed25519PublicKey :=
  #v[0x81, 0x46, 0x64, 0x0f, 0x02, 0x49, 0x3a, 0xf4, 0xfb, 0xc5, 0x4f, 0xe3, 0x33, 0x88, 0xe7, 0x5d,
     0xc2, 0xc9, 0x37, 0xae, 0x0b, 0x77, 0x27, 0xcc, 0x2b, 0x2a, 0xfb, 0x1b, 0x75, 0x19, 0x9a, 0x3e]

def straySignature : Ed25519Signature :=
  #v[0x47, 0x47, 0x72, 0x0a, 0x1a, 0x2e, 0xd9, 0xe7, 0x1b, 0xae, 0xba, 0xfc, 0x37, 0xd6, 0x92, 0x40,
     0xc3, 0x4b, 0xa8, 0x55, 0xdf, 0xb3, 0xe3, 0x11, 0x72, 0x66, 0xf2, 0xa6, 0x37, 0x3a, 0xdf, 0x58,
     0xe0, 0xc1, 0x20, 0xbe, 0xee, 0x5f, 0x50, 0xfd, 0xf2, 0xb1, 0x84, 0x8b, 0xb0, 0xa7, 0xc9, 0x17,
     0xe4, 0xb9, 0x59, 0xd1, 0x9f, 0x41, 0x21, 0xd9, 0x73, 0x0d, 0xd0, 0xc7, 0x29, 0xe9, 0xe6, 0x09]

def strayFingerprint : Vector UInt8 32 :=
  #v[0x8b, 0x81, 0xc8, 0x62, 0x68, 0x1b, 0x71, 0x2b, 0x35, 0x41, 0x77, 0x0f, 0xca, 0xe7, 0x48, 0xa9,
     0x31, 0xd6, 0xef, 0x3c, 0x3b, 0x81, 0x7f, 0xe6, 0xf7, 0x1b, 0x8d, 0xad, 0x20, 0xe9, 0x6d, 0x07]

def strayChallenge : RecognitionChallengeFields where
  suiteId := recognitionSuiteEd25519V1
  mediatorId := ascii "mediator-a"
  roomId := Vector.replicate 32 8
  nonce := Vector.replicate 32 0x2a
  createdAt := 1000
  expiresAt := 1120

def strayPayload : Bytes := (encodeRecognitionSignedPayload strayChallenge).toOption.getD []

def strayCrypto : Crypto where
  sha256 := fun _ => strayFingerprint
  ed25519 := signatureTable (fun _ => strayKey) [(strayKey, strayPayload, straySignature)]
  mldsa65 := signatureTable (fun _ => Vector.replicate 1952 1) []

def strayEnv : RecognitionEnv := ⟨1010, .ok (Vector.replicate 32 0x2a)⟩

def strayResponse (room : UInt8) : RecognitionResponseMessage where
  roomId := Vector.replicate 32 room
  nonce := Vector.replicate 32 0x2a
  proverPublicKey := strayKey.toList
  signature := straySignature.toList

def strayCalls : List (RecognitionEnv × Call) :=
  [(strayEnv, .issue (ascii "mediator-a") (Vector.replicate 32 8) 1000 recognitionSuiteEd25519V1),
   (strayEnv, .consume (ascii "mediator-a") (strayResponse 9) 1010),
   (strayEnv, .consume (ascii "mediator-a") (strayResponse 8) 1010)]

def strayEvent : Event :=
  event strayCrypto ⟨[strayChallenge]⟩ strayEnv (.consume (ascii "mediator-a") (strayResponse 9) 1010)

def strayEarlier : Event :=
  event strayCrypto {} strayEnv (.issue (ascii "mediator-a") (Vector.replicate 32 8) 1000 recognitionSuiteEd25519V1)

def strayLater : Event :=
  event strayCrypto ⟨strayEvent.after⟩ strayEnv (.consume (ascii "mediator-a") (strayResponse 8) 1010)

theorem strayEvents : events strayCrypto {} strayCalls = [strayEarlier] ++ strayEvent :: [strayLater] := rfl

theorem strayRun :
    strayChallenge ∈ strayEvent.before ∧ strayEvent.answered = none ∧ strayChallenge ∈ strayEvent.after ∧
    answered (events strayCrypto {} strayCalls) = [strayChallenge] ∧
    issued (events strayCrypto {} strayCalls) = [strayChallenge] := by
  decide +kernel

/- The response from the other room fails, and the challenge is answered after it. -/
theorem strayResponseKept : FreshNonces (events strayCrypto {} strayCalls) ∧ ¬Burns (events strayCrypto {} strayCalls) := by
  obtain ⟨out, unanswered, stays, _, issued⟩ := strayRun
  refine ⟨?_, fun burns => ?_⟩
  · rw [FreshNonces, issued]
    exact List.nodup_singleton _
  · have names : strayEvent.Names strayChallenge := ⟨out, _, _, _, rfl, rfl⟩
    have other : strayEvent.answered ≠ some strayChallenge := by rw [unanswered]; simp
    exact (burns _ _ _ strayEvents strayChallenge names other).1 stays

/- The theorem at a run in which a challenge is answered. -/
theorem strayAnsweredOnce : (answered (events strayCrypto {} strayCalls)).Nodup ∧
    answered (events strayCrypto {} strayCalls) = [strayChallenge] := by
  obtain ⟨_, _, _, answered, issued⟩ := strayRun
  have fresh : FreshNonces (events strayCrypto {} strayCalls) := by
    rw [FreshNonces, issued]
    exact List.nodup_singleton _
  exact ⟨((challengesSingleUse strayCrypto strayCalls).2.2.2 fresh).1, answered⟩

end Stray
end RecognitionChallengeTracker
end TradeP2P
