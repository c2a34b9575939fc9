import Mathlib.Data.Multiset.Filter
import TradeP2P.Identity.Login
import TradeP2P.Identity.SingleUse
import TradeP2P.Lib.Outstanding

/-! How many challenges a tracker takes. It counts what was handed out and not answered; what has expired
counts with it, for as long as nobody calls `expireStale`. -/
namespace TradeP2P
open Wire (Bytes ascii)
open Checks Machine

namespace RecognitionChallengeTracker

def unanswered (crypto : Crypto) (calls : List (RecognitionEnv × Call)) : Multiset RecognitionChallengeFields :=
  Outstanding.unanswered (fun e : Event => e.issues.toList) (fun e => e.takes.toList) (events crypto {} calls)

def unexpired (crypto : Crypto) (calls : List (RecognitionEnv × Call)) (time : UInt64) : Multiset RecognitionChallengeFields :=
  Multiset.filter (fun fields => ¬time > fields.expiresAt) (unanswered crypto calls)

section Books
variable {crypto : Crypto} {e : Event} {tracker : RecognitionChallengeTracker} {env : RecognitionEnv} {mediatorId : Bytes} {roomId : RoomId}
  {now : UInt64} {suiteId : UInt16} {nonce : Vector UInt8 32}

theorem Moves.balances (moves : Moves crypto e) (kept : ∀ now, e.call ≠ .expireStale now) :
    (e.after ++ e.takes.toList).Perm (e.before ++ e.issues.toList) := by
  cases moves with
  | issued => simp [Event.takes, Event.issues]
  | refused => simp [Event.takes, Event.issues]
  | expired before env now => exact absurd rfl (kept now)
  | unknown _ _ _ _ _ none_ => simp [Event.takes, Event.issues, none_]
  | taken before env mediatorId response now fields found result unissued =>
      have none_ : Event.issues ⟨before, env, .consume mediatorId response now, result, before.eraseP (isFor mediatorId response)⟩ = none := by
        unfold Event.issues
        split
        · next other same => exact absurd same (unissued other)
        · rfl
      rw [none_]
      simp only [Event.takes, found, Option.toList_some, Option.toList_none, List.append_nil]
      refine List.perm_iff_count.mpr fun d => ?_
      rw [List.count_append, Nat.add_comm]
      exact countErased found d

theorem eventCall (call : Call) : (event crypto tracker env call).call = call := by
  unfold event
  split <;> rfl

theorem runBalances {calls : List (RecognitionEnv × Call)} (kept : ∀ call ∈ calls, ∀ now, call.2 ≠ .expireStale now) :
    Outstanding.Balanced (fun e : Event => e.issues.toList) (fun e => e.takes.toList) tracker.outstanding (events crypto tracker calls)
      (left crypto tracker calls).outstanding := by
  induction calls generalizing tracker with
  | nil => rfl
  | cons call later ih =>
      obtain ⟨first, others⟩ := List.forall_mem_cons.mp kept
      have balances := (moves crypto tracker call.1 call.2).balances fun now => by rw [eventCall]; exact first now
      rw [eventBefore] at balances
      exact ⟨_, balances, @ih ⟨_⟩ others⟩

theorem unansweredHeld (crypto : Crypto) {calls : List (RecognitionEnv × Call)} (kept : ∀ call ∈ calls, ∀ now, call.2 ≠ .expireStale now) :
    unanswered crypto calls = ((left crypto {} calls).outstanding : Multiset RecognitionChallengeFields) :=
  (runBalances kept).holds.symm

theorem issueOk (mediatorId : Bytes) (roomId : RoomId) (now : UInt64) (suiteId : UInt16) (drawn : env.nonce = .ok nonce) (room : tracker.outstanding.length < recognitionMaxOutstandingChallenges) :
    ∃ fields, issue env mediatorId roomId now suiteId tracker = .ok fields ⟨tracker.outstanding ++ [fields]⟩ ∧
      fields.expiresAt = env.orNow now + recognitionChallengeTtlSeconds := by
  refine ⟨⟨suiteId, protocolVersion, mediatorId, roomId, nonce, env.orNow now, env.orNow now + recognitionChallengeTtlSeconds⟩, ?_, rfl⟩
  simp only [issue, bind_run, get_run, lift_run, throwIf_not (Nat.not_le_of_lt room), drawn, set_run, pure_run]

theorem issueFull (full : recognitionMaxOutstandingChallenges ≤ tracker.outstanding.length) :
    issue env mediatorId roomId now suiteId tracker =
      .error (.invalidArgument "too many outstanding recognition challenges") tracker := by
  simp only [issue, bind_run, get_run, lift_run, throwIf_bad full]

theorem issueSucceeds (drawn : env.nonce = .ok nonce) :
    (∃ fields next, issue env mediatorId roomId now suiteId tracker = .ok fields next) ↔
      tracker.outstanding.length < recognitionMaxOutstandingChallenges := by
  constructor
  · intro issues
    by_contra full
    obtain ⟨fields, next, ran⟩ := issues
    rw [issueFull (Nat.le_of_not_lt full)] at ran
    cases ran
  · intro room
    obtain ⟨fields, ran, _⟩ := issueOk mediatorId roomId now suiteId drawn room
    exact ⟨fields, _, ran⟩

end Books
end RecognitionChallengeTracker

namespace LoginChallengeTracker

def unanswered (calls : List (LoginEnv × Call)) : Multiset LoginChallengeFields :=
  Outstanding.unanswered Event.issues Event.takes (events {} calls)

def unexpired (calls : List (LoginEnv × Call)) (time : UInt64) : Multiset LoginChallengeFields :=
  Multiset.filter (fun fields => ¬time > fields.expiresAt) (unanswered calls)

section Books
variable {e : Event} {tracker : LoginChallengeTracker} {calls : List (LoginEnv × Call)}

theorem balances (env : LoginEnv) (call : Call) (kept : ∀ now, call ≠ .expireStale now) :
    ((event tracker env call).after ++ (event tracker env call).takes).Perm (tracker.outstanding ++ (event tracker env call).issues) := by
  cases call with
  | expireStale now => exact absurd rfl (kept now)
  | peek sessionId now => exact .rfl
  | consume sessionId =>
      have parts := List.filter_append_perm (isSession sessionId) tracker.outstanding
      exact (List.perm_append_comm.trans parts).trans (List.Perm.of_eq (List.append_nil _).symm)
  | issue serviceId serverIdentity username now suiteId =>
      rcases issueMoves tracker env serviceId serverIdentity username now suiteId with threw | ran
      · obtain ⟨e, threw⟩ := threw
        simp only [event, perform, bind_run, threw]
        exact .rfl
      · obtain ⟨fields, ran, _⟩ := ran
        simp only [event, perform, bind_run, ran]
        exact List.Perm.of_eq (List.append_nil _)

theorem runBalances (kept : ∀ call ∈ calls, ∀ now, call.2 ≠ .expireStale now) :
    Outstanding.Balanced Event.issues Event.takes tracker.outstanding (events tracker calls) (left tracker calls).outstanding := by
  induction calls generalizing tracker with
  | nil => rfl
  | cons call later ih =>
      obtain ⟨first, others⟩ := List.forall_mem_cons.mp kept
      exact ⟨_, balances call.1 call.2 first, @ih ⟨_⟩ others⟩

theorem unansweredHeld (kept : ∀ call ∈ calls, ∀ now, call.2 ≠ .expireStale now) :
    unanswered calls = ((left {} calls).outstanding : Multiset LoginChallengeFields) :=
  (runBalances kept).holds.symm

theorem issueSucceeds {env : LoginEnv} {serviceId serverIdentity username : Bytes} {now : UInt64} {suiteId : UInt16}
    {sessionId : LoginSessionId} {nonce : Vector UInt8 32} (session : env.sessionId = .ok sessionId) (drawn : env.nonce = .ok nonce) :
    (∃ fields next, issue env serviceId serverIdentity username now suiteId tracker = .ok fields next) ↔
      tracker.outstanding.length < loginMaxOutstandingChallenges := by
  constructor
  · intro issues
    by_contra full
    obtain ⟨fields, next, ran⟩ := issues
    rw [issueFull _ _ _ _ _ _ _ (Nat.le_of_not_lt full)] at ran
    cases ran
  · intro room
    obtain ⟨fields, ran, _⟩ := issueOk tracker env serviceId serverIdentity username now suiteId session drawn room
    exact ⟨fields, _, ran⟩

end Books
end LoginChallengeTracker
/- One call to `issue` after any others but `expireStale`: it succeeds whenever there is room among the
challenges that are still good, exactly when there is room among all of them or none among those. -/
theorem capacityRecovers (crypto : Crypto) :
    (∀ calls : List (RecognitionEnv × RecognitionChallengeTracker.Call), (∀ call ∈ calls, ∀ now, call.2 ≠ .expireStale now) →
      ∀ env nonce mediatorId roomId now suiteId, env.nonce = .ok nonce →
      (((RecognitionChallengeTracker.unexpired crypto calls (env.orNow now)).card < recognitionMaxOutstandingChallenges →
        ∃ fields next, RecognitionChallengeTracker.issue env mediatorId roomId now suiteId
          (RecognitionChallengeTracker.left crypto {} calls) = .ok fields next) ↔
      (RecognitionChallengeTracker.unanswered crypto calls).card < recognitionMaxOutstandingChallenges ∨
        recognitionMaxOutstandingChallenges ≤ (RecognitionChallengeTracker.unexpired crypto calls (env.orNow now)).card)) ∧
    (∀ calls : List (LoginEnv × LoginChallengeTracker.Call), (∀ call ∈ calls, ∀ now, call.2 ≠ .expireStale now) →
      ∀ env sessionId nonce serviceId serverIdentity username now suiteId, env.sessionId = .ok sessionId → env.nonce = .ok nonce →
      (((LoginChallengeTracker.unexpired calls (env.orNow now)).card < loginMaxOutstandingChallenges →
        ∃ fields next, LoginChallengeTracker.issue env serviceId serverIdentity username now suiteId
          (LoginChallengeTracker.left {} calls) = .ok fields next) ↔
      (LoginChallengeTracker.unanswered calls).card < loginMaxOutstandingChallenges ∨
        loginMaxOutstandingChallenges ≤ (LoginChallengeTracker.unexpired calls (env.orNow now)).card)) := by
  constructor
  · intro calls kept env nonce mediatorId roomId now suiteId drawn
    have held := congrArg Multiset.card (RecognitionChallengeTracker.unansweredHeld crypto kept)
    rw [Multiset.coe_card] at held
    rw [RecognitionChallengeTracker.issueSucceeds drawn, held]
    omega
  · intro calls kept env sessionId nonce serviceId serverIdentity username now suiteId session drawn
    have held := congrArg Multiset.card (LoginChallengeTracker.unansweredHeld kept)
    rw [Multiset.coe_card] at held
    rw [LoginChallengeTracker.issueSucceeds session drawn, held]
    omega

/-! As many challenges as the tracker takes, all at one time, none answered. -/
section Flood

def floodNonce (i : Nat) : Vector UInt8 32 := Vector.ofFn fun place => UInt8.ofNat (i / 256 ^ place.val)
def floodSession (i : Nat) : LoginSessionId := Vector.ofFn fun place => UInt8.ofNat (i / 256 ^ place.val)

def recognitionAsk (i : Nat) : RecognitionEnv × RecognitionChallengeTracker.Call :=
  (⟨1000, .ok (floodNonce i)⟩, .issue (ascii "mediator-a") (Vector.replicate 32 8) 0 recognitionSuiteMlDsa65V1)

def loginAsk (i : Nat) : LoginEnv × LoginChallengeTracker.Call :=
  (⟨1000, .ok (floodSession i), .ok (floodNonce i)⟩, .issue (ascii "tradep2p") (ascii "host:1") (ascii "alice") 0 loginSuiteMlDsa65V1)

theorem recognitionAsked (crypto : Crypto) (tracker : RecognitionChallengeTracker) (i : Nat)
    (room : tracker.outstanding.length < recognitionMaxOutstandingChallenges) :
    ∃ fields : RecognitionChallengeFields, fields.expiresAt = 1120 ∧
      (RecognitionChallengeTracker.event crypto tracker (recognitionAsk i).1 (recognitionAsk i).2).after =
        tracker.outstanding ++ [fields] := by
  have drawn : (recognitionAsk i).1.nonce = .ok (floodNonce i) := rfl
  obtain ⟨fields, ran, expires⟩ := RecognitionChallengeTracker.issueOk (ascii "mediator-a") (Vector.replicate 32 8) 0
    recognitionSuiteMlDsa65V1 drawn room
  refine ⟨fields, expires, ?_⟩
  simp only [RecognitionChallengeTracker.event, recognitionAsk, RecognitionChallengeTracker.perform, bind_run, pure_run] at ran ⊢
  rw [ran]

theorem loginAsked (tracker : LoginChallengeTracker) (i : Nat) (room : tracker.outstanding.length < loginMaxOutstandingChallenges) :
    ∃ fields : LoginChallengeFields, fields.expiresAt = 1120 ∧
      (LoginChallengeTracker.event tracker (loginAsk i).1 (loginAsk i).2).after = tracker.outstanding ++ [fields] := by
  have session : (loginAsk i).1.sessionId = .ok (floodSession i) := rfl
  have drawn : (loginAsk i).1.nonce = .ok (floodNonce i) := rfl
  obtain ⟨fields, ran, _, _, _, expires⟩ := LoginChallengeTracker.issueOk tracker _ (ascii "tradep2p") (ascii "host:1") (ascii "alice") 0
    loginSuiteMlDsa65V1 session drawn room
  refine ⟨fields, expires, ?_⟩
  simp only [LoginChallengeTracker.event, loginAsk, LoginChallengeTracker.perform, bind_run, pure_run] at ran ⊢
  rw [ran]

theorem recognitionFills (crypto : Crypto) (places : List Nat) (tracker : RecognitionChallengeTracker)
    (room : tracker.outstanding.length + places.length ≤ recognitionMaxOutstandingChallenges)
    (stale : ∀ fields ∈ tracker.outstanding, fields.expiresAt = 1120) :
    (RecognitionChallengeTracker.left crypto tracker (places.map recognitionAsk)).outstanding.length =
      tracker.outstanding.length + places.length ∧
    ∀ fields ∈ (RecognitionChallengeTracker.left crypto tracker (places.map recognitionAsk)).outstanding, fields.expiresAt = 1120 := by
  induction places generalizing tracker with
  | nil => exact ⟨rfl, stale⟩
  | cons i rest ih =>
      rw [List.length_cons] at room
      obtain ⟨fields, expires, after⟩ := recognitionAsked crypto tracker i (by omega)
      have grown : (tracker.outstanding ++ [fields]).length = tracker.outstanding.length + 1 := List.length_append
      obtain ⟨filled, late⟩ := ih ⟨tracker.outstanding ++ [fields]⟩ (by show (tracker.outstanding ++ [fields]).length + _ ≤ _; omega)
        (by simpa [or_imp, forall_and] using ⟨stale, expires⟩)
      rw [List.map_cons, RecognitionChallengeTracker.left, after]
      exact ⟨filled.trans (by rw [grown, List.length_cons]; omega), late⟩

theorem loginFills (places : List Nat) (tracker : LoginChallengeTracker)
    (room : tracker.outstanding.length + places.length ≤ loginMaxOutstandingChallenges)
    (stale : ∀ fields ∈ tracker.outstanding, fields.expiresAt = 1120) :
    (LoginChallengeTracker.left tracker (places.map loginAsk)).outstanding.length = tracker.outstanding.length + places.length ∧
    ∀ fields ∈ (LoginChallengeTracker.left tracker (places.map loginAsk)).outstanding, fields.expiresAt = 1120 := by
  induction places generalizing tracker with
  | nil => exact ⟨rfl, stale⟩
  | cons i rest ih =>
      rw [List.length_cons] at room
      obtain ⟨fields, expires, after⟩ := loginAsked tracker i (by omega)
      have grown : (tracker.outstanding ++ [fields]).length = tracker.outstanding.length + 1 := List.length_append
      obtain ⟨filled, late⟩ := ih ⟨tracker.outstanding ++ [fields]⟩ (by show (tracker.outstanding ++ [fields]).length + _ ≤ _; omega)
        (by simpa [or_imp, forall_and] using ⟨stale, expires⟩)
      rw [List.map_cons, LoginChallengeTracker.left, after]
      exact ⟨filled.trans (by rw [grown, List.length_cons]; omega), late⟩

theorem recognitionAsks (places : List Nat) : ∀ call ∈ places.map recognitionAsk, ∀ now, call.2 ≠ .expireStale now := by
  intro call mem now same
  obtain ⟨i, _, rfl⟩ := List.mem_map.mp mem
  cases same

theorem loginAsks (places : List Nat) : ∀ call ∈ places.map loginAsk, ∀ now, call.2 ≠ .expireStale now := by
  intro call mem now same
  obtain ⟨i, _, rfl⟩ := List.mem_map.mp mem
  cases same

/- After one challenge there is room for the next one. -/
theorem secondIssued :
    (∃ fields next, RecognitionChallengeTracker.issue ⟨1001, .ok (floodNonce 1)⟩ (ascii "mediator-a") (Vector.replicate 32 8) 0
      recognitionSuiteMlDsa65V1 (RecognitionChallengeTracker.left RecognitionChallengeTracker.strayCrypto {} ([0].map recognitionAsk)) =
        .ok fields next) ∧
    (∃ fields next, LoginChallengeTracker.issue ⟨1001, .ok (floodSession 1), .ok (floodNonce 1)⟩ (ascii "tradep2p") (ascii "host:1")
      (ascii "alice") 0 loginSuiteMlDsa65V1 (LoginChallengeTracker.left {} ([0].map loginAsk)) = .ok fields next) := by
  obtain ⟨recognition, login⟩ := capacityRecovers RecognitionChallengeTracker.strayCrypto
  constructor
  · obtain ⟨filled, _⟩ := recognitionFills RecognitionChallengeTracker.strayCrypto [0] {} (by decide) (by simp)
    have one : (RecognitionChallengeTracker.unanswered RecognitionChallengeTracker.strayCrypto ([0].map recognitionAsk)).card = 1 := by
      rw [RecognitionChallengeTracker.unansweredHeld _ (recognitionAsks [0]), Multiset.coe_card, filled]
      rfl
    have fewer := Multiset.card_le_card (Multiset.filter_le (fun fields => ¬(1001 : UInt64) > fields.expiresAt)
      (RecognitionChallengeTracker.unanswered RecognitionChallengeTracker.strayCrypto ([0].map recognitionAsk)))
    rw [one] at fewer
    exact (recognition _ (recognitionAsks [0]) _ _ _ _ _ _ rfl).mpr (.inl (by rw [one]; decide)) (Nat.lt_of_le_of_lt fewer (by decide))
  · obtain ⟨filled, _⟩ := loginFills [0] {} (by decide) (by simp)
    have one : (LoginChallengeTracker.unanswered ([0].map loginAsk)).card = 1 := by
      rw [LoginChallengeTracker.unansweredHeld (loginAsks [0]), Multiset.coe_card, filled]
      rfl
    have fewer := Multiset.card_le_card (Multiset.filter_le (fun fields => ¬(1001 : UInt64) > fields.expiresAt)
      (LoginChallengeTracker.unanswered ([0].map loginAsk)))
    rw [one] at fewer
    exact (login _ (loginAsks [0]) _ _ _ _ _ _ _ _ rfl rfl).mpr (.inl (by rw [one]; decide)) (Nat.lt_of_le_of_lt fewer (by decide))

/- All of them have expired, and no further one is issued. -/
theorem capacityLost :
    (RecognitionChallengeTracker.unexpired RecognitionChallengeTracker.strayCrypto
      ((List.range recognitionMaxOutstandingChallenges).map recognitionAsk) 2000 = 0 ∧
    RecognitionChallengeTracker.issue ⟨2000, .ok (floodNonce 256)⟩ (ascii "mediator-a") (Vector.replicate 32 8) 0
      recognitionSuiteMlDsa65V1 (RecognitionChallengeTracker.left RecognitionChallengeTracker.strayCrypto {}
        ((List.range recognitionMaxOutstandingChallenges).map recognitionAsk)) =
      .error (.invalidArgument "too many outstanding recognition challenges")
        (RecognitionChallengeTracker.left RecognitionChallengeTracker.strayCrypto {}
          ((List.range recognitionMaxOutstandingChallenges).map recognitionAsk))) ∧
    (LoginChallengeTracker.unexpired ((List.range loginMaxOutstandingChallenges).map loginAsk) 2000 = 0 ∧
    LoginChallengeTracker.issue ⟨2000, .ok (floodSession 4096), .ok (floodNonce 4096)⟩ (ascii "tradep2p") (ascii "host:1") (ascii "alice") 0
      loginSuiteMlDsa65V1 (LoginChallengeTracker.left {} ((List.range loginMaxOutstandingChallenges).map loginAsk)) =
      .error (.invalidArgument "too many outstanding login challenges")
        (LoginChallengeTracker.left {} ((List.range loginMaxOutstandingChallenges).map loginAsk))) := by
  have late (time : UInt64) (same : time = 1120) : (2000 : UInt64) > time := by
    rw [same]
    decide
  obtain ⟨filled, stale⟩ := recognitionFills RecognitionChallengeTracker.strayCrypto (List.range recognitionMaxOutstandingChallenges) {}
    (by simp) (by simp)
  obtain ⟨filledLogin, staleLogin⟩ := loginFills (List.range loginMaxOutstandingChallenges) {} (by simp) (by simp)
  refine ⟨⟨?_, RecognitionChallengeTracker.issueFull (by rw [filled]; simp)⟩, ⟨?_, ?_⟩⟩
  · rw [RecognitionChallengeTracker.unexpired, RecognitionChallengeTracker.unansweredHeld _ (recognitionAsks _)]
    refine Multiset.filter_eq_nil.mpr fun fields mem => not_not.mpr ?_
    exact late _ (stale fields (Multiset.mem_coe.mp mem))
  · rw [LoginChallengeTracker.unexpired, LoginChallengeTracker.unansweredHeld (loginAsks _)]
    refine Multiset.filter_eq_nil.mpr fun fields mem => not_not.mpr ?_
    exact late _ (staleLogin fields (Multiset.mem_coe.mp mem))
  · exact LoginChallengeTracker.issueFull _ _ _ _ _ _ _ (by rw [filledLogin]; simp)

end Flood
end TradeP2P
