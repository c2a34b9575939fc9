import TradeP2P.Identity.KeyLogin
import TradeP2P.Lib.Schedules

/-! The limit on failing logins, while any number of requests are served at a time. A request asks the limiter, checks
the credential and records what came of it, in three steps; it is let in by what has been recorded until then. -/
namespace TradeP2P
open Wire (Bytes ascii)
open Schedules

/- Requests of `/api/login` and `/api/login/key/verify`. Those for one username that have come equally far are alike,
so they are counted. -/
structure LoginState where
  now : Int := 0
  limiter : AuthRateLimiter := {}
  admitted : Bytes → Nat := fun _ => 0
  failing : Bytes → Nat := fun _ => 0
  succeeding : Bytes → Nat := fun _ => 0
  failedChecks : List (Bytes × Int) := []
  logins : List (Bytes × Int) := []

inductive LoginEvent where
  | elapses (nanoseconds : Nat)
  | asks (username : Bytes)
  | throws (username : Bytes)
  | checks (username : Bytes) (good : Bool)
  | recordsFailure (username : Bytes)
  | recordsSuccess (username : Bytes)
  deriving DecidableEq, Repr

namespace LoginState

def more (count : Bytes → Nat) (username : Bytes) : Bytes → Nat := Function.update count username (count username + 1)

def fewer (count : Bytes → Nat) (username : Bytes) : Bytes → Nat := Function.update count username (count username - 1)

-- Between the limiter and the check a request may throw; what it throws is not recorded.
def fire (s : LoginState) : LoginEvent → Option LoginState
  | .elapses nanoseconds => some { s with now := s.now + nanoseconds }
  | .asks username =>
      let limiter := s.limiter.prune s.now username
      if limiter.allowed username then some { s with limiter, admitted := more s.admitted username }
      else some { s with limiter }
  | .throws username => if s.admitted username = 0 then none else some { s with admitted := fewer s.admitted username }
  | .checks username good =>
      if s.admitted username = 0 then none
      else if good then some { s with admitted := fewer s.admitted username, succeeding := more s.succeeding username }
      else some { s with admitted := fewer s.admitted username, failing := more s.failing username
                         failedChecks := s.failedChecks ++ [(username, s.now)] }
  | .recordsFailure username =>
      if s.failing username = 0 then none
      else some { s with limiter := s.limiter.recordFailure s.now s.now username, failing := fewer s.failing username }
  | .recordsSuccess username =>
      if s.succeeding username = 0 then none
      else some { s with limiter := s.limiter.recordSuccess username, succeeding := fewer s.succeeding username
                         logins := s.logins ++ [(username, s.now)] }

def inWindow (username : Bytes) (from_ : Int) (event : Bytes × Int) : Bool :=
  event.1 = username ∧ from_ ≤ event.2 ∧ event.2 ≤ from_ + AuthRateLimiter.window

/- In no window without a login are there more failing checks than attempts. -/
def Limited (s : LoginState) : Prop := ∀ username from_, s.logins.all (!inWindow username from_ ·) = true →
  s.failedChecks.countP (inWindow username from_) ≤ AuthRateLimiter.maxAttempts

/- A request is let in only where its failure, and those of all that are under way, would still be among the attempts. -/
def Uncrowded (s : LoginState) : LoginEvent → Prop
  | .asks username => (s.limiter.prune s.now username).allowed username = true →
      ((s.limiter.prune s.now username).failures username).length + s.admitted username + s.failing username < AuthRateLimiter.maxAttempts
  | _ => True

instance uncrowdedDecidable (s : LoginState) (event : LoginEvent) : Decidable (Uncrowded s event) := by
  cases event <;> unfold Uncrowded <;> infer_instance

/-! What a window has seen. -/
section Window
variable {username : Bytes} {from_ : Int} {s t : LoginState} {event : LoginEvent}

def recorded (s : LoginState) (username : Bytes) (from_ : Int) : Nat := (s.limiter.failures username).countP fun time => from_ ≤ time

def failed (s : LoginState) (username : Bytes) (from_ : Int) : Nat := s.failedChecks.countP (inWindow username from_)

def Quiet (s : LoginState) (username : Bytes) (from_ : Int) : Prop := s.logins.all (!inWindow username from_ ·) = true

/- As long as the window is open, its failing checks are recorded or about to be, and there is room for all under way. -/
structure Counted (username : Bytes) (from_ : Int) (s : LoginState) : Prop where
  checksPast : ∀ check ∈ s.failedChecks, check.2 ≤ s.now
  recordsPast : ∀ time ∈ s.limiter.failures username, time ≤ s.now
  room : s.now ≤ from_ + AuthRateLimiter.window → s.recorded username from_ + s.admitted username + s.failing username ≤ AuthRateLimiter.maxAttempts
  covered : s.now ≤ from_ + AuthRateLimiter.window → s.Quiet username from_ → s.failed username from_ ≤ s.recorded username from_ + s.failing username
  limited : s.Quiet username from_ → s.failed username from_ ≤ AuthRateLimiter.maxAttempts

theorem moreAt (username : Bytes) (count : Bytes → Nat) (other : Bytes) : more count other username = if username = other then count username + 1 else count username := by
  unfold more
  by_cases same : username = other
  · rw [if_pos same, same, Function.update_self]
  · rw [if_neg same, Function.update_of_ne same]

theorem fewerAt (username : Bytes) (count : Bytes → Nat) (other : Bytes) : fewer count other username = if username = other then count username - 1 else count username := by
  unfold fewer
  by_cases same : username = other
  · rw [if_pos same, same, Function.update_self]
  · rw [if_neg same, Function.update_of_ne same]

theorem prunedFailures (limiter : AuthRateLimiter) (now : Int) (other : Bytes) : (limiter.prune now other).failures username =
    if username = other then (limiter.failures username).filter fun time => !decide (time < now - AuthRateLimiter.window)
    else limiter.failures username := by
  unfold AuthRateLimiter.prune
  by_cases same : username = other
  · rw [if_pos same, same]
    exact Function.update_self ..
  · rw [if_neg same]
    exact Function.update_of_ne same ..

/- What an open window has seen is not forgotten. -/
theorem prunedKeeps (limiter : AuthRateLimiter) {now : Int} (other : Bytes) (isOpen : now ≤ from_ + AuthRateLimiter.window) :
    ((limiter.prune now other).failures username).countP (fun time => from_ ≤ time) =
      (limiter.failures username).countP fun time => from_ ≤ time := by
  rw [prunedFailures]
  split
  · rw [List.countP_filter]
    refine List.countP_congr fun time _ => ?_
    simp only [Bool.and_eq_true, decide_eq_true_eq, Bool.not_eq_true', decide_eq_false_iff_not, not_lt]
    omega
  · rfl

theorem prunedMem {limiter : AuthRateLimiter} {now time : Int} {other : Bytes} (mem : time ∈ (limiter.prune now other).failures username) :
    time ∈ limiter.failures username := by
  rw [prunedFailures] at mem
  split at mem
  · exact List.mem_of_mem_filter mem
  · exact mem

theorem failureRecorded (limiter : AuthRateLimiter) (now : Int) (other : Bytes) : (limiter.recordFailure now now other).failures username =
    (limiter.prune now other).failures username ++ if username = other then [now] else [] := by
  unfold AuthRateLimiter.recordFailure
  by_cases same : username = other
  · rw [if_pos same, same]
    exact Function.update_self ..
  · rw [if_neg same, List.append_nil]
    exact Function.update_of_ne same ..

theorem successRecorded (limiter : AuthRateLimiter) (other : Bytes) : (limiter.recordSuccess other).failures username =
    if username = other then [] else limiter.failures username := by
  unfold AuthRateLimiter.recordSuccess
  by_cases same : username = other
  · rw [if_pos same, same]
    exact Function.update_self ..
  · rw [if_neg same]
    exact Function.update_of_ne same ..

theorem inWindowIff {event : Bytes × Int} : inWindow username from_ event = true ↔
    event.1 = username ∧ from_ ≤ event.2 ∧ event.2 ≤ from_ + AuthRateLimiter.window := by
  simp [inWindow]

/- Before a window opens nothing has happened in it. -/
theorem Counted.before (counted : Counted username from_ s) (early : s.now < from_) : s.failed username from_ = 0 ∧ s.recorded username from_ = 0 := by
  constructor
  · refine List.countP_eq_zero.mpr fun check mem inside => ?_
    have past := counted.checksPast check mem
    have at_ := inWindowIff.mp inside
    omega
  · refine List.countP_eq_zero.mpr fun time mem inside => ?_
    have past := counted.recordsPast time mem
    have at_ := of_decide_eq_true inside
    omega

theorem startCounted : Counted username from_ {} where
  checksPast check mem := by simp at mem
  recordsPast time mem := by simp at mem
  room _ := Nat.zero_le _
  covered _ _ := Nat.zero_le _
  limited _ := Nat.zero_le _

theorem Counted.elapses (counted : Counted username from_ s) (nanoseconds : Nat) : Counted username from_ { s with now := s.now + nanoseconds } where
  checksPast check mem := by
    have past := counted.checksPast check mem
    dsimp only
    omega
  recordsPast time mem := by
    have past := counted.recordsPast time mem
    dsimp only
    omega
  room isOpen := counted.room (by dsimp only at isOpen; omega)
  covered isOpen := counted.covered (by dsimp only at isOpen; omega)
  limited := counted.limited

theorem Counted.asks (counted : Counted username from_ s) {other : Bytes} {admitted : Bytes → Nat}
    (room : s.now ≤ from_ + AuthRateLimiter.window →
      ((s.limiter.prune s.now other).failures username).countP (fun time => from_ ≤ time) + admitted username + s.failing username ≤
        AuthRateLimiter.maxAttempts) : Counted username from_ { s with limiter := s.limiter.prune s.now other, admitted } where
  checksPast := counted.checksPast
  recordsPast time mem := counted.recordsPast time (prunedMem mem)
  room := room
  covered isOpen quiet := by
    have before := counted.covered isOpen quiet
    unfold recorded at before ⊢
    rwa [prunedKeeps _ _ isOpen]
  limited := counted.limited

theorem Counted.throws (counted : Counted username from_ s) (other : Bytes) :
    Counted username from_ { s with admitted := fewer s.admitted other } where
  checksPast := counted.checksPast
  recordsPast := counted.recordsPast
  room isOpen := by
    have before := counted.room isOpen
    have left := fewerAt username s.admitted other
    unfold recorded at before ⊢
    dsimp only
    split at left <;> omega
  covered := counted.covered
  limited := counted.limited

theorem Counted.succeeds (counted : Counted username from_ s) (other : Bytes) (succeeding : Bytes → Nat) :
    Counted username from_ { s with admitted := fewer s.admitted other, succeeding } :=
  ⟨counted.checksPast, counted.recordsPast, (counted.throws other).room, counted.covered, counted.limited⟩

theorem failedSnoc (username : Bytes) (from_ : Int) (checks : List (Bytes × Int)) (other : Bytes) (now : Int) : (checks ++ [(other, now)]).countP (inWindow username from_) ≤
    checks.countP (inWindow username from_) + if username = other then 1 else 0 := by
  rw [List.countP_append]
  refine Nat.add_le_add_left ?_ _
  rw [List.countP_singleton]
  split
  · rename_i inside
    rw [if_pos (inWindowIff.mp inside).1.symm]
  · exact Nat.zero_le _

/- A failing check at a time after the window is none of the window's. -/
theorem failedLate {checks : List (Bytes × Int)} {other : Bytes} {now : Int} (late : from_ + AuthRateLimiter.window < now) :
    (checks ++ [(other, now)]).countP (inWindow username from_) = checks.countP (inWindow username from_) := by
  have outside : ¬inWindow username from_ (other, now) = true := fun inside => by
    have at_ := (inWindowIff.mp inside).2.2
    dsimp only at at_
    omega
  rw [List.countP_append, List.countP_singleton, if_neg outside, Nat.add_zero]

theorem Counted.fails (counted : Counted username from_ s) {other : Bytes} (there : s.admitted other ≠ 0) :
    Counted username from_ { s with admitted := fewer s.admitted other, failing := more s.failing other
                                    failedChecks := s.failedChecks ++ [(other, s.now)] } := by
  have left := fewerAt username s.admitted other
  have come := moreAt username s.failing other
  have one : username = other → s.admitted username ≠ 0 := fun same => same ▸ there
  have room (isOpen : s.now ≤ from_ + AuthRateLimiter.window) :
      s.recorded username from_ + fewer s.admitted other username + more s.failing other username ≤ AuthRateLimiter.maxAttempts := by
    have before := counted.room isOpen
    by_cases same : username = other
    · have positive := one same
      rw [if_pos same] at left come
      omega
    · rw [if_neg same] at left come
      omega
  have covered (isOpen : s.now ≤ from_ + AuthRateLimiter.window) (quiet : s.Quiet username from_) :
      (s.failedChecks ++ [(other, s.now)]).countP (inWindow username from_) ≤ s.recorded username from_ + more s.failing other username := by
    have before := counted.covered isOpen quiet
    have snoc := failedSnoc username from_ s.failedChecks other s.now
    unfold failed at before
    by_cases same : username = other
    · rw [if_pos same] at come snoc
      omega
    · rw [if_neg same] at come snoc
      omega
  refine ⟨fun check mem => ?_, counted.recordsPast, room, covered, fun quiet => ?_⟩
  · rcases List.mem_append.mp mem with old | new
    · exact counted.checksPast check old
    · obtain rfl := List.mem_singleton.mp new
      exact le_rfl
  · by_cases isOpen : s.now ≤ from_ + AuthRateLimiter.window
    · have fits := room isOpen
      have inside := covered isOpen quiet
      unfold failed
      dsimp only
      omega
    · unfold failed
      rw [failedLate (by omega)]
      exact counted.limited quiet

/- A failure goes from those about to be recorded to those that are, unless it comes before the window. -/
theorem Counted.recordsFailure (counted : Counted username from_ s) {other : Bytes} (there : s.failing other ≠ 0) :
    Counted username from_ { s with limiter := s.limiter.recordFailure s.now s.now other, failing := fewer s.failing other } := by
  have left := fewerAt username s.failing other
  have one : username = other → s.failing username ≠ 0 := fun same => same ▸ there
  have added : ((s.limiter.recordFailure s.now s.now other).failures username).countP (fun time => from_ ≤ time) =
      ((s.limiter.prune s.now other).failures username).countP (fun time => from_ ≤ time) +
        if username = other ∧ from_ ≤ s.now then 1 else 0 := by
    rw [failureRecorded, List.countP_append]
    by_cases same : username = other
    · rw [if_pos same, List.countP_singleton]
      simp [same]
    · simp [same]
  refine ⟨counted.checksPast, fun time mem => ?_, fun isOpen => ?_, fun isOpen quiet => ?_, counted.limited⟩
  · dsimp only at mem
    rw [failureRecorded] at mem
    rcases List.mem_append.mp mem with old | new
    · exact counted.recordsPast time (prunedMem old)
    · split at new
      · obtain rfl := List.mem_singleton.mp new
        exact le_rfl
      · simp at new
  · have before := counted.room isOpen
    unfold recorded at before ⊢
    dsimp only
    rw [added, prunedKeeps _ _ isOpen]
    by_cases same : username = other
    · have positive := one same
      rw [if_pos same] at left
      split <;> omega
    · rw [if_neg same] at left
      rw [if_neg (fun both => same both.1)]
      omega
  · have before := counted.covered isOpen quiet
    have none_ := counted.before
    unfold recorded failed at *
    dsimp only
    rw [added, prunedKeeps _ _ isOpen]
    by_cases same : username = other
    · have positive := one same
      rw [if_pos same] at left
      by_cases late : from_ ≤ s.now
      · rw [if_pos ⟨same, late⟩]
        omega
      · have zero := (none_ (by omega)).1
        omega
    · rw [if_neg same] at left
      omega

/- A login clears what was recorded, but then no window around it is quiet. -/
theorem Counted.recordsSuccess (counted : Counted username from_ s) (other : Bytes) (succeeding : Bytes → Nat) :
    Counted username from_ { s with limiter := s.limiter.recordSuccess other, succeeding, logins := s.logins ++ [(other, s.now)] } := by
  have cleared : ((s.limiter.recordSuccess other).failures username).countP (fun time => from_ ≤ time) ≤ s.recorded username from_ := by
    rw [successRecorded]
    split
    · exact Nat.zero_le _
    · exact le_rfl
  have earlier (quiet : Quiet { s with limiter := s.limiter.recordSuccess other, succeeding, logins := s.logins ++ [(other, s.now)] }
      username from_) : s.Quiet username from_ ∧ inWindow username from_ (other, s.now) = false := by
    unfold Quiet at quiet ⊢
    rw [List.all_append, Bool.and_eq_true] at quiet
    exact ⟨quiet.1, by simpa using quiet.2⟩
  refine ⟨counted.checksPast, fun time mem => ?_, fun isOpen => ?_, fun isOpen quiet => ?_, fun quiet => counted.limited (earlier quiet).1⟩
  · dsimp only at mem
    rw [successRecorded] at mem
    split at mem
    · simp at mem
    · exact counted.recordsPast time mem
  · have before := counted.room isOpen
    unfold recorded at before cleared ⊢
    dsimp only
    omega
  · obtain ⟨quietBefore, outside⟩ := earlier quiet
    have before := counted.covered isOpen quietBefore
    by_cases same : username = other
    · have early : s.now < from_ := by
        by_contra late
        have inside : inWindow username from_ (other, s.now) = true := inWindowIff.mpr ⟨same.symm, by omega, isOpen⟩
        rw [outside] at inside
        cases inside
      have none_ := (counted.before early).1
      unfold failed at none_ ⊢
      dsimp only
      omega
    · unfold recorded failed at *
      dsimp only
      rw [successRecorded, if_neg same]
      exact before

theorem Counted.next (counted : Counted username from_ s) (met : Uncrowded s event) (fired : s.fire event = some t) :
    Counted username from_ t := by
  cases event with
  | elapses nanoseconds =>
      obtain rfl := Option.some.inj fired
      exact counted.elapses nanoseconds
  | asks other =>
      simp only [fire] at fired
      split at fired
      · rename_i allowed
        obtain rfl := Option.some.inj fired
        have come := moreAt username s.admitted other
        refine counted.asks fun isOpen => ?_
        have before := counted.room isOpen
        unfold recorded at before
        by_cases same : username = other
        · have few := met allowed
          rw [if_pos same] at come
          have most := List.countP_le_length (p := fun time => decide (from_ ≤ time)) (l := (s.limiter.prune s.now other).failures username)
          rw [← same] at few most ⊢
          rw [← same] at come
          omega
        · rw [if_neg same] at come
          rw [prunedKeeps _ _ isOpen]
          omega
      · obtain rfl := Option.some.inj fired
        refine counted.asks fun isOpen => ?_
        have before := counted.room isOpen
        unfold recorded at before
        rw [prunedKeeps _ _ isOpen]
        exact before
  | throws other =>
      simp only [fire] at fired
      split at fired
      · cases fired
      · obtain rfl := Option.some.inj fired
        exact counted.throws other
  | checks other good =>
      simp only [fire] at fired
      split at fired
      · cases fired
      · rename_i there
        split at fired
        · obtain rfl := Option.some.inj fired
          exact counted.succeeds other _
        · obtain rfl := Option.some.inj fired
          exact counted.fails there
  | recordsFailure other =>
      simp only [fire] at fired
      split at fired
      · cases fired
      · rename_i there
        obtain rfl := Option.some.inj fired
        exact counted.recordsFailure there
  | recordsSuccess other =>
      simp only [fire] at fired
      split at fired
      · cases fired
      · obtain rfl := Option.some.inj fired
        exact counted.recordsSuccess other _

end Window

theorem uncrowdedLimited {s : LoginState} (run : Run fire Uncrowded {} s) : s.Limited := by
  intro username from_ quiet
  have counted : Counted username from_ s :=
    run.keeps startCounted fun _ _ _ held met fired => held.next met fired
  exact counted.limited quiet

/- One after the other: five are let in, and a sixth is not. -/
def oneByOne : List LoginEvent :=
  (List.replicate 5 [.asks (ascii "alice"), .checks (ascii "alice") false, .recordsFailure (ascii "alice"), .elapses 1000000000]).flatten ++
    [.asks (ascii "alice")]

theorem oneByOneLimited : ∃ s, play fire Uncrowded {} oneByOne = some s ∧ s.failedChecks.length = 5 ∧ s.admitted (ascii "alice") = 0 ∧
    s.Limited := by
  have played : ((play fire Uncrowded {} oneByOne).map fun s => (s.failedChecks.length, s.admitted (ascii "alice"))) = some (5, 0) := by
    decide +kernel
  obtain ⟨s, ran, same⟩ := Option.map_eq_some_iff.mp played
  obtain ⟨checks, admitted⟩ := Prod.mk.inj same
  exact ⟨s, ran, checks, admitted, uncrowdedLimited (playRun ran)⟩

/- Six at a time: all are let in before the first failure is recorded. -/
def sixAtOnce : List LoginEvent := List.replicate 6 (.asks (ascii "alice")) ++ List.replicate 6 (.checks (ascii "alice") false)

theorem sixNotLimited : ∃ s, Run fire (fun _ _ => True) {} s ∧ ¬s.Limited := by
  have played : ((play fire (fun _ _ => True) {} sixAtOnce).map fun s =>
      (s.failedChecks.countP (inWindow (ascii "alice") 0), s.logins.length)) = some (6, 0) := by decide +kernel
  obtain ⟨s, ran, same⟩ := Option.map_eq_some_iff.mp played
  obtain ⟨checks, logins⟩ := Prod.mk.inj same
  refine ⟨s, playRun ran, fun limited => ?_⟩
  have few := limited (ascii "alice") 0 (by rw [List.length_eq_zero_iff.mp logins]; rfl)
  rw [checks] at few
  exact absurd few (by decide)
end LoginState
end TradeP2P
