import Mathlib.Data.List.Induction

/-! Objects with throwing methods. A method call either returns or throws, and
in both cases leaves a state behind: a throw does not roll back by itself. A run
is a list of calls, each made on the state the previous one left. The log keeps
the calls that returned, each with the state before and after it. -/
namespace Machine

variable {ε σ α β : Type}

abbrev Object (ε σ α : Type) := α → EStateM ε σ Unit

/- A callee that does not touch the state can be called from a method. -/
instance liftsExcept : MonadLift (Except ε) (EStateM ε σ) where
  monadLift
    | .ok value => pure value
    | .error e => throw e

/- How a method body runs from a state, one primitive at a time. -/
section Bodies
variable (s : σ)

theorem bind_run (x : EStateM ε σ α) (k : α → EStateM ε σ β) :
    (x >>= k) s = match x s with
      | .ok a t => k a t
      | .error e t => .error e t := rfl

theorem pure_run (a : α) : (pure a : EStateM ε σ α) s = .ok a s := rfl
theorem throw_run (e : ε) : (throw e : EStateM ε σ α) s = .error e s := rfl
theorem get_run : (get : EStateM ε σ σ) s = .ok s s := rfl
theorem set_run (t : σ) : (set t : EStateM ε σ PUnit) s = .ok ⟨⟩ t := rfl
theorem modify_run (f : σ → σ) : (modify f : EStateM ε σ PUnit) s = .ok ⟨⟩ (f s) := rfl

theorem lift_run (x : Except ε α) :
    (liftM x : EStateM ε σ α) s = match x with
      | .ok a => .ok a s
      | .error e => .error e s := by
  cases x <;> rfl

theorem ite_run (c : Prop) [Decidable c] (x y : EStateM ε σ α) :
    (if c then x else y) s = if c then x s else y s := by split <;> rfl

end Bodies

/- What a body that returned has done, one primitive at a time. -/
section Returned
variable {s t : σ} {a : α}

theorem bind_returns {x : EStateM ε σ α} {k : α → EStateM ε σ β} {b : β} :
    (x >>= k) s = .ok b t ↔ ∃ a u, x s = .ok a u ∧ k a u = .ok b t := by
  rw [bind_run]
  cases x s <;> simp

theorem pure_returns {b : α} : (pure b : EStateM ε σ α) s = .ok a t ↔ b = a ∧ s = t := by simp [pure_run]

theorem get_returns {u : σ} : (get : EStateM ε σ σ) s = .ok u t ↔ s = u ∧ s = t := by simp [get_run]

theorem set_returns {u : σ} {v : PUnit} : (set u : EStateM ε σ PUnit) s = .ok v t ↔ u = t := by
  simp [set_run]

theorem modify_returns {f : σ → σ} {v : PUnit} : (modify f : EStateM ε σ PUnit) s = .ok v t ↔ f s = t := by
  have ran : (modify f : EStateM ε σ PUnit) s = .ok ⟨⟩ (f s) := rfl
  rw [ran]
  simp

theorem lift_returns {x : Except ε α} : (liftM x : EStateM ε σ α) s = .ok a t ↔ x = .ok a ∧ s = t := by
  rw [lift_run]
  cases x <;> simp

end Returned

structure Event (σ α : Type) where
  before : σ
  call : α
  after : σ
  deriving Repr

def Accepts (m : Object ε σ α) (s : σ) (a : α) (t : σ) : Prop := m a s = .ok () t

def accepted (m : Object ε σ α) (s : σ) (a : α) : Bool := match m a s with
  | .ok _ _ => true
  | .error _ _ => false

def next (m : Object ε σ α) (s : σ) (a : α) : σ := match m a s with
  | .ok _ t => t
  | .error _ t => t

def exec (m : Object ε σ α) (s : σ) (calls : List α) : σ := calls.foldl (next m) s

def log (m : Object ε σ α) : σ → List α → List (Event σ α)
  | _, [] => []
  | s, a :: rest =>
      if accepted m s a then ⟨s, a, next m s a⟩ :: log m (next m s a) rest
      else log m (next m s a) rest

/- Every call of a run meets a condition on the state it finds. -/
def Throughout (m : Object ε σ α) (P : σ → α → Prop) : σ → List α → Prop
  | _, [] => True
  | s, a :: rest => P s a ∧ Throughout m P (next m s a) rest

/- A throw leaves the object as it was. -/
def Atomic (m : Object ε σ α) : Prop := ∀ s a e t, m a s = .error e t → t = s

section Calls
variable {m : Object ε σ α} {s t : σ} {a : α}

theorem acceptedIff : accepted m s a = true ↔ ∃ t, Accepts m s a t := by
  unfold accepted Accepts
  cases m a s with
  | ok u t => exact ⟨fun _ => ⟨t, rfl⟩, fun _ => rfl⟩
  | error e t => simp

theorem Accepts.accepted (h : Accepts m s a t) : accepted m s a = true := acceptedIff.mpr ⟨t, h⟩

theorem Accepts.next (h : Accepts m s a t) : next m s a = t := by
  simp only [Accepts] at h
  simp [Machine.next, h]

theorem accepts_next (h : accepted m s a = true) : Accepts m s a (next m s a) := by
  obtain ⟨t, ok⟩ := acceptedIff.mp h
  rwa [ok.next]

theorem Atomic.rejected (atomic : Atomic m) (h : accepted m s a = false) : next m s a = s := by
  unfold accepted at h
  unfold next
  cases call : m a s with
  | ok u t => simp [call] at h
  | error e t => exact atomic s a e t call

end Calls

section Runs
variable {m : Object ε σ α}

@[simp] theorem exec_nil (s : σ) : exec m s [] = s := rfl

@[simp] theorem exec_cons (s : σ) (a : α) (rest : List α) :
    exec m s (a :: rest) = exec m (next m s a) rest := rfl

theorem exec_append (s : σ) (xs ys : List α) : exec m s (xs ++ ys) = exec m (exec m s xs) ys := by
  simp [exec]

theorem exec_snoc (s : σ) (xs : List α) (a : α) : exec m s (xs ++ [a]) = next m (exec m s xs) a := by
  rw [exec_append]
  rfl

/- A condition on every call of a run, one place of it at a time. -/
theorem throughoutSplits {P : σ → α → Prop} {s : σ} {calls : List α} :
    Throughout m P s calls ↔ ∀ before call later, calls = before ++ call :: later → P (exec m s before) call := by
  induction calls generalizing s with
  | nil => exact iff_of_true trivial fun before call later never => by simp at never
  | cons call rest ih =>
    rw [Throughout, ih]
    constructor
    · intro holds before other later split
      cases before with
      | nil =>
        obtain ⟨rfl, _⟩ := List.cons.inj split
        exact holds.1
      | cons first before =>
        obtain ⟨rfl, tail⟩ := List.cons.inj split
        exact holds.2 before other later tail
    · intro holds
      exact ⟨holds [] call rest rfl, fun before other later split => holds (call :: before) other later (by rw [split]; rfl)⟩

theorem throughout_snoc {P : σ → α → Prop} (s : σ) (xs : List α) (a : α) :
    Throughout m P s (xs ++ [a]) ↔ Throughout m P s xs ∧ P (exec m s xs) a := by
  induction xs generalizing s with
  | nil => simp [Throughout]
  | cons b rest ih => simp only [List.cons_append, Throughout, ih, exec_cons, and_assoc]

theorem throughout_of {P : σ → α → Prop} {s : σ} (holds : ∀ done a, P (exec m s done) a) (calls : List α) :
    Throughout m P s calls := by
  induction calls using List.reverseRecOn with
  | nil => trivial
  | append_singleton rest a ih => exact (throughout_snoc s rest a).mpr ⟨ih, holds rest a⟩

/- The rule of a run in which calls may leave a changed state behind when they throw. -/
theorem exec_history {I : List α → σ → Prop} {s : σ} (start : I [] s)
    (step : ∀ done a, I done (exec m s done) → I (done ++ [a]) (next m (exec m s done) a)) (calls : List α) :
    I calls (exec m s calls) := by
  induction calls using List.reverseRecOn with
  | nil => exact start
  | append_singleton rest a ih =>
      rw [exec_snoc]
      exact step rest a ih

@[simp] theorem log_nil (s : σ) : log m s [] = [] := rfl

theorem log_append (s : σ) (xs ys : List α) :
    log m s (xs ++ ys) = log m s xs ++ log m (exec m s xs) ys := by
  induction xs generalizing s with
  | nil => rfl
  | cons a rest ih =>
      simp only [List.cons_append, log, exec_cons, ih]
      split <;> rfl

theorem log_single (s : σ) (a : α) :
    log m s [a] = if accepted m s a then [⟨s, a, next m s a⟩] else [] := rfl

/- The rule of a run: what holds at the start of the log and is kept by every call
that returns holds of the log and the state at the end. -/
theorem Atomic.history (atomic : Atomic m) {I : List (Event σ α) → σ → Prop} {s : σ}
    (start : I [] s)
    (step : ∀ h t a u, I h t → Accepts m t a u → I (h ++ [⟨t, a, u⟩]) u) (calls : List α) :
    I (log m s calls) (exec m s calls) := by
  induction calls using List.reverseRecOn with
  | nil => exact start
  | append_singleton rest a ih =>
      simp only [log_append, exec_append, log_single, exec_cons, exec_nil]
      cases got : accepted m (exec m s rest) a with
      | true => exact step _ _ _ _ ih (accepts_next got)
      | false => simpa [atomic.rejected got] using ih

theorem Atomic.invariant (atomic : Atomic m) {I : σ → Prop} {s : σ} (start : I s)
    (step : ∀ t a u, I t → Accepts m t a u → I u) (calls : List α) : I (exec m s calls) :=
  atomic.history (I := fun _ t => I t) start (fun _ t a u => step t a u) calls

/- An event of the log is reached by a prefix of the calls, whose log is what stands before it. -/
theorem log_split {s : σ} {calls : List α} {pre post : List (Event σ α)} {e : Event σ α}
    (h : log m s calls = pre ++ e :: post) :
    ∃ xs ys, calls = xs ++ e.call :: ys ∧ log m s xs = pre ∧ exec m s xs = e.before ∧
      Accepts m e.before e.call e.after ∧ log m e.after ys = post := by
  induction calls generalizing s pre with
  | nil => simp at h
  | cons a rest ih =>
      simp only [log] at h
      cases got : accepted m s a with
      | false =>
          simp only [got, Bool.false_eq_true, if_false] at h
          obtain ⟨xs, ys, hc, hl, he, ha, hp⟩ := ih h
          refine ⟨a :: xs, ys, by simp [hc], ?_, he, ha, hp⟩
          simpa [log, got] using hl
      | true =>
          simp only [got, if_true] at h
          cases pre with
          | nil =>
              simp only [List.nil_append, List.cons.injEq] at h
              obtain ⟨rfl, rest_eq⟩ := h
              exact ⟨[], rest, rfl, rfl, rfl, accepts_next got, rest_eq⟩
          | cons first pre =>
              simp only [List.cons_append, List.cons.injEq] at h
              obtain ⟨rfl, tail⟩ := h
              obtain ⟨xs, ys, hc, hl, he, ha, hp⟩ := ih tail
              refine ⟨a :: xs, ys, by simp [hc], ?_, he, ha, hp⟩
              simp [log, got, hl]

theorem log_mem {s : σ} {calls : List α} {e : Event σ α} (h : e ∈ log m s calls) :
    ∃ xs ys, calls = xs ++ e.call :: ys ∧ exec m s xs = e.before ∧ Accepts m e.before e.call e.after := by
  obtain ⟨pre, post, split⟩ := List.append_of_mem h
  obtain ⟨xs, ys, hc, _, he, ha, _⟩ := log_split split
  exact ⟨xs, ys, hc, he, ha⟩

theorem Atomic.silent (atomic : Atomic m) {s : σ} {calls : List α} (h : log m s calls = []) :
    exec m s calls = s := by
  induction calls generalizing s with
  | nil => rfl
  | cons a rest ih =>
      simp only [log] at h
      cases got : accepted m s a with
      | true => simp [got] at h
      | false =>
          rw [exec_cons, atomic.rejected got]
          rw [got, atomic.rejected got] at h
          exact ih (by simpa using h)

/- Nothing happens between two neighbours of the log. -/
theorem Atomic.linked (atomic : Atomic m) {s : σ} {calls : List α} {pre post : List (Event σ α)} {e f : Event σ α}
    (h : log m s calls = pre ++ e :: f :: post) : f.before = e.after := by
  obtain ⟨_, ys, _, _, _, _, tail⟩ := log_split h
  have split : log m e.after ys = [] ++ f :: post := tail
  obtain ⟨zs, _, _, between, here, _⟩ := log_split split
  rw [← here, atomic.silent between]

end Runs

/-! Runs without a throw. -/
section Complete
variable {m : Object ε σ α}

-- The state after a run in which every call returns.
def completes (m : Object ε σ α) (s : σ) : List α → Option σ
  | [] => some s
  | a :: rest => match m a s with
    | .ok _ t => completes m t rest
    | .error _ _ => none

theorem completes_history {I : List α → σ → Prop} {s t : σ} {calls : List α} (start : I [] s)
    (step : ∀ done t a u, a ∈ calls → I done t → Accepts m t a u → I (done ++ [a]) u)
    (ran : completes m s calls = some t) : I calls t := by
  suffices run : ∀ done rest s, done ++ rest = calls → I done s → completes m s rest = some t → I calls t from
    run [] calls s rfl start ran
  intro done rest
  induction rest generalizing done with
  | nil =>
      intro s whole holds ran
      obtain rfl := Option.some.inj ran
      rwa [← whole, List.append_nil]
  | cons a rest ih =>
      intro s whole holds ran
      simp only [completes] at ran
      cases call : m a s with
      | error e next => simp [call] at ran
      | ok u next =>
          rw [call] at ran
          have mem : a ∈ calls := by simp [← whole]
          exact ih (done ++ [a]) next (by simp [← whole]) (step done s a next mem holds call) ran

end Complete

/-! Bisimulation. Two states a symmetric relation keeps together accept the same calls for good. -/
section Bisimilar
variable {m : Object ε σ α} {R : σ → σ → Prop}

structure Bisimulation (m : Object ε σ α) (R : σ → σ → Prop) : Prop where
  symm : ∀ {s r}, R s r → R r s
  forth : ∀ {s r a t}, R s r → Accepts m s a t → ∃ u, Accepts m r a u ∧ R t u

theorem Bisimulation.accepted (both : Bisimulation m R) {s r : σ} (related : R s r) (a : α) :
    accepted m s a = accepted m r a := by
  have forth {s r : σ} (related : R s r) (got : Machine.accepted m s a = true) : Machine.accepted m r a = true := by
    obtain ⟨u, ok, _⟩ := both.forth related (accepts_next got)
    exact ok.accepted
  cases left : Machine.accepted m s a <;> cases right : Machine.accepted m r a
  · rfl
  · rw [forth (both.symm related) right] at left
    contradiction
  · rw [forth related left] at right
    contradiction
  · rfl

theorem Bisimulation.next (atomic : Atomic m) (both : Bisimulation m R) {s r : σ} (related : R s r) (a : α) :
    R (next m s a) (next m r a) := by
  cases got : Machine.accepted m s a with
  | true =>
      obtain ⟨u, ok, kept⟩ := both.forth related (accepts_next got)
      rwa [ok.next]
  | false =>
      have other := both.accepted related a
      rw [got] at other
      rwa [atomic.rejected got, atomic.rejected other.symm]

theorem Bisimulation.exec (atomic : Atomic m) (both : Bisimulation m R) {s r : σ} (related : R s r)
    (calls : List α) : R (exec m s calls) (exec m r calls) := by
  induction calls generalizing s r with
  | nil => exact related
  | cons a rest ih => exact ih (both.next atomic related a)

end Bisimilar

/-! Agendas. Some objects do nothing but work off a fixed list: every accepted call does the
task at its head, unless it closes the object for good. Then a run says exactly how much of
the list is done, and every count over a run is a count over the list. -/
section Agendas
variable {m : Object ε σ α} {τ : Type}

structure WorksOff (m : Object ε σ α) (I Closed : σ → Prop) (agenda : σ → List τ)
    (task : Event σ α → Option τ) : Prop where
  keep : ∀ {t a u}, I t → Accepts m t a u → I u
  work : ∀ {t a u}, I t → Accepts m t a u → ¬Closed u →
    ¬Closed t ∧ ∃ x, task ⟨t, a, u⟩ = some x ∧ agenda t = x :: agenda u
  close : ∀ {t a u}, I t → Accepts m t a u → Closed u → task ⟨t, a, u⟩ = none

variable {I Closed : σ → Prop} {agenda : σ → List τ} {task : Event σ α → Option τ}

theorem WorksOff.run (atomic : Atomic m) (off : WorksOff m I Closed agenda task) {s : σ} (start : I s)
    (calls : List α) :
    I (exec m s calls) ∧ ∃ done rest, done ++ rest = agenda s ∧
      (log m s calls).filterMap task = done ∧
      (¬Closed (exec m s calls) →
        (log m s calls).map task = done.map some ∧ rest = agenda (exec m s calls)) := by
  refine atomic.history (I := fun h t => I t ∧ ∃ done rest, done ++ rest = agenda s ∧
    h.filterMap task = done ∧ (¬Closed t → h.map task = done.map some ∧ rest = agenda t))
    ⟨start, [], agenda s, by simp⟩ ?_ calls
  rintro h t a u ⟨holds, done, rest, whole, kept, opened⟩ ok
  refine ⟨off.keep holds ok, ?_⟩
  by_cases closed : Closed u
  · exact ⟨done, rest, whole, by simp [kept, off.close holds ok closed], fun stays => absurd closed stays⟩
  · obtain ⟨before, x, does, head⟩ := off.work holds ok closed
    obtain ⟨all, rfl⟩ := opened before
    exact ⟨done ++ [x], agenda u, by simp [← whole, head], by simp [kept, does],
      fun _ => ⟨by simp [all, does], rfl⟩⟩

theorem WorksOff.done (atomic : Atomic m) (off : WorksOff m I Closed agenda task) {s : σ} (start : I s)
    (calls : List α) : (log m s calls).filterMap task <+: agenda s := by
  obtain ⟨_, done, rest, whole, kept, _⟩ := off.run atomic start calls
  exact ⟨rest, by rw [kept, whole]⟩

theorem WorksOff.open (atomic : Atomic m) (off : WorksOff m I Closed agenda task) {s : σ} (start : I s)
    (calls : List α) (opened : ¬Closed (exec m s calls)) :
    (log m s calls).map task = ((log m s calls).filterMap task).map some ∧
      (log m s calls).filterMap task ++ agenda (exec m s calls) = agenda s := by
  obtain ⟨_, done, rest, whole, kept, holds⟩ := off.run atomic start calls
  obtain ⟨all, rfl⟩ := holds opened
  rw [kept]
  exact ⟨all, whole⟩

theorem WorksOff.invariant (atomic : Atomic m) (off : WorksOff m I Closed agenda task) {s : σ}
    (start : I s) (calls : List α) : I (exec m s calls) := (off.run atomic start calls).1

/- Before a task a run has done exactly what stands before it on the agenda. -/
theorem WorksOff.split (atomic : Atomic m) (off : WorksOff m I Closed agenda task) {s : σ} (start : I s)
    {calls : List α} {pre post : List (Event σ α)} {e : Event σ α} {x : τ}
    (h : log m s calls = pre ++ e :: post) (does : task e = some x) :
    pre.map task = (pre.filterMap task).map some ∧ pre.filterMap task ++ x :: agenda e.after = agenda s := by
  obtain ⟨xs, _, _, rfl, here, ok, _⟩ := log_split h
  have holds : I e.before := here ▸ (off.run atomic start xs).1
  have opened : ¬Closed e.after := fun closed => by
    have none := off.close holds ok closed
    rw [show (⟨e.before, e.call, e.after⟩ : Event σ α) = e from rfl, does] at none
    contradiction
  obtain ⟨before, y, same, head⟩ := off.work holds ok opened
  obtain rfl : x = y := Option.some.inj (does.symm.trans same)
  have whole := off.open atomic start xs (by rwa [here])
  rw [here, head] at whole
  exact whole

/- No run does more tasks than the agenda has. -/
theorem WorksOff.bound (atomic : Atomic m) (off : WorksOff m I Closed agenda task) {s : σ} (start : I s)
    (calls : List α) : ((log m s calls).filterMap task).length ≤ (agenda s).length :=
  (off.done atomic start calls).length_le

end Agendas
end Machine
