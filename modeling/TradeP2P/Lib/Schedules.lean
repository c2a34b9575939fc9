import Mathlib.Data.List.Basic

/-! Systems of threads that take one step at a time. An event says who steps and what is answered to it; where it
cannot happen it does not fire. -/
namespace Schedules

variable {σ ε : Type} {fire : σ → ε → Option σ} {meets weaker : σ → ε → Prop} {s t u : σ}

/- A run whose every event meets a condition on the state it finds. -/
inductive Run (fire : σ → ε → Option σ) (meets : σ → ε → Prop) (s : σ) : σ → Prop where
  | refl : Run fire meets s s
  | step {t u : σ} {event : ε} (run : Run fire meets s t) (met : meets t event) (fired : fire t event = some u) :
      Run fire meets s u

/- What every event keeps holds in every state that is reached. -/
theorem Run.keeps {P : σ → Prop} (run : Run fire meets s t) (start : P s)
    (step : ∀ t u event, P t → meets t event → fire t event = some u → P u) : P t := by
  induction run with
  | refl => exact start
  | step run met fired held => exact step _ _ _ held met fired

theorem Run.append (first : Run fire meets s t) (second : Run fire meets t u) : Run fire meets s u := by
  induction second with
  | refl => exact first
  | step run met fired joined => exact joined.step met fired

/- The run of a list of events, as far as every event fires and meets the condition. -/
def play (fire : σ → ε → Option σ) (meets : σ → ε → Prop) [∀ s event, Decidable (meets s event)] : σ → List ε → Option σ
  | s, [] => some s
  | s, event :: rest => if meets s event then (fire s event).bind fun t => play fire meets t rest else none

theorem playRun [∀ s event, Decidable (meets s event)] {events : List ε} (played : play fire meets s events = some t) :
    Run fire meets s t := by
  induction events generalizing s with
  | nil =>
    cases played
    exact .refl
  | cons event rest tail =>
    rw [play] at played
    split_ifs at played with met
    obtain ⟨next, fired, played⟩ := Option.bind_eq_some_iff.mp played
    have first : Run fire meets s next := .step .refl met fired
    exact first.append (tail played)

end Schedules
