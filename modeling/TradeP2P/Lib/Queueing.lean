import Mathlib.Data.List.Pairwise

/-! A queue that several threads fill. A thread settles on what it will put before it puts it, one
item after the other. `R x y` says that `x` may stand before `y`. -/
namespace Queueing

variable {Id F : Type} {R : F → F → Prop} {queue : List F} {pending pending' : Id → List F} {t : Id} {x : F}
  {rest : List F}

/- The queue is in order, and stays so if every thread puts what it has left without anything overtaking. -/
structure InLine (R : F → F → Prop) (queue : List F) (pending : Id → List F) : Prop where
  queued : queue.Pairwise R
  own : ∀ t, (pending t).Pairwise R
  ahead : ∀ t, ∀ x ∈ queue, ∀ y ∈ pending t, R x y

/- Nothing another thread has left has to stand before `x`. -/
def Overtakes (R : F → F → Prop) (pending : Id → List F) (t : Id) (x : F) : Prop :=
  ∃ u, u ≠ t ∧ ∃ y ∈ pending u, ¬R x y

theorem inLineEmpty (own : ∀ t, (pending t).Pairwise R) : InLine R [] pending := ⟨.nil, own, by simp⟩

/- A thread may give up what it has left. -/
theorem InLine.thin (line : InLine R queue pending) (fewer : ∀ t, List.Sublist (pending' t) (pending t)) :
    InLine R queue pending' where
  queued := line.queued
  own t := (line.own t).sublist (fewer t)
  ahead t x queued y left := line.ahead t x queued y ((fewer t).subset left)

theorem InLine.put (line : InLine R queue pending) (next : pending t = x :: rest) (here : pending' t = rest)
    (others : ∀ u, u ≠ t → pending' u = pending u) (waits : ¬Overtakes R pending t x) :
    InLine R (queue ++ [x]) pending' := by
  have own := line.own t
  rw [next] at own
  have waited : ∀ u, u ≠ t → ∀ y ∈ pending u, R x y := by
    intro u differ y left
    by_contra late
    exact waits ⟨u, differ, y, left, late⟩
  refine ⟨?_, fun u => ?_, fun u y queued z left => ?_⟩
  · rw [List.pairwise_append]
    refine ⟨line.queued, List.pairwise_singleton .., fun y queued z last => ?_⟩
    rw [List.mem_singleton.mp last]
    exact line.ahead t y queued x (next ▸ List.mem_cons_self ..)
  · by_cases same : u = t
    · rw [same, here]
      exact own.of_cons
    · rw [others u same]
      exact line.own u
  · by_cases same : u = t
    · rw [same, here] at left
      rcases List.mem_append.mp queued with before | last
      · exact line.ahead t y before z (next ▸ List.mem_cons_of_mem _ left)
      · rw [List.mem_singleton.mp last]
        exact List.rel_of_pairwise_cons own left
    · rw [others u same] at left
      rcases List.mem_append.mp queued with before | last
      · exact line.ahead u y before z left
      · rw [List.mem_singleton.mp last]
        exact waited u same z left

end Queueing
