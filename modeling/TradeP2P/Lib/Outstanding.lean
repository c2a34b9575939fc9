import Mathlib.Data.Multiset.AddSub

/-! Things handed out and taken back, one event after the other. What a store of them holds is what went out
and has not come back, however they come and go. -/
namespace Outstanding

variable {E C : Type} (issues takes : E → List C)

def issued (events : List E) : List C := events.flatMap issues
def taken (events : List E) : List C := events.flatMap takes

/- One event after the other keeps the books: what is there after it and what it took is what was there
before and what it issued. -/
def Balanced : List C → List E → List C → Prop
  | before, [], after => before = after
  | before, e :: later, after => ∃ next, (next ++ takes e).Perm (before ++ issues e) ∧ Balanced next later after

variable {issues takes} {before after : List C} {events : List E}

theorem Balanced.total (balanced : Balanced issues takes before events after) :
    (after ++ taken takes events).Perm (before ++ issued issues events) := by
  induction events generalizing before with
  | nil =>
      cases balanced
      exact .rfl
  | cons e later ih =>
      obtain ⟨next, one, rest⟩ := balanced
      have whole := ih rest
      simp only [taken, issued, List.flatMap_cons] at whole ⊢
      calc (after ++ (takes e ++ List.flatMap takes later)).Perm (after ++ (List.flatMap takes later ++ takes e)) :=
            List.perm_append_comm.append_left after
        _ |>.Perm ((next ++ List.flatMap issues later) ++ takes e) := by
            rw [← List.append_assoc]
            exact whole.append_right (takes e)
        _ |>.Perm ((next ++ takes e) ++ List.flatMap issues later) := by
            rw [List.append_assoc, List.append_assoc]
            exact List.perm_append_comm.append_left next
        _ |>.Perm (before ++ (issues e ++ List.flatMap issues later)) := by
            rw [← List.append_assoc]
            exact one.append_right _

/- What went out and has not come back. -/
def unanswered [DecidableEq C] (issues takes : E → List C) (events : List E) : Multiset C :=
  (issued issues events : Multiset C) - (taken takes events : Multiset C)

theorem Balanced.holds [DecidableEq C] (balanced : Balanced issues takes [] events after) :
    (after : Multiset C) = unanswered issues takes events := by
  have total : (after : Multiset C) + (taken takes events : Multiset C) = (issued issues events : Multiset C) := by
    rw [Multiset.coe_add, Multiset.coe_eq_coe]
    exact balanced.total
  rw [unanswered, ← total, Multiset.add_sub_cancel_right]

end Outstanding
