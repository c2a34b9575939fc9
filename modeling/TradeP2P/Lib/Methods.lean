import TradeP2P.Lib.Checks
import TradeP2P.Lib.Machine

/-! The body of a method, run one statement at a time. -/
namespace Methods
open Checks

variable {ε σ α : Type} {s : σ}

theorem getThen {k : σ → EStateM ε σ α} : (get >>= k) s = k s s := rfl

theorem setThen {t : σ} {k : PUnit → EStateM ε σ α} : (set t >>= k) s = k ⟨⟩ t := rfl

theorem modifyThen {f : σ → σ} {k : PUnit → EStateM ε σ α} : (modify f >>= k) s = k ⟨⟩ (f s) := rfl

theorem checkThen {bad : Prop} [Decidable bad] {e : ε} {k : Unit → EStateM ε σ α} :
    ((liftM (throwIf bad e) : EStateM ε σ Unit) >>= k) s = if bad then .error e s else k () s := by
  rw [Machine.bind_run, Machine.lift_run, throwIf]
  by_cases hit : bad
  · rw [if_pos hit, if_pos hit]
  · rw [if_neg hit, if_neg hit]

theorem ifThen {c : Prop} [Decidable c] {x y : EStateM ε σ α} : (if c then x else y) s = if c then x s else y s :=
  Machine.ite_run s c x y

theorem returned {a : α} : (pure a : EStateM ε σ α) s = .ok a s := rfl

end Methods
