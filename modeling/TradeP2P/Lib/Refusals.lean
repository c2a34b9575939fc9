import TradeP2P.Lib.Codec

/-! Which errors a computation can end in, whatever it is given. -/
namespace Refusals
open Checks
open Wire (Bytes Reader readMany readAll)

variable {ε α β : Type} {allowed : ε → Prop}

def Fails (allowed : ε → Prop) (x : Except ε α) : Prop := ∀ e, x = .error e → allowed e

theorem failsOk (a : α) : Fails allowed (.ok a) := fun _ failed => (by cases failed)

theorem failsError {e : ε} (may : allowed e) : Fails allowed (.error e : Except ε α) := fun _ failed => Except.error.inj failed ▸ may

theorem failsThrowIf (bad : Prop) [Decidable bad] {e : ε} (may : bad → allowed e) : Fails allowed (throwIf bad e) := by
  intro e' failed
  obtain ⟨hit, rfl⟩ := throwIf_error.mp failed
  exact may hit

theorem Fails.bind {x : Except ε α} {f : α → Except ε β} (first : Fails allowed x) (second : ∀ a, x = .ok a → Fails allowed (f a)) :
    Fails allowed (x >>= f) := by
  cases ran : x with
  | error e =>
      intro e' failed
      obtain rfl : e = e' := Except.error.inj failed
      exact first e ran
  | ok a => exact second a ran

/-! Readers. -/

def ReaderFails (allowed : ε → Prop) (r : Reader ε α) : Prop := ∀ input, Fails allowed (r input)

theorem readerPure (a : α) : ReaderFails allowed (pure a : Reader ε α) := fun _ => failsOk _

theorem ReaderFails.bind {r : Reader ε α} {k : α → Reader ε β} (first : ReaderFails allowed r) (second : ∀ a, ReaderFails allowed (k a)) :
    ReaderFails allowed (r >>= k) :=
  fun input => (first input).bind fun pair _ => second pair.1 pair.2

theorem readerCheck {x : Except ε α} (fails : Fails allowed x) : ReaderFails allowed (liftM x : Reader ε α) := by
  intro input
  cases x with
  | error e => exact failsError (fails e rfl)
  | ok a => exact failsOk _

section Primitives
variable {short : ε} (may : allowed short)
include may

theorem readerTake (count : Nat) : ReaderFails allowed (Wire.take short count) := by
  intro input
  unfold Wire.take
  split
  · exact failsOk _
  · exact failsError may

theorem readerU8 : ReaderFails allowed (Wire.u8 short) := (readerTake may 1).bind fun _ => readerPure _

theorem readerU32 : ReaderFails allowed (Wire.u32 short) := (readerTake may 4).bind fun _ => readerPure _

theorem readerU64 : ReaderFails allowed (Wire.u64 short) := (readerTake may 8).bind fun _ => readerPure _

end Primitives

theorem ReaderFails.many {r : Reader ε α} (each : ReaderFails allowed r) (count : Nat) : ReaderFails allowed (readMany r count) := by
  induction count with
  | zero => exact readerPure _
  | succ count ih => exact each.bind fun _ => ih.bind fun _ => readerPure _

theorem ReaderFails.whole {r : Reader ε α} {trailing : ε} (fails : ReaderFails allowed r) (may : allowed trailing) (bytes : Bytes) :
    Fails allowed (readAll trailing r bytes) := by
  refine (fails bytes).bind fun pair _ => ?_
  dsimp only
  split
  · exact failsOk _
  · exact failsError may

end Refusals
