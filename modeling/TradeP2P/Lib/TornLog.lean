import Mathlib.Data.List.Basic

/-! A log of lines, each ended by a separator, with what stands behind the last of them. Appending to it adds to what is
behind, and a separator makes a line of that. -/
namespace TornLog

variable {α : Type} [DecidableEq α]

def text (separator : α) (lines : List (List α)) (tail : List α) : List α := lines.flatMap (· ++ [separator]) ++ tail

def tail (separator : α) (file : List α) : List α := (file.splitOn separator).getLastD []

/- A line in the place of another; what is behind the last separator is not one. -/
def rewrite (separator : α) (place : Nat) (change : List α → List α) (file : List α) : List α :=
  if place + 1 < (file.splitOn separator).length then [separator].intercalate ((file.splitOn separator).modify place change) else file

section Laws
variable {separator : α} {lines : List (List α)} {line rest more : List α}

omit [DecidableEq α] in
theorem textCons (separator : α) (line : List α) (lines : List (List α)) (rest : List α) :
    text separator (line :: lines) rest = line ++ separator :: text separator lines rest := by
  simp [text]

omit [DecidableEq α] in
theorem textGrows : text separator lines rest ++ more = text separator lines (rest ++ more) := List.append_assoc _ _ _

omit [DecidableEq α] in
theorem textEnds : text separator lines (line ++ [separator]) = text separator (lines ++ [line]) [] := by
  simp [text]

omit [DecidableEq α] in
theorem joined (separator : α) (lines : List (List α)) (rest : List α) :
    [separator].intercalate (lines ++ [rest]) = text separator lines rest := by
  induction lines with
  | nil => simp [text]
  | cons line lines ih =>
    rw [textCons, ← ih]
    cases lines <;> simp [List.intercalate]

theorem pieces (whole : ∀ line ∈ lines, separator ∉ line) (unended : separator ∉ rest) :
    (text separator lines rest).splitOn separator = lines ++ [rest] := by
  have each : ∀ piece ∈ lines ++ [rest], separator ∉ piece := by
    simpa only [List.forall_mem_append, List.forall_mem_singleton] using ⟨whole, unended⟩
  rw [← joined, List.splitOn_intercalate separator each (by simp)]

theorem tailText (whole : ∀ line ∈ lines, separator ∉ line) (unended : separator ∉ rest) :
    tail separator (text separator lines rest) = rest := by
  rw [tail, pieces whole unended]
  simp

omit [DecidableEq α] in
theorem modifyFront {change : List α → List α} {place : Nat} (inside : place < lines.length) :
    (lines ++ [rest]).modify place change = lines.modify place change ++ [rest] := by
  induction lines generalizing place with
  | nil => cases inside
  | cons line lines ih =>
    cases place with
    | zero => rfl
    | succ place => simp [ih (Nat.lt_of_succ_lt_succ inside)]

/- Another line in a place changes the log in that place only. -/
theorem rewriteText (whole : ∀ line ∈ lines, separator ∉ line) (unended : separator ∉ rest) (place : Nat)
    (change : List α → List α) :
    rewrite separator place change (text separator lines rest) = text separator (lines.modify place change) rest := by
  rw [rewrite, pieces whole unended]
  by_cases inside : place < lines.length
  · rw [if_pos (by simpa using inside), modifyFront inside, joined]
  · rw [if_neg (by simpa using inside), List.modify_eq_self (by omega)]

omit [DecidableEq α] in
/- A change of what is written is the writing of a change. -/
theorem modifyWritten {β : Type} {write : β → List α} {change : List α → List α} {revise : β → β}
    (agree : ∀ item, change (write item) = write (revise item)) (items : List β) (place : Nat) :
    (items.map write).modify place change = (items.modify place revise).map write := by
  induction items generalizing place with
  | nil => simp
  | cons item items ih =>
    cases place with
    | zero => simp [agree]
    | succ place => simp [ih]

end Laws
end TornLog
