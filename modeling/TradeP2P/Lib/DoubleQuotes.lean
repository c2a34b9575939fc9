import TradeP2P.Lib.Wire

/-! Double-quoted words as the shell reads them. Between the quotes a dollar may begin an expansion, a backquote begins a
command, and a backslash takes away what the next character means, where it means something. -/
namespace DoubleQuotes
open Wire (Bytes)

def quote : UInt8 := 0x22
def dollar : UInt8 := 0x24
def backslash : UInt8 := 0x5c
def backquote : UInt8 := 0x60

def escapable (c : UInt8) : Bool := c = quote || c = dollar || c = backslash || c = backquote

/- Names, the positional and the special parameters, and what a brace, a parenthesis or a bracket opens. -/
def expands (c : UInt8) : Bool :=
  (0x30 ≤ c && c ≤ 0x39) || (0x41 ≤ c && c ≤ 0x5a) || (0x61 ≤ c && c ≤ 0x7a) || c = 0x5f ||
    [0x7b, 0x28, 0x5b, 0x40, 0x2a, 0x23, 0x3f, 0x2d, 0x24, 0x21].contains c

/- What a word stands for, read from behind its opening quote; there is no telling where it expands, or is not closed at the
end of the line. -/
def unquote : Bytes → Option Bytes
  | [] => none
  | [c] => if c = quote then some [] else none
  | c :: d :: rest =>
      if c = quote ∨ c = backquote ∨ c = dollar ∧ expands d then none
      else if c = backslash ∧ escapable d then (unquote rest).map (d :: ·)
      else (unquote (d :: rest)).map (c :: ·)

/- A text that stands for itself between quotes. -/
def plain : Bytes → Bool
  | [] => true
  | c :: rest => c ≠ quote && c ≠ backquote && !(c = dollar && expands (rest.head?.getD quote)) &&
      !(c = backslash && escapable (rest.head?.getD quote)) && plain rest

section Words
variable {text word : Bytes}

/- The closing quote is not part of the word, and an escaped character is one less. -/
theorem unquoteShorter (read : unquote text = some word) : word.length < text.length := by
  fun_induction unquote text generalizing word with
  | case1 | case3 | case4 => cases read
  | case2 =>
    cases read
    exact Nat.zero_lt_one
  | case5 | case6 =>
    rename_i ih
    obtain ⟨inner, ran, rfl⟩ := Option.map_eq_some_iff.mp read
    have shorter := ih ran
    simp only [List.length_cons] at shorter ⊢
    omega

theorem nextOf (rest : Bytes) : ∃ more, rest ++ [quote] = rest.head?.getD quote :: more := by
  cases rest with
  | nil => exact ⟨[], rfl⟩
  | cons d more => exact ⟨more ++ [quote], rfl⟩

/- Just the plain texts are read back as they were written. -/
theorem unquoteItself (text : Bytes) : unquote (text ++ [quote]) = some text ↔ plain text = true := by
  induction text with
  | nil => exact ⟨fun _ => rfl, fun _ => rfl⟩
  | cons c rest ih =>
    obtain ⟨more, next⟩ := nextOf rest
    have goesOn : (unquote (rest ++ [quote])).map (c :: ·) = some (c :: rest) ↔ plain rest = true := by
      rw [← ih]
      cases unquote (rest ++ [quote]) <;> simp
    rw [next] at goesOn
    rw [List.cons_append, next, unquote, plain]
    split
    next lost =>
      rcases lost with rfl | rfl | ⟨rfl, expanded⟩
      · simp
      · simp
      · simp [expanded]
    next kept =>
      simp only [not_or, not_and] at kept
      obtain ⟨notQuote, notBackquote, literal⟩ := kept
      split
      next escaped =>
        have shorter : (unquote more).map (rest.head?.getD quote :: ·) ≠ some (c :: rest) := by
          intro read
          obtain ⟨inner, ran, same⟩ := Option.map_eq_some_iff.mp read
          have less := unquoteShorter ran
          have lengths := congrArg List.length same
          have whole := congrArg List.length next
          simp only [List.length_append, List.length_cons, List.length_nil] at lengths whole
          omega
        exact ⟨fun read => absurd read shorter, fun itself => by simp [escaped] at itself⟩
      next unescaped =>
        rw [goesOn]
        simp only [not_and] at unescaped
        by_cases isDollar : c = dollar <;> by_cases isBackslash : c = backslash <;> simp_all

/- Without the four characters that the quotes leave their meaning a text is plain. -/
theorem plainOrdinary (ordinary : ∀ c ∈ text, escapable c = false) : plain text = true := by
  induction text with
  | nil => rfl
  | cons c rest ih =>
    have here : escapable c = false := ordinary c List.mem_cons_self
    have behind : plain rest = true := ih fun d mem => ordinary d (List.mem_cons_of_mem c mem)
    simp only [escapable, Bool.or_eq_false_iff, decide_eq_false_iff_not] at here
    simp [plain, here, behind]

theorem unquotedPlain (itself : plain text = true) : quote ∉ text := by
  induction text with
  | nil => exact List.not_mem_nil
  | cons c rest ih =>
    simp only [plain, Bool.and_eq_true, decide_eq_true_eq] at itself
    exact List.not_mem_cons_of_ne_of_not_mem (Ne.symm itself.1.1.1.1) (ih itself.2)

end Words
end DoubleQuotes
