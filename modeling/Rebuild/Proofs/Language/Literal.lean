import Rebuild.Language.Literal
import Rebuild.Lexing.Matcher

/-!
# What a literal stands for

A quoted text is read back: the lexer finds the quote that was put behind it (`behindQuote?_escape`), and
the text between the quotes stands for the text that was quoted (`unquote_quote`). Both go through the
text one character at a time, a backslash together with the character behind it.
-/

namespace Rebuild.Language.Literal

theorem unescape_escape (value : List Char) : unescape (escape value) = value := by
  induction value with
  | nil => rfl
  | cons c value ih =>
    by_cases h : c = '"' ∨ c = '\\'
    · rw [escape, if_pos h, unescape, ih]
      rcases h with rfl | rfl <;> rfl
    · have hplain : c ≠ '\\' := fun hc ↦ h (.inr hc)
      rw [escape, if_neg h, unescape, ih]
      · exact fun hc _ ↦ hplain hc
      · exact fun _ _ hc _ ↦ hplain hc

/-- A quoted text stands for the text. -/
theorem unquote_quote (value : List Char) : unquote (quote value) = value := by
  have hinside : inside (quote value) = escape value := by
    simp [quote, inside]
  rw [unquote, hinside, unescape_escape]

/-- The first quote that is not escaped is the one behind the text. -/
theorem behindQuote?_escape (value rest : List Char) :
    Matcher.behindQuote? (escape value ++ '"' :: rest) = some rest := by
  induction value with
  | nil => rfl
  | cons c value ih =>
    by_cases h : c = '"' ∨ c = '\\'
    · rw [escape, if_pos h, List.cons_append, List.cons_append, Matcher.behindQuote?, ih]
    · obtain ⟨hquote, hplain⟩ := not_or.1 h
      rw [escape, if_neg h, List.cons_append, Matcher.behindQuote?, if_neg hquote, ih]
      · exact fun hc _ ↦ hplain hc
      · exact fun _ _ hc _ ↦ hplain hc

/-- What is behind a quote that ends a literal is behind a quote. -/
theorem exists_of_behindQuote? {cs rest : List Char} (h : Matcher.behindQuote? cs = some rest) :
    ∃ inside, cs = inside ++ '"' :: rest := by
  fun_induction Matcher.behindQuote? cs with
  | case1 | case2 => cases h
  | case3 c cs ih =>
    obtain ⟨inside, rfl⟩ := ih h
    exact ⟨'\\' :: c :: inside, rfl⟩
  | case4 cs =>
    cases h
    exact ⟨[], rfl⟩
  | case5 c cs _ _ _ ih =>
    obtain ⟨inside, rfl⟩ := ih h
    exact ⟨c :: inside, rfl⟩

end Rebuild.Language.Literal
