import Rebuild.Pattern.Basic

/-!
# Patterns for one character

Most patterns are put together from patterns for one character. Such a pattern is a test (`Takes`), a choice
between such patterns is the disjunction of their tests, and its repetition takes characters for as long as
the test holds.
-/

namespace Rebuild.Pattern

/-- The pattern recognises one character that passes the test, and nothing else. -/
structure Takes (pattern : Pattern) (test : Char → Bool) : Prop where
  /-- There has to be a character. -/
  nil : pattern.rest? [] = none
  /-- The character has to pass the test. -/
  cons (c : Char) (cs : List Char) : pattern.rest? (c :: cs) = if test c then some cs else none

variable {pattern : Pattern} {patterns : List Pattern} {test others : Char → Bool}

theorem takes_char (expected : Char) : Takes (.char expected) (· == expected) where
  nil := rfl
  cons c cs := by simp [rest?]

theorem takes_range (least greatest : Char) :
    Takes (.range least greatest) fun c ↦ decide (least ≤ c) && decide (c ≤ greatest) where
  nil := rfl
  cons c cs := by simp [rest?]

theorem takes_choice_nil : Takes (.choice []) fun _ ↦ false where
  nil := rfl
  cons c cs := by simp [rest?, firstRest?]

theorem Takes.choice_cons (hfirst : Takes pattern test) (hrest : Takes (.choice patterns) others) :
    Takes (.choice (pattern :: patterns)) fun c ↦ test c || others c where
  nil := by
    have hnil := hrest.nil
    rw [rest?] at hnil
    rw [rest?, firstRest?, hfirst.nil, hnil]
  cons c cs := by
    have hcons := hrest.cons c cs
    rw [rest?] at hcons
    rw [rest?, firstRest?, hfirst.cons, hcons]
    cases test c <;> simp

theorem Takes.congr (h : Takes pattern test) (heq : ∀ c, test c = others c) : Takes pattern others :=
  (funext heq : test = others) ▸ h

/-- Repetition takes as many characters as pass the test. -/
theorem Takes.rest?_many (h : Takes pattern test) (cs : List Char) :
    (Pattern.many pattern).rest? cs = some (cs.dropWhile test) := by
  rw [rest?]
  congr 1
  induction cs with
  | nil => rw [exhaust, h.nil, List.dropWhile_nil]
  | cons c cs ih =>
    rw [exhaust, h.cons, List.dropWhile_cons]
    cases test c with
    | true => simpa using ih
    | false => rfl

/-! ### Common classes -/

theorem takes_letter : Takes letter Char.isAlpha :=
  ((takes_range 'a' 'z').choice_cons ((takes_range 'A' 'Z').choice_cons takes_choice_nil)).congr
    fun c ↦ by
      have hupper : c.isUpper = (decide ('A' ≤ c) && decide (c ≤ 'Z')) := Bool.decide_and _ _
      rw [Bool.or_false, Bool.or_comm, ← hupper]
      rfl

theorem takes_digit : Takes digit Char.isDigit :=
  (takes_range '0' '9').congr fun _ ↦ rfl

end Rebuild.Pattern
