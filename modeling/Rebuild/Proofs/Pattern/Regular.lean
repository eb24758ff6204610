import Mathlib.Computability.RegularExpressions
import Rebuild.Pattern.Basic

/-!
# The regular language of a pattern

A pattern without its order of choices and without its greed is a regular expression (`Pattern.regular`).
Whatever a pattern recognises belongs to the language of that expression
(`Pattern.begins_of_rest?`). The converse does not hold: a pattern that has taken a branch, or has repeated its
body, never comes back to try otherwise.
-/

namespace Rebuild.Pattern

open Computability

variable {c least greatest : Char}

/-! ### The expression -/

/-- The characters from one to another, both of them included. -/
def charsBetween (least greatest : Char) : List Char :=
  ((List.range (greatest.toNat + 1)).map Char.ofNat).filter fun c ↦ least ≤ c ∧ c ≤ greatest

theorem mem_charsBetween : c ∈ charsBetween least greatest ↔ least ≤ c ∧ c ≤ greatest := by
  rw [charsBetween, List.mem_filter, decide_eq_true_iff, and_iff_right_iff_imp]
  rintro ⟨-, hle⟩
  have hlt : c.toNat < greatest.toNat + 1 := Nat.lt_succ_of_le hle
  exact List.mem_map.2 ⟨c.toNat, List.mem_range.2 hlt, Char.ofNat_toNat c⟩

mutual

/-- The regular expression of a pattern. -/
def regular : Pattern → RegularExpression Char
  | .char c => .char c
  | .range least greatest => ((charsBetween least greatest).map .char).sum
  | .choice branches => anyRegular branches
  | .sequence parts => allRegular parts
  | .many body => body.regular.star
  | .optional body => 1 + body.regular

/-- Any of the branches. -/
def anyRegular : List Pattern → RegularExpression Char
  | [] => 0
  | branch :: branches => branch.regular + anyRegular branches

/-- All of the parts. -/
def allRegular : List Pattern → RegularExpression Char
  | [] => 1
  | part :: parts => part.regular * allRegular parts

end

theorem singleton_mem_sum {cs : List Char} (h : c ∈ cs) :
    [c] ∈ ((cs.map RegularExpression.char).sum).matches' := by
  induction cs with
  | nil => cases h
  | cons c' cs ih =>
    rw [List.map_cons, List.sum_cons, RegularExpression.matches'_add, Language.mem_add]
    rcases List.mem_cons.1 h with rfl | h
    · exact .inl rfl
    · exact .inr (ih h)

/-! ### What is recognised -/

/-- A text begins with a piece that belongs to a language, and the rest is left. -/
def Begins (language : Language Char) (cs rest : List Char) : Prop :=
  ∃ piece ∈ language, cs = piece ++ rest

theorem begins_exhaust {language : Language Char} {step : List Char → Option (List Char)}
    (h : ∀ cs rest, step cs = some rest → Begins language cs rest) (cs : List Char) :
    Begins language∗ cs (exhaust step cs) := by
  fun_induction exhaust step cs with
  | case1 cs => exact ⟨[], Language.nil_mem_kstar _, rfl⟩
  | case2 cs rest hrest _ ih =>
    obtain ⟨piece, hpiece, hcs⟩ := h cs rest hrest
    obtain ⟨later, hlater, heq⟩ := ih
    obtain ⟨pieces, rfl, hpieces⟩ := Language.mem_kstar.1 hlater
    refine ⟨(piece :: pieces).flatten, Language.join_mem_kstar ?_, ?_⟩
    · exact List.forall_mem_cons.2 ⟨hpiece, hpieces⟩
    · rw [List.flatten_cons, List.append_assoc, ← heq, hcs]
  | case3 => exact ⟨[], Language.nil_mem_kstar _, rfl⟩

mutual

/-- What a pattern recognises belongs to its language. -/
theorem begins_of_rest? (p : Pattern) {cs rest : List Char} (h : p.rest? cs = some rest) :
    Begins p.regular.matches' cs rest := by
  match p with
  | .char expected =>
    cases cs with
    | nil => cases h
    | cons c cs =>
      rw [rest?, Option.ite_none_right_eq_some, Option.some.injEq] at h
      obtain ⟨rfl, rfl⟩ := h
      exact ⟨[c], rfl, rfl⟩
  | .range least greatest =>
    cases cs with
    | nil => cases h
    | cons c cs =>
      rw [rest?, Option.ite_none_right_eq_some, Option.some.injEq] at h
      obtain ⟨hfits, rfl⟩ := h
      exact ⟨[c], singleton_mem_sum (mem_charsBetween.2 hfits), rfl⟩
  | .choice branches => exact begins_of_firstRest? branches (by rwa [rest?] at h)
  | .sequence parts => exact begins_of_throughRest? parts (by rwa [rest?] at h)
  | .many body =>
    rw [rest?, Option.some.injEq] at h
    rw [regular, RegularExpression.matches'_star, ← h]
    exact begins_exhaust (fun _ _ hbody ↦ begins_of_rest? body hbody) cs
  | .optional body =>
    rw [rest?, Option.some.injEq] at h
    rw [regular, RegularExpression.matches'_add]
    cases hbody : body.rest? cs with
    | none =>
      rw [hbody] at h
      exact ⟨[], .inl rfl, h⟩
    | some rest' =>
      rw [hbody] at h
      obtain ⟨piece, hpiece, hcs⟩ := begins_of_rest? body hbody
      exact ⟨piece, .inr hpiece, h ▸ hcs⟩

theorem begins_of_firstRest? (branches : List Pattern) {cs rest : List Char}
    (h : firstRest? branches cs = some rest) : Begins (anyRegular branches).matches' cs rest := by
  match branches with
  | [] => cases h
  | branch :: branches =>
    rw [anyRegular, RegularExpression.matches'_add]
    rw [firstRest?] at h
    split at h
    case h_1 hbranch =>
      cases h
      obtain ⟨piece, hpiece, hcs⟩ := begins_of_rest? branch hbranch
      exact ⟨piece, .inl hpiece, hcs⟩
    case h_2 =>
      obtain ⟨piece, hpiece, hcs⟩ := begins_of_firstRest? branches h
      exact ⟨piece, .inr hpiece, hcs⟩

theorem begins_of_throughRest? (parts : List Pattern) {cs rest : List Char}
    (h : throughRest? parts cs = some rest) : Begins (allRegular parts).matches' cs rest := by
  match parts with
  | [] =>
    cases h
    exact ⟨[], rfl, rfl⟩
  | part :: parts =>
    rw [throughRest?] at h
    split at h
    case h_1 hpart =>
      obtain ⟨piece, hpiece, rfl⟩ := begins_of_rest? part hpart
      obtain ⟨later, hlater, rfl⟩ := begins_of_throughRest? parts h
      rw [allRegular, RegularExpression.matches'_mul]
      exact ⟨piece ++ later, Language.mem_mul.2 ⟨piece, hpiece, later, hlater, rfl⟩,
        (List.append_assoc _ _ _).symm⟩
    case h_2 => cases h

end

end Rebuild.Pattern
