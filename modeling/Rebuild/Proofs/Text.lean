import Rebuild.Text.Basic

/-!
# Parts of a text

`Text.split` is the library's `List.splitOnP`, and a separator in the middle of a text separates what it
falls into on both sides.
-/

namespace Rebuild.Text

theorem split_eq_splitOnP (separates : Char → Bool) (cs : List Char) :
    split separates cs = cs.splitOnP separates := by
  induction cs with
  | nil => rfl
  | cons c cs ih => rw [split, List.splitOnP_cons_eq_if_modifyHead, ih]

theorem split_append_cons (separates : Char → Bool) {c : Char} (h : separates c = true)
    (before behind : List Char) :
    split separates (before ++ c :: behind) = split separates before ++ split separates behind := by
  rw [split_eq_splitOnP, split_eq_splitOnP, split_eq_splitOnP, List.splitOnP_append_cons _ _ h]

theorem split_of_not_mem {separator : Char} {cs : List Char} (h : separator ∉ cs) :
    split (· == separator) cs = [cs] := by
  rw [split_eq_splitOnP]
  refine List.splitOnP_eq_singleton fun c hc ↦ ?_
  rw [beq_eq_false_iff_ne]
  rintro rfl
  exact h hc

/-- Parts that hold no separator are told apart when each is ended by one. -/
theorem split_ended {separator : Char} {parts : List (List Char)} (h : ∀ part ∈ parts, separator ∉ part) :
    split (· == separator) (parts.flatMap (· ++ [separator])) = parts ++ [[]] := by
  induction parts with
  | nil => rfl
  | cons part parts ih =>
    have hpart := split_of_not_mem (h part List.mem_cons_self)
    rw [List.flatMap_cons, List.append_assoc, List.singleton_append, split_append_cons (· == separator) (by simp),
      hpart, ih fun part hmem ↦ h part (List.mem_cons_of_mem _ hmem)]
    rfl

/-- So they are the lines of the text, unless a carriage return at the end of one is dropped. -/
theorem lines_ended {parts : List (List Char)} (h : ∀ part ∈ parts, '\n' ∉ part)
    (hreturn : ∀ part ∈ parts, part.getLast? ≠ some '\r') :
    lines (parts.flatMap (· ++ ['\n'])) = parts := by
  rw [lines, split_ended h]
  clear h
  induction parts with
  | nil => rfl
  | cons part parts ih =>
    obtain ⟨hfirst, hrest⟩ := List.forall_mem_cons.1 hreturn
    obtain ⟨next, others, hnext⟩ := List.exists_cons_of_ne_nil (List.append_ne_nil_of_right_ne_nil parts
      (List.cons_ne_nil ([] : List Char) []))
    have hkept : dropReturn part = part := if_neg hfirst
    rw [List.cons_append, hnext, lines.ended, ← hnext, ih hrest, hkept]

end Rebuild.Text
