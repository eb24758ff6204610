import Mathlib.Data.List.TakeWhile
import Rebuild.Assignments
import Rebuild.Proofs.Text

/-!
# Words of a text

Cutting a text at separators and its parts at others is cutting it at both at once (`flatMap_split`), and blanks at
the ends of a text belong to none of its words (`words_trim`). So the words of the values in a joined text are the
pieces of that text between separators and blanks (`flatMap_wordsOf_valuesIn`), however the values were assigned.
-/

namespace Rebuild.Text

variable {cs blanks behind : List Char}

/-! ### Cutting twice -/

theorem split_ne_nil (separates : Char → Bool) (cs : List Char) : split separates cs ≠ [] := by
  rw [split_eq_splitOnP]
  exact List.splitOnP_ne_nil _ _

/-- Cutting a text and then its parts is cutting it at all separators at once. -/
theorem flatMap_split (separates also : Char → Bool) (cs : List Char) :
    (split separates cs).flatMap (split also) = split (fun c ↦ separates c || also c) cs := by
  induction cs with
  | nil => rfl
  | cons c cs ih =>
    obtain ⟨first, others, hparts⟩ := List.exists_cons_of_ne_nil (split_ne_nil separates cs)
    obtain ⟨piece, pieces, hpieces⟩ := List.exists_cons_of_ne_nil (split_ne_nil also first)
    rw [hparts, List.flatMap_cons] at ih
    -- a character is put in front of the first piece of the first part, or separates it from something
    rw [split, split, hparts, ← ih]
    cases separates c with
    | true => rfl
    | false =>
      rw [if_neg Bool.false_ne_true, List.modifyHead_cons, List.flatMap_cons, split, hpieces]
      cases also c <;> rfl

/-! ### Blanks at the ends -/

theorem words_append_cons {c : Char} (hc : isBlank c = true) (cs behind : List Char) :
    words (cs ++ c :: behind) = words cs ++ words behind := by
  rw [words, words, words, split_append_cons isBlank hc, List.filter_append]

theorem words_blanks_append (hblanks : ∀ c ∈ blanks, isBlank c = true) (cs : List Char) :
    words (blanks ++ cs) = words cs := by
  induction blanks with
  | nil => rfl
  | cons c blanks ih =>
    obtain ⟨hc, hrest⟩ := List.forall_mem_cons.1 hblanks
    exact (words_append_cons hc [] (blanks ++ cs)).trans (ih hrest)

theorem words_append_blanks (hblanks : ∀ c ∈ blanks, isBlank c = true) (cs : List Char) :
    words (cs ++ blanks) = words cs := by
  rcases blanks with - | ⟨c, blanks⟩
  · rw [List.append_nil]
  · obtain ⟨hc, hrest⟩ := List.forall_mem_cons.1 hblanks
    have hnone := words_blanks_append hrest []
    rw [List.append_nil] at hnone
    rw [words_append_cons hc, hnone]
    exact List.append_nil _

theorem words_trim (cs : List Char) : words (trim cs) = words cs := by
  let rest := cs.dropWhile isBlank
  have hrest : trim cs ++ (rest.reverse.takeWhile isBlank).reverse = rest := by
    rw [trim, ← List.reverse_append, List.takeWhile_append_dropWhile, List.reverse_reverse]
  calc words (trim cs)
      = words (trim cs ++ (rest.reverse.takeWhile isBlank).reverse) :=
        (words_append_blanks (fun _ hc ↦ List.mem_takeWhile_imp (List.mem_reverse.1 hc)) _).symm
    _ = words (cs.takeWhile isBlank ++ rest) := by
        rw [hrest, words_blanks_append fun _ ↦ List.mem_takeWhile_imp]
    _ = words cs := by rw [List.takeWhile_append_dropWhile]

/-! ### Pieces -/

/-- The pieces of a text between separators of values and blanks, without empty ones. -/
def piecesOf (s : String) : List String :=
  ((split (fun c ↦ c == valueSeparator || isBlank c) s.toList).filter (!·.isEmpty)).map String.ofList

/-- The words of parts without the blanks around them are the words of the parts. -/
theorem flatMap_wordsOf_filterMap (parts : List (List Char)) :
    ((parts.map trim).filterMap fun part ↦
      if part.isEmpty then none else some (String.ofList part)).flatMap wordsOf =
      (parts.flatMap words).map String.ofList := by
  induction parts with
  | nil => rfl
  | cons part parts ih =>
    -- a part of blanks has no words, so that nothing is lost where it is left out
    have hwords := words_trim part
    rw [List.map_cons, List.flatMap_cons, List.map_append, ← ih, ← hwords]
    rcases htrim : trim part with - | ⟨c, cs⟩
    · rfl
    · show wordsOf (String.ofList (c :: cs)) ++ _ = _
      rw [wordsOf, String.toList_ofList]
      rfl

/-- The words of the values in a text are its pieces. -/
theorem flatMap_wordsOf_valuesIn (s : String) : (Assignments.valuesIn s).flatMap wordsOf = piecesOf s := by
  have hwords (parts : List (List Char)) :
      parts.flatMap words = (parts.flatMap (split isBlank)).filter (!·.isEmpty) := by
    rw [List.filter_flatMap]
    rfl
  rw [Assignments.valuesIn, flatMap_wordsOf_filterMap, hwords, flatMap_split, piecesOf]

end Rebuild.Text
