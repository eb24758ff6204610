import Rebuild.Lexing.Token
import Rebuild.Proofs.Language.Literal
import Rebuild.Proofs.Pattern.Regular
import Rebuild.Proofs.Text.Offset

/-!
# What matchers leave of a text

Whatever a matcher recognises, what it leaves is the end of the text (`Matcher.suffix_of_rest?`). That is all
that is needed to go from texts to byte offsets: behind what a matcher recognises at a good offset there is a
good offset again, and the matcher has moved in bytes when it has moved in characters.
-/

namespace Rebuild

variable {cs rest before : List Char} {start stop : Nat}

/-! ### Ends of the text -/

/-- What a pattern leaves is the end of the text. -/
theorem Pattern.suffix_of_rest? (pattern : Pattern) (h : pattern.rest? cs = some rest) : rest <:+ cs := by
  obtain ⟨piece, -, hcs⟩ := pattern.begins_of_rest? h
  exact ⟨piece, hcs.symm⟩

namespace Matcher

theorem dropPrefix?_eq_some_iff {opening : List Char} :
    dropPrefix? opening cs = some rest ↔ cs = opening ++ rest := by
  constructor
  · intro h
    fun_induction dropPrefix? opening cs with
    | case1 cs =>
      cases h
      rfl
    | case2 => cases h
    | case3 opening c cs ih => rw [ih h, List.cons_append]
    | case4 => cases h
  · rintro rfl
    induction opening with
    | nil => rfl
    | cons c opening ih => rwa [List.cons_append, dropPrefix?, if_pos rfl]

/-- What is left behind a word does not go on with the word. -/
theorem wordRest?_eq_some_iff {word : List Char} :
    wordRest? word cs = some rest ↔ cs = word ++ rest ∧ ∀ c ∈ rest.head?, isWordChar c = false := by
  rw [← dropPrefix?_eq_some_iff, wordRest?]
  split
  case h_1 hdrop => simp [hdrop]
  case h_2 hdrop =>
    rw [hdrop, iff_self_and]
    intro heq c hc
    cases heq
    cases hc
  case h_3 c after hdrop =>
    rw [hdrop, Option.ite_none_left_eq_some, Bool.not_eq_true, and_comm, and_congr_right_iff]
    intro heq
    cases heq
    simp

/-- What a matcher leaves is the end of the text. -/
theorem suffix_of_rest? (matcher : Matcher) (h : matcher.rest? cs = some rest) : rest <:+ cs := by
  cases matcher with
  | pattern p => exact p.suffix_of_rest? h
  | keyword words =>
    obtain ⟨word, -, hword⟩ := List.exists_of_findSome?_eq_some h
    exact ⟨word, (wordRest?_eq_some_iff.1 hword).1.symm⟩
  | lineComment opening =>
    obtain ⟨-, heq⟩ := Option.ite_none_right_eq_some.1 (by rwa [rest?] at h)
    cases heq
    exact List.dropWhile_suffix _
  | stringLiteral =>
    cases cs with
    | nil => cases h
    | cons c cs =>
      obtain ⟨-, hquote⟩ := Option.ite_none_right_eq_some.1 (by rwa [rest?] at h)
      obtain ⟨inside, rfl⟩ := Language.Literal.exists_of_behindQuote? hquote
      exact ⟨c :: inside ++ ['"'], by simp⟩

/-! ### At an offset -/

/-- At a good offset a matcher goes as far as it goes on what follows the offset. -/
theorem matchAt_byteLength (matcher : Matcher) (before cs : List Char) :
    matcher.matchAt (before ++ cs) (Text.byteLength before) = (matcher.rest? cs).map fun rest ↦
      Text.byteLength before + (Text.byteLength cs - Text.byteLength rest) := by
  simp only [matchAt, Text.suffixAt_byteLength]

/-- What a matcher recognises at a good offset can be cut out of the text. -/
theorem slice?_of_matchAt {matcher : Matcher}
    (h : matcher.matchAt (before ++ cs) (Text.byteLength before) = some stop) :
    ∃ piece rest, cs = piece ++ rest ∧ matcher.rest? cs = some rest ∧
      stop = Text.byteLength before + Text.byteLength piece ∧
      Text.slice? (before ++ cs) (Text.byteLength before) stop = some piece := by
  rw [matchAt_byteLength] at h
  obtain ⟨rest, hrest, rfl⟩ := Option.map_eq_some_iff.1 h
  obtain ⟨piece, rfl⟩ := matcher.suffix_of_rest? hrest
  have hlength : Text.byteLength (piece ++ rest) - Text.byteLength rest = Text.byteLength piece := by
    rw [Text.byteLength_append, Nat.add_sub_cancel]
  rw [hlength]
  exact ⟨piece, rest, rfl, hrest, rfl, Text.slice?_eq_some_iff.2 ⟨before, rest, rfl, rfl, rfl⟩⟩

end Matcher

/-! ### Rules -/

variable {κ : Type} {rules : List (Rule κ)} {rule : Rule κ}

/-- Whether a rule recognises at least one byte at an offset. -/
def Rule.hits (rule : Rule κ) (text : List Char) (start : Nat) : Bool :=
  (rule.matcher.matchAt text start).any (start < ·)

/-- A rule recognises a byte where it recognises a character. -/
theorem Rule.hits_eq (rule : Rule κ) (before cs : List Char) :
    rule.hits (before ++ cs) (Text.byteLength before) = (rule.progress? cs).isSome := by
  rw [hits, Matcher.matchAt_byteLength, progress?]
  cases hrest : rule.matcher.rest? cs with
  | none => rfl
  | some rest =>
    have hlt := Text.byteLength_lt_iff (rule.matcher.suffix_of_rest? hrest)
    rw [Option.map_some, Option.any_some, Option.isSome_filter, Option.any_some, decide_eq_decide,
      ← hlt]
    omega

theorem progress?_eq_some_iff :
    rule.progress? cs = some rest ↔ rule.matcher.rest? cs = some rest ∧ rest.length < cs.length := by
  rw [Rule.progress?, Option.filter_eq_some_iff, decide_eq_true_iff]

/-- The first match is made by the first rule that recognises a byte. -/
theorem firstMatch_eq (rules : List (Rule κ)) (before cs : List Char) :
    firstMatch rules cs =
      (rules.find? (·.hits (before ++ cs) (Text.byteLength before))).bind fun rule ↦
        (rule.matcher.rest? cs).map fun rest ↦ (rule, rest) := by
  induction rules with
  | nil => rfl
  | cons rule rules ih =>
    rw [firstMatch, List.findSome?_cons, ← firstMatch, List.find?_cons, rule.hits_eq]
    cases hprogress : rule.progress? cs with
    | none => exact ih
    | some rest =>
      obtain ⟨hrest, -⟩ := progress?_eq_some_iff.1 hprogress
      rw [Option.isSome_some, Option.bind_some, hrest]
      rfl

theorem find?_hits_of_firstMatch (h : firstMatch rules cs = some (rule, rest)) (before : List Char) :
    rules.find? (·.hits (before ++ cs) (Text.byteLength before)) = some rule ∧
      rule.matcher.rest? cs = some rest := by
  rw [firstMatch_eq rules before cs] at h
  obtain ⟨rule', hfind, hmap⟩ := Option.bind_eq_some_iff.1 h
  obtain ⟨rest', hrest, heq⟩ := Option.map_eq_some_iff.1 hmap
  cases heq
  exact ⟨hfind, hrest⟩

theorem find?_hits_of_firstMatch_eq_none (h : firstMatch rules cs = none) (before : List Char) :
    rules.find? (·.hits (before ++ cs) (Text.byteLength before)) = none := by
  rw [firstMatch, List.findSome?_eq_none_iff] at h
  rw [List.find?_eq_none]
  intro rule hrule
  have hnone := Option.map_eq_none_iff.1 (h rule hrule)
  rw [rule.hits_eq, hnone, Option.isSome_none]
  exact Bool.false_ne_true

end Rebuild
