import Rebuild.Proofs.Language.Grammar
import Rebuild.Proofs.Language.Scan

/-!
# Writing a configuration

A configuration can be written in many ways: its words have an order, but between them may stand blanks, line
ends and comments (`Gap`), and something has to stand there only where two words would run together
(`Spelled`). Reading does not see the difference: the words of a text are those that were spelled
(`Spelled.wordsIn_append`), and the words of statements derive these statements
(`Statement.derives_of_words`).
-/

namespace Rebuild.Language

open Statement (allNearestElse)

/-! ### The words of statements -/

mutual

/-- The words that say a statement. -/
def Statement.words : Statement → List Word
  | .assign name value =>
    [(.name, name.toList), (.symbol, ['=']), (.string, Literal.quote value.toList)]
  | .conditional condition thenBranch none =>
    (.keyword, ifWord) :: (.name, condition.toList) :: thenBranch.words
  | .conditional condition thenBranch (some elseBranch) =>
    (.keyword, ifWord) :: (.name, condition.toList) ::
      (thenBranch.words ++ (.keyword, elseWord) :: elseBranch.words)
  | .block statements => (.symbol, ['{']) :: (allWords statements ++ [(.symbol, ['}'])])

/-- The words that say statements, one statement after the other. -/
def allWords : List Statement → List Word
  | [] => []
  | statement :: rest => statement.words ++ allWords rest

end

mutual

/-- Whether all names and conditions of a statement are identifiers that are no keywords. -/
def Statement.named : Statement → Bool
  | .assign name _ => isName name.toList
  | .conditional condition thenBranch none => isName condition.toList && thenBranch.named
  | .conditional condition thenBranch (some elseBranch) =>
    isName condition.toList && thenBranch.named && elseBranch.named
  | .block statements => allNamed statements

/-- Whether that holds of all statements. -/
def allNamed : List Statement → Bool
  | [] => true
  | statement :: rest => statement.named && allNamed rest

end

theorem proper_if : Proper (.keyword, ifWord) := .head _

theorem proper_else : Proper (.keyword, elseWord) := .tail _ (.head _)

mutual

theorem Statement.proper_of_named : ∀ statement : Statement, statement.named = true →
    ∀ word ∈ statement.words, Proper word
  | .assign name value => fun hnamed word hword ↦ by
    simp only [Statement.words, List.mem_cons, List.not_mem_nil, or_false] at hword
    rcases hword with rfl | rfl | rfl
    · exact hnamed
    · exact .tail _ (.tail _ (.head _))
    · exact ⟨_, rfl⟩
  | .conditional condition thenBranch none => fun hnamed word hword ↦ by
    simp only [Statement.named, Bool.and_eq_true] at hnamed
    simp only [Statement.words, List.mem_cons] at hword
    rcases hword with rfl | rfl | hword
    · exact proper_if
    · exact hnamed.1
    · exact thenBranch.proper_of_named hnamed.2 word hword
  | .conditional condition thenBranch (some elseBranch) => fun hnamed word hword ↦ by
    simp only [Statement.named, Bool.and_eq_true] at hnamed
    simp only [Statement.words, List.mem_cons, List.mem_append] at hword
    rcases hword with rfl | rfl | hword | rfl | hword
    · exact proper_if
    · exact hnamed.1.1
    · exact thenBranch.proper_of_named hnamed.1.2 word hword
    · exact proper_else
    · exact elseBranch.proper_of_named hnamed.2 word hword
  | .block statements => fun hnamed word hword ↦ by
    simp only [Statement.words, List.mem_cons, List.mem_append, List.not_mem_nil, or_false] at hword
    rcases hword with rfl | hword | rfl
    · exact .head _
    · exact allProper_of_allNamed statements hnamed word hword
    · exact .tail _ (.head _)

theorem allProper_of_allNamed : ∀ statements : List Statement, allNamed statements = true →
    ∀ word ∈ allWords statements, Proper word
  | [] => fun _ _ hword ↦ by cases hword
  | statement :: rest => fun hnamed word hword ↦ by
    simp only [allNamed, Bool.and_eq_true] at hnamed
    rcases List.mem_append.1 hword with hword | hword
    · exact statement.proper_of_named hnamed.1 word hword
    · exact allProper_of_allNamed rest hnamed.2 word hword

end

/-! ### Words in a text -/

/-- What can stand between words: blanks, line ends, and comments that are ended by a line end. -/
inductive Gap : List Char → Prop
  /-- Nothing. -/
  | nil : Gap []
  /-- A blank or line end, and more of the same. -/
  | blank {c : Char} {gap : List Char} (hblank : Text.isBlank c = true) (hgap : Gap gap) :
    Gap (c :: gap)
  /-- A comment and its line end, and more of the same. -/
  | comment {text gap : List Char} (htext : '\n' ∉ text) (hgap : Gap gap) :
    Gap ('#' :: (text ++ '\n' :: gap))

/-- A text is made of words with gaps behind them. Two words of letters do not touch. -/
inductive Spelled : List Word → List Char → Prop
  /-- No words make no text. -/
  | nil : Spelled [] []
  /-- The last word has any gap behind it. -/
  | last {word : Word} {gap : List Char} (hgap : Gap gap) : Spelled [word] (word.2 ++ gap)
  /-- A word before another one has a gap behind it, which may be empty next to a symbol or literal. -/
  | cons {first second : Word} {words : List Word} {gap rest : List Char} (hgap : Gap gap)
    (hapart : isAlphabetic first = true → isAlphabetic second = true → gap ≠ [])
    (hrest : Spelled (second :: words) rest) :
    Spelled (first :: second :: words) (first.2 ++ (gap ++ rest))

theorem isWordChar_of_isBlank {c : Char} (h : Text.isBlank c = true) :
    Matcher.isWordChar c = false := by
  refine Bool.eq_false_iff.2 fun hword ↦ ?_
  have hnat : c.toNat = c.val.toNat := rfl
  have halphanum : c.isAlphanum = (decide (65 ≤ c.val ∧ c.val ≤ 90) ||
      decide (97 ≤ c.val) && decide (c.val ≤ 122) || decide (48 ≤ c.val) && decide (c.val ≤ 57)) := rfl
  simp only [Matcher.isWordChar, Bool.or_eq_true, beq_iff_eq] at hword
  rcases hword with hword | rfl
  · rw [halphanum] at hword
    simp [UInt32.le_iff_toNat_le, ← hnat] at hword
    simp [Text.isBlank] at h
    omega
  · exact absurd h (by decide)

/-- A blank begins no piece. -/
theorem nextPiece?_blank {c : Char} (h : Text.isBlank c = true) (cs : List Char) :
    nextPiece? (c :: cs) = none := by
  have hstart : ¬ isNameStart c = true := fun hstart ↦
    Bool.eq_false_iff.1 (isWordChar_of_isBlank h) (isWordChar_of_isNameStart hstart)
  have hother : c ∉ ['{', '}', '=', '#', '"'] := fun hother ↦ by
    simp only [List.mem_cons, List.not_mem_nil, or_false] at hother
    rcases hother with rfl | rfl | rfl | rfl | rfl <;> exact absurd h (by decide)
  simp only [List.mem_cons, List.not_mem_nil, or_false, not_or] at hother
  simp [nextPiece?, hstart, hother]

/-- A gap holds no words. -/
theorem Gap.wordsIn_append {gap : List Char} (h : Gap gap) (rest : List Char) :
    wordsIn (gap ++ rest) = wordsIn rest := by
  induction h with
  | nil => rfl
  | blank hblank hgap ih => rw [List.cons_append, wordsIn_cons (nextPiece?_blank hblank _), ih]
  | @comment text gap htext hgap ih =>
    have hdrop : (text ++ '\n' :: (gap ++ rest)).dropWhile (· ≠ '\n') = '\n' :: (gap ++ rest) := by
      have hkept : ∀ c ∈ text, decide (c ≠ '\n') = true := fun c hc ↦
        decide_eq_true fun heq ↦ htext (heq ▸ hc)
      rw [List.dropWhile_append_of_pos hkept]
      rfl
    have hnext : nextPiece? (('#' :: text) ++ '\n' :: (gap ++ rest)) =
        some (.comment, '\n' :: (gap ++ rest)) :=
      congrArg (fun behind ↦ some (TokenKind.comment, behind)) hdrop
    have hnewline := nextPiece?_blank (show Text.isBlank '\n' = true by decide) (gap ++ rest)
    rw [List.cons_append, List.append_assoc, List.cons_append, ← List.cons_append,
      wordsIn_of_nextPiece? hnext, if_pos rfl, wordsIn_cons hnewline, ih]

theorem Gap.continues_append {gap : List Char} (h : Gap gap) (hgap : gap ≠ []) (rest : List Char) :
    continues (gap ++ rest) = false := by
  cases h with
  | nil => exact absurd rfl hgap
  | blank hblank _ => exact isWordChar_of_isBlank hblank
  | comment _ _ => rfl

/-- The first character of a word continues another word only if the word is made of such characters. -/
theorem Proper.continues_append {word : Word} (h : Proper word) (rest : List Char)
    (hother : isAlphabetic word = false) : continues (word.2 ++ rest) = false := by
  obtain ⟨kind, text⟩ := word
  cases kind with
  | keyword | name => cases hother
  | symbol =>
    have hmem : text ∈ [['{'], ['}'], ['=']] := h
    simp only [List.mem_cons, List.not_mem_nil, or_false] at hmem
    rcases hmem with rfl | rfl | rfl <;> rfl
  | comment => cases h
  | string =>
    obtain ⟨value, rfl⟩ := h
    rfl

theorem Spelled.exists_append {word : Word} {words : List Word} {text : List Char}
    (h : Spelled (word :: words) text) : ∃ rest, text = word.2 ++ rest := by
  cases h with
  | last _ => exact ⟨_, rfl⟩
  | cons _ _ _ => exact ⟨_, rfl⟩

/-- The words of a text are the words that it is made of. -/
theorem Spelled.wordsIn_eq {words : List Word} {text : List Char} (h : Spelled words text)
    (hproper : ∀ word ∈ words, Proper word) : wordsIn text = words := by
  induction h with
  | nil => exact wordsIn_nil
  | @last word gap hgap =>
    have hbehind : continues gap = false := by
      by_cases hempty : gap = []
      · rw [hempty]
        rfl
      · simpa using hgap.continues_append hempty []
    have hgap := hgap.wordsIn_append []
    rw [List.append_nil, wordsIn_nil] at hgap
    rw [wordsIn_append (hproper word (.head _)) fun _ ↦ hbehind, hgap]
  | @cons first second words gap rest hgap hapart hrest ih =>
    obtain ⟨behind, hbehind⟩ := hrest.exists_append
    have hsecond := hproper second (.tail _ (.head _))
    have hbehind : isAlphabetic first = true → continues (gap ++ rest) = false := fun hfirst ↦ by
      by_cases hempty : gap = []
      · -- nothing separates the two, so the second is no word of letters
        have hother := Bool.eq_false_iff.2 fun h ↦ hapart hfirst h hempty
        rw [hempty, List.nil_append, hbehind]
        exact hsecond.continues_append behind hother
      · exact hgap.continues_append hempty rest
    rw [wordsIn_append (hproper first (.head _)) hbehind, hgap.wordsIn_append,
      ih fun word hword ↦ hproper word (.tail _ hword)]

/-! ### Words and statements -/

theorem isText_of_word {token : Token TokenKind} {kind : TokenKind} {text : List Char}
    (h : token.word = (kind, text)) : token.isText kind text = true :=
  Token.isText_iff.2 (Prod.mk.inj h)

theorem isSymbol_of_word {token : Token TokenKind} {c : Char}
    (h : token.word = (.symbol, [c])) : isSymbol c token = true :=
  isText_of_word h

mutual

/-- Words that say a statement derive it. -/
theorem Statement.derives_of_words : ∀ (statement : Statement) (words : Words),
    words.map Token.word = statement.words → Derives words statement
  | .assign name value, words, hwords => by
    obtain ⟨first, behind, rfl, hname, hwords⟩ := List.map_eq_cons_iff.1 hwords
    obtain ⟨second, behind, rfl, hsign, hwords⟩ := List.map_eq_cons_iff.1 hwords
    obtain ⟨third, behind, rfl, hvalue, hwords⟩ := List.map_eq_cons_iff.1 hwords
    obtain rfl := List.map_eq_nil_iff.1 hwords
    obtain ⟨hname, hnameText⟩ := Prod.mk.inj hname
    obtain ⟨hvalue, hvalueText⟩ := Prod.mk.inj hvalue
    have hderives := Derives.assign hname (isSymbol_of_word hsign) hvalue
    rwa [hnameText, hvalueText, Literal.unquote_quote, String.ofList_toList, String.ofList_toList]
      at hderives
  | .conditional condition thenBranch none, words, hwords => by
    obtain ⟨first, behind, rfl, hif, hwords⟩ := List.map_eq_cons_iff.1 hwords
    obtain ⟨second, behind, rfl, hcondition, hwords⟩ := List.map_eq_cons_iff.1 hwords
    obtain ⟨hcondition, htext⟩ := Prod.mk.inj hcondition
    have hderives := Derives.conditional (isText_of_word hif) hcondition
      (thenBranch.derives_of_words _ hwords)
    rwa [htext, String.ofList_toList] at hderives
  | .conditional condition thenBranch (some elseBranch), words, hwords => by
    obtain ⟨first, behind, rfl, hif, hwords⟩ := List.map_eq_cons_iff.1 hwords
    obtain ⟨second, behind, rfl, hcondition, hwords⟩ := List.map_eq_cons_iff.1 hwords
    obtain ⟨used, behind, rfl, hthen, hwords⟩ := List.map_eq_append_iff.1 hwords
    obtain ⟨otherwise, behind, rfl, helse, hwords⟩ := List.map_eq_cons_iff.1 hwords
    obtain ⟨hcondition, htext⟩ := Prod.mk.inj hcondition
    have hderives := Derives.alternative (isText_of_word hif) hcondition
      (thenBranch.derives_of_words _ hthen) (isText_of_word helse)
      (elseBranch.derives_of_words _ hwords)
    rwa [htext, String.ofList_toList] at hderives
  | .block statements, words, hwords => by
    obtain ⟨opening, behind, rfl, hopening, hwords⟩ := List.map_eq_cons_iff.1 hwords
    obtain ⟨items, behind, rfl, hitems, hwords⟩ := List.map_eq_append_iff.1 hwords
    obtain ⟨closing, behind, rfl, hclosing, hwords⟩ := List.map_eq_cons_iff.1 hwords
    obtain rfl := List.map_eq_nil_iff.1 hwords
    exact .block (isSymbol_of_word hopening) (derivesAll_of_allWords statements _ hitems)
      (isSymbol_of_word hclosing)

theorem derivesAll_of_allWords : ∀ (statements : List Statement) (words : Words),
    words.map Token.word = allWords statements → DerivesAll words statements
  | [], words, hwords => by
    obtain rfl := List.map_eq_nil_iff.1 hwords
    exact .nil
  | statement :: rest, words, hwords => by
    obtain ⟨used, behind, rfl, hused, hbehind⟩ := List.map_eq_append_iff.1 hwords
    exact .cons (statement.derives_of_words _ hused) (derivesAll_of_allWords rest _ hbehind)

end

mutual

/-- A statement that is derived from proper names has proper names. -/
theorem Derives.named {words : Words} {statement : Statement} : Derives words statement →
    (∀ token ∈ words, token.kind = .name → isName token.text = true) → statement.named = true
  | .assign hname _ _, hproper => by
    simpa [Statement.named] using hproper _ (.head _) hname
  | .conditional _ hcondition hthen, hproper => by
    have hname := hproper _ (.tail _ (.head _)) hcondition
    have hnamed := hthen.named fun token htoken ↦ hproper token (.tail _ (.tail _ htoken))
    simp [Statement.named, hname, hnamed]
  | .alternative _ hcondition hthen _ helse, hproper => by
    have hname := hproper _ (.tail _ (.head _)) hcondition
    have hnamed := hthen.named fun token htoken ↦
      hproper token (.tail _ (.tail _ (List.mem_append_left _ htoken)))
    have hnamed' := helse.named fun token htoken ↦
      hproper token (.tail _ (.tail _ (List.mem_append_right _ (.tail _ htoken))))
    simp [Statement.named, hname, hnamed, hnamed']
  | .block _ hitems _, hproper =>
    hitems.allNamed fun token htoken ↦ hproper token (.tail _ (List.mem_append_left _ htoken))

theorem DerivesAll.allNamed {words : Words} {statements : List Statement} :
    DerivesAll words statements →
      (∀ token ∈ words, token.kind = .name → isName token.text = true) → allNamed statements = true
  | .nil, _ => rfl
  | .cons hfirst hrest, hproper => by
    have hnamed := hfirst.named fun token htoken ↦ hproper token (List.mem_append_left _ htoken)
    have hnamed' := hrest.allNamed fun token htoken ↦ hproper token (List.mem_append_right _ htoken)
    simp [Language.allNamed, hnamed, hnamed']

end

/-! ### Configurations -/

theorem isName_of_mem_lex {cs : List Char} : ∀ token ∈ lex cs, token.kind = .name →
    isName token.text = true := fun token htoken hkind ↦
  isName_of_mem_wordsIn cs (List.mem_map.2 ⟨token, htoken, by rw [Token.word, hkind]⟩)

/-- A configuration whose names are names and whose elses are with the nearest `if`, written in any way, is
read back; and these are all configurations that can be read. -/
theorem ofString_spelled :
    (∀ statements lead text, allNamed statements = true → allNearestElse statements = true →
      Gap lead → Spelled (allWords statements) text →
      Statement.ofString (String.ofList (lead ++ text)) = .ok (.block statements)) ∧
    ∀ s tree, Statement.ofString s = .ok tree → ∃ statements, tree = .block statements ∧
      allNamed statements = true ∧ allNearestElse statements = true := by
  refine ⟨fun statements lead text hnamed hnearest hlead htext ↦ ?_, fun s tree htree ↦ ?_⟩
  · have hwords : wordsIn (lead ++ text) = allWords statements := by
      rw [hlead.wordsIn_append, htext.wordsIn_eq (allProper_of_allNamed statements hnamed)]
    have hread := readAll_eq_ok_iff.2 ⟨derivesAll_of_allWords statements _ hwords, hnearest⟩
    rw [Statement.ofString, String.toList_ofList, Statement.ofTokens, hread]
    rfl
  · obtain ⟨statements, hread, rfl⟩ := exists_of_map_eq_ok htree
    obtain ⟨hderives, hnearest⟩ := readAll_eq_ok_iff.1 hread
    exact ⟨statements, rfl, hderives.allNamed isName_of_mem_lex, hnearest⟩

/-- A comment before the words, gaps only where two words would touch, and a value with a separator, a quote
and a backslash in it. -/
theorem ofString_spelled_of_escapes :
    Statement.ofString "# c\nif windows\x7blib=\"a;\\\"b\\\\\"\x7delse lib=\"\"" =
      .ok (.block [.conditional "windows" (.block [.assign "lib" "a;\"b\\"])
        (some (.assign "lib" ""))]) := by
  have hlead : Gap ('#' :: ([' ', 'c'] ++ ['\n'])) := .comment (by decide) .nil
  have hblank : Gap [' '] := .blank (by decide) .nil
  obtain ⟨text, htext, hspelled⟩ :
      ∃ text, text = "if windows\x7blib=\"a;\\\"b\\\\\"\x7delse lib=\"\"".toList ∧
        Spelled [(.keyword, ifWord), (.name, "windows".toList), (.symbol, ['{']),
          (.name, "lib".toList), (.symbol, ['=']), (.string, Literal.quote "a;\"b\\".toList),
          (.symbol, ['}']), (.keyword, elseWord), (.name, "lib".toList), (.symbol, ['=']),
          (.string, Literal.quote "".toList)] text :=
    ⟨_, by rfl, .cons hblank (by decide) <| .cons .nil (by decide) <| .cons .nil (by decide) <|
      .cons .nil (by decide) <| .cons .nil (by decide) <| .cons .nil (by decide) <|
      .cons .nil (by decide) <| .cons hblank (by decide) <| .cons .nil (by decide) <|
      .cons .nil (by decide) <| .last .nil⟩
  have hread := ofString_spelled.1 [.conditional "windows" (.block [.assign "lib" "a;\"b\\"])
    (some (.assign "lib" ""))] _ text (by decide) (by decide) hlead hspelled
  rwa [htext] at hread

end Rebuild.Language
