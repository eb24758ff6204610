import Mathlib.Tactic.SplitIfs
import Rebuild.Language.Token
import Rebuild.Proofs.Language.Literal
import Rebuild.Proofs.Lexing.Pieces
import Rebuild.Proofs.Pattern

/-!
# The words of a text

The rules of the language say which piece of a text comes first by their order. `nextPiece?` says it by the
first character, and the two agree (`firstMatch_rules`): a name is as long as it can be, and it is a keyword
only if all of it is one.

Where words stand does not matter for what they say, so a word is its kind and its text, and `wordsIn` are
the words of a text. A proper word at the beginning of a text is found (`wordsIn_append`), unless it goes on
behind its end.
-/

namespace Rebuild

/-! ### Keywords -/

namespace Matcher

theorem wordRest?_eq {word : List Char} (hword : word.all isWordChar = true) (cs : List Char) :
    wordRest? word cs =
      if cs.takeWhile isWordChar = word then some (cs.dropWhile isWordChar) else none := by
  induction word generalizing cs with
  | nil =>
    cases cs with
    | nil => rfl
    | cons c cs => cases h : isWordChar c <;> simp [wordRest?, dropPrefix?, h]
  | cons d word ih =>
    simp only [List.all_cons, Bool.and_eq_true] at hword
    cases cs with
    | nil => rfl
    | cons c cs =>
      have ih := ih hword.2 cs
      by_cases hdc : d = c
      · subst hdc
        simpa [wordRest?, dropPrefix?, hword.1] using ih
      · have hne : (c :: cs).takeWhile isWordChar ≠ d :: word := fun heq ↦ by
          rw [List.takeWhile_cons] at heq
          split at heq
          · exact hdc (List.cons.inj heq).1.symm
          · cases heq
        simp [wordRest?, dropPrefix?, hdc, hne]

end Matcher

namespace Language

open Matcher (isWordChar)

/-- The characters that names begin with. -/
def isNameStart (c : Char) : Bool :=
  c.isAlpha || c == '_'

/-- Whether a text is a letter or underscore and any number of letters, underscores and digits. -/
def isIdentifier : List Char → Bool
  | [] => false
  | c :: cs => isNameStart c && cs.all isWordChar

/-- Whether a text is the name of something: an identifier that is no keyword. -/
def isName (text : List Char) : Bool :=
  isIdentifier text && text ≠ ifWord && text ≠ elseWord

theorem isWordChar_of_isNameStart {c : Char} (h : isNameStart c = true) : isWordChar c = true := by
  rcases Bool.or_eq_true_iff.1 h with h | h <;> simp [isWordChar, Char.isAlphanum, h]

/-! ### One piece -/

theorem rest?_namePattern (c : Char) (cs : List Char) :
    namePattern.rest? (c :: cs) = if isNameStart c then some (cs.dropWhile isWordChar) else none := by
  have hstart : (Pattern.choice [.letter, .char '_']).Takes isNameStart :=
    (Pattern.takes_letter.choice_cons ((Pattern.takes_char '_').choice_cons
      Pattern.takes_choice_nil)).congr fun c ↦ by rw [Bool.or_false, isNameStart]
  have hinner : (Pattern.choice [.letter, .char '_', .digit]).Takes isWordChar :=
    (Pattern.takes_letter.choice_cons ((Pattern.takes_char '_').choice_cons
      (Pattern.takes_digit.choice_cons Pattern.takes_choice_nil))).congr fun c ↦ by
        rw [Bool.or_false, isWordChar, Char.isAlphanum, Bool.or_comm (c == '_'), Bool.or_assoc]
  rw [namePattern, Pattern.rest?, Pattern.throughRest?, hstart.cons]
  cases isNameStart c with
  | true => simp [Pattern.throughRest?, hinner.rest?_many]
  | false => rfl

theorem rest?_symbolPattern (c : Char) (cs : List Char) :
    symbolPattern.rest? (c :: cs) = if c ∈ ['{', '}', '='] then some cs else none := by
  have h := (Pattern.takes_char '{').choice_cons ((Pattern.takes_char '}').choice_cons
    ((Pattern.takes_char '=').choice_cons Pattern.takes_choice_nil))
  rw [symbolPattern, h.cons]
  simp

theorem rest?_keyword (c : Char) (cs : List Char) :
    (Matcher.keyword [ifWord, elseWord]).rest? (c :: cs) =
      if isNameStart c ∧ (c :: cs).takeWhile isWordChar ∈ [ifWord, elseWord] then
        some (cs.dropWhile isWordChar)
      else none := by
  have hif := Matcher.wordRest?_eq (show ifWord.all isWordChar = true by decide) (c :: cs)
  have helse := Matcher.wordRest?_eq (show elseWord.all isWordChar = true by decide) (c :: cs)
  rw [Matcher.rest?, List.findSome?_cons, List.findSome?_cons, hif, helse]
  cases hc : isNameStart c with
  | true =>
    rw [List.dropWhile_cons_of_pos (isWordChar_of_isNameStart hc)]
    grind
  | false =>
    -- both keywords begin with a letter
    have hne : ∀ word, word.head?.any isNameStart = true → (c :: cs).takeWhile isWordChar ≠ word := by
      rintro word hword rfl
      rw [List.takeWhile_cons] at hword
      split at hword
      · exact absurd (hc.symm.trans hword) Bool.false_ne_true
      · cases hword
    simp [hne ifWord (by decide), hne elseWord (by decide)]

theorem rest?_comment (c : Char) (cs : List Char) : (Matcher.lineComment ['#']).rest? (c :: cs) =
    if c = '#' then some (cs.dropWhile (· ≠ '\n')) else none := by
  by_cases h : c = '#'
  · subst h
    rfl
  · simp [Matcher.rest?, h, Ne.symm h]

theorem rest?_string (c : Char) (cs : List Char) :
    Matcher.stringLiteral.rest? (c :: cs) = if c = '"' then Matcher.behindQuote? cs else none := rfl

/-- The rule for the words of a kind. -/
def ruleFor : TokenKind → Rule TokenKind
  | .keyword => { kind := .keyword, matcher := .keyword [ifWord, elseWord] }
  | .symbol => { kind := .symbol, matcher := .pattern symbolPattern }
  | .name => { kind := .name, matcher := .pattern namePattern }
  | .comment => { kind := .comment, matcher := .lineComment ['#'], ignored := true }
  | .string => { kind := .string, matcher := .stringLiteral }

theorem rules_eq : rules = [.keyword, .symbol, .name, .comment, .string].map ruleFor := rfl

/-- The kind of the piece that a text begins with, if its first character begins one, and what is behind
that piece. -/
def nextPiece? : List Char → Option (TokenKind × List Char)
  | [] => none
  | c :: cs =>
    if isNameStart c then
      some (if (c :: cs).takeWhile isWordChar ∈ [ifWord, elseWord] then .keyword else .name,
        cs.dropWhile isWordChar)
    else if c ∈ ['{', '}', '='] then some (.symbol, cs)
    else if c = '#' then some (.comment, cs.dropWhile (· ≠ '\n'))
    else if c = '"' then (Matcher.behindQuote? cs).map (.string, ·)
    else none

theorem length_dropWhile_lt (test : Char → Bool) (c : Char) (cs : List Char) :
    (cs.dropWhile test).length < (c :: cs).length :=
  Nat.lt_succ_of_le (List.dropWhile_suffix test).length_le

theorem progress?_of_shorter {rule : Rule TokenKind} {cs : List Char}
    (h : ∀ rest, rule.matcher.rest? cs = some rest → rest.length < cs.length) :
    rule.progress? cs = rule.matcher.rest? cs := by
  rw [Rule.progress?]
  cases hrest : rule.matcher.rest? cs with
  | none => rfl
  | some rest => simp [h rest hrest]

/-- Every rule of the language makes progress where it finds something. -/
theorem progress?_ruleFor (kind : TokenKind) (c : Char) (cs : List Char) :
    (ruleFor kind).progress? (c :: cs) = (ruleFor kind).matcher.rest? (c :: cs) := by
  refine progress?_of_shorter fun rest hrest ↦ ?_
  cases kind with
  | keyword =>
    obtain ⟨-, h⟩ := Option.ite_none_right_eq_some.1 ((rest?_keyword c cs).symm.trans hrest)
    cases h
    exact length_dropWhile_lt _ _ _
  | symbol =>
    obtain ⟨-, h⟩ := Option.ite_none_right_eq_some.1 ((rest?_symbolPattern c cs).symm.trans hrest)
    cases h
    exact Nat.lt_succ_self _
  | name =>
    obtain ⟨-, h⟩ := Option.ite_none_right_eq_some.1 ((rest?_namePattern c cs).symm.trans hrest)
    cases h
    exact length_dropWhile_lt _ _ _
  | comment =>
    obtain ⟨-, h⟩ := Option.ite_none_right_eq_some.1 ((rest?_comment c cs).symm.trans hrest)
    cases h
    exact length_dropWhile_lt _ _ _
  | string =>
    obtain ⟨-, h⟩ := Option.ite_none_right_eq_some.1 ((rest?_string c cs).symm.trans hrest)
    obtain ⟨inside, rfl⟩ := Literal.exists_of_behindQuote? h
    simp only [List.length_cons, List.length_append]
    omega

/-- The rules find the piece that the first character begins. -/
theorem firstMatch_rules (cs : List Char) :
    firstMatch rules cs = (nextPiece? cs).map fun piece ↦ (ruleFor piece.1, piece.2) := by
  cases cs with
  | nil => rfl
  | cons c cs =>
    have hkeyword : (ruleFor .keyword).matcher.rest? (c :: cs) = _ := rest?_keyword c cs
    have hsymbol : (ruleFor .symbol).matcher.rest? (c :: cs) = _ := rest?_symbolPattern c cs
    have hname : (ruleFor .name).matcher.rest? (c :: cs) = _ := rest?_namePattern c cs
    have hcomment : (ruleFor .comment).matcher.rest? (c :: cs) = _ := rest?_comment c cs
    have hstring : (ruleFor .string).matcher.rest? (c :: cs) = _ := rest?_string c cs
    simp only [firstMatch, rules_eq, List.map_cons, List.map_nil, List.findSome?_cons,
      List.findSome?_nil, progress?_ruleFor, hkeyword, hsymbol, hname, hcomment, hstring, nextPiece?]
    by_cases hstart : isNameStart c = true
    · by_cases hmem : (c :: cs).takeWhile isWordChar ∈ [ifWord, elseWord]
      · simp only [hstart, hmem, and_self, if_true, Option.map_some]
      · have hsymbol : c ∉ ['{', '}', '='] := fun h ↦ by
          simp only [List.mem_cons, List.not_mem_nil, or_false] at h
          rcases h with rfl | rfl | rfl <;> exact absurd hstart (by decide)
        simp only [hstart, hmem, hsymbol, and_false, if_true, if_false, Option.map_some, Option.map_none]
    · -- no name and no keyword: the classes that are left differ in their first character
      simp only [hstart, Bool.false_eq_true, false_and, if_false, Option.map_none]
      by_cases hsymbol : c ∈ ['{', '}', '=']
      · simp only [hsymbol, if_true, Option.map_some]
      by_cases hhash : c = '#'
      · subst hhash
        rfl
      by_cases hquote : c = '"'
      · subst hquote
        cases Matcher.behindQuote? cs <;> rfl
      simp only [hsymbol, hhash, hquote, if_false, Option.map_none]

/-! ### The words of a text -/

/-- A kind and a text. -/
abbrev Word := TokenKind × List Char

/-- The words of a text, without their places. -/
def wordsIn (cs : List Char) : List Word :=
  (lex cs).map Token.word

theorem wordsIn_eq (cs : List Char) : wordsIn cs = (pieces rules cs).filterMap Piece.word? :=
  map_word_tokensFrom {} (pieces rules cs)

theorem wordsIn_nil : wordsIn [] = [] := by
  rw [wordsIn_eq, pieces]
  rfl

/-- A character that begins no piece is passed over. -/
theorem wordsIn_cons {c : Char} {cs : List Char} (h : nextPiece? (c :: cs) = none) :
    wordsIn (c :: cs) = wordsIn cs := by
  have hmatch : firstMatch rules (c :: cs) = none := by rw [firstMatch_rules, h, Option.map_none]
  rw [wordsIn_eq, wordsIn_eq, pieces_cons hmatch]
  rfl

theorem wordsIn_of_nextPiece? {kind : TokenKind} {text rest : List Char}
    (h : nextPiece? (text ++ rest) = some (kind, rest)) :
    wordsIn (text ++ rest) =
      if kind = .comment then wordsIn rest else (kind, text) :: wordsIn rest := by
  have hmatch : firstMatch rules (text ++ rest) = some (ruleFor kind, rest) := by
    rw [firstMatch_rules, h, Option.map_some]
  rw [wordsIn_eq, wordsIn_eq, pieces_append hmatch, List.filterMap_cons]
  cases kind <;> rfl

/-- Whether a word is written so that it can be found: it is one of the keywords or symbols, a name, or a
literal for a text. -/
def Proper : Word → Prop
  | (.keyword, text) => text ∈ [ifWord, elseWord]
  | (.symbol, text) => text ∈ [['{'], ['}'], ['=']]
  | (.name, text) => isName text = true
  | (.comment, _) => False
  | (.string, text) => ∃ value, text = Literal.quote value

/-- Whether a word is made of word characters. -/
def isAlphabetic (word : Word) : Bool :=
  word.1 = .keyword || word.1 = .name

/-- Whether the first character of a text could continue a word. -/
def continues (cs : List Char) : Bool :=
  cs.head?.any isWordChar

theorem isIdentifier_of_proper {kind : TokenKind} {text : List Char} (h : Proper (kind, text))
    (halphabetic : isAlphabetic (kind, text) = true) : isIdentifier text = true := by
  cases kind with
  | keyword =>
    have h : text ∈ [ifWord, elseWord] := h
    simp only [List.mem_cons, List.not_mem_nil, or_false] at h
    rcases h with rfl | rfl <;> decide
  | name =>
    have h : isName text = true := h
    simp only [isName, Bool.and_eq_true] at h
    exact h.1.1
  | symbol | comment | string => cases halphabetic

theorem isWordChar_of_isIdentifier {text : List Char} (h : isIdentifier text = true) :
    ∀ c ∈ text, isWordChar c = true := by
  cases text with
  | nil => cases h
  | cons c text =>
    simp only [isIdentifier, Bool.and_eq_true, List.all_eq_true] at h
    rintro d (_ | ⟨_, hd⟩)
    · exact isWordChar_of_isNameStart h.1
    · exact h.2 d hd

theorem nextPiece?_identifier {text rest : List Char} (h : isIdentifier text = true)
    (hrest : continues rest = false) : nextPiece? (text ++ rest) =
      some (if text ∈ [ifWord, elseWord] then .keyword else .name, rest) := by
  have hword := isWordChar_of_isIdentifier h
  have htake : rest.takeWhile isWordChar = [] := by
    cases rest with
    | nil => rfl
    | cons c rest => exact List.takeWhile_cons_of_neg (by simpa [continues] using hrest)
  have hdrop : rest.dropWhile isWordChar = rest := by
    simpa [htake] using List.takeWhile_append_dropWhile (p := isWordChar) (l := rest)
  cases text with
  | nil => cases h
  | cons c text =>
    simp only [isIdentifier, Bool.and_eq_true] at h
    rw [List.cons_append, nextPiece?, if_pos h.1, ← List.cons_append,
      List.takeWhile_append_of_pos hword, htake, List.append_nil,
      List.dropWhile_append_of_pos fun d hd ↦ hword d (.tail _ hd), hdrop]

theorem nextPiece?_quote (value rest : List Char) :
    nextPiece? (Literal.quote value ++ rest) = some (.string, rest) := by
  have hquote := Literal.behindQuote?_escape value rest
  simp [Literal.quote, nextPiece?, hquote, isNameStart]

/-- A proper word is found, and what is behind it is looked through next. -/
theorem wordsIn_append {word : Word} (hproper : Proper word) {rest : List Char}
    (hrest : isAlphabetic word = true → continues rest = false) :
    wordsIn (word.2 ++ rest) = word :: wordsIn rest := by
  obtain ⟨kind, text⟩ := word
  have hnext : nextPiece? (text ++ rest) = some (kind, rest) := by
    cases kind with
    | keyword =>
      have hmem : text ∈ [ifWord, elseWord] := hproper
      rw [nextPiece?_identifier (isIdentifier_of_proper hproper rfl) (hrest rfl), if_pos hmem]
    | name =>
      have hname : isName text = true := hproper
      rw [nextPiece?_identifier (isIdentifier_of_proper hproper rfl) (hrest rfl), if_neg]
      simp only [isName, Bool.and_eq_true, decide_eq_true_eq] at hname
      simp [hname]
    | symbol =>
      have hmem : text ∈ [['{'], ['}'], ['=']] := hproper
      simp only [List.mem_cons, List.not_mem_nil, or_false] at hmem
      rcases hmem with rfl | rfl | rfl <;> rfl
    | comment => cases hproper
    | string =>
      obtain ⟨value, rfl⟩ := hproper
      exact nextPiece?_quote value rest
  have hkind : kind ≠ .comment := by
    rintro rfl
    cases hproper
  rw [wordsIn_of_nextPiece? hnext, if_neg hkind]

/-- A piece is the beginning of the text, and if it is a name it is not a keyword. -/
theorem exists_of_nextPiece? {cs rest : List Char} {kind : TokenKind}
    (h : nextPiece? cs = some (kind, rest)) :
    ∃ text, cs = text ++ rest ∧ (kind = .name → isName text = true) := by
  cases cs with
  | nil => cases h
  | cons c cs =>
    have hrun (hstart : isNameStart c = true) :
        c :: cs = (c :: cs).takeWhile isWordChar ++ cs.dropWhile isWordChar := by
      rw [List.takeWhile_cons_of_pos (isWordChar_of_isNameStart hstart), List.cons_append,
        List.takeWhile_append_dropWhile]
    rw [nextPiece?] at h
    split_ifs at h with hstart hkeyword hsymbol hhash hquote
    · obtain ⟨rfl, rfl⟩ := Prod.mk.inj (Option.some.inj h)
      exact ⟨_, hrun hstart, fun hkind ↦ by cases hkind⟩
    · obtain ⟨rfl, rfl⟩ := Prod.mk.inj (Option.some.inj h)
      have hidentifier : isIdentifier ((c :: cs).takeWhile isWordChar) = true := by
        rw [List.takeWhile_cons_of_pos (isWordChar_of_isNameStart hstart), isIdentifier, hstart,
          Bool.true_and, List.all_takeWhile]
      exact ⟨_, hrun hstart, fun _ ↦ by simpa [isName, hidentifier] using hkeyword⟩
    · obtain ⟨rfl, rfl⟩ := Prod.mk.inj (Option.some.inj h)
      exact ⟨[c], rfl, fun hkind ↦ by cases hkind⟩
    · obtain ⟨rfl, rfl⟩ := Prod.mk.inj (Option.some.inj h)
      exact ⟨c :: cs.takeWhile (· ≠ '\n'), by simp, fun hkind ↦ by cases hkind⟩
    · obtain ⟨behind, hbehind, heq⟩ := Option.map_eq_some_iff.1 h
      obtain ⟨rfl, rfl⟩ := Prod.mk.inj heq
      obtain ⟨inside, rfl⟩ := Literal.exists_of_behindQuote? hbehind
      exact ⟨c :: inside ++ ['"'], by simp, fun hkind ↦ by cases hkind⟩

/-- The names among the words of a text are no keywords. -/
theorem isName_of_mem_wordsIn {text : List Char} (cs : List Char)
    (h : (TokenKind.name, text) ∈ wordsIn cs) : isName text = true := by
  match hnext : nextPiece? cs with
  | none =>
    cases cs with
    | nil =>
      rw [wordsIn_nil] at h
      cases h
    | cons c cs =>
      rw [wordsIn_cons hnext] at h
      exact isName_of_mem_wordsIn cs h
  | some (kind, rest) =>
    obtain ⟨piece, rfl, hname⟩ := exists_of_nextPiece? hnext
    have hmatch : firstMatch rules (piece ++ rest) = some (ruleFor kind, rest) := by
      rw [firstMatch_rules, hnext, Option.map_some]
    have hless := length_lt_of_firstMatch hmatch
    rw [wordsIn_of_nextPiece? hnext] at h
    split at h
    · exact isName_of_mem_wordsIn rest h
    · rcases List.mem_cons.1 h with heq | h
      · obtain ⟨hkind, rfl⟩ := Prod.mk.inj heq
        exact hname hkind.symm
      · exact isName_of_mem_wordsIn rest h
termination_by cs.length

end Language

end Rebuild
