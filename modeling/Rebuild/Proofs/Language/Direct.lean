import Rebuild.Proofs.Language.Tokens
import Rebuild.Proofs.Pattern.OnePass

/-!
# Finding the tokens without rules

`Language.lex` tries rules in order, of which two are patterns that were written as texts. `scan` is what comes
of it: the first character tells what begins, a run of word characters is as long as it can be, and a literal
ends at the first quote that has an even number of backslashes directly before it. The two find the same tokens
at the same places in every text (`lex_eq_scan`).
-/

namespace Rebuild.Language

open Matcher (isWordChar)

/-! ### The first quote that is not escaped -/

/-- Whether a character behind this text is escaped: the number of backslashes directly before it is odd. -/
def isEscapedBehind (before : List Char) : Bool :=
  (before.reverse.takeWhile (· = '\\')).length % 2 = 1

/-- The text up to the first quote that is not escaped, where `before` has been passed. -/
def upToQuote? (before : List Char) : List Char → Option (List Char)
  | [] => none
  | c :: cs =>
    if c = '"' ∧ isEscapedBehind before = false then some before else upToQuote? (before ++ [c]) cs

/-- A backslash changes whether the next character is escaped, any other character ends an escape. -/
theorem isEscapedBehind_append (before : List Char) (c : Char) :
    isEscapedBehind (before ++ [c]) = (decide (c = '\\') && !isEscapedBehind before) := by
  by_cases h : c = '\\'
  · have hlength : (isEscapedBehind (before ++ [c])) =
        decide (((before.reverse.takeWhile (· = '\\')).length + 1) % 2 = 1) := by
      simp [isEscapedBehind, h]
    rw [hlength, isEscapedBehind, decide_eq_true h, Bool.true_and, ← decide_not, decide_eq_decide]
    omega
  · simp [isEscapedBehind, h]

variable {before cs text rest inside : List Char} {c : Char} {kind : TokenKind}

theorem upToQuote?_eq_some_iff (hbefore : isEscapedBehind before = false) :
    upToQuote? before cs = some inside ↔
      ∃ rest, before ++ cs = inside ++ '"' :: rest ∧ Matcher.behindQuote? cs = some rest := by
  fun_induction Matcher.behindQuote? cs generalizing before with
  | case1 | case2 => simp [upToQuote?]
  | case3 c cs ih =>
    -- the backslash and the character behind it are passed together
    have hslash : isEscapedBehind (before ++ ['\\']) = true := by simp [isEscapedBehind_append, hbefore]
    have hboth : isEscapedBehind (before ++ ['\\'] ++ [c]) = false := by
      rw [isEscapedBehind_append, hslash, Bool.not_true, Bool.and_false]
    rw [upToQuote?, if_neg (by simp), upToQuote?, if_neg (by simp [hslash]), ih hboth]
    simp
  | case4 cs =>
    rw [upToQuote?, if_pos ⟨rfl, hbefore⟩]
    constructor
    · rintro h
      cases h
      exact ⟨cs, rfl, rfl⟩
    · rintro ⟨rest, heq, h⟩
      cases h
      rw [List.append_cancel_right heq]
  | case5 c cs hlast hescape hquote ih =>
    have hplain : c ≠ '\\' := by
      cases cs with
      | nil => exact fun hc ↦ hlast hc rfl
      | cons c' cs => exact fun hc ↦ hescape _ _ hc rfl
    have hnext : isEscapedBehind (before ++ [c]) = false := by simp [isEscapedBehind_append, hplain]
    rw [upToQuote?, if_neg (fun h ↦ hquote h.1), ih hnext]
    simp

/-- A literal is closed by the first quote that is not escaped. -/
theorem behindQuote?_eq (cs : List Char) :
    Matcher.behindQuote? cs = (upToQuote? [] cs).map fun inside ↦ cs.drop (inside.length + 1) := by
  have hiff {inside : List Char} : upToQuote? [] cs = some inside ↔
      ∃ rest, cs = inside ++ '"' :: rest ∧ Matcher.behindQuote? cs = some rest := upToQuote?_eq_some_iff rfl
  cases hrest : Matcher.behindQuote? cs with
  | none =>
    have hnone : upToQuote? [] cs = none := by
      rw [Option.eq_none_iff_forall_ne_some]
      intro inside h
      obtain ⟨rest, -, hsome⟩ := hiff.1 h
      cases hrest.symm.trans hsome
    rw [hnone, Option.map_none]
  | some rest =>
    obtain ⟨inside, rfl⟩ := Literal.exists_of_behindQuote? hrest
    rw [hiff.2 ⟨rest, rfl, hrest⟩, Option.map_some]
    simp

/-! ### The scan -/

/-- The kind of a run of word characters. -/
def runKind (run : List Char) : TokenKind :=
  if run = ifWord ∨ run = elseWord then .keyword else .name

/-- The tokens of a text that stands behind another one. -/
def scan (before : List Char) : List Char → List (Token TokenKind)
  | [] => []
  | c :: cs =>
    if isNameStart c then
      let run := (c :: cs).takeWhile isWordChar
      { kind := runKind run, start := .behind before, text := run } ::
        scan (before ++ run) (cs.dropWhile isWordChar)
    else if c ∈ ['{', '}', '='] then
      { kind := .symbol, start := .behind before, text := [c] } :: scan (before ++ [c]) cs
    else if c = '#' then
      scan (before ++ '#' :: cs.takeWhile (· ≠ '\n')) (cs.dropWhile (· ≠ '\n'))
    else if c = '"' then
      match upToQuote? [] cs with
      | some inside =>
        let literal := '"' :: inside ++ ['"']
        { kind := .string, start := .behind before, text := literal } ::
          scan (before ++ literal) (cs.drop (inside.length + 1))
      | none => scan (before ++ ['"']) cs
    else scan (before ++ [c]) cs
termination_by cs => cs.length
decreasing_by
  · exact length_dropWhile_lt _ _ _
  · exact Nat.lt_succ_self _
  · exact length_dropWhile_lt _ _ _
  · exact Nat.lt_succ_of_le (List.drop_sublist _ _).length_le
  · exact Nat.lt_succ_self _
  · exact Nat.lt_succ_self _

/-- The run of word characters that a name or keyword is. -/
theorem cons_eq_run_append (hstart : isNameStart c = true) (cs : List Char) :
    c :: cs = (c :: cs).takeWhile isWordChar ++ cs.dropWhile isWordChar := by
  rw [List.takeWhile_cons_of_pos (isWordChar_of_isNameStart hstart), List.cons_append,
    List.takeWhile_append_dropWhile]

theorem scan_eq (before cs : List Char) :
    scan before cs = tokensFrom (.behind before) (pieces rules cs) := by
  fun_induction scan before cs with
  | case1 before =>
    rw [pieces]
    rfl
  | case2 before c cs hstart run ih =>
    have hsplit : c :: cs = run ++ cs.dropWhile isWordChar := cons_eq_run_append hstart cs
    have hnext : nextPiece? (run ++ cs.dropWhile isWordChar) = some (runKind run, cs.dropWhile isWordChar) := by
      rw [← hsplit, nextPiece?, if_pos hstart]
      simp [runKind, run]
    have hkind : runKind run ≠ .comment := by
      rw [runKind]
      split <;> exact TokenKind.noConfusion
    rw [hsplit, tokensFrom_of_nextPiece? hnext, if_neg hkind, ← ih]
    rfl
  | case3 before c cs hstart hsymbol ih =>
    have hnext : nextPiece? ([c] ++ cs) = some (.symbol, cs) := by
      rw [List.singleton_append, nextPiece?, if_neg hstart, if_pos hsymbol]
    have htokens := tokensFrom_of_nextPiece? hnext before
    rw [← ih] at htokens
    exact htokens.symm
  | case4 before cs hstart hsymbol ih =>
    have hsplit : '#' :: cs = '#' :: cs.takeWhile (· ≠ '\n') ++ cs.dropWhile (· ≠ '\n') := by
      rw [List.cons_append, List.takeWhile_append_dropWhile]
    have hnext : nextPiece? ('#' :: cs.takeWhile (· ≠ '\n') ++ cs.dropWhile (· ≠ '\n')) =
        some (.comment, cs.dropWhile (· ≠ '\n')) := by
      rw [← hsplit]
      rfl
    rw [hsplit, tokensFrom_of_nextPiece? hnext, ← ih]
    rfl
  | case5 before cs inside hinside literal hstart hsymbol hhash ih =>
    obtain ⟨rest, heq, hrest⟩ := (upToQuote?_eq_some_iff (show isEscapedBehind [] = false from rfl)).1 hinside
    obtain rfl : cs = inside ++ '"' :: rest := heq
    have hdrop : (inside ++ '"' :: rest).drop (inside.length + 1) = rest := by simp
    have hsplit : '"' :: (inside ++ '"' :: rest) = literal ++ rest := by simp [literal]
    have hnext : nextPiece? (literal ++ rest) = some (.string, rest) := by
      rw [← hsplit, nextPiece?, if_neg hstart, if_neg hsymbol, if_neg hhash, if_pos rfl, hrest, Option.map_some]
    rw [hdrop] at ih
    rw [hdrop, hsplit, tokensFrom_of_nextPiece? hnext, ← ih]
    rfl
  | case6 before cs hinside hstart hsymbol hhash ih =>
    have hnext : nextPiece? ('"' :: cs) = none := by
      rw [nextPiece?, if_neg hstart, if_neg hsymbol, if_neg hhash, if_pos rfl, behindQuote?_eq, hinside]
      rfl
    rw [tokensFrom_of_nextPiece?_eq_none hnext, ← ih]
  | case7 before c cs hstart hsymbol hhash hquote ih =>
    have hnext : nextPiece? (c :: cs) = none := by
      rw [nextPiece?, if_neg hstart, if_neg hsymbol, if_neg hhash, if_neg hquote]
    rw [tokensFrom_of_nextPiece?_eq_none hnext, ← ih]

/-! ### The lexer -/

/-- The two patterns among the rules are what their texts compile to, and the tokens of a text are those that
the scan finds. No name is a keyword, and a name or keyword ends where its run of word characters does. -/
theorem lex_eq_scan :
    (Pattern.ofString "[\x7b\x7d=]" = .ok symbolPattern ∧ Pattern.ofString "[@_][@_#]*" = .ok namePattern) ∧
    ∀ cs, lex cs = scan [] cs ∧
      (∀ token ∈ lex cs, token.kind = .name → token.text ≠ ifWord ∧ token.text ≠ elseWord) ∧
      ∀ token ∈ lex cs, token.kind = .name ∨ token.kind = .keyword →
        ∃ before rest, cs = before ++ (token.text ++ rest) ∧ token.start = .behind before ∧
          ∀ c ∈ rest.head?, isWordChar c = false := by
  refine ⟨⟨?_, ?_⟩, fun cs ↦ ⟨(scan_eq [] cs).symm, fun token htoken hkind ↦ ?_, fun token htoken hkind ↦ ?_⟩⟩
  · rw [Pattern.ofString, Pattern.compile_eq]
    rfl
  · rw [Pattern.ofString, Pattern.compile_eq]
    rfl
  · have hword : (TokenKind.name, token.text) ∈ wordsIn cs :=
      List.mem_map.2 ⟨token, htoken, by rw [Token.word, hkind]⟩
    have hname := isName_of_mem_wordsIn cs hword
    simp only [isName, Bool.and_eq_true, decide_eq_true_eq] at hname
    exact ⟨hname.1.2, hname.2⟩
  · obtain ⟨before, rest, hsplit, hstart, hnext⟩ := nextPiece?_of_mem_lex htoken
    exact ⟨before, rest, hsplit, hstart, isWordChar_of_nextPiece? hnext hkind⟩

/-- Behind a digit, which is passed over, a name that begins like a keyword, and a keyword directly behind a
literal that holds a quote and a character of two bytes. -/
theorem lex_eq_scan_of_runs :
    let cs := "9if_ \"é\\\"\"if".toList
    let name : Token TokenKind := ⟨.name, ⟨1, 1, 2⟩, ['i', 'f', '_']⟩
    let keyword : Token TokenKind := ⟨.keyword, ⟨11, 1, 12⟩, ifWord⟩
    (name ∈ lex cs ∧ name.text ≠ ifWord ∧ name.text ≠ elseWord) ∧
      keyword ∈ lex cs ∧ ∃ before rest, cs = before ++ (keyword.text ++ rest) ∧
        keyword.start = .behind before ∧ ∀ c ∈ rest.head?, isWordChar c = false := by
  intro cs name keyword
  obtain ⟨hscan, hname, hrun⟩ := lex_eq_scan.2 cs
  have hmem : name ∈ lex cs ∧ keyword ∈ lex cs := by
    rw [hscan]
    decide +kernel
  exact ⟨⟨hmem.1, hname name hmem.1 rfl⟩, hmem.2, hrun keyword hmem.2 (.inr rfl)⟩

end Rebuild.Language
