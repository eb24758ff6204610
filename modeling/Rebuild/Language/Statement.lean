import Rebuild.Text.Rest
import Rebuild.Language.Literal
import Rebuild.Language.Token

/-!
# Statements of the configuration language

A text is a list of statements: assignments, conditionals and blocks. `Statement.ofTokens` reads
them by looking at the next word only. An `else` belongs to the nearest `if` before it that can
take it, because the branch of a conditional is read before the conditional looks for its `else`.

Each reader returns what it leaves with a proof that it is shorter, and reading ends for that
reason.
-/

namespace Rebuild.Language

/-- What a configuration says. -/
inductive Statement where
  /-- Gives a name a value. -/
  | assign (name value : String)
  /-- The first branch if the condition holds, otherwise the second if there is one. -/
  | conditional (condition : String) (thenBranch : Statement) (elseBranch : Option Statement)
  /-- All statements in order. -/
  | block (statements : List Statement)
deriving Repr, Inhabited

/-! ### Errors -/

/-- What could have come next. -/
inductive Expected where
  /-- The beginning of a statement. -/
  | statement
  /-- The condition of a conditional. -/
  | conditionName
  /-- The sign of an assignment. -/
  | equals
  /-- The value of an assignment. -/
  | stringLiteral
  /-- The end of a block, where only that can end the text well. -/
  | closingBrace
deriving DecidableEq, Repr

/-- The wording of what could have come next. -/
def Expected.describe : Expected → String
  | statement => "'if', a name or '\x7b'"
  | conditionName => "a condition name"
  | equals => "'='"
  | stringLiteral => "a string literal"
  | closingBrace => "'\x7d'"

/-- Why a list of words is no configuration. -/
inductive ParseError where
  /-- A word that no configuration has here. -/
  | unexpectedToken (found : String) (line column : Nat) (expected : Expected)
  /-- The text ends too early. -/
  | unexpectedEnd (expected : Expected)
deriving DecidableEq, Repr

/-- The wording of an error. -/
def ParseError.message : ParseError → String
  | unexpectedToken found line column expected =>
    "unexpected token '" ++ found ++ "' at " ++ toString line ++ ":" ++ toString column ++
      ", expected " ++ expected.describe
  | unexpectedEnd expected => "unexpected end of input, expected " ++ expected.describe

/-- The error that a word is out of place. -/
def ParseError.atToken (token : Token TokenKind) (expected : Expected) : ParseError :=
  .unexpectedToken (String.ofList token.text) token.start.line token.start.column expected

/-! ### Reading -/

/-- The words that are left of a configuration. -/
abbrev Words := List (Token TokenKind)

/-- A reader's answer: what was read, and what is left, which is less than there was. -/
abbrev Reading (α : Type) (before : Words) :=
  Except ParseError (α × Text.RestOf before)

/-- Reads one word that satisfies a test. -/
def expect (test : Token TokenKind → Bool) (expected : Expected) :
    (words : Words) → Reading (Token TokenKind) words
  | [] => .error (.unexpectedEnd expected)
  | token :: words =>
    if test token then .ok (token, ⟨words, by simp⟩) else .error (.atToken token expected)

/-- Whether a word is the given symbol. -/
def isSymbol (c : Char) (token : Token TokenKind) : Bool :=
  token.isText .symbol [c]

/-- Reads the rest of an assignment behind its name. -/
def readAssignment (name : Token TokenKind) (words : Words) : Reading Statement words :=
  match expect (isSymbol '=') .equals words with
  | .error e => .error e
  | .ok (_, ⟨behindSign, hsign⟩) =>
    match expect (·.kind = .string) .stringLiteral behindSign with
    | .error e => .error e
    | .ok (value, ⟨behindValue, hvalue⟩) =>
      .ok (.assign (String.ofList name.text) (String.ofList (Literal.unquote value.text)),
        ⟨behindValue, by omega⟩)

mutual

/-- Reads one statement. -/
def readStatement (words : Words) : Reading Statement words :=
  match words with
  | [] => .error (.unexpectedEnd .statement)
  | token :: words =>
    if token.isText .keyword ifWord then
      match expect (·.kind = .name) .conditionName words with
      | .error e => .error e
      | .ok (condition, ⟨behindCondition, hcondition⟩) =>
        match readStatement behindCondition with
        | .error e => .error e
        | .ok (thenBranch, ⟨behindThen, hthen⟩) =>
          match behindThen with
          | [] =>
            .ok (.conditional (String.ofList condition.text) thenBranch none,
              ⟨[], by simp⟩)
          | next :: behindElse =>
            if next.isText .keyword elseWord then
              match readStatement behindElse with
              | .error e => .error e
              | .ok (elseBranch, ⟨after, helse⟩) =>
                .ok (.conditional (String.ofList condition.text) thenBranch (some elseBranch),
                  ⟨after, by simp only [List.length_cons] at *; omega⟩)
            else
              .ok (.conditional (String.ofList condition.text) thenBranch none,
                ⟨next :: behindElse, by simp only [List.length_cons] at *; omega⟩)
    else if token.kind = .name then
      match readAssignment token words with
      | .error e => .error e
      | .ok (assignment, ⟨after, h⟩) =>
        .ok (assignment, ⟨after, by simp only [List.length_cons]; omega⟩)
    else if isSymbol '{' token then
      match readBlock [] words with
      | .error e => .error e
      | .ok (block, ⟨after, h⟩) => .ok (block, ⟨after, by simp only [List.length_cons]; omega⟩)
    else .error (.atToken token .statement)
termination_by (words.length, 0)
decreasing_by all_goals grind

/-- Reads the statements of a block and its closing brace, where `statements` have been read
before, last one first. -/
def readBlock (statements : List Statement) (words : Words) : Reading Statement words :=
  match words with
  | [] => .error (.unexpectedEnd .closingBrace)
  | token :: words =>
    if isSymbol '}' token then .ok (.block statements.reverse, ⟨words, by simp⟩)
    else
      match readStatement (token :: words) with
      | .error e => .error e
      | .ok (statement, ⟨after, h⟩) =>
        match readBlock (statement :: statements) after with
        | .error e => .error e
        | .ok (block, ⟨behindBlock, hblock⟩) => .ok (block, ⟨behindBlock, by omega⟩)
termination_by (words.length, 1)
decreasing_by all_goals grind

end

/-- Reads statements up to the end. -/
def readAll (words : Words) : Except ParseError (List Statement) :=
  match words with
  | [] => .ok []
  | token :: words =>
    match readStatement (token :: words) with
    | .error e => .error e
    | .ok (statement, ⟨after, _hless⟩) => (readAll after).map (statement :: ·)
termination_by words.length
decreasing_by exact _hless

/-- The configuration that a list of words is. -/
def Statement.ofTokens (words : Words) : Except ParseError Statement :=
  (readAll words).map .block

/-- The configuration that a text is. -/
def Statement.ofString (s : String) : Except ParseError Statement :=
  Statement.ofTokens (lex s.toList)

end Rebuild.Language
