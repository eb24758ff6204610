import Rebuild.Lexing.Cursor

/-!
# Words of the configuration language

The language has two keywords, three symbols, names and string literals. Comments run from `#` to
the end of the line. What fits none of these, blanks above all, is passed over.
-/

namespace Rebuild.Language

/-- The kinds of words. -/
inductive TokenKind where
  /-- `if` or `else`. -/
  | keyword
  /-- A brace or an equals sign. -/
  | symbol
  /-- A name that is no keyword. -/
  | name
  /-- A comment, which gives no token. -/
  | comment
  /-- A text in double quotes. -/
  | string
deriving DecidableEq, Repr

/-- The name of a kind of word. -/
def TokenKind.describe : TokenKind → String
  | keyword => "keyword"
  | symbol => "symbol"
  | name => "name"
  | comment => "comment"
  | string => "string literal"

/-- The keyword that begins a conditional. -/
def ifWord : List Char := ['i', 'f']

/-- The keyword before the second branch of a conditional. -/
def elseWord : List Char := ['e', 'l', 's', 'e']

/-- An opening brace, a closing brace or an equals sign. -/
def symbolPattern : Pattern :=
  .choice [.char '{', .char '}', .char '=']

/-- A letter or underscore, and any number of letters, underscores and digits. -/
def namePattern : Pattern :=
  .sequence [.choice [.letter, .char '_'], .many (.choice [.letter, .char '_', .digit])]

/-- The rules of the language, those that win first. -/
def rules : List (Rule TokenKind) :=
  [{ kind := .keyword, matcher := .keyword [ifWord, elseWord] },
    { kind := .symbol, matcher := .pattern symbolPattern },
    { kind := .name, matcher := .pattern namePattern },
    { kind := .comment, matcher := .lineComment ['#'], ignored := true },
    { kind := .string, matcher := .stringLiteral }]

/-- The words of a text. -/
def lex (cs : List Char) : List (Token TokenKind) :=
  tokens rules cs

end Rebuild.Language
