import Rebuild.Shell.Script
import Rebuild.Text.Basic

/-!
# The text of a script

A reader of scripts goes through a text and counts lines. A backslash at the end of a line joins it
with the next one. The text that a redirection reads stands behind the line of the redirection: it
is awaited until that line has ended. `Fault` is what can be wrong with a text.
-/

namespace Rebuild.Shell

/-! ### Tokens -/

/-- What stands between words. -/
inductive Operator where
  /-- `;` -/
  | semicolon
  /-- `;;` -/
  | doubleSemicolon
  /-- `&` -/
  | background
  /-- `&&` -/
  | andIf
  /-- `||` -/
  | orIf
  /-- A single bar. -/
  | bar
  /-- `(` -/
  | openParen
  /-- `)` -/
  | closeParen
  /-- The end of a line. -/
  | newline
  /-- The end of the text. -/
  | ending
deriving DecidableEq, Repr

/-- A word or operator of a script. -/
inductive Token where
  /-- A word. -/
  | word (w : Word Script)
  /-- An operator. -/
  | operator (o : Operator)
  /-- The beginning of a redirection. -/
  | redirection (stream : Nat) (kind : RedirectionKind)
  /-- The beginning of a redirection that reads the text behind its line. -/
  | document (stream : Nat) (stripsTabs : Bool)

/-- Words that have a meaning of their own where a command begins. -/
def reservedWords : List String :=
  ["!", "case", "do", "done", "elif", "else", "esac", "fi", "for", "if", "in", "then", "until",
    "while", "\x7b", "\x7d"]

/-- Reserved words that end a list of commands. -/
def closingWords : List String := ["do", "done", "elif", "else", "esac", "fi", "then", "\x7d"]

/-- The spelling of an operator, in quotes where it is one. -/
def Operator.describe : Operator → String
  | semicolon => "\";\""
  | doubleSemicolon => "\";;\""
  | background => "\"&\""
  | andIf => "\"&&\""
  | orIf => "\"||\""
  | bar => "\"|\""
  | openParen => "\"(\""
  | closeParen => "\")\""
  | newline => "newline"
  | ending => "end of file"

namespace Token

/-- The reserved word that a token is. -/
def reserved? : Token → Option String
  | word w => (w.bare?.map String.ofList).filter reservedWords.contains
  | _ => none

/-- How a message speaks of a reserved word. -/
def describeReserved (text : String) : String :=
  "\"" ++ text ++ "\""

/-- How a message speaks of a token. -/
def describe (t : Token) : String :=
  match t with
  | word _ => t.reserved?.elim "word" describeReserved
  | operator o => o.describe
  | redirection .. | document .. => "redirection"

/-- Whether a token ends a list of commands. -/
def endsList (t : Token) : Bool :=
  match t with
  | operator .closeParen | operator .doubleSemicolon | operator .ending => true
  | t => t.reserved?.any closingWords.contains

end Token

/-! ### Faults -/

/-- What can be wrong with a script. -/
inductive Fault where
  /-- Something stands where it cannot, and perhaps something else should. -/
  | unexpected (found : String) (expected : Option String)
  /-- A quote is not closed. -/
  | unterminatedQuote
  /-- A backquote is not closed. -/
  | unterminatedBackquote
  /-- A brace behind a dollar sign is not closed. -/
  | missingBrace
  /-- An arithmetic expression is not closed. -/
  | missingParens
  /-- A loop has no name to give values to. -/
  | badLoopVariable
  /-- A function cannot have its name. -/
  | badFunctionName
deriving DecidableEq, Repr

/-- The wording of a fault. -/
def Fault.message : Fault → String
  | unexpected found expected =>
    found ++ " unexpected" ++ expected.elim "" fun e ↦ " (expecting " ++ e ++ ")"
  | unterminatedQuote => "Unterminated quoted string"
  | unterminatedBackquote => "EOF in backquote substitution"
  | missingBrace => "Missing '\x7d'"
  | missingParens => "Missing '))'"
  | badLoopVariable => "Bad for loop variable"
  | badFunctionName => "Bad function name"

/-- A fault and the line at which it was found. -/
structure SyntaxError where
  /-- The line. -/
  line : Nat
  /-- The fault. -/
  fault : Fault
deriving DecidableEq, Repr

/-! ### Sources -/

/-- A text that a redirection reads, and that has not been reached yet. -/
structure AwaitedText where
  /-- The number of the text in the script. -/
  number : Nat
  /-- The line that ends the text. -/
  delimiter : List Char
  /-- Whether tabs at the beginning of lines are dropped. -/
  stripsTabs : Bool
  /-- Whether there are expansions in the text. -/
  expands : Bool

/-- The text of a script as a reader goes through it. -/
structure Source where
  /-- The characters that have not been read. -/
  rest : List Char
  /-- The line that the reader is in. -/
  line : Nat := 1
  /-- A token that has been read but not been used. -/
  ahead? : Option Token := none
  /-- The texts that are awaited. -/
  awaited : List AwaitedText := []
  /-- How many texts have been asked for. -/
  asked : Nat := 0
  /-- The texts that have been reached, with their numbers. -/
  reached : List (Nat × Word Script) := []
  /-- The texts that are known from an earlier reading. -/
  known : List (Nat × Word Script) := []

/-- Readers of scripts. -/
abbrev Reader := StateT Source (Except SyntaxError)

namespace Reader

/-- Gives up. -/
def fail {α : Type} (fault : Fault) : Reader α := do
  throw { line := (← get).line, fault }

/-- Drops joined line ends from the front of a text. -/
def joined : List Char → Nat → List Char × Nat
  | '\\' :: '\n' :: cs, line => joined cs (line + 1)
  | cs, line => (cs, line)

/-- The next character, behind joined line ends. -/
def peek? : Reader (Option Char) := do
  let source ← get
  let (rest, line) := joined source.rest source.line
  set { source with rest, line }
  return rest.head?

/-- Takes the next character, whatever it is. -/
def takeRaw? : Reader (Option Char) := do
  let source ← get
  match source.rest with
  | [] => return none
  | c :: rest =>
    set { source with rest, line := if c = '\n' then source.line + 1 else source.line }
    return some c

/-- Drops the next character. -/
def skip : Reader Unit := do
  let _ ← takeRaw?

/-- Drops the next character if it is the given one. -/
def skipIf (c : Char) : Reader Bool := do
  if (← peek?) = some c then
    skip
    return true
  else return false

/-- Takes characters for as long as they pass a test, but at most `n`. -/
def takeWhile (test : Char → Bool) : Nat → Reader (List Char)
  | 0 => return []
  | n + 1 => do
    match ← peek? with
    | some c =>
      if test c then
        skip
        return c :: (← takeWhile test n)
      else return []
    | none => return []

/-- The number of characters that have not been read. -/
def size : Reader Nat :=
  return (← get).rest.length

/-- Reads something else in between, as if it were the text. -/
def within {α : Type} (rest : List Char) (line : Nat) (reader : Reader α) : Reader α := do
  let outer ← get
  set { outer with rest, line, ahead? := none, awaited := [] }
  let x ← reader
  let inner ← get
  set { inner with
    rest := outer.rest, line := outer.line, ahead? := outer.ahead?, awaited := outer.awaited }
  return x

end Reader

end Rebuild.Shell
