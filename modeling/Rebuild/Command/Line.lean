import Rebuild.Text.Basic

/-!
# Command lines

A program and its arguments, kept apart as words, and the text by which a shell gives the same
words back. A word of letters, digits and the marks in `plainMarks` is written as it is, any other
in single quotes.
-/

namespace Rebuild

/-- A program and its arguments. -/
structure CommandLine where
  /-- The program. -/
  program : String
  /-- The words it is given. -/
  args : List String := []
deriving DecidableEq, Repr, Inhabited

/-- What running a command gave. -/
structure Outcome where
  /-- Whether the command succeeded. -/
  success : Bool
  /-- Everything it printed. -/
  output : String := ""
deriving DecidableEq, Repr, Inhabited

namespace CommandLine

/-- The marks that no shell gives a meaning inside a word. -/
def plainMarks : List Char := "-_./=+,:@%".toList

/-- Whether a character can stand in a word without quotes. -/
def isPlainChar (c : Char) : Bool :=
  c.isAlphanum || plainMarks.contains c

/-- The inside of single quotes: a single quote leaves the quotes and comes back. -/
def quoteInside : List Char → List Char
  | [] => []
  | c :: cs =>
    if c = '\'' then '\'' :: '\\' :: '\'' :: '\'' :: quoteInside cs else c :: quoteInside cs

/-- A word as a shell has to be given it. -/
def quoteWord (word : List Char) : List Char :=
  if word ≠ [] ∧ word.all isPlainChar then word else '\'' :: quoteInside word ++ ['\'']

/-- `quoteWord` on strings. -/
def quote (word : String) : String :=
  String.ofList (quoteWord word.toList)

/-- The words of the command. -/
def words (command : CommandLine) : List String :=
  command.program :: command.args

/-- The command as a shell has to be given it. -/
def toShell (command : CommandLine) : String :=
  String.intercalate " " (command.words.map quote)

end CommandLine

end Rebuild
