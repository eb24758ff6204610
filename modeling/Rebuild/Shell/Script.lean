import Rebuild.Shell.Word

/-!
# Shell scripts

The commands of a script: simple ones, and those put together from others. A command that can be
spoken of in a message knows the line it stands on.
-/

namespace Rebuild.Shell

/-- What a redirection does with its operand. -/
inductive RedirectionKind where
  /-- Writes into a file, which is emptied first. -/
  | output
  /-- The same, even where files are protected. -/
  | overwrite
  /-- Writes to the end of a file. -/
  | append
  /-- Reads a file. -/
  | input
  /-- Reads and writes a file. -/
  | update
  /-- Goes where another stream goes. -/
  | duplicate
  /-- Reads the operand itself. -/
  | document
deriving DecidableEq, Repr

/-- Where a stream of a command goes. -/
structure Redirection (σ : Type) where
  /-- The number of the stream. -/
  stream : Nat
  /-- What is done with the operand. -/
  kind : RedirectionKind
  /-- The file, the other stream, or the text. -/
  operand : List (Piece σ)
deriving Repr

/-- A command, simple or put together. -/
inductive Script where
  /-- Nothing. -/
  | empty
  /-- A command with its words, behind assignments. -/
  | simple (line : Nat) (assignments : List (String × List (Piece Script)))
    (words : List (List (Piece Script))) (redirections : List (Redirection Script))
  /-- One after the other. -/
  | sequence (first second : Script)
  /-- A command that is not waited for. -/
  | background (body : Script)
  /-- The second if the first succeeds. -/
  | andThen (first second : Script)
  /-- The second if the first fails. -/
  | orElse (first second : Script)
  /-- Both, where the second reads what the first prints. -/
  | piped (first second : Script)
  /-- Success turned into failure and failure into success. -/
  | negated (body : Script)
  /-- One of two, as a condition succeeds or fails. -/
  | conditional (condition thenBody elseBody : Script)
  /-- The body for as long as the condition succeeds, or fails. -/
  | loop (condition body : Script) (whileSuccess : Bool)
  /-- The body for each word. -/
  | forEach (line : Nat) (name : String) (words : List (List (Piece Script))) (body : Script)
  /-- The first branch of which a pattern fits the word. -/
  | select (line : Nat) (word : List (Piece Script))
    (branches : List (List (List (Piece Script)) × Script))
  /-- The definition of a function. -/
  | function (name : String) (body : Script)
  /-- The body with redirections. -/
  | redirected (line : Nat) (body : Script) (redirections : List (Redirection Script))
  /-- The body in a shell of its own. -/
  | subshell (line : Nat) (body : Script) (redirections : List (Redirection Script))
deriving Inhabited

namespace Script

/-- One command after the other, where nothing needs no place. -/
def followedBy (first second : Script) : Script :=
  match first, second with
  | .empty, second => second
  | first, .empty => first
  | first, second => .sequence first second

/-- Commands one after the other. -/
def ofList : List Script → Script :=
  List.foldr followedBy .empty

/-- A script with redirections, if there are some. A shell of its own has one list of redirections,
so these take the place of those that it had. -/
def redirectedTo (body : Script) (line : Nat) (redirections : List (Redirection Script)) : Script :=
  if redirections.isEmpty then body
  else
    match body with
    | .subshell line inner _ => .subshell line inner redirections
    | body => .redirected line body redirections

end Script

end Rebuild.Shell
