import Rebuild.Shell.Bytes

/-!
# Words of shell scripts

A word is put together from literal pieces and from expansions, each quoted or not: what is quoted
is neither split nor taken as a pattern. The scripts whose output becomes part of a word are a
parameter here, because scripts are made of words in turn.
-/

namespace Rebuild.Shell

/-- What is done with the value of a parameter, in view of a word that is given with it. Some
modifiers can count an empty value as none. -/
inductive Modifier where
  /-- The word stands in for a missing value. -/
  | default (orEmpty : Bool)
  /-- The word stands in for a missing value and is given to the parameter. -/
  | assign (orEmpty : Bool)
  /-- A missing value is an error, of which the word is the message. -/
  | require (orEmpty : Bool)
  /-- The word stands in for a value that is not missing. -/
  | alternative (orEmpty : Bool)
  /-- The shortest or longest part that the word fits as a pattern is cut off. -/
  | cut (atStart longest : Bool)
deriving DecidableEq, Repr

/-- A piece of a word. -/
inductive Piece (σ : Type) where
  /-- Characters that stand for themselves. An empty quoted one still makes a word. -/
  | literal (cs : List Char) (quoted : Bool)
  /-- The value of a parameter. -/
  | value (name : String) (quoted : Bool)
  /-- The length of the value of a parameter. -/
  | length (name : String) (quoted : Bool)
  /-- The value of a parameter as a modifier changes it. -/
  | modified (name : String) (modifier : Modifier) (word : List (Piece σ)) (quoted : Bool)
  /-- What a script prints. -/
  | output (script : σ) (quoted : Bool)
  /-- The value of an arithmetic expression. -/
  | arithmetic (expression : List (Piece σ)) (quoted : Bool)
  /-- A parameter that is written wrongly. -/
  | malformed
deriving Repr, Inhabited

/-- A word, piece by piece. -/
abbrev Word (σ : Type) := List (Piece σ)

/-- Characters that names begin with. -/
def isNameStart (c : Char) : Bool :=
  c.isAlpha || c == '_'

/-- Characters of names. -/
def isNameChar (c : Char) : Bool :=
  c.isAlphanum || c == '_'

/-- Whether a text is a name. -/
def isName (cs : List Char) : Bool :=
  cs.head?.any isNameStart && cs.all isNameChar

namespace Word

variable {σ : Type}

/-- Puts a literal before a word, joined with one that the word begins with. -/
def cons (cs : List Char) (quoted : Bool) : Word σ → Word σ
  | .literal ds q :: rest =>
    if q = quoted then .literal (cs ++ ds) q :: rest
    else .literal cs quoted :: .literal ds q :: rest
  | word => .literal cs quoted :: word

/-- The characters of a word without quotes and expansions. -/
def bare? : Word σ → Option (List Char)
  | [] => some []
  | .literal cs false :: rest => (bare? rest).map (cs ++ ·)
  | _ => none

/-- The characters of a word without expansions, and whether some of it was quoted. -/
def fixedText (word : Word σ) : List Char × Bool :=
  word.foldr (fun piece (cs, quoted) ↦
    match piece with
    | .literal ds q => (ds ++ cs, q || quoted)
    | _ => (cs, quoted)) ([], false)

/-- The name and value of an assignment. -/
def assignment? : Word σ → Option (String × Word σ)
  | .literal cs false :: rest =>
    let name := cs.takeWhile (· ≠ '=')
    match cs.drop name.length with
    | _ :: value =>
      if isName name then
        some (String.ofList name, if value.isEmpty then rest else .literal value false :: rest)
      else none
    | [] => none
  | _ => none

end Word

end Rebuild.Shell
