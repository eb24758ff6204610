import Rebuild.Pattern.Basic
import Rebuild.Text.Basic

/-!
# Matchers

What a rule of a lexer can look for: a pattern, or one of the three classes that patterns cannot
express. Like a pattern, a matcher recognises a beginning of a text and says what is left; `matchAt`
applies it at a byte offset inside a text.
-/

namespace Rebuild

/-- What a lexer can look for at a place in a text. -/
inductive Matcher where
  /-- What a pattern recognises. -/
  | pattern (p : Pattern)
  /-- The first of the words that stands here and is not the beginning of a longer word. -/
  | keyword (words : List (List Char))
  /-- The opening and everything behind it up to the end of the line. -/
  | lineComment (opening : List Char)
  /-- A text between double quotes, in which a backslash takes the next character as it is. -/
  | stringLiteral
deriving Repr

namespace Matcher

/-- The characters that words are made of. -/
def isWordChar (c : Char) : Bool :=
  c.isAlphanum || c == '_'

/-- What is left behind a prefix of the text. -/
def dropPrefix? : List Char → List Char → Option (List Char)
  | [], cs => some cs
  | _ :: _, [] => none
  | p :: ps, c :: cs => if p = c then dropPrefix? ps cs else none

/-- What is left behind a whole word. -/
def wordRest? (word cs : List Char) : Option (List Char) :=
  match dropPrefix? word cs with
  | none => none
  | some [] => some []
  | some (c :: rest) => if isWordChar c then none else some (c :: rest)

/-- What is left behind the closing quote. -/
def behindQuote? : List Char → Option (List Char)
  | [] => none
  | '\\' :: [] => none
  | '\\' :: _ :: cs => behindQuote? cs
  | c :: cs => if c = '"' then some cs else behindQuote? cs

/-- What is left behind the beginning that the matcher recognises. -/
def rest? : Matcher → List Char → Option (List Char)
  | pattern p, cs => p.rest? cs
  | keyword words, cs => words.findSome? (wordRest? · cs)
  | lineComment opening, cs =>
    if opening.isPrefixOf cs then some (cs.dropWhile (· ≠ '\n')) else none
  | stringLiteral, [] => none
  | stringLiteral, c :: cs => if c = '"' then behindQuote? cs else none

/-- The offset behind what the matcher recognises at a byte offset. Where no character begins at
the offset nothing can be read, and only a pattern that needs to read nothing succeeds. -/
def matchAt (matcher : Matcher) (text : List Char) (start : Nat) : Option Nat :=
  match Text.suffixAt text start, matcher with
  | some cs, matcher =>
    (matcher.rest? cs).map fun rest ↦ start + (Text.byteLength cs - Text.byteLength rest)
  | none, pattern p => (p.rest? []).map fun _ ↦ start
  | none, _ => none

end Matcher

end Rebuild
