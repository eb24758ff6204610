import Rebuild.Shell.Bytes

/-!
# Fields

What the expansion of words gives is a text whose characters know where they come from: quoted ones
stand for themselves, those of a value can separate fields, and all that are not quoted can be
signs of a pattern. Here such a text is split into fields, and a line into the values of variables.
-/

namespace Rebuild.Shell

/-- A part of what a word gives. -/
inductive Glyph where
  /-- A character of the script without quotes. -/
  | plain (c : Char)
  /-- A quoted character. -/
  | quoted (c : Char)
  /-- A character of a value without quotes. The zero stands for a blank that always separates. -/
  | value (c : Char)
  /-- Nothing, which still makes a field. -/
  | mark
  /-- The boundary of two fields. -/
  | boundary
deriving DecidableEq, Repr

namespace Glyph

/-- The character of a glyph. -/
def char? : Glyph → Option Char
  | plain c | quoted c | value c => some c
  | mark | boundary => none

/-- The glyphs of a literal text. -/
def ofLiteral (cs : List Char) (isQuoted : Bool) : List Glyph :=
  if isQuoted then mark :: cs.map quoted else cs.map plain

/-- The glyphs of a value. -/
def ofValue (cs : List Char) (isQuoted : Bool) : List Glyph :=
  cs.map (if isQuoted then quoted else value)

/-- What stands in for a value can separate fields as the value could. -/
def asValue : Glyph → Glyph
  | plain c => value c
  | g => g

/-- The text of glyphs. -/
def text (gs : List Glyph) : List Char :=
  gs.filterMap char?

end Glyph

/-- Characters that separate fields where nothing else is said. -/
def defaultSeparators : List Char := [' ', '\t', '\n']

/-- Whether a separator is blank: several together separate as one does, and those at the ends
separate nothing. -/
def isBlankSeparator (c : Char) : Bool :=
  c == '\x00' || defaultSeparators.contains c

/-- The separator that a glyph is. -/
def separator? (separators : List Char) : Glyph → Option Char
  | .value c => if c == '\x00' || separators.contains c then some c else none
  | _ => none

/-- Splits glyphs into fields. `field` is the field under way in reverse; behind a separator, blank
ones are skipped, and one that is not if `mayTake` says so. -/
def splitFields (separators : List Char) (field : List Glyph) (mayTake : Option Bool) :
    List Glyph → List (List Glyph)
  | [] => if field.isEmpty then [] else [field.reverse]
  | g :: rest =>
    match separator? separators g, mayTake with
    | some c, some take =>
      if isBlankSeparator c then splitFields separators field (some take) rest
      else if take then splitFields separators field (some false) rest
      else field.reverse :: splitFields separators [] (some false) rest
    | some c, none =>
      if isBlankSeparator c && field.isEmpty then splitFields separators field none rest
      else field.reverse :: splitFields separators [] (some (isBlankSeparator c)) rest
    | none, _ =>
      if g = .boundary then field.reverse :: splitFields separators [] none rest
      else splitFields separators (g :: field) none rest

/-! ### Lines -/

/-- The values that a line gives to so many variables: a field each, and all that is left to the
last. A separator behind the last field is dropped if there is only one. -/
def splitLine (separators : List Char) : Nat → List Glyph → List (List Glyph)
  | 0, _ => []
  | n + 1, gs =>
    let separates (g : Glyph) : Bool := (separator? separators g).isSome
    let isBlank (g : Glyph) : Bool := (separator? separators g).any isBlankSeparator
    let gs := gs.dropWhile isBlank
    let field := gs.takeWhile fun g ↦ !separates g
    let behind := gs.drop field.length
    if n = 0 then
      if behind.all separates && (behind.countP fun g ↦ !isBlank g) ≤ 1 then [field]
      else [(gs.reverse.dropWhile isBlank).reverse]
    else
      let behindBlanks := behind.dropWhile isBlank
      let rest :=
        match behindBlanks with
        | g :: more => if separates g then more else behindBlanks
        | [] => []
      field :: splitLine separators n rest

end Rebuild.Shell
