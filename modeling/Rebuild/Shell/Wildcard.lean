import Rebuild.Shell.Field

/-!
# Patterns of the shell

A star stands for any text, a question mark for any character, and brackets for one of several
characters, unless they are quoted.
-/

namespace Rebuild.Shell

/-- A part of a pattern. -/
inductive Wildcard where
  /-- A character. -/
  | char (c : Char)
  /-- Any character. -/
  | anyChar
  /-- Any text. -/
  | anyText
  /-- A character in one of some ranges and classes, or in none of them. -/
  | oneOf (inverted : Bool) (ranges : List (Char × Char)) (classes : List String)
deriving DecidableEq, Repr

namespace Wildcard

/-- The classes of characters. -/
def inClass (name : String) (c : Char) : Bool :=
  match name with
  | "alnum" => c.isAlphanum
  | "alpha" => c.isAlpha
  | "blank" => c == ' ' || c == '\t'
  | "cntrl" => c.toNat < 0x20 || c.toNat == 0x7F
  | "digit" => c.isDigit
  | "graph" => 0x20 < c.toNat && c.toNat < 0x7F
  | "lower" => c.isLower
  | "print" => 0x20 ≤ c.toNat && c.toNat < 0x7F
  | "punct" => 0x20 < c.toNat && c.toNat < 0x7F && !c.isAlphanum
  | "space" => isNumberBlank c
  | "upper" => c.isUpper
  | "xdigit" => (digitValue? 16 c).isSome
  | _ => false

/-- The names of the classes. -/
def classNames : List String :=
  ["alnum", "alpha", "blank", "cntrl", "digit", "graph", "lower", "print", "punct", "space",
    "upper", "xdigit"]

/-- Whether a glyph is a sign, which a quoted character is not. -/
def isSign (c : Char) (g : Glyph) : Bool :=
  g = .plain c || g = .value c

/-- The class that is named behind an opening bracket. -/
def className? (gs : List Glyph) : Option (String × List Glyph) :=
  match gs with
  | g :: rest =>
    if isSign ':' g then
      let name := rest.takeWhile fun g ↦ !isSign ':' g
      let text := String.ofList (Glyph.text name)
      match rest.drop name.length with
      | _ :: close :: behind =>
        if isSign ']' close && classNames.contains text then some (text, behind) else none
      | _ => none
    else none
  | [] => none

/-- Reads the characters between brackets, where `first` says that a closing bracket would be the
first of them, and is one of them. -/
def members : (fuel : Nat) → (first : Bool) → List Glyph →
    Option (List (Char × Char) × List String × List Glyph)
  | 0, _, _ | _, _, [] => none
  | fuel + 1, first, g :: rest =>
    if isSign ']' g && !first then some ([], [], rest)
    else
      match (if isSign '[' g then className? rest else none) with
      | some (name, behind) =>
        (members fuel false behind).map fun (ranges, classes, left) ↦
          (ranges, name :: classes, left)
      | none =>
        let (g, rest) :=
          match isSign '\\' g, rest with
          | true, g' :: rest => (g', rest)
          | _, _ => (g, rest)
        let least := g.char?.getD '\x00'
        let (greatest, behind) :=
          match rest with
          | dash :: d :: behind =>
            let isRange := isSign '-' dash && !isSign ']' d
            if isRange then (d.char?.getD '\x00', behind) else (least, rest)
          | _ => (least, rest)
        (members fuel false behind).map fun (ranges, classes, left) ↦
          ((least, greatest) :: ranges, classes, left)

/-- The pattern that glyphs are; `fuel` is not less than their number. -/
def ofGlyphs : (fuel : Nat) → List Glyph → List Wildcard
  | 0, _ | _, [] => []
  | fuel + 1, g :: rest =>
    match g with
    | .quoted c => char c :: ofGlyphs fuel rest
    | .mark | .boundary => ofGlyphs fuel rest
    | .plain c | .value c =>
      match c with
      | '*' => anyText :: ofGlyphs fuel rest
      | '?' => anyChar :: ofGlyphs fuel rest
      | '\\' =>
        match rest with
        | d :: behind => char (d.char?.getD c) :: ofGlyphs fuel behind
        | [] => [char c]
      | '[' =>
        let inverted := rest.head?.any (isSign '!')
        match members rest.length true (if inverted then rest.tail else rest) with
        | some (ranges, classes, behind) => oneOf inverted ranges classes :: ofGlyphs fuel behind
        | none => char c :: ofGlyphs fuel rest
      | c => char c :: ofGlyphs fuel rest

/-- Whether a part of a pattern other than any text fits a character. -/
def fitsChar (c : Char) : Wildcard → Bool
  | char d => c = d
  | anyChar => true
  | anyText => false
  | oneOf inverted ranges classes =>
    inverted != ((ranges.any fun (least, greatest) ↦ least ≤ c && c ≤ greatest) ||
      classes.any (inClass · c))

/-- Whether a pattern fits a text. -/
def fits : List Wildcard → List Char → Bool
  | [], cs => cs.isEmpty
  | anyText :: pattern, cs => anySuffix pattern cs
  | part :: pattern, c :: cs => part.fitsChar c && fits pattern cs
  | _ :: _, [] => false
where
  /-- Whether a pattern fits a text without some of its beginning. -/
  anySuffix (pattern : List Wildcard) : List Char → Bool
    | [] => fits pattern []
    | c :: cs => fits pattern (c :: cs) || anySuffix pattern cs

/-- Whether glyphs fit a text as a pattern. -/
def fit (gs : List Glyph) (cs : List Char) : Bool :=
  let gs := gs.filter fun g ↦ g.char?.isSome
  fits (ofGlyphs gs.length gs) cs

/-- Whether there is a sign of a pattern among glyphs. -/
def hasSigns (gs : List Glyph) : Bool :=
  gs.any fun g ↦ isSign '*' g || isSign '?' g || isSign '[' g

/-- What is left of a text when the shortest or longest part that fits is cut off one end. Of a part
that goes beyond a zero, what is before it has to fit. -/
def cut (pattern : List Glyph) (atStart longest : Bool) (cs : List Char) : List Char :=
  let sizes := List.range (cs.length + 1)
  let size? := (if longest then sizes.reverse else sizes).find? fun n ↦
    let part := if atStart then cs.take n else cs.drop (cs.length - n)
    fit pattern (part.takeWhile (· ≠ '\x00'))
  match size? with
  | some n => if atStart then cs.drop n else cs.take (cs.length - n)
  | none => cs

end Wildcard

end Rebuild.Shell
