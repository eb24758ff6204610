/-!
# Text as a list of characters

The operations on text that the rest of the library is built from: what counts as blank, how a
text falls into parts, words and lines, and how much room it takes in UTF-8. They work on lists
of characters, so that each is a structural recursion; callers convert at their own boundary.

Nothing here knows about bytes that are not text (`Rebuild.Text.Utf8`) or about how wide a text
is on a terminal (`Rebuild.Text.Width`).
-/

namespace Rebuild.Text

/-! ### Blanks -/

/-- Blank characters are those with the White_Space property of Unicode: the ASCII blanks and
controls from tab to carriage return, the no-break space, and the spaces of the general
punctuation block and of the ideographic scripts. A zero-width space is not blank. -/
def isBlank (c : Char) : Bool :=
  let n := c.toNat
  (0x09 ≤ n && n ≤ 0x0D) || n == 0x20 || n == 0x85 || n == 0xA0 || n == 0x1680 ||
    (0x2000 ≤ n && n ≤ 0x200A) || n == 0x2028 || n == 0x2029 || n == 0x202F || n == 0x205F ||
    n == 0x3000

/-- The text without the blanks at its two ends. -/
def trim (cs : List Char) : List Char :=
  ((cs.dropWhile isBlank).reverse.dropWhile isBlank).reverse

/-! ### Parts -/

/-- The parts between the separators, in order and with the empty ones: there is always one part
more than there are separators. -/
def split (separates : Char → Bool) : List Char → List (List Char)
  | [] => [[]]
  | c :: cs =>
    if separates c then [] :: split separates cs
    else (split separates cs).modifyHead (c :: ·)

/-- The maximal runs of characters that are not blank. -/
def words (cs : List Char) : List (List Char) :=
  (split isBlank cs).filter fun part ↦ !part.isEmpty

/-- A carriage return directly before a line feed belongs to the line's ending. -/
def dropReturn (line : List Char) : List Char :=
  if line.getLast? = some '\r' then line.dropLast else line

/-- The lines of a text without their endings. A last line without a line feed counts if it holds
anything, and keeps a carriage return at its end. -/
def lines (cs : List Char) : List (List Char) :=
  ended (split (· == '\n') cs)
where
  /-- All parts but the last were ended by a line feed. -/
  ended : List (List Char) → List (List Char)
    | [] => []
    | [last] => if last.isEmpty then [] else [last]
    | line :: next :: rest => dropReturn line :: ended (next :: rest)

/-- Whether `needle` occurs in the text. -/
def occursIn (needle : List Char) : List Char → Bool
  | [] => needle.isEmpty
  | c :: cs => needle.isPrefixOf (c :: cs) || occursIn needle cs

/-! ### Strings -/

/-- `occursIn` on strings. -/
def contains (s needle : String) : Bool :=
  occursIn needle.toList s.toList

/-- The words of a string. -/
def wordsOf (s : String) : List String :=
  (words s.toList).map String.ofList

/-- The number of bytes the text takes in UTF-8. -/
def byteLength (cs : List Char) : Nat :=
  cs.foldr (fun c n ↦ c.utf8Size + n) 0

/-- The text from byte offset `n` on. There is none when the offset lies past the end or inside a
character. -/
def suffixAt : List Char → Nat → Option (List Char)
  | cs, 0 => some cs
  | [], _ + 1 => none
  | c :: cs, n + 1 => if c.utf8Size ≤ n + 1 then suffixAt cs (n + 1 - c.utf8Size) else none

end Rebuild.Text
