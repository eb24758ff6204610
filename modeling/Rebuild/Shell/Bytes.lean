import Rebuild.Text.Utf8

/-!
# Texts of the shell

The shell works on bytes, whatever they mean. A byte is kept as the character with its number, so
that a text of the shell is a text of characters below 256, and its parts, its length and its
patterns are those of the bytes. Texts from outside are turned into bytes when they come in, and
what goes out is read as UTF-8 again.
-/

namespace Rebuild.Shell

/-- The bytes of a text. -/
def bytesOf (text : String) : String :=
  String.ofList ((Text.Utf8.encode text).toList.map fun b ↦ Char.ofNat b.toNat)

/-- The bytes that characters stand for. -/
def rawBytes (cs : List Char) : List UInt8 :=
  cs.map fun c ↦ UInt8.ofNat c.toNat

/-- The characters that stand for bytes. -/
def ofRawBytes (bytes : List UInt8) : List Char :=
  bytes.map fun b ↦ Char.ofNat b.toNat

/-- The text that bytes spell, where a malformed part is replaced. -/
def textOf (cs : List Char) : String :=
  String.ofList (Text.Utf8.decodeReplacing (rawBytes cs))

/-- The path that bytes spell. -/
def pathText (bytes : String) : String :=
  textOf bytes.toList

/-- The value of a digit in a base up to sixteen. -/
def digitValue? (base : Nat) (c : Char) : Option Nat :=
  let value? :=
    if c.isDigit then some (c.toNat - '0'.toNat)
    else if 'a' ≤ c ∧ c ≤ 'f' then some (c.toNat - 'a'.toNat + 10)
    else if 'A' ≤ c ∧ c ≤ 'F' then some (c.toNat - 'A'.toNat + 10)
    else none
  value?.filter (· < base)

/-- The number that digits denote, and what is behind them; nothing if there is no digit. -/
def digits? (base : Nat) (cs : List Char) : Option (Nat × List Char) :=
  let digits := cs.takeWhile fun c ↦ (digitValue? base c).isSome
  if digits.isEmpty then none
  else
    some ((digits.filterMap (digitValue? base)).foldl (fun n digit ↦ base * n + digit) 0,
      cs.drop digits.length)

/-- Blanks before a number. -/
def isNumberBlank (c : Char) : Bool :=
  c == ' ' || ('\t' ≤ c && c ≤ '\r')

/-- The number that a text begins with, and what is behind it; nothing if it begins with none. A
zero before it makes it octal, and `0x` hexadecimal. -/
def leadingInteger? (cs : List Char) : Option (Int × List Char) :=
  let cs := cs.dropWhile isNumberBlank
  let magnitude? (cs : List Char) : Option (Nat × List Char) :=
    match cs with
    | '0' :: x :: rest =>
      if x = 'x' ∨ x = 'X' then (digits? 16 rest).or (some (0, x :: rest))
      else digits? 8 ('0' :: x :: rest)
    | cs => digits? 10 cs
  match cs with
  | '-' :: cs => (magnitude? cs).map fun (n, rest) ↦ (-(n : Int), rest)
  | '+' :: cs => (magnitude? cs).map fun (n, rest) ↦ ((n : Int), rest)
  | cs => (magnitude? cs).map fun (n, rest) ↦ ((n : Int), rest)

/-- The number of decimal digits alone, if that is all there is. -/
def decimal? (text : String) : Option Nat :=
  match digits? 10 text.toList with
  | some (n, []) => some n
  | _ => none

end Rebuild.Shell
