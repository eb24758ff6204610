/-!
# JSON text

Objects whose values are texts, written with one member on a line. A text is written between
double quotes, with an escape for the quote, the backslash and the control characters of ASCII.
-/

namespace Rebuild.Text.Json

/-- A digit of a number in base sixteen. -/
def hexDigit (n : Nat) : Char :=
  "0123456789abcdef".toList[n]?.getD '0'

/-- A character inside a text. -/
def escapeChar (c : Char) : List Char :=
  match c with
  | '"' => ['\\', '"']
  | '\\' => ['\\', '\\']
  | '\x08' => ['\\', 'b']
  | '\t' => ['\\', 't']
  | '\n' => ['\\', 'n']
  | '\x0c' => ['\\', 'f']
  | '\r' => ['\\', 'r']
  | c =>
    if c.toNat < 0x20 then
      ['\\', 'u', '0', '0', hexDigit (c.toNat / 16), hexDigit (c.toNat % 16)]
    else [c]

/-- A text between double quotes. -/
def quote (s : String) : String :=
  String.ofList ('"' :: s.toList.flatMap escapeChar ++ ['"'])

/-- A member of an object. -/
def member (indent : String) (name value : String) : String :=
  indent ++ quote name ++ ": " ++ quote value

/-- An object with the given members. -/
def object (indent : String) (members : List (String × String)) : String :=
  let lines := members.map fun (name, value) ↦ member (indent ++ "  ") name value
  indent ++ "\x7b\n" ++ String.intercalate ",\n" lines ++ "\n" ++ indent ++ "\x7d"

/-- A list of objects, each with at least one member. -/
def list (objects : List (List (String × String))) : String :=
  if objects.isEmpty then "[]"
  else "[\n" ++ String.intercalate ",\n" (objects.map (object "  ")) ++ "\n]"

end Rebuild.Text.Json
