/-!
# String literals

A literal is a text between double quotes. A backslash takes the next character as it is, except
that `\n` is a line feed and `\t` a tab.
-/

namespace Rebuild.Language.Literal

/-- The text that the inside of a literal stands for. -/
def unescape : List Char → List Char
  | [] => []
  | ['\\'] => ['\\']
  | '\\' :: c :: cs =>
    (if c = 'n' then '\n' else if c = 't' then '\t' else c) :: unescape cs
  | c :: cs => c :: unescape cs

/-- The inside of a literal, or the whole text where it is not between quotes. -/
def inside (literal : List Char) : List Char :=
  match literal with
  | '"' :: cs => if cs.getLast? = some '"' then cs.dropLast else literal
  | _ => literal

/-- The text that a literal stands for. -/
def unquote (literal : List Char) : List Char :=
  unescape (inside literal)

/-- Puts a backslash before every double quote and every backslash. -/
def escape : List Char → List Char
  | [] => []
  | c :: cs => if c = '"' ∨ c = '\\' then '\\' :: c :: escape cs else c :: escape cs

/-- A literal that stands for the text. -/
def quote (value : List Char) : List Char :=
  '"' :: escape value ++ ['"']

end Rebuild.Language.Literal
