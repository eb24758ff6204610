import Rebuild.Toml.Scalar
import Rebuild.Toml.Text

/-!
# Values of TOML

Strings, scalars, lists, and tables that are written on a line. Lists and such tables may lie in
one another, to a depth that is bounded.
-/

namespace Rebuild.Toml

/-- A value as it is written. -/
inductive Value where
  /-- A string. -/
  | string (s : String)
  /-- A truth value, a number, a date or a time. -/
  | scalar
  /-- A list. -/
  | list (values : List Value)
  /-- A table with its keys, each a list of parts. -/
  | inline (members : List (List String × Value))
deriving Repr, Inhabited

/-- Characters of scalars. -/
def isScalarChar (c : Char) : Bool :=
  c.isAlphanum || c == '+' || c == '-' || c == '.' || c == '_' || c == ':'

/-- The text of a scalar at the beginning of a text. A blank belongs to it where it stands between
a date and a time. -/
def scalarText (cs : List Char) : List Char :=
  let first := cs.takeWhile isScalarChar
  match cs.drop first.length with
  | ' ' :: c :: rest =>
    if isDate first && c.isDigit then first ++ ' ' :: (c :: rest).takeWhile isScalarChar
    else first
  | _ => first

/-- Reads a scalar. -/
def scalar? (cs : List Char) : Reading Value cs :=
  let text := scalarText cs
  if h : text ≠ [] ∧ cs ≠ [] then
    if isScalar text then
      some (.scalar, ⟨cs.drop text.length, by
        have := List.length_pos_iff.2 h.1
        have := List.length_pos_iff.2 h.2
        simp only [List.length_drop]
        omega⟩)
    else none
  else none

/-- How deep values may lie in one another. -/
def maxDepth : Nat := 80

mutual

/-- Reads a value in which others may lie `depth` deep. -/
def value? (depth : Nat) (cs : List Char) : Reading Value cs :=
  match cs with
  | [] => none
  | c :: cs =>
    if c = '"' ∨ c = '\'' then (string? (c :: cs)).map fun (s, rest) ↦ (.string s, rest)
    else if c = '[' then
      match depth with
      | 0 => none
      | depth + 1 => (list? depth [] cs).widen (by simp)
    else if c = '\x7b' then
      match depth with
      | 0 => none
      | depth + 1 => (inline? depth [] cs).widen (by simp)
    else scalar? (c :: cs)
termination_by (depth, 2 * cs.length)
decreasing_by all_goals grind

/-- Reads a list behind its opening bracket or one of its commas; `before` has been read, last
value first. -/
def list? (depth : Nat) (before : List Value) (cs : List Char) : Reading Value cs :=
  match hlines : skipLines cs with
  | [] => none
  | c :: rest =>
    have hle : (c :: rest).length ≤ cs.length := hlines ▸ length_skipLines_le cs
    if c = ']' then
      some (.list before.reverse, ⟨rest, by simp only [List.length_cons] at hle; omega⟩)
    else
      match value? depth (c :: rest) with
      | none => none
      | some (value, ⟨behind, hbehind⟩) =>
        match hnext : skipLines behind with
        | ']' :: after =>
          some (.list (value :: before).reverse, ⟨after, by
            have := hnext ▸ length_skipLines_le behind
            simp only [List.length_cons] at this hle hbehind
            omega⟩)
        | ',' :: after =>
          have hlt : after.length < cs.length := by
            have := hnext ▸ length_skipLines_le behind
            simp only [List.length_cons] at this hle hbehind
            omega
          (list? depth (value :: before) after).within hlt
        | _ => none
termination_by (depth, 2 * cs.length + 1)
decreasing_by all_goals grind

/-- Reads a table on a line behind its opening brace or one of its commas; `before` has been read,
last member first. -/
def inline? (depth : Nat) (before : List (List String × Value)) (cs : List Char) :
    Reading Value cs :=
  match hlines : skipLines cs with
  | [] => none
  | c :: rest =>
    have hle : (c :: rest).length ≤ cs.length := hlines ▸ length_skipLines_le cs
    if c = '\x7d' then
      some (.inline before.reverse, ⟨rest, by simp only [List.length_cons] at hle; omega⟩)
    else
      match key? (c :: rest) with
      | none => none
      | some (key, ⟨behindKey, hkey⟩) =>
        match hsign : skipSpace behindKey with
        | '=' :: behindSign =>
          have hsignlt : (skipSpace behindSign).length < cs.length := by
            have := hsign ▸ length_skipSpace_le behindKey
            have := length_skipSpace_le behindSign
            simp only [List.length_cons] at *
            omega
          match value? depth (skipSpace behindSign) with
          | none => none
          | some (value, ⟨behind, hbehind⟩) =>
            match hnext : skipLines behind with
            | '\x7d' :: after =>
              some (.inline ((key, value) :: before).reverse, ⟨after, by
                have := hnext ▸ length_skipLines_le behind
                simp only [List.length_cons] at this hle hbehind
                omega⟩)
            | ',' :: after =>
              have hlt : after.length < cs.length := by
                have := hnext ▸ length_skipLines_le behind
                simp only [List.length_cons] at this hle hbehind
                omega
              (inline? depth ((key, value) :: before) after).within hlt
            | _ => none
        | _ => none
termination_by (depth, 2 * cs.length + 1)
decreasing_by all_goals grind

end

end Rebuild.Toml
