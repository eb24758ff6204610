import Rebuild.Pattern.Basic
import Rebuild.Text.Rest

/-!
# Patterns from text

The short form of patterns. A character stands for itself, except for `@` (a letter), `#` (a
digit), `~` (a printable character) and `\`, which takes the next character as it is. Parentheses
hold a sequence and square brackets a choice with one branch for each item; `*` and `?` apply to
the item before them, but stand for themselves between brackets. A group that is still open at the
end is closed there.
-/

namespace Rebuild

/-- Why a text is no pattern. Offsets count characters. -/
inductive PatternError where
  /-- A modifier has nothing before it to apply to. -/
  | danglingModifier (modifier : Char) (offset : Nat)
  /-- The text ends in an escape. -/
  | trailingEscape
  /-- A parenthesis is closed that was not opened. -/
  | unmatchedClose (offset : Nat)
deriving DecidableEq, Repr

/-- The wording of an error. -/
def PatternError.message : PatternError → String
  | danglingModifier modifier offset =>
    "'" ++ modifier.toString ++ "' at offset " ++ toString offset ++ " has no atom to apply to"
  | trailingEscape => "escape at end of pattern"
  | unmatchedClose offset => "unmatched ')' at offset " ++ toString offset

namespace Pattern

/-- The pattern that a character stands for outside an escape. -/
def ofChar (c : Char) : Pattern :=
  match c with
  | '@' => letter
  | '#' => digit
  | '~' => printable
  | c => .char c

/-- A sequence; a single part stands for itself. -/
def ofParts : List Pattern → Pattern
  | [part] => part
  | parts => .sequence parts

/-- A choice; a single branch stands for itself. -/
def ofBranches : List Pattern → Pattern
  | [branch] => branch
  | branches => .choice branches

/-- The characters that are left of a text, each with its offset. -/
abbrev Remaining := List (Char × Nat)

/-- A reader's answer: what was read, and what remains, which is no more than there was. -/
abbrev Reading (before : Remaining) :=
  Except PatternError (Pattern × Text.PartOf before)

/-- The same answer, where more remained before. -/
def Reading.widen {inner outer : Remaining} (h : inner.length ≤ outer.length) :
    Reading inner → Reading outer
  | .error e => .error e
  | .ok (p, ⟨after, hafter⟩) => .ok (p, ⟨after, Nat.le_trans hafter h⟩)

mutual

/-- Reads a sequence up to its end, where `parts` have been read before, last one first. Only in a
group does a closing parenthesis end it. -/
def readSequence (group : Bool) (parts : List Pattern) : (cs : Remaining) → Reading cs
  | [] => .ok (ofParts parts.reverse, ⟨[], Nat.le_refl _⟩)
  | (c, offset) :: cs =>
    if c = ')' then
      if group then .ok (ofParts parts.reverse, ⟨cs, by simp⟩)
      else .error (.unmatchedClose offset)
    else if c = '*' ∨ c = '?' then
      match parts with
      | [] => .error (.danglingModifier c offset)
      | last :: parts =>
        let modified := if c = '*' then Pattern.many last else .optional last
        (readSequence group (modified :: parts) cs).widen (by simp)
    else if c = '(' then
      match readSequence true [] cs with
      | .error e => .error e
      | .ok (p, ⟨after, h⟩) =>
        (readSequence group (p :: parts) after).widen (by simp only [List.length_cons]; omega)
    else if c = '[' then
      match readChoice [] cs with
      | .error e => .error e
      | .ok (p, ⟨after, h⟩) =>
        (readSequence group (p :: parts) after).widen (by simp only [List.length_cons]; omega)
    else if c = '\\' then
      match cs with
      | [] => .error .trailingEscape
      | (escaped, _) :: cs =>
        (readSequence group (.char escaped :: parts) cs).widen
          (by simp only [List.length_cons]; omega)
    else (readSequence group (ofChar c :: parts) cs).widen (by simp)
termination_by cs => cs.length
decreasing_by all_goals simp only [List.length_cons]; omega

/-- Reads a choice up to its closing bracket, where `branches` have been read before, last one
first. -/
def readChoice (branches : List Pattern) : (cs : Remaining) → Reading cs
  | [] => .ok (ofBranches branches.reverse, ⟨[], Nat.le_refl _⟩)
  | (c, _) :: cs =>
    if c = ']' then .ok (ofBranches branches.reverse, ⟨cs, by simp⟩)
    else if c = '(' then
      match readSequence true [] cs with
      | .error e => .error e
      | .ok (p, ⟨after, h⟩) =>
        (readChoice (p :: branches) after).widen (by simp only [List.length_cons]; omega)
    else if c = '[' then
      match readChoice [] cs with
      | .error e => .error e
      | .ok (p, ⟨after, h⟩) =>
        (readChoice (p :: branches) after).widen (by simp only [List.length_cons]; omega)
    else if c = '\\' then
      match cs with
      | [] => .error .trailingEscape
      | (escaped, _) :: cs =>
        (readChoice (.char escaped :: branches) cs).widen
          (by simp only [List.length_cons]; omega)
    else (readChoice (ofChar c :: branches) cs).widen (by simp)
termination_by cs => cs.length
decreasing_by all_goals simp only [List.length_cons]; omega

end

/-- The pattern that a text describes. -/
def compile (cs : List Char) : Except PatternError Pattern :=
  (readSequence false [] cs.zipIdx).map (·.1)

/-- The pattern that a string describes. -/
def ofString (s : String) : Except PatternError Pattern :=
  compile s.toList

end Pattern

end Rebuild
