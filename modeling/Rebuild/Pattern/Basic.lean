/-!
# Patterns

A pattern recognises a beginning of a text. Choice is ordered: the first branch that succeeds is
taken, and no other is tried later. Repetition takes as much as it can and gives nothing back.

`Pattern.rest?` is the whole meaning of a pattern: what is left of the text behind the part that
was recognised. A pattern never looks at what stands before the text, so it needs no position.
-/

namespace Rebuild

/-- What a beginning of a text can look like. -/
inductive Pattern where
  /-- The one given character. -/
  | char (c : Char)
  /-- One character between two, both of them included. -/
  | range (least greatest : Char)
  /-- The first of the branches that succeeds. -/
  | choice (branches : List Pattern)
  /-- All parts, one after the other. -/
  | sequence (parts : List Pattern)
  /-- As many as there are, also none. -/
  | many (body : Pattern)
  /-- One or none. -/
  | optional (body : Pattern)
deriving Repr, Inhabited

namespace Pattern

/-- Applies a step to the text for as long as it succeeds and makes the text shorter. -/
def exhaust (step : List Char → Option (List Char)) (cs : List Char) : List Char :=
  match step cs with
  | none => cs
  | some rest => if rest.length < cs.length then exhaust step rest else cs
termination_by cs.length

mutual

/-- What is left behind the beginning that the pattern recognises. -/
def rest? : Pattern → List Char → Option (List Char)
  | .char _, [] => none
  | .char expected, c :: cs => if c = expected then some cs else none
  | .range _ _, [] => none
  | .range least greatest, c :: cs => if least ≤ c ∧ c ≤ greatest then some cs else none
  | .choice branches, cs => firstRest? branches cs
  | .sequence parts, cs => throughRest? parts cs
  | .many body, cs => some (exhaust (rest? body) cs)
  | .optional body, cs => some ((rest? body cs).getD cs)

/-- What the first branch that succeeds leaves. -/
def firstRest? : List Pattern → List Char → Option (List Char)
  | [], _ => none
  | branch :: branches, cs =>
    match rest? branch cs with
    | some rest => some rest
    | none => firstRest? branches cs

/-- What all parts together leave. -/
def throughRest? : List Pattern → List Char → Option (List Char)
  | [], cs => some cs
  | part :: parts, cs =>
    match rest? part cs with
    | some rest => throughRest? parts rest
    | none => none

end

/-! ### Common classes -/

/-- Any ASCII letter. -/
def letter : Pattern := .choice [.range 'a' 'z', .range 'A' 'Z']

/-- Any ASCII digit. -/
def digit : Pattern := .range '0' '9'

/-- Any printable ASCII character, the blank included. -/
def printable : Pattern := .range ' ' '~'

end Pattern

end Rebuild
