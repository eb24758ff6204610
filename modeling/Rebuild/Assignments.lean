import Rebuild.Text.Basic

/-!
# Assignments

What a configuration assigns: a value for each name, in the order in which the names were first
assigned. A name that is assigned again keeps what it had, and the values are joined by a
semicolon. So a name holds a list of values, and it does not matter whether they came in one
assignment or in several.
-/

namespace Rebuild

/-- The separator between the values of a name. -/
def valueSeparator : Char := ';'

/-- Names with their joined values, in the order of first assignment. -/
structure Assignments where
  /-- The names and their values. -/
  entries : List (String × String) := []
deriving DecidableEq, Repr

namespace Assignments

/-- The joined values of a name. -/
def get? (assignments : Assignments) (name : String) : Option String :=
  assignments.entries.lookup name

/-- The names in the order of first assignment. -/
def keys (assignments : Assignments) : List String :=
  assignments.entries.map Prod.fst

/-- The number of names. -/
def size (assignments : Assignments) : Nat :=
  assignments.entries.length

/-- Whether nothing is assigned. -/
def isEmpty (assignments : Assignments) : Bool :=
  assignments.entries.isEmpty

/-- Adds a value to a name. -/
def merge (assignments : Assignments) (name value : String) : Assignments :=
  { entries := add assignments.entries }
where
  /-- Adds the value behind those of the name, or the name at the end. -/
  add : List (String × String) → List (String × String)
    | [] => [(name, value)]
    | (key, present) :: rest =>
      if key = name then (key, present ++ valueSeparator.toString ++ value) :: rest
      else (key, present) :: add rest

/-- The values in a joined text: its parts without the blanks around them, and no empty ones. -/
def valuesIn (joined : String) : List String :=
  ((Text.split (· == valueSeparator) joined.toList).map Text.trim).filterMap fun part ↦
    if part.isEmpty then none else some (String.ofList part)

/-- The values of a name, in the order of assignment. -/
def values (assignments : Assignments) (name : String) : List String :=
  ((assignments.get? name).map valuesIn).getD []

/-- The value that counts for a name which has only one. -/
def last? (assignments : Assignments) (name : String) : Option String :=
  (assignments.values name).getLast?

end Assignments

end Rebuild
