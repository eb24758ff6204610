import Rebuild.Assignments
import Rebuild.Language.Statement

/-!
# Meaning of a configuration

A configuration is evaluated where it is used: a condition holds if it names the platform or a
variable of the environment that is set. What remains is the merge of the assignments that are
reached, in order.
-/

namespace Rebuild.Language

/-- What conditions are tested against. -/
structure Context where
  /-- The name of the platform. -/
  platform : String
  /-- The variables that are set. -/
  defined : List String := []
deriving DecidableEq, Repr

/-- Whether a condition holds. -/
def Context.holds (context : Context) (condition : String) : Bool :=
  condition == context.platform || context.defined.contains condition

mutual

/-- Adds to `before` what a statement assigns. -/
def Statement.evalAfter (context : Context) (before : Assignments) : Statement → Assignments
  | .assign name value => before.merge name value
  | .conditional condition thenBranch elseBranch =>
    if context.holds condition then thenBranch.evalAfter context before
    else
      match elseBranch with
      | some other => other.evalAfter context before
      | none => before
  | .block statements => evalAllAfter context before statements

/-- Adds to `before` what statements assign, one after the other. -/
def evalAllAfter (context : Context) (before : Assignments) : List Statement → Assignments
  | [] => before
  | statement :: rest => evalAllAfter context (statement.evalAfter context before) rest

end

/-- What a statement assigns. -/
def Statement.eval (context : Context) (statement : Statement) : Assignments :=
  statement.evalAfter context {}

/-- What the configuration in a text assigns. -/
def load (s : String) (context : Context) : Except ParseError Assignments :=
  (Statement.ofString s).map (·.eval context)

end Rebuild.Language
