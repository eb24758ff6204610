import Rebuild.Language.Eval
import Rebuild.Proofs.Assignments

/-!
# The assignments that count

Evaluating a configuration walks through a tree and merges as it goes. Here the walk is separated from the
merging: `Statement.active` is the list of assignments that the walk comes to, and evaluation merges that
list from the first to the last (`Statement.eval_eq_mergeAll`). What `Rebuild.Proofs.Assignments` says about
such a merge is then what a configuration means.
-/

namespace Rebuild.Language

open Assignments (textsOf separator valuesIn)

mutual

/-- The names and texts that a statement assigns, in order: a conditional has those of its first branch if
its condition holds, otherwise those of its second branch if there is one. -/
def Statement.active (context : Context) : Statement → List (String × String)
  | .assign name value => [(name, value)]
  | .conditional condition thenBranch none =>
    if context.holds condition then thenBranch.active context else []
  | .conditional condition thenBranch (some elseBranch) =>
    if context.holds condition then thenBranch.active context else elseBranch.active context
  | .block statements => allActive context statements

/-- The names and texts that statements assign, one statement after the other. -/
def allActive (context : Context) : List Statement → List (String × String)
  | [] => []
  | statement :: rest => statement.active context ++ allActive context rest

end

mutual

theorem Statement.evalAfter_eq_mergeAll (context : Context) (before : Assignments) :
    ∀ statement : Statement,
      statement.evalAfter context before = before.mergeAll (statement.active context)
  | .assign _ _ => by
    rw [Statement.evalAfter, Statement.active, Assignments.mergeAll_singleton]
  | .conditional condition thenBranch none => by
    rw [Statement.evalAfter, Statement.active]
    split
    · exact thenBranch.evalAfter_eq_mergeAll context before
    · rfl
  | .conditional condition thenBranch (some elseBranch) => by
    rw [Statement.evalAfter, Statement.active]
    split
    · exact thenBranch.evalAfter_eq_mergeAll context before
    · exact elseBranch.evalAfter_eq_mergeAll context before
  | .block statements => by
    rw [Statement.evalAfter, Statement.active]
    exact evalAllAfter_eq_mergeAll context before statements

theorem evalAllAfter_eq_mergeAll (context : Context) (before : Assignments) :
    ∀ statements : List Statement,
      evalAllAfter context before statements = before.mergeAll (allActive context statements)
  | [] => by
    rw [evalAllAfter, allActive]
    rfl
  | statement :: rest => by
    rw [evalAllAfter, allActive, Assignments.mergeAll_append,
      statement.evalAfter_eq_mergeAll context before]
    exact evalAllAfter_eq_mergeAll context _ rest

end

/-- A configuration means the merge of the assignments that count. -/
theorem Statement.eval_eq_mergeAll (context : Context) (statement : Statement) :
    statement.eval context = Assignments.mergeAll {} (statement.active context) :=
  statement.evalAfter_eq_mergeAll context {}

theorem allActive_append (context : Context) (first second : List Statement) :
    allActive context (first ++ second) = allActive context first ++ allActive context second := by
  induction first with
  | nil => rfl
  | cons statement first ih => rw [List.cons_append, allActive, allActive, ih, List.append_assoc]

/-- A separator in a value and a repeated assignment are the same. -/
theorem eval_assign_joined (context : Context) (before behind : List Statement)
    (name first second : String) :
    (Statement.block (before ++ .assign name (first ++ separator ++ second) :: behind)).eval context =
      (Statement.block (before ++ .assign name first :: .assign name second :: behind)).eval
        context := by
  simp only [Statement.eval_eq_mergeAll, Statement.active, allActive_append, allActive,
    Assignments.mergeAll_append, Assignments.mergeAll_singleton, Assignments.merge_merge]

/-- A configuration assigns each name that is met, in the order in which the names are met first; a name
has the joined texts of its assignments and the values of each of these texts, in order, and the last value
is the one that counts alone. -/
theorem Statement.eval_of_active (context : Context) (statement : Statement) :
    (statement.eval context).keys = ((statement.active context).map Prod.fst).eraseDups ∧
    (∀ name, (statement.eval context).get? name =
      if textsOf name (statement.active context) = [] then none
      else some (separator.intercalate (textsOf name (statement.active context)))) ∧
    (∀ name, (statement.eval context).values name =
      (textsOf name (statement.active context)).flatMap valuesIn) ∧
    (∀ name, (statement.eval context).last? name =
      ((textsOf name (statement.active context)).flatMap valuesIn).getLast?) ∧
    ∀ before behind name first second,
      (block (before ++ assign name (first ++ separator ++ second) :: behind)).eval context =
        (block (before ++ assign name first :: assign name second :: behind)).eval context := by
  have hvalues (name : String) : (statement.eval context).values name =
      (textsOf name (statement.active context)).flatMap valuesIn := by
    rw [eval_eq_mergeAll]
    exact Assignments.values_mergeAll _ name
  refine ⟨?_, fun name ↦ ?_, hvalues, fun name ↦ ?_, eval_assign_joined context⟩
  · rw [eval_eq_mergeAll]
    exact Assignments.keys_mergeAll _
  · rw [eval_eq_mergeAll]
    exact Assignments.get?_mergeAll _ name
  · rw [Assignments.last?, hvalues]

end Rebuild.Language
