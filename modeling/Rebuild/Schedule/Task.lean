import Rebuild.Command.Line
import Rebuild.FileStore.Basic

/-!
# Compile tasks

A task is one source that has to be compiled. What became of it is a *completion*, and a *report*
sums completions up. Nothing in a report depends on the order in which completions are recorded.
-/

namespace Rebuild

/-- What a build did, from nothing to the worst. -/
inductive Status where
  /-- There was nothing to do. -/
  | noChange
  /-- Something was built. -/
  | changed
  /-- Something could not be built. -/
  | failed
deriving DecidableEq, Repr

namespace Status

/-- How bad a status is. -/
def rank : Status → Nat
  | noChange => 0
  | changed => 1
  | failed => 2

/-- The worse of two statuses. -/
def widen (a b : Status) : Status :=
  if a.rank < b.rank then b else a

end Status

/-- A source that has to be compiled. -/
structure Task where
  /-- The source. -/
  source : Path
  /-- The name by which it is spoken of. -/
  label : String
  /-- Where its object goes. -/
  object : Path
  /-- The command that makes the object. -/
  command : CommandLine
deriving DecidableEq, Repr

/-- What became of a task. -/
structure Completion where
  /-- Whether the object was made. -/
  succeeded : Bool
  /-- Everything that the command printed. -/
  output : String
  /-- The time of the object, if it was made and is there. -/
  objectTime : Option Time
deriving DecidableEq, Repr

/-- The later of two times, where there are any. -/
def latest : Option Time → Option Time → Option Time
  | none, b => b
  | a, none => a
  | some a, some b => some (max a b)

/-- What became of several tasks. -/
structure Report where
  /-- The worst that happened. -/
  status : Status := .noChange
  /-- The latest time of the objects that were made. -/
  latestObject : Option Time := none
  /-- How many tasks succeeded. -/
  succeeded : Nat := 0
  /-- How many tasks failed. -/
  failed : Nat := 0
deriving DecidableEq, Repr

/-- Takes a completion into account. -/
def Report.record (report : Report) (done : Completion) : Report :=
  if done.succeeded then
    { status := report.status.widen .changed
      latestObject := latest report.latestObject done.objectTime
      succeeded := report.succeeded + 1
      failed := report.failed }
  else
    { report with status := report.status.widen .failed, failed := report.failed + 1 }

end Rebuild
