import Rebuild.Shell.Builtin.Flow
import Rebuild.Shell.Builtin.Folder
import Rebuild.Shell.Builtin.Input
import Rebuild.Shell.Builtin.Name
import Rebuild.Shell.Builtin.Process
import Rebuild.Shell.Condition

/-!
# Commands of the shell

The table of the commands that a shell knows itself, apart from those that run scripts. Each takes
its arguments and answers with its status.
-/

namespace Rebuild.Shell

/-- Commands that give variables values. -/
def declaringCommands : List String := ["export", "local", "readonly"]

/-- Whether a name is that of a command of the shell. -/
def isBuiltin (name : String) : Bool :=
  specialCommands.contains name || regularCommands.contains name

/-- What a command of the shell does, if the shell knows it. -/
def builtin? (name : String) : Option (List String → Action Nat) :=
  match name with
  | ":" | "true" => some fun _ ↦ return 0
  | "false" => some fun _ ↦ return 1
  | "[" => some fun args ↦ do
    if args.getLast? = some "]" then condition args.dropLast
    else Action.fail ConditionFault.missingBracket.message
  | "alias" => some fun args ↦
    Action.unknownAliases "alias" (args.filter fun arg ↦ !arg.toList.contains '=')
  | "bg" | "fg" => some fun _ ↦ Action.fail "No current job"
  | "break" => some (Action.leaveLoops .broken)
  | "cd" | "chdir" => some Action.changeFolder
  | "command" => some Action.describeFirst
  | "continue" => some (Action.leaveLoops .continued)
  | "echo" => some fun args ↦ do
    Action.print (echo args)
    return 0
  | "exit" => some Action.endShell
  | "export" => some (Action.declareAll name (·.exported) fun v ↦ { v with exported := true })
  | "getopts" => some Action.nextOption
  | "hash" => some Action.lookUp
  | "jobs" => some fun _ ↦ return 0
  | "kill" => some Action.sendSignal
  | "local" => some Action.declareLocal
  | "printf" => some Action.printFormat
  | "pwd" => some Action.printFolder
  | "read" => some Action.readFields
  | "readonly" => some (Action.declareAll name (·.readOnly) fun v ↦ { v with readOnly := true })
  | "return" => some Action.endScript
  | "set" => some Action.setArguments
  | "shift" => some Action.dropArguments
  | "test" => some condition
  | "times" => some fun _ ↦ do
    Action.printLine "0m0.000000s 0m0.000000s\n0m0.000000s 0m0.000000s"
    return 0
  | "trap" => some Action.setTraps
  | "type" => some Action.describeAll
  | "ulimit" => some fun _ ↦ do
    Action.printLine "unlimited"
    return 0
  | "umask" => some Action.fileMask
  | "unalias" => some fun args ↦
    Action.unknownAliases "unalias" (args.filter (· ≠ "-a"))
  | "unset" => some Action.unsetAll
  | "wait" => some Action.waitForAll
  | _ => none
where
  /-- Decides a condition. -/
  condition (args : List String) : Action Nat := do
    match Condition.holds (← get).files args with
    | .ok holds => return if holds then 0 else 1
    | .error fault => Action.fail fault.message

end Rebuild.Shell
