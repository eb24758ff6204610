import Rebuild.Shell.Invocation
import Rebuild.Shell.Switch

/-!
# Commands on names

What names mean as commands: words of the language, functions, commands of the shell, programs.
-/

namespace Rebuild.Shell

/-- Commands of the shell beside the special ones. -/
def regularCommands : List String :=
  ["[", "alias", "bg", "cd", "chdir", "command", "echo", "false", "fg", "getopts", "hash", "jobs",
    "kill", "printf", "pwd", "read", "test", "true", "type", "ulimit", "umask", "unalias", "wait"]

namespace Action

/-! ### Commands -/

/-- What a name means as a command: a short and a long description. -/
def describe? (name : String) : Action (Option (String × String)) := do
  let st ← get
  let folders := Invocation.foldersIn ((st.valueOf? "PATH").getD "")
  if reservedWords.contains name then return some (name, "a shell keyword")
  else if (st.functions.lookup name).isSome then return some (name, "a shell function")
  else if specialCommands.contains name then return some (name, "a special shell builtin")
  else if regularCommands.contains name then return some (name, "a shell builtin")
  else return (Invocation.pathOf? st.files folders name).map fun path ↦ (path, path)

/-- Prints what a name means, at length or not. -/
def describe (atLength : Bool) (name : String) : Action Nat := do
  match ← describe? name with
  | some (short, long) =>
    printLine (if atLength then name ++ " is " ++ long else short)
    return 0
  | none =>
    if atLength then printLine (name ++ ": not found")
    return 127

/-- Prints what names mean. -/
def describeAll (args : List String) : Action Nat := do
  let statuses ← (← withoutSwitches args).mapM (describe true)
  return statuses.foldl (fun status next ↦ if next = 0 then status else next) 0

/-- Prints what the first name means, as a switch asks for; without one there is nothing to do. -/
def describeFirst (args : List String) : Action Nat := do
  let (found, names) ← switches ['p', 'v', 'V'] [] args
  match names with
  | [] => return 0
  | name :: _ =>
    if found.any (·.1 = 'V') then describe true name
    else if found.any (·.1 = 'v') then describe false name
    else return 0

/-- Looks for commands. -/
def lookUp (args : List String) : Action Nat := do
  let (_, names) ← switches ['r', 'v'] [] args
  let statuses ← names.mapM fun name ↦ do
    if (← describe? name).isSome then return 0
    else
      modify (·.complain (name ++ ": not found"))
      return 1
  return statuses.foldl max 0

/-- Says that a shorthand for a command is not known, as none is. -/
def unknownAliases (command : String) (names : List String) : Action Nat := do
  names.forM fun name ↦
    modify fun st ↦ st.write 2 (command ++ ": " ++ name ++ " not found\n").toList
  return if names.isEmpty then 0 else 1

end Action

end Rebuild.Shell
