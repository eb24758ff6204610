import Rebuild.Arguments
import Rebuild.Project.Export
import Rebuild.Project.Load
import Rebuild.Project.Script
import Rebuild.Settings

/-!
# The program

What the program does for its arguments: everything it prints, what it does to the files, and the
status with which it ends. A build looks libraries up; a script and an export do not.
-/

namespace Rebuild

/-- What the program finds around it. -/
structure Environment where
  /-- The variables that are set. -/
  bindings : List (String × String) := []
  /-- The number of cores of the machine. -/
  cores : Nat := 1
  /-- Whether the output goes to a terminal. -/
  terminal : Bool := false
  /-- How commands are run. -/
  executor : Executor
  /-- The choices of the runs of tasks. -/
  choices : Nat → Nat

namespace Environment

/-- The home folder of the user. -/
def home (env : Environment) : Option Path :=
  ((env.bindings.lookup "HOME").filter (!·.isEmpty)).map Path.mk

/-- The folder for the settings of all programs. -/
def settingsFolder (env : Environment) : Option Path :=
  match ((env.bindings.lookup "XDG_CONFIG_HOME").map Path.mk).filter Path.isAbsolute with
  | some folder => some folder
  | none => env.home.map (·.joinName ".config")

/-- Whether output is coloured: always where that is forced, never where it is unwanted, and
otherwise on terminals. -/
def coloured (env : Environment) : Bool :=
  if (env.bindings.lookup "CLICOLOR_FORCE").any (· ≠ "0") then true
  else if (env.bindings.lookup "NO_COLOR").isSome then false
  else env.terminal && (env.bindings.lookup "CLICOLOR").all (· ≠ "0")

/-- What conditions of configurations are tested against. -/
def context (env : Environment) : Language.Context :=
  { platform := Platform.linux.name, defined := env.bindings.map (·.1) }

end Environment

namespace Program

/-- The version of the program. -/
def version : String := "0.4.0"

/-- The status of success. -/
def success : Nat := 0

/-- The status of failure. -/
def failure : Nat := 1

/-- The status for arguments that are wrong. -/
def usageFailure : Nat := 2

/-- The user's settings. -/
def settings (env : Environment) : StateM Session (Except SettingsError Settings) := do
  return Settings.load (← get).files env.settingsFolder

/-- The project in the current folder. An error is printed. -/
def loadProject (env : Environment) (config : Path) (installed : Option Path)
    (resolve : String → StateM Session LibraryFlags) : StateM Session (Option Project) := do
  let place : ProjectPlace := { root := (← get).files.current.path, config, installed }
  match ← place.load (return (← get).files) env.context .linux resolve with
  | .ok project => return some project
  | .error e =>
    Session.printFailed e.message
    return none

/-- The project in the current folder, whose libraries are not looked up. -/
def loadPlain (env : Environment) (config : Path) : StateM Session (Option Project) :=
  loadProject env config none fun name ↦ return LibraryFlags.byName name

/-- Builds the project, or reports on it. -/
def build (env : Environment) (request : BuildRequest) : StateM Session Nat := do
  let installed := match ← settings env with
    | .ok settings => some (settings.exportRoot env.home)
    | .error _ => none
  let resolve := LibraryFlags.query (Session.execute env.executor)
  let some project ← loadProject env request.config installed resolve | return failure
  if request.printDependencies then
    project.printIncludeTrees
    return success
  if request.dependenciesOnly then
    project.reportStaleness request.options.fullRebuild
    return success
  match ← project.build request.options env.executor env.choices env.cores with
  | .error e =>
    Session.printFailed e.message
    return failure
  | .ok _ =>
    if let some folder := request.exportFolder then
      let _ ← project.exportTo folder
    return success

/-- Lays out a new project in the current folder. -/
def init : StateM Session Nat := do
  match ← NewProject.create (← get).files.current.path with
  | .ok () => return success
  | .error _ => return failure

/-- Writes a script that builds the project. -/
def writeScript (env : Environment) (output config : Path) (debug : Bool) :
    StateM Session Nat := do
  let some project ← loadPlain env config | return failure
  match ← Session.change (project.writeScript · output debug) with
  | .error _ => return failure
  | .ok () =>
    Session.printDone ("Wrote " ++ output.text)
    return success

/-- Exports the project. -/
def exportProject (env : Environment) (folder : Option Path) (config : Path) :
    StateM Session Nat := do
  let some project ← loadPlain env config | return failure
  let saved ← settings env
  let target : Except SettingsError Path :=
    match folder with
    | some folder => .ok folder
    | none => saved.map (·.exportRoot env.home)
  match target with
  | .error _ => return failure
  | .ok target =>
    let report ← project.exportTo target
    Session.printDone
      (toString report.copied.length ++ " file(s) exported to " ++ target.text)
    return success

/-- Does what is asked for. -/
def answer (env : Environment) : Request → StateM Session Nat
  | .build request => build env request
  | .init => init
  | .script output config debug => writeScript env output config debug
  | .exportProject folder config => exportProject env folder config
  | .completion _ => return success

/-- Runs the program with arguments. The answer is the status with which it ends. -/
def run (env : Environment) (args : List String) : StateM Session Nat := do
  modify fun session ↦ { session with coloured := env.coloured }
  match Request.ofArguments args with
  | .ok request => answer env request
  | .error (.usage, _) => return usageFailure
  | .error (.help, _) => return success
  | .error (.version, name) =>
    Session.printLine (name ++ " " ++ version)
    return success

end Program

end Rebuild
