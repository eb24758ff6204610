import Rebuild.Project.Build
import Rebuild.Project.Init

/-!
# Command line arguments

What the program is asked for. The first argument can name a command; without one, the arguments
are those of a build. Switches have a long name and perhaps a letter, letters can be written
together, and a switch is given at most once. Arguments are read from left to right, and the first
mistake, or the first request for the version or for help, ends the reading.
-/

namespace Rebuild

/-- A switch of a command. -/
structure Switch where
  /-- The name behind two dashes. -/
  long : String
  /-- The letter behind one dash. -/
  short : Option Char := none
  /-- Whether a value follows. -/
  takesValue : Bool := false
deriving DecidableEq, Repr

/-- What ends the reading of arguments early. -/
inductive Stop where
  /-- The arguments are wrong. -/
  | usage
  /-- The version is asked for. -/
  | version
  /-- Help is asked for. -/
  | help
deriving DecidableEq, Repr

/-- What was given to a command. -/
structure Given where
  /-- The switches that were given, with their values. -/
  switches : List (String × String) := []
  /-- The other arguments. -/
  positionals : List String := []
deriving DecidableEq, Repr

namespace Given

/-- Whether a switch was given. -/
def has (given : Given) (long : String) : Bool :=
  (given.switches.lookup long).isSome

/-- The value of a switch. -/
def value? (given : Given) (long : String) : Option String :=
  given.switches.lookup long

/-- Takes down a switch. It may not have been given before, and its value may not be empty. -/
def addSwitch (given : Given) (switch : Switch) (value : String) : Except Stop Given :=
  if given.has switch.long || (switch.takesValue && value.isEmpty) then .error .usage
  else .ok { given with switches := given.switches ++ [(switch.long, value)] }

/-- Takes down an argument without a switch. `accepted` has a test for each that is allowed. -/
def addPositional (given : Given) (accepted : List (String → Bool)) (value : String) :
    Except Stop Given :=
  if !value.isEmpty && (accepted[given.positionals.length]?).any (· value) then
    .ok { given with positionals := given.positionals ++ [value] }
  else .error .usage

/-- The switches that end the reading. -/
def stopOf : Switch → Option Stop
  | { long := "help", .. } => some .help
  | { long := "version", .. } => some .version
  | _ => none

/-- The switches that every command has. -/
def commonSwitches : List Switch :=
  [{ long := "help", short := some 'h' }, { long := "version", short := some 'V' }]

/-- Whether an argument can be the value of the switch before it. -/
def isValue (arg : String) : Bool :=
  arg = "-" || arg.toList.head? ≠ some '-'

/-- Reads letters that are written together. A switch that takes a value takes the remaining
letters, or else asks for the next argument: then the answer says for which switch. -/
def readLetters (switches : List Switch) (given : Given) :
    List Char → Except Stop (Given × Option Switch)
  | [] => .ok (given, none)
  | letter :: rest =>
    match switches.find? (·.short = some letter) with
    | none => .error .usage
    | some switch =>
      match stopOf switch with
      | some stop => .error stop
      | none =>
        if switch.takesValue then
          match rest with
          | [] => .ok (given, some switch)
          | '=' :: value => (given.addSwitch switch (String.ofList value)).map (·, none)
          | value => (given.addSwitch switch (String.ofList value)).map (·, none)
        else
          match given.addSwitch switch "" with
          | .error stop => .error stop
          | .ok given => readLetters switches given rest

/-- Reads a long name, behind which a value may stand. -/
def readLong (switches : List Switch) (given : Given) (cs : List Char) :
    Except Stop (Given × Option Switch) :=
  let name := cs.takeWhile (· ≠ '=')
  let value := cs.drop name.length
  match switches.find? (·.long = String.ofList name) with
  | none => .error .usage
  | some switch =>
    if switch.takesValue then
      match value with
      | [] => .ok (given, some switch)
      | _ :: value => (given.addSwitch switch (String.ofList value)).map (·, none)
    else if !value.isEmpty then .error .usage
    else
      match stopOf switch with
      | some stop => .error stop
      | none => (given.addSwitch switch "").map (·, none)

/-- Reads arguments, of which those that `accepted` tests may stand without a switch. -/
def read (switches : List Switch) (accepted : List (String → Bool)) (given : Given) :
    List String → Except Stop Given
  | [] => .ok given
  | arg :: rest =>
    if arg = "--" then rest.foldlM (addPositional · accepted ·) given
    else if isValue arg then
      match given.addPositional accepted arg with
      | .error stop => .error stop
      | .ok given => read switches accepted given rest
    else
      let letters :=
        match arg.toList with
        | '-' :: '-' :: name => readLong switches given name
        | cs => readLetters switches given cs.tail
      match letters with
      | .error stop => .error stop
      | .ok (given, none) => read switches accepted given rest
      | .ok (given, some switch) =>
        match rest with
        | [] => .error .usage
        | value :: rest =>
          if isValue value then
            match given.addSwitch switch value with
            | .error stop => .error stop
            | .ok given => read switches accepted given rest
          else .error .usage

end Given

/-! ### Commands -/

/-- What a build is asked for on the command line. -/
structure BuildRequest where
  /-- What the build does. -/
  options : BuildOptions := {}
  /-- Whether only the stale sources are reported. -/
  dependenciesOnly : Bool := false
  /-- Whether only the include trees are printed. -/
  printDependencies : Bool := false
  /-- The configuration. -/
  config : Path
  /-- Where the project is exported to afterwards. -/
  exportFolder : Option Path := none
deriving DecidableEq, Repr

/-- What the program is asked for. -/
inductive Request where
  /-- To build the project. -/
  | build (request : BuildRequest)
  /-- To lay out a new project. -/
  | init
  /-- To write a script that builds the project. -/
  | script (output config : Path) (debug : Bool)
  /-- To export the project. -/
  | exportProject (folder : Option Path) (config : Path)
  /-- To complete command lines in a shell. -/
  | completion (shell : String)
deriving DecidableEq, Repr

namespace Request

/-- The switch that names the configuration. -/
def configSwitch : Switch :=
  { long := "config", short := some 'c', takesValue := true }

/-- The switch that names where to export to. -/
def exportSwitch : Switch :=
  { long := "export-dir", takesValue := true }

/-- The switch that asks for debug symbols. -/
def debugSwitch : Switch :=
  { long := "debug", short := some 'g' }

/-- The switches of a build. -/
def buildSwitches : List Switch :=
  [{ long := "verbose", short := some 'v' }, { long := "dependencies", short := some 'd' },
    { long := "full-rebuild", short := some 'f' }, { long := "force-link", short := some 'l' },
    debugSwitch, { long := "echo-commands" }, { long := "show-warnings" },
    { long := "print-dependencies" }, configSwitch, exportSwitch]

/-- The configuration that was named, or the one that is looked for otherwise. -/
def configOf (given : Given) : Path :=
  ⟨(given.value? configSwitch.long).getD defaultConfigName⟩

/-- The request of a build. -/
def buildOf (given : Given) : Request :=
  .build {
    options := {
      verbose := given.has "verbose"
      fullRebuild := given.has "full-rebuild"
      forceLinking := given.has "force-link"
      debug := given.has debugSwitch.long
      echoCommands := given.has "echo-commands"
      showWarnings := given.has "show-warnings" }
    dependenciesOnly := given.has "dependencies"
    printDependencies := given.has "print-dependencies"
    config := configOf given
    exportFolder := (given.value? exportSwitch.long).map Path.mk }

/-- The shells whose command lines can be completed. -/
def shells : List String := ["bash", "elvish", "fish", "powershell", "zsh"]

/-- A command: its switches, the arguments it takes without a switch, and the request that it makes
of what was given. -/
structure Command where
  /-- The name of the command. -/
  name : String
  /-- The switches of the command. -/
  switches : List Switch := []
  /-- What each of the arguments that may stand without a switch has to be. -/
  positionals : List (String → Bool) := []
  /-- The request, if nothing is missing. -/
  request? : Given → Option Request

/-- All commands. -/
def commands : List Command :=
  [{ name := "build", switches := buildSwitches, request? := fun given ↦ some (buildOf given) },
    { name := "init", request? := fun _ ↦ some .init },
    { name := "script"
      switches := [configSwitch, debugSwitch]
      positionals := [fun _ ↦ true]
      request? := fun given ↦ given.positionals.head?.map fun output ↦
        .script ⟨output⟩ (configOf given) (given.has debugSwitch.long) },
    { name := "export"
      switches := [exportSwitch, configSwitch]
      request? := fun given ↦
        some (.exportProject ((given.value? exportSwitch.long).map Path.mk) (configOf given)) },
    { name := "completion"
      positionals := [shells.contains]
      request? := fun given ↦ given.positionals.head?.map .completion }]

/-- The name of the program. -/
def programName : String := "lzb"

/-- The request that arguments make, or what ends their reading and the name that it concerns. -/
def ofArguments (args : List String) : Except (Stop × String) Request :=
  match args with
  | first :: rest =>
    if !Given.isValue first then top
    else if first = "help" then
      match rest with
      | [] => .error (.help, programName)
      | [name] =>
        if name = "help" || commands.any (·.name = name) then .error (.help, programName)
        else .error (.usage, programName)
      | _ => .error (.usage, programName)
    else
      match commands.find? (·.name = first) with
      | none => .error (.usage, programName)
      | some command =>
        let name := programName ++ "-" ++ command.name
        match Given.read (command.switches ++ Given.commonSwitches) command.positionals {} rest with
        | .error stop => .error (stop, name)
        | .ok given =>
          match command.request? given with
          | some request => .ok request
          | none => .error (.usage, name)
  | [] => top
where
  /-- The request of arguments that name no command. -/
  top : Except (Stop × String) Request :=
    match Given.read (buildSwitches ++ Given.commonSwitches) [] {} args with
    | .error stop => .error (stop, programName)
    | .ok given => .ok (buildOf given)

end Request

end Rebuild
