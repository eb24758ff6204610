import Rebuild.Shell.Builtin

/-!
# Shells in shells

A script is run by something that is given, a `Runner`, since scripts run others in turn. A shell
inside another one has a state of its own; only the files and the open streams are shared. It begins
as the outer one is, or afresh as a program does. At its end it runs the commands that were set for
that.
-/

namespace Rebuild.Shell

/-- What runs a script. That its failure is `tested` keeps it from ending the shell. -/
abbrev Runner := (tested : Bool) → Script → Action Unit

namespace State

/-- The state of a shell behind one that ran inside it. -/
def behind (outer inner : State) : State :=
  { outer with
    files := { inner.files with current := outer.files.current }
    streams := inner.streams }

/-- The commands that are still set for signals in a shell inside: none, but what was to be ignored
still is. -/
def ignored (st : State) : List (Nat × String) :=
  st.traps.filter fun (_, commands) ↦ commands.isEmpty

/-- The variables of a shell that is started in an environment. -/
def variablesOf (environment : List (String × String)) (folder : String) :
    List (String × Variable) :=
  let given : List (String × Variable) := environment.filterMap fun (name, value) ↦
    if isName name.toList then some (name, { value? := some value, exported := true }) else none
  let own (name value : String) : String × Variable := (name, { value? := some value })
  let present : List (String × Variable) :=
    [("PWD", { value? := some folder, exported := true }),
      own "IFS" (String.ofList defaultSeparators), own "OPTIND" "1"]
  let missing := [own "PS1" "$ ", own "PS2" "> ", own "PS4" "+ ", own "PATH" "/bin"]
  let known := present ++ given.filter fun (name, _) ↦ (present.lookup name).isNone
  known ++ missing.filter fun (name, _) ↦ (known.lookup name).isNone

/-- The state of a shell that another one starts afresh. -/
def started (outer : State) (name : String) : State :=
  let folder := bytesOf outer.files.current.path.text
  { files := outer.files
    streams := outer.streams
    descriptors := outer.descriptors
    vars := variablesOf outer.environment folder
    name, folder
    line := 0
    traps := outer.ignored
    mask := outer.mask }

end State

namespace Action

/-! ### Programs -/

/-- Runs lines of commands. The answer is the status of the last command. -/
def runLines (again : Runner) (tested : Bool) (status : Nat) : List Script → Action Nat
  | [] => return status
  | .empty :: rest => runLines again tested status rest
  | command :: rest => do
    again tested command
    runLines again tested (← get).status rest

/-- Runs a text up to its end or to where it is malformed. -/
def runText (again : Runner) (tested : Bool) (text : List Char) : Action Nat := do
  let program := Program.ofText text
  let status ← runLines again tested 0 program.commands
  match program.error? with
  | none => return status
  | some e =>
    modify fun st ↦ { st with line := e.line }
    fail ("Syntax error: " ++ e.fault.message)

/-- Runs the commands that were set for signals which have come. -/
def runPending (again : Runner) : Action Unit := do
  let st ← get
  unless st.pending.isEmpty do
    set { st with pending := [], held? := some st.status }
    st.pending.forM fun signal ↦ do
      match st.traps.lookup signal with
      | some commands =>
        let _ ← runText again false commands.toList
      | none => return ()
    modify fun after ↦ { after with status := st.status, held? := st.held? }

/-! ### Ends -/

/-- The status with which a shell ends. One that is killed has none. -/
def statusOf (ending : Except Interruption Unit) : Action Nat := do
  match ending with
  | .error (.failed status) | .error (.exited status) => return status
  | .error (.killed signal) => throw (.killed signal)
  | _ => return (← get).status

/-- Runs something as all that a shell does. The answer is its status, which is a byte. -/
def runToEnd (again : Runner) (body : Action Unit) : Action Nat := do
  let status ← statusOf (← observe body)
  let st ← get
  match st.traps.lookup 0 with
  | none => return status % 256
  | some commands =>
    set { st with traps := st.traps.filter (·.1 ≠ 0), status, held? := some status }
    match ← observe (runText again false commands.toList) with
    | .error (.failed status) | .error (.exited status) => return status % 256
    | .error (.killed signal) => throw (.killed signal)
    | _ => return status % 256

/-- Runs something in a state of its own, and comes back to the state from before. -/
def apart (change : State → State) (body : Action Nat) : Action Nat := do
  let outer ← get
  modify change
  andAfterwards body outer.behind

/-- Runs something in a shell inside, whose state begins as given. -/
def inSubshell (again : Runner) (change : State → State) (body : Action Unit) : Action Nat :=
  apart (fun st ↦ change { st with traps := st.ignored }) (runToEnd again body)

/-- What a script inside a word prints, without line ends behind it. -/
def capture (again : Runner) (script : Script) : Action (List Char) := do
  match script with
  | .empty => return []
  | script =>
    let place := (← get).streams.size
    let status ← inSubshell again (·.openAs 1 (.collected [])) (again false script)
    modify fun st ↦ { st with wordStatus := status }
    let printed := ((← get).collectedAt place).filter (· ≠ '\x00')
    return (printed.reverse.dropWhile (· = '\n')).reverse

/-! ### Programs that are started -/

/-- Runs the script in a file, for a shell that was started with its path. -/
def runFile (again : Runner) (path : String) : Action Unit := do
  match (← get).files.readBytes ⟨pathText path⟩ with
  | .ok content =>
    modify fun st ↦ { st with name := path }
    let _ ← runText again false (ofRawBytes content.toList)
  | .error .isAFolder => return ()
  | .error e =>
    let reason := if e = .notFound || e = .notAFolder then "No such file" else e.reason
    fail ("cannot open " ++ path ++ ": " ++ reason)

/-- Runs what can be read as a script. -/
def runInput (again : Runner) : Action Unit := do
  let (text, st) := (← get).readAll 0
  set st
  let _ ← runText again false text

/-- What a shell does that is started with arguments. -/
def runArguments (again : Runner) (args : List String) : Action Unit := do
  let found ← options true args
  if found.asksScript then
    match found.rest with
    | [] => fail "-c requires an argument"
    | text :: rest =>
      modify fun st ↦ { st with name := rest.headD st.name, args := rest.tail }
      let _ ← runText again false text.toList
      if (← get).isOn 's' then runInput again
  else
    match found.rest, (← get).isOn 's' with
    | path :: rest, false =>
      modify fun st ↦ { st with args := rest }
      runFile again path
    | rest, _ =>
      turn 's' true
      modify fun st ↦ { st with args := rest }
      runInput again

/-- Starts a shell. The answer is its status. -/
def startShell (again : Runner) (invocation : Invocation) : Action Nat :=
  apart (·.started invocation.name) (runToEnd again (runArguments again invocation.args))

end Action

end Rebuild.Shell
