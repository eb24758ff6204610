import Rebuild.Shell.Child
import Rebuild.Shell.Opening

/-!
# Running scripts

What each command of a script does. `step` runs a command, and the commands in it by a runner that
is given; `run` puts steps together for scripts up to a depth. A script whose commands stand in one
another more deeply, or call one another for ever, is killed, and so is a loop without end.
-/

namespace Rebuild.Shell

namespace Action

/-! ### Simple commands -/

/-- Whether a command takes assignments among its arguments. -/
def takesAssignments (st : State) (found : List String) : Bool :=
  (found.dropWhile (· = "command")).head?.any fun name ↦
    declaringCommands.contains name && (st.functions.lookup name).isNone

/-- The fields that the words of a command give, behind those that have been found. -/
def commandFields (capture : Capture) (found : List String) :
    List (Word Script) → Action (List String)
  | [] => return found
  | word :: rest => do
    let fields ←
      match if takesAssignments (← get) found then word.assignment? else none with
      | some (name, value) => do
        let text ← textOfWord capture .parts value
        pure [name ++ "=" ++ text]
      | none => fieldsOf capture word
    commandFields capture (found ++ fields) rest

/-- What runs a command. -/
inductive Handler where
  /-- Nothing: there are assignments and redirections alone. -/
  | nothing
  /-- A function. -/
  | function (body : Script) (args : List String)
  /-- The shell itself. -/
  | builtin (name : String) (args : List String)
  /-- A program, which can be looked for in the usual folders. -/
  | program (name : String) (args : List String) (usual : Bool)

/-- A command behind `command` and its switches, and whether it is looked for in the usual folders.
Some switches ask for something else than to run a command. -/
def behindSwitches : List String → Option (Bool × List String)
  | [] => none
  | arg :: rest =>
    match arg.toList with
    | ['-', '-'] => if rest.isEmpty then none else some (false, rest)
    | '-' :: c :: cs =>
      if (c :: cs).all (· = 'p') then (behindSwitches rest).map fun (_, found) ↦ (true, found)
      else none
    | _ => some (false, arg :: rest)

/-- What runs a command. Functions are passed over if `direct` says so; `n` bounds how often a
command can stand behind `command`. -/
def handlerOf (st : State) (direct usual : Bool) : (n : Nat) → List String → Handler
  | _, [] => .nothing
  | n, name :: args =>
    match if direct then none else st.functions.lookup name, n, behindSwitches args with
    | some body, _, _ => .function body args
    | none, n + 1, some (usual', found) =>
      if name = "command" then handlerOf st true (usual || usual') n found
      else if isBuiltin name then .builtin name args
      else .program name args usual
    | none, _, _ => if isBuiltin name then .builtin name args else .program name args usual

/-- Gives variables values before a command. Those for a command alone are kept as they were, and
programs know them. The answer is what is traced. -/
def assignBefore (capture : Capture) (forCommand exports : Bool) :
    List (String × Word Script) → Action (List String)
  | [] => return []
  | (name, word) :: rest => do
    let value ← textOfWord capture .parts word
    if forCommand then modify (·.keepVariable name)
    assign name value
    if forCommand || exports then declare (fun v ↦ { v with exported := true }) name
    return (name ++ "=" ++ value) :: (← assignBefore capture forCommand exports rest)

/-- Prints a command where messages went before its redirections. -/
def trace (before : State) (texts : List String) : Action Unit := do
  let st ← get
  if st.isOn 'x' && !texts.isEmpty then
    let line := (st.valueOf? "PS4").getD "" ++ String.intercalate " " texts ++ "\n"
    match before.descriptors.lookup 2 with
    | some place => set (st.writeAt place line.toList)
    | none => return ()

/-- How many functions can be running. -/
def maxCalls : Nat := 1000

/-- Calls a function. It has arguments of its own, and gives variables back that it kept. -/
def callFunction (again : Runner) (tested : Bool) (body : Script) (args : List String) :
    Action Unit := do
  let outer ← get
  if maxCalls ≤ outer.calls then
    fail ("Maximum function recursion depth (" ++ toString maxCalls ++ ") reached")
  set { outer with
    args
    calls := outer.calls + 1
    saved := [] :: outer.saved
    loops := 0
    optionIndex := 1
    optionOffset? := none }
  let result ← observe (again tested body)
  modify fun st ↦
    { st.restoreVariables with
      args := outer.args
      calls := outer.calls
      loops := outer.loops
      optionIndex := outer.optionIndex
      optionOffset? := outer.optionOffset? }
  match result with
  | .ok () | .error .returned => return ()
  | .error interruption => throw interruption

/-- Finds the program that a command names. -/
def findProgram (name : String) (args : List String) (usual : Bool) : Action Invocation := do
  let st ← get
  let list := if usual then "/bin" else (st.valueOf? "PATH").getD ""
  match Invocation.findInShell st.files (Invocation.foldersIn list) name args with
  | .ok invocation => return invocation
  | .error e =>
    let isMissing := e = .notFound || e = .notAFolder
    modify (·.complain (name ++ ": " ++ if isMissing then "not found" else e.reason))
    let isNowhere := isMissing || e = .tooManyLinks || e = .nameTooLong
    let isUnusable := e = .permissionDenied && !name.toList.contains '/'
    throw (.failed (if isNowhere || isUnusable then 127 else 126))

/-- Runs a program and says if it was killed. -/
def runProgram (again : Runner) (name : String) (args : List String) (usual : Bool) :
    Action Unit := do
  catchFailure do
    let invocation ← findProgram name args usual
    match ← observe (startShell again invocation) with
    | .ok status => setStatus status
    | .error (.killed signal) =>
      match Signal.description? signal with
      | some text => modify fun st ↦ st.write 2 (text ++ "\n").toList
      | none => pure ()
      setStatus (128 + signal)
    | .error interruption => throw interruption

/-- Runs a program in the place of the shell. -/
def replaceShell (again : Runner) (args : List String) : Action Nat := do
  match ← withoutSwitches args with
  | [] => return 0
  | name :: args =>
    match ← observe (findProgram name args false) with
    | .ok invocation =>
      modify fun st ↦ { st with traps := st.ignored }
      throw (.exited (← startShell again invocation))
    | .error (.failed status) => throw (.exited status)
    | .error interruption => throw interruption

/-- Runs the script in a file as if it stood here. -/
def runHere (again : Runner) (args : List String) : Action Nat := do
  match ← withoutSwitches args with
  | [] => return 0
  | name :: _ =>
    let st ← get
    let folders := Invocation.foldersIn ((st.valueOf? "PATH").getD "")
    let isFile (path : String) : Bool :=
      (st.files.stat ⟨pathText path⟩).toOption.any Entry.isFile
    let path? :=
      if name.toList.contains '/' then some name
      else (Invocation.pathsOf folders name).find? isFile
    match path? with
    | none => fail (name ++ ": not found")
    | some path =>
      match st.files.readBytes ⟨pathText path⟩ with
      | .error .isAFolder => return 0
      | .error e =>
        let reason := if e = .notFound || e = .notAFolder then "No such file" else e.reason
        fail ("cannot open " ++ path ++ ": " ++ reason)
      | .ok content =>
        modify fun st ↦ { st with command? := some path }
        match ← observe (runText again false (ofRawBytes content.toList)) with
        | .ok status => return status
        | .error .returned => return (← get).status
        | .error interruption => throw interruption

/-- Runs a command of the shell, of which messages speak. What is wrong ends the shell if the
command is a special one. -/
def runBuiltin (again : Runner) (tested special : Bool) (name : String) (args : List String) :
    Action Unit := do
  let body : Action Nat :=
    match name with
    | "eval" => runText again tested (String.intercalate " " args).toList
    | "." => runHere again args
    | "exec" => replaceShell again args
    | name => ((builtin? name).map (· args)).getD (return 0)
  let outer := (← get).command?
  modify fun st ↦ { st with command? := some name }
  let whole : Action Unit := andAfterwards (do setStatus (← body)) fun st ↦
    { st with command? := outer }
  if special then whole else catchFailure whole

/-- Runs a simple command: its words are expanded, then the operands of its redirections; streams
are opened, variables are given values, and the command is run. -/
def runSimple (again : Runner) (tested : Bool) (assignments : List (String × Word Script))
    (words : List (Word Script)) (redirections : List (Redirection Script)) : Action Unit := do
  let capture := capture again
  let fields ← commandFields capture [] words
  let openings ← openingsOf capture redirections
  let before ← get
  let handler := handlerOf before false false fields.length fields
  let special := fields.head?.any fun name ↦
    specialCommands.contains name && (before.functions.lookup name).isNone
  let restore := State.close openings before
  match ← observe (openAll capture true openings) with
  | .error (.failed status) =>
    modify restore
    if special then throw (.failed status) else setStatus status
  | .error interruption => throw interruption
  | .ok () =>
    match handler with
    | .nothing =>
      let texts ← andAfterwards (assignBefore capture false false assignments) restore
      trace before texts
      modify fun st ↦ { st with status := st.wordStatus }
    | .builtin "exec" [] =>
      trace before ((← assignBefore capture false false assignments) ++ fields)
      setStatus 0
    | handler =>
      let exports := special && fields.head? = some "exec"
      let work : Action Unit := do
        let texts ← assignBefore capture (!special) exports assignments
        trace before (texts ++ fields)
        match handler with
        | .function body args => callFunction again tested body args
        | .builtin name args => runBuiltin again tested special name args
        | .program name args usual => runProgram again name args usual
        | .nothing => return ()
      let inScope : Action Unit :=
        if special || assignments.isEmpty then work
        else do
          modify fun st ↦ { st with saved := [] :: st.saved }
          andAfterwards work State.restoreVariables
      andAfterwards inScope restore

/-! ### Pipelines -/

/-- The commands of a pipeline. -/
def elements : Script → List Script
  | .piped first second => first :: elements second
  | script => [script]

/-- The state of a command that reads what the one before has printed. -/
def reading (input? : Option (List Char)) (st : State) : State :=
  match input? with
  | some cs => st.openAs 0 (.unread cs)
  | none => st

/-- Runs the commands of a pipeline, each in a shell of its own, one after the other. -/
def runPiped (again : Runner) (tested : Bool) (input? : Option (List Char)) :
    List Script → Action Unit
  | [] => return ()
  | [last] => do setStatus (← inSubshell again (reading input?) (again tested last))
  | first :: rest => do
    let place := (reading input? (← get)).streams.size
    let _ ← inSubshell again (fun st ↦ (reading input? st).openAs 1 (.collected []))
      (again tested first)
    runPiped again tested (some ((← get).collectedAt place)) rest

/-! ### Loops -/

/-- How a part of a round of a loop ends. -/
inductive RoundEnd where
  /-- The round goes on. -/
  | reached
  /-- The next round begins. -/
  | skipped
  /-- The loop is left. -/
  | left
deriving DecidableEq, Repr

/-- Runs a part of a round of a loop. -/
def inRound (part : Action Unit) : Action RoundEnd := do
  match ← observe part with
  | .ok () => return .reached
  | .error (.broken loops) => if loops ≤ 1 then return .left else throw (.broken (loops - 1))
  | .error (.continued loops) =>
    if loops ≤ 1 then return .skipped else throw (.continued (loops - 1))
  | .error interruption => throw interruption

/-- Runs rounds for as long as the status of the condition says so. The answer is the status of the
last round. -/
def rounds (condition body : Action Unit) (goesOn : Nat → Bool) :
    (limit : Nat) → (status : Nat) → Action Nat
  | 0, _ => throw (.killed Signal.kill)
  | limit + 1, status => do
    match ← inRound condition with
    | .left => return status
    | .skipped => rounds condition body goesOn limit status
    | .reached =>
      if goesOn (← get).status then
        match ← inRound body with
        | .left => return (← get).status
        | _ => rounds condition body goesOn limit (← get).status
      else return status

/-- Runs a round for each value of a variable. -/
def roundsFor (name : String) (body : Action Unit) (status : Nat) : List String → Action Nat
  | [] => return status
  | value :: rest => do
    assign name value
    match ← inRound body with
    | .left => return (← get).status
    | _ => roundsFor name body (← get).status rest

/-- Runs the rounds of a loop. -/
def inLoop (body : Action Nat) : Action Unit := do
  let loops := (← get).loops
  modify fun st ↦ { st with loops := loops + 1 }
  setStatus (← andAfterwards body fun st ↦ { st with loops })

/-- The number of rounds of a loop that is taken for one without end. -/
def maxRounds : Nat := 1000000

/-! ### Selections -/

/-- Whether one of some patterns fits a text. -/
def fitsOne (capture : Capture) (text : List Char) : List (Word Script) → Action Bool
  | [] => return false
  | pattern :: rest => do
    if Wildcard.fit (← glyphsOfWord capture .first pattern) text then return true
    else fitsOne capture text rest

/-- The first branch of which a pattern fits a text. -/
def branchFor (capture : Capture) (text : List Char) :
    List (List (Word Script) × Script) → Action Script
  | [] => return .empty
  | (patterns, body) :: rest => do
    if ← fitsOne capture text patterns then return body else branchFor capture text rest

/-! ### Commands -/

/-- Runs a script with redirections. -/
def runRedirected (again : Runner) (tested : Bool) (body : Script)
    (redirections : List (Redirection Script)) : Action Unit := do
  let capture := capture again
  let openings ← openingsOf capture redirections
  let before ← get
  let whole : Action Unit := do
    match ← observe (openAll capture true openings) with
    | .ok () => again tested body
    | .error (.failed status) => setStatus status
    | .error interruption => throw interruption
  andAfterwards whole (State.close openings before)

/-- Ends the shell if a command has failed and an option asks for that. -/
def checkFailure (tested : Bool) : Action Unit := do
  let st ← get
  if st.isOn 'e' && !tested && st.status ≠ 0 then throw (.exited st.status)

/-- Speaks of a line in messages from here on. -/
def onLine (line : Nat) : Action Unit :=
  modify fun st ↦ { st with line }

/-- Runs a command, of which the commands inside are run by `again`. -/
def step (again : Runner) (tested : Bool) (script : Script) : Action Unit := do
  if (← get).isOn 'n' then return ()
  match script with
  | .empty => return ()
  | .simple line assignments words redirections =>
    modify fun st ↦ { st with line, wordStatus := 0 }
    runSimple again tested assignments words redirections
    runPending again
    checkFailure tested
  | .sequence first second =>
    again tested first
    again tested second
  | .background body =>
    let status ← inSubshell again (·.openAs 0 .nothing) (again tested body)
    modify fun st ↦
      { st with jobs := (State.processId + 1 + st.jobs.length, status) :: st.jobs, status := 0 }
  | .andThen first second =>
    again true first
    if (← get).status = 0 then again tested second
  | .orElse first second =>
    again true first
    if (← get).status ≠ 0 then again tested second
  | .piped first second =>
    runPiped again tested none (first :: elements second)
    checkFailure tested
  | .negated body =>
    again true body
    setStatus (if (← get).status = 0 then 1 else 0)
  | .conditional condition thenBody elseBody =>
    again true condition
    if (← get).status = 0 then again tested thenBody
    else
      match elseBody with
      | .empty => setStatus 0
      | elseBody => again tested elseBody
  | .loop condition body whileSuccess =>
    inLoop (rounds (again true condition) (again tested body)
      (fun status ↦ (status = 0) = whileSuccess) maxRounds 0)
  | .forEach line name words body =>
    onLine line
    let values ← allFieldsOf (capture again) words
    inLoop (roundsFor name (again tested body) 0 values)
  | .select line word branches =>
    onLine line
    let text ← textOfWord (capture again) .first word
    match ← branchFor (capture again) text.toList branches with
    | .empty => setStatus 0
    | body => again tested body
  | .function name body =>
    modify fun st ↦
      { st with functions := (name, body) :: st.functions.filter (·.1 ≠ name), status := 0 }
  | .redirected line body redirections =>
    onLine line
    runRedirected again tested body redirections
  | .subshell line body redirections =>
    onLine line
    let openings ← openingsOf (capture again) redirections
    setStatus (← inSubshell again id do
      openAll (capture again) false openings
      again tested body)
    checkFailure tested

end Action

/-- Runs a script whose commands stand in one another, and call one another, up to a depth. -/
def run : (depth : Nat) → Runner
  | 0 => fun _ _ ↦ throw (.killed Signal.segmentationFault)
  | depth + 1 => Action.step (run depth)

end Rebuild.Shell
