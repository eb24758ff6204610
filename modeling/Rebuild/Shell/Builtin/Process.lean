import Rebuild.Shell.Builtin.Variable
import Rebuild.Shell.Signal

/-!
# Commands on processes

Sending signals, setting commands for them, and waiting. A shell knows itself and what it has run in
the background, which has always ended.
-/

namespace Rebuild.Shell

namespace Action

/-! ### Signals and processes -/

/-- What becomes of the shell when it gets a signal. -/
def receive (signal : Signal) : Action Unit := do
  let st ← get
  match if signal = Signal.kill then none else st.traps.lookup signal with
  | some commands =>
    unless commands.isEmpty do
      modify fun st ↦ { st with pending := st.pending ++ [signal] }
  | none => unless Signal.isHarmless signal do throw (.killed signal)

/-- Sends a signal to processes, of which there are the shell itself and those it has started. -/
def sendTo (signal : Signal) (processes : List String) : Action Nat := do
  let statuses ← processes.mapM fun process ↦ do
    let st ← get
    if process.toList.head? = some '%' then
      if st.jobs.isEmpty then fail ("No such job: " ++ process)
      return 0
    let (isGroup, digits) :=
      match process.toList with
      | '-' :: cs => (true, String.ofList cs)
      | _ => (false, process)
    let n ← number digits
    if n = State.processId || (n = 0 && !isGroup) then
      receive signal
      return 0
    else if st.jobs.any (·.1 = n) then return 0
    else
      modify (·.complain "No such process\n")
      return 1
  return statuses.foldl max 0

/-- Lists the names of signals, or that of one. -/
def listSignals (args : List String) : Action Nat := do
  match args with
  | [] =>
    print ("0" :: Signal.names.tail |>.flatMap fun name ↦ name.toList ++ ['\n'])
    return 0
  | arg :: _ =>
    let n ← number arg
    let n := if 128 < n then n - 128 else n
    if 0 < n && n < Signal.bound then
      printLine (Signal.name n)
      return 0
    else fail ("invalid signal number or exit status: " ++ arg)

/-- What is said of a signal that has no process to go to. -/
def killUsage : String :=
  "Usage: kill [-s sigspec | -signum | -sigspec] [pid | job]... or\nkill -l [exitstatus]"

/-- Sends signals. -/
def sendSignal (args : List String) : Action Nat := do
  let send (signal : Signal) (processes : List String) : Action Nat :=
    if processes.isEmpty then fail killUsage else sendTo signal processes
  match args with
  | [] => fail killUsage
  | first :: rest =>
    match first.toList with
    | '-' :: name =>
      match Signal.ofText? 1 (String.ofList name) with
      | some signal => send signal rest
      | none =>
        let (found, processes) ← switches ['l'] ['s'] args
        if found.any (·.1 = 'l') then listSignals processes
        else
          match found.getLast? with
          | some (_, name) =>
            match Signal.ofText? 1 name with
            | some signal => send signal processes
            | none => fail ("invalid signal number or name: " ++ name)
          | none => send Signal.terminate processes
    | _ => send Signal.terminate args

/-- Sets or lists the commands for signals. -/
def setTraps (args : List String) : Action Nat := do
  let names ← withoutSwitches args
  match names with
  | [] =>
    let traps := (← get).traps.mergeSort fun a b ↦ a.1 ≤ b.1
    print (traps.flatMap fun (signal, commands) ↦
      ("trap -- " ++ inQuotes commands ++ " " ++ Signal.name signal ++ "\n").toList)
    return 0
  | first :: rest =>
    let (commands?, names) :=
      if rest.isEmpty || (Signal.ofText? 0 first).isSome then (none, names)
      else (if first = "-" then none else some first, rest)
    setAll commands? names
where
  /-- Sets the commands for the signals with the given names. -/
  setAll (commands? : Option String) : List String → Action Nat
    | [] => return 0
    | name :: rest => do
      match Signal.ofText? 0 name with
      | none =>
        modify fun st ↦ st.write 2 ("trap: " ++ name ++ ": bad trap\n").toList
        return 1
      | some signal =>
        modify fun st ↦
          let others := st.traps.filter (·.1 ≠ signal)
          { st with traps := commands?.elim others fun commands ↦ (signal, commands) :: others }
        setAll commands? rest

/-- The status with which a process in the background has ended. -/
def waitFor (process : String) : Action Nat := do
  let st ← get
  match process.toList with
  | '%' :: cs =>
    let n ← number (String.ofList cs)
    match st.jobs.reverse[n - 1]? with
    | some (_, status) => return status
    | none => fail ("No such job: " ++ process)
  | _ =>
    let n ← number process
    return (st.jobs.lookup n).getD 127

/-- Waits for processes in the background, which have all ended. -/
def waitForAll (args : List String) : Action Nat := do
  let statuses ← (← withoutSwitches args).mapM waitFor
  return statuses.getLast?.getD 0

end Action

end Rebuild.Shell
