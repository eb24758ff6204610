import Rebuild.FileStore.Operations
import Rebuild.Shell.Field
import Rebuild.Shell.Grammar

/-!
# The state of a shell

Variables, functions, arguments and options, and the streams through which a shell reads and
writes. A number of a stream leads to an open stream, which several numbers and several shells can
share: what one of them has read or written, the others go on behind.
-/

namespace Rebuild.Shell

/-- An open stream. -/
inductive Stream where
  /-- Nothing is read, and what is written vanishes. -/
  | nothing
  /-- What is written is kept, the last first. -/
  | collected (parts : List (List Char))
  /-- What can still be read. -/
  | unread (cs : List Char)
  /-- A file, the place in it that is next, and whether what is written goes to its end. -/
  | file (l : Location) (offset : Nat) (appends : Bool)

/-- A variable. -/
structure Variable where
  /-- Its value, if it has one. -/
  value? : Option String := none
  /-- Whether programs that are run know it. -/
  exported : Bool := false
  /-- Whether its value stays. -/
  readOnly : Bool := false
deriving DecidableEq, Repr

/-- Why commands are left before their end. -/
inductive Interruption where
  /-- Something is wrong. The shell ends with the status unless the command is one that catches
  this. -/
  | failed (status : Nat)
  /-- The shell ends. -/
  | exited (status : Nat)
  /-- The shell is killed by a signal. -/
  | killed (signal : Nat)
  /-- The function or script ends. -/
  | returned
  /-- Loops are left. -/
  | broken (loops : Nat)
  /-- The next round of a loop begins. -/
  | continued (loops : Nat)
deriving DecidableEq, Repr

/-- The state of a running shell. -/
structure State where
  /-- The files. -/
  files : FileStore
  /-- The open streams, each at its place. -/
  streams : Array Stream
  /-- The places of the streams with numbers. -/
  descriptors : List (Nat × Nat)
  /-- The variables. -/
  vars : List (String × Variable) := []
  /-- The functions. -/
  functions : List (String × Script) := []
  /-- The variables as they were before functions changed them, for each running function. -/
  saved : List (List (String × Option Variable)) := []
  /-- The name of the shell or script. -/
  name : String := "sh"
  /-- The arguments. -/
  args : List String := []
  /-- The letters of the options that are on. -/
  options : List Char := []
  /-- How the last command ended; zero is success. -/
  status : Nat := 0
  /-- How the last script inside a word ended. -/
  wordStatus : Nat := 0
  /-- The line that messages speak of. -/
  line : Nat := 1
  /-- The command that messages speak of. -/
  command? : Option String := none
  /-- How many functions are running. -/
  calls : Nat := 0
  /-- How many loops are running. -/
  loops : Nat := 0
  /-- The commands for the end of the shell, which has the number zero, and for signals. -/
  traps : List (Nat × String) := []
  /-- Signals whose commands have to be run. -/
  pending : List Nat := []
  /-- How commands in the background ended, the last first. -/
  jobs : List (Nat × Nat) := []
  /-- The present folder, as it was named. -/
  folder : String := "/"
  /-- The permissions that new files do not get. -/
  mask : Nat := 18
  /-- The argument at which options are looked for next, from one on. -/
  optionIndex : Nat := 1
  /-- How many characters of the argument before it have been used, if not all. -/
  optionOffset? : Option Nat := none
  /-- The status with which the shell was about to end when a command for its end began. -/
  held? : Option Nat := none

namespace State

/-! ### Streams -/

/-- Opens a stream; the answer is its place. -/
def openStream (st : State) (s : Stream) : Nat × State :=
  (st.streams.size, { st with streams := st.streams.push s })

/-- Lets a number lead to the stream at a place, or to none. -/
def setDescriptor (st : State) (n : Nat) (place? : Option Nat) : State :=
  let others := st.descriptors.filter (·.1 ≠ n)
  { st with descriptors := place?.elim others fun place ↦ (n, place) :: others }

/-- Opens a stream with a number. -/
def openAs (st : State) (n : Nat) (s : Stream) : State :=
  let (place, st) := st.openStream s
  st.setDescriptor n (some place)

/-- Puts a stream in the place of another. -/
def replaceStream (st : State) (place : Nat) (s : Stream) : State :=
  { st with streams := st.streams.setIfInBounds place s }

/-- The bytes of a file. -/
def contentAt (st : State) (l : Location) : ByteArray :=
  match st.files.find? l with
  | some (.file content ..) => content
  | _ => .empty

/-- Writes characters to the stream at a place. -/
def writeAt (st : State) (place : Nat) (cs : List Char) : State :=
  match st.streams[place]? with
  | some (.collected parts) => st.replaceStream place (.collected (cs :: parts))
  | some (.file l offset appends) =>
    let content := st.contentAt l
    let offset := if appends then content.size else offset
    let bytes := (rawBytes cs).toArray
    let before := (content.data.take offset) ++ Array.replicate (offset - content.size) 0
    let changed : ByteArray := ⟨before ++ bytes ++ content.data.drop (offset + bytes.size)⟩
    match st.files.writeBytes l.path changed with
    | .ok files =>
      { st with files }.replaceStream place (.file l (offset + bytes.size) appends)
    | .error _ => st
  | _ => st

/-- Writes characters to a stream with a number; nothing if there is none. -/
def write? (st : State) (n : Nat) (cs : List Char) : Option State :=
  (st.descriptors.lookup n).map fun place ↦ st.writeAt place cs

/-- Writes characters to a stream with a number, if there is one. -/
def write (st : State) (n : Nat) (cs : List Char) : State :=
  (st.write? n cs).getD st

/-- Reads a character. -/
def read? (st : State) (n : Nat) : Option (Char × State) :=
  match st.descriptors.lookup n with
  | none => none
  | some place =>
    match st.streams[place]? with
    | some (.unread (c :: cs)) => some (c, st.replaceStream place (.unread cs))
    | some (.file l offset appends) =>
      (st.contentAt l).data[offset]?.map fun b ↦
        (Char.ofNat b.toNat, st.replaceStream place (.file l (offset + 1) appends))
    | _ => none

/-- All that can be read. -/
def readAll (st : State) (n : Nat) : List Char × State :=
  match st.descriptors.lookup n with
  | none => ([], st)
  | some place =>
    match st.streams[place]? with
    | some (.unread cs) => (cs, st.replaceStream place (.unread []))
    | some (.file l offset appends) =>
      let content := st.contentAt l
      (ofRawBytes (content.toList.drop offset),
        st.replaceStream place (.file l content.size appends))
    | _ => ([], st)

/-- What the stream at a place has kept. -/
def collectedAt (st : State) (place : Nat) : List Char :=
  match st.streams[place]? with
  | some (.collected parts) => parts.reverse.flatten
  | _ => []

/-- Prints a message with the name of the shell and the line. -/
def complain (st : State) (message : String) : State :=
  let command := st.command?.elim "" (· ++ ": ")
  st.write 2
    (st.name ++ ": " ++ toString st.line ++ ": " ++ command ++ message ++ "\n").toList

/-! ### Parameters -/

/-- The number by which a shell can speak of itself. -/
def processId : Nat := 1000

/-- The value of a variable. -/
def valueOf? (st : State) (name : String) : Option String :=
  (st.vars.lookup name).bind Variable.value?

/-- The characters that separate fields. -/
def separators (st : State) : List Char :=
  (st.valueOf? "IFS").elim defaultSeparators String.toList

/-- The text between arguments that are put together. -/
def joint (st : State) : String :=
  match st.valueOf? "IFS" with
  | none => " "
  | some ifs => String.ofList (ifs.toList.take 1)

/-- The value of a parameter. -/
def parameter? (st : State) (name : String) : Option String :=
  match name with
  | "0" => some st.name
  | "#" => some (toString st.args.length)
  | "?" => some (toString st.status)
  | "$" => some (toString processId)
  | "!" => st.jobs.head?.map fun (process, _) ↦ toString process
  | "-" => some (String.ofList st.options)
  | "@" | "*" => some (String.intercalate st.joint st.args)
  | name =>
    match decimal? name with
    | some n => st.args[n - 1]?
    | none => st.valueOf? name

/-- Whether an option is on. -/
def isOn (st : State) (option : Char) : Bool :=
  st.options.contains option

/-- Puts a variable in place of the one with its name. -/
def setVariable (st : State) (name : String) (v : Variable) : State :=
  { st with vars := (name, v) :: st.vars.filter (·.1 ≠ name) }

/-- Gives a variable a value, if it is not to stay. One of them says at which argument options are
looked for. -/
def assign? (st : State) (name value : String) : Option State :=
  let present := (st.vars.lookup name).getD {}
  if present.readOnly then none
  else
    let exported := present.exported || st.isOn 'a'
    let st := st.setVariable name { present with value? := some value, exported }
    if name = "OPTIND" then
      some { st with optionIndex := (decimal? value).getD 1, optionOffset? := none }
    else some st

/-- The variables that programs which are run know. -/
def environment (st : State) : List (String × String) :=
  st.vars.filterMap fun (name, v) ↦
    if v.exported then v.value?.map fun value ↦ (name, value) else none

/-- Keeps a variable as it is until the running function ends. -/
def keepVariable (st : State) (name : String) : State :=
  match st.saved with
  | [] => st
  | inner :: outer =>
    if inner.any (·.1 = name) then st
    else { st with saved := ((name, st.vars.lookup name) :: inner) :: outer }

/-- Puts kept variables back. -/
def restoreVariables (st : State) : State :=
  match st.saved with
  | [] => st
  | inner :: saved =>
    inner.foldl (fun st (name, v?) ↦
      match v? with
      | some v => st.setVariable name v
      | none => { st with vars := st.vars.filter (·.1 ≠ name) }) { st with saved }

end State

/-! ### Actions -/

/-- What changes the state of a shell, and can be interrupted. -/
abbrev Action := ExceptT Interruption (StateM State)

namespace Action

/-- Fails with a message. -/
def fail {α : Type} (message : String) (status : Nat := 2) : Action α := do
  modify (·.complain message)
  throw (.failed status)

/-- Prints, if there is something to print. -/
def print (cs : List Char) : Action Unit := do
  let st ← get
  match if cs.isEmpty then some st else st.write? 1 cs with
  | some st => set st
  | none => fail (st.command?.elim "" (· ++ ": ") ++ "I/O error") 1

/-- Prints a line. -/
def printLine (s : String) : Action Unit :=
  print (s.toList ++ ['\n'])

/-- Gives a variable a value. -/
def assign (name value : String) : Action Unit := do
  unless isName name.toList do fail (name ++ ": bad variable name")
  match (← get).assign? name value with
  | some st => set st
  | none => fail (name ++ ": is read only")

/-- Says how a command has ended. -/
def setStatus (status : Nat) : Action Unit :=
  modify fun st ↦ { st with status }

/-- Does something, and changes the state behind it however it ends. -/
def andAfterwards {α : Type} (action : Action α) (change : State → State) : Action α :=
  ExceptT.mk do
    let result ← action.run
    modify change
    return result

/-- Does something, and tells whether it was interrupted. -/
def observe {α : Type} (action : Action α) : Action (Except Interruption α) :=
  ExceptT.mk do return .ok (← action.run)

/-- Does something, and catches what is wrong. -/
def catchFailure (action : Action Unit) : Action Unit := do
  match ← observe action with
  | .ok () => return ()
  | .error (.failed status) => setStatus status
  | .error interruption => throw interruption

end Action

end Rebuild.Shell
