import Rebuild.Shell.Switch

/-!
# Commands on variables and arguments

Listing, declaring and removing variables, and setting the arguments of a script.
-/

namespace Rebuild.Shell

namespace Action

/-! ### Listings -/

/-- A text in quotes, so that it can be read back: single quotes around what is no single quote, and
double quotes around what is. `fuel` is more than the number of characters. -/
def quoted : (fuel : Nat) → List Char → List Char
  | 0, _ => []
  | fuel + 1, cs =>
    let plain := cs.takeWhile (· ≠ '\'')
    let behind := cs.drop plain.length
    let marks := behind.takeWhile (· = '\'')
    let rest := behind.drop marks.length
    let quotedMarks := if marks.isEmpty then [] else '"' :: marks ++ ['"']
    '\'' :: plain ++ ['\''] ++ quotedMarks ++ if rest.isEmpty then [] else quoted fuel rest

/-- A text in quotes. -/
def inQuotes (s : String) : String :=
  String.ofList (quoted (s.length + 1) s.toList)

/-- Prints variables in the order of their names, with a word before each. -/
def listVariables (word : String) (lists : Variable → Bool) : Action Nat := do
  let vars := ((← get).vars.filter fun (_, v) ↦ lists v).mergeSort fun a b ↦ a.1 ≤ b.1
  let line : String × Variable → List Char := fun (name, v) ↦
    (word ++ name ++ v.value?.elim "" (fun value ↦ "=" ++ inQuotes value) ++ "\n").toList
  print (vars.flatMap line)
  return 0

/-! ### Variables -/

/-- The name in an argument, and the value behind an equals sign. -/
def nameAndValue (arg : String) : String × Option String :=
  let name := arg.toList.takeWhile (· ≠ '=')
  match arg.toList.drop name.length with
  | _ :: value => (String.ofList name, some (String.ofList value))
  | [] => (arg, none)

/-- Changes the variable in an argument, which can be given a value before. -/
def declare (change : Variable → Variable) (arg : String) : Action Unit := do
  let (name, value?) := nameAndValue arg
  unless isName name.toList do fail (name ++ ": bad variable name")
  match value? with
  | some value => assign name value
  | none => pure ()
  modify fun st ↦ st.setVariable name (change ((st.vars.lookup name).getD {}))

/-- Lists or changes variables. -/
def declareAll (command : String) (lists : Variable → Bool) (change : Variable → Variable)
    (args : List String) : Action Nat := do
  let (found, names) ← switches ['p'] [] args
  if found.isEmpty && !names.isEmpty then
    names.forM (declare change)
    return 0
  else listVariables (command ++ " ") lists

/-- Removes a variable; what stands behind an equals sign does not matter. -/
def unsetVariable (arg : String) : Action Unit := do
  let name := (nameAndValue arg).1
  unless isName name.toList do fail (name ++ ": bad variable name")
  if ((← get).vars.lookup name).any Variable.readOnly then fail (name ++ ": is read only")
  modify fun st ↦ { st with vars := st.vars.filter (·.1 ≠ name) }

/-- Removes variables or functions. -/
def unsetAll (args : List String) : Action Nat := do
  let (found, names) ← switches ['v', 'f'] [] args
  if found.getLast?.any (·.1 = 'f') then
    modify fun st ↦ { st with functions := st.functions.filter fun (n, _) ↦ !names.contains n }
  else names.forM unsetVariable
  return 0

/-- Keeps variables for the running function. -/
def declareLocal (args : List String) : Action Nat := do
  if (← get).saved.isEmpty then fail "not in a function"
  args.forM fun arg ↦ do
    let (name, value?) := nameAndValue arg
    modify (·.keepVariable name)
    match value? with
    | some value => assign name value
    | none => return ()
  return 0

/-- Sets options and arguments. -/
def setArguments (args : List String) : Action Nat := do
  if args.isEmpty then listVariables "" fun v ↦ v.value?.isSome
  else
    let found ← options false args
    if found.ended || !found.rest.isEmpty then
      modify fun st ↦ { st with args := found.rest }
    return 0

/-- Drops arguments. -/
def dropArguments (args : List String) : Action Nat := do
  let n ← (args.head?.map number).getD (pure 1)
  if (← get).args.length < n then fail "can't shift that many"
  modify fun st ↦ { st with args := st.args.drop n }
  return 0

end Action

end Rebuild.Shell
