import Rebuild.Shell.Builtin.Variable
import Rebuild.Shell.Invocation

/-!
# Commands on folders

Going from folder to folder. A folder is remembered as it was named, so that going up from a link
leads back to where the link is.
-/

namespace Rebuild.Shell

namespace Action

/-! ### Folders -/

/-- The spelling of an absolute path without dots and double slashes, of which one can stand at the
beginning. -/
def plainPath (path : String) : String :=
  let step (names : List String) (segment : String) : List String :=
    if segment = "" || segment = "." then names
    else if segment = ".." then names.tail
    else segment :: names
  let segments := (Text.split (· == '/') path.toList).map String.ofList
  let beginning :=
    match path.toList with
    | '/' :: '/' :: '/' :: _ => "/"
    | '/' :: '/' :: _ => "//"
    | _ => "/"
  beginning ++ String.intercalate "/" (segments.foldl step []).reverse

/-- Goes to a folder. The answer says whether there is one. -/
def goTo (path : String) (physical : Bool) : Action Bool := do
  let st ← get
  let slash := if st.folder.toList.getLast? = some '/' then "" else "/"
  let named := if path.toList.head? = some '/' then path else st.folder ++ slash ++ path
  let target := if physical then path else plainPath named
  match st.files.locate true ⟨pathText target⟩ with
  | .ok (l, .folder _) =>
    let folder := if physical then bytesOf l.path.text else target
    modify fun st ↦ { st with files := { st.files with current := l }, folder }
    declare (fun v ↦ { v with exported := true }) ("OLDPWD=" ++ st.folder)
    declare (fun v ↦ { v with exported := true }) ("PWD=" ++ folder)
    return true
  | _ => return false

/-- Whether a path says where it begins. -/
def saysWhere (path : String) : Bool :=
  match (Text.split (· == '/') path.toList).head? with
  | some [] | some ['.'] | some ['.', '.'] => true
  | _ => false

/-- Goes to the first of some folders that there is; for some of them the folder is printed. -/
def goToFirst (physical : Bool) : List (String × Bool) → Action Bool
  | [] => return false
  | (path, prints) :: rest => do
    if (← get).files.isFolder ⟨pathText path⟩ then
      if ← goTo path physical then
        if prints then printLine (← get).folder
        return true
      else return false
    else goToFirst physical rest

/-- Goes to another folder. -/
def changeFolder (args : List String) : Action Nat := do
  let (found, names) ← switches ['L', 'P'] [] args
  let physical := found.getLast?.any (·.1 = 'P')
  let st ← get
  let (target, prints) :=
    match names.head? with
    | none => ((st.valueOf? "HOME").getD "", false)
    | some "-" => ((st.valueOf? "OLDPWD").getD "", true)
    | some name => (name, false)
  let here := if target.isEmpty then "." else target
  let around :=
    match st.valueOf? "CDPATH" with
    | some list =>
      if !target.isEmpty && saysWhere target then []
      else
        (Invocation.foldersIn list).map fun folder ↦
          (Invocation.pathIn folder here, prints || !folder.isEmpty)
    | none => []
  if ← goToFirst physical around then return 0
  else if ← goTo here physical then
    if prints then printLine (← get).folder
    return 0
  else fail ("can't cd to " ++ target)

/-- Prints the folder. -/
def printFolder (args : List String) : Action Nat := do
  let (found, _) ← switches ['L', 'P'] [] args
  let st ← get
  printLine (if found.getLast?.any (·.1 = 'P') then bytesOf st.files.current.path.text
    else st.folder)
  return 0

/-- Prints or sets the permissions that new files do not get. -/
def fileMask (args : List String) : Action Nat := do
  let (found, rest) ← switches ['S'] [] args
  let st ← get
  let bits (place : Nat) : Nat := 7 - (st.mask / place) % 8
  let letters (n : Nat) : String :=
    (if n / 4 % 2 = 1 then "r" else "") ++ (if n / 2 % 2 = 1 then "w" else "")
      ++ if n % 2 = 1 then "x" else ""
  match rest with
  | [] =>
    if found.isEmpty then
      let digits := Nat.toDigits 8 st.mask
      printLine (String.ofList (List.replicate (4 - digits.length) '0' ++ digits))
    else
      printLine
        ("u=" ++ letters (bits 64) ++ ",g=" ++ letters (bits 8) ++ ",o=" ++ letters (bits 1))
    return 0
  | mode :: _ =>
    match digits? 8 mode.toList with
    | some (n, []) =>
      modify fun st ↦ { st with mask := n % 512 }
      return 0
    | _ =>
      if mode.toList.head?.any Char.isDigit then fail ("Illegal number: " ++ mode)
      else fail ("Illegal mode: " ++ mode)

end Action

end Rebuild.Shell
