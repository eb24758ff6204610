import Rebuild.FileStore.Resolve
import Rebuild.Shell.Bytes

/-!
# Finding programs

The only program that there is by itself is the shell. A script says in its first line which program
runs it, so that to run a file is to start a shell with some arguments: its `Invocation`. A command
without a slash is looked for in the folders that a variable lists.
-/

namespace Rebuild.Shell

/-- Where the shell is. -/
def shellLocation : Location := ⟨["bin", "sh"]⟩

/-- The path of the shell. -/
def shellPath : String := "/bin/sh"

/-- How a shell is started. -/
structure Invocation where
  /-- The name by which it is called. -/
  name : String
  /-- The arguments. -/
  args : List String
deriving DecidableEq, Repr

namespace Invocation

/-- The number of bytes of a script in which its first line has to end. -/
def firstLineBound : Nat := 256

/-- The program that the first line of a script names, and an option for it. -/
def interpreter? (content : ByteArray) : Option (String × List String) :=
  match ofRawBytes (content.extract 0 firstLineBound).toList with
  | '#' :: '!' :: cs =>
    let isBlank (c : Char) : Bool := c = ' ' || c = '\t'
    let line := (cs.takeWhile (· ≠ '\n')).dropWhile isBlank
    let line := (line.reverse.dropWhile isBlank).reverse
    let program := line.takeWhile fun c ↦ !isBlank c
    let option := (line.drop program.length).dropWhile isBlank
    if program.isEmpty then none
    else
      some (String.ofList program, if option.isEmpty then [] else [String.ofList option])
  | _ => none

/-- The number of programs that can be named one by another. -/
def maxInterpreters : Nat := 5

/-- What to run the file at a path amounts to, if it would be called as given. -/
def atPath (files : FileStore) : (links : Nat) → (called : Invocation) → (path : String) →
    Except FileError Invocation
  | links, called, path =>
    match files.locate true ⟨pathText path⟩ with
    | .error e => .error e
    | .ok (l, .file content executable _) =>
      if !executable then .error .permissionDenied
      else if l = shellLocation then .ok called
      else
        match interpreter? content, links with
        | none, _ => .error .notAProgram
        | some _, 0 => .error .tooManyLinks
        | some (program, options), links + 1 =>
          atPath files links { name := program, args := options ++ path :: called.args } program
    | .ok _ => .error .permissionDenied

/-- The folders that a variable lists. -/
def foldersIn (list : String) : List String :=
  (Text.split (· == ':') list.toList).map String.ofList

/-- The path of a name in a folder. -/
def pathIn (folder name : String) : String :=
  if folder.isEmpty then name else folder ++ "/" ++ name

/-- The paths at which a command can be. -/
def pathsOf (folders : List String) (command : String) : List String :=
  if command.toList.contains '/' then [command] else folders.map (pathIn · command)

/-- Goes through paths to the first that can be run. What is at none of them is passed over; of
other errors, some are kept for the end and some end the search. -/
def search (run : String → Except FileError Invocation) (ends : FileError → Bool)
    (kept : FileError) : List String → Except FileError Invocation
  | [] => .error kept
  | path :: rest =>
    match run path with
    | .ok invocation => .ok invocation
    | .error e =>
      if e = .notFound || e = .notAFolder then search run ends kept rest
      else if ends e then .error e
      else search run ends e rest

/-- What a command amounts to that is run by something other than a shell. -/
def find (files : FileStore) (folders : List String) (command : String) (args : List String) :
    Except FileError Invocation :=
  let run := atPath files maxInterpreters { name := command, args }
  if command.isEmpty then .error .notFound
  else if command.toList.contains '/' then run command
  else search run (· ≠ .permissionDenied) .notFound (pathsOf folders command)

/-- Whether the file at a path may be run. -/
def isRunnable (files : FileStore) (path : String) : Bool :=
  (files.stat ⟨pathText path⟩).toOption.any fun
    | .file _ executable _ => executable
    | _ => false

/-- The path at which a shell finds a command. -/
def pathOf? (files : FileStore) (folders : List String) (command : String) : Option String :=
  if command.toList.contains '/' then
    if files.pathExists ⟨pathText command⟩ then some command else none
  else (pathsOf folders command).find? (isRunnable files)

/-- What a command amounts to that a shell runs: a file that does not say what runs it is a script
of the shell. -/
def findInShell (files : FileStore) (folders : List String) (command : String)
    (args : List String) : Except FileError Invocation :=
  let run (path : String) : Except FileError Invocation :=
    match atPath files maxInterpreters { name := command, args } path with
    | .error .notAProgram => .ok { name := shellPath, args := path :: args }
    | found => found
  search run (fun _ ↦ false) .notFound (pathsOf folders command)

end Invocation

end Rebuild.Shell
