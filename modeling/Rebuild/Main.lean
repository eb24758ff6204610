import Rebuild.FileStore.Listing
import Rebuild.Program
import Rebuild.Shell.Execute
import Rebuild.Text.Duration

/-!
# Command line

The program acts on a store of files, and here the store is taken from a disk and put back. The
standard input says what there is: the variables as `env` prints them, an empty line, and a
listing of the files:

```
(env; echo; find . -printf '%y\t%m\t%T@\t%p\t%l\n') | lzb -d
```

What is not listed is not there, apart from the shell itself. Only scripts of the shell are run,
one after the other, so that the machine counts as one core.
-/

namespace Rebuild.Main

/-- The lines of a stream. -/
partial def readLines (input : IO.FS.Stream) : IO (List String) := do
  let line ← input.getLine
  if line.isEmpty then return []
  let cs := line.toList
  let line := String.ofList (if cs.getLast? = some '\n' then cs.dropLast else cs)
  return line :: (← readLines input)

/-- A line that gives a variable its value. -/
def variableOf? (line : String) : Option (String × String) :=
  let name := line.toList.takeWhile (· ≠ '=')
  if name.length < line.length then
    some (String.ofList name, String.ofList (line.toList.drop (name.length + 1)))
  else none

/-- Reads the files of a listing. -/
def readFiles (listing : List Listed) : IO (List Listed) :=
  listing.mapM fun listed ↦ do
    if listed.entry.isFile then
      return listed.withContent (← IO.FS.readBinFile listed.path.text)
    else return listed

/-- The store of a listing, and the shell. -/
def storeOf (current : Location) (listing : List Listed) : FileStore :=
  ((FileStore.ofListing current listing).withFolders Shell.shellLocation.parent).put
    Shell.shellLocation (.file .empty true 0)

/-- Puts what has changed back on the disk. -/
def writeChanges (before after : FileStore) : IO Unit := do
  for (l, e) in before.changes after do
    match e with
    | .folder _ => IO.FS.createDirAll l.path.text
    | .file content executable _ =>
      IO.FS.writeBinFile l.path.text content
      if executable then
        let all : IO.AccessRight := { read := true, execution := true }
        IO.setAccessRights l.path.text
          { user := { all with write := true }, group := all, other := all }
    | .link _ => pure ()
  for l in before.removals after do
    IO.FS.removeFile l.path.text

/-- Prints what the program printed. -/
def printAll (printed : List Printed) (nanoseconds : Nat) : IO Unit := do
  for part in printed do
    match part with
    | .text s => IO.print s
    | .elapsed => IO.print (Text.duration nanoseconds)

end Rebuild.Main

open Rebuild in
/-- Runs the program with the arguments of the command line. -/
def main (args : List String) : IO UInt32 := do
  let input ← Main.readLines (← IO.getStdin)
  let bindings := (input.takeWhile (· ≠ "")).filterMap Main.variableOf?
  let listing := (input.dropWhile (· ≠ "")).filterMap Listed.ofLine?
  let current := (Location.ofPath? ⟨(← IO.currentDir).toString⟩).getD .root
  let before := Main.storeOf current (← Main.readFiles listing)
  let env : Environment := {
    bindings
    terminal := ← (← IO.getStdout).isTty
    executor := Shell.execute bindings
    choices := Pool.firstChoices }
  let started ← IO.monoNanosNow
  let (status, session) := (Program.run env args).run { files := before }
  Main.writeChanges before session.files
  Main.printAll session.printed ((← IO.monoNanosNow) - started)
  return UInt32.ofNat status
