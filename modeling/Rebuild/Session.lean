import Rebuild.Command.Line
import Rebuild.FileStore.Operations
import Rebuild.Text.Style

/-!
# Sessions

A session is what building acts on: the files, what has been printed, and which commands have been
run. Commands are run by an *executor*, which says what a command does to the files and what comes
of it.

How long something took is known only outside; a printed text has a place for it.
-/

namespace Rebuild

/-- What commands do to the files, and what comes of them. -/
abbrev Executor := CommandLine → StateM FileStore Outcome

/-- A part of what is printed. -/
inductive Printed where
  /-- A text. -/
  | text (s : String)
  /-- The time that the session has taken so far. -/
  | elapsed
deriving DecidableEq, Repr

/-- The state of a session. -/
structure Session where
  /-- The files. -/
  files : FileStore := {}
  /-- Whether printed text is coloured. -/
  coloured : Bool := false
  /-- What has been printed. -/
  printed : List Printed := []
  /-- The commands that have been run. -/
  ran : List CommandLine := []

namespace Session

/-- Prints a text. -/
def print (s : String) : StateM Session Unit :=
  modify fun session ↦ { session with printed := session.printed ++ [.text s] }

/-- Prints a line. -/
def printLine (s : String) : StateM Session Unit :=
  print (s ++ "\n")

/-- A text in a style, as the session shows it. -/
def styled (style : Text.Style) (s : String) : StateM Session String := do
  return style.apply (← get).coloured s

/-- Prints a line that begins with a mark in a colour. -/
def printMarked (mark : String) (colour : Text.Colour) (s : String) : StateM Session Unit := do
  printLine ((← styled (.inColour colour) mark) ++ " " ++ s)

/-- Prints that something went well. -/
def printDone (s : String) : StateM Session Unit :=
  printMarked "✓" .green s

/-- Prints that something failed. -/
def printFailed (s : String) : StateM Session Unit :=
  printMarked "x" .red s

/-- Prints something to take note of. -/
def printNote (s : String) : StateM Session Unit :=
  printMarked "!" .yellow s

/-- Runs a command. -/
def execute (executor : Executor) (command : CommandLine) : StateM Session Outcome :=
  fun session ↦
    let (outcome, files) := (executor command).run session.files
    (outcome, { session with files, ran := session.ran ++ [command] })

/-- Does something to the files, unless it fails. -/
def change (operation : FileStore → Except FileError FileStore) :
    StateM Session (Except FileError Unit) :=
  fun session ↦
    match operation session.files with
    | .ok files => (.ok (), { session with files })
    | .error e => (.error e, session)

/-- Makes a folder and those around it that are missing. -/
def createFolders (p : Path) : StateM Session (Except FileError Unit) :=
  fun session ↦
    let (result, files) := session.files.createFolders p
    (result, { session with files })

end Session

end Rebuild
