import Rebuild.FileStore.Operations
import Rebuild.Project.Basic
import Rebuild.Text.Json

/-!
# The compile database

A file that tells editors how each source is compiled. It lies in the project's root and lists all
sources, whether they had to be compiled or not.
-/

namespace Rebuild.Project

/-- The name of the compile database. -/
def databaseName : String := "compile_commands.json"

/-- What the database says about a source. -/
structure DatabaseEntry where
  /-- The folder that the command is run in. -/
  directory : String
  /-- The command, as a shell has to be given it. -/
  command : String
  /-- The source. -/
  file : String
deriving DecidableEq, Repr

/-- What the database says about all sources, in order. -/
def database (project : Project) (debug : Bool) : List DatabaseEntry :=
  project.sources.map fun file ↦
    { directory := project.root.text
      command := (project.compileCommand debug file).toShell
      file := file.path.text }

/-- The members of an entry. -/
def DatabaseEntry.members (entry : DatabaseEntry) : List (String × String) :=
  [("directory", entry.directory), ("command", entry.command), ("file", entry.file)]

/-- Writes the compile database into the project's root. -/
def writeDatabase (project : Project) (s : FileStore) (debug : Bool) :
    Except FileError FileStore :=
  s.writeText (project.root.joinName databaseName)
    (Text.Json.list ((project.database debug).map DatabaseEntry.members))

end Rebuild.Project
