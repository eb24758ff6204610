import Rebuild.FileStore.Operations
import Rebuild.Language.Eval
import Rebuild.Project.Basic

/-!
# Loading a project

A project is loaded from a configuration file: the file is read, evaluated and turned into
settings, and the files it speaks of are looked up. Libraries are looked up by whoever loads the
project.
-/

namespace Rebuild

/-- Why a project cannot be loaded. -/
inductive LoadError where
  /-- There is no configuration file. -/
  | missing (path : Path)
  /-- The configuration file cannot be read. -/
  | unreadable (path : Path) (error : FileError)
  /-- The configuration file is malformed. -/
  | malformed (path : Path) (error : Language.ParseError)
  /-- A setting is wrong. -/
  | invalid (error : InvalidSetting)
deriving DecidableEq, Repr

/-- The wording of an error. -/
def LoadError.message : LoadError → String
  | missing path => "config file not found: " ++ path.text
  | unreadable path error => "failed to read " ++ path.text ++ ": " ++ error.message
  | malformed path error => path.text ++ ": " ++ error.message
  | invalid error => error.message

/-- What the configuration file at a path assigns. -/
def readAssignments (s : FileStore) (path : Path) (context : Language.Context) :
    Except LoadError Assignments :=
  if s.pathExists path then
    match s.readText path with
    | .error e => .error (.unreadable path e)
    | .ok text =>
      match Language.load text context with
      | .error e => .error (.malformed path e)
      | .ok assignments => .ok assignments
  else .error (.missing path)

/-- Where a project is loaded from. -/
structure ProjectPlace where
  /-- The project's root. -/
  root : Path
  /-- The configuration file, which begins at the root if it is relative. -/
  config : Path
  /-- Where exported headers are installed. -/
  installed : Option Path := none
deriving DecidableEq, Repr

namespace ProjectPlace

/-- The path of the configuration file. -/
def configPath (place : ProjectPlace) : Path :=
  place.root.join place.config

/-- The name of the configuration. -/
def stem (place : ProjectPlace) : String :=
  place.configPath.fileStem?.getD "default"

variable {m : Type → Type} [Monad m]

/-- Loads a project. Libraries are looked up with `resolve` before the files are, which are seen
as `files` says then. -/
def load (place : ProjectPlace) (files : m FileStore) (context : Language.Context)
    (platform : Platform) (resolve : String → m LibraryFlags) :
    m (Except LoadError Project) := do
  match readAssignments (← files) place.configPath context with
  | .error e => return .error e
  | .ok assignments =>
    match ← Config.ofAssignments assignments platform resolve with
    | .error e => return .error (.invalid e)
    | .ok config =>
      return .ok (Project.scan (← files) place.root config place.stem place.installed)

end ProjectPlace

end Rebuild
