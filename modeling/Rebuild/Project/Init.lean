import Rebuild.Session

/-!
# New projects

A new project has folders for sources, objects and artifacts, and a configuration to begin with. A
configuration that is there already stays as it is.
-/

namespace Rebuild

/-- Where the configuration of a project is looked for. -/
def defaultConfigName : String := "default.lzb"

namespace NewProject

/-- The configuration of a new project. -/
def template : String :=
  "# Project configuration. Repeated keys add values; scalar keys keep the last one.\n" ++
  "name = \"app\"\n" ++
  "compiler = \"g++\"\n" ++
  "std = \"c++20\"\n" ++
  "source = \"src\"\n" ++
  "# include = \"include\"\n" ++
  "# lib = \"pthread\"\n" ++
  "# libpaths = \"vendor/lib\"\n" ++
  "# cflags = \"-O2\"\n" ++
  "# define = \"NDEBUG\"\n" ++
  "# output = \"library\"\n" ++
  "\n" ++
  "if windows \x7b\n" ++
  "    # link_etc = \"-static\"\n" ++
  "\x7d\n"

/-- The folders of a new project. -/
def folders : List String := ["src", "bin", "obj"]

/-- Why a project could not be made. -/
inductive Failure where
  /-- A folder could not be made. -/
  | folder (path : Path)
  /-- The configuration could not be written. -/
  | config (path : Path)
deriving DecidableEq, Repr

/-- The wording of a failure. -/
def Failure.message : Failure → String
  | folder path => "Failed to create " ++ path.text
  | config path => "Failed to write " ++ path.text

/-- Makes folders below a root. -/
def createAll (root : Path) : List String → StateM Session (Except Failure Unit)
  | [] => return .ok ()
  | name :: rest => do
    match ← Session.createFolders (root.joinName name) with
    | .error _ => return .error (.folder (root.joinName name))
    | .ok () => createAll root rest

/-- Lays out a project in a folder. -/
def create (root : Path) : StateM Session (Except Failure Unit) := do
  if let .error e ← createAll root folders then
    return .error e
  let config := root.joinName defaultConfigName
  if (← get).files.pathExists config then
    Session.printNote (defaultConfigName ++ " already exists, leaving it untouched.")
  else if let .error _ ← Session.change (·.writeText config template) then
    return .error (.config config)
  let command ← Session.styled (.strongIn .white) "lzb build"
  Session.printDone
    ("Initialized project in " ++ root.text ++ ". Run " ++ command ++ " to build.")
  return .ok ()

end NewProject

end Rebuild
