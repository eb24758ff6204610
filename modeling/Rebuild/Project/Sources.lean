import Rebuild.Config
import Rebuild.FileStore.Walk
import Rebuild.Path.Normal

/-!
# Source files

The files of a project are the sources and headers in its source folders, told apart by their
extensions. A source folder that is missing holds none, and what the configuration excludes is not
walked into.
-/

namespace Rebuild

/-- What a file of a project is for. -/
inductive FileKind where
  /-- A file that is compiled. -/
  | source
  /-- A file that is included. -/
  | header
deriving DecidableEq, Repr

namespace FileKind

/-- The extensions of sources. -/
def sourceExtensions : List String := ["c", "cc", "cpp", "cxx"]

/-- The extensions of headers. -/
def headerExtensions : List String := ["h", "hh", "hpp", "hxx"]

/-- The kind that the extension of a path says. -/
def ofPath? (p : Path) : Option FileKind :=
  match p.extension? with
  | none => none
  | some extension =>
    if sourceExtensions.contains extension then some source
    else if headerExtensions.contains extension then some header
    else none

end FileKind

/-- A file of a project. -/
structure ProjectFile where
  /-- Where the file was found. -/
  path : Path
  /-- Its place below the project's root, or a place of its own if it lies outside. -/
  relative : Path
  /-- What the file is for. -/
  kind : FileKind
deriving DecidableEq, Repr

namespace ProjectFile

/-- The files in one source folder, in the order of their names. -/
def inFolder (s : FileStore) (root : Path) (config : Config) (folder : Path) :
    List ProjectFile :=
  let start := root.join folder
  if s.pathExists start then
    (s.walk (fun p ↦ !config.isExcluded root p) start).filterMap fun path ↦
      (FileKind.ofPath? path).map fun kind ↦ { path, relative := root.relativeTo path, kind }
  else []

/-- The files of a project, one source folder after the other. -/
def scan (s : FileStore) (root : Path) (config : Config) : List ProjectFile :=
  config.sourceFolders.flatMap (inFolder s root config)

end ProjectFile

end Rebuild
