import Rebuild.Project.Basic

/-!
# When the artifact has to be made

The artifact is made again when it is missing, or when an object or a library that it is made of
has changed after it. Times that are equal do not count as later.
-/

namespace Rebuild

/-- Where the static libraries of a configuration may be: each folder is searched for each
library. -/
def libraryPaths (config : Config) (root : Path) : List Path :=
  config.libraryFolders.flatMap fun folder ↦
    config.libraries.map fun library ↦
      (root.join folder).joinName (config.platform.staticLibraryName library.name)

/-- The static libraries of a configuration that are there. -/
def libraryFiles (s : FileStore) (config : Config) (root : Path) : List Path :=
  (libraryPaths config root).filter s.pathExists

/-- Whether the artifact has to be made, given the latest time of its objects. -/
def linkRequired (s : FileStore) (artifact : Path) (latestObject : Option Time)
    (libraries : List Path) (force : Bool) : Bool :=
  force ||
    match s.modified? artifact with
    | none => true
    | some built =>
      latestObject.any (built < ·) || libraries.any fun p ↦ (s.modified? p).any (built < ·)

end Rebuild
