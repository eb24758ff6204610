import Rebuild.Config
import Rebuild.Path.Basic

/-!
# Commands of a project

The commands that compile, link and archive under a configuration, and the place of the object of
a source. With the default compiler, plain C is compiled by the C compiler and without a language
standard.
-/

namespace Rebuild

/-- What the commands of a project depend on. -/
structure Toolchain where
  /-- The settings of the project. -/
  config : Config
  /-- The project's root, where relative folders of the settings begin. -/
  root : Path
  /-- Whether debug symbols are wanted. -/
  debug : Bool := false
deriving Repr

namespace Toolchain

/-- The words that debug symbols take. -/
def debugFlags (tools : Toolchain) : List String :=
  if tools.debug then ["-g"] else []

/-- The program that compiles a source, and whether it is told the standard. -/
def driverFor (tools : Toolchain) (source : Path) : String × Bool :=
  if tools.config.compiler = "g++" ∧ source.extension? = some "c" then ("gcc", false)
  else (tools.config.compiler, true)

/-- The word that names the language standard. -/
def standardFlag (tools : Toolchain) : String :=
  "-std=" ++ tools.config.standard

/-- A folder of the settings, seen from the root, behind a flag. -/
def folderFlag (tools : Toolchain) (flag : String) (folder : Path) : String :=
  flag ++ (tools.root.join folder).text

/-- The command that compiles a source into an object. -/
def compile (tools : Toolchain) (source object : Path) : CommandLine :=
  let (program, withStandard) := tools.driverFor source
  { program
    args :=
      tools.debugFlags ++ ["-Wfatal-errors", "-Wall", "-fdiagnostics-color=always"] ++
        (if withStandard then [tools.standardFlag] else []) ++
        ["-o", object.text, "-c", source.text] ++
        tools.config.includeFolders.map (tools.folderFlag "-I") ++
        tools.config.compileFlags ++
        tools.config.libraries.flatMap (·.flags.compile) ++
        tools.config.macros.flatMap fun macroText ↦ ["-D", macroText] }

/-- The command that links objects into an executable. -/
def link (tools : Toolchain) (objects : List Path) (artifact : Path) : CommandLine :=
  { program := tools.config.compiler
    args :=
      tools.debugFlags ++ ["-Wfatal-errors", "-Wall", "-Wextra", "-fdiagnostics-color=always"] ++
        [tools.standardFlag, "-o", artifact.text] ++ objects.map Path.text ++
        tools.config.libraryFolders.map (tools.folderFlag "-L") ++
        tools.config.libraries.flatMap
          (fun library ↦ library.flags.compile ++ library.flags.link) ++
        tools.config.linkFlags }

/-- The program that makes archives. -/
def archiver : String := "ar"

/-- The command that puts objects into an archive. -/
def archive (objects : List Path) (library : Path) : CommandLine :=
  { program := archiver, args := ["rcs", library.text] ++ objects.map Path.text }

/-- The command that makes the artifact. -/
def finish (tools : Toolchain) (objects : List Path) (artifact : Path) : CommandLine :=
  if tools.config.isLibrary then archive objects artifact else tools.link objects artifact

end Toolchain

/-- The place of an object: below the root's object folder, in a folder for each configuration, as
the source is placed below the root. Only ordinary names of the source's place count. -/
def objectPath (root : Path) (stem : String) (relative : Path) (extension : String) : Path :=
  ((root.joinName "obj").joinName stem).joinNames relative.names |>.withExtension extension

end Rebuild
