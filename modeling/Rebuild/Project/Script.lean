import Rebuild.FileStore.Operations
import Rebuild.Project.Basic

/-!
# Build scripts

A shell script that builds a project from scratch: it compiles every source and then makes the
artifact, each into a folder that it makes first, and stops at the first command that fails.
-/

namespace Rebuild.Project

/-- The line that makes the folder of a path. -/
def folderLine (p : Path) : String :=
  match p.parent? with
  | some folder => "mkdir -p " ++ CommandLine.quote folder.text ++ "\n"
  | none => ""

/-- The lines that compile a source. -/
def compileLines (project : Project) (debug : Bool) (file : ProjectFile) : String :=
  "echo " ++ CommandLine.quote file.relative.text ++ "\n" ++
    folderLine (project.objectOf file) ++
    (project.compileCommand debug file).toShell ++ "\n\n"

/-- The lines that make the artifact. An archive that is there is removed first. -/
def finishLines (project : Project) (debug : Bool) : String :=
  let artifact := CommandLine.quote project.artifact.text
  "echo " ++ artifact ++ "\n" ++ folderLine project.artifact ++
    (if project.config.isLibrary then "rm -f " ++ artifact ++ "\n" else "") ++
    (project.finishCommand debug).toShell ++ "\n"

/-- The script that builds the project. -/
def script (project : Project) (debug : Bool) : String :=
  "#!/bin/sh\nset -e\n\n" ++
    String.join (project.sources.map (project.compileLines debug)) ++
    (if project.isHeaderOnly then "" else project.finishLines debug)

/-- Writes the script into a file that may be run. -/
def writeScript (project : Project) (s : FileStore) (output : Path) (debug : Bool) :
    Except FileError FileStore :=
  match s.writeText output (project.script debug) with
  | .error e => .error e
  | .ok written => written.setExecutable output true

end Rebuild.Project
