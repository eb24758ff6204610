import Rebuild.Include.Tree
import Rebuild.Project.Commands
import Rebuild.Project.Sources
import Rebuild.Schedule.Task

/-!
# Projects

A project is a configuration together with the files that were found and what they include. A
source is *stale* when its object is missing, or when it or anything it includes has changed after
the object was made. The plan of a build has one task for each stale source.
-/

namespace Rebuild

/-- A configuration with its files and what they include. -/
structure Project where
  /-- The folder that relative paths of the configuration begin in. -/
  root : Path
  /-- The settings. -/
  config : Config
  /-- The name of the configuration, which names the folder of its objects. -/
  stem : String
  /-- The sources and headers. -/
  files : List ProjectFile
  /-- What the sources include. -/
  graph : Include.Graph

namespace Project

/-! ### Finding the files -/

/-- The folders that are searched for included files: those of the configuration, and behind them
the headers that were exported earlier. -/
def includeFolders (s : FileStore) (root : Path) (config : Config) (installed : Option Path) :
    List Path :=
  let exported := (installed.map (·.joinName "include")).filter s.isFolder
  config.includeFolders.map root.join ++ exported.toList

/-- The project that a configuration describes. Every source is added to the graph. -/
def scan (s : FileStore) (root : Path) (config : Config) (stem : String)
    (installed : Option Path := none) : Project :=
  let files := ProjectFile.scan s root config
  let folders := includeFolders s root config installed
  let sources := files.filter (·.kind = .source)
  { root, config, stem, files
    graph := sources.foldl (fun graph file ↦ graph.add s folders file.path) {} }

/-- The files that are compiled. -/
def sources (project : Project) : List ProjectFile :=
  project.files.filter (·.kind = .source)

/-- The files that are included. -/
def headers (project : Project) : List ProjectFile :=
  project.files.filter (·.kind = .header)

/-- Whether there is nothing to compile. -/
def isHeaderOnly (project : Project) : Bool :=
  project.sources.isEmpty

/-! ### What is built -/

/-- The object of a file. -/
def objectOf (project : Project) (file : ProjectFile) : Path :=
  objectPath project.root project.stem file.relative project.config.platform.objectExtension

/-- The objects of all sources. -/
def objects (project : Project) : List Path :=
  project.sources.map project.objectOf

/-- The artifact. -/
def artifact (project : Project) : Path :=
  project.root.join project.config.artifactPath

/-- The commands of the project. -/
def tools (project : Project) (debug : Bool) : Toolchain :=
  { config := project.config, root := project.root, debug }

/-- The command that compiles a file. -/
def compileCommand (project : Project) (debug : Bool) (file : ProjectFile) : CommandLine :=
  (project.tools debug).compile file.path (project.objectOf file)

/-- The command that makes the artifact of all objects. -/
def finishCommand (project : Project) (debug : Bool) : CommandLine :=
  (project.tools debug).finish project.objects project.artifact

/-! ### What has to be built -/

/-- Whether a source has to be compiled. -/
def isStale (project : Project) (s : FileStore) (all : Bool) (file : ProjectFile) : Bool :=
  all ||
    match s.modified? (project.objectOf file) with
    | none => true
    | some built => project.graph.needsRebuild s file.path built

/-- Every source, and whether it has to be compiled. -/
def staleness (project : Project) (s : FileStore) (all : Bool) : List (ProjectFile × Bool) :=
  project.sources.map fun file ↦ (file, project.isStale s all file)

/-- The task of compiling a source. -/
def task (project : Project) (debug : Bool) (file : ProjectFile) : Task :=
  { source := file.path
    label := file.relative.text
    object := project.objectOf file
    command := project.compileCommand debug file }

/-- One task for each source that has to be compiled. -/
def plan (project : Project) (s : FileStore) (all debug : Bool) : List Task :=
  (project.sources.filter (project.isStale s all)).map (project.task debug)

/-- The latest time of the objects that are there. -/
def newestObject (project : Project) (s : FileStore) : Option Time :=
  (project.objects.map s.modified?).foldl latest none

/-! ### What is included -/

/-- The include trees of all sources. -/
def includeTrees (project : Project) (s : FileStore) : String :=
  String.intercalate "\n" (project.sources.map fun file ↦ project.graph.tree s file.path)

end Project

end Rebuild
