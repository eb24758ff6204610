import Rebuild.Project.CompileDatabase
import Rebuild.Project.Hint
import Rebuild.Project.Link
import Rebuild.Schedule.Run
import Rebuild.Session
import Rebuild.Table

/-!
# Building a project

A build compiles every stale source, several at a time, and then makes the artifact if it has to
be made. A failed source does not keep the others from being compiled, but the artifact is made
only when none has failed. Diagnostics come after all sources, in the order of the tasks.
-/

namespace Rebuild

/-- What a build is asked for. -/
structure BuildOptions where
  /-- Whether the files are listed first. -/
  verbose : Bool := false
  /-- Whether every source is compiled. -/
  fullRebuild : Bool := false
  /-- Whether the artifact is made in any case. -/
  forceLinking : Bool := false
  /-- Whether debug symbols are wanted. -/
  debug : Bool := false
  /-- Whether commands are printed. -/
  echoCommands : Bool := false
  /-- Whether the output of successful compiles is printed. -/
  showWarnings : Bool := false
deriving DecidableEq, Repr

/-- What a build did. -/
structure BuildSummary where
  /-- Whether sources were compiled. -/
  status : Status := .noChange
  /-- How many were. -/
  compiled : Nat := 0
  /-- Whether the artifact was made. -/
  linked : Bool := false
  /-- Whether there was nothing to compile at all. -/
  headerOnly : Bool := false
deriving DecidableEq, Repr

/-- Why a build fails. -/
inductive BuildError where
  /-- Sources could not be compiled. -/
  | compile (failed : Nat)
  /-- The artifact could not be made. -/
  | link (artifact : Path) (output : String)
  /-- A file or folder could not be prepared. -/
  | files (path : Path) (error : FileError)
deriving DecidableEq, Repr

/-- The wording of an error. -/
def BuildError.message : BuildError → String
  | compile failed => toString failed ++ " translation unit(s) failed to compile"
  | link artifact _ => "failed to create " ++ artifact.text
  | files path error => "filesystem error at " ++ path.text ++ ": " ++ error.message

/-! ### Tasks -/

/-- Executes a task: makes the folder of its object and runs its command. -/
def Task.execute (executor : Executor) (task : Task) : StateM Session Completion := do
  let folder ←
    match task.object.parent? with
    | some folder => Session.createFolders folder
    | none => pure (.ok ())
  let outcome : Outcome ←
    match folder with
    | .error e => pure {
        success := false
        output := "cannot create object directory for " ++ task.object.text ++ ": " ++ e.message }
    | .ok () => Session.execute executor task.command
  let files := (← get).files
  return {
    succeeded := outcome.success
    output := outcome.output
    objectTime := if outcome.success then files.modified? task.object else none }

/-- What is said about a task that has ended. -/
def Job.diagnostics (showWarnings : Bool) (job : Job) : StateM Session Unit := do
  match job.phase.completion? with
  | none => pure ()
  | some done =>
    if done.succeeded then
      if showWarnings && !(Text.trim done.output.toList).isEmpty then
        Session.printNote ("Warning in " ++ job.task.label ++ ":\n" ++ done.output)
    else
      let label ← Session.styled .strong job.task.label
      Session.printFailed (label ++ ":\n" ++ done.output)
      printHint done.output
where
  /-- Prints the hint for an output, if there is one. -/
  printHint (output : String) : StateM Session Unit := do
    match Hint.ofOutput? output with
    | some hint => Session.printNote (hint.message (← get).coloured)
    | none => pure ()

namespace Project

/-! ### Listings -/

/-- The table of all files. -/
def fileTable (project : Project) : Table :=
  Table.ofRows ["File", "Kind", "Object"] <| project.files.map fun file ↦
    match file.kind with
    | .source => [file.relative.text, "source", (project.objectOf file).text]
    | .header => [file.relative.text, "header", "-"]

/-- The width that listings are printed in. -/
def listingWidth : Nat := 80

/-- Prints the table of all files, if there are any. -/
def listFiles (project : Project) : StateM Session Unit := do
  let table := project.fileTable
  if !table.isEmpty then
    Session.print (table.render (← get).coloured listingWidth)

/-- Prints which sources have to be compiled. -/
def reportStaleness (project : Project) (all : Bool) : StateM Session Unit := do
  let decisions := project.staleness (← get).files all
  for (file, stale) in decisions do
    if stale then Session.printMarked "•" .cyan (file.relative.text ++ " needs rebuild")
    else Session.printDone (file.relative.text ++ " up to date")
  let stale := decisions.countP (·.2)
  Session.printMarked "•" .cyan
    (toString stale ++ " of " ++ toString decisions.length ++ " translation unit(s) stale")

/-- Prints the include trees of all sources. -/
def printIncludeTrees (project : Project) : StateM Session Unit := do
  Session.print (project.includeTrees (← get).files)

/-! ### The build -/

/-- How many tasks run at once on a machine with the given number of cores. -/
def budget (project : Project) (cores : Nat) : Nat :=
  project.config.threads.getD cores

/-- Runs the command that makes the artifact. -/
def finish (project : Project) (options : BuildOptions) (executor : Executor) :
    StateM Session (Except BuildError Unit) := do
  let command := project.finishCommand options.debug
  if options.echoCommands then
    Session.printLine command.toShell
  Session.printLine ("   " ++ (← Session.styled (.inColour .cyan) "🔗") ++ " Linking...")
  let outcome ← Session.execute executor command
  if outcome.success then
    return .ok ()
  Session.printLine outcome.output
  Job.diagnostics.printHint outcome.output
  Session.printFailed "Linking failed"
  return .error (.link project.artifact outcome.output)

/-- Makes the folder of the artifact. -/
def makeArtifactFolder (project : Project) : StateM Session (Except BuildError Unit) := do
  if let some folder := project.artifact.parent? then
    if let .error e ← Session.createFolders folder then
      return .error (.files folder e)
  return .ok ()

/-- Removes a library that is there: what is in an archive would never leave it otherwise. -/
def clearLibrary (project : Project) (present : Bool) : StateM Session (Except BuildError Unit) := do
  if project.config.isLibrary && present then
    if let .error e ← Session.change (·.removeFile project.artifact) then
      return .error (.files project.artifact e)
  return .ok ()

/-- Makes the artifact. -/
def link (project : Project) (options : BuildOptions) (executor : Executor) :
    StateM Session (Except BuildError Unit) := do
  if let .error e ← project.makeArtifactFolder then
    return .error e
  let present := (← get).files.pathExists project.artifact
  if let .error e ← project.clearLibrary present then
    return .error e
  project.finish options executor

/-- Whether the artifact has to be made when sources have been compiled. -/
def needsLinking (project : Project) (s : FileStore) (report : Report) (force : Bool) : Bool :=
  linkRequired s project.artifact (latest (project.newestObject s) report.latestObject)
    (libraryFiles s project.config project.root) force

/-- What a build does when its sources have been compiled; `needed` says whether the artifact has to
be made. -/
def relink (project : Project) (options : BuildOptions) (executor : Executor)
    (summary : BuildSummary) (needed : Bool) :
    StateM Session (Except BuildError BuildSummary) := do
  if !needed then
    if summary.status = .noChange then
      Session.printMarked "⚡" .green "Up to date"
    return .ok summary
  match ← project.link options executor with
  | .error e => return .error e
  | .ok () =>
    Session.print ((← Session.styled (.inColour .green) "✓") ++ " Build finished in ")
    modify fun session ↦ { session with printed := session.printed ++ [.elapsed, .text "\n"] }
    return .ok { summary with linked := true }

/-- What a build does when diagnostics have been printed: it ends if a task has failed. -/
def complete (project : Project) (options : BuildOptions) (executor : Executor)
    (tasks : List Task) (report : Report) : StateM Session (Except BuildError BuildSummary) := do
  if report.status = .failed then
    return .error (.compile report.failed)
  if !tasks.isEmpty then
    -- editors can do without the database, so that a failure to write it is no failure to build
    let _ ← Session.change (project.writeDatabase · options.debug)
  let needed := project.needsLinking (← get).files report options.forceLinking
  project.relink options executor { status := report.status, compiled := tasks.length } needed

/-- What a build does when its tasks have been executed. -/
def conclude (project : Project) (options : BuildOptions) (executor : Executor)
    (tasks : List Task) (jobs : List Job) (report : Report) :
    StateM Session (Except BuildError BuildSummary) := do
  if report.status = .failed then
    Session.printFailed "Compilation failed"
  jobs.forM (Job.diagnostics options.showWarnings)
  project.complete options executor tasks report

/-- Compiles what is stale and makes the artifact if it has to be made. -/
def build (project : Project) (options : BuildOptions) (executor : Executor)
    (choices : Nat → Nat) (cores : Nat) : StateM Session (Except BuildError BuildSummary) := do
  if options.verbose then
    project.listFiles
  if project.isHeaderOnly then
    Session.printDone "Header only library ready"
    return .ok { headerOnly := true }
  let tasks := project.plan (← get).files options.fullRebuild options.debug
  let pool ← Pool.run (Task.execute executor) choices tasks (project.budget cores)
  project.conclude options executor tasks pool.jobs pool.report

end Project

end Rebuild
