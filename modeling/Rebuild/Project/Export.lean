import Rebuild.Project.Basic
import Rebuild.Project.Build
import Rebuild.Session

/-!
# Exporting a project

Headers and the artifact are copied below a folder where other projects find them: headers below
`include` and the project's name, an executable into `bin` and a library into `lib`. What is newer
at its destination stays as it is. An item that cannot be copied does not keep the others from
being copied.
-/

namespace Rebuild

/-- What an export did. -/
structure ExportReport where
  /-- The destinations that were written. -/
  copied : List Path := []
  /-- How many destinations were newer. -/
  skipped : Nat := 0
  /-- How many items could not be copied. -/
  failed : Nat := 0
deriving DecidableEq, Repr

namespace Project

/-- Something that is exported, and where it goes. -/
structure ExportItem where
  /-- What is copied. -/
  source : Path
  /-- Where it goes. -/
  destination : Path
deriving DecidableEq, Repr

/-- A header's place below its source folder, or else its name. -/
def placeBelowSource (project : Project) (p : Path) : Path :=
  match project.config.sourceFolders.findSome? fun folder ↦
      p.stripPrefix? (project.root.join folder) with
  | some below => below
  | none => (p.fileName?.map Path.mk).getD p

/-- Where the headers go. -/
def headerItems (project : Project) (target : Path) : List ExportItem :=
  let folder := (target.joinName "include").joinName project.config.name
  project.headers.map fun header ↦
    { source := header.path, destination := folder.join (project.placeBelowSource header.path) }

/-- Where the artifact goes, if it has a name. -/
def artifactItem? (project : Project) (target : Path) : Option ExportItem :=
  let folder := target.joinName (if project.config.isLibrary then "lib" else "bin")
  project.artifact.fileName?.map fun name ↦
    { source := project.artifact, destination := folder.joinName name }

/-- The times of an item's destination and source. -/
def ExportItem.times (item : ExportItem) (s : FileStore) : Except BuildError (Time × Time) :=
  match s.stat item.destination with
  | .error e => .error (.files item.destination e)
  | .ok destination =>
    match s.stat item.source with
    | .error e => .error (.files item.source e)
    | .ok source => .ok (destination.modified?.getD 0, source.modified?.getD 0)

/-- Makes room at an item's destination: removes what is there unless it is newer, and makes the
folder. The answer says whether the item is to be copied. -/
def ExportItem.prepare (item : ExportItem) : StateM Session (Except BuildError Bool) := do
  let files := (← get).files
  if files.pathExists item.destination then
    match item.times files with
    | .error e => return .error e
    | .ok (there, here) =>
      if here < there then
        return .ok false
      if let .error e ← Session.change (·.removeFile item.destination) then
        return .error (.files item.destination e)
  if let some folder := item.destination.parent? then
    if let .error e ← Session.createFolders folder then
      return .error (.files folder e)
  return .ok true

/-- Copies an item unless its destination is newer. The answer says whether it was copied. -/
def ExportItem.copy (item : ExportItem) : StateM Session (Except BuildError Bool) := do
  match ← item.prepare with
  | .error e => return .error e
  | .ok false => return .ok false
  | .ok true =>
    match ← Session.change (·.copyFile item.source item.destination) with
    | .error e => return .error (.files item.destination e)
    | .ok () => return .ok true

/-- Exports an item and takes down what came of it. -/
def ExportItem.record (report : ExportReport) (item : ExportItem) :
    StateM Session ExportReport := do
  match ← item.copy with
  | .ok true =>
    Session.printDone ("Exported " ++ item.source.text ++ " to " ++ item.destination.text)
    return { report with copied := report.copied ++ [item.destination] }
  | .ok false => return { report with skipped := report.skipped + 1 }
  | .error e =>
    Session.printFailed ("Could not export: " ++ e.message)
    return { report with failed := report.failed + 1 }

/-- Exports the headers, and the artifact if it has been built. -/
def exportTo (project : Project) (target : Path) : StateM Session ExportReport := do
  let report ← (project.headerItems target).foldlM ExportItem.record {}
  if (← get).files.pathExists project.artifact then
    match project.artifactItem? target with
    | some item => item.record report
    | none => return report
  else
    Session.printNote (project.artifact.text ++ " has not been built, only headers exported")
    return report

end Project

end Rebuild
