import Rebuild.FileStore.Operations
import Rebuild.Toml.Document

/-!
# Settings of a user

A user can say once for all projects where exports go. The settings lie in a file in the user's
folder; where there is none, exports go into a folder of the user.
-/

namespace Rebuild

/-- The settings of a user. -/
structure Settings where
  /-- Where exports go. -/
  exportPath : Option Path := none
deriving DecidableEq, Repr

/-- Why settings cannot be used. -/
inductive SettingsError where
  /-- The file cannot be read. -/
  | unreadable (path : Path)
  /-- The file is malformed. -/
  | malformed (path : Path)
deriving DecidableEq, Repr

/-- The wording of an error. -/
def SettingsError.message : SettingsError → String
  | unreadable path => "Failed to read " ++ path.text
  | malformed path => "Failed to parse " ++ path.text

namespace Settings

/-- The settings in a text. Other keys than the known one may be there. -/
def ofString? (s : String) : Option Settings :=
  match Toml.ofString? s with
  | none => none
  | some tree =>
    match tree.lookup "export_path" with
    | none => some {}
    | some (.leaf (some path)) => some { exportPath := some ⟨path⟩ }
    | some _ => none

/-- The settings in a file. -/
def loadFrom (s : FileStore) (path : Path) : Except SettingsError Settings :=
  match s.readText path with
  | .error _ => .error (.unreadable path)
  | .ok text =>
    match ofString? text with
    | none => .error (.malformed path)
    | some settings => .ok settings

/-- Where the settings lie in the folder for the settings of all programs. -/
def path (folder : Path) : Path :=
  folder.joinNames ["lzbuild", "settings.toml"]

/-- The settings of a user with a folder for settings, or one without. -/
def load (s : FileStore) (folder : Option Path) : Except SettingsError Settings :=
  match folder.map path with
  | none => .ok {}
  | some p => if s.pathExists p then loadFrom s p else .ok {}

/-- Where exports go for a user with a home folder, or one without. -/
def exportRoot (settings : Settings) (home : Option Path) : Path :=
  settings.exportPath.getD ((home.map (·.joinName ".local")).getD ⟨"export"⟩)

end Settings

end Rebuild
