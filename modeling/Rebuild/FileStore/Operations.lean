import Rebuild.FileStore.Resolve
import Rebuild.Text.Utf8

/-!
# Operations on files

Reading, writing, copying and removing files, and making folders. Each operation gives the store
as it is afterwards; one that fails leaves the store as it was, except that `createFolders` keeps
the folders it has made before it fails.

What is written counts as changed at the time of the clock, which then goes on.
-/

namespace Rebuild.FileStore

/-! ### Reading -/

/-- The bytes of the file at a path. -/
def readBytes (s : FileStore) (p : Path) : Except FileError ByteArray :=
  match s.stat p with
  | .error e => .error e
  | .ok (.file content ..) => .ok content
  | .ok (.folder _) => .error .isAFolder
  | .ok (.link _) => .error .tooManyLinks

/-- The text of the file at a path. -/
def readText (s : FileStore) (p : Path) : Except FileError String :=
  match s.readBytes p with
  | .error e => .error e
  | .ok bytes =>
    match Text.Utf8.decode? bytes with
    | some text => .ok text
    | none => .error .notText

/-! ### Writing -/

/-- Puts something new into a folder. -/
def add (s : FileStore) (folder : Location) (name : String) (e : Entry) : FileStore :=
  ((s.touchFolder folder).put (folder.child name) e).tick

/-- Writes a file with the given bytes, through links. A file that is there keeps whether it may
be run; a new one may not, unless `executable` says so. -/
def writeBytes (s : FileStore) (p : Path) (content : ByteArray) (executable : Bool := false) :
    Except FileError FileStore :=
  match s.resolve true p with
  | .error e => .error e
  | .ok (.vacant folder name slash) =>
    if slash then .error .isAFolder
    else .ok (s.add folder name (.file content executable s.clock))
  | .ok (.existing l) =>
    match s.find? l with
    | some (.file _ present _) => .ok (s.put l (.file content present s.clock)).tick
    | _ => .error .isAFolder

/-- Writes a file with the given text. -/
def writeText (s : FileStore) (p : Path) (text : String) : Except FileError FileStore :=
  s.writeBytes p (Text.Utf8.encode text)

/-- Says whether the file at a path may be run. -/
def setExecutable (s : FileStore) (p : Path) (executable : Bool) : Except FileError FileStore :=
  match s.locate true p with
  | .error e => .error e
  | .ok (l, .file content _ modified) => .ok (s.put l (.file content executable modified))
  | .ok _ => .ok s

/-- Removes the file or link at a path. -/
def removeFile (s : FileStore) (p : Path) : Except FileError FileStore :=
  match s.locate false p with
  | .error e => .error e
  | .ok (_, .folder _) => .error .isAFolder
  | .ok (l, _) => .ok ((s.touchFolder l.parent).erase l).tick

/-- Removes what is at a path itself, and everything below it. -/
def removeTree (s : FileStore) (p : Path) : Except FileError FileStore :=
  match s.locate false p with
  | .error e => .error e
  | .ok (l, _) =>
    let s := s.touchFolder l.parent
    .ok { s with entries := s.entries.filter fun (l', _) ↦ l' ≠ l && !l'.isBelow l }.tick

/-- Copies a regular file, and whether it may be run, to another path. The target is emptied before
anything is read, so that a file that is copied to itself loses its bytes. -/
def copyFile (s : FileStore) (source target : Path) : Except FileError FileStore :=
  match s.locate true source with
  | .error e => .error e
  | .ok (l, .file content executable _) =>
    let ontoItself := (s.locate true target).toOption.any fun found ↦ found.1 = l
    match s.writeBytes target (if ontoItself then .empty else content) executable with
    | .error e => .error e
    | .ok written => written.setExecutable target executable
  | .ok _ => .error .notARegularFile

/-! ### Folders -/

/-- Makes a folder. A link at the path is not followed. -/
def createFolder (s : FileStore) (p : Path) : Except FileError FileStore :=
  match s.resolve false p with
  | .error e => .error e
  | .ok (.existing _) => .error .alreadyExists
  | .ok (.vacant folder name _) => .ok (s.add folder name (.folder s.clock))

/-- Makes the first of the paths a folder, where the others are the folders around it, the
innermost first. -/
def createThrough (s : FileStore) : List Path → Except FileError Unit × FileStore
  | [] => (.ok (), s)
  | p :: around =>
    if p.text.isEmpty then (.ok (), s)
    else
      match s.createFolder p with
      | .ok made => (.ok (), made)
      | .error .notFound =>
        match s.createThrough around with
        | (.error e, made) => (.error e, made)
        | (.ok (), made) =>
          match made.createFolder p with
          | .ok all => (.ok (), all)
          | .error e => (if made.isFolder p then .ok () else .error e, made)
      | .error e => (if s.isFolder p then .ok () else .error e, s)

/-- Makes a folder and those around it that are missing. -/
def createFolders (s : FileStore) (p : Path) : Except FileError Unit × FileStore :=
  s.createThrough p.ancestors

end Rebuild.FileStore
