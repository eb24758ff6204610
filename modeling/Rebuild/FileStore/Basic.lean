import Rebuild.Path.Basic

/-!
# A store of files

Files, folders and links, each at a location, with a clock. A *location* is the list of names that
leads from the root to a place; unlike a path it has one spelling only and is free of links. How a
path leads to a location is the matter of `Rebuild.FileStore.Resolve`.
-/

namespace Rebuild

/-- Nanoseconds since the beginning of 1970. -/
abbrev Time := Nat

/-- A place in the store: the names that lead to it from the root. -/
structure Location where
  /-- The names, the outermost first. -/
  names : List String
deriving DecidableEq, Repr, Inhabited

namespace Location

/-- The place of everything. -/
def root : Location := ⟨[]⟩

/-- The place of a name in a folder. -/
def child (l : Location) (name : String) : Location :=
  ⟨l.names ++ [name]⟩

/-- The folder that a place is in; the root is in itself. -/
def parent (l : Location) : Location :=
  ⟨l.names.dropLast⟩

/-- Whether a place lies below another, at any depth. -/
def isBelow (l above : Location) : Bool :=
  above.names.isPrefixOf l.names && above.names.length < l.names.length

/-- The path that spells a location. -/
def path (l : Location) : Path :=
  Path.ofBody true l.names

/-- The location that a path spells, if it is absolute and made of ordinary names. -/
def ofPath? (p : Path) : Option Location :=
  match p.components with
  | .root :: rest => if rest.all Component.isName then some ⟨p.names⟩ else none
  | _ => none

end Location

/-- Contents are compared byte by byte. -/
local instance decidableEqContent : DecidableEq ByteArray :=
  ByteArray.instDecidableEq

/-- What can be at a location. -/
inductive Entry where
  /-- A file with its bytes, whether it may be run, and the time of its last change. -/
  | file (content : ByteArray) (executable : Bool) (modified : Time)
  /-- A folder and the time when a name in it last came or went. -/
  | folder (modified : Time)
  /-- Another path that stands for the location. -/
  | link (target : String)
deriving DecidableEq

namespace Entry

/-- Whether the entry is a folder. -/
def isFolder : Entry → Bool
  | folder _ => true
  | _ => false

/-- Whether the entry is a file. -/
def isFile : Entry → Bool
  | file .. => true
  | _ => false

/-- The time of the last change; a link has none of its own. -/
def modified? : Entry → Option Time
  | file _ _ modified | folder modified => some modified
  | link _ => none

/-- The entry with another time of change. -/
def setModified (time : Time) : Entry → Entry
  | file content executable _ => file content executable time
  | folder _ => folder time
  | link target => link target

end Entry

/-- Why an operation on files fails. -/
inductive FileError where
  /-- There is nothing at the path. -/
  | notFound
  /-- The file may not be run. -/
  | permissionDenied
  /-- There is something at the path already. -/
  | alreadyExists
  /-- The path leads through something that is no folder. -/
  | notAFolder
  /-- The path leads to a folder where none is allowed. -/
  | isAFolder
  /-- The path leads through too many links. -/
  | tooManyLinks
  /-- The path, or a name in it, is too long. -/
  | nameTooLong
  /-- The path holds a character that no name can. -/
  | nulInName
  /-- Only regular files can be copied. -/
  | notARegularFile
  /-- The bytes of the file are not text. -/
  | notText
  /-- The file is no program. -/
  | notAProgram
deriving DecidableEq, Repr

namespace FileError

/-- What an error says. -/
def reason : FileError → String
  | notFound => "No such file or directory"
  | permissionDenied => "Permission denied"
  | alreadyExists => "File exists"
  | notAFolder => "Not a directory"
  | isAFolder => "Is a directory"
  | tooManyLinks => "Too many levels of symbolic links"
  | nameTooLong => "File name too long"
  | nulInName => "file name contained an unexpected NUL byte"
  | notARegularFile =>
    "the source path is neither a regular file nor a symlink to a regular file"
  | notText => "stream did not contain valid UTF-8"
  | notAProgram => "Exec format error"

/-- The number of an error of the system. -/
def code? : FileError → Option Nat
  | notFound => some 2
  | permissionDenied => some 13
  | alreadyExists => some 17
  | notAFolder => some 20
  | isAFolder => some 21
  | tooManyLinks => some 40
  | nameTooLong => some 36
  | notAProgram => some 8
  | nulInName | notARegularFile | notText => none

/-- The wording of an error, with its number if it has one. -/
def message (e : FileError) : String :=
  e.reason ++ e.code?.elim "" fun n ↦ " (os error " ++ toString n ++ ")"

end FileError

/-- Files, folders and links at their locations. -/
structure FileStore where
  /-- What is where; each location occurs once. -/
  entries : List (Location × Entry) := [(.root, .folder 0)]
  /-- The folder in which relative paths begin. -/
  current : Location := .root
  /-- A time later than any at which something was changed. -/
  clock : Time := 0

namespace FileStore

/-- What is at a location. -/
def find? (s : FileStore) (l : Location) : Option Entry :=
  s.entries.lookup l

/-- The locations at which there is something. -/
def locations (s : FileStore) : List Location :=
  s.entries.map Prod.fst

/-- The store with an entry put in place of what was at a location. -/
def put (s : FileStore) (l : Location) (e : Entry) : FileStore :=
  { s with entries := replace s.entries }
where
  /-- Replaces the entry where it stands, or adds it at the end. -/
  replace : List (Location × Entry) → List (Location × Entry)
    | [] => [(l, e)]
    | (l', e') :: rest => if l' = l then (l, e) :: rest else (l', e') :: replace rest

/-- The store without what was at a location. -/
def erase (s : FileStore) (l : Location) : FileStore :=
  { s with entries := s.entries.filter fun (l', _) ↦ l' ≠ l }

/-- The store in which everything is as before, at a later time. -/
def tick (s : FileStore) : FileStore :=
  { s with clock := s.clock + 1 }

/-- The store in which a folder counts as changed now. -/
def touchFolder (s : FileStore) (l : Location) : FileStore :=
  match s.find? l with
  | some (.folder _) => s.put l (.folder s.clock)
  | _ => s

/-- Puts a name in its place among names that are in order. -/
def insertName (name : String) : List String → List String
  | [] => [name]
  | first :: rest =>
    if name ≤ first then name :: first :: rest else first :: insertName name rest

/-- The names in a folder, in the order of their texts. -/
def childNames (s : FileStore) (l : Location) : List String :=
  (s.locations.filterMap fun l' ↦
    if l'.parent = l then l'.names.getLast? else none).foldr insertName []

end FileStore

end Rebuild
