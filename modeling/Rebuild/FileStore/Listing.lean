import Rebuild.FileStore.Operations

/-!
# Listings of files

A line of a listing says what is at a path. Its fields have tabs between them: the letter of the
kind (`f`, `d` or `l`), the permissions in octal digits, the seconds since the beginning of 1970,
the path, and for a link the path that it stands for. A store is put together from such lines, and
from the bytes of the files.
-/

namespace Rebuild

/-- What a listing says of a path. -/
structure Listed where
  /-- The path. -/
  path : Path
  /-- What is there; a file has no bytes yet. -/
  entry : Entry

namespace Listed

/-- The time that a decimal number of seconds is. -/
def timeOf (s : String) : Time :=
  let seconds := s.toList.takeWhile Char.isDigit
  let places := ((s.toList.drop (seconds.length + 1)).takeWhile Char.isDigit).take 9
  let digits := seconds ++ places ++ List.replicate (9 - places.length) '0'
  digits.foldl (fun value c ↦ 10 * value + (c.toNat - '0'.toNat)) 0

/-- Whether octal permissions let the owner of a file run it. -/
def runnable (permissions : String) : Bool :=
  (permissions.toList.reverse[2]?).any fun c ↦ (c.toNat - '0'.toNat) % 2 = 1

/-- What a line of a listing says. -/
def ofLine? (line : String) : Option Listed :=
  match (Text.split (· == '\t') line.toList).map String.ofList with
  | [kind, permissions, time, path, target] =>
    match kind with
    | "f" => some { path := ⟨path⟩, entry := .file .empty (runnable permissions) (timeOf time) }
    | "d" => some { path := ⟨path⟩, entry := .folder (timeOf time) }
    | "l" => some { path := ⟨path⟩, entry := .link target }
    | _ => none
  | _ => none

/-- What is listed, where a file has the given bytes. -/
def withContent (listed : Listed) (content : ByteArray) : Listed :=
  match listed.entry with
  | .file _ executable modified => { listed with entry := .file content executable modified }
  | _ => listed

end Listed

namespace FileStore

/-- The store in which a location and the folders around it are folders. -/
def withFolders (s : FileStore) (l : Location) : FileStore :=
  (List.range (l.names.length + 1)).foldl (fun s n ↦
    let around : Location := ⟨l.names.take n⟩
    if (s.find? around).isSome then s else s.put around (.folder 0)) s

/-- The store of what is listed. Relative paths begin in `current`, and the clock goes on from
the latest change. -/
def ofListing (current : Location) (listing : List Listed) : FileStore :=
  let place (s : FileStore) (listed : Listed) : FileStore :=
    match Location.ofPath? (current.path.join listed.path) with
    | some l => (s.withFolders l.parent).put l listed.entry
    | none => s
  let latest := (listing.filterMap (·.entry.modified?)).foldl max 0
  listing.foldl place ({ current, clock := latest + 1 : FileStore }.withFolders current)

/-- Whether one entry was put in place of another. What is written gets a later time. -/
def replaced : Entry → Entry → Bool
  | .file _ executable modified, .file _ executable' modified' =>
    executable ≠ executable' || modified ≠ modified'
  | .folder _, .folder _ => false
  | .link target, .link target' => target ≠ target'
  | _, _ => true

/-- What is at other locations than before, or was put in place of what was there. -/
def changes (before after : FileStore) : List (Location × Entry) :=
  after.entries.filter fun (l, e) ↦ (before.find? l).all (replaced · e)

/-- Where something was before, and nothing is afterwards. -/
def removals (before after : FileStore) : List Location :=
  before.locations.filter fun l ↦ (after.find? l).isNone

end FileStore

end Rebuild
