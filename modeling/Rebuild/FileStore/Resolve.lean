import Rebuild.FileStore.Basic
import Rebuild.Text.Basic

/-!
# From paths to locations

A path is followed name by name, from the root or from the current folder. A dot stays, a double
dot goes to the folder around, a link goes on with its target; a link at the very end is followed
or not as the operation asks. A slash at the end asks for a folder, so it follows a link as well.
-/

namespace Rebuild.FileStore

/-- Where a path leads. -/
inductive Destination where
  /-- To something. -/
  | existing (l : Location)
  /-- To a name that is free in a folder, and whether a slash follows the name. -/
  | vacant (folder : Location) (name : String) (slash : Bool)
deriving DecidableEq, Repr

/-- The number of links that a path may lead through. -/
def maxLinks : Nat := 40

/-- The number of bytes that a name may take. -/
def maxNameLength : Nat := 255

/-- The number of bytes that a path may take. -/
def maxPathLength : Nat := 4095

/-- Follows segments from a folder. Where a link is passed, `pass` follows the path that it stands
for and what is left of the segments; `followLast` says whether one at the end is passed. -/
def followWith (s : FileStore) (followLast : Bool)
    (pass : Location → List String → Except FileError Destination) (here : Location)
    (segments : List String) : Except FileError Destination :=
  match segments with
  | [] => .ok (.existing here)
  | segment :: rest =>
    if segment = "" ∨ segment = "." then s.followWith followLast pass here rest
    else if segment = ".." then s.followWith followLast pass here.parent rest
    else if maxNameLength < Text.byteLength segment.toList then .error .nameTooLong
    else
      let there := here.child segment
      match s.find? there with
      | none =>
        if rest.all (· = "") then .ok (.vacant here segment (!rest.isEmpty)) else .error .notFound
      | some (.file ..) => if rest.isEmpty then .ok (.existing there) else .error .notAFolder
      | some (.folder _) => s.followWith followLast pass there rest
      | some (.link target) =>
        if rest.isEmpty && !followLast then .ok (.existing there)
        else
          let path : Path := ⟨target⟩
          pass (if path.isAbsolute then .root else here) (path.body ++ rest)

/-- Follows segments from a folder; `links` more links may be passed. -/
def follow (s : FileStore) (followLast : Bool) (links : Nat) :
    Location → List String → Except FileError Destination :=
  match links with
  | 0 => s.followWith followLast fun _ _ ↦ .error .tooManyLinks
  | links + 1 => s.followWith followLast (s.follow followLast links)

/-- Where a path leads, however long it is. The empty path leads nowhere. -/
def lead (s : FileStore) (followLast : Bool) (p : Path) : Except FileError Destination :=
  if p.text.toList.contains '\x00' then .error .nulInName
  else if p.text.isEmpty then .error .notFound
  else s.follow followLast maxLinks (if p.isAbsolute then .root else s.current) p.body

/-- Whether a path is too long for the system. -/
def tooLong (p : Path) : Bool :=
  maxPathLength < Text.byteLength p.text.toList

/-- Where a path leads, unless it is too long. -/
def resolve (s : FileStore) (followLast : Bool) (p : Path) : Except FileError Destination :=
  if p.text.toList.contains '\x00' then .error .nulInName
  else if tooLong p then .error .nameTooLong
  else s.lead followLast p

/-- What is at a destination. -/
def arrive (s : FileStore) : Destination → Except FileError (Location × Entry)
  | .vacant .. => .error .notFound
  | .existing l =>
    match s.find? l with
    | some e => .ok (l, e)
    | none => .error .notFound

/-- The location that a path leads to, if there is something at it. -/
def locate (s : FileStore) (followLast : Bool) (p : Path) :
    Except FileError (Location × Entry) :=
  s.resolve followLast p >>= s.arrive

/-- What a path leads to when links are followed. -/
def stat (s : FileStore) (p : Path) : Except FileError Entry :=
  (s.locate true p).map (·.2)

/-- The one location that a path leads to when links are followed. The path itself may be of any
length, but not the one that spells the location. -/
def canonical? (s : FileStore) (p : Path) : Option Location :=
  ((s.lead true p >>= s.arrive).toOption.map (·.1)).filter fun l ↦ !tooLong l.path

/-- Whether a path leads to something. -/
def pathExists (s : FileStore) (p : Path) : Bool :=
  (s.stat p).toOption.isSome

/-- Whether a path leads to a folder. -/
def isFolder (s : FileStore) (p : Path) : Bool :=
  (s.stat p).toOption.any Entry.isFolder

/-- The time of the last change of what a path leads to. -/
def modified? (s : FileStore) (p : Path) : Option Time :=
  (s.stat p).toOption.bind Entry.modified?

theorem find?_of_arrive {s : FileStore} {dest : Destination} {l : Location} {e : Entry}
    (h : s.arrive dest = .ok (l, e)) : dest = .existing l ∧ s.find? l = some e := by
  cases dest with
  | vacant => cases h
  | existing there =>
    simp only [arrive] at h
    split at h <;> cases h
    exact ⟨rfl, ‹_›⟩

theorem find?_isSome_of_canonical? {s : FileStore} {p : Path} {l : Location}
    (h : s.canonical? p = some l) : (s.find? l).isSome := by
  obtain ⟨⟨l', e⟩, harrive, rfl⟩ :=
    Option.map_eq_some_iff.1 (Option.filter_eq_some_iff.1 h).1
  cases hlead : s.lead true p >>= s.arrive with
  | error => rw [hlead] at harrive; cases harrive
  | ok found =>
    rw [hlead] at harrive
    obtain rfl := Option.some.inj harrive
    cases hdest : s.lead true p with
    | error => rw [hdest] at hlead; cases hlead
    | ok dest =>
      rw [hdest] at hlead
      exact Option.isSome_of_eq_some (find?_of_arrive hlead).2

end Rebuild.FileStore
