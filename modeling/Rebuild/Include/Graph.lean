import Rebuild.Counting
import Rebuild.Include.Directive

/-!
# The include graph

Which file includes which. A node is a location, so that a file has one node however it is
spelled; with it are the locations that the file includes. Files are scanned once, when they are
first met, and stay in the graph.

The searches below keep a list of locations that are still to be looked at. Each of them ends
because a file adds to this list once, so that what has not been added and what has not been looked
at become less.
-/

namespace Rebuild.Include

/-- Files and what they include. -/
structure Graph where
  /-- The nodes, in the order in which they were scanned. -/
  nodes : List (Location × List Location) := []
deriving Repr

namespace Graph

/-- What a file at a location includes, if it has been scanned. -/
def includes? (g : Graph) (l : Location) : Option (List Location) :=
  g.nodes.lookup l

/-- The locations of the scanned files. -/
def locations (g : Graph) : List Location :=
  g.nodes.map Prod.fst

theorem mem_locations_of_includes? {g : Graph} {l : Location} {found : List Location}
    (h : g.includes? l = some found) : l ∈ g.locations := by
  obtain ⟨before, after, heq, -⟩ := List.lookup_eq_some_iff.1 h
  exact List.mem_map.2 ⟨(l, found), by simp [heq], rfl⟩

/-- How many locations a file includes. -/
def degree (g : Graph) (l : Location) : Nat :=
  ((g.includes? l).getD []).length

theorem degree_of_includes? {g : Graph} {l : Location} {found : List Location}
    (h : g.includes? l = some found) : g.degree l = found.length := by
  simp [degree, h]

/-- The number of scanned files. -/
def size (g : Graph) : Nat :=
  g.nodes.length

/-- The node of a file: where the path leads to, or the location that it spells if it leads to
nothing. -/
def key? (s : FileStore) (p : Path) : Option Location :=
  match s.canonical? p with
  | some l => some l
  | none => Location.ofPath? p

/-- What a file includes, if it has been scanned. -/
def dependencies? (g : Graph) (s : FileStore) (p : Path) : Option (List Location) :=
  (key? s p).bind g.includes?

/-- Whether a file has been scanned. -/
def contains (g : Graph) (s : FileStore) (p : Path) : Bool :=
  (g.dependencies? s p).isSome

/-! ### Adding files -/

/-- Scans the pending locations and what they include, the first one first. Locations that have
been scanned are passed over. -/
def visit (s : FileStore) (folders : List Path) (g : Graph) (pending : List Location) : Graph :=
  match pending with
  | [] => g
  | l :: rest =>
    if _hscan : l ∈ s.locations ∧ g.locations.contains l = false then
      let found := scan s folders l
      visit s folders { nodes := (l, found) :: g.nodes } (found ++ rest)
    else visit s folders g rest
termination_by
  weightMissing (fun l ↦ (scan s folders l).length) g.locations s.locations + pending.length
decreasing_by
  · have := weightMissing_cons_lt (fun l ↦ (scan s folders l).length) _hscan.1 _hscan.2
    simp only [locations, List.map_cons, List.length_append, List.length_cons] at this ⊢
    omega
  · simp

/-- Where a file is that is to be added. One that is not found as it is spelled is looked for in
the folders. -/
def start? (s : FileStore) (folders : List Path) (p : Path) : Option Location :=
  (firstExisting? s (p :: folders.map (·.join p))).bind s.canonical?

/-- Adds a file and everything it includes. -/
def add (g : Graph) (s : FileStore) (folders : List Path) (p : Path) : Graph :=
  match start? s folders p with
  | some l => visit s folders g [l]
  | none => g

/-! ### Asking for changes -/

/-- Whether a file has changed after a time. One that is gone has changed. -/
def changedAfter (s : FileStore) (reference : Time) (l : Location) : Bool :=
  (s.modified? l.path).all (reference < ·)

/-- Whether a pending file or anything it includes satisfies a test, where the files seen are
passed over. -/
def reaches (g : Graph) (test : Location → Bool) (seen : List Location)
    (pending : List Location) : Bool :=
  match pending with
  | [] => false
  | l :: rest =>
    if _hseen : seen.contains l then reaches g test seen rest
    else
      match _hfound : g.includes? l with
      | none => reaches g test seen rest
      | some found => test l || reaches g test (l :: seen) (found ++ rest)
termination_by weightMissing g.degree seen g.locations + pending.length
decreasing_by
  · simp
  · simp
  · have := weightMissing_cons_lt g.degree (mem_locations_of_includes? _hfound)
      (by simpa using _hseen)
    rw [degree_of_includes? _hfound] at this
    simp only [List.length_append, List.length_cons]
    omega

/-- Whether a file or anything it includes has changed after a time. A file that has not been
scanned, such as a header of the system, has not changed. -/
def needsRebuild (g : Graph) (s : FileStore) (p : Path) (reference : Time) : Bool :=
  match key? s p with
  | none => false
  | some l => reaches g (changedAfter s reference) [] [l]

end Graph

end Rebuild.Include
