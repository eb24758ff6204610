import Rebuild.Proofs.FileStore.Ways
import Rebuild.Proofs.Include.Growth

/-!
# Translation units

The translation unit of a file is the file and everything that it depends on, with the contents. It is
what the search for included files meets that begins with this file. Two stores give the same unit when
its files are the same and their includes lead to the same files.
-/

namespace Rebuild

/-- The bytes of the file at a location. -/
def FileStore.content? (s : FileStore) (l : Location) : Option ByteArray :=
  match s.find? l with
  | some (.file content _ _) => some content
  | _ => none

namespace FileStore

variable {s s' : FileStore} {l : Location} {p : Path} {content : ByteArray}

theorem content?_congr (h : s'.find? l = s.find? l) : s'.content? l = s.content? l := by
  rw [content?, content?, h]

theorem content?_eq_some_iff : s.content? l = some content ↔
    ∃ executable time, s.find? l = some (.file content executable time) := by
  rw [content?]
  rcases s.find? l with - | e
  · simp
  · cases e <;> simp [eq_comm]

theorem hasFile_of_content? (h : s.content? l = some content) : s.HasFile l := by
  obtain ⟨executable, time, hfind⟩ := content?_eq_some_iff.1 h
  exact hasFile_of_find? hfind

theorem locate_eq_ok_iff {followLast : Bool} {e : Entry} : s.locate followLast p = .ok (l, e) ↔
    s.resolve followLast p = .ok (.existing l) ∧ s.find? l = some e := by
  rw [locate]
  cases s.resolve followLast p with
  | error =>
    constructor
    · intro h
      cases h
    · rintro ⟨hdest, -⟩
      cases hdest
  | ok dest =>
    constructor
    · intro h
      obtain ⟨rfl, hfind⟩ := find?_of_arrive h
      exact ⟨rfl, hfind⟩
    · rintro ⟨hdest, hfind⟩
      cases hdest
      show s.arrive (.existing l) = _
      rw [arrive, hfind]

theorem pathExists_iff : s.pathExists p = true ↔
    ∃ l, s.resolve true p = .ok (.existing l) ∧ (s.find? l).isSome := by
  constructor
  · intro h
    rw [pathExists, stat] at h
    cases hlocate : s.locate true p with
    | error e =>
      rw [hlocate] at h
      cases h
    | ok found =>
      obtain ⟨hdest, hfind⟩ := locate_eq_ok_iff.1 hlocate
      exact ⟨found.1, hdest, Option.isSome_of_eq_some hfind⟩
  · rintro ⟨l, hdest, hsome⟩
    obtain ⟨e, hfind⟩ := Option.isSome_iff_exists.1 hsome
    rw [pathExists, stat, locate_eq_ok_iff.2 ⟨hdest, hfind⟩]
    rfl

theorem isFolder_iff : s.isFolder p = true ↔
    ∃ l, s.resolve true p = .ok (.existing l) ∧ s.HasFolder l := by
  constructor
  · intro h
    rw [isFolder, stat] at h
    cases hlocate : s.locate true p with
    | error e =>
      rw [hlocate] at h
      cases h
    | ok found =>
      obtain ⟨hdest, hfind⟩ := locate_eq_ok_iff.1 hlocate
      rw [hlocate] at h
      refine ⟨found.1, hdest, hasFolder_iff.2 ?_⟩
      rw [hfind]
      exact h
  · rintro ⟨l, hdest, time, hfind⟩
    rw [isFolder, stat, locate_eq_ok_iff.2 ⟨hdest, hfind⟩]
    rfl

theorem canonical?_eq_filter (h : s.lead true p = .ok (.existing l)) (hl : (s.find? l).isSome) :
    s.canonical? p = (some l).filter fun l ↦ !tooLong l.path := by
  obtain ⟨e, he⟩ := Option.isSome_iff_exists.1 hl
  rw [canonical?, h]
  show ((s.arrive (.existing l)).toOption.map _).filter _ = _
  rw [arrive, he]
  rfl

/-- What is read at a path is what the file has that the path leads to. -/
theorem toOption_readBytes_eq_some_iff : (s.readBytes p).toOption = some content ↔
    ∃ l, s.resolve true p = .ok (.existing l) ∧ s.content? l = some content := by
  constructor
  · intro h
    rw [readBytes] at h
    split at h <;> cases h
    obtain ⟨l, hlocate⟩ := locate_of_stat ‹s.stat p = _›
    obtain ⟨hdest, hfind⟩ := locate_eq_ok_iff.1 hlocate
    exact ⟨l, hdest, content?_eq_some_iff.2 ⟨_, _, hfind⟩⟩
  · rintro ⟨l, hdest, hcontent⟩
    obtain ⟨executable, time, hfind⟩ := content?_eq_some_iff.1 hcontent
    rw [readBytes, stat, locate_eq_ok_iff.2 ⟨hdest, hfind⟩]
    rfl

end FileStore

namespace Include

variable {s s' : FileStore} {folders folders' : List Path} {l m : Location}

/-- A file of a translation unit. -/
structure UnitFile where
  /-- Where the file is. -/
  location : Location
  /-- What it includes. -/
  includes : List Location
  /-- Its bytes. -/
  content : Option ByteArray

/-- What a file is compiled from: the file and everything that it depends on, the last one that the
search meets first. -/
def unit (s : FileStore) (folders : List Path) (l : Location) : List UnitFile :=
  (Graph.visit s folders {} [l]).nodes.map fun node ↦
    { location := node.1, includes := node.2, content := s.content? node.1 }

/-- The names that the file at a location includes, if it is text. -/
def namesAt (s : FileStore) (l : Location) : List Path :=
  match s.readText l.path with
  | .ok text => namesIn text
  | .error _ => []

theorem scan_eq_namesAt (s : FileStore) (folders : List Path) (l : Location) :
    scan s folders l = (namesAt s l).filterMap (resolve? s l.parent.path folders) := by
  rw [scan, namesAt]
  cases s.readText l.path <;> rfl

theorem Graph.exists_scanning_start (g : Graph) (folders : List Path) (hl : l ∈ s.locations) :
    ∃ scanned, Scanning s folders g [l] scanned (visit s folders g [l]) :=
  exists_scanning_visit fun _ hk ↦ List.mem_singleton.1 hk ▸ hl

/-- The search that begins with a file meets what the file depends on. -/
theorem mem_locations_visit_iff (hl : l ∈ s.locations) :
    m ∈ (Graph.visit s folders {} [l]).locations ↔ Closure s folders l m := by
  constructor
  · intro hm
    obtain ⟨scanned, hscanning⟩ := Graph.exists_scanning_start {} folders hl
    have hscanned := (hscanning.mem_locations.1 hm).resolve_right List.not_mem_nil
    obtain ⟨k, hk, hclosure⟩ := hscanning.exists_closure hscanned
    rwa [List.mem_singleton.1 hk] at hclosure
  · intro hclosure
    have hgrown := Graph.grown_visit (@Graph.sound_empty s folders)
      (fun k hk ↦ List.mem_singleton.1 hk ▸ hl) fun k hk ↦ absurd hk List.not_mem_nil
    induction hclosure with
    | refl => exact hgrown.added l List.mem_cons_self
    | tail _ hnext ih => exact hgrown.closed _ ih _ (includes_iff.2 hnext)

/-- A search goes the same way in another store as long as it scans the same. -/
theorem Graph.Scanning.of_scan_eq {g grown : Graph} {pending scanned : List Location}
    (h : Scanning s folders g pending scanned grown)
    (hscan : ∀ k ∈ pending, ∀ m, Closure s folders k m → scan s' folders' m = scan s folders m) :
    Scanning s' folders' g pending scanned grown := by
  induction h with
  | done => exact .done
  | known hl _ ih => exact .known hl (ih fun k hk ↦ hscan k (List.mem_cons_of_mem _ hk))
  | @fresh _ _ first _ _ hl _ ih =>
    have hfirst := hscan first List.mem_cons_self first .refl
    refine .fresh hl ?_
    rw [hfirst]
    refine ih fun k hk m hclosure ↦ ?_
    rcases List.mem_append.1 hk with hk | hk
    · exact hscan first List.mem_cons_self m (.head (includes_iff.1 hk) hclosure)
    · exact hscan k (List.mem_cons_of_mem _ hk) m hclosure

theorem visit_eq_of_scan_eq (g : Graph) (hl : l ∈ s.locations) (hl' : l ∈ s'.locations)
    (hscan : ∀ m, Closure s folders l m → scan s' folders' m = scan s folders m) :
    Graph.visit s' folders' g [l] = Graph.visit s folders g [l] := by
  obtain ⟨scanned, hscanning⟩ := g.exists_scanning_start folders hl
  obtain ⟨scanned', hscanning'⟩ := g.exists_scanning_start folders' hl'
  have hsame : Graph.Scanning s' folders' g [l] scanned (Graph.visit s folders g [l]) :=
    hscanning.of_scan_eq fun k hk m ↦ List.mem_singleton.1 hk ▸ hscan m
  exact (hscanning'.unique hsame).2

/-- Where the files that a file depends on are the same, and what they include, the unit is the same. -/
theorem unit_eq (hl : l ∈ s.locations) (hl' : l ∈ s'.locations)
    (hcontent : ∀ m, Closure s folders l m → s'.content? m = s.content? m)
    (hscan : ∀ m, Closure s folders l m → scan s' folders' m = scan s folders m) :
    unit s' folders' l = unit s folders l := by
  rw [unit, unit, visit_eq_of_scan_eq {} hl hl' hscan]
  refine List.map_congr_left fun node hnode ↦ ?_
  rw [hcontent node.1 ((mem_locations_visit_iff hl).1 (List.mem_map_of_mem hnode))]

theorem closure_iff_of_scan_eq (hl : l ∈ s.locations) (hl' : l ∈ s'.locations)
    (hscan : ∀ m, Closure s folders l m → scan s' folders' m = scan s folders m) :
    Closure s' folders' l m ↔ Closure s folders l m := by
  rw [← mem_locations_visit_iff hl, ← mem_locations_visit_iff hl', visit_eq_of_scan_eq {} hl hl' hscan]

end Include

end Rebuild
