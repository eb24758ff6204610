import Rebuild.Project.Basic
import Rebuild.Proofs.FileStore.Walk
import Rebuild.Proofs.Include.Closure
import Rebuild.Proofs.Text.Offset

/-!
# Stale sources

A source of a project that has been scanned is stale exactly when it should be: everything is asked
for, its object is not there, or something that it depends on has changed after its object. That is
so for every source whose path the system accepts. A path can become too long for the system on the
way down from a source folder, and a source with such a path is listed but cannot be opened: it is
not in the graph, and once it has an object it is never stale again.
-/

namespace Rebuild.Project

open FileStore (WellFormed LeadsToFile tooLong)
open Include (Closure)

variable {s : FileStore}

/-- There is no object, or something that a source depends on has changed after it was made. -/
def Outdated (s : FileStore) (folders : List Path) (source : Location) (object : Path) : Prop :=
  s.pathExists object = false ∨
    ∃ built, s.modified? object = some built ∧
      ∃ m, Closure s folders source m ∧ ∃ time, s.modified? m.path = some time ∧ built < time

/-! ### The sources of a project -/

theorem mem_walk_of_mem_scan {root : Path} {config : Config} {file : ProjectFile}
    (h : file ∈ ProjectFile.scan s root config) :
    ∃ folder ∈ config.sourceFolders,
      file.path ∈ s.walk (fun p ↦ !config.isExcluded root p) (root.join folder) := by
  obtain ⟨folder, hfolder, h⟩ := List.mem_flatMap.1 h
  rw [ProjectFile.inFolder] at h
  split at h
  · obtain ⟨path, hpath, hfile⟩ := List.mem_filterMap.1 h
    obtain ⟨kind, -, rfl⟩ := Option.map_eq_some_iff.1 hfile
    exact ⟨folder, hfolder, hpath⟩
  · cases h

/-- Every source leads to a file. -/
theorem leadsToFile_of_mem_sources (hs : s.WellFormed) {root : Path} {config : Config}
    {stem : String} {installed : Option Path} {file : ProjectFile}
    (h : file ∈ (scan s root config stem installed).sources) : s.LeadsToFile file.path := by
  obtain ⟨folder, -, hwalk⟩ := mem_walk_of_mem_scan (List.mem_filter.1 h).1
  exact hs.leadsToFile_walk hwalk

/-! ### The graph of a project -/

/-- The graph of a project holds every source that can be found, and is complete. -/
theorem grown_scan (s : FileStore) (root : Path) (config : Config) (stem : String)
    (installed : Option Path) :
    let folders := includeFolders s root config installed
    let project := scan s root config stem installed
    Include.Graph.Grown s folders {}
      (project.sources.filterMap fun file ↦ Include.Graph.start? s folders file.path)
      project.graph :=
  Include.Graph.grown_foldl ProjectFile.path _ Include.Graph.sound_empty
    Include.Graph.closed_empty

theorem start?_of_pathExists {folders : List Path} {p : Path} {l : Location}
    (hopens : s.pathExists p = true) (hplace : s.canonical? p = some l) :
    Include.Graph.start? s folders p = some l := by
  rw [Include.Graph.start?, Include.firstExisting?, List.find?_cons_of_pos hopens,
    Option.bind_some, hplace]

/-! ### The decision -/

/-- Every source of a project leads to a file. If the system accepts the path of the source and the
path that spells where the file is, then staleness is exact. The plan of a build has one task for
each stale source, in order. -/
theorem isStale_iff_outdated (hs : s.WellFormed) (root : Path) (config : Config) (stem : String)
    (installed : Option Path) (all debug : Bool) :
    let folders := includeFolders s root config installed
    let project := scan s root config stem installed
    (∀ file ∈ project.sources, ∃ l content executable time,
      s.lead true file.path = .ok (.existing l) ∧
      s.find? l = some (.file content executable time) ∧
      (tooLong file.path = false → tooLong l.path = false →
        (project.isStale s all file = true ↔
          all = true ∨ Outdated s folders l (project.objectOf file)))) ∧
    project.plan s all debug =
      (project.sources.filter (project.isStale s all)).map (project.task debug) := by
  intro folders project
  refine ⟨fun file hfile ↦ ?_, rfl⟩
  obtain ⟨l, content, executable, time, hlead, hfind⟩ := leadsToFile_of_mem_sources hs hfile
  refine ⟨l, content, executable, time, hlead, hfind, fun hshort hshort' ↦ ?_⟩
  have hsome := Option.isSome_of_eq_some hfind
  have hplace := FileStore.canonical?_of_lead hlead hsome hshort'
  have hopens := FileStore.pathExists_of_lead hlead hsome hshort
  have hgrown := grown_scan s root config stem installed
  have hl : l ∈ project.graph.locations :=
    hgrown.added l (List.mem_filterMap.2 ⟨file, hfile, start?_of_pathExists hopens hplace⟩)
  have hneeds := Include.needsRebuild_iff hs hgrown.sound hgrown.closed hplace hl
  rw [isStale, Bool.or_eq_true, Outdated, ← hs.modified?_isSome]
  refine or_congr_right ?_
  cases hbuilt : s.modified? (project.objectOf file) with
  | none => simp
  | some built => simpa using hneeds built

/-- A configuration in which nothing is set but the folders of the sources. -/
def plainConfig (sourceFolders : List Path) : Config where
  name := "app"
  compiler := "g++"
  standard := "c++20"
  includeFolders := []
  libraries := []
  libraryFolders := []
  sourceFolders
  excluded := []
  linkFlags := []
  compileFlags := []
  macros := []
  threads := some 1
  output := .binary
  platform := .linux
  raw := ⟨[]⟩

/-- A store with a source, a header that it includes, and an object that is older than the
header. -/
def newerHeader : FileStore where
  entries := [(.root, .folder 0), (⟨["src"]⟩, .folder 0),
    (⟨["src", "a.c"]⟩, .file (Text.Utf8.encode "#include \"a.h\"\n") false 10),
    (⟨["src", "a.h"]⟩, .file .empty false 30), (⟨["obj"]⟩, .folder 0),
    (⟨["obj", "default"]⟩, .folder 0), (⟨["obj", "default", "src"]⟩, .folder 0),
    (⟨["obj", "default", "src", "a.o"]⟩, .file .empty false 20)]
  clock := 40

/-- A header that is newer than the object makes its includer stale. -/
theorem isStale_of_newerHeader :
    let project := scan newerHeader ⟨"."⟩ (plainConfig [⟨"src"⟩]) "default"
    newerHeader.WellFormed ∧ ∃ file ∈ project.sources,
      project.isStale newerHeader false file = true := by
  have hs : newerHeader.WellFormed := by decide +kernel
  refine ⟨hs, ⟨⟨"./src/a.c"⟩, ⟨"src/a.c"⟩, .source⟩, by decide +kernel, ?_⟩
  obtain ⟨hstale, -⟩ :=
    isStale_iff_outdated hs ⟨"."⟩ (plainConfig [⟨"src"⟩]) "default" none false false
  obtain ⟨l, -, -, -, hlead, -, hiff⟩ := hstale ⟨⟨"./src/a.c"⟩, ⟨"src/a.c"⟩, .source⟩ (by decide +kernel)
  have hplace : newerHeader.lead true ⟨"./src/a.c"⟩ = .ok (.existing ⟨["src", "a.c"]⟩) := by
    decide +kernel
  obtain rfl : l = ⟨["src", "a.c"]⟩ := by
    injection (hlead.symm.trans hplace) with h
    injection h
  refine (hiff (by decide +kernel) (by decide +kernel)).2 (Or.inr (Or.inr ?_))
  refine ⟨20, by decide +kernel, ⟨["src", "a.h"]⟩, .single ?_, 30, by decide +kernel, by decide⟩
  exact Include.includes_iff.1 (by rw [Include.Graph.Includes]; decide +kernel)

/-! ### Sources that cannot be opened -/

/-- A path that is too long stays so in any folder. -/
theorem tooLong_join (folder : Path) {p : Path} (h : tooLong p = true) :
    tooLong (folder.join p) = true := by
  rw [tooLong, decide_eq_true_iff] at h ⊢
  rw [Path.join]
  split
  · exact h
  split <;> simp only [String.toList_append, Text.byteLength_append] <;> omega

theorem pathExists_of_tooLong {p : Path} (h : tooLong p = true) : s.pathExists p = false := by
  rw [FileStore.pathExists, FileStore.stat, FileStore.locate, FileStore.resolve, h]
  split <;> rfl

theorem start?_of_tooLong {folders : List Path} {p : Path} (h : tooLong p = true) :
    Include.Graph.start? s folders p = none := by
  rw [Include.Graph.start?, Include.firstExisting?, Option.bind_eq_none_iff]
  intro q hq
  have hmem := List.mem_of_find?_eq_some hq
  have hexists := List.find?_some hq
  have hlong : tooLong q = true := by
    rcases List.mem_cons.1 hmem with rfl | hmem
    · exact h
    · obtain ⟨folder, -, rfl⟩ := List.mem_map.1 hmem
      exact tooLong_join folder h
  rw [pathExists_of_tooLong hlong] at hexists
  cases hexists

/-- When no source can be opened, a source is stale only as long as it has no object. -/
theorem isStale_of_tooLong {root : Path} {config : Config} {stem : String}
    {installed : Option Path} {file : ProjectFile} (hs : s.WellFormed)
    (hlong : ∀ file ∈ (scan s root config stem installed).sources, tooLong file.path = true) :
    let project := scan s root config stem installed
    project.isStale s false file = !s.pathExists (project.objectOf file) := by
  intro project
  have hgraph : project.graph = {} := by
    have hadd : ∀ sources : List ProjectFile, (∀ file ∈ sources, tooLong file.path = true) →
        ∀ g : Include.Graph, sources.foldl (fun g file ↦
          g.add s (includeFolders s root config installed) file.path) g = g := by
      intro sources hsources
      induction sources with
      | nil => exact fun _ ↦ rfl
      | cons first rest ih =>
        intro g
        rw [List.foldl_cons, Include.Graph.add, start?_of_tooLong (hsources _ List.mem_cons_self)]
        exact ih (fun file h ↦ hsources file (List.mem_cons_of_mem _ h)) g
    exact hadd _ hlong {}
  rw [isStale, Bool.false_or, ← hs.modified?_isSome, hgraph]
  cases s.modified? (project.objectOf file) with
  | none => rfl
  | some built =>
    show Include.Graph.needsRebuild {} s file.path built = false
    rw [Include.Graph.needsRebuild]
    cases Include.Graph.key? s file.path with
    | none => rfl
    | some l =>
      show Include.Graph.reaches {} _ [] [l] = false
      simp [Include.Graph.reaches, Include.Graph.includes?]

/-- A path with dots in front of the folder of the sources. -/
def dotted (n : Nat) : Path :=
  Path.ofBody false (List.replicate (n + 1) "." ++ ["src"])

theorem no_slash_dotted (n : Nat) :
    ∀ segment ∈ List.replicate n "." ++ ["src"], '/' ∉ segment.toList := by
  intro segment h
  rcases List.mem_append.1 h with h | h
  · rw [List.eq_of_mem_replicate h]
    decide
  · rw [List.mem_singleton.1 h]
    decide

theorem body_dotted (n : Nat) : (dotted n).body = List.replicate (n + 1) "." ++ ["src"] :=
  Path.body_ofBody_false (by decide) (no_slash_dotted (n + 1))

theorem isAbsolute_dotted (n : Nat) : (dotted n).isAbsolute = false :=
  Path.isAbsolute_ofBody_false (by decide) (by decide)

theorem toList_dotted_succ (n : Nat) :
    (dotted (n + 1)).text.toList = '.' :: '/' :: (dotted n).text.toList := by
  rw [dotted, dotted, Path.toList_ofBody, Path.toList_ofBody, List.replicate_succ,
    List.cons_append, List.map_cons, List.replicate_succ, List.cons_append, List.map_cons,
    List.intercalate_cons_cons]
  rfl

theorem join_dotted (n : Nat) : (⟨"."⟩ : Path).join (dotted n) = dotted (n + 1) := by
  have htext : ("." ++ "/" ++ (dotted n).text) = (dotted (n + 1)).text := by
    rw [← String.toList_inj, toList_dotted_succ]
    simp
  have hdot : ¬ (("." : String).isEmpty || ("." : String).toList.getLast? = some '/') = true := by
    simp
  rw [Path.join, isAbsolute_dotted, if_neg (by decide), if_neg hdot]
  exact congrArg Path.mk htext

theorem byteLength_dotted (n : Nat) :
    Text.byteLength (dotted n).text.toList = 2 * n + 5 := by
  induction n with
  | zero => rfl
  | succ n ih =>
    rw [toList_dotted_succ]
    show 1 + (1 + Text.byteLength (dotted n).text.toList) = _
    omega

theorem no_nul_dotted (n : Nat) : (dotted n).text.toList.contains '\x00' = false := by
  induction n with
  | zero => rfl
  | succ n ih =>
    rw [toList_dotted_succ]
    simpa using ih

theorem not_isEmpty_dotted (n : Nat) : (dotted n).text.isEmpty = false := by
  have h := byteLength_dotted n
  rw [← Bool.not_eq_true, String.isEmpty_iff]
  rintro heq
  rw [heq] at h
  exact absurd h (by simp [Text.byteLength])

/-- Dots lead nowhere else. -/
theorem followWith_dots {followLast : Bool}
    {pass : Location → List String → Except FileError FileStore.Destination} {here : Location}
    (n : Nat) (rest : List String) :
    s.followWith followLast pass here (List.replicate n "." ++ rest) =
      s.followWith followLast pass here rest := by
  induction n with
  | zero => rfl
  | succ n ih => rw [List.replicate_succ, List.cons_append, FileStore.followWith, if_pos (by simp), ih]

/-- A store with a source that is newer than its object. -/
def newerSource : FileStore where
  entries := [(.root, .folder 0), (⟨["src"]⟩, .folder 0),
    (⟨["src", "a.c"]⟩, .file .empty false 200), (⟨["obj"]⟩, .folder 0),
    (⟨["obj", "default"]⟩, .folder 0), (⟨["obj", "default", "src"]⟩, .folder 0),
    (⟨["obj", "default", "src", "a.o"]⟩, .file .empty false 100)]
  clock := 300

theorem wellFormed_newerSource : newerSource.WellFormed := by decide +kernel

/-- The dots lead to the folder of the sources. -/
theorem lead_dotted_of_hasFolder (hcurrent : s.current = .root) (hfolder : s.HasFolder ⟨["src"]⟩) (n : Nat)
    (followLast : Bool) : s.lead followLast (dotted n) = .ok (.existing ⟨["src"]⟩) := by
  have hname : FileStore.EntryName "src" := by decide
  obtain ⟨pass, hpass⟩ := FileStore.follow_eq_followWith s followLast FileStore.maxLinks
  rw [FileStore.lead, no_nul_dotted, not_isEmpty_dotted, isAbsolute_dotted, body_dotted, hpass, hcurrent]
  simp only [Bool.false_eq_true, if_false]
  rw [followWith_dots, FileStore.followWith_cons, FileStore.pace_folder hname hfolder]
  rfl

theorem lead_dotted (n : Nat) (followLast : Bool) :
    newerSource.lead followLast (dotted n) = .ok (.existing ⟨["src"]⟩) :=
  lead_dotted_of_hasFolder rfl ⟨0, rfl⟩ n followLast

theorem components_dotted (n : Nat) : (dotted n).components = [.current, .name "src"] := by
  have hdots : (List.replicate n "." ++ ["src"]).filter Path.matters = ["src"] := by
    rw [List.filter_append, List.filter_replicate]
    rfl
  rw [Path.components, isAbsolute_dotted, if_neg (by decide), body_dotted, List.replicate_succ,
    List.cons_append]
  show Component.current :: ((List.replicate n "." ++ ["src"]).filter Path.matters).map _ = _
  rw [hdots]
  rfl

theorem ordinaryName_source : Path.OrdinaryName "a.c" :=
  ⟨by decide, by decide, by decide, by decide, by decide⟩

/-- Where a path sits depends on its normal form only. -/
theorem relativeTo_of_normalize {p q : Path} (h : p.normalize = q.normalize) (root : Path) :
    root.relativeTo p = root.relativeTo q := by
  unfold Path.relativeTo
  simp only [h]

/-- The source behind the dots. -/
def dottedSource (n : Nat) : ProjectFile where
  path := (dotted (n + 1)).joinName "a.c"
  relative := ⟨"src/a.c"⟩
  kind := .source

theorem components_dottedSource (n : Nat) :
    (dottedSource n).path.components = [.current, .name "src", .name "a.c"] := by
  rw [dottedSource, Path.components_joinName ordinaryName_source.segmentName,
    components_dotted]
  rfl

theorem tooLong_dotted (n : Nat) :
    tooLong (dotted n) = decide (FileStore.maxPathLength < 2 * n + 5) := by
  rw [tooLong, byteLength_dotted]

theorem walk_dotted {n : Nat} (hshort : tooLong (dotted n) = false) {keep : Path → Bool}
    (hkeep : ∀ p, keep p = true) :
    newerSource.walk keep (dotted n) = [(dotted n).joinName "a.c"] := by
  have hfolder : newerSource.find? ⟨["src"]⟩ = some (.folder 0) := rfl
  have hfile : newerSource.find? (Location.child ⟨["src"]⟩ "a.c") =
      some (.file .empty false 200) := rfl
  have hnames : newerSource.childNames ⟨["src"]⟩ = ["a.c"] := rfl
  rw [FileStore.walk, FileStore.locate_of_lead (lead_dotted n false) hfolder hshort]
  show newerSource.filesAt keep (dotted n) ⟨["src"]⟩ = _
  rw [FileStore.filesAt_of_folder (hkeep _) hfolder hshort, hnames, List.flatMap_singleton,
    FileStore.filesAt_of_file (hkeep _) hfile]

/-- The source is found as long as its folder can be opened. -/
theorem scan_dotted (n : Nat) (h : 2 * n + 7 ≤ FileStore.maxPathLength) :
    ProjectFile.scan newerSource ⟨"."⟩ (plainConfig [dotted n]) = [dottedSource n] := by
  have hshort : tooLong (dotted (n + 1)) = false := by
    rw [tooLong_dotted, decide_eq_false_iff_not]
    omega
  have hopens : newerSource.pathExists (dotted (n + 1)) = true :=
    FileStore.pathExists_of_lead (lead_dotted (n + 1) true) rfl hshort
  have hwalk : newerSource.walk
      (fun p ↦ !(plainConfig [dotted n]).isExcluded ⟨"."⟩ p) (dotted (n + 1)) =
        [(dottedSource n).path] :=
    walk_dotted hshort fun _ ↦ rfl
  have hkind : FileKind.ofPath? (dottedSource n).path = some .source := by
    rw [FileKind.ofPath?, Path.extension?, Path.fileName?, components_dottedSource]
    decide +kernel
  have hnormal : (dottedSource n).path.normalize = (⟨"src/a.c"⟩ : Path).normalize := by
    rw [Path.normalize, components_dottedSource]
    decide +kernel
  have hrelative : (⟨"."⟩ : Path).relativeTo (dottedSource n).path = ⟨"src/a.c"⟩ :=
    (relativeTo_of_normalize hnormal ⟨"."⟩).trans (by decide +kernel)
  show (ProjectFile.inFolder newerSource ⟨"."⟩ (plainConfig [dotted n]) (dotted n)) ++ [] = _
  rw [ProjectFile.inFolder, join_dotted, if_pos hopens, hwalk]
  simp only [List.filterMap_cons, hkind, Option.map_some, hrelative, List.filterMap_nil]
  rfl

theorem tooLong_dottedSource {n : Nat} (h : FileStore.maxPathLength < 2 * n + 10) :
    tooLong (dottedSource n).path = true := by
  have hname : Text.byteLength "a.c".toList = 3 := rfl
  rw [tooLong, decide_eq_true_iff, dottedSource,
    Path.toList_joinName ordinaryName_source.no_slash, Text.byteLength_append,
    Text.byteLength_append, byteLength_dotted, hname]
  omega

theorem lead_dottedSource (n : Nat) :
    newerSource.lead true (dottedSource n).path = .ok (.existing ⟨["src", "a.c"]⟩) := by
  have hname : FileStore.EntryName "a.c" := ⟨ordinaryName_source, by decide⟩
  have hfolder : newerSource.HasFolder ⟨["src"]⟩ := ⟨0, rfl⟩
  exact FileStore.lead_child hname hfolder (lead_dotted (n + 1) true) rfl (by simp)

/-- Where the folder of the sources can be opened but not what is in it, a source that is newer than
its object is not stale. -/
theorem exists_not_isStale {n : Nat} (h : 2 * n + 7 ≤ FileStore.maxPathLength)
    (hlong : FileStore.maxPathLength < 2 * n + 10) :
    let project := scan newerSource ⟨"."⟩ (plainConfig [dotted n]) "default"
    ∃ file ∈ project.sources, ∃ l, newerSource.canonical? file.path = some l ∧
      Outdated newerSource (includeFolders newerSource ⟨"."⟩ (plainConfig [dotted n]) none) l
        (project.objectOf file) ∧
      project.isStale newerSource false file = false := by
  intro project
  have hsources : project.sources = [dottedSource n] := by
    show (ProjectFile.scan _ _ _).filter _ = _
    rw [scan_dotted n h]
    rfl
  have hobject : project.objectOf (dottedSource n) = ⟨"./obj/default/src/a.o"⟩ := by
    show objectPath ⟨"."⟩ "default" ⟨"src/a.c"⟩ "o" = _
    decide +kernel
  have hbuilt : newerSource.modified? ⟨"./obj/default/src/a.o"⟩ = some 100 := by decide +kernel
  refine ⟨dottedSource n, by rw [hsources]; exact List.mem_singleton_self _,
    ⟨["src", "a.c"]⟩, ?_, ?_, ?_⟩
  · exact FileStore.canonical?_of_lead (lead_dottedSource n) rfl (by decide +kernel)
  · rw [hobject]
    exact Or.inr ⟨100, hbuilt, ⟨["src", "a.c"]⟩, .refl, 200, by decide +kernel, by decide⟩
  · have hall : ∀ file ∈ project.sources, tooLong file.path = true := by
      intro file hfile
      rw [hsources, List.mem_singleton] at hfile
      rw [hfile]
      exact tooLong_dottedSource hlong
    rw [isStale_of_tooLong wellFormed_newerSource hall, hobject,
      ← wellFormed_newerSource.modified?_isSome, hbuilt]
    rfl

/-- With dots enough in front of the folder of the sources, a source that is newer than its object
is not stale. -/
theorem not_isStale_of_tooLong :
    let project := scan newerSource ⟨"."⟩ (plainConfig [dotted 2043]) "default"
    newerSource.WellFormed ∧ ∃ file ∈ project.sources, ∃ l,
      newerSource.canonical? file.path = some l ∧
      Outdated newerSource (includeFolders newerSource ⟨"."⟩ (plainConfig [dotted 2043]) none) l
        (project.objectOf file) ∧
      project.isStale newerSource false file = false :=
  ⟨wellFormed_newerSource, exists_not_isStale (by decide) (by decide)⟩

end Rebuild.Project
