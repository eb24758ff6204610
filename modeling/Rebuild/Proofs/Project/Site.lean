import Rebuild.Proofs.FileStore.Lasting
import Rebuild.Proofs.Include.Unit
import Rebuild.Proofs.Project.Ready
import Rebuild.Proofs.Project.Sources

/-!
# Projects that are loaded again and again

A *site* is what stays of a project while files come and change: its configuration, and where outputs
are. The project is loaded anew for each build. A site *fits* a store when the project that is loaded
from it is ready and the system accepts its paths. From one store to a later one a site is *steady*
when no include and no library comes to lead to a file that was there before: a new folder can open the
way to an old file, since a path may go up out of the folder again.

Sources are then listed in the same order, with new ones in between, and the translation unit of a
source is the same as long as the files in it are.
-/

namespace Rebuild

open FileStore

/-- What is the same in all builds of a project. -/
structure Site where
  /-- The folder that relative paths of the configuration begin in. -/
  root : Path
  /-- The settings. -/
  config : Config
  /-- The name of the configuration. -/
  stem : String
  /-- Where exported headers are installed. -/
  installed : Option Path := none
  /-- Whether debug symbols are wanted. -/
  debug : Bool := false
  /-- Where outputs are. -/
  place : Path → Location

namespace Site

variable {site : Site} {s s' : FileStore} {file : ProjectFile} {l m : Location} {p : Path}

/-! ### What is loaded -/

/-- The project, as it is loaded. -/
def project (site : Site) (s : FileStore) : Project :=
  Project.scan s site.root site.config site.stem site.installed

/-- The files that are compiled. -/
def sources (site : Site) (s : FileStore) : List ProjectFile :=
  (site.project s).sources

/-- The folders that are searched for included files. -/
def folders (site : Site) (s : FileStore) : List Path :=
  Project.includeFolders s site.root site.config site.installed

/-- The places where libraries may be. -/
def libraryPaths (site : Site) : List Path :=
  Rebuild.libraryPaths site.config site.root

/-- The libraries that are there, with their bytes. -/
def libraries (site : Site) (s : FileStore) : List (Path × ByteArray) :=
  site.libraryPaths.filterMap fun p ↦ (s.readBytes p).toOption.map (p, ·)

/-! ### What is built -/

/-- The object of a file. -/
def objectOf (site : Site) (file : ProjectFile) : Path :=
  objectPath site.root site.stem file.relative site.config.platform.objectExtension

/-- Where the object of a file is. -/
def objectPlace (site : Site) (file : ProjectFile) : Location :=
  site.place (site.objectOf file)

/-- Where the artifact is. -/
def artifactPlace (site : Site) : Location :=
  site.place (site.root.join site.config.artifactPath)

/-- Where the outputs of the project are, as it is loaded. -/
def outputPlaces (site : Site) (s : FileStore) : List Location :=
  (site.project s).outputs.map site.place

/-- Whether builds write to a location, whatever files there are. -/
def Written (site : Site) (l : Location) : Prop :=
  ∃ s, l ∈ site.outputPlaces s

theorem artifactPlace_mem (site : Site) (s : FileStore) : site.artifactPlace ∈ site.outputPlaces s :=
  List.mem_map_of_mem (site.project s).artifact_mem_outputs

theorem outputs_project (site : Site) (s : FileStore) : (site.project s).outputs =
    site.root.join site.config.artifactPath :: site.root.joinName Project.databaseName ::
      (site.sources s).map site.objectOf :=
  rfl

theorem outputPlaces_eq_cons (site : Site) (s : FileStore) : site.outputPlaces s =
    site.artifactPlace :: site.place (site.root.joinName Project.databaseName) ::
      (site.sources s).map site.objectPlace := by
  rw [outputPlaces, outputs_project, List.map_cons, List.map_cons, List.map_map]
  rfl

/-- Builds write the artifact, the compile database, and the objects of the sources. -/
theorem mem_outputPlaces : l ∈ site.outputPlaces s ↔ l = site.artifactPlace ∨
    l = site.place (site.root.joinName Project.databaseName) ∨
      ∃ file ∈ site.sources s, site.objectPlace file = l := by
  rw [outputPlaces_eq_cons, List.mem_cons, List.mem_cons, List.mem_map]

theorem objectOf_mem_objects (hfile : file ∈ site.sources s) :
    site.objectOf file ∈ (site.project s).objects :=
  List.mem_map_of_mem hfile

theorem objectOf_mem (hfile : file ∈ site.sources s) :
    site.objectOf file ∈ (site.project s).outputs :=
  Project.mem_outputs_of_mem_objects (objectOf_mem_objects hfile)

theorem objectPlace_mem (hfile : file ∈ site.sources s) :
    site.objectPlace file ∈ site.outputPlaces s :=
  List.mem_map_of_mem (objectOf_mem hfile)

/-! ### Sources while files come -/

/-- Whether a path is that of a source. -/
def isSource (p : Path) : Bool :=
  FileKind.ofPath? p = some .source

/-- The source at a path. -/
def sourceAt (site : Site) (p : Path) : ProjectFile :=
  { path := p, relative := site.root.relativeTo p, kind := .source }

theorem filter_inFolder (site : Site) (s : FileStore) (folder : Path) :
    (ProjectFile.inFolder s site.root site.config folder).filter (·.kind = .source) =
      ((Project.listed s site.root site.config folder).filter isSource).map site.sourceAt := by
  have hlisted : ProjectFile.inFolder s site.root site.config folder =
      (Project.listed s site.root site.config folder).filterMap fun path ↦
        (FileKind.ofPath? path).map fun kind ↦
          { path, relative := site.root.relativeTo path, kind } := by
    rw [ProjectFile.inFolder]
    split
    · rfl
    next hnot => rw [Project.listed, walk_of_not_pathExists (Bool.eq_false_iff.2 hnot)]; rfl
  rw [hlisted]
  induction Project.listed s site.root site.config folder with
  | nil => rfl
  | cons path paths ih =>
    rw [List.filterMap_cons, List.filter_cons, isSource]
    cases FileKind.ofPath? path with
    | none => exact ih
    | some kind => cases kind <;> simp [ih, sourceAt]

/-- The sources are what the source folders list and what is a source. -/
theorem sources_eq (site : Site) (s : FileStore) : site.sources s =
    ((site.config.sourceFolders.flatMap (Project.listed s site.root site.config)).filter
      isSource).map site.sourceAt := by
  show (site.config.sourceFolders.flatMap _).filter _ = _
  rw [List.filter_flatMap, List.filter_flatMap, List.map_flatMap]
  exact List.flatMap_congr fun folder _ ↦ site.filter_inFolder s folder

/-- Sources that are still there are listed in the same order. -/
theorem sublist_sources (hkeeps : s.KeepsWays s') (hs : s.WellFormed) (hdistinct : s.locations.Nodup)
    (hstill : ∀ file ∈ site.sources s, ∀ l, s.lead true file.path = .ok (.existing l) →
      s'.HasFile l) : (site.sources s).Sublist (site.sources s') := by
  have hlisted : ∀ folder ∈ site.config.sourceFolders,
      ((Project.listed s site.root site.config folder).filter isSource).Sublist
        ((Project.listed s' site.root site.config folder).filter isSource) := by
    intro folder hfolder
    have hsub : ((Project.listed s site.root site.config folder).filter isSource).Sublist
        (Project.listed s' site.root site.config folder) := by
      refine hkeeps.sublist_walk hs hdistinct fun q hq hgood x hlead ↦ ?_
      refine hstill (site.sourceAt q) ?_ x hlead
      rw [sources_eq]
      exact List.mem_map_of_mem
        (List.mem_filter.2 ⟨List.mem_flatMap.2 ⟨folder, hfolder, hq⟩, hgood⟩)
    have hfiltered := hsub.filter isSource
    simp only [List.filter_filter, Bool.and_self] at hfiltered
    exact hfiltered
  rw [sources_eq, sources_eq, List.filter_flatMap, List.filter_flatMap]
  exact (List.Sublist.flatMap_right _ hlisted).map _

/-! ### Sites that fit a store -/

/-- The project that is loaded can be built, and the system accepts the paths in it. -/
structure Fits (site : Site) (s : FileStore) : Prop where
  /-- The project is ready. -/
  ready : (site.project s).Ready site.place s
  /-- Nothing is listed twice. -/
  distinct : s.locations.Nodup
  /-- Paths of sources are accepted, as are those that spell where sources are. -/
  short : ∀ file ∈ site.sources s, tooLong file.path = false ∧
    ∀ l, s.lead true file.path = .ok (.existing l) → tooLong l.path = false
  /-- No include leads to an output. -/
  includes : ∀ l ∈ (site.project s).graph.locations, ∀ name ∈ Include.namesAt s l, ∀ p,
    Include.firstExisting? s ((l.parent.path :: site.folders s).map (·.join name)) = some p →
      ∀ m, s.resolve true p = .ok (.existing m) → m ∉ site.outputPlaces s
  /-- No library is an output. -/
  libraries : ∀ p ∈ site.libraryPaths, ∀ l, s.resolve true p = .ok (.existing l) →
    l ∉ site.outputPlaces s

namespace Fits

theorem wellFormed (h : site.Fits s) : s.WellFormed :=
  h.ready.wellFormed

/-- A source leads to a file that is in the graph. -/
theorem exists_start (h : site.Fits s) (hfile : file ∈ site.sources s) :
    ∃ l, s.lead true file.path = .ok (.existing l) ∧ s.HasFile l ∧ l ∉ site.outputPlaces s ∧
      l ∈ (site.project s).graph.locations := by
  obtain ⟨l, hlead, hl, hnot⟩ := h.ready.sources file hfile
  obtain ⟨hshort, hshort'⟩ := h.short file hfile
  have hsome := isSome_of_hasFile hl
  have hopens := pathExists_of_lead hlead hsome hshort
  have hplace := canonical?_of_lead hlead hsome (hshort' l hlead)
  have hgrown := Project.grown_scan s site.root site.config site.stem site.installed
  exact ⟨l, hlead, hl, hnot, hgrown.added l (List.mem_filterMap.2
    ⟨file, hfile, Project.start?_of_pathExists hopens hplace⟩)⟩

/-- What is in the graph depends on what is in the graph. -/
theorem mem_graph (h : l ∈ (site.project s).graph.locations)
    (hclosure : Include.Closure s (site.folders s) l m) :
    m ∈ (site.project s).graph.locations := by
  have hgrown := Project.grown_scan s site.root site.config site.stem site.installed
  induction hclosure with
  | refl => exact h
  | tail _ hnext ih => exact hgrown.closed _ ih _ (Include.includes_iff.2 hnext)

/-- Different sources have objects at different places. -/
theorem eq_of_objectPlace_eq {other : ProjectFile} (h : site.Fits s) (hfile : file ∈ site.sources s)
    (hother : other ∈ site.sources s) (heq : site.objectPlace file = site.objectPlace other) :
    file = other :=
  List.inj_on_of_nodup_map h.ready.nodup_objects hfile hother
    (h.ready.eq_of_place_eq (objectOf_mem hfile) (objectOf_mem hother) heq)

theorem nodup_sources (h : site.Fits s) : (site.sources s).Nodup :=
  h.ready.nodup_objects.of_map

end Fits

/-! ### Steady sites -/

/-- No include and no library comes to lead to a file that was there before. -/
structure Steady (site : Site) (s s' : FileStore) : Prop where
  /-- An include leads where it led before, or to a file that was not there. -/
  includes : ∀ l ∈ (site.project s').graph.locations, ∀ name ∈ Include.namesAt s' l,
    let found := Include.resolve? s' l.parent.path (site.folders s') name
    found = Include.resolve? s l.parent.path (site.folders s) name ∨
      ∃ m, found = some m ∧ s.find? m = none
  /-- A library leads where it led before, or to a file that was not there. -/
  libraries : ∀ p ∈ site.libraryPaths, ∀ l, s'.resolve true p = .ok (.existing l) →
    s.resolve true p = .ok (.existing l) ∨ s.find? l = none

/-- The names in a file that is the same are the same. -/
theorem namesAt_eq (hs : s.WellFormed) (hs' : s'.WellFormed) (hl : s'.HasFile l)
    (hshort : tooLong l.path = false) (hsame : s'.find? l = s.find? l) :
    Include.namesAt s' l = Include.namesAt s l := by
  obtain ⟨content, executable, time, hfind⟩ := exists_find?_of_hasFile hl
  have hread {s : FileStore} (hs : s.WellFormed)
      (hfind : s.find? l = some (.file content executable time)) :
      s.readBytes l.path = .ok content := by
    rw [readBytes, hs.stat_path hfind (by simp) hshort]
  rw [Include.namesAt, Include.namesAt, readText, readText, hread hs' hfind,
    hread hs (hsame ▸ hfind)]

/-- As long as the files in a translation unit are the same, the unit is the same. -/
theorem Steady.unit_eq (h : site.Steady s s') (hs : s.WellFormed) (hfits : site.Fits s')
    (hl : l ∈ (site.project s').graph.locations)
    (hsame : ∀ m, Include.Closure s' (site.folders s') l m → s'.find? m = s.find? m) :
    Include.unit s' (site.folders s') l = Include.unit s (site.folders s) l ∧
      ∀ m, Include.Closure s (site.folders s) l m ↔ Include.Closure s' (site.folders s') l m := by
  have hscan : ∀ m, Include.Closure s' (site.folders s') l m →
      Include.scan s (site.folders s) m = Include.scan s' (site.folders s') m := by
    intro m hclosure
    have hm := Fits.mem_graph hl hclosure
    obtain ⟨hfile, hshort, -⟩ := hfits.ready.nodes m hm
    rw [Include.scan_eq_namesAt, Include.scan_eq_namesAt,
      ← namesAt_eq hs hfits.wellFormed hfile hshort (hsame m hclosure)]
    refine List.filterMap_congr fun name hname ↦ ?_
    rcases h.includes m hm name hname with hfound | ⟨k, hfound, hnone⟩
    · exact hfound.symm
    · -- what is new would be in the unit, and not the same
      have hincludes : k ∈ Include.scan s' (site.folders s') m := by
        rw [Include.scan_eq_namesAt]
        exact List.mem_filterMap.2 ⟨name, hname, hfound⟩
      have hk := hclosure.tail (Include.includes_iff.1 hincludes)
      obtain ⟨hfile', -⟩ := hfits.ready.nodes k (Fits.mem_graph hl hk)
      have hsome := isSome_of_hasFile hfile'
      rw [hsame k hk, hnone] at hsome
      cases hsome
  have hthere := isSome_of_hasFile (hfits.ready.nodes l hl).1
  have hmem := find?_isSome_iff.1 hthere
  have hmem' := find?_isSome_iff.1 (hsame l .refl ▸ hthere)
  have hcontent : ∀ m, Include.Closure s' (site.folders s') l m → s.content? m = s'.content? m :=
    fun m hm ↦ content?_congr (hsame m hm).symm
  exact ⟨(Include.unit_eq hmem hmem' hcontent hscan).symm, fun m ↦
    Include.closure_iff_of_scan_eq hmem hmem' hscan⟩

end Site

end Rebuild
