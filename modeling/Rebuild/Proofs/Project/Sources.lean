import Rebuild.Proofs.FileStore.Listing
import Rebuild.Proofs.Project.Objects
import Rebuild.Proofs.Project.Staleness

/-!
# Sources and their objects

A source can be listed twice, and two sources can have one object: source folders may overlap, the names
of two sources in a folder may differ in the extension only, and what lies outside the root is put below
one folder, however far out it lies. These are all the ways (`sources_apart`).
-/

namespace Rebuild

/-! ### Places below a root -/

namespace Path

variable {p q root : Path}

theorem liesIn_iff : p.LiesIn root ↔ p.normalForm.absolute = root.normalForm.absolute ∧
    p.normalForm.climbs = root.normalForm.climbs ∧ root.normalForm.names <+: p.normalForm.names := by
  constructor
  · rintro ⟨names, h⟩
    rw [h]
    exact ⟨rfl, rfl, List.prefix_append _ _⟩
  · rintro ⟨habsolute, hclimbs, names, hnames⟩
    refine ⟨names, ?_⟩
    rw [NormalForm.extend, hnames, ← habsolute, ← hclimbs]

/-- Of two paths that can be extended to one normal form, one lies in the other. -/
theorem liesIn_or_liesIn {names others : List String}
    (h : p.normalForm.extend names = q.normalForm.extend others) : p.LiesIn q ∨ q.LiesIn p := by
  rw [NormalForm.extend, NormalForm.extend, NormalForm.mk.injEq] at h
  obtain ⟨habsolute, hclimbs, hnames⟩ := h
  rcases List.prefix_or_prefix_of_prefix ⟨names, hnames⟩ (List.prefix_append _ others) with h | h
  · exact .inr (liesIn_iff.2 ⟨habsolute.symm, hclimbs.symm, h⟩)
  · exact .inl (liesIn_iff.2 ⟨habsolute, hclimbs, h⟩)

instance : Decidable (p.LiesIn root) :=
  decidable_of_iff _ liesIn_iff.symm

/-- The names of the place of a path: those behind the root's, or those of the normal path below the folder
of external files. -/
def placeNames (root p : Path) : List String :=
  if p.LiesIn root then p.normalForm.names.drop root.normalForm.names.length
  else externalFolder :: p.normalForm.names

theorem names_relativeTo (root p : Path) : (root.relativeTo p).names = placeNames root p := by
  rw [placeNames]
  split
  next h =>
    obtain ⟨names, h⟩ := h
    rw [names_of_components (components_relativeTo_of_extend h), h]
    exact (List.drop_left).symm
  next h => exact names_of_components (components_relativeTo_of_not_liesIn h)

end Path

/-- The location that a path leads to when links are followed. -/
def FileStore.landing? (s : FileStore) (p : Path) : Option Location :=
  match s.lead true p with
  | .ok (.existing l) => some l
  | _ => none

theorem FileStore.landing?_of_lead {s : FileStore} {p : Path} {l : Location}
    (h : s.lead true p = .ok (.existing l)) : s.landing? p = some l := by
  rw [landing?, h]

namespace Project

open FileStore (WellFormed)
open Rebuild.Path (Segment)

variable {s : FileStore} {root : Path} {config : Config} {stem : String} {installed : Option Path}

/-! ### The paths of sources -/

/-- The paths that walking a source folder lists. -/
def listed (s : FileStore) (root : Path) (config : Config) (folder : Path) : List Path :=
  s.walk (fun p ↦ !config.isExcluded root p) (root.join folder)

theorem sublist_inFolder (folder : Path) :
    ((ProjectFile.inFolder s root config folder).map ProjectFile.path).Sublist
      (listed s root config folder) := by
  rw [ProjectFile.inFolder]
  split
  · change List.Sublist _ (s.walk (fun p ↦ !config.isExcluded root p) (root.join folder))
    induction s.walk (fun p ↦ !config.isExcluded root p) (root.join folder) with
    | nil => exact .slnil
    | cons path paths ih =>
      rw [List.filterMap_cons]
      cases FileKind.ofPath? path with
      | none => exact ih.cons path
      | some kind => exact ih.cons_cons path
  · exact List.nil_sublist _

/-- The files are among what the source folders list, in the same order. -/
theorem sublist_files : ((ProjectFile.scan s root config).map ProjectFile.path).Sublist
    (config.sourceFolders.flatMap (listed s root config)) := by
  rw [ProjectFile.scan, List.map_flatMap]
  induction config.sourceFolders with
  | nil => exact .slnil
  | cons folder folders ih => exact (sublist_inFolder folder).append ih

/-- So are the sources. -/
theorem sublist_sources : ((scan s root config stem installed).sources.map ProjectFile.path).Sublist
    (config.sourceFolders.flatMap (listed s root config)) :=
  (List.filter_sublist.map _).trans sublist_files

/-- What tells apart the paths that are listed in one folder, and those that are listed in two, tells the
sources apart. -/
theorem pairwise_sources {differ : Path → Path → Prop}
    (hwithin : ∀ folder ∈ config.sourceFolders, (listed s root config folder).Pairwise differ)
    (hacross : config.sourceFolders.Pairwise fun folder other ↦
      ∀ p ∈ listed s root config folder, ∀ q ∈ listed s root config other, differ p q) :
    ((scan s root config stem installed).sources.map ProjectFile.path).Pairwise differ :=
  (List.pairwise_flatMap.2 ⟨hwithin, hacross⟩).sublist sublist_sources

/-! ### Where the sources are -/

/-- No source folder is another one, or is in another one. -/
def FoldersApart (s : FileStore) (root : Path) (config : Config) : Prop :=
  (config.sourceFolders.filterMap fun folder ↦ s.landing? (root.join folder)).Pairwise
    fun l m ↦ ¬ l.names <+: m.names ∧ ¬ m.names <+: l.names

/-- No file is listed twice when the source folders are apart. -/
theorem pairwise_landing (hs : s.WellFormed) (hdistinct : s.locations.Nodup)
    (hapart : FoldersApart s root config) (stem : String) (installed : Option Path) :
    ((scan s root config stem installed).sources.map ProjectFile.path).Pairwise fun p q ↦
      s.landing? p ≠ s.landing? q := by
  refine pairwise_sources (fun folder _ ↦ ?_) ?_
  · refine (hs.nodup_walk hdistinct _ _).imp_of_mem fun {p q} hp hq hne heq ↦ hne ?_
    obtain ⟨l, names, hl, -, hpath, hlead⟩ := hs.exists_names_of_mem_walk hp
    obtain ⟨m, others, hm, -, hpath', hlead'⟩ := hs.exists_names_of_mem_walk hq
    obtain rfl : l = m := by simpa using hl.symm.trans hm
    rw [FileStore.landing?_of_lead hlead, FileStore.landing?_of_lead hlead', Option.some_inj,
      Location.descend, Location.descend, Location.mk.injEq, List.append_cancel_left_eq] at heq
    rw [hpath, hpath', heq]
  · refine (List.pairwise_filterMap.1 hapart).imp fun {folder other} hapart p hp q hq heq ↦ ?_
    obtain ⟨l, names, hl, -, -, hlead⟩ := hs.exists_names_of_mem_walk hp
    obtain ⟨m, others, hm, -, -, hlead'⟩ := hs.exists_names_of_mem_walk hq
    obtain ⟨hnot, hnot'⟩ := hapart l (FileStore.landing?_of_lead hl) m (FileStore.landing?_of_lead hm)
    rw [FileStore.landing?_of_lead hlead, FileStore.landing?_of_lead hlead', Option.some_inj,
      Location.descend, Location.descend, Location.mk.injEq] at heq
    rcases List.prefix_or_prefix_of_prefix (List.prefix_append l.names names)
      (heq ▸ List.prefix_append m.names others) with h | h
    · exact hnot h
    · exact hnot' h

/-! ### Which normal paths the sources have -/

/-- The source folders lie in the root, and none is another one or lies in another one, by their normal
paths. -/
def FoldersSpread (root : Path) (config : Config) : Prop :=
  (∀ folder ∈ config.sourceFolders, (root.join folder).LiesIn root) ∧
    config.sourceFolders.Pairwise fun folder other ↦
      ¬ (root.join folder).LiesIn (root.join other) ∧ ¬ (root.join other).LiesIn (root.join folder)

theorem exists_normalForm_of_mem_listed (hs : s.WellFormed) {folder p : Path}
    (hp : p ∈ listed s root config folder) :
    ∃ names, p = (root.join folder).joinNames names ∧
      p.normalForm = (root.join folder).normalForm.extend names := by
  obtain ⟨l, names, -, hnames, rfl, -⟩ := hs.exists_names_of_mem_walk hp
  exact ⟨names, rfl, Path.normalForm_joinNames fun name hname ↦ (hnames name hname).segmentName⟩

theorem pairwise_normalForm (hs : s.WellFormed) (hdistinct : s.locations.Nodup)
    (hspread : FoldersSpread root config) (stem : String) (installed : Option Path) :
    ((scan s root config stem installed).sources.map ProjectFile.path).Pairwise fun p q ↦
      p.normalForm ≠ q.normalForm := by
  refine pairwise_sources (fun folder _ ↦ ?_) ?_
  · refine (hs.nodup_walk hdistinct _ _).imp_of_mem fun {p q} hp hq hne heq ↦ hne ?_
    obtain ⟨names, rfl, hform⟩ := exists_normalForm_of_mem_listed hs hp
    obtain ⟨others, rfl, hform'⟩ := exists_normalForm_of_mem_listed hs hq
    have hnames := congrArg Path.NormalForm.names (hform.symm.trans (heq.trans hform'))
    rw [List.append_cancel_left hnames]
  · refine hspread.2.imp fun {folder other} ⟨hnot, hnot'⟩ p hp q hq heq ↦ ?_
    obtain ⟨names, -, hform⟩ := exists_normalForm_of_mem_listed hs hp
    obtain ⟨others, -, hform'⟩ := exists_normalForm_of_mem_listed hs hq
    rcases Path.liesIn_or_liesIn (hform.symm.trans (heq.trans hform')) with h | h
    · exact hnot h
    · exact hnot' h

/-! ### Objects -/

theorem relative_of_mem_scan {file : ProjectFile} (h : file ∈ ProjectFile.scan s root config) :
    file.relative = root.relativeTo file.path := by
  obtain ⟨folder, hfolder, h⟩ := List.mem_flatMap.1 h
  rw [ProjectFile.inFolder] at h
  split at h
  · obtain ⟨path, hpath, hfile⟩ := List.mem_filterMap.1 h
    obtain ⟨kind, -, rfl⟩ := Option.map_eq_some_iff.1 hfile
    rfl
  · cases h

/-- Two sources have one object if and only if their places differ at most in the extension. -/
theorem objectOf_inj (hstem : Segment stem) (hextension : Segment config.platform.objectExtension)
    {file other : ProjectFile} (hfile : file ∈ (scan s root config stem installed).sources)
    (hother : other ∈ (scan s root config stem installed).sources) :
    (scan s root config stem installed).objectOf file =
        (scan s root config stem installed).objectOf other ↔
      Path.bare (Path.placeNames root file.path) = Path.bare (Path.placeNames root other.path) := by
  rw [objectOf, objectOf, ← Path.names_relativeTo, ← Path.names_relativeTo,
    ← relative_of_mem_scan (List.mem_filter.1 hfile).1,
    ← relative_of_mem_scan (List.mem_filter.1 hother).1]
  exact objectPath_inj hstem hextension

/-- Sources that lie in the root, and of which no two in one folder differ in the extension only, have objects
of their own when the source folders are spread. -/
theorem nodup_objects_of_spread (hs : s.WellFormed) (hdistinct : s.locations.Nodup)
    (hstem : Segment stem) (hextension : Segment config.platform.objectExtension)
    (hspread : FoldersSpread root config)
    (hnames : ∀ file ∈ (scan s root config stem installed).sources,
      ∀ other ∈ (scan s root config stem installed).sources,
        Path.bare file.path.normalForm.names = Path.bare other.path.normalForm.names →
          file.path.normalForm.names = other.path.normalForm.names) :
    (scan s root config stem installed).objects.Nodup := by
  have hlies : ∀ file ∈ (scan s root config stem installed).sources, file.path.LiesIn root := by
    intro file hfile
    obtain ⟨folder, hfolder, hlisted⟩ := mem_walk_of_mem_scan (List.mem_filter.1 hfile).1
    obtain ⟨names, -, hform⟩ := exists_normalForm_of_mem_listed hs hlisted
    obtain ⟨around, haround⟩ := hspread.1 folder hfolder
    refine ⟨around ++ names, ?_⟩
    rw [hform, haround, Path.NormalForm.extend, Path.NormalForm.extend, Path.NormalForm.extend,
      List.append_assoc]
  have hforms := List.pairwise_map.1 (pairwise_normalForm hs hdistinct hspread stem installed)
  refine List.pairwise_map.2 (hforms.imp_of_mem fun {file other} hfile hother hne heq ↦ hne ?_)
  have hbare := (objectPath_inj hstem hextension).1 heq
  rw [relative_of_mem_scan (List.mem_filter.1 hfile).1,
    relative_of_mem_scan (List.mem_filter.1 hother).1,
    Path.bareNames_relativeTo_inj (hlies file hfile) (hlies other hother), Path.bareNames,
    Path.bareNames, Path.names_normalize, Path.names_normalize] at hbare
  have hsame := hnames file hfile other hother hbare
  obtain ⟨names, hform⟩ := hlies file hfile
  obtain ⟨others, hform'⟩ := hlies other hother
  rw [hform, hform'] at hsame ⊢
  rw [List.append_cancel_left hsame]

/-- Two sources have one object if and only if their places differ at most in the extension. No file is
listed twice when the source folders are apart. When they are spread over the root and no two sources of
one folder differ in the extension only, there is one object for each source and one task for each object. -/
theorem sources_apart (hs : s.WellFormed) (hdistinct : s.locations.Nodup) (root : Path) (config : Config)
    (stem : String) (installed : Option Path) (hstem : Segment stem)
    (hextension : Segment config.platform.objectExtension) :
    let project := scan s root config stem installed
    (∀ file ∈ project.sources, ∀ other ∈ project.sources,
      (project.objectOf file = project.objectOf other ↔
        Path.bare (Path.placeNames root file.path) = Path.bare (Path.placeNames root other.path))) ∧
    (∀ file ∈ project.sources, (s.landing? file.path).isSome) ∧
    (FoldersApart s root config → (project.sources.map fun file ↦ s.landing? file.path).Nodup) ∧
    (FoldersSpread root config →
      (∀ file ∈ project.sources, ∀ other ∈ project.sources,
        Path.bare file.path.normalForm.names = Path.bare other.path.normalForm.names →
          file.path.normalForm.names = other.path.normalForm.names) →
      project.objects.Nodup ∧
        ∀ now all debug, ((project.plan now all debug).map Task.object).Nodup) := by
  refine ⟨fun file hfile other hother ↦ objectOf_inj hstem hextension hfile hother,
    fun file hfile ↦ ?_, fun hapart ↦ ?_, fun hspread hnames ↦ ?_⟩
  · obtain ⟨l, -, -, -, hlead, -⟩ := leadsToFile_of_mem_sources hs hfile
    rw [FileStore.landing?_of_lead hlead]
    rfl
  · have hlandings := List.pairwise_map.1 (pairwise_landing hs hdistinct hapart stem installed)
    exact List.pairwise_map.2 hlandings
  · have hobjects := nodup_objects_of_spread hs hdistinct hstem hextension hspread hnames
    refine ⟨hobjects, fun now all debug ↦ ?_⟩
    rw [plan, List.map_map]
    exact hobjects.sublist (List.filter_sublist.map _)

/-- A store with one source in the library's folder, and sources of the given names beside it. -/
def sourcesBeside (names : List String) : FileStore where
  entries := [(.root, .folder 0), (⟨["lib"]⟩, .folder 0), (⟨["lib", "a.c"]⟩, .file .empty false 10),
    (⟨["src"]⟩, .folder 0)] ++ names.map fun name ↦ (⟨["src", name]⟩, .file .empty false 10)
  clock := 20

/-- Sources of one name in two folders have objects of their own. -/
theorem sources_apart_of_twoFolders :
    let project := scan (sourcesBeside ["a.c"]) ⟨"."⟩ (plainConfig [⟨"src"⟩, ⟨"lib"⟩]) "default"
    project.sources.map ProjectFile.path = [⟨"./src/a.c"⟩, ⟨"./lib/a.c"⟩] ∧
      (project.sources.map fun file ↦ (sourcesBeside ["a.c"]).landing? file.path).Nodup ∧
      project.objects.Nodup := by
  have hs : (sourcesBeside ["a.c"]).WellFormed := by decide +kernel
  have hspread : FoldersSpread ⟨"."⟩ (plainConfig [⟨"src"⟩, ⟨"lib"⟩]) := by
    unfold FoldersSpread
    decide +kernel
  have hapart : FoldersApart (sourcesBeside ["a.c"]) ⟨"."⟩ (plainConfig [⟨"src"⟩, ⟨"lib"⟩]) := by
    unfold FoldersApart
    decide +kernel
  obtain ⟨-, -, hlandings, hobjects⟩ := sources_apart hs (by decide +kernel) ⟨"."⟩
    (plainConfig [⟨"src"⟩, ⟨"lib"⟩]) "default" none ⟨by decide, by decide⟩ ⟨by decide, by decide⟩
  exact ⟨by decide +kernel, hlandings hapart, (hobjects hspread (by decide +kernel)).1⟩

/-- Sources in one folder whose names differ in the extension only have one object, and what is in a folder
that is given twice is listed twice. -/
theorem exists_shared_object :
    let s := sourcesBeside ["a.c", "a.cpp"]
    let once := scan s ⟨"."⟩ (plainConfig [⟨"src"⟩]) "default"
    let twice := scan s ⟨"."⟩ (plainConfig [⟨"lib"⟩, ⟨"lib"⟩]) "default"
    s.WellFormed ∧ s.locations.Nodup ∧
      once.sources.map ProjectFile.path = [⟨"./src/a.c"⟩, ⟨"./src/a.cpp"⟩] ∧
      once.objects = [⟨"./obj/default/src/a.o"⟩, ⟨"./obj/default/src/a.o"⟩] ∧
      twice.sources.map ProjectFile.path = [⟨"./lib/a.c"⟩, ⟨"./lib/a.c"⟩] := by
  decide +kernel

end Project

end Rebuild
