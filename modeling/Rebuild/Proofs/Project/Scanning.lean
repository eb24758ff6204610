import Rebuild.Proofs.FileStore.Pruning
import Rebuild.Proofs.Project.Sources

/-!
# The files of a project

The files that a source folder contributes to a project are told by the folder, the store and the
configuration alone (`FileOf`): that the walk does not go into what is excluded makes no difference to them.
They are listed in the order of the names that lead to them, and source folders one after the other
(`scan_lists`).

What is missing, where paths are near to the limit of the system, are the files in a folder whose path, as
it is spelled from the source folder, is too long (`exists_unlisted`).
-/

namespace Rebuild

open FileStore (WellFormed Prunes tooLong)

variable {s t : FileStore} {root p : Path} {config : Config} {folder : Path} {file : ProjectFile}

/-! ### What is excluded -/

theorem isExcluded_iff : config.isExcluded root p = true ↔
    ∃ excluded ∈ config.excluded, (root.join excluded).components <+: p.components := by
  simp [Config.isExcluded, Path.startsWith]

/-- What is below something excluded is excluded. -/
theorem prunes_isExcluded (config : Config) (root : Path) : Prunes fun p ↦ !config.isExcluded root p := by
  intro p name hname hkeep
  rw [Bool.not_eq_true', ← Bool.not_eq_true, isExcluded_iff] at hkeep ⊢
  rintro ⟨excluded, hexcluded, hprefix⟩
  refine hkeep ⟨excluded, hexcluded, hprefix.trans ?_⟩
  rw [Path.components_joinName hname]
  exact List.prefix_append _ _

/-! ### The files of a source folder -/

/-- Whether a source folder contributes a file to a project. -/
structure FileOf (s : FileStore) (root : Path) (config : Config) (folder : Path) (file : ProjectFile) :
    Prop where
  /-- Names lead to it from the folder, which is there. -/
  place : ∃ l names, s.Opens (root.join folder) l ∧ file.path = (root.join folder).joinNames names ∧
    s.Below (root.join folder) l names
  /-- Its extension says what it is for. -/
  kind : FileKind.ofPath? file.path = some file.kind
  /-- It has a place below the root. -/
  relative : file.relative = root.relativeTo file.path
  /-- It is not excluded. -/
  included : ∀ excluded ∈ config.excluded, ¬(root.join excluded).components <+: file.path.components

theorem pathExists_of_opens (hs : s.WellFormed) {l : Location} (h : s.Opens p l) :
    s.pathExists p = true := by
  obtain ⟨e, hfind, -⟩ := hs.lead_real h.lead
  exact FileStore.pathExists_of_lead h.lead (Option.isSome_of_eq_some hfind) h.short

/-- What is listed for a source folder is what it contributes. -/
theorem mem_inFolder_iff (hs : s.WellFormed) :
    file ∈ ProjectFile.inFolder s root config folder ↔ FileOf s root config folder file := by
  have hwalk {q : Path} := FileStore.mem_walk_iff (q := q) (p := root.join folder) hs
    (prunes_isExcluded config root)
  have hkeep : (!config.isExcluded root file.path) = true ↔
      ∀ excluded ∈ config.excluded, ¬(root.join excluded).components <+: file.path.components := by
    rw [Bool.not_eq_true', ← Bool.not_eq_true, isExcluded_iff]
    simp
  constructor
  · intro h
    rw [ProjectFile.inFolder] at h
    split at h
    · obtain ⟨path, hpath, h⟩ := List.mem_filterMap.1 h
      obtain ⟨kind, hkind, rfl⟩ := Option.map_eq_some_iff.1 h
      obtain ⟨hplace, hincluded⟩ := hwalk.1 hpath
      exact ⟨hplace, hkind, rfl, hkeep.1 hincluded⟩
    · cases h
  · rintro ⟨⟨l, names, hopens, hpath, hbelow⟩, hkind, hrelative, hincluded⟩
    rw [ProjectFile.inFolder, if_pos (pathExists_of_opens hs hopens)]
    have hwalked := hwalk.2 ⟨⟨l, names, hopens, hpath, hbelow⟩, hkeep.2 hincluded⟩
    refine List.mem_filterMap.2 ⟨file.path, hwalked, ?_⟩
    rw [hkind, ← hrelative]
    rfl

/-- Files are listed in the order of the names that lead to them. -/
theorem pairwise_names_inFolder (hs : s.WellFormed) (hdistinct : s.locations.Nodup) (root : Path)
    (config : Config) (folder : Path) :
    ((ProjectFile.inFolder s root config folder).map (·.path.names)).Pairwise (· < ·) := by
  have hsublist : List.Sublist _ (Project.listed s root config folder) := Project.sublist_inFolder folder
  have hnames := hsublist.map Path.names
  rw [List.map_map] at hnames
  exact (FileStore.pairwise_names_walk hs hdistinct _ _).sublist hnames

/-- Leaving out what is excluded afterwards comes to the same. -/
theorem inFolder_eq_filter (hs : s.WellFormed) (hdistinct : s.locations.Nodup) (root : Path)
    (config : Config) (folder : Path) : ProjectFile.inFolder s root config folder =
      (ProjectFile.inFolder s root { config with excluded := [] } folder).filter
        fun file ↦ !config.isExcluded root file.path := by
  refine FileStore.eq_of_pairwise_names (pairwise_names_inFolder hs hdistinct root config folder)
    ((pairwise_names_inFolder hs hdistinct root _ folder).sublist (List.filter_sublist.map _)) fun file ↦ ?_
  rw [List.mem_filter, mem_inFolder_iff hs, mem_inFolder_iff hs, Bool.not_eq_true', ← Bool.not_eq_true,
    isExcluded_iff]
  constructor
  · intro h
    refine ⟨⟨h.place, h.kind, h.relative, by simp⟩, ?_⟩
    rintro ⟨excluded, hexcluded, hprefix⟩
    exact h.included excluded hexcluded hprefix
  · rintro ⟨h, hincluded⟩
    exact ⟨h.place, h.kind, h.relative,
      fun excluded hexcluded hprefix ↦ hincluded ⟨excluded, hexcluded, hprefix⟩⟩

/-- The order of the entries of a store does not matter. -/
theorem inFolder_of_perm (hs : s.WellFormed) (hdistinct : s.locations.Nodup)
    (hperm : t.entries.Perm s.entries) (hcurrent : t.current = s.current) (root : Path) (config : Config)
    (folder : Path) :
    ProjectFile.inFolder t root config folder = ProjectFile.inFolder s root config folder := by
  have hfind := FileStore.find?_of_perm hdistinct hperm
  have ht := hs.of_find?_eq hfind hcurrent
  have hdistinct' : t.locations.Nodup := (hperm.map Prod.fst).nodup_iff.2 hdistinct
  have hplace {a b : FileStore} (hfind : ∀ l, b.find? l = a.find? l) (hcurrent : b.current = a.current)
      {file : ProjectFile} (h : FileOf a root config folder file) : FileOf b root config folder file := by
    obtain ⟨l, names, hopens, hpath, hbelow⟩ := h.place
    exact ⟨⟨l, names, hopens.of_find?_eq hfind hcurrent, hpath, hbelow.of_find?_eq hfind⟩, h.kind,
      h.relative, h.included⟩
  refine FileStore.eq_of_pairwise_names (pairwise_names_inFolder ht hdistinct' root config folder)
    (pairwise_names_inFolder hs hdistinct root config folder) fun file ↦ ?_
  rw [mem_inFolder_iff ht, mem_inFolder_iff hs]
  exact ⟨hplace (fun l ↦ (hfind l).symm) hcurrent.symm, hplace hfind hcurrent⟩

/-! ### The files of a project -/

theorem scan_eq_existing (s : FileStore) (root : Path) (config : Config) : ProjectFile.scan s root config =
    (config.sourceFolders.filter fun folder ↦ s.pathExists (root.join folder)).flatMap
      (ProjectFile.inFolder s root config) := by
  rw [ProjectFile.scan]
  induction config.sourceFolders with
  | nil => rfl
  | cons folder folders ih =>
    rw [List.flatMap_cons, ih, List.filter_cons]
    split
    · rw [List.flatMap_cons]
    · rename_i hmissing
      rw [ProjectFile.inFolder, if_neg hmissing, List.nil_append]

/-- The files of a project are what its source folders that are there contribute, one folder after the other
and in the order of the names. They are those files that are not excluded of all that there are, and the
order in which a store holds its entries does not matter to them. -/
theorem scan_lists (hs : s.WellFormed) (hdistinct : s.locations.Nodup) (root : Path) (config : Config) :
    (ProjectFile.scan s root config =
      (config.sourceFolders.filter fun folder ↦ s.pathExists (root.join folder)).flatMap
        (ProjectFile.inFolder s root config)) ∧
    (∀ folder,
      (∀ file, file ∈ ProjectFile.inFolder s root config folder ↔ FileOf s root config folder file) ∧
      ((ProjectFile.inFolder s root config folder).map (·.path.names)).Pairwise (· < ·)) ∧
    (ProjectFile.scan s root config =
      (ProjectFile.scan s root { config with excluded := [] }).filter
        fun file ↦ !config.isExcluded root file.path) ∧
    ∀ t : FileStore, t.entries.Perm s.entries → t.current = s.current →
      ProjectFile.scan t root config = ProjectFile.scan s root config := by
  refine ⟨scan_eq_existing s root config, fun folder ↦ ⟨fun _ ↦ mem_inFolder_iff hs,
    pairwise_names_inFolder hs hdistinct root config folder⟩, ?_, fun t hperm hcurrent ↦ ?_⟩
  · rw [ProjectFile.scan, ProjectFile.scan, List.filter_flatMap]
    exact List.flatMap_congr fun folder _ ↦ inFolder_eq_filter hs hdistinct root config folder
  · exact List.flatMap_congr fun folder _ ↦ inFolder_of_perm hs hdistinct hperm hcurrent root config folder

/-- A store with files of several kinds, in folders below the folder of the sources; `names` are those of
folders with a source in each. -/
def sourcesIn (names : List String) : FileStore where
  entries := [(.root, .folder 0), (⟨["src"]⟩, .folder 0), (⟨["src", "b.h"]⟩, .file .empty false 10),
    (⟨["src", "notes.txt"]⟩, .file .empty false 10)] ++ names.flatMap fun name ↦
      [(⟨["src", name]⟩, .folder 0), (⟨["src", name, "a.c"]⟩, .file .empty false 10)]
  clock := 20

/-- One of the folders is excluded, another one has a name that begins with the name of the first. -/
theorem scan_lists_of_excluded :
    let config := { Project.plainConfig [⟨"src"⟩, ⟨"missing"⟩] with excluded := [⟨"./src//gen"⟩] }
    let s := sourcesIn ["gen", "generic"]
    (ProjectFile.scan s ⟨"."⟩ config).map ProjectFile.path = [⟨"./src/b.h"⟩, ⟨"./src/generic/a.c"⟩] ∧
      ProjectFile.scan s ⟨"."⟩ config = (ProjectFile.scan s ⟨"."⟩ { config with excluded := [] }).filter
        (fun file ↦ !config.isExcluded ⟨"."⟩ file.path) ∧
      ProjectFile.scan { s with entries := s.entries.reverse } ⟨"."⟩ config =
        ProjectFile.scan s ⟨"."⟩ config := by
  intro config s
  have hs : (sourcesIn ["gen", "generic"]).WellFormed := by decide +kernel
  obtain ⟨-, -, hfiltered, hperm⟩ := scan_lists hs (by decide +kernel) ⟨"."⟩ config
  exact ⟨by decide +kernel, hfiltered, hperm _ (List.reverse_perm _) rfl⟩

/-! ### Paths near to the limit -/

/-- What is in a folder whose path is too long is not listed. -/
theorem not_mem_inFolder_of_tooLong (hs : s.WellFormed) (names : List String) (hne : names ≠ [])
    (hnames : ∀ name ∈ names, Path.SegmentName name)
    (hlong : tooLong ((root.join folder).joinNames names.dropLast) = true)
    (hpath : file.path = (root.join folder).joinNames names) :
    file ∉ ProjectFile.inFolder s root config folder := by
  intro hmem
  obtain ⟨l, others, -, hothers, hbelow⟩ := ((mem_inFolder_iff hs).1 hmem).place
  obtain rfl := (Path.joinNames_inj hnames (hbelow.segmentName hs)).1 (hpath.symm.trans hothers)
  rw [hbelow.short hne] at hlong
  cases hlong

/-- A source folder contributes nothing from a folder that it leads to by a path that is too long, although
there are sources in it. -/
theorem exists_unlisted_of_tooLong {n : Nat} (h : 2 * n + 7 ≤ FileStore.maxPathLength)
    (hlong : FileStore.maxPathLength < 2 * n + 10) :
    let config := Project.plainConfig [Project.dotted n]
    let start := (⟨"."⟩ : Path).join (Project.dotted n)
    let path := start.joinNames ["sub", "a.c"]
    let s := sourcesIn ["sub"]
    s.WellFormed ∧ s.locations.Nodup ∧ s.pathExists start = true ∧
      s.lead true path = .ok (.existing ⟨["src", "sub", "a.c"]⟩) ∧
      s.find? ⟨["src", "sub", "a.c"]⟩ = some (.file .empty false 10) ∧
      FileKind.ofPath? path = some .source ∧ config.isExcluded ⟨"."⟩ path = false ∧
      path ∉ (ProjectFile.scan s ⟨"."⟩ config).map ProjectFile.path := by
  intro config start path s
  have hs : (sourcesIn ["sub"]).WellFormed := by decide +kernel
  have hfolder : s.HasFolder ⟨["src"]⟩ := ⟨0, rfl⟩
  have hnames (p : Path) : p.joinNames ["sub", "a.c"] = (p.joinName "sub").joinName "a.c" := rfl
  have hpath : path = (start.joinName "sub").joinName "a.c" := hnames start
  have hstart : start = Project.dotted (n + 1) := Project.join_dotted n
  have hsub : FileStore.EntryName "sub" := by decide
  have hname : FileStore.EntryName "a.c" := by decide
  have hlead : s.lead true start = .ok (.existing ⟨["src"]⟩) := by
    rw [hstart]
    exact Project.lead_dotted_of_hasFolder rfl hfolder (n + 1) true
  have hfind : s.find? (Location.child ⟨["src"]⟩ "sub") = some (.folder 0) := rfl
  have hfile : s.find? (Location.child ⟨["src", "sub"]⟩ "a.c") = some (.file .empty false 10) := rfl
  have hleadsub : s.lead true (start.joinName "sub") = .ok (.existing ⟨["src", "sub"]⟩) :=
    FileStore.lead_child hsub hfolder hlead hfind (by simp)
  refine ⟨hs, by decide +kernel, ?_, ?_, rfl, ?_, rfl, ?_⟩
  · refine FileStore.pathExists_of_lead hlead rfl ?_
    rw [hstart, Project.tooLong_dotted, decide_eq_false_iff_not]
    omega
  · have hsubfolder : s.HasFolder ⟨["src", "sub"]⟩ := ⟨0, rfl⟩
    have hleadfile := FileStore.lead_child hname hsubfolder hleadsub hfile (by simp)
    rw [hpath]
    exact hleadfile
  · have hbody := Path.body_joinName (p := start.joinName "sub") hname.no_slash
    rw [hpath, FileKind.ofPath?, Path.extension?, Path.fileName?_of_body hname.segmentName hbody]
    decide
  · intro hmem
    obtain ⟨file, hfile, hfilepath⟩ := List.mem_map.1 hmem
    rw [ProjectFile.scan] at hfile
    obtain ⟨folder, hfolder, hfile⟩ := List.mem_flatMap.1 hfile
    obtain rfl := List.mem_singleton.1 hfolder
    have hlong : tooLong (start.joinName "sub") = true := by
      have hlength : Text.byteLength "sub".toList = 3 := rfl
      rw [tooLong, decide_eq_true_iff, Path.toList_joinName hsub.no_slash, Text.byteLength_append,
        Text.byteLength_append, hstart, Project.byteLength_dotted, hlength]
      omega
    exact not_mem_inFolder_of_tooLong hs ["sub", "a.c"] (by simp) (by decide) hlong hfilepath hfile

/-- With 4088 dots and slashes in front of the folder of the sources, the path of the folder in it is too
long. -/
theorem exists_unlisted :
    let config := Project.plainConfig [Project.dotted 2043]
    let start := (⟨"."⟩ : Path).join (Project.dotted 2043)
    let path := start.joinNames ["sub", "a.c"]
    let s := sourcesIn ["sub"]
    s.WellFormed ∧ s.locations.Nodup ∧ s.pathExists start = true ∧
      s.lead true path = .ok (.existing ⟨["src", "sub", "a.c"]⟩) ∧
      s.find? ⟨["src", "sub", "a.c"]⟩ = some (.file .empty false 10) ∧
      FileKind.ofPath? path = some .source ∧ config.isExcluded ⟨"."⟩ path = false ∧
      path ∉ (ProjectFile.scan s ⟨"."⟩ config).map ProjectFile.path :=
  exists_unlisted_of_tooLong (by decide) (by decide)

end Rebuild
