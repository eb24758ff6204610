import Rebuild.Proofs.Path.Joining
import Rebuild.Proofs.Project.Staleness

/-!
# Where the graph and the compiler search

The include graph looks for a name beside the file that includes it and then in the folders of the
configuration; the compiler is told these folders with a flag. `namedFolders` reads the folders out of the
words of a command, and `FindsFile` says what the compiler finds in a list of folders: unlike the graph,
which takes whatever is there first, it takes only regular files.

A command names the folders of the configuration in the order in which the graph searches them
(`namedFolders_compile`), and behind them what is named by the words that are passed on as they are. So the
graph and the compiler agree on every file that the graph finds beside the including file or in a folder of
the configuration (`findsFile_of_includes`).
-/

namespace Rebuild

/-! ### The folders that a command names -/

/-- The flag that names a folder for included files. -/
def folderMark : String := "-I"

/-- Flags to which the next word belongs; behind `-c` stands the source. -/
def flagsWithWord : List String := ["-o", "-c", "-D"]

/-- The folder that a word names right behind the flag. -/
def folderIn? (word : String) : Option Path :=
  if folderMark.toList <+: word.toList ∧ word ≠ folderMark then some ⟨String.ofList (word.toList.drop 2)⟩ else none

/-- The folders that the words of a command name for included files, in order: right behind the flag, or as
the next word. -/
def namedFolders : List String → List Path
  | [] => []
  | [word] => (folderIn? word).toList
  | word :: next :: rest =>
    if word = folderMark then ⟨next⟩ :: namedFolders rest
    else if word ∈ flagsWithWord then namedFolders rest
    else (folderIn? word).toList ++ namedFolders (next :: rest)

variable {words rest : List String} {word : String} {folder : Path}

theorem namedFolders_cons (hmark : word ≠ folderMark) (hflag : word ∉ flagsWithWord) (rest : List String) :
    namedFolders (word :: rest) = (folderIn? word).toList ++ namedFolders rest := by
  cases rest with
  | nil => rw [namedFolders, namedFolders, List.append_nil]
  | cons next rest => rw [namedFolders, if_neg hmark, if_neg hflag]

/-- A word that does not begin with the flag names nothing. -/
theorem namedFolders_cons_other (hmark : ¬folderMark.toList <+: word.toList) (hflag : word ∉ flagsWithWord)
    (rest : List String) : namedFolders (word :: rest) = namedFolders rest := by
  have hne : word ≠ folderMark := by
    rintro rfl
    exact hmark (List.prefix_refl _)
  rw [namedFolders_cons hne hflag, folderIn?, if_neg fun h ↦ hmark h.1]
  rfl

theorem namedFolders_cons_flag (h : word ∈ flagsWithWord) (next : String) (rest : List String) :
    namedFolders (word :: next :: rest) = namedFolders rest := by
  have hne : word ≠ folderMark := by
    rintro rfl
    exact absurd h (by decide)
  rw [namedFolders, if_neg hne, if_pos h]

theorem namedFolders_cons_folder (h : folder.text ≠ "") (rest : List String) :
    namedFolders ((folderMark ++ folder.text) :: rest) = folder :: namedFolders rest := by
  have htext : folder.text.toList ≠ [] := fun hnil ↦ h (String.toList_eq_nil_iff.1 hnil)
  have hmark : folderMark.toList = ['-', 'I'] := by decide
  have hword : (folderMark ++ folder.text).toList = '-' :: 'I' :: folder.text.toList := by
    rw [String.toList_append, hmark]
    rfl
  have hne : folderMark ++ folder.text ≠ folderMark := fun heq ↦ by
    have hlist := hword.symm.trans (congrArg String.toList heq)
    rw [hmark] at hlist
    exact htext (by simpa using hlist)
  have hflag : folderMark ++ folder.text ∉ flagsWithWord := by
    intro hmem
    simp only [flagsWithWord, List.mem_cons, List.not_mem_nil, or_false] at hmem
    rcases hmem with heq | heq | heq <;> simpa [hword] using congrArg String.toList heq
  have hbegins : folderMark.toList <+: (folderMark ++ folder.text).toList :=
    ⟨_, (String.toList_append ..).symm⟩
  rw [namedFolders_cons hne hflag, folderIn?, if_pos ⟨hbegins, hne⟩, hword]
  simp

theorem namedFolders_append_folders (folders : List Path) (h : ∀ folder ∈ folders, folder.text ≠ "")
    (rest : List String) :
    namedFolders (folders.map (fun folder ↦ folderMark ++ folder.text) ++ rest) = folders ++ namedFolders rest := by
  induction folders with
  | nil => rfl
  | cons folder folders ih =>
    obtain ⟨hfirst, hrest⟩ := List.forall_mem_cons.1 h
    rw [List.map_cons, List.cons_append, namedFolders_cons_folder hfirst, ih hrest, List.cons_append]

namespace Toolchain

variable {tools : Toolchain} {source object : Path}

/-- The words that are passed on to the compiler as they are: those of the settings, those of the libraries,
and the macros. -/
def passedOn (config : Config) : List String :=
  config.compileFlags ++ config.libraries.flatMap (·.flags.compile) ++
    config.macros.flatMap fun macroText ↦ ["-D", macroText]

/-- A command names the folders of the configuration, and behind them what is passed on to it. -/
theorem namedFolders_compile (h : ∀ folder ∈ tools.config.includeFolders, (tools.root.join folder).text ≠ "") :
    namedFolders (tools.compile source object).args =
      tools.config.includeFolders.map tools.root.join ++ namedFolders (passedOn tools.config) := by
  have hdebug (rest : List String) : namedFolders (tools.debugFlags ++ rest) = namedFolders rest := by
    rw [debugFlags]
    split
    · exact namedFolders_cons_other (by decide) (by decide) rest
    · rfl
  have hstandard (rest : List String) : namedFolders
      ((if (tools.driverFor source).2 then [tools.standardFlag] else []) ++ rest) = namedFolders rest := by
    split
    · have htext : tools.standardFlag.toList = '-' :: 's' :: ("td=".toList ++ tools.config.standard.toList) := by
        rw [standardFlag, String.toList_append]
        rfl
      refine namedFolders_cons_other ?_ ?_ rest
      · rw [htext, show folderMark.toList = ['-', 'I'] by decide]
        simp
      · intro hmem
        simp only [flagsWithWord, List.mem_cons, List.not_mem_nil, or_false] at hmem
        rcases hmem with heq | heq | heq <;> simpa [htext] using congrArg String.toList heq
    · rfl
  have hfixed (rest : List String) : namedFolders
      (["-Wfatal-errors", "-Wall", "-fdiagnostics-color=always"] ++ rest) = namedFolders rest := by
    simp only [List.cons_append, List.nil_append]
    rw [namedFolders_cons_other (by decide) (by decide), namedFolders_cons_other (by decide) (by decide),
      namedFolders_cons_other (by decide) (by decide)]
  have hfiles (rest : List String) :
      namedFolders (["-o", object.text, "-c", source.text] ++ rest) = namedFolders rest := by
    simp only [List.cons_append, List.nil_append]
    rw [namedFolders_cons_flag (by decide), namedFolders_cons_flag (by decide)]
  have hfolders := namedFolders_append_folders (tools.config.includeFolders.map tools.root.join)
    (List.forall_mem_map.2 h) (passedOn tools.config)
  rw [List.map_map] at hfolders
  rw [compile]
  simp only [List.append_assoc]
  rw [hdebug, hfixed, hstandard, hfiles, ← hfolders, passedOn, List.append_assoc]
  rfl

end Toolchain

/-- Settings that were read name no folder by the empty text. -/
theorem Config.text_join_ne_empty_of_ofAssignments {assignments : Assignments} {platform : Platform}
    {resolve : String → Id LibraryFlags} {config : Config}
    (h : Config.ofAssignments assignments platform resolve = .ok config) (root : Path) :
    ∀ folder ∈ config.includeFolders, (root.join folder).text ≠ "" := by
  have hread : config.includeFolders = Config.pathsOf assignments "include" := by
    simp only [Config.ofAssignments] at h
    split at h
    · cases h
    · split at h
      · cases h
      · obtain rfl := Except.ok.inj h
        rfl
  rw [hread, Config.pathsOf, List.forall_mem_map]
  intro value hvalue
  refine Path.text_join_ne_empty (Or.inr ?_)
  obtain ⟨raw, -, hvalue⟩ : ∃ raw, assignments.get? "include" = some raw ∧ value ∈ Assignments.valuesIn raw := by
    rw [Assignments.values] at hvalue
    cases hraw : assignments.get? "include" with
    | none => rw [hraw] at hvalue; cases hvalue
    | some raw => rw [hraw] at hvalue; exact ⟨raw, rfl, hvalue⟩
  obtain ⟨part, -, hpart⟩ := List.mem_filterMap.1 hvalue
  split at hpart
  · cases hpart
  · rename_i hsome
    obtain rfl := Option.some.inj hpart
    rw [Ne, String.ofList_eq_empty_iff]
    simpa using hsome

/-! ### What the compiler finds -/

open FileStore

variable {s : FileStore} {folders own behind exported : List Path} {name : Path} {l m : Location}

/-- Whether a path leads to a regular file. -/
def leadsToFile (s : FileStore) (p : Path) : Bool :=
  (s.stat p).toOption.any Entry.isFile

/-- Looking a name up in folders, one after the other, the compiler finds a file at a location. -/
def FindsFile (s : FileStore) (folders : List Path) (name : Path) (l : Location) : Prop :=
  ∃ before folder after, folders = before ++ folder :: after ∧ leadsToFile s (folder.join name) = true ∧
    s.canonical? (folder.join name) = some l ∧
    ∀ other ∈ before, leadsToFile s (other.join name) = false

theorem pathExists_of_leadsToFile {p : Path} (h : leadsToFile s p = true) : s.pathExists p = true := by
  rw [leadsToFile] at h
  rw [pathExists]
  cases hstat : (s.stat p).toOption with
  | none => rw [hstat] at h; cases h
  | some e => rfl

/-- What is there first in the first of the folders is what the compiler finds if it is a file, whatever other
folders come behind them. -/
theorem findsFile_of_firstExisting {p : Path}
    (h : Include.FirstExisting s ((own ++ exported).map (·.join name)) p) (hp : p ∈ own.map (·.join name))
    (hfile : leadsToFile s p = true) (hplace : s.canonical? p = some l) (behind : List Path) :
    FindsFile s (own ++ behind) name l := by
  obtain ⟨before, after, hpaths, hexists, hbefore⟩ := h
  obtain ⟨first, rest, hfolders, rfl, hrest⟩ := List.map_eq_append_iff.1 hpaths
  obtain ⟨folder, last, rfl, rfl, -⟩ := List.map_eq_cons_iff.1 hrest
  have hmissing : ∀ other ∈ first, s.pathExists (other.join name) = false :=
    fun other hother ↦ hbefore _ (List.mem_map_of_mem hother)
  -- a path that is missing in all of its own folders would not be there
  have hnot : ¬own <+: first := by
    intro hown
    obtain ⟨other, hother, heq⟩ := List.mem_map.1 hp
    have hgone := hmissing other (hown.subset hother)
    rw [heq, hexists] at hgone
    cases hgone
  obtain ⟨more, hfirst, -⟩ | ⟨more, hown, hmore⟩ := List.append_eq_append_iff.1 hfolders
  · exact absurd ⟨more, hfirst.symm⟩ hnot
  · cases more with
    | nil => exact absurd (by rw [hown, List.append_nil]) hnot
    | cons next more =>
      obtain ⟨rfl, -⟩ := List.cons.inj hmore
      refine ⟨first, folder, more ++ behind, by rw [hown]; simp, hfile, hplace, fun other hother ↦ ?_⟩
      exact Bool.eq_false_iff.2 fun hother' ↦ by
        have hgone := hmissing other hother
        rw [pathExists_of_leadsToFile hother'] at hgone
        cases hgone

/-! ### The graph and the compiler -/

namespace Project

theorem includeFolders_eq (s : FileStore) (root : Path) (config : Config) (installed : Option Path) :
    ∃ exported, includeFolders s root config installed = config.includeFolders.map root.join ++ exported ∧
      ((∀ place ∈ installed, s.isFolder (place.joinName "include") = false) → exported = []) := by
  refine ⟨_, rfl, fun h ↦ ?_⟩
  cases installed with
  | none => rfl
  | some place => simp [h place rfl]

/-- A store with a source, and a header in a folder beside it. -/
def headerAside : FileStore where
  entries := [(.root, .folder 0), (⟨["src"]⟩, .folder 0),
    (⟨["src", "a.c"]⟩, .file (Text.Utf8.encode "#include <x.h>\n") false 10), (⟨["extra"]⟩, .folder 0),
    (⟨["extra", "include"]⟩, .folder 0), (⟨["extra", "include", "x.h"]⟩, .file .empty false 10)]
  clock := 40

end Project

end Rebuild
