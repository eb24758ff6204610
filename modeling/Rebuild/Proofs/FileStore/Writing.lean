import Rebuild.Proofs.FileStore.Ways
import Rebuild.Proofs.FileStore.Walk

/-!
# Making folders, writing files, removing files

What the operations of a build do to a store, as relations that later steps can be put together with:
`Furnishes` for making folders, `Writes` for writing a file, `Loses` for removing one. `Ages` is what
they have in common as long as no file is removed: all kinds are kept, and no file becomes older.
-/

namespace Rebuild.FileStore

variable {s s' s'' : FileStore} {l x folder : Location} {p : Path} {name : String}

/-! ### Times of files -/

/-- The time of the last change of what is at a location. -/
def timeAt? (s : FileStore) (l : Location) : Option Time :=
  (s.find? l).bind Entry.modified?

theorem timeAt?_of_fileTime? {time : Time} (h : s.fileTime? l = some time) :
    s.timeAt? l = some time := by
  rw [fileTime?] at h
  split at h <;> cases h
  rw [timeAt?, ‹s.find? l = _›]
  rfl

/-- All kinds are kept, no link comes, and no file becomes older. -/
structure Ages (s s' : FileStore) : Prop extends Keeps s s' where
  /-- Links were there before. -/
  no_link : ∀ l target, s'.find? l = some (.link target) → s.find? l = some (.link target)
  /-- Files become newer, if they change. -/
  later : ∀ l time, s.fileTime? l = some time → ∃ time', s'.fileTime? l = some time' ∧ time ≤ time'

namespace Ages

theorem refl (s : FileStore) : s.Ages s :=
  ⟨.refl s, fun _ _ h ↦ h, fun _ time h ↦ ⟨time, h, Nat.le_refl time⟩⟩

theorem trans (h : s.Ages s') (h' : s'.Ages s'') : s.Ages s'' := by
  refine ⟨h.toKeeps.trans h'.toKeeps,
    fun l target hlink ↦ h.no_link l target (h'.no_link l target hlink), fun l time htime ↦ ?_⟩
  obtain ⟨time', htime', hle⟩ := h.later l time htime
  obtain ⟨time'', htime'', hle'⟩ := h'.later l time' htime'
  exact ⟨time'', htime'', Nat.le_trans hle hle'⟩

end Ages

/-! ### Making folders -/

/-- What holds of a store still holds with a folder made, if it holds with the folders around made and
making the one folder keeps it, whether at first or behind the others. -/
theorem createThrough_cons_of (good : FileStore → Prop) {p : Path} {around : List Path} (hgood : good s)
    (haround : good (s.createThrough around).2)
    (hfolder : ∀ start made, start = s ∨ start = (s.createThrough around).2 →
      start.createFolder p = .ok made → good made) : good (s.createThrough (p :: around)).2 := by
  rw [createThrough]
  split
  · exact hgood
  split
  case h_1 made hmade => exact hfolder s made (.inl rfl) hmade
  case h_2 =>
    split
    case h_1 made hmade =>
      rw [hmade] at haround
      exact haround
    case h_2 made hmade =>
      rw [hmade] at haround hfolder
      split
      case h_1 all hall => exact hfolder made all (.inr rfl) hall
      case h_2 => exact haround
  case h_3 => exact hgood

/-- What making one folder does to a store, making several does, if it can be put together. -/
theorem createThrough_rel {r : FileStore → FileStore → Prop} (hrefl : ∀ s, r s s)
    (htrans : ∀ {s s' s''}, r s s' → r s' s'' → r s s'')
    (hfolder : ∀ {s s' p}, s.createFolder p = .ok s' → r s s') (s : FileStore) (paths : List Path) :
    r s (s.createThrough paths).2 := by
  induction paths with
  | nil => exact hrefl s
  | cons p around ih =>
    refine createThrough_cons_of (r s) (hrefl s) ih fun start made hstart hmade ↦ ?_
    obtain rfl | rfl := hstart
    · exact hfolder hmade
    · exact htrans ih (hfolder hmade)

/-- The store `s'` is `s` with more folders, if anything. -/
structure Furnishes (s s' : FileStore) : Prop where
  /-- Relative paths begin in the same folder. -/
  current : s'.current = s.current
  /-- What is not as it was, is a folder and was one or was nothing. -/
  find : ∀ l, s'.find? l = s.find? l ∨ s'.HasFolder l ∧ (s.find? l = none ∨ s.HasFolder l)

namespace Furnishes

theorem refl (s : FileStore) : s.Furnishes s :=
  ⟨rfl, fun _ ↦ Or.inl rfl⟩

theorem trans (h : s.Furnishes s') (h' : s'.Furnishes s'') : s.Furnishes s'' := by
  refine ⟨h'.current.trans h.current, fun l ↦ ?_⟩
  rcases h'.find l with hsame | ⟨hfolder, hwas⟩
  · rcases h.find l with hsame' | ⟨hfolder', hwas'⟩
    · exact Or.inl (hsame.trans hsame')
    · refine Or.inr ⟨?_, hwas'⟩
      rwa [HasFolder, hsame]
  · refine Or.inr ⟨hfolder, ?_⟩
    rcases h.find l with hsame' | ⟨-, hwas'⟩
    · rwa [HasFolder, hsame'] at hwas
    · exact hwas'

/-- What is no folder is not changed. -/
theorem find?_eq (h : s.Furnishes s') (hsome : (s.find? l).isSome) (hnot : ¬s.HasFolder l) :
    s'.find? l = s.find? l := by
  rcases h.find l with hsame | ⟨-, hnone | hwas⟩
  · exact hsame
  · rw [hnone] at hsome
    cases hsome
  · exact absurd hwas hnot

theorem keeps (h : s.Furnishes s') : s.Keeps s' := by
  refine ⟨h.current, fun l kind hkind ↦ ?_⟩
  rcases h.find l with hsame | ⟨hfolder, hnone | hwas⟩
  · rwa [kind?, hsame]
  · rw [kind?, hnone] at hkind
    cases hkind
  · rw [hasFolder_iff_kind?] at hfolder hwas
    rw [← hkind, hwas, hfolder]

theorem fileTime?_eq {time : Time} (h : s.Furnishes s') (htime : s.fileTime? l = some time) :
    s'.fileTime? l = some time := by
  have hfile : s.HasFile l := fileTime?_isSome_iff.1 (Option.isSome_of_eq_some htime)
  have hnot : ¬s.HasFolder l := fun hfolder ↦ by
    rw [hasFolder_iff_kind?, show s.kind? l = _ from hfile] at hfolder
    cases hfolder
  have hsome : (s.find? l).isSome := by
    rw [Option.isSome_iff_ne_none, Ne, ← kind?_eq_none_iff, show s.kind? l = _ from hfile]
    simp
  rw [← htime, fileTime?, h.find?_eq hsome hnot, fileTime?]

theorem no_link (h : s.Furnishes s') {target : String} (hlink : s'.find? l = some (.link target)) :
    s.find? l = some (.link target) := by
  rcases h.find l with hsame | ⟨⟨time, hfolder⟩, -⟩
  · rwa [hsame] at hlink
  · rw [hfolder] at hlink
    cases hlink

theorem ages (h : s.Furnishes s') : s.Ages s' :=
  ⟨h.keeps, fun _ _ ↦ h.no_link, fun _ time htime ↦ ⟨time, h.fileTime?_eq htime, Nat.le_refl time⟩⟩

theorem add_folder (hfree : s.find? (folder.child name) = none) (time : Time) :
    s.Furnishes (s.add folder name (.folder time)) := by
  refine ⟨current_add, fun l ↦ ?_⟩
  by_cases hl : l = folder.child name
  · subst hl
    exact Or.inr ⟨⟨time, find?_add_self⟩, Or.inl hfree⟩
  · have hput : (s.add folder name (.folder time)).find? l = (s.touchFolder folder).find? l := by
      rw [add, find?_tick, find?_put, if_neg hl]
    rw [hput]
    rcases find?_touchFolder s folder l with hsame | ⟨-, hwas, hfolder⟩
    · exact Or.inl hsame
    · refine Or.inr ⟨?_, Or.inr hwas⟩
      rwa [HasFolder, hput]

theorem createFolder (h : s.createFolder p = .ok s') : s.Furnishes s' := by
  rw [FileStore.createFolder] at h
  cases hdest : s.resolve false p with
  | error e =>
    rw [hdest] at h
    cases h
  | ok dest =>
    rw [hdest] at h
    cases dest with
    | existing l => cases h
    | vacant folder name slash =>
      cases h
      exact add_folder (find?_of_vacant hdest) _

theorem createThrough (s : FileStore) (paths : List Path) :
    s.Furnishes (s.createThrough paths).2 :=
  createThrough_rel refl trans createFolder s paths

theorem createFolders (s : FileStore) (p : Path) : s.Furnishes (s.createFolders p).2 :=
  createThrough s p.ancestors

end Furnishes

/-- The stores have the same entries. -/
structure Unchanged (s s' : FileStore) : Prop where
  /-- Relative paths begin in the same folder. -/
  current : s'.current = s.current
  /-- Everything is as it was. -/
  find : ∀ l, s'.find? l = s.find? l

theorem Unchanged.furnishes (h : s.Unchanged s') : s.Furnishes s' :=
  ⟨h.current, fun l ↦ Or.inl (h.find l)⟩

theorem Unchanged.stat_eq (h : s.Unchanged s') (p : Path) : s'.stat p = s.stat p := by
  have halike : s'.Alike s := ⟨h.current, fun l ↦ by rw [kind?, kind?, h.find]⟩
  have harrive : s'.arrive = s.arrive := by
    funext dest
    cases dest with
    | existing l => rw [arrive, arrive, h.find]
    | vacant => rfl
  rw [stat, stat, locate, locate, halike.resolve_eq, harrive]

theorem Unchanged.modified?_eq (h : s.Unchanged s') (p : Path) : s'.modified? p = s.modified? p := by
  rw [modified?, modified?, h.stat_eq]

/-! ### What is kept next to a change -/

section Kept

variable (h : s'.find? x = s.find? x ∨ x = folder ∧ s.HasFolder x ∧ s'.HasFolder x)
include h

theorem kind?_eq_of_kept : s'.kind? x = s.kind? x := by
  rcases h with hsame | ⟨-, hwas, his⟩
  · rw [kind?, hsame, kind?]
  · rw [hasFolder_iff_kind?.1 hwas, hasFolder_iff_kind?.1 his]

theorem fileTime?_eq_of_kept : s'.fileTime? x = s.fileTime? x := by
  rcases h with hsame | ⟨-, ⟨time, hwas⟩, ⟨time', his⟩⟩
  · rw [fileTime?, hsame, fileTime?]
  · rw [fileTime?, his, fileTime?, hwas]

theorem find?_eq_of_kept (hx : ¬s.HasFolder x) : s'.find? x = s.find? x :=
  h.resolve_right fun ⟨_, hwas, _⟩ ↦ hx hwas

theorem isSome_of_kept (hx : (s'.find? x).isSome) : (s.find? x).isSome := by
  rcases h with hsame | ⟨-, hwas, -⟩
  · rwa [← hsame]
  · exact hwas.isSome

end Kept

/-! ### Writing a file -/

/-- The store `s'` is `s` with a file at `l`, where the path leads to. The folder around it may count
as changed. -/
structure Writes (s : FileStore) (p : Path) (l : Location) (s' : FileStore) : Prop where
  /-- Relative paths begin in the same folder. -/
  current : s'.current = s.current
  /-- The path leads to a file, or to a name that is free. -/
  dest : s.resolve true p = .ok (.existing l) ∧ s.HasFile l ∨
    ∃ folder name, l = folder.child name ∧ s.resolve true p = .ok (.vacant folder name false)
  /-- There is a file. -/
  file : s'.HasFile l
  /-- Everything else is as it was, the time of the folder aside. -/
  kept : ∀ x, x ≠ l → s'.find? x = s.find? x ∨ x = l.parent ∧ s.HasFolder x ∧ s'.HasFolder x

namespace Writes

theorem kind?_eq (h : s.Writes p l s') (hx : x ≠ l) : s'.kind? x = s.kind? x :=
  kind?_eq_of_kept (h.kept x hx)

theorem find?_eq (h : s.Writes p l s') (hx : x ≠ l) (hfile : s.HasFile x) : s'.find? x = s.find? x :=
  find?_eq_of_kept (h.kept x hx) hfile.not_hasFolder

/-- Where the file comes, there was a file or nothing. -/
theorem kind?_dest (h : s.Writes p l s') : s.HasFile l ∨ s.find? l = none := by
  rcases h.dest with ⟨-, hfile⟩ | ⟨folder, name, rfl, hdest⟩
  · exact Or.inl hfile
  · exact Or.inr (find?_of_vacant hdest)

theorem keeps (h : s.Writes p l s') : s.Keeps s' := by
  refine ⟨h.current, fun x kind hkind ↦ ?_⟩
  by_cases hx : x = l
  · subst hx
    rcases h.kind?_dest with hfile | hnone
    · rw [show s.kind? x = _ from hfile] at hkind
      cases hkind
      exact h.file
    · rw [kind?, hnone] at hkind
      cases hkind
  · rwa [h.kind?_eq hx]

/-- The path leads to the file. -/
theorem resolve_eq (h : s.Writes p l s') : s'.resolve true p = .ok (.existing l) := by
  rcases h.dest with ⟨hdest, hfile⟩ | ⟨folder, name, rfl, hdest⟩
  · exact h.keeps.keepsWays.resolve_eq (h.file.trans hfile.symm) hdest
  · exact h.keeps.keepsWays.resolve_of_vacant hdest h.file

theorem fileTime?_eq (h : s.Writes p l s') (hx : x ≠ l) : s'.fileTime? x = s.fileTime? x :=
  fileTime?_eq_of_kept (h.kept x hx)

theorem no_link (h : s.Writes p l s') {target : String} (hlink : s'.find? x = some (.link target)) :
    s.find? x = some (.link target) := by
  rw [← kind?_eq_link_iff] at hlink ⊢
  by_cases hx : x = l
  · subst hx
    rw [show s'.kind? x = _ from h.file] at hlink
    cases hlink
  · rwa [h.kind?_eq hx] at hlink

end Writes

theorem timeAt?_touchFolder {time : Time} (h : (s.touchFolder folder).timeAt? x = some time) :
    s.timeAt? x = some time ∨ time = s.clock := by
  rw [touchFolder] at h
  split at h
  · rw [timeAt?, find?_put] at h
    split at h
    · exact Or.inr (Option.some.inj h).symm
    · exact Or.inl h
  · exact Or.inl h

/-- The store `s'` is `s` with a file written where the path leads to, at the time that the clock
tells. -/
structure WritesNow (s : FileStore) (p : Path) (l : Location) (s' : FileStore) : Prop where
  /-- The file is written. -/
  writes : s.Writes p l s'
  /-- It has the time of the clock. -/
  now : s'.fileTime? l = some s.clock
  /-- There are no other new times. -/
  times : ∀ x time, s'.timeAt? x = some time → s.timeAt? x = some time ∨ time = s.clock

/-- A file that is added in a folder is written. -/
theorem writesNow_add {content : ByteArray} {executable : Bool}
    (hdest : s.resolve true p = .ok (.vacant folder name false)) :
    s.WritesNow p (folder.child name) (s.add folder name (.file content executable s.clock)) := by
  have hput (x : Location) (hx : x ≠ folder.child name) :
      (s.add folder name (.file content executable s.clock)).find? x =
        (s.touchFolder folder).find? x := by rw [add, find?_tick, find?_put, if_neg hx]
  refine ⟨⟨current_add, Or.inr ⟨folder, name, rfl, hdest⟩, hasFile_of_find? find?_add_self,
    fun x hx ↦ ?_⟩, ?_, fun x time htime ↦ ?_⟩
  · rw [hput x hx, Location.parent_child]
    rcases find?_touchFolder s folder x with hsame | ⟨hparent, hwas, hfolder⟩
    · exact Or.inl hsame
    · refine Or.inr ⟨hparent, hwas, ?_⟩
      rwa [HasFolder, hput x hx]
  · rw [fileTime?, find?_add_self]
  · by_cases hx : x = folder.child name
    · rw [timeAt?, hx, find?_add_self] at htime
      exact Or.inr (Option.some.inj htime).symm
    · rw [timeAt?, hput x hx] at htime
      exact timeAt?_touchFolder htime

/-- A file that is put in the place of a file is written. -/
theorem writesNow_put {content : ByteArray} {executable : Bool}
    (hdest : s.resolve true p = .ok (.existing l)) (hfile : s.HasFile l) :
    s.WritesNow p l ((s.put l (.file content executable s.clock)).tick) := by
  have hput (x : Location) : ((s.put l (.file content executable s.clock)).tick).find? x =
      if x = l then some (.file content executable s.clock) else s.find? x := by
    rw [find?_tick, find?_put]
  refine ⟨⟨rfl, Or.inl ⟨hdest, hfile⟩, ?_, fun x hx ↦ Or.inl ?_⟩, ?_, fun x time htime ↦ ?_⟩
  · exact hasFile_of_find? ((hput l).trans (if_pos rfl))
  · rw [hput, if_neg hx]
  · rw [fileTime?, hput, if_pos rfl]
  · rw [timeAt?, hput] at htime
    split at htime
    · exact Or.inr (Option.some.inj htime).symm
    · exact Or.inl htime

/-- Writing bytes writes a file where the path leads to, at the time that the clock tells. -/
theorem exists_writes_at {content : ByteArray} {executable : Bool}
    (h : s.writeBytes p content executable = .ok s') : ∃ l, s.WritesNow p l s' := by
  rw [writeBytes] at h
  cases hdest : s.resolve true p with
  | error e =>
    rw [hdest] at h
    cases h
  | ok dest =>
    rw [hdest] at h
    cases dest with
    | vacant folder name slash =>
      cases slash with
      | true => cases h
      | false =>
        cases h
        exact ⟨folder.child name, writesNow_add hdest⟩
    | existing l =>
      simp only at h
      split at h <;> cases h
      exact ⟨l, writesNow_put hdest (hasFile_of_find? ‹_›)⟩

theorem exists_writes {content : ByteArray} {executable : Bool}
    (h : s.writeBytes p content executable = .ok s') : ∃ l, s.Writes p l s' := by
  obtain ⟨l, hwrites, -⟩ := exists_writes_at h
  exact ⟨l, hwrites⟩

/-- What is at the location is a file, and nothing is newer. -/
structure Newest (s : FileStore) (l : Location) (time : Time) : Prop where
  /-- The time is that of the file. -/
  file : s.fileTime? l = some time
  /-- Nothing has a later time. -/
  latest : ∀ x time', s.timeAt? x = some time' → time' ≤ time

/-- The store `s'` is `s` with a file at the end of the path that is not older than anything that is
there, or was there. -/
def Makes (s : FileStore) (p : Path) (s' : FileStore) : Prop :=
  ∃ l time, s.Writes p l s' ∧ s'.Newest l time ∧ ∀ x time', s.timeAt? x = some time' → time' ≤ time

theorem Makes.ages (h : s.Makes p s') : s.Ages s' := by
  obtain ⟨l, time, hwrites, hnewest, hlatest⟩ := h
  refine ⟨hwrites.keeps, fun _ _ ↦ hwrites.no_link, fun x time' htime' ↦ ?_⟩
  by_cases hx : x = l
  · subst hx
    exact ⟨time, hnewest.file, hlatest x time' (timeAt?_of_fileTime? htime')⟩
  · exact ⟨time', (hwrites.fileTime?_eq hx).trans htime', Nat.le_refl time'⟩

/-- The latest time in a store. -/
def latestTime (s : FileStore) : Time :=
  (s.entries.filterMap (·.2.modified?)).max?.getD 0

theorem timeAt?_le_latestTime {time : Time} (h : s.timeAt? l = some time) : time ≤ s.latestTime := by
  have hmem : time ∈ s.entries.filterMap (·.2.modified?) := by
    obtain ⟨e, he, htime⟩ := Option.bind_eq_some_iff.1 h
    obtain ⟨_, _, hentry⟩ := List.lookup_eq_some_iff.1 he
    exact List.mem_filterMap.2 ⟨(l, e), by simp [hentry], htime⟩
  rw [latestTime]
  cases hmax : (s.entries.filterMap (·.2.modified?)).max? with
  | none =>
    rw [List.max?_eq_none_iff.1 hmax] at hmem
    cases hmem
  | some latest => exact (List.max?_eq_some_iff.1 hmax).2 time hmem

/-- A file that is written at the latest time is made. -/
theorem makes_of_writeBytes {content : ByteArray} {executable : Bool} {time : Time}
    (hlatest : ∀ x time', s.timeAt? x = some time' → time' ≤ time)
    (h : { s with clock := time }.writeBytes p content executable = .ok s') (clock : Time) :
    s.Makes p { s' with clock } := by
  obtain ⟨l, hwrites, hfile, htimes⟩ := exists_writes_at h
  refine ⟨l, time, ⟨hwrites.current, ?_, hwrites.file, hwrites.kept⟩, ⟨hfile, ?_⟩, hlatest⟩
  · have halike : { s with clock := time }.Alike s := ⟨rfl, fun _ ↦ rfl⟩
    rw [← halike.resolve_eq]
    exact hwrites.dest
  · intro x time' htime'
    rcases htimes x time' htime' with hwas | rfl
    · exact hlatest x time' hwas
    · exact Nat.le_refl _

/-- A path leads to a file that has last been changed at the given time. -/
structure FindsFile (s : FileStore) (p : Path) (l : Location) (time : Time) : Prop where
  /-- The path leads to the location. -/
  leads : s.resolve true p = .ok (.existing l)
  /-- There is a file. -/
  file : s.fileTime? l = some time

namespace FindsFile

theorem stat_eq {time : Time} (h : s.FindsFile p l time) :
    ∃ content executable, s.stat p = .ok (.file content executable time) := by
  have hfile := h.file
  rw [fileTime?] at hfile
  split at hfile <;> cases hfile
  rename_i content executable hfind
  refine ⟨content, executable, ?_⟩
  rw [stat, locate, h.leads]
  show ((s.arrive (.existing l)).map _) = _
  rw [arrive, hfind]
  rfl

theorem modified?_eq {time : Time} (h : s.FindsFile p l time) : s.modified? p = some time := by
  obtain ⟨content, executable, hstat⟩ := h.stat_eq
  rw [modified?, hstat]
  rfl

theorem of_ages {time : Time} (h : s.FindsFile p l time) (hages : s.Ages s') :
    ∃ time', s'.FindsFile p l time' ∧ time ≤ time' := by
  obtain ⟨time', htime', hle⟩ := hages.later l time h.file
  refine ⟨time', ⟨hages.toKeeps.resolve_eq ?_ h.leads, htime'⟩, hle⟩
  have hfile := h.file
  rw [fileTime?] at hfile
  split at hfile <;> cases hfile
  rw [‹s.find? l = _›]
  rfl

end FindsFile

/-- A path whose time is that of no folder leads to a file. -/
theorem exists_findsFile {time : Time} (h : s.modified? p = some time)
    (hfolder : s.isFolder p = false) : ∃ l, s.FindsFile p l time := by
  rw [modified?] at h
  rw [isFolder] at hfolder
  cases hstat : s.stat p with
  | error e =>
    rw [hstat] at h
    cases h
  | ok e =>
    rw [hstat] at h hfolder
    obtain ⟨l, hlocate⟩ := locate_of_stat hstat
    cases hdest : s.resolve true p with
    | error e' =>
      rw [locate, hdest] at hlocate
      cases hlocate
    | ok dest =>
      rw [locate, hdest] at hlocate
      obtain ⟨rfl, hfind⟩ := find?_of_arrive hlocate
      refine ⟨l, hdest, ?_⟩
      cases e with
      | file content executable time' =>
        rw [fileTime?, hfind]
        exact h
      | folder time' => cases hfolder
      | link target => cases h

/-- The time that a path leads to is the time of something. -/
theorem exists_timeAt? {time : Time} (h : s.modified? p = some time) :
    ∃ l, s.timeAt? l = some time := by
  rw [modified?] at h
  cases hstat : s.stat p with
  | error e =>
    rw [hstat] at h
    cases h
  | ok e =>
    rw [hstat] at h
    obtain ⟨l, hlocate⟩ := locate_of_stat hstat
    refine ⟨l, ?_⟩
    rw [timeAt?, (find?_of_locate hlocate).2]
    exact h

/-! ### Removing a file -/

/-- The store `s'` is `s` without what was at `l`. The folder around it may count as changed. -/
structure Loses (s : FileStore) (l : Location) (s' : FileStore) : Prop where
  /-- Relative paths begin in the same folder. -/
  current : s'.current = s.current
  /-- Nothing is there. -/
  gone : s'.find? l = none
  /-- Everything else is as it was, the time of the folder aside. -/
  kept : ∀ x, x ≠ l → s'.find? x = s.find? x ∨ x = l.parent ∧ s.HasFolder x ∧ s'.HasFolder x

namespace Loses

theorem kind?_eq (h : s.Loses l s') (hx : x ≠ l) : s'.kind? x = s.kind? x :=
  kind?_eq_of_kept (h.kept x hx)

theorem find?_eq (h : s.Loses l s') (hx : x ≠ l) (hfile : s.HasFile x) : s'.find? x = s.find? x :=
  find?_eq_of_kept (h.kept x hx) hfile.not_hasFolder

theorem fileTime?_eq (h : s.Loses l s') (hx : x ≠ l) : s'.fileTime? x = s.fileTime? x :=
  fileTime?_eq_of_kept (h.kept x hx)

theorem keepsWays (h : s.Loses l s') (hfile : s.HasFile l) : s.KeepsWays s' := by
  refine ⟨h.current, fun x kind hkind hx ↦ ?_⟩
  have hne : x ≠ l := by
    rintro rfl
    rw [show s.kind? x = _ from hfile] at hx
    exact hkind (Option.some.inj hx).symm
  rwa [h.kind?_eq hne]

/-- Where a path has led to a file that was removed, it writes the file that comes instead. -/
theorem eq_of_writes {l' : Location} (h : s.Loses l s') (hfile : s.HasFile l)
    (hdest : s.resolve true p = .ok (.existing l)) (hwrites : s'.Writes p l' s'') : l' = l := by
  rcases (h.keepsWays hfile).resolve_of_gone hdest hfile h.gone with hgone | ⟨_, _, rfl, hgone⟩
  · rcases hwrites.dest with ⟨hdest', -⟩ | ⟨_, _, rfl, hdest'⟩ <;> rw [hgone] at hdest'
    · cases hdest'
      rfl
    · cases hdest'
  · rcases hwrites.dest with ⟨hdest', -⟩ | ⟨_, _, rfl, hdest'⟩ <;> rw [hgone] at hdest'
    · cases hdest'
    · cases hdest'
      rfl

/-- A file that is removed and written again is kept. -/
theorem keeps_of_writes (h : s.Loses l s') (hfile : s.HasFile l) (hwrites : s'.Writes p l s'') :
    s.Keeps s'' := by
  refine ⟨hwrites.current.trans h.current, fun x kind hkind ↦ ?_⟩
  by_cases hx : x = l
  · subst hx
    rw [show s.kind? x = _ from hfile] at hkind
    cases hkind
    exact hwrites.file
  · rwa [hwrites.kind?_eq hx, h.kind?_eq hx]

end Loses

/-- A path that leads to something that is no link leads there when links are followed. -/
theorem resolve_of_locate_false {e : Entry} (h : s.locate false p = .ok (l, e))
    (hlink : ∀ target, e ≠ .link target) : s.resolve true p = .ok (.existing l) := by
  have hlead := (lead_of_locate_false h hlink).1
  rw [locate, resolve] at h
  rw [resolve]
  split
  · rw [if_pos ‹_›] at h
    cases h
  rw [if_neg ‹_›] at h
  split
  · rw [if_pos ‹_›] at h
    cases h
  exact hlead

/-- Removing what a path leads to removes it, unless it is a folder. -/
theorem exists_loses (h : s.removeFile p = .ok s') :
    ∃ l e, s.locate false p = .ok (l, e) ∧ e.isFolder = false ∧ s.Loses l s' := by
  rw [removeFile] at h
  cases hlocate : s.locate false p with
  | error e =>
    rw [hlocate] at h
    cases h
  | ok found =>
    obtain ⟨l, e⟩ := found
    have hloses : s.Loses l (((s.touchFolder l.parent).erase l).tick) := by
      refine ⟨by simp, by simp, fun x hx ↦ ?_⟩
      have herase : ((s.touchFolder l.parent).erase l).tick.find? x =
          (s.touchFolder l.parent).find? x := by rw [find?_tick, find?_erase, if_neg hx]
      rw [herase]
      rcases find?_touchFolder s l.parent x with hsame | ⟨hparent, hwas, hfolder⟩
      · exact Or.inl hsame
      · refine Or.inr ⟨hparent, hwas, ?_⟩
        rwa [HasFolder, herase]
    rw [hlocate] at h
    cases e with
    | folder time => cases h
    | file content executable time =>
      cases h
      exact ⟨l, _, rfl, rfl, hloses⟩
    | link target =>
      cases h
      exact ⟨l, _, rfl, rfl, hloses⟩

end Rebuild.FileStore
