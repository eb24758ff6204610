import Rebuild.Project.Export
import Rebuild.Proofs.Effect
import Rebuild.Proofs.FileStore.Copying
import Rebuild.Proofs.FileStore.Sound
import Rebuild.Proofs.Project.Staleness

/-!
# What an export does

Exporting an item makes room at its destination and copies it there. First what is at the destination is
removed, unless it is newer, then the folder of the destination is made, and then the item is copied; what
has been done before a failure is not undone (`Project.ExportItem.Ends`). An export takes its items one after
the other, whatever becomes of each (`Project.ExportsAll`).

A file is changed only when the destination of an item leads to it when its turn comes
(`Project.ExportItem.Reaches`). When an item fails, only the file at its destination can be lost, and only if
there is nothing to copy: with another file to copy, room that has been made is used.
-/

namespace Rebuild

open FileStore

variable {s s' cleared made : FileStore} {l m : Location}

/-- Makes the folder of a path. -/
def FileStore.createFolderOf (s : FileStore) (p : Path) : Except FileError Unit × FileStore :=
  match p.parent? with
  | some folder => s.createFolders folder
  | none => (.ok (), s)

theorem FileStore.furnishes_createFolderOf (s : FileStore) (p : Path) :
    s.Furnishes (s.createFolderOf p).2 := by
  rw [createFolderOf]
  split
  · exact .createFolders s _
  · exact .refl s

theorem FileStore.Sound.createFolderOf (hs : s.Sound) (p : Path) : (s.createFolderOf p).2.Sound := by
  rw [FileStore.createFolderOf]
  split
  · exact hs.createFolders _
  · exact hs

namespace Project

/-! ### One item -/

namespace ExportItem

variable {item : ExportItem} {result : Except BuildError Bool}

/-- The store when there is nothing any more at the destination of an item that may be copied. -/
inductive Clears (item : ExportItem) (s : FileStore) : FileStore → Prop where
  /-- There was nothing. -/
  | absent (habsent : s.pathExists item.destination = false) : Clears item s s
  /-- What was there and is not newer has been removed. -/
  | removed {there here : Time} {cleared : FileStore} (htimes : item.times s = .ok (there, here))
      (hnewer : ¬here < there) (hremove : s.removeFile item.destination = .ok cleared) :
      Clears item s cleared

/-- The store when there is room for an item that may be copied. -/
def Rooms (item : ExportItem) (s made : FileStore) : Prop :=
  ∃ cleared, item.Clears s cleared ∧ cleared.createFolderOf item.destination = (.ok (), made)

/-- What exporting an item can come to. -/
inductive Ends (item : ExportItem) (s : FileStore) : Except BuildError Bool → FileStore → Prop where
  /-- It is not known whether the destination is newer. -/
  | unknown {e : BuildError} (htimes : item.times s = .error e) : Ends item s (.error e) s
  /-- The destination is newer. -/
  | newer {there here : Time} (htimes : item.times s = .ok (there, here)) (hnewer : here < there) :
      Ends item s (.ok false) s
  /-- What is at the destination cannot be removed. -/
  | occupied {e : FileError} (hremove : s.removeFile item.destination = .error e) :
      Ends item s (.error (.files item.destination e)) s
  /-- The folder of the destination cannot be made. -/
  | unplaced {cleared made : FileStore} {folder : Path} {e : FileError} (hclears : item.Clears s cleared)
      (hparent : item.destination.parent? = some folder)
      (hmake : cleared.createFolderOf item.destination = (.error e, made)) :
      Ends item s (.error (.files folder e)) made
  /-- The item cannot be copied. -/
  | uncopied {made : FileStore} {e : FileError} (hrooms : item.Rooms s made)
      (hcopy : made.copyFile item.source item.destination = .error e) :
      Ends item s (.error (.files item.destination e)) made
  /-- It is copied. -/
  | copied {made s' : FileStore} (hrooms : item.Rooms s made)
      (hcopy : made.copyFile item.source item.destination = .ok s') : Ends item s (.ok true) s'

/-! ### What is done to other files -/

/-- The destination of an item leads to a location when its turn comes: at once, or when there is room for
the item. -/
def Reaches (item : ExportItem) (s : FileStore) (l : Location) : Prop :=
  (∃ e, s.locate false item.destination = .ok (l, e)) ∨
    ∃ made, item.Rooms s made ∧ made.resolve true item.destination = .ok (.existing l)

/-- The item has the location for its destination, and there is no file to copy but the one there. -/
def Forfeits (item : ExportItem) (s : FileStore) (l : Location) : Prop :=
  (∃ e, s.locate false item.destination = .ok (l, e)) ∧
    ∀ m, s.resolve true item.source = .ok (.existing m) → s.HasFile m → m = l

/-- When there is nothing any more at the destination, files are as they were, apart from the one that was
there. -/
theorem Clears.cases (h : item.Clears s cleared) (hfile : s.HasFile l) :
    cleared.find? l = s.find? l ∨
      s.Loses l cleared ∧ ∃ e, s.locate false item.destination = .ok (l, e) := by
  cases h with
  | absent => exact Or.inl rfl
  | removed _ _ hremove =>
    obtain ⟨x, e, hlocate, -, hloses⟩ := exists_loses hremove
    by_cases hx : l = x
    · subst hx
      exact Or.inr ⟨hloses, e, hlocate⟩
    · exact Or.inl (hloses.find?_eq hx hfile)

/-- A file is as it was when folders have been made. -/
theorem find?_of_createFolderOf {p : Path} {outcome : Except FileError Unit} (hfile : s.HasFile l)
    (hmake : s.createFolderOf p = (outcome, made)) : made.find? l = s.find? l := by
  have hfurnishes := furnishes_createFolderOf s p
  rw [hmake] at hfurnishes
  exact hfurnishes.find?_eq (isSome_of_hasFile hfile) hfile.not_hasFolder

/-- Where a file has been removed, its place is in a folder that is there, so that nothing has to be made
and another file can be copied to it. -/
theorem room_of_loses {e : Entry} (hs : s.Sound) (hlocate : s.locate false item.destination = .ok (l, e))
    (hfile : s.HasFile l) (hloses : s.Loses l cleared) :
    cleared.createFolderOf item.destination = (.ok (), cleared) ∧
      ∀ m, s.resolve true item.source = .ok (.existing m) → s.HasFile m → m ≠ l →
        ∃ s', cleared.copyFile item.source item.destination = .ok s' := by
  have hplaced := hs.placed_of_locate_false hlocate hfile
  have hreworks : Reworks [l] [l] s cleared :=
    .of_loses hs.toWellFormed hfile (List.mem_singleton_self l) hloses
  have hstill := hreworks.placed hs.toWellFormed hplaced
  have hfolder : cleared.HasFolder l.parent :=
    hreworks.keepsWays.hasFolder (hs.parent l (isSome_of_hasFile hfile))
  obtain ⟨folder, hparent, hmake⟩ := hstill.createFolders_of_hasFolder hreworks.wellFormed hfolder
  refine ⟨by rw [createFolderOf, hparent]; exact hmake, fun m hleads hm hne ↦ ?_⟩
  have hkind : cleared.kind? m = s.kind? m := hloses.kind?_eq hne
  refine hstill.exists_copyFile hreworks.wellFormed hfolder ?_
    (hreworks.keepsWays.resolve_eq hkind hleads) (hkind.trans hm)
  rintro ⟨time, hfind⟩
  rw [hloses.gone] at hfind
  cases hfind

/-- When an item fails, files are as they were. Only a file at the destination can be lost, if there is no
other to copy. -/
theorem Ends.find?_of_error {e : BuildError} (h : item.Ends s (.error e) s') (hs : s.Sound)
    (hfile : s.HasFile l) :
    s'.find? l = s.find? l ∨ s'.find? l = none ∧ item.Forfeits s l := by
  cases h with
  | unknown | occupied => exact Or.inl rfl
  | unplaced hclears _ hmake =>
    rcases hclears.cases hfile with hsame | ⟨hloses, e, hlocate⟩
    · exact Or.inl ((find?_of_createFolderOf (hfile.of_find?_eq hsame) hmake).trans hsame)
    · -- the folder is there, as it was the folder of the file
      rw [(room_of_loses hs hlocate hfile hloses).1] at hmake
      cases hmake
  | uncopied hrooms hcopy =>
    obtain ⟨cleared, hclears, hmake⟩ := hrooms
    rcases hclears.cases hfile with hsame | ⟨hloses, e, hlocate⟩
    · exact Or.inl ((find?_of_createFolderOf (hfile.of_find?_eq hsame) hmake).trans hsame)
    · obtain ⟨hroom, hcopied⟩ := room_of_loses hs hlocate hfile hloses
      rw [hroom] at hmake
      cases hmake
      refine Or.inr ⟨hloses.gone, ⟨e, hlocate⟩, fun m hleads hm ↦ ?_⟩
      by_contra hne
      obtain ⟨after, hafter⟩ := hcopied m hleads hm hne
      rw [hafter] at hcopy
      cases hcopy

theorem Forfeits.reaches (h : item.Forfeits s l) : item.Reaches s l :=
  Or.inl h.1

/-- Only a file is changed that the destination of the item leads to. -/
theorem Ends.find?_eq (h : item.Ends s result s') (hs : s.Sound) (hfile : s.HasFile l) :
    s'.find? l = s.find? l ∨ item.Reaches s l := by
  cases result with
  | error e => exact (h.find?_of_error hs hfile).imp_right fun ⟨_, hforfeits⟩ ↦ hforfeits.reaches
  | ok copied =>
    cases h with
    | newer => exact Or.inl rfl
    | copied hrooms hcopy =>
      obtain ⟨cleared, hclears, hmake⟩ := id hrooms
      rcases hclears.cases hfile with hsame | ⟨-, hlocate⟩
      · have hmade := (find?_of_createFolderOf (hfile.of_find?_eq hsame) hmake).trans hsame
        obtain ⟨-, w, -, -, hwrites, -⟩ := exists_writes_of_copyFile hcopy
        by_cases hw : l = w
        · -- the file was there, so that the destination has led to it
          subst hw
          rcases hwrites.dest with ⟨hdest, -⟩ | ⟨folder, name, rfl, hdest⟩
          · exact Or.inr (Or.inr ⟨_, hrooms, hdest⟩)
          · have hsome := isSome_of_hasFile (hfile.of_find?_eq hmade)
            rw [find?_of_vacant hdest] at hsome
            cases hsome
        · exact Or.inl ((hwrites.find?_eq hw (hfile.of_find?_eq hmade)).trans hmade)
      · exact Or.inr (Or.inl hlocate)

theorem Clears.sound (h : item.Clears s cleared) (hs : s.Sound) : cleared.Sound := by
  cases h with
  | absent => exact hs
  | removed _ _ hremove =>
    obtain ⟨x, e, hlocate, hkind, hloses⟩ := exists_loses hremove
    refine hs.of_loses hloses ?_
    rintro ⟨time, hfind⟩
    obtain ⟨-, hthere⟩ := locate_eq_ok_iff.1 hlocate
    rw [hfind] at hthere
    cases hthere
    cases hkind

theorem Rooms.sound (h : item.Rooms s made) (hs : s.Sound) : made.Sound := by
  obtain ⟨cleared, hclears, hmake⟩ := h
  have hsound := (hclears.sound hs).createFolderOf item.destination
  rwa [hmake] at hsound

theorem Ends.sound (h : item.Ends s result s') (hs : s.Sound) : s'.Sound := by
  cases h with
  | unknown | newer | occupied => exact hs
  | unplaced hclears _ hmake =>
    have hsound := (hclears.sound hs).createFolderOf item.destination
    rwa [hmake] at hsound
  | uncopied hrooms => exact hrooms.sound hs
  | copied hrooms hcopy =>
    obtain ⟨-, w, -, -, hwrites, -⟩ := exists_writes_of_copyFile hcopy
    exact (hrooms.sound hs).of_writes hwrites

end ExportItem

/-! ### All items -/

/-- An item that has been exported. -/
structure Exported where
  /-- The item. -/
  item : ExportItem
  /-- The files when its turn came. -/
  before : FileStore
  /-- What it has come to. -/
  result : Except BuildError Bool
  /-- The files behind it. -/
  after : FileStore

/-- What exporting items one after the other can come to. -/
inductive ExportsAll : FileStore → List Exported → FileStore → Prop where
  /-- There is no item. -/
  | nil {s : FileStore} : ExportsAll s [] s
  /-- An item is exported, and then the others are. -/
  | cons {step : Exported} {steps : List Exported} {s' : FileStore}
      (hfirst : step.item.Ends step.before step.result step.after)
      (hrest : ExportsAll step.after steps s') : ExportsAll step.before (step :: steps) s'

variable {steps others : List Exported} {step : Exported}

theorem ExportsAll.append {s'' : FileStore} (h : ExportsAll s steps s') (h' : ExportsAll s' others s'') :
    ExportsAll s (steps ++ others) s'' := by
  induction h with
  | nil => exact h'
  | cons hfirst _ ih => exact .cons hfirst (ih h')

/-- Every item is exported from a sound store. -/
theorem ExportsAll.of_mem (h : ExportsAll s steps s') (hs : s.Sound) (hstep : step ∈ steps) :
    step.before.Sound ∧ step.item.Ends step.before step.result step.after := by
  induction h with
  | nil => cases hstep
  | cons hfirst _ ih =>
    rcases List.mem_cons.1 hstep with rfl | hrest
    · exact ⟨hs, hfirst⟩
    · exact ih (hfirst.sound hs) hrest

/-- A file is as it was, or the destination of an item has led to it. -/
theorem ExportsAll.find?_eq (h : ExportsAll s steps s') (hs : s.Sound) (hfile : s.HasFile l) :
    s'.find? l = s.find? l ∨ ∃ step ∈ steps, step.item.Reaches step.before l := by
  induction h with
  | nil => exact Or.inl rfl
  | @cons step steps _ hfirst _ ih =>
    rcases hfirst.find?_eq hs hfile with hsame | hreaches
    · rcases ih (hfirst.sound hs) (hfile.of_find?_eq hsame) with hlater | ⟨later, hmem, hreaches⟩
      · exact Or.inl (hlater.trans hsame)
      · exact Or.inr ⟨later, List.mem_cons_of_mem _ hmem, hreaches⟩
    · exact Or.inr ⟨step, List.mem_cons_self, hreaches⟩

/-- A report with one more item. -/
def Exported.addTo (report : ExportReport) (step : Exported) : ExportReport :=
  match step.result with
  | .ok true => { report with copied := report.copied ++ [step.item.destination] }
  | .ok false => { report with skipped := report.skipped + 1 }
  | .error _ => { report with failed := report.failed + 1 }

/-- Whether the item has been copied. -/
def Exported.isCopied (step : Exported) : Bool :=
  step.result.toOption = some true

/-- Whether the destination of the item was newer. -/
def Exported.isSkipped (step : Exported) : Bool :=
  step.result.toOption = some false

/-- Whether the item could not be copied. -/
def Exported.isFailed (step : Exported) : Bool :=
  step.result.toOption = none

theorem Exported.exists_copied (h : step.isFailed = false) :
    ∃ copied, step.result = .ok copied := by
  rw [Exported.isFailed] at h
  cases hresult : step.result with
  | ok copied => exact ⟨copied, rfl⟩
  | error =>
    rw [hresult] at h
    cases h

/-- What a report says about items that have been exported. -/
def reportOf (steps : List Exported) : ExportReport where
  copied := (steps.filter Exported.isCopied).map (·.item.destination)
  skipped := steps.countP Exported.isSkipped
  failed := steps.countP Exported.isFailed

theorem reportOf_append_singleton (steps : List Exported) (step : Exported) :
    reportOf (steps ++ [step]) = Exported.addTo (reportOf steps) step := by
  obtain ⟨item, before, result, after⟩ := step
  rcases result with e | _ | _ <;>
    simp [reportOf, Exported.addTo, Exported.isCopied, Exported.isSkipped, Exported.isFailed,
      Except.toOption]

theorem foldl_addTo (steps : List Exported) : steps.foldl Exported.addTo {} = reportOf steps := by
  induction steps using List.reverseRecOn with
  | nil => rfl
  | append_singleton steps step ih => rw [List.foldl_append, ih, reportOf_append_singleton]; rfl

end Project

/-! ### Runs -/

namespace Session

open Project

/-- Room is made for an item, or it has come to its end without. -/
theorem does_prepare (item : ExportItem) (s : FileStore) :
    Does item.prepare s fun result made commands ↦ commands = [] ∧
      (result = .ok true ∧ item.Rooms s made ∨ result ≠ .ok true ∧ item.Ends s result made) := by
  unfold ExportItem.prepare
  refine .read fun session hfiles ↦ ?_
  rw [hfiles]
  extract_lets files place room
  have hroom (cleared : FileStore) (hclears : item.Clears s cleared) :
      Does (room ()) cleared fun result made commands ↦ commands = [] ∧
        (result = .ok true ∧ item.Rooms s made ∨ result ≠ .ok true ∧ item.Ends s result made) := by
    unfold room
    split
    case h_1 folder hparent =>
      have hmake : cleared.createFolderOf item.destination = cleared.createFolders folder := by
        rw [createFolderOf, hparent]
      refine .bind (.createFolders ?_)
      rcases hmade : cleared.createFolders folder with ⟨_ | _, made⟩
      · exact .pure ⟨rfl, Or.inr ⟨nofun, .unplaced hclears hparent (hmake.trans hmade)⟩⟩
      · exact .pure ⟨rfl, Or.inl ⟨rfl, cleared, hclears, hmake.trans hmade⟩⟩
    case h_2 hnone =>
      have hparent : item.destination.parent? = none :=
        Option.eq_none_iff_forall_not_mem.2 fun folder ↦ hnone folder
      exact .pure ⟨rfl, Or.inl ⟨rfl, cleared, hclears, by rw [createFolderOf, hparent]⟩⟩
  split
  case isFalse habsent => exact hroom s (.absent (Bool.eq_false_iff.2 habsent))
  case isTrue =>
    split
    case h_1 e htimes => exact .pure ⟨rfl, Or.inr ⟨nofun, .unknown htimes⟩⟩
    case h_2 there here htimes =>
      split
      case isTrue hnewer => exact .pure ⟨rfl, Or.inr ⟨nofun, .newer htimes hnewer⟩⟩
      case isFalse hnewer =>
        refine .bind (.change ?_)
        cases hremove : s.removeFile item.destination with
        | error e => exact .pure ⟨rfl, Or.inr ⟨nofun, .occupied hremove⟩⟩
        | ok cleared => exact hroom cleared (.removed htimes hnewer hremove)

theorem does_copy (item : ExportItem) (s : FileStore) :
    Does item.copy s fun result s' commands ↦ commands = [] ∧ item.Ends s result s' := by
  unfold ExportItem.copy
  refine .bind ((does_prepare item s).imp ?_)
  rintro result made commands ⟨rfl, ⟨rfl, hrooms⟩ | ⟨hnot, hends⟩⟩
  · refine .bind (.change ?_)
    cases hcopy : made.copyFile item.source item.destination with
    | error e => exact .pure ⟨rfl, .uncopied hrooms hcopy⟩
    | ok s' => exact .pure ⟨rfl, .copied hrooms hcopy⟩
  · rcases result with e | _ | _
    · exact .pure ⟨rfl, hends⟩
    · exact .pure ⟨rfl, hends⟩
    · exact absurd rfl hnot

/-- What is taken down of an item. -/
theorem does_record (report : ExportReport) (item : ExportItem) (s : FileStore) :
    Does (item.record report) s fun report' s' commands ↦ commands = [] ∧ ∃ result,
      item.Ends s result s' ∧ report' = Exported.addTo report ⟨item, s, result, s'⟩ := by
  unfold ExportItem.record
  refine .bind ((does_copy item s).imp ?_)
  rintro result s' commands ⟨rfl, hends⟩
  rcases result with e | _ | _
  · exact .silent (.printMarked _ _ _) fun _ ↦ .pure ⟨rfl, _, hends, rfl⟩
  · exact .pure ⟨rfl, _, hends, rfl⟩
  · exact .silent (.printMarked _ _ _) fun _ ↦ .pure ⟨rfl, _, hends, rfl⟩

/-- Items are exported one after the other. -/
theorem does_exportItems (report : ExportReport) (items : List ExportItem) (s : FileStore) :
    Does (items.foldlM ExportItem.record report) s fun report' s' commands ↦ commands = [] ∧
      ∃ steps : List Exported, steps.map Exported.item = items ∧ ExportsAll s steps s' ∧
        report' = steps.foldl Exported.addTo report := by
  induction items generalizing report s with
  | nil => exact .pure ⟨rfl, [], rfl, .nil, rfl⟩
  | cons item items ih =>
    rw [List.foldlM_cons]
    refine .bind ((does_record report item s).imp ?_)
    rintro report' after commands ⟨rfl, result, hends, rfl⟩
    refine (ih _ after).imp ?_
    rintro report' s' commands ⟨rfl, steps, rfl, hall, rfl⟩
    let step : Exported := ⟨item, s, result, after⟩
    exact ⟨rfl, step :: steps, rfl, @ExportsAll.cons step steps s' hends hall, rfl⟩

/-- The headers are exported, and then the artifact if it is there. -/
theorem does_exportTo (project : Project) (target : Path) (s : FileStore) :
    Does (project.exportTo target) s fun report s' commands ↦ commands = [] ∧
      ∃ (headers artifact : List Exported) (copied : FileStore),
        headers.map Exported.item = project.headerItems target ∧ ExportsAll s headers copied ∧
        artifact.map Exported.item =
          (if copied.pathExists project.artifact then (project.artifactItem? target).toList else []) ∧
        ExportsAll copied artifact s' ∧ report = reportOf (headers ++ artifact) := by
  unfold Project.exportTo
  refine .bind ((does_exportItems {} (project.headerItems target) s).imp ?_)
  rintro report copied commands ⟨rfl, headers, hitems, hheaders, rfl⟩
  refine .read fun session hfiles ↦ ?_
  rw [hfiles]
  split
  case isTrue hexists =>
    split
    case h_1 item hitem =>
      refine (does_record _ item copied).imp ?_
      rintro report' s' commands ⟨rfl, result, hends, rfl⟩
      refine ⟨rfl, headers, [⟨item, copied, result, s'⟩], copied, hitems, hheaders, ?_,
        @ExportsAll.cons ⟨item, copied, result, s'⟩ [] s' hends .nil, ?_⟩
      · rw [if_pos hexists, hitem]
        rfl
      · rw [← foldl_addTo, List.foldl_append]
        rfl
    case h_2 hnone =>
      refine .pure ⟨rfl, headers, [], copied, hitems, hheaders, ?_, .nil, ?_⟩
      · rw [if_pos hexists, hnone]
        rfl
      · rw [← foldl_addTo, List.append_nil]
  case isFalse hexists =>
    refine .silent (.printMarked _ _ _) fun _ ↦
      .pure ⟨rfl, headers, [], copied, hitems, hheaders, ?_, .nil, ?_⟩
    · rw [if_neg hexists]
      rfl
    · rw [← foldl_addTo, List.append_nil]

end Session

/-! ### What is spared -/

namespace Project

/-- The items that an export may have. -/
def exportItems (project : Project) (target : Path) : List ExportItem :=
  project.headerItems target ++ (project.artifactItem? target).toList

/-- What an export comes to, and that it takes all headers. -/
theorem exists_exported (project : Project) (target : Path) {before : Session} {ran : ExportReport × Session}
    (hran : (project.exportTo target).run before = ran) :
    ∃ steps, ExportsAll before.files steps ran.2.files ∧
      (∀ step ∈ steps, step.item ∈ project.exportItems target) ∧ ran.1 = reportOf steps ∧
      ∀ item ∈ project.headerItems target, ∃ step ∈ steps, step.item = item := by
  have hdoes := Session.does_exportTo project target before.files before rfl
  rw [hran] at hdoes
  obtain ⟨-, -, -, headers, artifact, copied, hheaders, hexported, hartifact, hfinished, hreport⟩ := hdoes
  refine ⟨headers ++ artifact, hexported.append hfinished, fun step hstep ↦ ?_, hreport, fun item hitem ↦ ?_⟩
  · have hitem := List.mem_map_of_mem (f := Exported.item) hstep
    rw [List.map_append, hheaders, hartifact] at hitem
    refine (List.mem_append.1 hitem).elim (fun h ↦ List.mem_append_left _ h) fun h ↦ ?_
    split at h
    · exact List.mem_append_right _ h
    · cases h
  · rw [← hheaders] at hitem
    obtain ⟨step, hstep, rfl⟩ := List.mem_map.1 hitem
    exact ⟨step, List.mem_append_left _ hstep, rfl⟩

/-- A store with a header, an artifact that is a folder, and a file that was exported earlier in place of
the artifact. -/
def folderArtifact : FileStore where
  entries := [(.root, .folder 0), (⟨["src"]⟩, .folder 0),
    (⟨["src", "a.h"]⟩, .file (Text.Utf8.encode "int a;\n") false 10), (⟨["bin"]⟩, .folder 0),
    (⟨["bin", "app"]⟩, .folder 30), (⟨["out"]⟩, .folder 0), (⟨["out", "bin"]⟩, .folder 0),
    (⟨["out", "bin", "app"]⟩, .file (Text.Utf8.encode "old") false 20)]
  clock := 40

/-- A store with a header where headers are exported to. -/
def ownTarget : FileStore where
  entries := [(.root, .folder 0), (⟨["include"]⟩, .folder 0), (⟨["include", "app"]⟩, .folder 0),
    (⟨["include", "app", "a.h"]⟩, .file (Text.Utf8.encode "int a;\n") false 10)]
  clock := 40

end Project

end Rebuild
