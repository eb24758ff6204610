import Rebuild.Proofs.FileStore.Copying
import Rebuild.Proofs.Project.Advance
import Rebuild.Proofs.Project.Retry

/-!
# Changing files and building

Both are an advance: changing a file that builds do not write, if it becomes the latest file, and
building with an executor that follows a tooling, whatever commands fail. When a build succeeds, all
sources that were stale have been compiled, and the artifact has been made or was not due.
-/

namespace Rebuild

open FileStore

/-- The store `s'` is `s` with a file of the given bytes at the end of the path. The file is newer than
all that was there, and not older than anything that is there. -/
def FileStore.Yields (s : FileStore) (p : Path) (content : ByteArray) (s' : FileStore) : Prop :=
  ∃ l executable time, s.Writes p l s' ∧ s'.find? l = some (.file content executable time) ∧
    (∀ x time', s.timeAt? x = some time' → time' < time) ∧
    ∀ x time', s'.timeAt? x = some time' → time' ≤ time

theorem FileStore.Yields.makes {s s' : FileStore} {p : Path} {content : ByteArray}
    (h : s.Yields p content s') : s.Makes p s' := by
  obtain ⟨l, executable, time, hwrites, hfind, hnewer, hlatest⟩ := h
  exact ⟨l, time, hwrites, ⟨by rw [fileTime?, hfind], hlatest⟩, fun x time' htime' ↦
    (hnewer x time' htime').le⟩

namespace FileStore

variable {s s' : FileStore} {p : Path} {l : Location} {content : ByteArray} {executable : Bool}

/-- A file that is written later than everything else is yielded. -/
theorem yields_of_writeBytes (h : { s with clock := s.latestTime + 1 }.writeBytes p content executable =
    .ok s') (clock : Time) : s.Yields p content { s' with clock } := by
  obtain ⟨l, hwrites, hfile, htimes⟩ := exists_writes_at h
  obtain ⟨present, time, hfind⟩ := content?_eq_some_iff.1 (content?_of_writeBytes h hwrites)
  rw [fileTime?, hfind] at hfile
  cases hfile
  have hlatest (x : Location) (time : Time) (htime : s.timeAt? x = some time) :
      time < s.latestTime + 1 := Nat.lt_succ_of_le (timeAt?_le_latestTime htime)
  have halike : { s with clock := s.latestTime + 1 }.Alike s := ⟨rfl, fun _ ↦ rfl⟩
  refine ⟨l, present, _, ⟨hwrites.current, ?_, hwrites.file, hwrites.kept⟩, hfind, hlatest,
    fun x time htime ↦ ?_⟩
  · rw [← halike.resolve_eq]
    exact hwrites.dest
  · rcases htimes x time htime with hwas | rfl
    · exact (hlatest x time hwas).le
    · exact Nat.le_refl _

/-- Makes the folders around a file and writes it, later than everything else. -/
def createFile? (s : FileStore) (p : Path) (content : ByteArray) : Option FileStore :=
  match p.parent?.map s.createFolders with
  | some (.ok (), made) =>
    ({ made with clock := made.latestTime + 1 }.writeBytes p content).toOption
  | _ => none

end FileStore

/-- A file that has not come at a place is as it was. -/
theorem FileStore.Reworks.find?_eq_of_comes {places touched : List Location} {s s' : FileStore}
    {x : Location} (h : Reworks places touched s s') (hfile : s'.HasFile x) (hnot : x ∉ touched) :
    s'.find? x = s.find? x := by
  rcases h.find x with hsame | ⟨htouched, -⟩ | ⟨-, -, hfolder⟩
  · exact hsame
  · exact absurd htouched hnot
  · exact absurd hfolder (Plain.not_hasFolder (Or.inl hfile))

/-- When room for the artifact is made, it stays as it is or goes. -/
theorem Project.Ready.find?_prepare {s : FileStore} {project : Project} {place : Path → Location}
    {prepared : Except BuildError Unit} {made : FileStore} (h : project.Ready place s)
    (hprepare : project.prepare s = (prepared, made)) :
    made.find? (place project.artifact) = s.find? (place project.artifact) ∨
      made.find? (place project.artifact) = none := by
  have hroom {room : FileStore} {result : Except BuildError Unit}
      (hroom : project.makeRoom s = (result, room)) :
      room.find? (place project.artifact) = s.find? (place project.artifact) :=
    (h.reworks_makeRoom hroom).find?_eq h.aside
      (List.mem_map_of_mem project.artifact_mem_outputs) List.not_mem_nil
  cases hmake : project.makeRoom s with
  | mk result room =>
    cases result with
    | error e =>
      rw [Project.prepare_of_error hmake] at hprepare
      cases hprepare
      exact Or.inl (hroom hmake)
    | ok =>
      have hready := h.of_reworks ((h.reworks_makeRoom hmake).mono (List.nil_subset _))
      rw [Project.prepare_of_ok hmake] at hprepare
      rw [← hroom hmake]
      cases prepared with
      | ok =>
        obtain ⟨rfl | hgone, -⟩ := hready.clear_spec hprepare
        · exact Or.inl rfl
        · exact Or.inr hgone
      | error e =>
        unfold Project.clear at hprepare
        split at hprepare
        · split at hprepare <;> cases hprepare
          exact Or.inl rfl
        · cases hprepare

namespace Project.Ready

variable {project : Project} {place : Path → Location} {s s' : FileStore}

/-- What is done behind a pass leaves objects as they are. -/
theorem find?_object {object : Path} (h : project.Ready place s)
    (hreworks : Reworks (project.outputs.map place)
      [place project.databasePath, place project.artifact] s s')
    (hobject : object ∈ project.objects) : s'.find? (place object) = s.find? (place object) := by
  obtain ⟨hartifact, hdatabase⟩ := h.place_object_ne hobject
  refine hreworks.find?_eq h.aside
    (List.mem_map_of_mem (mem_outputs_of_mem_objects hobject)) fun hmem ↦ ?_
  rcases List.mem_cons.1 hmem with heq | hmem
  · exact hdatabase heq
  · exact hartifact (List.mem_singleton.1 hmem)

/-- A pass leaves the artifact as it is. -/
theorem find?_artifact {deeds : List Deed} (h : project.Ready place s)
    (hreworks : Reworks (project.outputs.map place) (madePlaces place deeds) s s')
    (hobjects : ∀ deed ∈ deeds, deed.task.object ∈ project.objects) :
    s'.find? (place project.artifact) = s.find? (place project.artifact) := by
  refine hreworks.find?_eq h.aside (List.mem_map_of_mem project.artifact_mem_outputs) fun hmem ↦ ?_
  obtain ⟨deed, hdeed, heq⟩ := List.mem_map.1 hmem
  exact (h.place_object_ne (hobjects deed (List.mem_filter.1 hdeed).1)).1 heq

end Project.Ready

namespace Site

variable {site : Site} {tooling : Tooling} {s s' : FileStore} {file : ProjectFile} {l x : Location}

/-! ### Changing a file -/

/-- The store `s'` is `s` with a file at `l` that builds do not write. It is newer than all files that
were there. Folders on the way to it may have been made. -/
structure Edits (site : Site) (s : FileStore) (l : Location) (s' : FileStore) : Prop where
  /-- Builds do not write the file. -/
  unwritten : ¬site.Written l
  /-- Nothing else is changed. -/
  reworks : Reworks [l] [l] s s'
  /-- The file is newer than others. -/
  newer : ∃ time, s'.fileTime? l = some time ∧ ∀ m time', s.fileTime? m = some time' → time' < time

namespace Edits

/-- Other files are as they were. -/
theorem find?_eq (h : site.Edits s l s') (hne : x ≠ l) (hfile : s.HasFile x ∨ s'.HasFile x) :
    s'.find? x = s.find? x := by
  have hnot : x ∉ [l] := fun hmem ↦ hne (List.mem_singleton.1 hmem)
  rcases hfile with hfile | hfile
  · exact h.reworks.find?_eq_of_hasFile hfile hnot
  · exact h.reworks.find?_eq_of_comes hfile hnot

theorem latest (h : site.Edits s l s') : s'.Latest l := by
  obtain ⟨time, htime, hnewer⟩ := h.newer
  refine ⟨time, htime, fun m hne time' htime' ↦ hnewer m time' ?_⟩
  have hfile := fileTime?_isSome_iff.1 (Option.isSome_of_eq_some htime')
  rw [← htime', fileTime?, fileTime?, h.find?_eq hne (Or.inr hfile)]

theorem hasFile (h : site.Edits s l s') (hx : s.HasFile x) : s'.HasFile x := by
  by_cases hne : x = l
  · exact hne ▸ h.latest.hasFile
  · rwa [HasFile, kind?, h.find?_eq hne (Or.inl hx)]

/-- What is at a place to which builds write is as it was, if it is no folder. -/
theorem find?_written (h : site.Edits s l s') (hx : site.Written x) (hnot : ¬s'.HasFolder x) :
    s'.find? x = s.find? x := by
  rcases h.reworks.find x with hsame | ⟨htouched, -⟩ | ⟨-, -, his⟩
  · exact hsame
  · exact absurd (List.mem_singleton.1 htouched ▸ hx) h.unwritten
  · exact absurd his hnot

theorem advance (h : site.Edits s l s') (hfits : site.Fits s) (hfits' : site.Fits s') :
    site.Advance tooling s s' := by
  have hsources : (site.sources s).Sublist (site.sources s') :=
    sublist_sources h.reworks.keepsWays hfits.wellFormed hfits.distinct fun file hfile l' hlead ↦ by
      obtain ⟨l'', hlead', hl, -⟩ := hfits.exists_start hfile
      obtain rfl : l'' = l' := by simpa using hlead'.symm.trans hlead
      exact h.hasFile hl
  have houtput {p : Path} (hp : p ∈ (site.project s').outputs) :
      s'.find? (site.place p) = s.find? (site.place p) :=
    h.find?_written ⟨s', List.mem_map_of_mem hp⟩ (hfits'.ready.no_folder p hp)
  constructor
  case keeps => exact h.reworks.keepsWays
  case others =>
    intro x _ hfile
    by_cases hne : x = l
    · exact Or.inr ⟨hne ▸ h.unwritten, hne ▸ h.latest⟩
    · exact Or.inl (h.find?_eq hne hfile)
  case objects =>
    exact fun file hfile ↦ Or.inl (houtput (objectOf_mem (hsources.subset hfile)))
  case artifact => exact Or.inl (houtput (site.project s').artifact_mem_outputs)

/-- Creating or overwriting a file at a place of its own is a change of the file. -/
theorem of_createFile? {p : Path} {content : ByteArray} (hs : s.WellFormed) (hp : s.Placed p l)
    (hunwritten : ¬site.Written l) (h : s.createFile? p content = some s') : site.Edits s l s' := by
  have hroom : ∃ folder, p.parent? = some folder ∧ Reworks [l] [] s (s.createFolders folder).2 :=
    Reworks.of_createFolders hs hp (List.mem_singleton_self l)
  obtain ⟨folder, hparent, hroom⟩ := hroom
  have hfurnishes := Furnishes.createFolders s folder
  rw [createFile?, hparent, Option.map_some] at h
  cases hmake : s.createFolders folder with
  | mk result made =>
    rw [hmake] at h hroom hfurnishes
    cases result with
    | error => cases h
    | ok =>
      have hwrite : { made with clock := made.latestTime + 1 }.writeBytes p content = .ok s' := by
        cases hwrite : { made with clock := made.latestTime + 1 }.writeBytes p content with
        | error =>
          simp only [hwrite] at h
          cases h
        | ok written =>
          simp only [hwrite] at h
          exact congrArg _ (Option.some.inj h)
      obtain ⟨l', executable, time, hwrites, hfind, hnewer, -⟩ :=
        yields_of_writeBytes hwrite s'.clock
      have hplaced := hroom.placed hs hp
      obtain ⟨rfl, -⟩ := hplaced.eq_of_writes hroom.wellFormed hwrites
      have hwritten : Reworks [l'] [l'] made s' :=
        .of_writes hroom.wellFormed hplaced (List.mem_singleton_self l') hwrites
      refine ⟨hunwritten, hroom.trans hwritten ?_ (List.nil_subset _) (List.Subset.refl _), time,
        by rw [fileTime?, hfind], fun m time' htime' ↦ ?_⟩
      · intro x hx y hy
        rw [List.mem_singleton.1 hx, List.mem_singleton.1 hy]
        exact hp.not_mem_around_parent
      · exact hnewer m time' (timeAt?_of_fileTime? (hfurnishes.fileTime?_eq htime'))

end Edits

/-! ### Executors that follow a tooling -/

/-- What commands make is what the tooling says, of the files as they are in the store `s`; a command
that fails changes nothing. Objects, and an archive that is there, are read when the command runs. -/
structure Follows (site : Site) (tooling : Tooling) (s : FileStore) (executor : Executor) : Prop where
  /-- Objects are made of translation units. -/
  compiles : ∀ file ∈ site.sources s, ∀ t,
    ((executor (site.compileCommand file)).run t).1.success = true →
      t.Yields (site.objectOf file) (site.objectBytes tooling s file)
        ((executor (site.compileCommand file)).run t).2
  /-- The artifact is made of objects and libraries. -/
  finishes : ∀ t, ((executor (site.finishCommand (site.sources s))).run t).1.success = true →
    t.Yields (site.root.join site.config.artifactPath)
      (tooling.artifact (site.finishCommand (site.sources s))
        (if site.config.isLibrary then t.content? site.artifactPlace else none)
        ((site.sources s).map fun file ↦ t.content? (site.objectPlace file)) (site.libraries s))
      ((executor (site.finishCommand (site.sources s))).run t).2
  /-- Nothing is changed when a source cannot be compiled. -/
  spares : ∀ file ∈ site.sources s, executor.Spares (site.compileCommand file)
  /-- Nothing is changed when the artifact cannot be made. -/
  spares_finish : executor.Spares (site.finishCommand (site.sources s))

theorem Follows.careful {executor : Executor} (h : site.Follows tooling s executor) :
    (site.project s).Careful site.debug executor where
  makes file hfile t hsuccess := (h.compiles file hfile t hsuccess).makes
  finishes t hsuccess := (h.finishes t hsuccess).makes
  spares := h.spares
  spares_finish := h.spares_finish

/-- Every command makes what the tooling says, if it can and is not `refused`. -/
def executor (site : Site) (tooling : Tooling) (s : FileStore)
    (refused : CommandLine → Bool := fun _ ↦ false) : Executor := fun command t ↦
  match (made? t command).filter fun _ ↦ !refused command with
  | some t' => ({ success := true }, t')
  | none => ({ success := false }, t)
where
  /-- The bytes of what a command makes at a path. -/
  bytes (t : FileStore) (command : CommandLine) (p : Path) : ByteArray :=
    if p = site.root.join site.config.artifactPath then
      tooling.artifact command (if site.config.isLibrary then t.content? site.artifactPlace else none)
        ((site.sources s).map fun file ↦ t.content? (site.objectPlace file)) (site.libraries s)
    else ((site.sources s).find? (site.objectOf · = p)).elim .empty (site.objectBytes tooling s)
  /-- The files when a command has been run. -/
  made? (t : FileStore) (command : CommandLine) : Option FileStore :=
    match command.outputPath? with
    | none => none
    | some p =>
      match { t with clock := t.latestTime + 1 }.writeBytes p (bytes t command p) with
      | .ok written => some { written with clock := t.clock }
      | .error _ => none

theorem yields_of_made? {t t' : FileStore} {command : CommandLine} {p : Path}
    (hpath : command.outputPath? = some p) (h : executor.made? site tooling s t command = some t') :
    t.Yields p (executor.bytes site tooling s t command p) t' := by
  rw [executor.made?, hpath] at h
  dsimp only at h
  split at h <;> cases h
  exact yields_of_writeBytes ‹_› t.clock

theorem executor_cases (tooling : Tooling) (s : FileStore) (refused : CommandLine → Bool)
    (command : CommandLine) (t : FileStore) :
    (∃ t', executor.made? site tooling s t command = some t' ∧
      (site.executor tooling s refused command).run t = ({ success := true }, t')) ∨
    (site.executor tooling s refused command).run t = ({ success := false }, t) := by
  unfold executor
  cases hmade : (executor.made? site tooling s t command).filter fun _ ↦ !refused command with
  | none => exact Or.inr (by simp [StateT.run, hmade])
  | some t' =>
    refine Or.inl ⟨t', (Option.filter_eq_some_iff.1 hmade).1, ?_⟩
    simp [StateT.run, hmade]

/-- The bytes that are made at the path of an object are the right ones. -/
theorem Fits.bytes_object (h : site.Fits s) (hfile : file ∈ site.sources s) (t : FileStore) :
    executor.bytes site tooling s t (site.compileCommand file) (site.objectOf file) =
      site.objectBytes tooling s file := by
  have hne : site.objectOf file ≠ site.root.join site.config.artifactPath := fun heq ↦
    (h.ready.place_object_ne (objectOf_mem_objects hfile)).1 (congrArg site.place heq)
  have hfind : (site.sources s).find? (site.objectOf · = site.objectOf file) = some file := by
    cases hfound : (site.sources s).find? (site.objectOf · = site.objectOf file) with
    | none => exact absurd (List.find?_eq_none.1 hfound file hfile) (by simp)
    | some other =>
      have hobject : site.objectOf other = site.objectOf file := by
        simpa using List.find?_some hfound
      rw [List.inj_on_of_nodup_map h.ready.nodup_objects (List.mem_of_find?_eq_some hfound) hfile
        hobject]
  rw [executor.bytes, if_neg hne, hfind]
  rfl

/-- Such an executor follows the tooling. -/
theorem Fits.follows_executor (h : site.Fits s) (hcompiler : site.config.compiler ≠ Toolchain.archiver)
    (tooling : Tooling) (refused : CommandLine → Bool) :
    site.Follows tooling s (site.executor tooling s refused) := by
  have hspares (command : CommandLine) : (site.executor tooling s refused).Spares command := by
    intro t hfailed
    rcases executor_cases tooling s refused command t with ⟨t', -, hrun⟩ | hrun
    · rw [hrun] at hfailed
      cases hfailed
    · rw [hrun]
      exact ⟨rfl, fun _ ↦ rfl⟩
  have hyields {command : CommandLine} {p : Path} (hpath : command.outputPath? = some p)
      (t : FileStore) (hsuccess :
        ((site.executor tooling s refused command).run t).1.success = true) :
      t.Yields p (executor.bytes site tooling s t command p)
        ((site.executor tooling s refused command).run t).2 := by
    rcases executor_cases tooling s refused command t with ⟨t', hmade, hrun⟩ | hrun
    · rw [hrun]
      exact yields_of_made? hpath hmade
    · rw [hrun] at hsuccess
      cases hsuccess
  refine ⟨fun file hfile t hsuccess ↦ ?_, fun t hsuccess ↦ ?_, fun _ _ ↦ hspares _, hspares _⟩
  · rw [← h.bytes_object hfile t]
    exact hyields (Toolchain.outputPath?_compile hcompiler _ _) t hsuccess
  · have hmade := hyields (Toolchain.outputPath?_finish hcompiler _ _) t hsuccess
    rw [executor.bytes, if_pos rfl] at hmade
    exact hmade

/-! ### Passes -/

section Course

variable {executor : Executor} {options : BuildOptions} {deed : Deed} {deeds : List Deed}
variable {before after compiled : FileStore} {result : Except BuildError BuildSummary}
variable {finishing : List CommandLine}

/-- A deed that succeeds makes the right object, newer than all files that were there. -/
theorem Follows.of_executes (h : site.Follows tooling s executor)
    (hready : (site.project s).Ready site.place before) (hages : s.Ages before)
    (hexecutes : Executes executor before deed after) (hfile : file ∈ site.sources s)
    (htask : deed.task = (site.project s).task site.debug file)
    (hsucceeded : deed.done.succeeded = true) : site.Compiled tooling s after file := by
  have hobject := objectOf_mem_objects hfile
  cases hexecutes with
  | refused => cases hsucceeded
  | @ran task made _ outcome hmake hran =>
    obtain rfl : task = _ := htask
    have hsuccess : outcome.success = true := hsucceeded
    have hyields := h.compiles file hfile made
    rw [show (executor (site.compileCommand file)).run made = (outcome, after) from hran] at hyields
    obtain ⟨l, executable, time, hwrites, hfind, hnewer, -⟩ := hyields hsuccess
    have hmade := hready.of_reworks
      ((hready.reworks_makeFolder hobject hmake).mono (List.nil_subset _))
    obtain ⟨rfl, -⟩ := (hmade.placed (objectOf_mem hfile)).eq_of_writes hmade.wellFormed hwrites
    refine ⟨executable, time, hfind, fun m time' htime' ↦ ?_⟩
    obtain ⟨time'', htime'', hle⟩ :=
      (hages.trans (Task.furnishes_makeFolder hmake).ages).later m time' htime'
    exact hle.trans_lt (hnewer m time'' (timeAt?_of_fileTime? htime''))

/-- The deed whose object lies where that of a source lies is the one for that source. -/
theorem Fits.task_eq_of_place_eq (hfits : site.Fits s) (hdebug : options.debug = site.debug)
    (hcourse : (site.project s).Course options executor s deeds compiled result s' finishing)
    (hfile : file ∈ site.sources s) {deed : Deed} (hdeed : deed ∈ deeds)
    (heq : site.place deed.task.object = site.objectPlace file) :
    deed.task = (site.project s).task site.debug file := by
  obtain ⟨other, hother, -, htask⟩ := hcourse.exists_source hdeed
  rw [hdebug] at htask
  rw [htask] at heq ⊢
  rw [hfits.eq_of_objectPlace_eq hother hfile heq]

/-- Behind a pass, the object of a deed that has succeeded is right. -/
theorem Follows.compiled_of_succeeded (h : site.Follows tooling s executor) (hfits : site.Fits s)
    (hdebug : options.debug = site.debug)
    (hcourse : (site.project s).Course options executor s deeds compiled result s' finishing)
    (hfile : file ∈ site.sources s) {deed : Deed} (hdeed : deed ∈ deeds)
    (htask : deed.task = (site.project s).task site.debug file)
    (hsucceeded : deed.done.succeeded = true) : site.Compiled tooling s compiled file := by
  have hready := hfits.ready
  have hcareful : (site.project s).Careful options.debug executor := hdebug ▸ h.careful
  have hplace : ∀ deed ∈ deeds, site.place deed.task.object = site.objectPlace file →
      deed.task = (site.project s).task site.debug file := fun _ ↦
    hfits.task_eq_of_place_eq hdebug hcourse hfile
  have hobjects : ∀ deed ∈ deeds, deed.task.object ∈ (site.project s).objects :=
    fun _ ↦ hcourse.object_mem
  have hmakes := hcareful.makes_deeds hcourse
  have hspares := hcareful.spares_deeds hcourse
  have hdistinct := hready.nodup_deeds hcourse
  -- the store is followed up to the deed, through it, and through the deeds behind it
  obtain ⟨first, rest, mid, mid', rfl, hfirst, hexecutes, hrest⟩ :=
    hcourse.executes.exists_split hdeed
  rw [List.forall_mem_append, List.forall_mem_cons] at hobjects hmakes hspares hplace
  rw [List.map_append, List.map_cons] at hdistinct
  have hmid := hready.of_reworks ((hready.reworks_executesAll hfirst hobjects.1 hmakes.1
    hspares.1).mono (Project.madePlaces_subset hobjects.1))
  have hcompiled := h.of_executes hmid (hfirst.ages hmakes.1 fun deed hdeed _ ↦
    hspares.1 deed hdeed) hexecutes hfile htask hsucceeded
  have hmid' := hmid.of_reworks ((hmid.reworks_executes hexecutes hobjects.2.1 hmakes.2.1
    hspares.2.1).mono (Project.madePlaces_subset (by simpa using hobjects.2.1)))
  have hreworks := hmid'.reworks_executesAll hrest hobjects.2.2 hmakes.2.2 hspares.2.2
  have hnot : site.objectPlace file ∉ Project.madePlaces site.place rest := by
    intro hmade
    obtain ⟨other, hother, heq⟩ := List.mem_map.1 hmade
    have hother := (List.mem_filter.1 hother).1
    have hsame := congrArg Task.object ((hplace.2.2 other hother heq).trans htask.symm)
    exact (List.nodup_cons.1 (List.nodup_append.1 hdistinct).2.1).1
      (hsame ▸ List.mem_map_of_mem hother)
  obtain ⟨executable, time, hfind, hnewer⟩ := hcompiled
  refine ⟨executable, time, ?_, hnewer⟩
  rw [hreworks.find?_eq hready.aside (objectPlace_mem hfile) hnot, hfind]

/-- Behind a pass, the objects of the deeds that have succeeded are right, and the other objects are as
they were. -/
theorem Follows.objects_compiled (h : site.Follows tooling s executor) (hfits : site.Fits s)
    (hdebug : options.debug = site.debug)
    (hcourse : (site.project s).Course options executor s deeds compiled result s' finishing)
    (hfile : file ∈ site.sources s) :
    (compiled.find? (site.objectPlace file) = s.find? (site.objectPlace file) ∧
      ∀ deed ∈ deeds, deed.task = (site.project s).task site.debug file →
        deed.done.succeeded = false) ∨
    site.Compiled tooling s compiled file := by
  by_cases hdone : ∃ deed ∈ deeds, deed.task = (site.project s).task site.debug file ∧
      deed.done.succeeded = true
  · obtain ⟨deed, hdeed, htask, hsucceeded⟩ := hdone
    exact Or.inr (h.compiled_of_succeeded hfits hdebug hcourse hfile hdeed htask hsucceeded)
  · have hfailed : ∀ deed ∈ deeds, deed.task = (site.project s).task site.debug file →
        deed.done.succeeded = false := fun deed hdeed htask ↦
      Bool.eq_false_iff.2 fun hsucceeded ↦ hdone ⟨deed, hdeed, htask, hsucceeded⟩
    obtain ⟨hcompiled, -⟩ := hfits.ready.reworks_compiled hcourse (hdebug ▸ h.careful)
    refine Or.inl ⟨hcompiled.find?_eq hfits.ready.aside (objectPlace_mem hfile) fun hmade ↦ ?_,
      hfailed⟩
    obtain ⟨deed, hdeed, heq⟩ := List.mem_map.1 hmade
    obtain ⟨hdeed, hsucceeded⟩ := List.mem_filter.1 hdeed
    rw [hfailed deed hdeed (hfits.task_eq_of_place_eq hdebug hcourse hfile hdeed heq)] at hsucceeded
    cases hsucceeded

/-! ### What is done behind a pass -/

/-- What the command for the artifact makes in a prepared store is the right artifact. -/
theorem Follows.content?_finish (h : site.Follows tooling s executor) {made : FileStore}
    {outcome : Outcome} (hready : (site.project s).Ready site.place made)
    (hlibrary : site.config.isLibrary = true → made.find? site.artifactPlace = none)
    (hran : (executor (site.finishCommand (site.sources s))).run made = (outcome, s'))
    (hsucceeded : outcome.success = true) :
    s'.content? site.artifactPlace = some (site.artifactBytes tooling s s') := by
  have hyields := h.finishes made (by rw [hran, hsucceeded])
  rw [hran] at hyields
  obtain ⟨l, executable, time, hwrites, hfind, -⟩ := hyields
  have hplaced := hready.placed (site.project s).artifact_mem_outputs
  obtain ⟨rfl, -⟩ := hplaced.eq_of_writes hready.wellFormed hwrites
  have harchive : (if site.config.isLibrary then made.content? site.artifactPlace else none) =
      none := by
    split
    · rw [content?, hlibrary ‹_›]
    · rfl
  have hobjects : (site.sources s).map (fun file ↦ made.content? (site.objectPlace file)) =
      (site.sources s).map fun file ↦ s'.content? (site.objectPlace file) := by
    refine List.map_congr_left fun file hfile ↦ ?_
    have hne := (hready.place_object_ne (objectOf_mem_objects hfile)).1
    exact content?_congr
      (find?_eq_of_kept (hwrites.kept _ hne) (hready.no_folder _ (objectOf_mem hfile))).symm
  rw [artifactBytes, ← hobjects, ← harchive]
  exact content?_eq_some_iff.2 ⟨executable, time, hfind⟩

/-- The artifact behind a build: it is as it was, and not due if the build has succeeded; or it is not
there, and the build has failed; or it is right. -/
theorem Follows.artifact_concludes (h : site.Follows tooling s executor) {tasks : List Task}
    (hready : (site.project s).Ready site.place compiled) (hdebug : options.debug = site.debug)
    (hconcludes : (site.project s).Concludes options executor tasks
      (Report.ofCompletions (deeds.map Deed.done)) compiled result s' finishing) :
    (s'.find? site.artifactPlace = compiled.find? site.artifactPlace ∧
      ∀ summary, result = .ok summary → ¬(site.project s).LinkDue false s' []) ∨
    (s'.find? site.artifactPlace = none ∧ ∀ summary, result ≠ .ok summary) ∨
    s'.content? site.artifactPlace = some (site.artifactBytes tooling s s') := by
  have hdatabase := hready.reworks_withDatabase tasks options.debug
  set written := (site.project s).withDatabase options.debug tasks compiled
  have hwritten := hready.of_reworks (hdatabase.mono (List.cons_subset.2
    ⟨List.mem_map_of_mem (site.project s).databasePath_mem_outputs, List.nil_subset _⟩))
  have hsame : written.find? site.artifactPlace = compiled.find? site.artifactPlace := by
    refine hdatabase.find?_eq hready.aside (site.artifactPlace_mem s) fun hmem ↦ ?_
    have hdistinct := hready.apart.distinct
    rw [Project.outputs, List.map_cons, List.nodup_cons, List.map_cons] at hdistinct
    exact hdistinct.1 (List.mem_cons.2 (Or.inl (List.mem_singleton.1 hmem)))
  cases hconcludes with
  | failed => exact Or.inl ⟨rfl, fun summary hok ↦ by cases hok⟩
  | fresh _ hneeds =>
    refine Or.inl ⟨hsame, fun summary _ hdue ↦ ?_⟩
    rw [Project.needsLinking_iff.2 (hdue.of_nil options.forceLinking _)] at hneeds
    cases hneeds
  | linked _ _ hlinks =>
    cases hlinks with
    | unprepared hprepare =>
      rcases hwritten.find?_prepare hprepare with hkept | hgone
      · exact Or.inl ⟨hkept.trans hsame, fun summary hok ↦ by cases hok⟩
      · exact Or.inr (Or.inl ⟨hgone, fun summary hok ↦ by cases hok⟩)
    | @failed made _ _ hprepare hran hfailed =>
      have hspared := h.careful.spares_finish made
      rw [← hdebug, hran] at hspared
      have hunchanged := (hspared hfailed).find site.artifactPlace
      rcases hwritten.find?_prepare hprepare with hkept | hgone
      · exact Or.inl ⟨hunchanged.trans (hkept.trans hsame), fun summary hok ↦ by cases hok⟩
      · exact Or.inr (Or.inl ⟨hunchanged.trans hgone, fun summary hok ↦ by cases hok⟩)
    | made hprepare hran hsucceeded =>
      have hsub : [site.place (site.project s).artifact] ⊆ (site.project s).outputs.map site.place :=
        List.cons_subset.2 ⟨site.artifactPlace_mem s, List.nil_subset _⟩
      have hprepared := hwritten.of_reworks ((hwritten.reworks_prepare hprepare).mono hsub)
      obtain ⟨-, -, hlibrary⟩ := hwritten.prepare_spec hprepare
      rw [hdebug] at hran
      exact Or.inr (Or.inr (h.content?_finish hprepared hlibrary hran hsucceeded))

/-- A build is an advance. -/
theorem Follows.advance (h : site.Follows tooling s executor) (hfits : site.Fits s)
    (hdebug : options.debug = site.debug)
    (hcourse : (site.project s).Course options executor s deeds compiled result s' finishing) :
    site.Advance tooling s s' := by
  have hready := hfits.ready
  have hcareful : (site.project s).Careful options.debug executor := hdebug ▸ h.careful
  obtain ⟨hpass, hmade⟩ := hready.reworks_compiled hcourse hcareful
  have hcompiled := hready.of_reworks (hpass.mono hmade)
  have hreworks := hready.reworks_course hcourse hcareful
  have hconcludes := hcompiled.reworks_concludes hcourse.concludes hcareful
  constructor
  case keeps => exact hreworks.keepsWays
  case others =>
    rintro l hnot (hfile | hfile)
    · exact Or.inl (hreworks.find?_eq_of_hasFile hfile hnot)
    · exact Or.inl (hreworks.find?_eq_of_comes hfile hnot)
  case objects =>
    intro file hfile
    have hsame := hcompiled.find?_object hconcludes (objectOf_mem_objects hfile)
    rcases h.objects_compiled hfits hdebug hcourse hfile with ⟨hkept, -⟩ | ⟨_, _, hfind, hnewer⟩
    · exact Or.inl (hsame.trans hkept)
    · exact Or.inr ⟨_, _, hsame.trans hfind, hnewer⟩
  case artifact =>
    rcases h.artifact_concludes hcompiled hdebug hcourse.concludes with
      ⟨hsame, -⟩ | ⟨hgone, -⟩ | hright
    · exact Or.inl (hsame.trans (hready.find?_artifact hpass fun _ ↦ hcourse.object_mem))
    · refine Or.inr (Or.inl fun hfile ↦ ?_)
      rw [HasFile, kind?_eq_none_iff.2 hgone] at hfile
      cases hfile
    · exact Or.inr (Or.inr hright)

end Course

end Site

end Rebuild
