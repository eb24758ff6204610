import Rebuild.Proofs.FileStore.Writing
import Rebuild.Proofs.Project.Course

/-!
# What the steps of a build leave behind

An executor *makes* what a command is for if each success of the command leaves a new file where the
path leads to, and it *spares* the files if a failure leaves them alone. Nothing else is known about
what commands do. As long as every command of a pass makes its object or spares the files, the pass
keeps what was there, and no file becomes older.
-/

namespace Rebuild

open FileStore

/-- Every success of the command leaves a file at the end of the path that is not older than anything
else. -/
def Executor.Makes (executor : Executor) (command : CommandLine) (p : Path) : Prop :=
  ∀ s, ((executor command).run s).1.success = true → s.Makes p ((executor command).run s).2

/-- A failure of the command changes nothing. -/
def Executor.Spares (executor : Executor) (command : CommandLine) : Prop :=
  ∀ s, ((executor command).run s).1.success = false → s.Unchanged ((executor command).run s).2

variable {executor : Executor} {s s' : FileStore} {deed : Deed} {deeds : List Deed}

/-! ### An executor that makes and spares -/

/-- Where a command is told to leave what it makes. -/
def CommandLine.outputPath? (command : CommandLine) : Option Path :=
  if command.program = Toolchain.archiver then command.args[1]?.map Path.mk
  else (command.args.dropWhile (· ≠ "-o"))[1]?.map Path.mk

/-- The files when a command has left an empty file, with the latest time there is, where it is told
to. -/
def CommandLine.stamp? (command : CommandLine) (s : FileStore) : Option FileStore :=
  match command.outputPath? with
  | none => none
  | some p =>
    match { s with clock := s.latestTime }.writeBytes p .empty with
    | .ok written => some { written with clock := s.clock }
    | .error _ => none

/-- Every command leaves an empty file, if it can and is not `refused`. -/
def Executor.stamping (refused : CommandLine → Bool := fun _ ↦ false) : Executor := fun command s ↦
  match (command.stamp? s).filter fun _ ↦ !refused command with
  | some s' => ({ success := true }, s')
  | none => ({ success := false }, s)

namespace Executor

variable {refused : CommandLine → Bool} {command : CommandLine} {p : Path}

theorem stamping_cases (refused : CommandLine → Bool) (command : CommandLine) (s : FileStore) :
    (∃ s', command.stamp? s = some s' ∧
      (stamping refused command).run s = ({ success := true }, s')) ∨
      (stamping refused command).run s = ({ success := false }, s) := by
  unfold stamping
  cases hstamped : (command.stamp? s).filter fun _ ↦ !refused command with
  | none => exact Or.inr (by simp [StateT.run, hstamped])
  | some s' =>
    refine Or.inl ⟨s', (Option.filter_eq_some_iff.1 hstamped).1, ?_⟩
    simp [StateT.run, hstamped]

theorem makes_stamping (h : command.outputPath? = some p) :
    (stamping refused).Makes command p := by
  intro s hsuccess
  rcases stamping_cases refused command s with ⟨s', hstamp, hrun⟩ | hrun
  · rw [hrun]
    rw [CommandLine.stamp?, h] at hstamp
    dsimp only at hstamp
    split at hstamp <;> cases hstamp
    exact makes_of_writeBytes (fun x time ↦ timeAt?_le_latestTime) ‹_› s.clock
  · rw [hrun] at hsuccess
    cases hsuccess

theorem spares_stamping (refused : CommandLine → Bool) (command : CommandLine) :
    (stamping refused).Spares command := by
  intro s hfailure
  rcases stamping_cases refused command s with ⟨s', -, hrun⟩ | hrun
  · rw [hrun] at hfailure
    cases hfailure
  · rw [hrun]
    exact ⟨rfl, fun _ ↦ rfl⟩

end Executor

namespace Toolchain

variable {tools : Toolchain}

theorem standardFlag_ne (tools : Toolchain) : tools.standardFlag ≠ "-o" := by
  intro h
  have h := congrArg String.toList h
  rw [standardFlag, String.toList_append] at h
  simp at h

theorem outputPath?_compile (hcompiler : tools.config.compiler ≠ archiver) (source object : Path) :
    (tools.compile source object).outputPath? = some object := by
  have hdriver : (tools.compile source object).program ≠ archiver := by
    show (tools.driverFor source).1 ≠ archiver
    rw [driverFor]
    split
    · decide
    · exact hcompiler
  rw [CommandLine.outputPath?, if_neg hdriver]
  have hstandard := tools.standardFlag_ne
  cases hdebug : tools.debug <;> cases hwith : (tools.driverFor source).2 <;>
    simp [compile, debugFlags, hdebug, hwith, hstandard, List.dropWhile]

theorem outputPath?_finish (hcompiler : tools.config.compiler ≠ archiver) (objects : List Path)
    (artifact : Path) : (tools.finish objects artifact).outputPath? = some artifact := by
  rw [finish]
  split
  · rfl
  · have hstandard := tools.standardFlag_ne
    rw [CommandLine.outputPath?, link, if_neg hcompiler]
    cases hdebug : tools.debug <;> simp [debugFlags, hdebug, hstandard, List.dropWhile]

end Toolchain

/-! ### Tasks -/

theorem Task.furnishes_makeFolder {task : Task} {result : Except FileError Unit} {made : FileStore}
    (h : task.makeFolder s = (result, made)) : s.Furnishes made := by
  rw [Task.makeFolder] at h
  split at h
  · have hmade := Furnishes.createFolders s ‹Path›
    rwa [h] at hmade
  · cases h
    exact .refl s

theorem Executes.ages (h : Executes executor s deed s')
    (hmakes : executor.Makes deed.task.command deed.task.object)
    (hspares : deed.done.succeeded = false → executor.Spares deed.task.command) : s.Ages s' := by
  cases h with
  | refused hmake => exact (Task.furnishes_makeFolder hmake).ages
  | @ran task made after outcome hmake hran =>
    refine (Task.furnishes_makeFolder hmake).ages.trans ?_
    cases hsuccess : outcome.success with
    | true =>
      have hmade := hmakes made (by rw [hran, hsuccess])
      rw [hran] at hmade
      exact hmade.ages
    | false =>
      have hspared := hspares hsuccess made (by rw [hran, hsuccess])
      rw [hran] at hspared
      exact hspared.furnishes.ages

/-- A task that has succeeded leaves its object as the newest file. -/
theorem Executes.exists_newest (h : Executes executor s deed s')
    (hmakes : executor.Makes deed.task.command deed.task.object)
    (hsucceeded : deed.done.succeeded = true) :
    ∃ l time, s'.FindsFile deed.task.object l time ∧ s'.Newest l time := by
  cases h with
  | refused => cases hsucceeded
  | @ran task made after outcome hmake hran =>
    have hmade := hmakes made (by rw [hran]; exact hsucceeded)
    rw [hran] at hmade
    obtain ⟨l, time, hwrites, hnewest, -⟩ := hmade
    exact ⟨l, time, ⟨hwrites.resolve_eq, hnewest.file⟩, hnewest⟩

theorem ExecutesAll.ages (h : ExecutesAll executor s deeds s')
    (hmakes : ∀ deed ∈ deeds, executor.Makes deed.task.command deed.task.object)
    (hspares : ∀ deed ∈ deeds, deed.done.succeeded = false → executor.Spares deed.task.command) :
    s.Ages s' := by
  induction h with
  | nil => exact .refl _
  | cons hfirst hrest ih =>
    rw [List.forall_mem_cons] at hmakes hspares
    exact (hfirst.ages hmakes.1 hspares.1).trans (ih hmakes.2 hspares.2)

/-- Some deeds come before a deed, and the others behind it. -/
theorem ExecutesAll.exists_split (h : ExecutesAll executor s deeds s') (hdeed : deed ∈ deeds) :
    ∃ first rest before after, deeds = first ++ deed :: rest ∧
      ExecutesAll executor s first before ∧ Executes executor before deed after ∧
        ExecutesAll executor after rest s' := by
  induction h with
  | nil => cases hdeed
  | @cons s _ _ other others hfirst hrest ih =>
    rcases List.mem_cons.1 hdeed with rfl | hdeed
    · exact ⟨[], others, s, _, rfl, .nil, hfirst, hrest⟩
    · obtain ⟨first, rest, before, after, rfl, hbefore, hexecutes, hafter⟩ := ih hdeed
      exact ⟨other :: first, rest, before, after, rfl, .cons hfirst hbefore, hexecutes, hafter⟩

/-- The time that is recorded of an object is that of the file. -/
theorem Executes.findsFile_of_objectTime {time : Time} (h : Executes executor s deed s')
    (hmakes : executor.Makes deed.task.command deed.task.object)
    (hsucceeded : deed.done.succeeded = true) (htime : deed.done.objectTime = some time) :
    ∃ l, s'.FindsFile deed.task.object l time := by
  obtain ⟨l, time', hfinds, -⟩ := h.exists_newest hmakes hsucceeded
  have hmodified := hfinds.modified?_eq
  cases h with
  | refused => cases hsucceeded
  | @ran task made _ outcome hmake hran =>
    have hsuccess : outcome.success = true := hsucceeded
    have hrecorded : s'.modified? task.object = some time := by
      rw [← htime, Task.completed, if_pos hsuccess]
    obtain rfl : time' = time := Option.some.inj (hmodified.symm.trans hrecorded)
    exact ⟨l, hfinds⟩

/-- No object is older behind a pass than has been recorded of it. -/
theorem ExecutesAll.exists_le_of_mem_objectTimes {time : Time} (h : ExecutesAll executor s deeds s')
    (hmakes : ∀ deed ∈ deeds, executor.Makes deed.task.command deed.task.object)
    (hspares : ∀ deed ∈ deeds, deed.done.succeeded = false → executor.Spares deed.task.command)
    (htime : time ∈ Report.objectTimes (deeds.map Deed.done)) :
    ∃ deed ∈ deeds, ∃ l time', s'.FindsFile deed.task.object l time' ∧ time ≤ time' := by
  obtain ⟨done, hdone, hrecorded⟩ := List.mem_filterMap.1 htime
  obtain ⟨hdone, hsucceeded⟩ := List.mem_filter.1 hdone
  obtain ⟨deed, hdeed, rfl⟩ := List.mem_map.1 hdone
  obtain ⟨first, rest, before, after, rfl, -, hexecutes, hrest⟩ := h.exists_split hdeed
  obtain ⟨l, hfinds⟩ := hexecutes.findsFile_of_objectTime (hmakes deed hdeed) hsucceeded hrecorded
  have hages := hrest.ages
    (fun other hother ↦ hmakes other (List.mem_append_right _ (List.mem_cons_of_mem _ hother)))
    (fun other hother ↦ hspares other (List.mem_append_right _ (List.mem_cons_of_mem _ hother)))
  obtain ⟨time', hfinds', hle⟩ := hfinds.of_ages hages
  exact ⟨deed, hdeed, l, time', hfinds', hle⟩

/-! ### The compile database -/

namespace Project

variable {project : Project} {options : BuildOptions}

/-- An executor that makes the outputs of a project when it succeeds, and changes nothing when it
fails. -/
structure Careful (project : Project) (debug : Bool) (executor : Executor) : Prop where
  /-- Objects are made. -/
  makes : ∀ file ∈ project.sources,
    executor.Makes (project.compileCommand debug file) (project.objectOf file)
  /-- The artifact is made. -/
  finishes : executor.Makes (project.finishCommand debug) project.artifact
  /-- Nothing is changed when a source cannot be compiled. -/
  spares : ∀ file ∈ project.sources, executor.Spares (project.compileCommand debug file)
  /-- Nothing is changed when the artifact cannot be made. -/
  spares_finish : executor.Spares (project.finishCommand debug)

theorem careful_stamping (hcompiler : project.config.compiler ≠ Toolchain.archiver) (debug : Bool)
    (refused : CommandLine → Bool) : project.Careful debug (.stamping refused) where
  makes _ _ := Executor.makes_stamping (Toolchain.outputPath?_compile hcompiler _ _)
  finishes := Executor.makes_stamping (Toolchain.outputPath?_finish hcompiler _ _)
  spares _ _ := Executor.spares_stamping refused _
  spares_finish := Executor.spares_stamping refused _

theorem withDatabase_cases (debug : Bool) (tasks : List Task) (s : FileStore) :
    project.withDatabase debug tasks s = s ∨
      ∃ l, s.Writes project.databasePath l (project.withDatabase debug tasks s) := by
  rw [withDatabase]
  split
  · exact Or.inl rfl
  · cases hwrite : project.writeDatabase s debug with
    | error e => exact Or.inl rfl
    | ok written => exact Or.inr (exists_writes hwrite)

/-! ### The artifact -/

theorem furnishes_makeRoom {result : Except BuildError Unit} {made : FileStore}
    (h : project.makeRoom s = (result, made)) : s.Furnishes made := by
  unfold makeRoom at h
  split at h
  · cases h
    exact .refl s
  · rename_i folder _
    have hmade := Furnishes.createFolders s folder
    split at h <;> rename_i hcreate <;> cases h <;> rwa [hcreate] at hmade

/-- Room for the artifact: folders have been made, and a library that was there has been removed. -/
theorem exists_of_prepare {made : FileStore} (h : project.prepare s = (.ok (), made)) :
    ∃ room, s.Furnishes room ∧ (made = room ∨
      project.config.isLibrary = true ∧ ∃ l e, room.locate false project.artifact = .ok (l, e) ∧
        e.isFolder = false ∧ room.Loses l made) := by
  cases hroom : project.makeRoom s with
  | mk result room =>
    refine ⟨room, furnishes_makeRoom hroom, ?_⟩
    cases result with
    | error e =>
      rw [prepare_of_error hroom] at h
      cases h
    | ok =>
      rw [prepare_of_ok hroom, clear] at h
      split at h
      · rename_i hlibrary
        rw [Bool.and_eq_true] at hlibrary
        split at h <;> cases h
        exact Or.inr ⟨hlibrary.1, exists_loses ‹_›⟩
      · cases h
        exact Or.inl rfl

/-- The artifact has been made anew: nothing is newer, and nothing else has been lost. -/
structure Renewed (project : Project) (s : FileStore) (l : Location) (time : Time) (s' : FileStore) :
    Prop where
  /-- All kinds are kept. -/
  keeps : s.Keeps s'
  /-- The artifact is there. -/
  finds : s'.FindsFile project.artifact l time
  /-- Nothing is newer. -/
  newest : s'.Newest l time
  /-- Other files are not changed. -/
  other : ∀ x, x ≠ l → ∀ time', s.fileTime? x = some time' → s'.fileTime? x = some time'

/-- What making the artifact has done when it succeeds, if it has removed no link. -/
theorem Links.exists_renewed {commands : List CommandLine}
    (h : project.Links options executor s (.ok ()) s' commands)
    (hmakes : executor.Makes (project.finishCommand options.debug) project.artifact)
    (hlinks : project.config.isLibrary = true →
      ∀ l target, s.find? l = some (.link target) → s'.find? l = some (.link target)) :
    ∃ l time, project.Renewed s l time s' := by
  cases h with
  | @made made after outcome hprepare hran hsuccess =>
    have hmade := hmakes made (by rw [hran, hsuccess])
    rw [hran] at hmade
    obtain ⟨l, time, hwrites, hnewest, -⟩ := hmade
    have hfinds : s'.FindsFile project.artifact l time := ⟨hwrites.resolve_eq, hnewest.file⟩
    obtain ⟨room, hroom, rfl | ⟨hlibrary, l', e, hlocate, hfolder, hloses⟩⟩ :=
      exists_of_prepare hprepare
    · exact ⟨l, time, hroom.keeps.trans hwrites.keeps, hfinds, hnewest, fun x hx time' htime' ↦
        (hwrites.fileTime?_eq hx).trans (hroom.fileTime?_eq htime')⟩
    · -- what has been removed was a file, since a link would not have come back
      have hfind := (find?_of_locate hlocate).2
      have hlink (target : String) : e ≠ .link target := by
        rintro rfl
        have hcome := hwrites.no_link (hlinks hlibrary l' target (hroom.no_link hfind))
        rw [hloses.gone] at hcome
        cases hcome
      have hfile : room.HasFile l' := by
        rw [HasFile, kind?, hfind]
        cases e with
        | file => rfl
        | folder => cases hfolder
        | link target => exact absurd rfl (hlink target)
      obtain rfl := hloses.eq_of_writes hfile (resolve_of_locate_false hlocate hlink) hwrites
      have hkeeps := hloses.keeps_of_writes hfile hwrites
      exact ⟨l, time, hroom.keeps.trans hkeeps, hfinds, hnewest, fun x hx time' htime' ↦ by
        rw [hwrites.fileTime?_eq hx, hloses.fileTime?_eq hx, hroom.fileTime?_eq htime']⟩

end Project

end Rebuild
