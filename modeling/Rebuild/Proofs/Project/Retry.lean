import Mathlib.Logic.Relation
import Rebuild.Proofs.Project.Independence
import Rebuild.Proofs.Project.Ready

/-!
# Building again after a failure

When some sources could not be compiled, these and no others are compiled by the next build: what has
been compiled is newer than what it depends on, and what has not is as old as before. When the
artifact could not be made, nothing is compiled by the next build, and the artifact is made again:
either it is not there, or it is older still than what it is made of. A project stays ready whatever
builds do, so this holds behind any number of builds.
-/

namespace Rebuild

open FileStore

variable {place : Path → Location} {s s' before after compiled : FileStore} {executor : Executor}
variable {deed : Deed} {deeds : List Deed}

namespace Project

variable {project : Project} {options : BuildOptions} {result : Except BuildError BuildSummary}
variable {finishing : List CommandLine} {file : ProjectFile}

/-! ### What is stale behind a pass -/

namespace Ready

/-- A source is found again when the outputs have been reworked. -/
theorem key?_eq (h : project.Ready place s)
    (hreworks : Reworks (project.outputs.map place) (project.outputs.map place) s s')
    (hfile : file ∈ project.sources) :
    Include.Graph.key? s' file.path = Include.Graph.key? s file.path := by
  obtain ⟨l, hlead, hwas, hnot⟩ := h.sources file hfile
  have hsame := hreworks.find?_eq_of_hasFile hwas hnot
  have hl := isSome_of_hasFile hwas
  refine Include.Graph.key?_eq_of_lead hlead hl (hreworks.keepsWays.lead_eq ?_ hlead) (hsame ▸ hl)
  rw [kind?, kind?, hsame]

/-- Different deeds of a build are done for different objects. -/
theorem nodup_deeds (h : project.Ready place s)
    (hcourse : project.Course options executor s deeds compiled result s' finishing) :
    (deeds.map (·.task.object)).Nodup := by
  have hperm : (deeds.map (·.task.object)).Perm
      ((project.plan s options.fullRebuild options.debug).map Task.object) := by
    have := hcourse.tasks.map Task.object
    rwa [List.map_map] at this
  refine hperm.nodup_iff.2 (h.nodup_objects.sublist ?_)
  rw [plan, List.map_map]
  exact List.filter_sublist.map _

/-- An object that no deed has made has the time that it had. -/
theorem modified?_eq_of_failed (h : project.Ready place s)
    (hcourse : project.Course options executor s deeds compiled result s' finishing)
    (hcareful : project.Careful options.debug executor) (hdeed : deed ∈ deeds)
    (hfailed : deed.done.succeeded = false) :
    compiled.modified? deed.task.object = s.modified? deed.task.object := by
  obtain ⟨hcompiled, -⟩ := h.reworks_compiled hcourse hcareful
  have hobject {other : Deed} (hother : other ∈ deeds) : other.task.object ∈ project.outputs := by
    obtain ⟨file, hfile, -, htask⟩ := hcourse.exists_source hother
    rw [htask]
    exact mem_outputs_of_mem_objects (List.mem_map_of_mem hfile)
  have hnot : place deed.task.object ∉ madePlaces place deeds := by
    intro hmade
    obtain ⟨other, hother, hplace⟩ := List.mem_map.1 hmade
    obtain ⟨hother, hsucceeded⟩ := List.mem_filter.1 hother
    have heq := h.eq_of_place_eq (hobject hother) (hobject hdeed) hplace
    have hsame := List.inj_on_of_nodup_map (h.nodup_deeds hcourse) hother hdeed heq
    rw [hsame, hfailed] at hsucceeded
    cases hsucceeded
  have hplaced := h.placed (hobject hdeed)
  rw [(hcompiled.placed h.wellFormed hplaced).modified?_eq_timeAt? hcompiled.wellFormed,
    hplaced.modified?_eq_timeAt? h.wellFormed, timeAt?, timeAt?,
    hcompiled.find?_eq h.aside (List.mem_map_of_mem (hobject hdeed)) hnot]

/-- An object that is new enough behind a pass keeps its source from being stale. -/
theorem not_isStale_compiled (h : project.Ready place s)
    (hcourse : project.Course options executor s deeds compiled result s' finishing)
    (hcareful : project.Careful options.debug executor) (hfile : file ∈ project.sources)
    (hobject : project.HasObject s compiled file) : project.isStale compiled false file = false := by
  obtain ⟨hcompiled, hsub⟩ := h.reworks_compiled hcourse hcareful
  have hreworks := hcompiled.mono hsub
  exact hobject.not_isStale (h.orderly hreworks).nodes (h.key?_eq hreworks hfile)

/-- What is stale behind a pass was stale before it, and has failed in it. -/
theorem isStale_compiled_iff (h : project.Ready place s)
    (hcourse : project.Course options executor s deeds compiled result s' finishing)
    (hcareful : project.Careful options.debug executor) (hfile : file ∈ project.sources) :
    project.isStale compiled false file = true ↔ project.isStale s false file = true ∧
      ∀ deed ∈ deeds, deed.task = project.task options.debug file → deed.done.succeeded = false := by
  obtain ⟨hcompiled, hsub⟩ := h.reworks_compiled hcourse hcareful
  have hreworks := hcompiled.mono hsub
  have hmakes := hcareful.makes_deeds hcourse
  have hspares := hcareful.spares_deeds hcourse
  have hnodes := (h.orderly hreworks).nodes
  have hages : s.Ages compiled :=
    hcourse.executes.ages hmakes fun deed hdeed _ ↦ hspares deed hdeed
  constructor
  · intro hstale
    have hnot : ¬project.HasObject s compiled file := fun hobject ↦ by
      rw [h.not_isStale_compiled hcourse hcareful hfile hobject] at hstale
      cases hstale
    constructor
    · by_contra hfresh
      refine hnot ((HasObject.of_not_isStale (Bool.eq_false_iff.2 hfresh) ?_).of_ages hages)
      exact (h.orderly hreworks).objects _ (List.mem_map_of_mem hfile)
    · intro deed hdeed htask
      by_contra hsucceeded
      exact hnot (.of_executesAll hcourse.executes hmakes (fun deed hdeed _ ↦ hspares deed hdeed)
        hnodes hdeed (congrArg Task.object htask) (Bool.eq_true_of_not_eq_false hsucceeded))
  · rintro ⟨hstale, hfailed⟩
    have hplan : project.task options.debug file ∈
        project.plan s options.fullRebuild options.debug := by
      refine List.mem_map_of_mem (List.mem_filter.2 ⟨hfile, ?_⟩)
      rw [isStale, Bool.false_or] at hstale
      rw [isStale, hstale, Bool.or_true]
    obtain ⟨deed, hdeed, htask⟩ := List.mem_map.1 (hcourse.tasks.mem_iff.2 hplan)
    have hmodified := h.modified?_eq_of_failed hcourse hcareful hdeed (hfailed deed hdeed htask)
    rw [htask] at hmodified
    have hsame : compiled.modified? (project.objectOf file) = s.modified? (project.objectOf file) :=
      hmodified
    rw [isStale, hsame]
    rw [isStale] at hstale
    simpa only [hnodes.needsRebuild_eq (h.key?_eq hreworks hfile)] using hstale

/-- The plan behind a pass is made of the tasks that have failed in it, in their order. -/
theorem plan_compiled (h : project.Ready place s)
    (hcourse : project.Course options executor s deeds compiled result s' finishing)
    (hcareful : project.Careful options.debug executor) (hfull : options.fullRebuild = false) :
    project.plan compiled false options.debug =
      (project.plan s false options.debug).filter fun task ↦
        deeds.any fun deed ↦ deed.task = task && !deed.done.succeeded := by
  rw [plan, plan, List.filter_map, List.filter_filter]
  refine congrArg _ (List.filter_congr fun file hfile ↦ ?_)
  rw [Bool.eq_iff_iff, h.isStale_compiled_iff hcourse hcareful hfile, Bool.and_eq_true, and_comm]
  refine and_congr_left fun hstale ↦ ?_
  have hplan : project.task options.debug file ∈
      project.plan s options.fullRebuild options.debug :=
    List.mem_map_of_mem (List.mem_filter.2 ⟨hfile, by rwa [hfull]⟩)
  obtain ⟨deed, hdeed, htask⟩ := List.mem_map.1 (hcourse.tasks.mem_iff.2 hplan)
  simp only [Function.comp_apply, List.any_eq_true, Bool.and_eq_true, decide_eq_true_eq,
    Bool.not_eq_true']
  constructor
  · exact fun hfailed ↦ ⟨deed, hdeed, htask, hfailed deed hdeed htask⟩
  · rintro ⟨other, hother, htask', hfailed⟩ another hanother htask''
    have heq : another.task.object = other.task.object :=
      congrArg Task.object (htask''.trans htask'.symm)
    rwa [List.inj_on_of_nodup_map (h.nodup_deeds hcourse) hanother hother heq]

/-! ### What is there behind a failed link -/

theorem pathExists_eq (h : project.Ready place s) {p : Path} (hp : p ∈ project.outputs) :
    s.pathExists p = (s.find? (place p)).isSome := by
  rw [← h.wellFormed.modified?_isSome, (h.placed hp).modified?_eq_timeAt? h.wellFormed, timeAt?]
  rcases h.plain hp with hfile | hnone
  · obtain ⟨content, executable, time, hfind⟩ := exists_find?_of_hasFile hfile
    rw [hfind]
    rfl
  · rw [hnone]
    rfl

/-- When room for the artifact has been made, its folder is there. -/
theorem makeRoom_spec {room : FileStore} (h : project.Ready place s)
    (hroom : project.makeRoom s = (.ok (), room)) :
    room.HasFolder (place project.artifact).parent ∧
      (room = s ∨ room.find? (place project.artifact) = none) := by
  have hplaced := h.placed project.artifact_mem_outputs
  have hmake {folder : Path} {made : FileStore} (hparent : project.artifact.parent? = some folder)
      (hcreate : s.createFolders folder = (.ok (), made)) : made = room := by
    unfold makeRoom at hroom
    rw [hparent] at hroom
    dsimp only at hroom
    rw [hcreate] at hroom
    cases hroom
    rfl
  by_cases hfolder : s.HasFolder (place project.artifact).parent
  · obtain ⟨folder, hparent, hcreate⟩ := hplaced.createFolders_of_hasFolder h.wellFormed hfolder
    obtain rfl := hmake hparent hcreate
    exact ⟨hfolder, Or.inl rfl⟩
  · have hnone : s.find? (place project.artifact) = none := by
      by_contra hsome
      exact hfolder (h.wellFormed.parent _ (Option.isSome_iff_ne_none.2 hsome))
    obtain ⟨folder, hparent, hcreate⟩ := hplaced.createFolders h.wellFormed
    split at hcreate
    · unfold makeRoom at hroom
      rw [hparent] at hroom
      dsimp only at hroom
      rw [hcreate] at hroom
      cases hroom
    · obtain ⟨made, hmade, hcreate⟩ := hcreate
      obtain rfl := hmake hparent hcreate
      refine ⟨hmade.folder _ (Location.self_mem_around _), Or.inr ?_⟩
      rw [hmade.find?_of_not_mem hplaced.not_mem_around_parent, hnone]

/-- A library has been removed, and nothing else. -/
theorem clear_spec {made : FileStore} (h : project.Ready place s)
    (hclear : project.clear s = (.ok (), made)) :
    (made = s ∨ made.find? (place project.artifact) = none) ∧
      (project.config.isLibrary = true → made.find? (place project.artifact) = none) := by
  have hmem := project.artifact_mem_outputs
  rw [clear, h.pathExists_eq hmem] at hclear
  split at hclear
  · split at hclear <;> cases hclear
    obtain ⟨l, e, hlocate, -, hloses⟩ := exists_loses ‹_›
    obtain ⟨-, rfl⟩ := h.locate_output hmem hlocate
    exact ⟨Or.inr hloses.gone, fun _ ↦ hloses.gone⟩
  · rename_i hnot
    cases hclear
    refine ⟨Or.inl rfl, fun hlibrary ↦ ?_⟩
    rw [hlibrary, Bool.true_and, Option.isSome_iff_ne_none, not_not] at hnot
    exact hnot

/-- When there is room for the artifact, its folder is there, and it is as it was or gone. -/
theorem prepare_spec {made : FileStore} (h : project.Ready place s)
    (hprepare : project.prepare s = (.ok (), made)) :
    made.HasFolder (place project.artifact).parent ∧
      (made = s ∨ made.find? (place project.artifact) = none) ∧
      (project.config.isLibrary = true → made.find? (place project.artifact) = none) := by
  cases hroom : project.makeRoom s with
  | mk result room =>
    cases result with
    | error e =>
      rw [prepare_of_error hroom] at hprepare
      cases hprepare
    | ok =>
      rw [prepare_of_ok hroom] at hprepare
      obtain ⟨hfolder, hroomSpec⟩ := h.makeRoom_spec hroom
      have hready := h.of_reworks ((h.reworks_makeRoom hroom).mono (List.nil_subset _))
      obtain ⟨hclearSpec, hlibrary⟩ := hready.clear_spec hprepare
      refine ⟨?_, ?_, hlibrary⟩
      · exact (hready.reworks_clear hprepare).keepsWays.hasFolder hfolder
      · rcases hclearSpec with rfl | hgone
        · exact hroomSpec
        · exact Or.inr hgone

/-- There is room for the artifact again, if there was before. -/
theorem prepare_again (h : project.Ready place s)
    (hfolder : s.HasFolder (place project.artifact).parent)
    (hlibrary : project.config.isLibrary = true → s.find? (place project.artifact) = none) :
    project.prepare s = (.ok (), s) := by
  have hmem := project.artifact_mem_outputs
  obtain ⟨folder, hparent, hcreate⟩ :=
    (h.placed hmem).createFolders_of_hasFolder h.wellFormed hfolder
  have hroom : project.makeRoom s = (.ok (), s) := by
    unfold makeRoom
    rw [hparent]
    dsimp only
    rw [hcreate]
  rw [prepare_of_ok hroom, clear, h.pathExists_eq hmem, if_neg]
  rw [Bool.and_eq_true]
  rintro ⟨hisLibrary, hsome⟩
  rw [hlibrary hisLibrary] at hsome
  cases hsome

/-- When the artifact has to be made and nothing is changed, it has to be made still, as what has been
recorded is no newer than the objects. -/
theorem linkDue_of_unchanged {recorded : List Time} (hs' : s'.WellFormed) (hspared : s.Unchanged s')
    (hdue : project.LinkDue false s recorded)
    (hrecorded : ∀ time ∈ recorded, ∃ object ∈ project.objects, ∃ time',
      s.modified? object = some time' ∧ time ≤ time') : project.LinkDue false s' [] := by
  have hmodified := hspared.modified?_eq
  rcases hdue with hforce | hnone | ⟨built, hbuilt, hnewest | ⟨p, hp, -, time, htime, hlt⟩⟩
  · cases hforce
  · exact Or.inr (Or.inl (by rw [hmodified, hnone]))
  · obtain ⟨time, hmem, hlt⟩ := lt_max?_iff.1 hnewest
    obtain ⟨object, hobject, time', htime', hle⟩ : ∃ object ∈ project.objects, ∃ time',
        s.modified? object = some time' ∧ time ≤ time' := by
      rcases List.mem_append.1 hmem with hmem | hmem
      · obtain ⟨object, hobject, htime⟩ := List.mem_filterMap.1 hmem
        exact ⟨object, hobject, time, htime, Nat.le_refl _⟩
      · exact hrecorded time hmem
    refine Or.inr (Or.inr ⟨built, by rw [hmodified, hbuilt],
      Or.inl (lt_max?_iff.2 ⟨time', ?_, hlt.trans_le hle⟩)⟩)
    rw [List.append_nil]
    exact List.mem_filterMap.2 ⟨object, hobject, by rw [hmodified, htime']⟩
  · refine Or.inr (Or.inr ⟨built, by rw [hmodified, hbuilt],
      Or.inr ⟨p, hp, ?_, time, by rw [hmodified, htime], hlt⟩⟩)
    rw [← hs'.modified?_isSome, hmodified, htime]
    rfl

/-- When the artifact had to be made and could not be, it has to be made still, and there is room. -/
theorem linkDue_again {made : FileStore} {recorded : List Time} (h : project.Ready place s)
    (hprepare : project.prepare s = (.ok (), made)) (hspared : made.Unchanged s')
    (hdue : project.LinkDue false s recorded)
    (hrecorded : ∀ time ∈ recorded, ∃ object ∈ project.objects, ∃ time',
      s.modified? object = some time' ∧ time ≤ time') :
    project.LinkDue false s' [] ∧ (project.prepare s').1 = .ok () := by
  have hmem := project.artifact_mem_outputs
  obtain ⟨hfolder, hmade, hlibrary⟩ := h.prepare_spec hprepare
  have hready : project.Ready place s' := by
    have hsub : [place project.artifact] ⊆ project.outputs.map place :=
      List.cons_subset.2 ⟨List.mem_map_of_mem hmem, List.nil_subset _⟩
    have hmade := h.of_reworks ((h.reworks_prepare hprepare).mono hsub)
    exact hmade.of_reworks (.of_unchanged hmade.wellFormed hspared)
  constructor
  · rcases hmade with rfl | hgone
    · exact linkDue_of_unchanged hready.wellFormed hspared hdue hrecorded
    · -- the artifact has been cleared away
      refine Or.inr (Or.inl ?_)
      rw [(hready.placed hmem).modified?_eq_timeAt? hready.wellFormed, timeAt?, hspared.find, hgone]
      rfl
  · rw [hready.prepare_again]
    · rwa [HasFolder, hspared.find]
    · exact fun hisLibrary ↦ (hspared.find _).trans (hlibrary hisLibrary)

end Ready

/-- An object at a place that is not touched is new enough still. -/
theorem HasObject.of_reworks {touched : List Location} (h : project.HasObject before s file)
    (hready : project.Ready place s)
    (hreworks : Reworks (project.outputs.map place) touched s s') (hfile : file ∈ project.sources)
    (hnot : place (project.objectOf file) ∉ touched) : project.HasObject before s' file := by
  obtain ⟨l, time, hfinds, hfresh⟩ := h
  have hmem : project.objectOf file ∈ project.outputs :=
    mem_outputs_of_mem_objects (List.mem_map_of_mem hfile)
  have hplaced := hready.placed hmem
  obtain rfl := hplaced.eq_of_resolve hready.wellFormed hfinds.leads
  refine ⟨_, time, (hreworks.placed hready.wellFormed hplaced).findsFile hreworks.wellFormed ?_,
    hfresh⟩
  rw [fileTime?, hreworks.find?_eq hready.aside (List.mem_map_of_mem hmem) hnot]
  exact hfinds.file

/-- What a build has recorded is no newer than the object that it was recorded for, also when the
database has been written. -/
theorem Ready.exists_object_of_recorded (h : project.Ready place s)
    (hcourse : project.Course options executor s deeds compiled result s' finishing)
    (hcareful : project.Careful options.debug executor) (tasks : List Task) :
    ∀ time ∈ Report.objectTimes (deeds.map Deed.done), ∃ object ∈ project.objects, ∃ time',
      (project.withDatabase options.debug tasks compiled).modified? object = some time' ∧
        time ≤ time' := by
  intro time htime
  have hmakes := hcareful.makes_deeds hcourse
  have hspares := hcareful.spares_deeds hcourse
  obtain ⟨hcompiled, hsub⟩ := h.reworks_compiled hcourse hcareful
  have hready := h.of_reworks (hcompiled.mono hsub)
  have hdatabase := hready.reworks_withDatabase tasks options.debug
  obtain ⟨deed, hdeed, l, time', hfinds, hle⟩ := hcourse.executes.exists_le_of_mem_objectTimes hmakes
    (fun deed hdeed _ ↦ hspares deed hdeed) htime
  have hobject : deed.task.object ∈ project.objects := hcourse.object_mem hdeed
  have hmem := mem_outputs_of_mem_objects hobject
  have hplaced := hready.placed hmem
  obtain ⟨-, hne⟩ := h.place_object_ne hobject
  refine ⟨_, hobject, time', ?_, hle⟩
  rw [(hdatabase.placed hready.wellFormed hplaced).modified?_eq_timeAt? hdatabase.wellFormed,
    timeAt?, hdatabase.find?_eq hready.aside (List.mem_map_of_mem hmem) (by simpa using hne),
    ← timeAt?, ← hplaced.modified?_eq_timeAt? hready.wellFormed, hfinds.modified?_eq]

/-- When the artifact could not be made, no source is stale, but the artifact has to be made. -/
theorem Ready.link_again {artifact : Path} {output : String} (h : project.Ready place s)
    (hcourse : project.Course options executor s deeds compiled (.error (.link artifact output)) s'
      finishing)
    (hcareful : project.Careful options.debug executor) (hforce : options.forceLinking = false) :
    (∀ file ∈ project.sources, project.isStale s' false file = false) ∧
      project.LinkDue false s' [] ∧ (project.prepare s').1 = .ok () := by
  have hmakes := hcareful.makes_deeds hcourse
  obtain ⟨hcompiled, hsub⟩ := h.reworks_compiled hcourse hcareful
  have hreworks := h.reworks_course hcourse hcareful
  have horderly := h.orderly hreworks
  have hrecorded := h.exists_object_of_recorded hcourse hcareful
    (project.plan s options.fullRebuild options.debug)
  obtain ⟨htasks, hexecutes, hconcludes⟩ := hcourse
  have hready := h.of_reworks (hcompiled.mono hsub)
  generalize hplan : project.plan s options.fullRebuild options.debug = tasks
    at htasks hconcludes hrecorded
  generalize hresult : (Except.error (.link artifact output) : Except BuildError BuildSummary) =
    result at hconcludes
  cases hconcludes with
  | failed => cases hresult
  | fresh => cases hresult
  | @linked result _ _ hstatus hneeds hlinks =>
    have hsucceeded := worst_ne_failed_iff.1 hstatus
    have hdatabase := hready.reworks_withDatabase tasks options.debug
    have hwritten := hready.of_reworks (hdatabase.mono (List.cons_subset.2
      ⟨List.mem_map_of_mem project.databasePath_mem_outputs, List.nil_subset _⟩))
    have hartifact := hwritten.reworks_links hlinks hcareful
    cases hlinks with
    | made => cases hresult
    | unprepared hprepare =>
      obtain ⟨path, error, rfl⟩ := exists_files_of_prepare hprepare
      cases hresult
    | @failed made _ outcome hprepare hran hfailed =>
      have hspared := hcareful.spares_finish made (by rw [hran, hfailed])
      rw [hran] at hspared
      constructor
      · intro file hfile
        obtain ⟨hne, hne'⟩ := h.place_object_ne (List.mem_map_of_mem hfile)
        have hobject : project.HasObject s compiled file :=
          hasObject_of_executesAll hexecutes (hplan ▸ htasks) hsucceeded hmakes horderly hfile
        exact ((hobject.of_reworks hready hdatabase hfile (by simpa using hne')).of_reworks hwritten
          hartifact hfile (by simpa using hne)).not_isStale horderly.nodes (h.key?_eq hreworks hfile)
      · have hdue := needsLinking_iff.1 hneeds
        rw [hforce] at hdue
        exact hwritten.linkDue_again hprepare hspared hdue hrecorded

/-! ### Building again -/

/-- Where nothing is stale but the artifact has to be made, the artifact is made. -/
theorem ran_build_of_linkDue {session : Session} (hsources : project.isHeaderOnly = false)
    (hfresh : ∀ file ∈ project.sources, project.isStale session.files false file = false)
    (hdue : project.LinkDue false session.files [])
    (hprepare : (project.prepare session.files).1 = .ok ()) (options : BuildOptions)
    (executor : Executor) (choices : Nat → Nat) (cores : Nat) (hfull : options.fullRebuild = false)
    (hforce : options.forceLinking = false) :
    ((project.build options executor choices cores).run session).2.ran =
      session.ran ++ [project.finishCommand options.debug] := by
  obtain ⟨deeds, compiled, finishing, hcourse, hran⟩ :=
    project.exists_course options executor choices cores session hsources
  have hplan : project.plan session.files options.fullRebuild options.debug = [] := by
    rw [plan, hfull, List.map_eq_nil_iff, List.filter_eq_nil_iff]
    exact fun file hfile ↦ by simp [hfresh file hfile]
  obtain ⟨htasks, hexecutes, hconcludes⟩ := hcourse
  rw [hplan] at htasks hconcludes
  obtain rfl := List.map_eq_nil_iff.1 htasks.eq_nil
  cases hexecutes
  have hneeds : project.needsLinking session.files (Report.ofCompletions []) options.forceLinking =
      true := needsLinking_iff.2 (hforce ▸ hdue)
  rw [hran, List.flatMap_nil, List.append_nil]
  generalize ((project.build options executor choices cores).run session).1 = result,
    ((project.build options executor choices cores).run session).2.files = after at hconcludes
  cases hconcludes with
  | failed hfailed => cases hfailed
  | fresh _ hnot =>
    have hsame : project.needsLinking session.files (Report.ofCompletions [])
      options.forceLinking = false := hnot
    rw [hneeds] at hsame
    cases hsame
  | linked _ _ hlinks =>
    cases hlinks with
    | unprepared hnot =>
      have hsame : project.prepare session.files = _ := hnot
      rw [hsame] at hprepare
      cases hprepare
    | failed => rfl
    | made => rfl

/-- A build by a careful executor. -/
def Built (project : Project) (before after : Session) : Prop :=
  ∃ options executor choices cores, project.Careful options.debug executor ∧
    after = ((project.build options executor choices cores).run before).2

/-- A project without sources is built by doing nothing. -/
theorem build_of_isHeaderOnly (hsources : project.isHeaderOnly = true) (options : BuildOptions)
    (executor : Executor) (choices : Nat → Nat) (cores : Nat) (session : Session) :
    let built := (project.build options executor choices cores).run session
    built.1 = .ok { headerOnly := true } ∧ built.2.files = session.files ∧
      built.2.ran = session.ran := by
  intro built
  have hbuilt : built = _ := project.run_build options executor choices cores session
  rw [if_pos hsources] at hbuilt
  obtain ⟨listed, hopened⟩ := project.exists_opened options session
  rw [hbuilt, hopened]
  exact ⟨rfl, rfl, rfl⟩

/-- When sources could not be compiled, nothing is done behind the pass. -/
theorem Concludes.eq_of_compile {tasks : List Task} {failed : Nat}
    (h : project.Concludes options executor tasks (Report.ofCompletions (deeds.map Deed.done)) s
      (.error (.compile failed)) s' finishing) :
    failed = deeds.countP (!·.done.succeeded) ∧ s' = s := by
  generalize hresult : (Except.error (.compile failed) : Except BuildError BuildSummary) =
    result at h
  cases h with
  | failed =>
    cases hresult
    refine ⟨?_, rfl⟩
    show List.countP _ (deeds.map Deed.done) = _
    rw [List.countP_map]
    rfl
  | fresh => cases hresult
  | linked _ _ hlinks =>
    cases hlinks with
    | unprepared hprepare =>
      obtain ⟨path, error, rfl⟩ := exists_files_of_prepare hprepare
      cases hresult
    | failed => cases hresult
    | made => cases hresult

theorem Ready.of_built {session session' : Session} (h : project.Ready place session.files)
    (hbuilt : project.Built session session') : project.Ready place session'.files := by
  obtain ⟨options, executor, choices, cores, hcareful, rfl⟩ := hbuilt
  cases hsources : project.isHeaderOnly with
  | true =>
    obtain ⟨-, hfiles, -⟩ := build_of_isHeaderOnly hsources options executor choices cores session
    rwa [hfiles]
  | false =>
    obtain ⟨deeds, compiled, finishing, hcourse, -⟩ :=
      project.exists_course options executor choices cores session hsources
    exact h.of_reworks (h.reworks_course hcourse hcareful)

/-- Behind any number of builds, what has failed is what is done next. -/
theorem retries (project : Project) (place : Path → Location) (first session : Session)
    (hready : project.Ready place first.files)
    (hbuilt : Relation.ReflTransGen project.Built first session) (options : BuildOptions)
    (executor : Executor) (choices : Nat → Nat) (cores : Nat) (debug : Bool)
    (hcareful : project.Careful debug executor) (hdebug : options.debug = debug)
    (hfull : options.fullRebuild = false) (hforce : options.forceLinking = false) :
    let built := (project.build options executor choices cores).run session
    let tasks := project.plan session.files false debug
    (∀ failed, built.1 = .error (.compile failed) → ∃ deeds : List Deed,
      (deeds.map Deed.task).Perm tasks ∧
      ExecutesAll executor session.files deeds built.2.files ∧
      failed = deeds.countP (!·.done.succeeded) ∧
      project.plan built.2.files false debug = tasks.filter fun task ↦
        deeds.any fun deed ↦ deed.task = task && !deed.done.succeeded) ∧
    ∀ artifact output, built.1 = .error (.link artifact output) →
      project.plan built.2.files false debug = [] ∧
      ∀ (options' : BuildOptions) (executor' : Executor) (choices' : Nat → Nat) (cores' : Nat),
        options'.debug = debug → options'.fullRebuild = false → options'.forceLinking = false →
        ((project.build options' executor' choices' cores').run built.2).2.ran =
          built.2.ran ++ [project.finishCommand debug] := by
  intro built tasks
  subst hdebug
  have h : project.Ready place session.files := by
    induction hbuilt with
    | refl => exact hready
    | tail _ hstep ih => exact ih.of_built hstep
  cases hsources : project.isHeaderOnly with
  | true =>
    obtain ⟨hok, -⟩ := build_of_isHeaderOnly hsources options executor choices cores session
    have hok : built.1 = _ := hok
    rw [hok]
    constructor
    · intro failed herror
      cases herror
    · intro artifact output herror
      cases herror
  | false =>
    obtain ⟨deeds, compiled, finishing, hcourse, -⟩ :=
      project.exists_course options executor choices cores session hsources
    constructor
    · intro failed hfailed
      obtain ⟨hcount, hfiles⟩ := (hfailed ▸ hcourse.concludes).eq_of_compile
      refine ⟨deeds, ?_, hfiles ▸ hcourse.executes, hcount, ?_⟩
      · have htasks := hcourse.tasks
        rwa [hfull] at htasks
      · rw [hfiles]
        exact h.plan_compiled hcourse hcareful hfull
    · intro artifact output hlink
      have hcourse' : project.Course options executor session.files deeds compiled
          (.error (.link artifact output)) built.2.files finishing := hlink ▸ hcourse
      obtain ⟨hfresh, hdue, hprepare⟩ := h.link_again hcourse' hcareful hforce
      refine ⟨?_, fun options' executor' choices' cores' hdebug' hfull' hforce' ↦ ?_⟩
      · rw [plan, List.map_eq_nil_iff, List.filter_eq_nil_iff]
        exact fun file hfile ↦ by simp [hfresh file hfile]
      · rw [ran_build_of_linkDue hsources hfresh hdue hprepare options' executor' choices' cores'
          hfull' hforce', hdebug']

/-! ### Two sources, one of which fails -/

/-- An executor that makes everything but what a word of the command forbids. -/
def refusing (word : String) : Executor :=
  .stamping fun command ↦ command.args.contains word

theorem ready_twoSources : (plainProject twoSources).Ready namedPlace twoSources := by
  have hspelled : (plainProject twoSources).Spelled twoSources := by decide +kernel
  exact hspelled.ready

/-- First a source fails, and then the artifact. -/
theorem fails_twoSources :
    (((plainProject twoSources).build {} (refusing "./src/b.c") Pool.firstChoices 1).run
      { files := twoSources }).1 = .error (.compile 1) ∧
    (((plainProject twoSources).build {} (refusing "./bin/app") Pool.firstChoices 1).run
      (((plainProject twoSources).build {} (refusing "./src/b.c") Pool.firstChoices 1).run
        { files := twoSources }).2).1 = .error (.link (plainProject twoSources).artifact "") := by
  decide +kernel

/-- When one of two sources fails, it is all that is compiled next; when the artifact fails then, it
is all that is made next. -/
theorem retries_of_twoSources :
    let project := plainProject twoSources
    let first := (project.build {} (refusing "./src/b.c") Pool.firstChoices 1).run
      { files := twoSources }
    let second := (project.build {} (refusing "./bin/app") Pool.firstChoices 1).run first.2
    let third := (project.build {} (refusing "./bin/app") Pool.firstChoices 1).run second.2
    project.Ready namedPlace twoSources ∧
      first.1 = .error (.compile 1) ∧
      (∃ deeds : List Deed, deeds.countP (!·.done.succeeded) = 1 ∧
        project.plan first.2.files false false = (project.plan twoSources false false).filter
          fun task ↦ deeds.any fun deed ↦ deed.task = task && !deed.done.succeeded) ∧
      second.1 = .error (.link project.artifact "") ∧
      project.plan second.2.files false false = [] ∧
      third.2.ran = second.2.ran ++ [project.finishCommand false] := by
  have hcareful (word : String) : (plainProject twoSources).Careful false (refusing word) :=
    careful_stamping (by decide) false _
  obtain ⟨hfirst, hsecond⟩ := fails_twoSources
  refine ⟨ready_twoSources, hfirst, ?_, hsecond, ?_⟩
  · obtain ⟨hcompile, -⟩ := (plainProject twoSources).retries namedPlace { files := twoSources }
      { files := twoSources } ready_twoSources .refl {} (refusing "./src/b.c") Pool.firstChoices 1
      false (hcareful _) rfl rfl rfl
    obtain ⟨deeds, -, -, hcount, hplan⟩ := hcompile 1 hfirst
    exact ⟨deeds, hcount.symm, hplan⟩
  · obtain ⟨-, hlink⟩ := (plainProject twoSources).retries namedPlace { files := twoSources } _
      ready_twoSources
      (.single ⟨{}, refusing "./src/b.c", Pool.firstChoices, 1, hcareful _, rfl⟩) {}
      (refusing "./bin/app") Pool.firstChoices 1 false (hcareful _) rfl rfl rfl
    obtain ⟨hfresh, hnext⟩ := hlink _ _ hsecond
    exact ⟨hfresh, hnext {} (refusing "./bin/app") Pool.firstChoices 1 rfl rfl rfl⟩

/-- A store where the objects of two sources lie in one folder, because of a link. -/
def linkedFolder : FileStore where
  entries := [(.root, .folder 0), (⟨["src"]⟩, .folder 0), (⟨["src", "x"]⟩, .folder 0),
    (⟨["src", "x", "a.c"]⟩, .file .empty false 10), (⟨["src", "y"]⟩, .folder 0),
    (⟨["src", "y", "a.c"]⟩, .file .empty false 10), (⟨["obj"]⟩, .folder 0),
    (⟨["obj", "default"]⟩, .folder 0), (⟨["obj", "default", "src"]⟩, .folder 0),
    (⟨["obj", "default", "src", "x"]⟩, .link "y"), (⟨["obj", "default", "src", "y"]⟩, .folder 0)]
  clock := 40

/-- A failure is forgotten where the object that is missing is made nevertheless, as a folder on the
way to another object or by a link as that object, and where the artifact is a folder that is made
before it. -/
theorem exists_forgotten :
    let build (project : Project) (word : String) (before : Session) :=
      (project.build {} (refusing word) Pool.firstChoices 1).run before
    let forgets (s : FileStore) (word : String) : Prop :=
      let project := plainProject s
      let built := build project word { files := s }
      project.objects.Nodup ∧ built.1 = .error (.compile 1) ∧
        project.plan built.2.files false false = []
    let parent := scan twoSources ⟨"."⟩ { plainConfig [⟨"src"⟩] with name := ".." } "default"
    let first := build parent "./bin/.." { files := twoSources }
    forgets nestedSources "./src/a.c" ∧ forgets linkedFolder "./src/x/a.c" ∧
      (first.1 = .error (.link parent.artifact "") ∧
        (build parent "./bin/.." first.2).2.ran = first.2.ran) ∧
      ∀ word, (∀ s, (plainProject s).Careful false (refusing word)) ∧
        parent.Careful false (refusing word) :=
  ⟨by decide +kernel, by decide +kernel, by decide +kernel,
    fun _ ↦ ⟨fun _ ↦ careful_stamping (show "g++" ≠ "ar" by decide) false _,
      careful_stamping (show "g++" ≠ "ar" by decide) false _⟩⟩

end Project

end Rebuild
