import Rebuild.Proofs.Project.Execution

/-!
# A build that succeeds leaves nothing to do

When a build has succeeded, every object is at least as new as everything its source depends on, and
the artifact is at least as new as every object: the objects that were compiled are newer than all
that was there before, and the others have been found to be new enough. So another build finds
nothing to do.
-/

namespace Rebuild

open FileStore

/-! ### Asking a graph again -/

namespace Include.Graph

variable {g : Graph} {s s' : FileStore} {p : Path}

/-- Everything that has been scanned is a regular file, and the same file in both stores. -/
def Undisturbed (g : Graph) (s s' : FileStore) : Prop :=
  ∀ l ∈ g.locations, ∃ content executable time,
    s.stat l.path = .ok (.file content executable time) ∧
      s'.stat l.path = .ok (.file content executable time)

/-- What is new enough is new enough for a later time. -/
theorem needsRebuild_of_le {time time' : Time} (hle : time ≤ time')
    (h : g.needsRebuild s p time = false) : g.needsRebuild s p time' = false := by
  rw [Bool.eq_false_iff] at h ⊢
  exact fun hlater ↦ h (needsRebuild_of_later hle hlater)

/-- What is newer than all that has been scanned need not be made again. -/
theorem needsRebuild_of_newest {time : Time}
    (h : ∀ l ∈ g.locations, ∃ time', s.modified? l.path = some time' ∧ time' ≤ time) :
    g.needsRebuild s p time = false := by
  rw [Bool.eq_false_iff, ne_eq, needsRebuild_eq_true_iff]
  rintro ⟨-, -, m, -, hm, hchanged⟩
  obtain ⟨time', htime', hle⟩ := h m hm
  rw [changedAfter, htime'] at hchanged
  exact absurd (of_decide_eq_true hchanged) (Nat.not_lt.2 hle)

/-- The answer stays the same where nothing that has been scanned is disturbed. -/
theorem Undisturbed.needsRebuild_eq (h : g.Undisturbed s s') (hkey : key? s' p = key? s p)
    (time : Time) : g.needsRebuild s' p time = g.needsRebuild s p time := by
  have hchanged (l : Location) (hl : l ∈ g.locations) :
      changedAfter s' time l = changedAfter s time l := by
    obtain ⟨content, executable, time', hstat, hstat'⟩ := h l hl
    rw [changedAfter, changedAfter, modified?, modified?, hstat, hstat']
  rw [Bool.eq_iff_iff, needsRebuild_eq_true_iff, needsRebuild_eq_true_iff, hkey]
  constructor
  · rintro ⟨l, hl, m, hleads, hm, hafter⟩
    exact ⟨l, hl, m, hleads, hm, (hchanged m hm).symm.trans hafter⟩
  · rintro ⟨l, hl, m, hleads, hm, hafter⟩
    exact ⟨l, hl, m, hleads, hm, (hchanged m hm).trans hafter⟩

theorem Undisturbed.symm (h : g.Undisturbed s s') : g.Undisturbed s' s := by
  intro l hl
  obtain ⟨content, executable, time, hstat, hstat'⟩ := h l hl
  exact ⟨content, executable, time, hstat', hstat⟩

/-- What has been scanned is not newer than a file that has just been made. -/
theorem Undisturbed.exists_le {before after : FileStore} {l : Location} {time : Time}
    (h : g.Undisturbed before after) (hages : before.Ages s) (hnewest : s.Newest l time) :
    ∀ m ∈ g.locations, ∃ time', before.modified? m.path = some time' ∧
      after.modified? m.path = some time' ∧ time' ≤ time := by
  intro m hm
  obtain ⟨content, executable, time', hstat, hstat'⟩ := h m hm
  have hmodified : before.modified? m.path = some time' := by
    rw [modified?, hstat]
    rfl
  have hmodified' : after.modified? m.path = some time' := by
    rw [modified?, hstat']
    rfl
  have hfolder : before.isFolder m.path = false := by
    rw [isFolder, hstat]
    rfl
  obtain ⟨x, hfinds⟩ := exists_findsFile hmodified hfolder
  obtain ⟨time'', hfinds', hle⟩ := hfinds.of_ages hages
  have hlatest := hnewest.latest x time'' (timeAt?_of_fileTime? hfinds'.file)
  exact ⟨time', hmodified, hmodified', hle.trans hlatest⟩

/-- A path has the same key in both stores if it leads to the same thing. -/
theorem key?_eq_of_lead {l : Location} (hlead : s.lead true p = .ok (.existing l))
    (hl : (s.find? l).isSome) (hlead' : s'.lead true p = .ok (.existing l))
    (hl' : (s'.find? l).isSome) : key? s' p = key? s p := by
  have hcanonical {s : FileStore} (hlead : s.lead true p = .ok (.existing l))
      (hl : (s.find? l).isSome) :
      s.canonical? p = (some l).filter fun l ↦ !tooLong l.path := by
    obtain ⟨e, he⟩ := Option.isSome_iff_exists.1 hl
    rw [canonical?, hlead]
    show ((s.arrive (.existing l)).toOption.map _).filter _ = _
    rw [arrive, he]
    rfl
  rw [key?, key?, hcanonical hlead hl, hcanonical hlead' hl']

end Include.Graph

/-! ### Objects that are new enough -/

namespace Project

variable {project : Project} {executor : Executor} {options : BuildOptions}
variable {before s s' after : FileStore} {file : ProjectFile} {l : Location} {time : Time}
variable {deeds : List Deed}

/-- What a build must leave alone so that its results are still right when it is done. -/
structure Orderly (project : Project) (before after : FileStore) : Prop where
  /-- What sources depend on are regular files, which are not written. -/
  nodes : project.graph.Undisturbed before after
  /-- Sources are there. -/
  sources : ∀ file ∈ project.sources, ∃ l, before.lead true file.path = .ok (.existing l) ∧
    (before.find? l).isSome
  /-- No folder is where an object should be. -/
  objects : ∀ object ∈ project.objects, before.isFolder object = false
  /-- The compile database is not written over an object. -/
  database : ∀ object ∈ project.objects, ∀ l,
    after.resolve true project.databasePath = .ok (.existing l) →
      after.resolve true object ≠ .ok (.existing l)
  /-- No link is removed to make room for a library. -/
  links : project.config.isLibrary = true → ∀ l target,
    before.find? l = some (.link target) → after.find? l = some (.link target)

/-- The object of a source is a file, new enough for what the source depends on in the store
`before`. -/
def HasObject (project : Project) (before s : FileStore) (file : ProjectFile) : Prop :=
  ∃ l time, s.FindsFile (project.objectOf file) l time ∧
    project.graph.needsRebuild before file.path time = false

theorem isStale_eq_false_iff : project.isStale s false file = false ↔
    ∃ time, s.modified? (project.objectOf file) = some time ∧
      project.graph.needsRebuild s file.path time = false := by
  rw [isStale, Bool.false_or]
  cases s.modified? (project.objectOf file) <;> simp

theorem HasObject.of_ages (h : project.HasObject before s file) (hages : s.Ages s') :
    project.HasObject before s' file := by
  obtain ⟨l, time, hfinds, hfresh⟩ := h
  obtain ⟨time', hfinds', hle⟩ := hfinds.of_ages hages
  exact ⟨l, time', hfinds', Include.Graph.needsRebuild_of_le hle hfresh⟩

/-- An object that is the newest file is new enough. -/
theorem HasObject.of_newest (hfinds : s.FindsFile (project.objectOf file) l time)
    (hle : ∀ m ∈ project.graph.locations, ∃ time', before.modified? m.path = some time' ∧
      time' ≤ time) : project.HasObject before s file :=
  ⟨l, time, hfinds, Include.Graph.needsRebuild_of_newest hle⟩

/-- A source whose object is new enough is not stale. -/
theorem HasObject.not_isStale (h : project.HasObject before after file)
    (hnodes : project.graph.Undisturbed before after)
    (hkey : Include.Graph.key? after file.path = Include.Graph.key? before file.path) :
    project.isStale after false file = false := by
  obtain ⟨l, time, hfinds, hfresh⟩ := h
  refine isStale_eq_false_iff.2 ⟨time, hfinds.modified?_eq, ?_⟩
  rw [hnodes.needsRebuild_eq hkey time]
  exact hfresh

/-- A source is found again where all kinds are kept. -/
theorem Orderly.key?_eq (h : project.Orderly before after) (hkeeps : before.Keeps after)
    (hfile : file ∈ project.sources) :
    Include.Graph.key? after file.path = Include.Graph.key? before file.path := by
  obtain ⟨l, hlead, hl⟩ := h.sources file hfile
  obtain ⟨e, he⟩ := Option.isSome_iff_exists.1 hl
  have hkind := hkeeps.kind l e.kind (by rw [kind?, he]; rfl)
  obtain ⟨e', he', -⟩ := Option.map_eq_some_iff.1 hkind
  exact Include.Graph.key?_eq_of_lead hlead hl (hkeeps.lead_eq hlead) (Option.isSome_of_eq_some he')

/-! ### What a pass leaves -/

/-- The object of a source that is not stale is new enough. -/
theorem HasObject.of_not_isStale (h : project.isStale before false file = false)
    (hfolder : before.isFolder (project.objectOf file) = false) :
    project.HasObject before before file := by
  obtain ⟨time, hmodified, hfresh⟩ := isStale_eq_false_iff.1 h
  obtain ⟨l, hfinds⟩ := exists_findsFile hmodified hfolder
  exact ⟨l, time, hfinds, hfresh⟩

/-- An object that has been made in a pass is new enough. -/
theorem HasObject.of_executesAll {deed : Deed} (h : ExecutesAll executor before deeds s)
    (hmakes : ∀ deed ∈ deeds, executor.Makes deed.task.command deed.task.object)
    (hspares : ∀ deed ∈ deeds, deed.done.succeeded = false → executor.Spares deed.task.command)
    (hnodes : project.graph.Undisturbed before after) (hdeed : deed ∈ deeds)
    (hobject : deed.task.object = project.objectOf file) (hsucceeded : deed.done.succeeded = true) :
    project.HasObject before s file := by
  obtain ⟨first, rest, mid, mid', rfl, hfirst, hexecutes, hrest⟩ := h.exists_split hdeed
  rw [List.forall_mem_append, List.forall_mem_cons] at hmakes hspares
  obtain ⟨hmakesFirst, hmakesDeed, hmakesRest⟩ := hmakes
  obtain ⟨hsparesFirst, hsparesDeed, hsparesRest⟩ := hspares
  obtain ⟨l, time, hfinds, hnewest⟩ := hexecutes.exists_newest hmakesDeed hsucceeded
  rw [hobject] at hfinds
  have hages : before.Ages mid' :=
    (hfirst.ages hmakesFirst hsparesFirst).trans (hexecutes.ages hmakesDeed hsparesDeed)
  have hmade : project.HasObject before mid' file := by
    refine .of_newest hfinds fun m hm ↦ ?_
    obtain ⟨time', hmodified, -, hle⟩ := hnodes.exists_le hages hnewest m hm
    exact ⟨time', hmodified, hle⟩
  exact hmade.of_ages (hrest.ages hmakesRest hsparesRest)

/-- When a pass has succeeded, all objects are new enough. -/
theorem hasObject_of_executesAll (h : ExecutesAll executor before deeds s)
    (htasks : (deeds.map Deed.task).Perm (project.plan before options.fullRebuild options.debug))
    (hsucceeded : ∀ deed ∈ deeds, deed.done.succeeded = true)
    (hmakes : ∀ deed ∈ deeds, executor.Makes deed.task.command deed.task.object)
    (horderly : project.Orderly before after) (hfile : file ∈ project.sources) :
    project.HasObject before s file := by
  have hspares : ∀ deed ∈ deeds, deed.done.succeeded = false →
      executor.Spares deed.task.command := fun deed hdeed hfailed ↦ by
    rw [hsucceeded deed hdeed] at hfailed
    cases hfailed
  cases hstale : project.isStale before options.fullRebuild file with
  | false =>
    have hfresh : project.isStale before false file = false := by
      rw [isStale, Bool.or_eq_false_iff] at hstale
      rw [isStale, hstale.2]
      rfl
    have hbefore := HasObject.of_not_isStale hfresh
      (horderly.objects _ (List.mem_map_of_mem hfile))
    exact hbefore.of_ages (h.ages hmakes hspares)
  | true =>
    have hplan : project.task options.debug file ∈
        project.plan before options.fullRebuild options.debug :=
      List.mem_map_of_mem (List.mem_filter.2 ⟨hfile, hstale⟩)
    obtain ⟨deed, hdeed, htask⟩ := List.mem_map.1 (htasks.mem_iff.2 hplan)
    exact .of_executesAll h hmakes hspares horderly.nodes hdeed (congrArg Task.object htask)
      (hsucceeded deed hdeed)

/-! ### What is done behind a pass -/

/-- Writing the compile database leaves objects new enough. -/
theorem HasObject.withDatabase {tasks : List Task} {debug : Bool}
    (h : project.HasObject before s file) (horderly : project.Orderly before after)
    (hfile : file ∈ project.sources)
    (hkeeps : (project.withDatabase debug tasks s).Keeps after) :
    project.HasObject before (project.withDatabase debug tasks s) file := by
  rcases project.withDatabase_cases debug tasks s with hsame | ⟨l', hwrites⟩
  · rwa [hsame]
  obtain ⟨l, time, hfinds, hfresh⟩ := h
  have hleads := hwrites.keeps.resolve_eq (isSome_of_fileTime? hfinds.file) hfinds.leads
  have hne : l ≠ l' := by
    rintro rfl
    refine horderly.database _ (List.mem_map_of_mem hfile) l ?_ ?_
    · exact hkeeps.resolve_eq (isSome_of_hasFile hwrites.file) hwrites.resolve_eq
    · exact hkeeps.resolve_eq (isSome_of_hasFile hwrites.file) hleads
  exact ⟨l, time, ⟨hleads, (hwrites.fileTime?_eq hne).trans hfinds.file⟩, hfresh⟩

/-- Making the artifact leaves objects new enough. -/
theorem HasObject.renewed (h : project.HasObject before s file)
    (horderly : project.Orderly before after) (hrenewed : project.Renewed s l time after) :
    project.HasObject before after file := by
  obtain ⟨l', time', hfinds, hfresh⟩ := h
  have hleads := hrenewed.keeps.resolve_eq (isSome_of_fileTime? hfinds.file) hfinds.leads
  by_cases hne : l' = l
  · -- the artifact lies where the object is
    subst hne
    refine .of_newest ⟨hleads, hrenewed.finds.file⟩ fun m hm ↦ ?_
    obtain ⟨time'', -, hmodified, hle⟩ :=
      horderly.nodes.symm.exists_le (.refl after) hrenewed.newest m hm
    exact ⟨time'', hmodified, hle⟩
  · exact ⟨l', time', ⟨hleads, hrenewed.other l' hne time' hfinds.file⟩, hfresh⟩

/-! ### Nothing to link -/

theorem lt_max?_iff {times : List Time} : (∃ newest, times.max? = some newest ∧ time < newest) ↔
    ∃ time' ∈ times, time < time' := by
  constructor
  · rintro ⟨newest, hmax, hlt⟩
    exact ⟨newest, (List.max?_eq_some_iff.1 hmax).1, hlt⟩
  · rintro ⟨time', hmem, hlt⟩
    cases hmax : times.max? with
    | none =>
      rw [List.max?_eq_none_iff.1 hmax] at hmem
      cases hmem
    | some newest =>
      exact ⟨newest, rfl, hlt.trans_le ((List.max?_eq_some_iff.1 hmax).2 time' hmem)⟩

/-- If the artifact has to be made for what is there, it has to be made when more has been
recorded. -/
theorem LinkDue.of_nil (h : project.LinkDue false s []) (force : Bool) (recorded : List Time) :
    project.LinkDue force s recorded := by
  rcases h with hforce | hnone | ⟨built, hbuilt, hnewest | hlibrary⟩
  · cases hforce
  · exact Or.inr (Or.inl hnone)
  · obtain ⟨time, hmem, hlt⟩ := lt_max?_iff.1 hnewest
    rw [List.append_nil] at hmem
    exact Or.inr (Or.inr ⟨built, hbuilt,
      Or.inl (lt_max?_iff.2 ⟨time, List.mem_append_left _ hmem, hlt⟩)⟩)
  · exact Or.inr (Or.inr ⟨built, hbuilt, Or.inr hlibrary⟩)

/-- The newest artifact need not be made again. -/
theorem not_linkDue_of_newest (hfinds : s.FindsFile project.artifact l time)
    (hnewest : s.Newest l time) : ¬project.LinkDue false s [] := by
  have hle {p : Path} {time' : Time} (h : s.modified? p = some time') : ¬time < time' := by
    obtain ⟨x, hx⟩ := exists_timeAt? h
    exact Nat.not_lt.2 (hnewest.latest x time' hx)
  rintro (hforce | hnone | ⟨built, hbuilt, hnewer | ⟨p, -, -, time', htime', hlt⟩⟩)
  · cases hforce
  · rw [hfinds.modified?_eq] at hnone
    cases hnone
  · rw [hfinds.modified?_eq, Option.some.injEq] at hbuilt
    subst hbuilt
    obtain ⟨time', hmem, hlt⟩ := lt_max?_iff.1 hnewer
    rw [List.append_nil] at hmem
    obtain ⟨object, -, htime'⟩ := List.mem_filterMap.1 hmem
    exact hle htime' hlt
  · rw [hfinds.modified?_eq, Option.some.injEq] at hbuilt
    subst hbuilt
    exact hle htime' hlt

theorem latest_none (time : Option Time) : latest time ({} : Report).latestObject = time := by
  cases time <;> rfl

/-- Without tasks, what is recorded is nothing. -/
theorem needsLinking_eq_false_iff {force : Bool} :
    project.needsLinking s {} force = false ↔ ¬project.LinkDue force s [] := by
  have hnone : ({} : Report) = Report.ofCompletions [] := rfl
  rw [hnone, ← Bool.not_eq_true, needsLinking_iff]
  rfl

/-! ### The fixed point -/

/-- There is nothing to do: no object and no artifact has to be made. -/
structure Done (project : Project) (s : FileStore) : Prop where
  /-- No source is stale. -/
  fresh : ∀ file ∈ project.sources, project.isStale s false file = false
  /-- The artifact is not older than any object or library. -/
  linked : linkRequired s project.artifact (project.newestObject s)
    (libraryFiles s project.config project.root) false = false

/-- Without tasks and without need for the artifact, nothing is done. -/
theorem Concludes.eq_of_nil {result : Except BuildError BuildSummary} {finishing : List CommandLine}
    (h : project.Concludes options executor [] (Report.ofCompletions []) s result s' finishing)
    (hneeds : project.needsLinking s {} options.forceLinking = false) :
    result = .ok { status := .noChange, compiled := 0, linked := false } ∧ s' = s ∧
      finishing = [] := by
  cases h with
  | failed hfailed => cases hfailed
  | fresh => exact ⟨rfl, rfl, rfl⟩
  | linked _ hneeds' =>
    have hsame : project.needsLinking s {} options.forceLinking = true := hneeds'
    rw [hneeds] at hsame
    cases hsame

/-- Where there is nothing to do, a build does nothing. -/
theorem Done.build {session : Session} (h : project.Done session.files)
    (hsources : project.isHeaderOnly = false) (options : BuildOptions) (executor : Executor)
    (choices : Nat → Nat) (cores : Nat) (hfull : options.fullRebuild = false)
    (hforce : options.forceLinking = false) :
    let built := (project.build options executor choices cores).run session
    built.1 = .ok { status := .noChange, compiled := 0, linked := false } ∧
      built.2.files = session.files ∧ built.2.ran = session.ran := by
  intro built
  obtain ⟨deeds, compiled, finishing, hcourse, hran⟩ :=
    project.exists_course options executor choices cores session hsources
  have hplan : project.plan session.files options.fullRebuild options.debug = [] := by
    rw [plan, hfull, List.map_eq_nil_iff, List.filter_eq_nil_iff]
    exact fun file hfile ↦ by simp [h.fresh file hfile]
  have htasks := hcourse.tasks
  have hconcludes := hcourse.concludes
  have hexecutes := hcourse.executes
  rw [hplan] at htasks hconcludes
  obtain rfl := List.map_eq_nil_iff.1 htasks.eq_nil
  cases hexecutes
  have hneeds : project.needsLinking session.files {} options.forceLinking = false := by
    rw [needsLinking, latest_none, hforce]
    exact h.linked
  obtain ⟨hresult, hfiles, rfl⟩ := hconcludes.eq_of_nil hneeds
  refine ⟨hresult, hfiles, ?_⟩
  rw [hran, List.flatMap_nil, List.append_nil, List.append_nil]

/-- Objects that are new enough and an artifact that need not be made are all there is to do. -/
theorem done_of_hasObject (hobjects : ∀ file ∈ project.sources, project.HasObject before after file)
    (hlinked : ¬project.LinkDue false after []) (horderly : project.Orderly before after)
    (hkeeps : before.Keeps after) : project.Done after where
  fresh file hfile := (hobjects file hfile).not_isStale horderly.nodes (horderly.key?_eq hkeeps hfile)
  linked := by
    have hneeds := needsLinking_eq_false_iff.2 hlinked
    rwa [needsLinking, latest_none] at hneeds

/-- What is done when a build has succeeded: the objects are new enough, and so is the artifact. -/
theorem Course.done {compiled : FileStore} {summary : BuildSummary} {finishing : List CommandLine}
    (h : project.Course options executor before deeds compiled (.ok summary) after finishing)
    (hmakes : ∀ file ∈ project.sources, executor.Makes (project.compileCommand options.debug file)
      (project.objectOf file))
    (hfinish : executor.Makes (project.finishCommand options.debug) project.artifact)
    (horderly : project.Orderly before after) : project.Done after := by
  have hdeeds : ∀ deed ∈ deeds, executor.Makes deed.task.command deed.task.object := by
    intro deed hdeed
    obtain ⟨file, hfile, -, htask⟩ := h.exists_source hdeed
    rw [htask]
    exact hmakes file hfile
  obtain ⟨htasks, hexecutes, hconcludes⟩ := h
  generalize hresult : Except.ok summary = result at hconcludes
  generalize hplan : project.plan before options.fullRebuild options.debug = tasks
    at htasks hconcludes
  set written := project.withDatabase options.debug tasks compiled with hwritten
  have hcompiled (hstatus : (Report.ofCompletions (deeds.map Deed.done)).status ≠ .failed) :
      before.Ages compiled ∧ ∀ file ∈ project.sources, project.HasObject before compiled file := by
    have hsucceeded := worst_ne_failed_iff.1 hstatus
    refine ⟨hexecutes.ages hdeeds fun deed hdeed hfailed ↦ ?_, fun file hfile ↦
      hasObject_of_executesAll hexecutes (hplan ▸ htasks) hsucceeded hdeeds horderly hfile⟩
    rw [hsucceeded deed hdeed] at hfailed
    cases hfailed
  have hdatabase : compiled.Keeps written ∧
      ∀ l target, written.find? l = some (.link target) → compiled.find? l = some (.link target) := by
    rcases project.withDatabase_cases options.debug tasks compiled with hsame | ⟨l', hwrites⟩
    · rw [hwritten, hsame]
      exact ⟨.refl compiled, fun _ _ ↦ id⟩
    · exact ⟨hwrites.keeps, fun _ _ ↦ hwrites.no_link⟩
  cases hconcludes with
  | failed => cases hresult
  | fresh hstatus hneeds =>
    obtain ⟨hages, hobjects⟩ := hcompiled hstatus
    refine done_of_hasObject (fun file hfile ↦
      (hobjects file hfile).withDatabase horderly hfile (.refl _)) (fun hdue ↦ ?_) horderly
      (hages.toKeeps.trans hdatabase.1)
    rw [needsLinking_iff.2 (hdue.of_nil options.forceLinking _)] at hneeds
    cases hneeds
  | @linked result _ _ hstatus hneeds hlinks =>
    obtain ⟨hages, hobjects⟩ := hcompiled hstatus
    cases result with
    | error e => cases hresult
    | ok =>
      obtain ⟨l, time, hrenewed⟩ := hlinks.exists_renewed hfinish fun hlibrary l target hlink ↦
        horderly.links hlibrary l target (hages.no_link l target (hdatabase.2 l target hlink))
      refine done_of_hasObject (fun file hfile ↦ ?_)
        (not_linkDue_of_newest hrenewed.finds hrenewed.newest) horderly
        (hages.toKeeps.trans (hdatabase.1.trans hrenewed.keeps))
      exact ((hobjects file hfile).withDatabase horderly hfile hrenewed.keeps).renewed
        horderly hrenewed

/-- A build that succeeds reaches a fixed point. -/
theorem done_of_ok (project : Project) (options : BuildOptions) (executor : Executor)
    (choices : Nat → Nat) (cores : Nat) (before : Session) (hsources : project.isHeaderOnly = false)
    (hmakes : ∀ file ∈ project.sources, executor.Makes (project.compileCommand options.debug file)
      (project.objectOf file))
    (hfinish : executor.Makes (project.finishCommand options.debug) project.artifact) :
    let built := (project.build options executor choices cores).run before
    project.Orderly before.files built.2.files → (∃ summary, built.1 = .ok summary) →
      (∀ file ∈ project.sources, project.isStale built.2.files false file = false) ∧
      linkRequired built.2.files project.artifact (project.newestObject built.2.files)
        (libraryFiles built.2.files project.config project.root) false = false ∧
      ∀ (options' : BuildOptions) (executor' : Executor) (choices' : Nat → Nat) (cores' : Nat),
        options'.fullRebuild = false → options'.forceLinking = false →
        let again := (project.build options' executor' choices' cores').run built.2
        again.1 = .ok { status := .noChange, compiled := 0, linked := false } ∧
          again.2.files = built.2.files ∧ again.2.ran = built.2.ran := by
  rintro built horderly ⟨summary, hok⟩
  obtain ⟨deeds, compiled, finishing, hcourse, -⟩ :=
    project.exists_course options executor choices cores before hsources
  have hdone : project.Done built.2.files :=
    (show project.Course options executor before.files deeds compiled (.ok summary)
      built.2.files finishing from hok ▸ hcourse).done hmakes hfinish horderly
  exact ⟨hdone.fresh, hdone.linked, fun options' executor' choices' cores' hfull hforce ↦
    hdone.build hsources options' executor' choices' cores' hfull hforce⟩

/-- When a source has been compiled because of a newer header, nothing is left to do. -/
theorem done_of_newerHeader :
    let project := scan newerHeader ⟨"."⟩ (plainConfig [⟨"src"⟩]) "default"
    let built := (project.build {} .stamping Pool.firstChoices 1).run { files := newerHeader }
    project.isHeaderOnly = false ∧ project.Orderly newerHeader built.2.files ∧
      built.1 = .ok { status := .changed, compiled := 1, linked := true } ∧
      ∀ file ∈ project.sources, project.isStale built.2.files false file = false := by
  intro project built
  have hsources : project.isHeaderOnly = false := by decide +kernel
  obtain ⟨hbuilt, hheader, hsource, hdatabase, hobjects⟩ :
      built.1 = .ok { status := .changed, compiled := 1, linked := true } ∧
      built.2.files.stat ⟨"/src/a.h"⟩ = .ok (.file .empty false 30) ∧
      built.2.files.stat ⟨"/src/a.c"⟩ =
        .ok (.file (Text.Utf8.encode "#include \"a.h\"\n") false 10) ∧
      built.2.files.resolve true project.databasePath =
        .ok (.existing ⟨["compile_commands.json"]⟩) ∧
      ∀ object ∈ project.objects, built.2.files.resolve true object ≠
        .ok (.existing ⟨["compile_commands.json"]⟩) := by decide +kernel
  have horderly : project.Orderly newerHeader built.2.files := by
    constructor
    case nodes =>
      have hlocations : project.graph.locations = [⟨["src", "a.h"]⟩, ⟨["src", "a.c"]⟩] := by
        decide +kernel
      rw [Include.Graph.Undisturbed, hlocations, List.forall_mem_cons, List.forall_mem_singleton]
      exact ⟨⟨_, _, _, by decide +kernel, hheader⟩, ⟨_, _, _, by decide +kernel, hsource⟩⟩
    case sources =>
      have hleads : ∀ file ∈ project.sources,
          newerHeader.lead true file.path = .ok (.existing ⟨["src", "a.c"]⟩) := by decide +kernel
      exact fun file hfile ↦ ⟨_, hleads file hfile, by decide +kernel⟩
    case objects => decide +kernel
    case database =>
      intro object hobject l hl
      rw [hdatabase] at hl
      cases hl
      exact hobjects object hobject
    case links =>
      intro hlibrary
      exact absurd hlibrary (by decide +kernel)
  have hcareful : project.Careful false .stamping := careful_stamping (by decide) false _
  obtain ⟨hfresh, -, -⟩ := project.done_of_ok {} .stamping Pool.firstChoices 1
    { files := newerHeader } hsources hcareful.makes hcareful.finishes horderly ⟨_, hbuilt⟩
  exact ⟨hsources, horderly, hbuilt, hfresh⟩

/-! ### Work that is left -/

/-- The configuration of a library in which nothing else is set. -/
def plainLibrary : Config :=
  { plainConfig [⟨"src"⟩] with output := .staticLibrary }

/-- A store where the archive is a link to a folder, and the folder of the objects is a link to the
archive. -/
def linkedArchive : FileStore where
  entries := [(.root, .folder 0), (⟨["src"]⟩, .folder 0),
    (⟨["src", "a.c"]⟩, .file .empty false 10), (⟨["bin"]⟩, .folder 0),
    (⟨["bin", "libapp.a"]⟩, .link "../store"), (⟨["store"]⟩, .folder 15),
    (⟨["store", "a.o"]⟩, .file .empty false 20), (⟨["obj"]⟩, .folder 0),
    (⟨["obj", "default"]⟩, .folder 0), (⟨["obj", "default", "src"]⟩, .link "../../bin/libapp.a")]
  clock := 40

/-- A store where an object is a folder around the object of another source, and has a time that is
still to come. -/
def objectFolder : FileStore where
  entries := [(.root, .folder 0), (⟨["src"]⟩, .folder 0),
    (⟨["src", "a.c"]⟩, .file (Text.Utf8.encode "#include \"a.h\"\n") false 10),
    (⟨["src", "a.h"]⟩, .file .empty false 45), (⟨["src", "a.o"]⟩, .folder 0),
    (⟨["src", "a.o", "n"]⟩, .folder 0), (⟨["src", "a.o", "n", "b.c"]⟩, .file .empty false 10),
    (⟨["obj"]⟩, .folder 0), (⟨["obj", "default"]⟩, .folder 0),
    (⟨["obj", "default", "src"]⟩, .folder 0), (⟨["obj", "default", "src", "a.o"]⟩, .folder 50)]
  clock := 40

/-- A store where an object is a link to the compile database, and its source includes a header with
a time that is still to come. -/
def linkedDatabase : FileStore where
  entries := [(.root, .folder 0), (⟨["src"]⟩, .folder 0),
    (⟨["src", "a.c"]⟩, .file (Text.Utf8.encode "#include \"a.h\"\n") false 10),
    (⟨["src", "a.h"]⟩, .file .empty false 45), (⟨["obj"]⟩, .folder 0),
    (⟨["obj", "default"]⟩, .folder 0), (⟨["obj", "default", "src"]⟩, .folder 0),
    (⟨["obj", "default", "src", "a.o"]⟩, .link "../../../compile_commands.json")]
  clock := 40

/-- A store where a source includes the folder of its object. -/
def includedFolder : FileStore where
  entries := [(.root, .folder 0), (⟨["src"]⟩, .folder 0),
    (⟨["src", "a.c"]⟩, .file (Text.Utf8.encode "#include \"../obj/default/src\"\n") false 10),
    (⟨["src", "n"]⟩, .folder 0), (⟨["src", "n", "b.c"]⟩, .file .empty false 10),
    (⟨["obj"]⟩, .folder 0), (⟨["obj", "default"]⟩, .folder 0),
    (⟨["obj", "default", "src"]⟩, .folder 15),
    (⟨["obj", "default", "src", "a.o"]⟩, .file .empty false 20)]
  clock := 40

/-- A build that succeeds can leave a stale source although nothing that the source depends on is
written: its object can be lost with the archive, or be a folder, or the compile database. It can
also depend on a folder, which is changed by what is made in it. -/
theorem exists_isStale_of_ok :
    let project (s : FileStore) := scan s ⟨"."⟩ plainLibrary "default"
    let built (s : FileStore) :=
      ((project s).build {} .stamping Pool.firstChoices 1).run { files := s }
    let leavesWork (s : FileStore) : Prop :=
      (built s).1.toOption.isSome ∧
        ∃ file ∈ (project s).sources, (project s).isStale (built s).2.files false file = true
    ((∀ s ∈ [linkedArchive, objectFolder, linkedDatabase], leavesWork s ∧
        ∀ l ∈ (project s).graph.locations,
          s.isFolder l.path = false ∧ s.pathExists l.path = true ∧
            (built s).2.files.stat l.path = s.stat l.path) ∧
      leavesWork includedFolder ∧
        ∀ l ∈ (project includedFolder).graph.locations,
          includedFolder.pathExists l.path = true ∧
            (built includedFolder).2.files.pathExists l.path = true) ∧
      ∀ s, (project s).Careful false .stamping :=
  ⟨by decide +kernel, fun _ ↦ careful_stamping (show "g++" ≠ "ar" by decide) false _⟩

end Project

end Rebuild
