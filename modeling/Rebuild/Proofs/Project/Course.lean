import Rebuild.Proofs.Effect
import Rebuild.Proofs.Project.Pass
import Rebuild.Proofs.Project.Staleness

/-!
# The course of a build

What a build does to files and which commands it runs, whatever its executor does and in whatever
order its tasks are executed. Each task is a *deed*: the folder of its object is made, and if that
succeeds its command is run. When all deeds are done a build ends if one of them has failed. Otherwise
it writes the compile database and makes the artifact if it has to be made.
-/

namespace Rebuild

variable {executor : Executor} {s s' : FileStore}

/-! ### Tasks -/

/-- Makes the folder of the object of a task. -/
def Task.makeFolder (task : Task) (s : FileStore) : Except FileError Unit × FileStore :=
  match task.object.parent? with
  | some folder => s.createFolders folder
  | none => (.ok (), s)

/-- A task that has been executed. -/
structure Deed where
  /-- The task. -/
  task : Task
  /-- Why the folder of its object could not be made, if it could not. -/
  refusal? : Option FileError
  /-- What became of it. -/
  done : Completion
deriving DecidableEq, Repr

/-- The commands that executing a task has run. -/
def Deed.commands (deed : Deed) : List CommandLine :=
  if deed.refusal?.isNone then [deed.task.command] else []

theorem Deed.flatMap_commands (deeds : List Deed) : deeds.flatMap Deed.commands =
    (deeds.filter (·.refusal?.isNone)).map (·.task.command) := by
  induction deeds with
  | nil => rfl
  | cons deed deeds ih =>
    rw [List.flatMap_cons, ih, Deed.commands, List.filter_cons]
    split <;> rfl

/-- What becomes of a task whose object has no folder. -/
def Task.refused (task : Task) (e : FileError) : Completion where
  succeeded := false
  output := "cannot create object directory for " ++ task.object.text ++ ": " ++ e.message
  objectTime := none

/-- What becomes of a task whose command has been run. -/
def Task.completed (task : Task) (outcome : Outcome) (s : FileStore) : Completion where
  succeeded := outcome.success
  output := outcome.output
  objectTime := if outcome.success then s.modified? task.object else none

/-- What executing a task can come to. -/
inductive Executes (executor : Executor) (s : FileStore) : Deed → FileStore → Prop where
  /-- The folder of its object cannot be made. -/
  | refused {task : Task} {e : FileError} {made : FileStore}
      (hmake : task.makeFolder s = (.error e, made)) :
      Executes executor s ⟨task, some e, task.refused e⟩ made
  /-- Its command is run. -/
  | ran {task : Task} {made after : FileStore} {outcome : Outcome}
      (hmake : task.makeFolder s = (.ok (), made))
      (hran : (executor task.command).run made = (outcome, after)) :
      Executes executor s ⟨task, none, task.completed outcome after⟩ after

/-- What executing tasks one after the other can come to. -/
inductive ExecutesAll (executor : Executor) : FileStore → List Deed → FileStore → Prop where
  /-- There is no task. -/
  | nil {s : FileStore} : ExecutesAll executor s [] s
  /-- A task is executed, and then the others are. -/
  | cons {s s' s'' : FileStore} {deed : Deed} {deeds : List Deed}
      (hfirst : Executes executor s deed s') (hrest : ExecutesAll executor s' deeds s'') :
      ExecutesAll executor s (deed :: deeds) s''

namespace Session

theorem does_execute (executor : Executor) (task : Task) (s : FileStore) :
    Does (task.execute executor) s fun done s' commands ↦ ∃ deed : Deed,
      deed.task = task ∧ deed.done = done ∧ deed.commands = commands ∧
        Executes executor s deed s' := by
  unfold Task.execute
  extract_lets complete run
  have hrun (result : Except FileError Unit) (made : FileStore)
      (hmake : task.makeFolder s = (result, made)) :
      Does (run result) made fun done s' commands ↦ ∃ deed : Deed,
        deed.task = task ∧ deed.done = done ∧ deed.commands = commands ∧
          Executes executor s deed s' := by
    cases result with
    | error e =>
      refine .bind (.pure (.read fun session _ ↦ ?_))
      exact .pure ⟨⟨task, some e, task.refused e⟩, rfl, rfl, rfl, .refused hmake⟩
    | ok =>
      refine .bind (.execute (.read fun session hfiles ↦ ?_))
      refine .pure ⟨⟨task, none, _⟩, rfl, ?_, rfl, .ran hmake rfl⟩
      rw [Task.completed, hfiles]
      rfl
  split
  case h_1 folder hfolder =>
    exact .bind (.createFolders (hrun _ _ (by rw [Task.makeFolder, hfolder])))
  case h_2 hnone =>
    exact .bind (.pure (hrun (.ok ()) s (by rw [Task.makeFolder, hnone])))

theorem does_executeAll (executor : Executor) (tasks : List Task) (s : FileStore) :
    Does (tasks.mapM (Task.execute executor)) s fun dones s' commands ↦ ∃ deeds : List Deed,
      deeds.map Deed.task = tasks ∧ deeds.map Deed.done = dones ∧
        deeds.flatMap Deed.commands = commands ∧ ExecutesAll executor s deeds s' := by
  induction tasks generalizing s with
  | nil => exact .pure ⟨[], rfl, rfl, rfl, .nil⟩
  | cons task tasks ih =>
    rw [List.mapM_cons]
    refine .bind ((does_execute executor task s).imp ?_)
    rintro done s' commands ⟨deed, rfl, rfl, rfl, hfirst⟩
    refine .bind ((ih s').imp ?_)
    rintro dones s'' commands' ⟨deeds, rfl, rfl, rfl, hrest⟩
    refine .pure ⟨deed :: deeds, rfl, rfl, ?_, .cons hfirst hrest⟩
    rw [List.flatMap_cons, List.append_nil]

end Session

/-! ### The pass -/

/-- The tasks at all places in order are the tasks. -/
theorem filterMap_getElem?_range (tasks : List Task) :
    (List.range tasks.length).filterMap (tasks[·]?) = tasks := by
  simpa using filterMap_range_getElem? id tasks

/-- A pass has executed its tasks one after the other, in the order that its history tells. -/
theorem Pool.Finished.exists_deeds {tasks : List Task} {history : Pool.History} {pool : Pool}
    {before after : Session}
    (h : Pool.Finished (Task.execute executor) tasks before history pool after) :
    ∃ deeds : List Deed, deeds.map Deed.task = history.executed.filterMap (tasks[·]?) ∧
      ExecutesAll executor before.files deeds after.files ∧
      after.ran = before.ran ++ deeds.flatMap Deed.commands ∧
      pool.report = Report.ofCompletions (deeds.map Deed.done) := by
  obtain ⟨commands, hran, deeds, htasks, hdones, rfl, hall⟩ :=
    Session.does_executeAll executor (history.executed.filterMap (tasks[·]?)) before.files before rfl
  have hturn : (history.executed.filterMap (tasks[·]?)).mapM (Task.execute executor) =
    Pool.inTurn (Task.execute executor) tasks history.executed := rfl
  rw [hturn, h.answers] at hran hdones hall
  have hperm : (deeds.map Deed.done).Perm
      ((List.range tasks.length).filterMap pool.completion?) := by
    rw [hdones]
    exact h.executed.filterMap _
  refine ⟨deeds, htasks, hall, hran, ?_⟩
  rw [h.report, ← Report.foldl_record_eq, ← Report.foldl_record_eq, Report.foldl_record_perm hperm]

/-- All tasks have been executed. -/
theorem Pool.Finished.perm_executed {tasks : List Task} {history : Pool.History} {pool : Pool}
    {before after : Session}
    (h : Pool.Finished (Task.execute executor) tasks before history pool after) :
    (history.executed.filterMap (tasks[·]?)).Perm tasks :=
  (h.executed.filterMap _).trans (List.Perm.of_eq (filterMap_getElem?_range tasks))

/-! ### Making the artifact -/

namespace Project

variable {project : Project} {options : BuildOptions}

/-- Makes the folder of the artifact. -/
def makeRoom (project : Project) (s : FileStore) : Except BuildError Unit × FileStore :=
  match project.artifact.parent? with
  | none => (.ok (), s)
  | some folder =>
    match s.createFolders folder with
    | (.ok (), made) => (.ok (), made)
    | (.error e, made) => (.error (.files folder e), made)

/-- Removes a library that is there. -/
def clear (project : Project) (s : FileStore) : Except BuildError Unit × FileStore :=
  if project.config.isLibrary && s.pathExists project.artifact then
    match s.removeFile project.artifact with
    | .ok cleared => (.ok (), cleared)
    | .error e => (.error (.files project.artifact e), s)
  else (.ok (), s)

/-- Makes the folder of the artifact, and removes a library that is there. -/
def prepare (project : Project) (s : FileStore) : Except BuildError Unit × FileStore :=
  let room := project.makeRoom s
  match room.1 with
  | .ok () => project.clear room.2
  | .error e => (.error e, room.2)

theorem prepare_of_error {e : BuildError} {made : FileStore}
    (h : project.makeRoom s = (.error e, made)) : project.prepare s = (.error e, made) := by
  unfold prepare
  rw [h]

theorem prepare_of_ok {made : FileStore} (h : project.makeRoom s = (.ok (), made)) :
    project.prepare s = project.clear made := by
  unfold prepare
  rw [h]

/-- Where the compile database goes. -/
def databasePath (project : Project) : Path :=
  project.root.joinName databaseName

/-- The files when the compile database has been written, if there was anything to compile and it
can be written. -/
def withDatabase (project : Project) (debug : Bool) (tasks : List Task) (s : FileStore) : FileStore :=
  if tasks.isEmpty then s else (project.writeDatabase s debug).toOption.getD s

/-- What making the artifact can come to. -/
inductive Links (project : Project) (options : BuildOptions) (executor : Executor) (s : FileStore) :
    Except BuildError Unit → FileStore → List CommandLine → Prop where
  /-- There is no room for it. -/
  | unprepared {e : BuildError} {made : FileStore} (hprepare : project.prepare s = (.error e, made)) :
      Links project options executor s (.error e) made []
  /-- The command fails. -/
  | failed {made after : FileStore} {outcome : Outcome}
      (hprepare : project.prepare s = (.ok (), made))
      (hran : (executor (project.finishCommand options.debug)).run made = (outcome, after))
      (hfailed : outcome.success = false) :
      Links project options executor s (.error (.link project.artifact outcome.output)) after
        [project.finishCommand options.debug]
  /-- The command succeeds. -/
  | made {made after : FileStore} {outcome : Outcome}
      (hprepare : project.prepare s = (.ok (), made))
      (hran : (executor (project.finishCommand options.debug)).run made = (outcome, after))
      (hsucceeded : outcome.success = true) :
      Links project options executor s (.ok ()) after [project.finishCommand options.debug]

/-- What a build can come to when its tasks have been executed. -/
inductive Concludes (project : Project) (options : BuildOptions) (executor : Executor)
    (tasks : List Task) (report : Report) (s : FileStore) :
    Except BuildError BuildSummary → FileStore → List CommandLine → Prop where
  /-- A task has failed. -/
  | failed (hfailed : report.status = .failed) :
      Concludes project options executor tasks report s (.error (.compile report.failed)) s []
  /-- The artifact need not be made. -/
  | fresh (hstatus : report.status ≠ .failed)
      (hneeds : project.needsLinking (project.withDatabase options.debug tasks s) report
        options.forceLinking = false) :
      Concludes project options executor tasks report s
        (.ok { status := report.status, compiled := tasks.length })
        (project.withDatabase options.debug tasks s) []
  /-- The artifact has to be made. -/
  | linked {result : Except BuildError Unit} {s' : FileStore} {commands : List CommandLine}
      (hstatus : report.status ≠ .failed)
      (hneeds : project.needsLinking (project.withDatabase options.debug tasks s) report
        options.forceLinking = true)
      (hlinks : project.Links options executor (project.withDatabase options.debug tasks s)
        result s' commands) :
      Concludes project options executor tasks report s
        (result.map fun _ ↦ { status := report.status, compiled := tasks.length, linked := true })
        s' commands

end Project

namespace Session

variable {project : Project} {options : BuildOptions}

theorem does_finish (project : Project) (options : BuildOptions) (executor : Executor)
    (s : FileStore) :
    Does (project.finish options executor) s fun result s' commands ↦
      ∃ outcome, (executor (project.finishCommand options.debug)).run s = (outcome, s') ∧
        commands = [project.finishCommand options.debug] ∧
        result = if outcome.success then .ok () else .error (.link project.artifact outcome.output) := by
  unfold Project.finish
  refine .silent_if (.print _) (.silent (.styled _ _) fun _ ↦ .silent (.print _) fun _ ↦
    .bind (.execute ?_))
  generalize hran : (executor (project.finishCommand options.debug)).run s = ran
  split
  case isTrue hsuccess =>
    refine .pure ⟨ran.1, rfl, rfl, ?_⟩
    rw [if_pos hsuccess]
  case isFalse hsuccess =>
    refine .silent (.print _) fun _ ↦ .silent (.printHint _) fun _ ↦ .silent (.printMarked _ _ _)
      fun _ ↦ .pure ⟨ran.1, rfl, rfl, ?_⟩
    rw [if_neg hsuccess]

theorem does_makeArtifactFolder (project : Project) (s : FileStore) :
    Does project.makeArtifactFolder s fun result made commands ↦
      project.makeRoom s = (result, made) ∧ commands = [] := by
  unfold Project.makeArtifactFolder Project.makeRoom
  extract_lets done
  split
  case h_1 folder hfolder =>
    rw [hfolder]
    refine .bind (.createFolders ?_)
    rcases hmake : s.createFolders folder with ⟨_ | _, made⟩
    · exact .pure ⟨by simp only [hmake], rfl⟩
    · exact .pure ⟨by simp only [hmake], rfl⟩
  case h_2 hnone =>
    cases hfolder : project.artifact.parent? with
    | some folder => exact absurd hfolder (hnone folder)
    | none => exact .pure ⟨rfl, rfl⟩

theorem does_clearLibrary (project : Project) (s : FileStore) :
    Does (project.clearLibrary (s.pathExists project.artifact)) s fun result cleared commands ↦
      project.clear s = (result, cleared) ∧ commands = [] := by
  unfold Project.clearLibrary Project.clear
  extract_lets done
  split
  · refine .bind (.change ?_)
    cases s.removeFile project.artifact with
    | ok cleared => exact .pure ⟨rfl, rfl⟩
    | error e => exact .pure ⟨rfl, rfl⟩
  · exact .pure ⟨rfl, rfl⟩

theorem does_link (project : Project) (options : BuildOptions) (executor : Executor)
    (s : FileStore) :
    Does (project.link options executor) s (project.Links options executor s) := by
  unfold Project.link
  refine .bind ((does_makeArtifactFolder project s).imp ?_)
  rintro room made commands ⟨hroom, rfl⟩
  cases room with
  | error e =>
    exact .pure (.unprepared (Project.prepare_of_error hroom))
  | ok =>
    refine .read fun session hfiles ↦ ?_
    rw [hfiles]
    refine .bind ((does_clearLibrary project made).imp ?_)
    rintro result cleared commands ⟨hclear, rfl⟩
    have hprepare : project.prepare s = (result, cleared) :=
      (Project.prepare_of_ok hroom).trans hclear
    cases result with
    | error e => exact .pure (.unprepared hprepare)
    | ok =>
      refine (does_finish project options executor cleared).imp ?_
      rintro result after commands ⟨outcome, hran, rfl, rfl⟩
      split
      case isTrue hsuccess => exact .made hprepare hran hsuccess
      case isFalse hsuccess => exact .failed hprepare hran (Bool.eq_false_iff.2 hsuccess)

theorem does_relink (project : Project) (options : BuildOptions) (executor : Executor)
    (summary : BuildSummary) (needed : Bool) (s : FileStore) :
    Does (project.relink options executor summary needed) s fun result s' commands ↦
      (needed = false ∧ result = .ok summary ∧ s' = s ∧ commands = []) ∨
      (needed = true ∧ ∃ linked, project.Links options executor s linked s' commands ∧
        result = linked.map fun _ ↦ { summary with linked := true }) := by
  unfold Project.relink
  cases needed with
  | false =>
    rw [Bool.not_false, if_pos rfl]
    exact .silent_if (.printMarked _ _ _) (.pure (Or.inl ⟨rfl, rfl, rfl, rfl⟩))
  | true =>
    refine .bind ((does_link project options executor s).imp ?_)
    intro linked s' commands hlinks
    rw [← List.append_nil commands] at hlinks
    cases linked with
    | error e => exact .pure (Or.inr ⟨rfl, .error e, hlinks, rfl⟩)
    | ok =>
      exact .silent (.styled _ _) fun _ ↦ .silent (.print _) fun _ ↦
        .silent (fun _ ↦ ⟨_, rfl⟩) fun _ ↦ .pure (Or.inr ⟨rfl, .ok (), hlinks, rfl⟩)

theorem does_complete (project : Project) (options : BuildOptions) (executor : Executor)
    (tasks : List Task) (report : Report) (s : FileStore) :
    Does (project.complete options executor tasks report) s
      (project.Concludes options executor tasks report s) := by
  unfold Project.complete
  split
  case isTrue hstatus => exact .pure (.failed hstatus)
  case isFalse hstatus =>
    have hrest : Does (get >>= fun session : Session ↦ project.relink options executor
        { status := report.status, compiled := tasks.length }
        (project.needsLinking session.files report options.forceLinking))
        (project.withDatabase options.debug tasks s)
        (project.Concludes options executor tasks report s) := by
      refine .read fun session hfiles ↦ ?_
      rw [hfiles]
      refine (does_relink project options executor _ _ _).imp ?_
      intro result s' commands hresult
      rcases hresult with ⟨hneeds, rfl, rfl, rfl⟩ | ⟨hneeds, linked, hlinks, rfl⟩
      · exact .fresh hstatus hneeds
      · exact .linked hstatus hneeds hlinks
    rw [Project.withDatabase] at hrest
    split
    case isTrue htasks =>
      refine .bind (.change ?_)
      rw [if_neg (by simpa using htasks)] at hrest
      cases hwrite : project.writeDatabase s options.debug with
      | ok written =>
        rw [hwrite] at hrest
        exact hrest
      | error e =>
        rw [hwrite] at hrest
        exact hrest
    case isFalse htasks =>
      rwa [if_pos (by simpa using htasks)] at hrest

theorem does_conclude (project : Project) (options : BuildOptions) (executor : Executor)
    (tasks : List Task) (jobs : List Job) (report : Report) (s : FileStore) :
    Does (project.conclude options executor tasks jobs report) s
      (project.Concludes options executor tasks report s) := by
  unfold Project.conclude
  exact .silent_if (.printMarked _ _ _) (.silent (.forM_diagnostics _ _) fun _ ↦
    does_complete project options executor tasks report s)

end Session

/-! ### Builds -/

namespace Project

variable {project : Project} {options : BuildOptions}

/-- What a build begins with. -/
def opened (project : Project) (options : BuildOptions) (session : Session) : Session :=
  if options.verbose then (project.listFiles.run session).2 else session

theorem exists_opened (project : Project) (options : BuildOptions) (session : Session) :
    ∃ listed, project.opened options session =
      { session with printed := session.printed ++ listed } := by
  rw [opened]
  split
  · unfold listFiles
    dsimp only
    split
    · exact ⟨_, rfl⟩
    · exact ⟨[], by rw [List.append_nil]; rfl⟩
  · exact ⟨[], by rw [List.append_nil]⟩

theorem files_opened (project : Project) (options : BuildOptions) (session : Session) :
    (project.opened options session).files = session.files := by
  obtain ⟨listed, h⟩ := project.exists_opened options session
  rw [h]

/-- A build that has something to compile opens, executes its tasks, and concludes. -/
theorem run_build (project : Project) (options : BuildOptions) (executor : Executor)
    (choices : Nat → Nat) (cores : Nat) (session : Session) :
    (project.build options executor choices cores).run session =
      if project.isHeaderOnly then
        (Session.printDone "Header only library ready" >>= fun _ ↦
          pure (.ok { headerOnly := true })).run (project.opened options session)
      else
        let tasks := project.plan session.files options.fullRebuild options.debug
        let passed := (Pool.run (Task.execute executor) choices tasks (project.budget cores)).run
          (project.opened options session)
        (project.conclude options executor tasks passed.1.jobs passed.1.report).run passed.2 := by
  rw [← files_opened project options session, opened]
  unfold build
  split <;> split <;> rfl

/-- What a build that has something to compile does on the files `s`: it does `deeds`, which leaves
the files `compiled`, and comes to a result behind them, for which it runs the commands `finishing`. -/
structure Course (project : Project) (options : BuildOptions) (executor : Executor) (s : FileStore)
    (deeds : List Deed) (compiled : FileStore) (result : Except BuildError BuildSummary)
    (s' : FileStore) (finishing : List CommandLine) : Prop where
  /-- Every task of the plan is executed once. -/
  tasks : (deeds.map Deed.task).Perm (project.plan s options.fullRebuild options.debug)
  /-- They are executed one after the other. -/
  executes : ExecutesAll executor s deeds compiled
  /-- The build concludes from what has become of them. -/
  concludes : project.Concludes options executor
    (project.plan s options.fullRebuild options.debug)
    (Report.ofCompletions (deeds.map Deed.done)) compiled result s' finishing

/-- The deeds of a build are done for stale sources. -/
theorem Course.exists_source {deed : Deed} {deeds : List Deed} {compiled : FileStore}
    {result : Except BuildError BuildSummary} {finishing : List CommandLine}
    (h : project.Course options executor s deeds compiled result s' finishing)
    (hdeed : deed ∈ deeds) : ∃ file ∈ project.sources,
      project.isStale s options.fullRebuild file = true ∧
        deed.task = project.task options.debug file := by
  obtain ⟨file, hfile, htask⟩ := List.mem_map.1 (h.tasks.mem_iff.1 (List.mem_map_of_mem hdeed))
  obtain ⟨hsource, hstale⟩ := List.mem_filter.1 hfile
  exact ⟨file, hsource, hstale, htask.symm⟩

/-- The deeds of a build are done for objects. -/
theorem Course.object_mem {deed : Deed} {deeds : List Deed} {compiled : FileStore}
    {result : Except BuildError BuildSummary} {finishing : List CommandLine}
    (h : project.Course options executor s deeds compiled result s' finishing)
    (hdeed : deed ∈ deeds) : deed.task.object ∈ project.objects := by
  obtain ⟨file, hfile, -, htask⟩ := h.exists_source hdeed
  rw [htask]
  exact List.mem_map_of_mem hfile

/-- Every build that has something to compile takes such a course. If no two tasks can be on their way at
once, they are executed in order. -/
theorem exists_course_in_order (project : Project) (options : BuildOptions) (executor : Executor)
    (choices : Nat → Nat) (cores : Nat) (before : Session) (hsources : project.isHeaderOnly = false) :
    let built := (project.build options executor choices cores).run before
    ∃ deeds compiled finishing,
      project.Course options executor before.files deeds compiled built.1 built.2.files finishing ∧
      built.2.ran = before.ran ++ deeds.flatMap Deed.commands ++ finishing ∧
      (project.budget cores ≤ 1 →
        deeds.map Deed.task = project.plan before.files options.fullRebuild options.debug) := by
  intro built
  obtain ⟨listed, hopened⟩ := project.exists_opened options before
  set tasks := project.plan before.files options.fullRebuild options.debug
  set passed := (Pool.run (Task.execute executor) choices tasks (project.budget cores)).run
    (project.opened options before)
  have hbuilt : built = (project.conclude options executor tasks passed.1.jobs
      passed.1.report).run passed.2 := by
    refine (project.run_build options executor choices cores before).trans (if_neg ?_)
    rw [hsources]
    exact Bool.false_ne_true
  obtain ⟨history, hfinished, horder⟩ := Pool.finished_run (Task.execute executor) choices tasks
    (project.budget cores) (project.opened options before)
  obtain ⟨deeds, hdeeds, hall, hran, hreport⟩ := hfinished.exists_deeds
  obtain ⟨finishing, hran', hconcludes⟩ := Session.does_conclude project options executor tasks
    passed.1.jobs passed.1.report passed.2.files passed.2 rfl
  rw [← hbuilt] at hran' hconcludes
  rw [hreport] at hconcludes
  have hopenedRan : (project.opened options before).ran = before.ran := by rw [hopened]
  rw [project.files_opened options before] at hall
  rw [hopenedRan] at hran
  refine ⟨deeds, passed.2.files, finishing, ⟨?_, hall, hconcludes⟩, by rw [hran', hran], fun hone ↦ ?_⟩
  · rw [hdeeds]
    exact hfinished.perm_executed
  · rw [hdeeds, horder hone, filterMap_getElem?_range]

theorem exists_course (project : Project) (options : BuildOptions) (executor : Executor)
    (choices : Nat → Nat) (cores : Nat) (before : Session) (hsources : project.isHeaderOnly = false) :
    let built := (project.build options executor choices cores).run before
    ∃ deeds compiled finishing,
      project.Course options executor before.files deeds compiled built.1 built.2.files finishing ∧
      built.2.ran = before.ran ++ deeds.flatMap Deed.commands ++ finishing := by
  intro built
  obtain ⟨deeds, compiled, finishing, hcourse, hran, -⟩ :=
    project.exists_course_in_order options executor choices cores before hsources
  exact ⟨deeds, compiled, finishing, hcourse, hran⟩

end Project

/-! ### When the artifact has to be made -/

theorem max?_append (times others : List Time) :
    (times ++ others).max? = latest times.max? others.max? := by
  induction times with
  | nil => rfl
  | cons time times ih =>
    rw [List.cons_append, List.max?_cons, List.max?_cons, ih]
    cases times.max? <;> cases others.max? <;> simp [latest, max_assoc]

theorem foldl_latest (times : List (Option Time)) :
    times.foldl latest none = (times.filterMap id).max? := by
  induction times using List.reverseRecOn with
  | nil => rfl
  | append_singleton times time ih =>
    rw [List.foldl_append, ih, List.filterMap_append, max?_append]
    cases time with
    | none => rfl
    | some time => rfl

namespace Project

variable {project : Project} {options : BuildOptions}

/-- The artifact has to be made: this is asked for, or the artifact is not there, or the newest object
or a library is newer than it. Times of objects have also been `recorded` when they were made. -/
def LinkDue (project : Project) (force : Bool) (s : FileStore) (recorded : List Time) : Prop :=
  force = true ∨ s.modified? project.artifact = none ∨
    ∃ built, s.modified? project.artifact = some built ∧
      ((∃ newest, (project.objects.filterMap s.modified? ++ recorded).max? = some newest ∧
          built < newest) ∨
        ∃ p ∈ libraryPaths project.config project.root, s.pathExists p = true ∧
          ∃ time, s.modified? p = some time ∧ built < time)

theorem needsLinking_iff {dones : List Completion} {force : Bool} :
    project.needsLinking s (Report.ofCompletions dones) force = true ↔
      project.LinkDue force s (Report.objectTimes dones) := by
  have hnewest : latest (project.newestObject s) (Report.ofCompletions dones).latestObject =
      (project.objects.filterMap s.modified? ++ Report.objectTimes dones).max? := by
    rw [max?_append, newestObject, foldl_latest, List.filterMap_map]
    rfl
  rw [needsLinking, hnewest, linkRequired, LinkDue, Bool.or_eq_true]
  refine or_congr_right ?_
  cases s.modified? project.artifact with
  | none => simp
  | some built =>
    simp [libraryFiles, Option.any_eq_true]

/-- If there is no room for the artifact, this is a matter of files. -/
theorem exists_files_of_prepare {e : BuildError} {made : FileStore}
    (h : project.prepare s = (.error e, made)) : ∃ path error, e = .files path error := by
  unfold prepare at h
  dsimp only at h
  split at h
  · unfold clear at h
    split at h
    · split at h <;> cases h
      exact ⟨_, _, rfl⟩
    · cases h
  · rename_i hroom
    cases h
    unfold makeRoom at hroom
    split at hroom
    · cases hroom
    · split at hroom <;> cases hroom
      exact ⟨_, _, rfl⟩

/-- The worst of completions none of which is a failure. -/
theorem worst_of_succeeded {deeds : List Deed} (h : ∀ deed ∈ deeds, deed.done.succeeded = true) :
    Report.worst (deeds.map Deed.done) = if deeds = [] then .noChange else .changed := by
  have hnone : (deeds.map Deed.done).any (!·.succeeded) = false := by
    simpa using h
  rw [Report.worst, hnone, if_neg Bool.false_ne_true]
  cases deeds <;> rfl

theorem worst_ne_failed_iff {deeds : List Deed} :
    Report.worst (deeds.map Deed.done) ≠ .failed ↔
      ∀ deed ∈ deeds, deed.done.succeeded = true := by
  rw [Ne, Report.worst_eq_failed_iff]
  simp

/-- What a build runs behind its tasks, and why; `s` are the files when the compile database has been
written. -/
structure FinishesIfDue (project : Project) (options : BuildOptions) (executor : Executor)
    (deeds : List Deed) (s : FileStore) (result : Except BuildError BuildSummary) (s' : FileStore)
    (finishing : List CommandLine) : Prop where
  /-- It is nothing, or the command that makes the artifact of all objects. -/
  nothing_or_finish : finishing = [] ∨ finishing = [project.finishCommand options.debug]
  /-- The command is run if no task has failed, it is due, and there is room for the artifact. -/
  runs_iff : finishing ≠ [] ↔ (∀ deed ∈ deeds, deed.done.succeeded = true) ∧
    project.LinkDue options.forceLinking s (Report.objectTimes (deeds.map Deed.done)) ∧
    (project.prepare s).1 = .ok ()
  /-- If a task has failed, the build tells how many have. -/
  failed : (∃ deed ∈ deeds, deed.done.succeeded = false) →
    result = .error (.compile (deeds.countP (!·.done.succeeded)))
  /-- If the command is not due, the build is done. -/
  fresh : (∀ deed ∈ deeds, deed.done.succeeded = true) →
    ¬project.LinkDue options.forceLinking s (Report.objectTimes (deeds.map Deed.done)) →
    result = .ok
      { status := if deeds = [] then .noChange else .changed, compiled := deeds.length } ∧ s' = s
  /-- If there is no room for the artifact, the build tells what is wrong. -/
  unprepared : (∀ deed ∈ deeds, deed.done.succeeded = true) →
    project.LinkDue options.forceLinking s (Report.objectTimes (deeds.map Deed.done)) →
    ∀ e, (project.prepare s).1 = .error e →
      (∃ path error, e = .files path error) ∧ result = .error e ∧ s' = (project.prepare s).2
  /-- If it is run, it is run where there is room, and the build ends as it does. -/
  ran : finishing ≠ [] →
    let ran := (executor (project.finishCommand options.debug)).run (project.prepare s).2
    s' = ran.2 ∧ result =
      if ran.1.success then
        .ok { status := if deeds = [] then .noChange else .changed, compiled := deeds.length,
              linked := true }
      else .error (.link project.artifact ran.1.output)

namespace FinishesIfDue

variable {deeds : List Deed} {finishing : List CommandLine}

/-- Nothing is run behind a task that has failed. -/
theorem of_failed (hfails : ∃ deed ∈ deeds, deed.done.succeeded = false) :
    project.FinishesIfDue options executor deeds s
      (.error (.compile (deeds.countP (!·.done.succeeded)))) s' [] := by
  have hnot : ¬∀ deed ∈ deeds, deed.done.succeeded = true := by
    obtain ⟨deed, hdeed, hfails⟩ := hfails
    exact fun hall ↦ Bool.false_ne_true (hfails.symm.trans (hall deed hdeed))
  constructor
  case nothing_or_finish => exact Or.inl rfl
  case runs_iff => exact iff_of_false (fun hne ↦ hne rfl) fun hall ↦ hnot hall.1
  case failed => exact fun _ ↦ rfl
  case fresh => exact fun hall ↦ absurd hall hnot
  case unprepared => exact fun hall ↦ absurd hall hnot
  case ran => exact fun hne ↦ absurd rfl hne

/-- Nothing is run when the artifact need not be made. -/
theorem of_not_due (hall : ∀ deed ∈ deeds, deed.done.succeeded = true)
    (hnot : ¬project.LinkDue options.forceLinking s (Report.objectTimes (deeds.map Deed.done))) :
    project.FinishesIfDue options executor deeds s
      (.ok { status := if deeds = [] then .noChange else .changed, compiled := deeds.length }) s
      [] := by
  constructor
  case nothing_or_finish => exact Or.inl rfl
  case runs_iff => exact iff_of_false (fun hne ↦ hne rfl) fun hdue ↦ hnot hdue.2.1
  case failed =>
    rintro ⟨deed, hdeed, hfails⟩
    exact absurd (hfails.symm.trans (hall deed hdeed)) Bool.false_ne_true
  case fresh => exact fun _ _ ↦ ⟨rfl, rfl⟩
  case unprepared => exact fun _ hdue ↦ absurd hdue hnot
  case ran => exact fun hne ↦ absurd rfl hne

/-- The command is run when the artifact has to be made and there is room for it. -/
theorem of_links (hall : ∀ deed ∈ deeds, deed.done.succeeded = true)
    (hdue : project.LinkDue options.forceLinking s (Report.objectTimes (deeds.map Deed.done)))
    {result : Except BuildError Unit} (hlinks : project.Links options executor s result s' finishing) :
    project.FinishesIfDue options executor deeds s
      (result.map fun _ ↦ { status := if deeds = [] then .noChange else .changed,
                            compiled := deeds.length, linked := true }) s' finishing := by
  have hfailed {p : Prop} : (∃ deed ∈ deeds, deed.done.succeeded = false) → p := by
    rintro ⟨deed, hdeed, hfails⟩
    exact absurd (hfails.symm.trans (hall deed hdeed)) Bool.false_ne_true
  cases hlinks with
  | unprepared hprepare =>
    constructor
    case nothing_or_finish => exact Or.inl rfl
    case runs_iff =>
      refine iff_of_false (fun hne ↦ hne rfl) fun hruns ↦ ?_
      rw [hprepare] at hruns
      cases hruns.2.2
    case failed => exact hfailed
    case fresh => exact fun _ hnot ↦ absurd hdue hnot
    case unprepared =>
      intro _ _ e he
      rw [hprepare] at he ⊢
      cases he
      exact ⟨exists_files_of_prepare hprepare, rfl, rfl⟩
    case ran => exact fun hne ↦ absurd rfl hne
  | failed hprepare hran houtcome | made hprepare hran houtcome =>
    constructor
    case nothing_or_finish => exact Or.inr rfl
    case runs_iff => exact iff_of_true (by simp) ⟨hall, hdue, by rw [hprepare]⟩
    case failed => exact hfailed
    case fresh => exact fun _ hnot ↦ absurd hdue hnot
    case unprepared =>
      intro _ _ e he
      rw [hprepare] at he
      cases he
    case ran =>
      intro _
      simp only [hprepare, hran, houtcome, if_true, Bool.false_eq_true, if_false]
      exact ⟨trivial, rfl⟩

end FinishesIfDue

/-- A build runs behind its tasks what is due. -/
theorem Course.finishesIfDue {deeds : List Deed} {compiled : FileStore}
    {result : Except BuildError BuildSummary} {finishing : List CommandLine}
    (h : project.Course options executor s deeds compiled result s' finishing) :
    project.FinishesIfDue options executor deeds
      (project.withDatabase options.debug (project.plan s options.fullRebuild options.debug) compiled)
      result s' finishing := by
  have hlength : (project.plan s options.fullRebuild options.debug).length = deeds.length := by
    rw [← h.tasks.length_eq, List.length_map]
  have hworst (hall : ∀ deed ∈ deeds, deed.done.succeeded = true) :
      (Report.ofCompletions (deeds.map Deed.done)).status =
        if deeds = [] then .noChange else .changed := worst_of_succeeded hall
  have hcount : (Report.ofCompletions (deeds.map Deed.done)).failed =
      deeds.countP (!·.done.succeeded) := List.countP_map
  have hconcludes := h.concludes
  generalize project.plan s options.fullRebuild options.debug = tasks at hlength hconcludes ⊢
  cases hconcludes with
  | failed hfailed =>
    obtain ⟨done, hdone, hfails⟩ := Report.worst_eq_failed_iff.1 hfailed
    obtain ⟨deed, hdeed, rfl⟩ := List.mem_map.1 hdone
    rw [hcount]
    exact .of_failed ⟨deed, hdeed, hfails⟩
  | fresh hstatus hneeds =>
    have hall := worst_ne_failed_iff.1 hstatus
    rw [hlength, hworst hall]
    refine .of_not_due hall fun hdue ↦ ?_
    rw [needsLinking_iff.2 hdue] at hneeds
    cases hneeds
  | linked hstatus hneeds hlinks =>
    have hall := worst_ne_failed_iff.1 hstatus
    rw [hlength, hworst hall]
    exact .of_links hall (needsLinking_iff.1 hneeds) hlinks

/-- What a build runs: the command of each stale source, once, if the folder of its object can be
made, and then, when it is due, the command that makes the artifact. -/
theorem ran_build (project : Project) (options : BuildOptions) (executor : Executor)
    (choices : Nat → Nat) (cores : Nat) (before : Session) (hsources : project.isHeaderOnly = false) :
    let built := (project.build options executor choices cores).run before
    let tasks := (project.sources.filter (project.isStale before.files options.fullRebuild)).map
      (project.task options.debug)
    ∃ deeds compiled finishing,
      (deeds.map Deed.task).Perm tasks ∧
      ExecutesAll executor before.files deeds compiled ∧
      built.2.ran = before.ran ++ (deeds.filter (·.refusal?.isNone)).map (·.task.command) ++
        finishing ∧
      project.FinishesIfDue options executor deeds
        (project.withDatabase options.debug tasks compiled) built.1 built.2.files finishing := by
  intro built tasks
  obtain ⟨deeds, compiled, finishing, hcourse, hran⟩ :=
    project.exists_course options executor choices cores before hsources
  rw [Deed.flatMap_commands] at hran
  exact ⟨deeds, compiled, finishing, hcourse.tasks, hcourse.executes, hran, hcourse.finishesIfDue⟩

/-- A source that includes a newer header is compiled, and then nothing or the artifact is made. -/
theorem ran_build_of_newerHeader :
    let project := scan newerHeader ⟨"."⟩ (plainConfig [⟨"src"⟩]) "default"
    let executor : Executor := fun _ s ↦ ({ success := true }, s)
    let built := (project.build {} executor Pool.firstChoices 1).run { files := newerHeader }
    project.isHeaderOnly = false ∧ ∃ deeds s finishing,
      deeds.map Deed.task = [project.task false ⟨⟨"./src/a.c"⟩, ⟨"src/a.c"⟩, .source⟩] ∧
      built.2.ran = (deeds.filter (·.refusal?.isNone)).map (·.task.command) ++ finishing ∧
      project.FinishesIfDue {} executor deeds s built.1 built.2.files finishing := by
  intro project executor built
  have hsources : project.isHeaderOnly = false := by decide +kernel
  have hstale : (project.sources.filter (project.isStale newerHeader false)).map
      (project.task false) = [project.task false ⟨⟨"./src/a.c"⟩, ⟨"src/a.c"⟩, .source⟩] := by
    decide +kernel
  obtain ⟨deeds, compiled, finishing, htasks, -, hran, hfinishes⟩ :=
    ran_build project {} executor Pool.firstChoices 1 { files := newerHeader } hsources
  rw [hstale] at htasks
  exact ⟨hsources, deeds, _, finishing, List.perm_singleton.1 htasks, hran, hfinishes⟩

end Project

end Rebuild
