import Rebuild.Project.Build
import Rebuild.Proofs.FileStore.Product
import Rebuild.Proofs.Schedule.Safety

/-!
# What a compile pass leaves behind

A pass executes tasks in some order. When commands work by a *recipe*, so that what they answer and
what file they make depends on the command alone, and the objects have places that do not lie in each
other's way, then no task gets to see what another one has done. What becomes of each task, and what
is then found at every place, is known from the files as they were before the pass.
-/

namespace Rebuild

/-! ### Recipes -/

/-- What commands answer, and the file that each of them makes. -/
structure Recipe where
  /-- What comes of a command. -/
  answer : CommandLine → Outcome
  /-- The file that it makes, if it makes one. -/
  product : CommandLine → Option Product

namespace Recipe

/-- What is found at a place when the task of a command has been executed. If the way to the place
cannot be made, the command is not run. -/
def found (recipe : Recipe) (s : FileStore) (l : Location) (command : CommandLine) : Option Entry :=
  if s.obstacle l.parent = none then s.foundAfter l (recipe.product command) else s.find? l

/-- What becomes of a task. -/
def completion (recipe : Recipe) (place : Path → Location) (s : FileStore) (task : Task) :
    Completion :=
  match s.obstacle (place task.object).parent with
  | some e => {
      succeeded := false
      output := "cannot create object directory for " ++ task.object.text ++ ": " ++ e.message
      objectTime := none }
  | none =>
    let outcome := recipe.answer task.command
    { succeeded := outcome.success
      output := outcome.output
      objectTime :=
        if outcome.success then
          (recipe.found s (place task.object) task.command).bind Entry.modified?
        else none }

end Recipe

/-! ### Tasks that do not lie in each other's way -/

/-- Objects have places of their own, and none is on the way to another. -/
structure Apart (s : FileStore) (place : Path → Location) (objects : List Path) : Prop where
  /-- Each object has a place. -/
  placed : ∀ object ∈ objects, s.Placed object (place object)
  /-- No two objects have the same place. -/
  distinct : (objects.map place).Nodup
  /-- No object is in the way of an object. -/
  aside : ∀ object ∈ objects, ∀ other ∈ objects, place object ∉ (place other).parent.around

/-- Different tasks have different places. -/
theorem Apart.place_ne {s : FileStore} {place : Path → Location} {tasks : List Task}
    (h : Apart s place (tasks.map Task.object)) {task other : Task} (htask : task ∈ tasks)
    (hother : other ∈ tasks) (hne : task ≠ other) : place task.object ≠ place other.object := by
  have hdistinct := h.distinct
  rw [List.map_map] at hdistinct
  exact fun heq ↦ hne (List.inj_on_of_nodup_map hdistinct htask hother heq)

/-- An executor works by a recipe: it answers by the recipe, and makes the objects of tasks. -/
structure Executor.Obeys (executor : Executor) (recipe : Recipe) (place : Path → Location)
    (tasks : List Task) : Prop where
  /-- What comes of a command. -/
  answer : ∀ command s, ((executor command).run s).1 = recipe.answer command
  /-- What it does to the files. -/
  leaves : ∀ task ∈ tasks, ∀ s : FileStore, s.HasFolder (place task.object).parent →
    s.Leaves (place task.object) (recipe.product task.command) ((executor task.command).run s).2

theorem Executor.Obeys.of_subset {executor : Executor} {recipe : Recipe} {place : Path → Location}
    {tasks others : List Task} (h : executor.Obeys recipe place tasks) (hsub : others ⊆ tasks) :
    executor.Obeys recipe place others :=
  ⟨h.answer, fun task htask ↦ h.leaves task (hsub htask)⟩

/-- The executor that works by a recipe and makes files at the locations that commands name. -/
def Recipe.executor (recipe : Recipe) (target : CommandLine → Option Location) : Executor :=
  fun command s ↦
    (recipe.answer command,
      match target command with
      | some l => s.leave l (recipe.product command)
      | none => s)

theorem Recipe.obeys_executor {recipe : Recipe} {target : CommandLine → Option Location}
    {place : Path → Location} {tasks : List Task}
    (htarget : ∀ task ∈ tasks, target task.command = some (place task.object))
    (hne : ∀ task ∈ tasks, (place task.object).parent ≠ place task.object) :
    (recipe.executor target).Obeys recipe place tasks := by
  refine ⟨fun _ _ ↦ rfl, fun task htask s hfolder ↦ ?_⟩
  show s.Leaves _ _ (match target task.command with | some l => _ | none => _)
  rw [htarget task htask]
  exact FileStore.leaves_leave hfolder (hne task htask)

/-! ### Executing one task -/

section Execute

variable {executor : Executor} {task : Task} {session : Session} {folder : Path} {files : FileStore}

theorem Session.run_createFolders (session : Session) (p : Path) :
    (Session.createFolders p).run session =
      ((session.files.createFolders p).1,
        { session with files := (session.files.createFolders p).2 }) :=
  rfl

/-- A task fails if the folder of its object cannot be made. -/
theorem Task.run_execute_of_error {e : FileError} (hfolder : task.object.parent? = some folder)
    (hcreate : session.files.createFolders folder = (.error e, files)) :
    (task.execute executor).run session =
      ({ succeeded := false
         output := "cannot create object directory for " ++ task.object.text ++ ": " ++ e.message
         objectTime := none }, { session with files }) := by
  rw [Task.execute, hfolder]
  simp only [StateT.run_bind, Session.run_createFolders, hcreate]
  rfl

/-- Otherwise what becomes of it is what comes of its command. -/
theorem Task.run_execute_of_ok (hfolder : task.object.parent? = some folder)
    (hcreate : session.files.createFolders folder = (.ok (), files)) :
    (task.execute executor).run session =
      let ran := (executor task.command).run files
      ({ succeeded := ran.1.success
         output := ran.1.output
         objectTime := if ran.1.success then ran.2.modified? task.object else none },
       { session with files := ran.2, ran := session.ran ++ [task.command] }) := by
  rw [Task.execute, hfolder]
  simp only [StateT.run_bind, Session.run_createFolders, hcreate]
  rfl

end Execute

/-! ### Executing tasks -/

/-- What the files have come to when some of the tasks have been executed. -/
structure Passed (recipe : Recipe) (place : Path → Location) (before : FileStore)
    (tasks executed : List Task) (s : FileStore) : Prop where
  /-- Everything is in a folder and has a name. -/
  wellFormed : s.WellFormed
  /-- Relative paths begin in the same folder. -/
  current : s.current = before.current
  /-- What is at the places of executed tasks. -/
  found : ∀ task ∈ executed, s.find? (place task.object) =
    recipe.found before (place task.object) task.command
  /-- What is at the places of other tasks. -/
  waiting : ∀ task ∈ tasks, task ∉ executed →
    s.find? (place task.object) = before.find? (place task.object)
  /-- The ways to the places of executed tasks have been made. -/
  made : ∀ task ∈ executed, before.obstacle (place task.object).parent = none →
    ∀ x ∈ (place task.object).parent.around, s.HasFolder x
  /-- Everything else is as it was. -/
  kept : ∀ x, (∀ task ∈ tasks, x ≠ place task.object) →
    (∀ task ∈ executed, before.obstacle (place task.object).parent = none →
      x ∉ (place task.object).parent.around) → s.find? x = before.find? x

namespace Passed

open FileStore

variable {recipe : Recipe} {place : Path → Location} {before s : FileStore}
variable {tasks executed : List Task} {task : Task} {x : Location} {executor : Executor}

theorem start (hbefore : before.WellFormed) : Passed recipe place before tasks [] before :=
  ⟨hbefore, rfl, by simp, fun _ _ _ ↦ rfl, by simp, fun _ _ _ ↦ rfl⟩

/-- What is at a location that is no task's place: a folder on a way that has been made, or what was
there before. -/
theorem find?_cases (h : Passed recipe place before tasks executed s)
    (hx : ∀ task ∈ tasks, x ≠ place task.object) :
    s.find? x = before.find? x ∨ s.HasFolder x ∧ (before.find? x = none ∨ before.HasFolder x) := by
  by_cases hway : ∃ task ∈ executed, before.obstacle (place task.object).parent = none ∧
      x ∈ (place task.object).parent.around
  · obtain ⟨task, htask, hnone, hmem⟩ := hway
    exact Or.inr ⟨h.made task htask hnone x hmem, obstacle_eq_none_iff.1 hnone x hmem⟩
  · refine Or.inl (h.kept x hx fun task htask hnone hmem ↦ hway ⟨task, htask, hnone, hmem⟩)

section Apart

variable (h : Passed recipe place before tasks executed s) (hbefore : before.WellFormed)
variable (hapart : Apart before place (tasks.map Task.object)) (hsub : ∀ task ∈ executed, task ∈ tasks)

include hapart

theorem placed_before (htask : task ∈ tasks) :
    before.Placed task.object (place task.object) :=
  hapart.placed _ (List.mem_map_of_mem htask)

/-- What is on the way to a place is no place. -/
theorem ne_place (htask : task ∈ tasks) (hx : x ∈ (place task.object).parent.around) :
    ∀ other ∈ tasks, x ≠ place other.object := by
  rintro other hother rfl
  exact hapart.aside _ (List.mem_map_of_mem hother) _ (List.mem_map_of_mem htask) hx

include h hbefore

/-- No link comes up. -/
theorem no_link {target : String} (hx : s.find? x = some (.link target)) :
    before.find? x = some (.link target) := by
  by_cases hplace : ∃ task ∈ tasks, x = place task.object
  · obtain ⟨task, htask, rfl⟩ := hplace
    have hlink := (placed_before hapart htask).no_link hbefore (Location.self_mem_around _)
    exfalso
    by_cases hexecuted : task ∈ executed
    · rw [h.found task hexecuted, Recipe.found] at hx
      split at hx
      · exact foundAfter_ne_link hlink target hx
      · exact hlink target hx
    · rw [h.waiting task htask hexecuted] at hx
      exact hlink target hx
  · rcases h.find?_cases fun task htask heq ↦ hplace ⟨task, htask, heq⟩ with hkept | ⟨⟨time, hfolder⟩, -⟩
    · rwa [hkept] at hx
    · rw [hfolder] at hx
      cases hx

/-- What was there is there, and is of the same kind. -/
theorem keeps : before.Keeps s := by
  refine ⟨h.current, fun x kind hkind ↦ ?_⟩
  by_cases hplace : ∃ task ∈ tasks, x = place task.object
  · obtain ⟨task, htask, rfl⟩ := hplace
    have hlink := (placed_before hapart htask).no_link hbefore (Location.self_mem_around _)
    by_cases hexecuted : task ∈ executed
    · rw [kind?, h.found task hexecuted, Recipe.found]
      split
      · exact kind?_foundAfter hlink hkind
      · exact hkind
    · rwa [kind?, h.waiting task htask hexecuted]
  · rcases h.find?_cases fun task htask heq ↦ hplace ⟨task, htask, heq⟩ with hkept | ⟨hfolder, hwas⟩
    · rwa [kind?, hkept]
    · rcases hwas with hnone | hwas
      · rw [kind?, hnone] at hkind
        cases hkind
      · rw [hasFolder_iff_kind?] at hfolder hwas
        rw [← hkind, hfolder, hwas]

/-- Objects still have their places. -/
theorem placed (htask : task ∈ tasks) : s.Placed task.object (place task.object) := by
  have hplaced := placed_before hapart htask
  refine hplaced.of_keeps (h.keeps hbefore hapart) fun x hx target hlink ↦ ?_
  exact hplaced.no_link hbefore hx target (h.no_link hbefore hapart hlink)

omit hbefore in
/-- What is in the way to a place was in the way before the pass. -/
theorem obstacle_eq (htask : task ∈ tasks) :
    s.obstacle (place task.object).parent = before.obstacle (place task.object).parent := by
  refine obstacle_congr fun x hx ↦ ?_
  rcases h.find?_cases (ne_place hapart htask hx) with hkept | ⟨hfolder, hwas⟩
  · rw [bars, bars, hkept]
  · rw [bars_eq_false_iff.2 (Or.inr hfolder), bars_eq_false_iff.2 hwas]

end Apart

/-- What one more task does, if the way to its object cannot be made. -/
theorem of_obstacle (h : Passed recipe place before tasks executed s)
    (hnone : before.obstacle (place task.object).parent ≠ none)
    (hwaiting : s.find? (place task.object) = before.find? (place task.object)) :
    Passed recipe place before tasks (executed ++ [task]) s := by
  constructor
  case wellFormed => exact h.wellFormed
  case current => exact h.current
  case found =>
    intro other hother
    rcases List.mem_append.1 hother with hother | hother
    · exact h.found other hother
    · obtain rfl := List.mem_singleton.1 hother
      rw [Recipe.found, if_neg hnone, hwaiting]
  case waiting =>
    exact fun other hother hnot ↦
      h.waiting other hother fun hmem ↦ hnot (List.mem_append_left _ hmem)
  case made =>
    intro other hother hway
    rcases List.mem_append.1 hother with hother | hother
    · exact h.made other hother hway
    · obtain rfl := List.mem_singleton.1 hother
      exact absurd hway hnone
  case kept =>
    exact fun x hx hways ↦ h.kept x hx fun other hother ↦
      hways other (List.mem_append_left _ hother)

/-- What one more task does, if the way to its object is made. -/
theorem of_leaves {made after : FileStore} (h : Passed recipe place before tasks executed s)
    (hbefore : before.WellFormed) (hapart : Apart before place (tasks.map Task.object))
    (hsub : ∀ other ∈ executed, other ∈ tasks) (htask : task ∈ tasks) (hnew : task ∉ executed)
    (hmade : s.WayMade (place task.object).parent made)
    (hleaves : made.Leaves (place task.object) (recipe.product task.command) after)
    (hnone : before.obstacle (place task.object).parent = none) :
    Passed recipe place before tasks (executed ++ [task]) after := by
  have hplaced := h.placed hbefore hapart htask
  have hnames := hplaced.entryName h.wellFormed
  have hway : ∀ name ∈ (place task.object).parent.names, EntryName name := fun name hname ↦
    hnames name (List.mem_of_mem_dropLast hname)
  -- at a place nothing happens but at the task's own
  have hother {other : Task} (hmem : other ∈ tasks) (hne : task ≠ other) :
      after.find? (place other.object) = s.find? (place other.object) := by
    have haside : place other.object ∉ (place task.object).parent.around :=
      hapart.aside _ (List.mem_map_of_mem hmem) _ (List.mem_map_of_mem htask)
    rw [hleaves.kept _ (hapart.place_ne htask hmem hne).symm, hmade.find?_of_not_mem haside]
    rintro heq
    exact haside (heq ▸ Location.self_mem_around _)
  constructor
  case wellFormed =>
    exact hleaves.wellFormed (hmade.wellFormed h.wellFormed hway)
      (hmade.folder _ (Location.self_mem_around _)) hnames
  case current => rw [hleaves.current, hmade.current, h.current]
  case found =>
    intro other hmem
    rcases List.mem_append.1 hmem with hmem | hmem
    · rw [hother (hsub other hmem) (fun heq ↦ hnew (heq ▸ hmem)), h.found other hmem]
    · obtain rfl := List.mem_singleton.1 hmem
      have hfind : made.find? (place other.object) = before.find? (place other.object) := by
        rw [hmade.find?_of_not_mem hplaced.not_mem_around_parent, h.waiting other htask hnew]
      rw [hleaves.found, Recipe.found, if_pos hnone, foundAfter_congr hfind]
  case waiting =>
    intro other hmem hnot
    rw [List.mem_append, not_or, List.mem_singleton] at hnot
    rw [hother hmem (Ne.symm hnot.2), h.waiting other hmem hnot.1]
  case made =>
    intro other hmem hnone' x hx
    rcases List.mem_append.1 hmem with hmem | hmem
    · exact hleaves.hasFolder (hmade.keeps.hasFolder (h.made other hmem hnone' x hx))
    · obtain rfl := List.mem_singleton.1 hmem
      exact hleaves.hasFolder (hmade.folder x hx)
  case kept =>
    intro x hx hways
    have hout := hways task (by simp) hnone
    rw [hleaves.kept x (hx task htask), hmade.find?_of_not_mem hout]
    · exact h.kept x hx fun other hmem ↦ hways other (List.mem_append_left _ hmem)
    · rintro rfl
      exact hout (Location.self_mem_around _)

/-- Executing one more task: what becomes of it does not depend on what has been executed. -/
theorem execute {session : Session} (h : Passed recipe place before tasks executed session.files)
    (hbefore : before.WellFormed) (hapart : Apart before place (tasks.map Task.object))
    (hobeys : executor.Obeys recipe place tasks)
    (hsub : ∀ other ∈ executed, other ∈ tasks) (htask : task ∈ tasks) (hnew : task ∉ executed) :
    ∃ session', (task.execute executor).run session =
        (recipe.completion place before task, session') ∧
      Passed recipe place before tasks (executed ++ [task]) session'.files ∧
      session'.printed = session.printed ∧ session'.coloured = session.coloured := by
  have hplaced := h.placed hbefore hapart htask
  obtain ⟨folder, hfolder, hcreate⟩ := hplaced.createFolders h.wellFormed
  rw [h.obstacle_eq hapart htask] at hcreate
  cases hobstacle : before.obstacle (place task.object).parent with
  | some e =>
    rw [hobstacle] at hcreate
    refine ⟨session, ?_, h.of_obstacle (by simp [hobstacle]) (h.waiting task htask hnew), rfl, rfl⟩
    rw [Task.run_execute_of_error hfolder hcreate, Recipe.completion, hobstacle]
  | none =>
    rw [hobstacle] at hcreate
    obtain ⟨made, hmade, hcreate⟩ := hcreate
    have hleaves := hobeys.leaves task htask made (hmade.folder _ (Location.self_mem_around _))
    have hpassed := h.of_leaves hbefore hapart hsub htask hnew hmade hleaves hobstacle
    have htime := (hpassed.placed hbefore hapart htask).modified?_eq hpassed.wellFormed hleaves.folder
    rw [hpassed.found task (by simp)] at htime
    refine ⟨{ session with
      files := ((executor task.command).run made).2, ran := session.ran ++ [task.command] },
      ?_, hpassed, rfl, rfl⟩
    rw [Task.run_execute_of_ok hfolder hcreate, Recipe.completion, hobstacle]
    simp only [hobeys.answer, htime]

/-- The order in which tasks have been executed does not show. -/
theorem of_mem_iff {others : List Task} (h : Passed recipe place before tasks executed s)
    (hmem : ∀ task, task ∈ executed ↔ task ∈ others) :
    Passed recipe place before tasks others s := by
  constructor
  case wellFormed => exact h.wellFormed
  case current => exact h.current
  case found => exact fun task htask ↦ h.found task ((hmem task).2 htask)
  case waiting => exact fun task htask hnot ↦ h.waiting task htask fun hin ↦ hnot ((hmem task).1 hin)
  case made => exact fun task htask ↦ h.made task ((hmem task).2 htask)
  case kept => exact fun x hx hways ↦ h.kept x hx fun task htask ↦ hways task ((hmem task).1 htask)

/-- Executing tasks one after the other, in any order. -/
theorem inTurn {session : Session} (hbefore : session.files.WellFormed)
    (hapart : Apart session.files place (tasks.map Task.object))
    (hobeys : executor.Obeys recipe place tasks) {order : List Nat} (hnodup : order.Nodup)
    (hlt : ∀ i ∈ order, i < tasks.length) :
    ∃ session', (Pool.inTurn (Task.execute executor) tasks order).run session =
        (order.filterMap fun i ↦ tasks[i]?.map (recipe.completion place session.files), session') ∧
      Passed recipe place session.files tasks (order.filterMap (tasks[·]?)) session'.files ∧
      session'.printed = session.printed ∧ session'.coloured = session.coloured := by
  induction order using List.reverseRecOn with
  | nil => exact ⟨session, rfl, start hbefore, rfl, rfl⟩
  | append_singleton order i ih =>
    rw [List.nodup_append] at hnodup
    obtain ⟨session', hrun, hpassed, hprinted, hcoloured⟩ :=
      ih hnodup.1 fun j hj ↦ hlt j (List.mem_append_left _ hj)
    have hi := hlt i (by simp)
    have htask : tasks[i]? = some tasks[i] := List.getElem?_eq_getElem hi
    have hnew : tasks[i] ∉ order.filterMap (tasks[·]?) := by
      intro hmem
      obtain ⟨j, hj, heq⟩ := List.mem_filterMap.1 hmem
      have htasks : tasks.Nodup := by
        refine List.Nodup.of_map (place ∘ Task.object) ?_
        rw [← List.map_map]
        exact hapart.distinct
      obtain rfl : j = i := by
        rw [← htask] at heq
        exact (List.getElem?_inj (hlt j (List.mem_append_left _ hj)) htasks).1 heq
      exact hnodup.2.2 j hj j (by simp) rfl
    have hsub : ∀ other ∈ order.filterMap (tasks[·]?), other ∈ tasks := by
      intro other hother
      obtain ⟨j, -, heq⟩ := List.mem_filterMap.1 hother
      exact List.mem_of_getElem? heq
    obtain ⟨session'', hexecute, hpassed', hprinted', hcoloured'⟩ :=
      hpassed.execute hbefore hapart hobeys hsub (List.getElem_mem hi) hnew
    refine ⟨session'', ?_, ?_, hprinted'.trans hprinted, hcoloured'.trans hcoloured⟩
    · rw [Pool.inTurn_append_singleton htask hrun, hexecute, List.filterMap_append]
      simp [htask]
    · rw [List.filterMap_append]
      simpa [htask] using hpassed'

end Passed

/-! ### A whole pass -/

theorem filterMap_range_getElem? {α β : Type} (f : α → β) (xs : List α) :
    ((List.range xs.length).filterMap fun i ↦ xs[i]?.map f) = xs.map f := by
  induction xs using List.reverseRecOn with
  | nil => rfl
  | append_singleton xs x ih =>
    have hfirst : ((List.range xs.length).filterMap fun i ↦ (xs ++ [x])[i]?.map f) =
        (List.range xs.length).filterMap fun i ↦ xs[i]?.map f := by
      refine List.filterMap_congr fun i hi ↦ ?_
      rw [List.getElem?_append_left (List.mem_range.1 hi)]
    rw [List.length_append, List.length_singleton, List.range_succ, List.filterMap_append, hfirst,
      ih, List.map_append]
    simp

theorem eq_of_filterMap_eq {α β : Type} {f g : α → Option β} {xs : List α}
    (h : xs.filterMap f = xs.filterMap g) (hf : ∀ x ∈ xs, (f x).isSome)
    (hg : ∀ x ∈ xs, (g x).isSome) : ∀ x ∈ xs, f x = g x := by
  induction xs with
  | nil => simp
  | cons x xs ih =>
    obtain ⟨y, hy⟩ := Option.isSome_iff_exists.1 (hf x List.mem_cons_self)
    obtain ⟨z, hz⟩ := Option.isSome_iff_exists.1 (hg x List.mem_cons_self)
    rw [List.filterMap_cons_some hy, List.filterMap_cons_some hz, List.cons.injEq] at h
    intro x' hx'
    rcases List.mem_cons.1 hx' with rfl | hx'
    · rw [hy, hz, h.1]
    · exact ih h.2 (fun x hx ↦ hf x (List.mem_cons_of_mem _ hx))
        (fun x hx ↦ hg x (List.mem_cons_of_mem _ hx)) x' hx'

/-- What a pass comes to, in whatever order the tasks are executed. -/
structure PassEnds (recipe : Recipe) (place : Path → Location) (tasks : List Task)
    (before : Session) (pool : Pool) (after : Session) : Prop where
  /-- Every task has the state and output that the recipe gives it, in the order of the tasks. -/
  jobs : pool.jobs = tasks.map fun task ↦
    { task, phase := .collected (recipe.completion place before.files task) }
  /-- The report sums them up. -/
  report : pool.report =
    Report.ofCompletions (tasks.map (recipe.completion place before.files))
  /-- The files are as the recipe makes them. -/
  files : Passed recipe place before.files tasks tasks after.files
  /-- Nothing is printed. -/
  printed : after.printed = before.printed
  /-- Nothing changes in how things are printed. -/
  coloured : after.coloured = before.coloured

/-- Where every task has been collected with what the recipe says, the jobs are as the recipe makes
them. -/
theorem Pool.Finished.jobs_eq {recipe : Recipe} {place : Path → Location} {tasks : List Task}
    {executor : Executor} {history : Pool.History} {pool : Pool} {before after : Session}
    (h : Pool.Finished (Task.execute executor) tasks before history pool after)
    (hcompletion : ∀ i < tasks.length,
      pool.completion? i = tasks[i]?.map (recipe.completion place before.files)) :
    pool.jobs = tasks.map fun task ↦
      { task, phase := .collected (recipe.completion place before.files task) } := by
  have hlength : pool.jobs.length = tasks.length := by
    rw [← h.given, List.length_map]
  refine List.ext_getElem (by rw [hlength, List.length_map]) fun i hi _ ↦ ?_
  have hjob : pool.jobs[i]? = some pool.jobs[i] := List.getElem?_eq_getElem hi
  rw [hlength] at hi
  obtain ⟨done, hdone⟩ := h.collected i hi
  have hdones := hcompletion i hi
  rw [Pool.completion?, hdone, List.getElem?_eq_getElem hi] at hdones
  have htask : pool.jobs[i].task = tasks[i] := by
    simp only [← h.given, List.getElem_map]
  have hphase : pool.jobs[i].phase = .collected done := by
    rw [Pool.phase?, hjob] at hdone
    exact Option.some.inj hdone
  have hcollected : done = recipe.completion place before.files tasks[i] :=
    Option.some.inj hdones
  rw [List.getElem_map, ← hcollected, ← htask, ← hphase]

/-- Every run that has come to its end has come to this one. -/
theorem Pool.Finished.passEnds {recipe : Recipe} {place : Path → Location} {tasks : List Task}
    {executor : Executor} {history : Pool.History} {pool : Pool} {before after : Session}
    (h : Pool.Finished (Task.execute executor) tasks before history pool after)
    (hbefore : before.files.WellFormed)
    (hapart : Apart before.files place (tasks.map Task.object))
    (hobeys : executor.Obeys recipe place tasks) :
    PassEnds recipe place tasks before pool after := by
  have hmem : ∀ i, i ∈ history.executed ↔ i < tasks.length := fun i ↦ by
    rw [h.executed.mem_iff, List.mem_range]
  obtain ⟨session, hrun, hpassed, hprinted, hcoloured⟩ :=
    Passed.inTurn hbefore hapart hobeys (h.executed.nodup_iff.2 List.nodup_range)
      fun i hi ↦ (hmem i).1 hi
  -- the run has answered what the tasks answer when they are executed in turn
  have hanswers := h.answers
  rw [hrun, Prod.mk.injEq] at hanswers
  obtain ⟨hdones, rfl⟩ := hanswers
  have hcompletion : ∀ i < tasks.length,
      pool.completion? i = tasks[i]?.map (recipe.completion place before.files) := by
    intro i hi
    refine (eq_of_filterMap_eq hdones ?_ ?_ i ((hmem i).2 hi)).symm
    · intro j hj
      rw [List.getElem?_eq_getElem ((hmem j).1 hj)]
      rfl
    · intro j hj
      obtain ⟨done, hdone⟩ := h.collected j ((hmem j).1 hj)
      rw [Pool.completion?, hdone]
      rfl
  constructor
  case jobs => exact h.jobs_eq hcompletion
  case report =>
    rw [h.report, List.filterMap_congr fun i hi ↦ hcompletion i (List.mem_range.1 hi),
      filterMap_range_getElem?]
  case files =>
    refine hpassed.of_mem_iff fun task ↦ ?_
    rw [List.mem_filterMap]
    constructor
    · rintro ⟨i, -, hi⟩
      exact List.mem_of_getElem? hi
    · intro htask
      obtain ⟨i, hi⟩ := List.getElem?_of_mem htask
      exact ⟨i, (hmem i).2 (List.getElem?_eq_some_iff.1 hi).1, hi⟩
  case printed => exact hprinted
  case coloured => exact hcoloured

/-! ### What the report of a pass says -/

/-- Whether a task has succeeded. -/
def Job.succeeded (job : Job) : Bool :=
  job.phase.completion?.any (·.succeeded)

/-- What there is to say about a pass that is over, from its tasks and the files at its end. -/
structure Summed (tasks : List Task) (pool : Pool) (after : FileStore) : Prop where
  /-- The tasks are those that were given, in their order. -/
  given : pool.jobs.map Job.task = tasks
  /-- Every task has come to its end. -/
  collected : ∀ job ∈ pool.jobs, ∃ done, job.phase = .collected done
  /-- The pass has failed if a task has. -/
  failed_iff : pool.report.status = .failed ↔ ∃ job ∈ pool.jobs, job.succeeded = false
  /-- It has changed nothing if there was no task. -/
  noChange_iff : pool.report.status = .noChange ↔ tasks = []
  /-- How many tasks have succeeded. -/
  succeeded : pool.report.succeeded = pool.jobs.countP (·.succeeded)
  /-- How many have failed. -/
  failed : pool.report.failed = pool.jobs.countP (!·.succeeded)
  /-- The latest time of the objects of tasks that have succeeded, if they are there. -/
  latestObject : pool.report.latestObject =
    ((pool.jobs.filter (·.succeeded)).filterMap fun job ↦ after.modified? job.task.object).max?

namespace PassEnds

variable {recipe : Recipe} {place : Path → Location} {tasks : List Task} {before after : Session}
variable {pool : Pool}

/-- The time that a task gives for its object is the time that the object has in the end. -/
theorem objectTime_eq (h : PassEnds recipe place tasks before pool after)
    (hbefore : before.files.WellFormed)
    (hapart : Apart before.files place (tasks.map Task.object)) {task : Task} (htask : task ∈ tasks)
    (hsucceeded : (recipe.completion place before.files task).succeeded = true) :
    (recipe.completion place before.files task).objectTime = after.files.modified? task.object := by
  rw [Recipe.completion] at hsucceeded ⊢
  cases hobstacle : before.files.obstacle (place task.object).parent with
  | some e =>
    rw [hobstacle] at hsucceeded
    cases hsucceeded
  | none =>
    rw [hobstacle] at hsucceeded
    have hfolder := h.files.made task htask hobstacle _ (Location.self_mem_around _)
    have hplaced := h.files.placed hbefore hapart htask
    rw [hplaced.modified?_eq h.files.wellFormed hfolder, h.files.found task htask]
    exact if_pos hsucceeded

theorem summed (h : PassEnds recipe place tasks before pool after)
    (hbefore : before.files.WellFormed)
    (hapart : Apart before.files place (tasks.map Task.object)) :
    Summed tasks pool after.files := by
  have hsucceeded : (fun job : Job ↦ job.succeeded) ∘ (fun task ↦
      { task, phase := .collected (recipe.completion place before.files task) }) =
      fun task ↦ (recipe.completion place before.files task).succeeded := rfl
  constructor
  case given =>
    rw [h.jobs, List.map_map]
    exact List.map_id _
  case collected =>
    intro job hjob
    rw [h.jobs] at hjob
    obtain ⟨task, -, rfl⟩ := List.mem_map.1 hjob
    exact ⟨_, rfl⟩
  case failed_iff =>
    rw [h.report, h.jobs]
    refine Report.worst_eq_failed_iff.trans ?_
    simp only [List.mem_map, exists_exists_and_eq_and]
    rfl
  case noChange_iff =>
    rw [h.report]
    exact Report.worst_eq_noChange_iff.trans List.map_eq_nil_iff
  case succeeded =>
    rw [h.report, h.jobs, List.countP_map, hsucceeded]
    exact List.countP_map
  case failed =>
    rw [h.report, h.jobs, List.countP_map]
    exact List.countP_map
  case latestObject =>
    rw [h.report, h.jobs, List.filter_map, List.filterMap_map, hsucceeded]
    show (Report.objectTimes _).max? = _
    rw [Report.objectTimes, List.filter_map, List.filterMap_map]
    refine congrArg List.max? (List.filterMap_congr fun task htask ↦ ?_)
    obtain ⟨htask, hdone⟩ := List.mem_filter.1 htask
    exact h.objectTime_eq hbefore hapart htask hdone

end PassEnds

end Rebuild
