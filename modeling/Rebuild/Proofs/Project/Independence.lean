import Rebuild.Proofs.Project.Course
import Rebuild.Proofs.Project.Staleness

/-!
# A build does not depend on its schedule

The files that two runs of a compile pass leave behind differ in nothing but the times of some
folders, those on the ways to objects. A build reads the times of objects, of the artifact and of
libraries. If these are none of the folders, the runs are never told apart: the build comes to the
same result and prints the same, whatever the order in which its tasks were executed.
-/

namespace Rebuild

open FileStore

/-! ### Two passes -/

namespace Passed

variable {recipe : Recipe} {place : Path → Location} {before a b : FileStore}
variable {tasks executed : List Task} {x : Location}

/-- What is not on the way to an object is the same after any order. -/
theorem find?_eq (ha : Passed recipe place before tasks executed a)
    (hb : Passed recipe place before tasks executed b)
    (hall : ∀ task ∈ tasks, task ∈ executed)
    (hx : ∀ task ∈ executed, x ∉ (place task.object).parent.around) : a.find? x = b.find? x := by
  by_cases hplace : ∃ task ∈ tasks, x = place task.object
  · obtain ⟨task, htask, rfl⟩ := hplace
    rw [ha.found task (hall task htask), hb.found task (hall task htask)]
  · have hno : ∀ task ∈ tasks, x ≠ place task.object := fun task htask heq ↦
      hplace ⟨task, htask, heq⟩
    rw [ha.kept x hno fun task htask _ ↦ hx task htask,
      hb.kept x hno fun task htask _ ↦ hx task htask]

/-- Paths cannot tell the order of a pass. -/
theorem alike (ha : Passed recipe place before tasks executed a)
    (hb : Passed recipe place before tasks executed b)
    (hall : ∀ task ∈ tasks, task ∈ executed) : a.Alike b := by
  refine ⟨by rw [ha.current, hb.current], fun x ↦ ?_⟩
  by_cases hplace : ∃ task ∈ tasks, x = place task.object
  · obtain ⟨task, htask, rfl⟩ := hplace
    rw [kind?, kind?, ha.found task (hall task htask), hb.found task (hall task htask)]
  have hno : ∀ task ∈ tasks, x ≠ place task.object := fun task htask heq ↦
    hplace ⟨task, htask, heq⟩
  by_cases hway : ∃ task ∈ executed, before.obstacle (place task.object).parent = none ∧
      x ∈ (place task.object).parent.around
  · obtain ⟨task, htask, hnone, hmem⟩ := hway
    rw [hasFolder_iff_kind?.1 (ha.made task htask hnone x hmem),
      hasFolder_iff_kind?.1 (hb.made task htask hnone x hmem)]
  · have hnot : ∀ task ∈ executed, before.obstacle (place task.object).parent = none →
        x ∉ (place task.object).parent.around := fun task htask hnone hmem ↦
      hway ⟨task, htask, hnone, hmem⟩
    rw [kind?, kind?, ha.kept x hno hnot, hb.kept x hno hnot]

end Passed

/-! ### Files that a build cannot tell apart -/

/-- The files `a` and `b` are what `before` has become, and differ at most at `unsettled`
locations, and there in nothing but times. -/
structure Tied (before : FileStore) (unsettled : Location → Prop) (a b : FileStore) : Prop where
  /-- Paths cannot tell the files apart. -/
  alike : a.Alike b
  /-- Settled locations are the same. -/
  same : ∀ x, ¬unsettled x → a.find? x = b.find? x
  /-- What was there is there, and is of the same kind. -/
  keeps : before.Keeps a ∧ before.Keeps b
  /-- No link has come. -/
  no_link : ∀ x target, a.find? x = some (.link target) ∨ b.find? x = some (.link target) →
    before.find? x = some (.link target)
  /-- Everything is in a folder and has a name. -/
  wellFormed : a.WellFormed ∧ b.WellFormed

/-- A path leads to a settled location, now or when all on the way has been made. -/
def Settled (before : FileStore) (unsettled : Location → Prop) (p : Path) : Prop :=
  ∃ l, ¬unsettled l ∧ (before.Placed p l ∨ before.lead true p = .ok (.existing l))

namespace Tied

variable {before a b a' b' : FileStore} {unsettled : Location → Prop} {p : Path} {l : Location}

theorem placed (h : Tied before unsettled a b) (hbefore : before.WellFormed)
    (hp : before.Placed p l) : a.Placed p l ∧ b.Placed p l :=
  ⟨hp.of_keeps h.keeps.1 fun x hx target hlink ↦
      hp.no_link hbefore hx target (h.no_link x target (Or.inl hlink)),
    hp.of_keeps h.keeps.2 fun x hx target hlink ↦
      hp.no_link hbefore hx target (h.no_link x target (Or.inr hlink))⟩

/-- The time of something settled is the same. -/
theorem modified?_eq (h : Tied before unsettled a b) (hbefore : before.WellFormed)
    (hp : Settled before unsettled p) : a.modified? p = b.modified? p := by
  obtain ⟨l, hl, hp⟩ := hp
  refine h.alike.modified?_eq fun x hx ↦ ?_
  suffices hxl : x = l from hxl ▸ h.same l hl
  rcases hp with hp | hp
  · exact (h.placed hbefore hp).1.eq_of_resolve h.wellFormed.1 hx
  · have hlead := lead_of_resolve hx
    rw [h.keeps.1.lead_eq hp] at hlead
    cases hlead
    rfl

/-- Files that are tied stay so when a file is made at the same place of both. -/
theorem of_leaves (h : Tied before unsettled a b) {product product' : Option Product}
    (halike : a'.Alike b') (ha : a.Leaves l product a') (hb : b.Leaves l product' b')
    (hfolder : a.HasFolder l.parent) (hbefore : before.WellFormed) (hp : before.Placed p l)
    (hl : unsettled l) (hparent : unsettled l.parent) : Tied before unsettled a' b' := by
  obtain ⟨hpa, hpb⟩ := h.placed hbefore hp
  have hlinka := hpa.no_link h.wellFormed.1 (Location.self_mem_around l)
  have hlinkb := hpb.no_link h.wellFormed.2 (Location.self_mem_around l)
  have hfolderb : b.HasFolder l.parent := h.alike.hasFolder_iff.1 hfolder
  constructor
  case alike => exact halike
  case same =>
    intro x hx
    have hne : x ≠ l := fun heq ↦ hx (heq ▸ hl)
    have hne' : x ≠ l.parent := fun heq ↦ hx (heq ▸ hparent)
    rw [ha.kept x hne hne', hb.kept x hne hne', h.same x hx]
  case keeps =>
    exact ⟨h.keeps.1.trans (ha.keeps hfolder hlinka), h.keeps.2.trans (hb.keeps hfolderb hlinkb)⟩
  case no_link =>
    rintro x target (hx | hx)
    · exact h.no_link x target (Or.inl (ha.no_link hlinka hx))
    · exact h.no_link x target (Or.inr (hb.no_link hlinkb hx))
  case wellFormed =>
    exact ⟨ha.wellFormed h.wellFormed.1 hfolder (hpa.entryName h.wellFormed.1),
      hb.wellFormed h.wellFormed.2 hfolderb (hpb.entryName h.wellFormed.2)⟩

/-- Writing to an unsettled place keeps files tied. -/
theorem writeText (h : Tied before unsettled a b) (hbefore : before.WellFormed)
    (hp : before.Placed p l) (hl : unsettled l) (hparent : unsettled l.parent) (text : String) :
    Agree (Tied before unsettled) (a.writeText p text) (b.writeText p text) := by
  obtain ⟨hpa, hpb⟩ := h.placed hbefore hp
  have hagree := h.alike.writeBytes p (Text.Utf8.encode text) false
  rw [FileStore.writeText, FileStore.writeText]
  generalize ha : a.writeBytes p (Text.Utf8.encode text) = done,
    hb : b.writeBytes p (Text.Utf8.encode text) = done' at hagree
  cases hagree with
  | error e => exact .error e
  | ok halike =>
    obtain ⟨hfolder, product, hleaves⟩ := hpa.leaves_of_writeBytes h.wellFormed.1 ha
    obtain ⟨-, product', hleaves'⟩ := hpb.leaves_of_writeBytes h.wellFormed.2 hb
    exact .ok (h.of_leaves halike hleaves hleaves' hfolder hbefore hp hl hparent)

end Tied

/-! ### Builds -/

namespace Project

variable {project : Project} {place : Path → Location} {before a b : FileStore}

/-- The locations at which a build leaves times that say something about the order of its steps:
those on the ways to objects, and where the compile database goes. -/
def Unsettled (project : Project) (place : Path → Location) (x : Location) : Prop :=
  (∃ object ∈ project.objects, x ∈ (place object).parent.around) ∨
    x = place project.databasePath ∨ x = (place project.databasePath).parent

/-- Objects do not lie in each other's way, and nothing else that the build looks at is on the way
to an object. -/
structure LaidOut (project : Project) (s : FileStore) (place : Path → Location) : Prop where
  /-- Objects have places of their own. -/
  apart : Apart s place project.objects
  /-- So does the compile database. -/
  database : s.Placed project.databasePath (place project.databasePath)
  /-- The places of objects are settled. -/
  settled : ∀ object ∈ project.objects, ¬project.Unsettled place (place object)
  /-- The artifact is. -/
  artifact : Settled s (project.Unsettled place) project.artifact
  /-- Libraries are. -/
  libraries : ∀ p ∈ libraryPaths project.config project.root,
    Settled s (project.Unsettled place) p

theorem needsLinking_eq (hlaid : project.LaidOut before place) (hbefore : before.WellFormed)
    (h : Tied before (project.Unsettled place) a b) (report : Report) (force : Bool) :
    project.needsLinking a report force = project.needsLinking b report force := by
  have hobjects : project.objects.map a.modified? = project.objects.map b.modified? :=
    List.map_congr_left fun object hobject ↦ h.modified?_eq hbefore
      ⟨place object, hlaid.settled object hobject, Or.inl (hlaid.apart.placed object hobject)⟩
  have hlibraries : libraryFiles a project.config project.root =
      libraryFiles b project.config project.root :=
    List.filter_congr fun p _ ↦ h.alike.pathExists_eq p
  have hany : (libraryFiles b project.config project.root).map a.modified? =
      (libraryFiles b project.config project.root).map b.modified? :=
    List.map_congr_left fun p hp ↦ h.modified?_eq hbefore
      (hlaid.libraries p (List.mem_filter.1 hp).1)
  rw [needsLinking, needsLinking, newestObject, newestObject, hobjects, linkRequired, linkRequired,
    hlibraries, h.modified?_eq hbefore hlaid.artifact]
  cases b.modified? project.artifact with
  | none => rfl
  | some built =>
    have hlater : (libraryFiles b project.config project.root).any
          (fun p ↦ (a.modified? p).any (built < ·)) =
        (libraryFiles b project.config project.root).any
          fun p ↦ (b.modified? p).any (built < ·) := by
      have := congrArg (fun times ↦ times.any fun time ↦ time.any (built < ·)) hany
      simpa only [List.any_map, Function.comp_def] using this
    simp only [hlater]

theorem writeDatabase_agree (hlaid : project.LaidOut before place) (hbefore : before.WellFormed)
    (h : Tied before (project.Unsettled place) a b) (debug : Bool) :
    Agree (Tied before (project.Unsettled place)) (project.writeDatabase a debug)
      (project.writeDatabase b debug) :=
  h.writeText hbefore hlaid.database (Or.inr (Or.inl rfl)) (Or.inr (Or.inr rfl)) _

/-! ### Two builds -/

variable {options : BuildOptions} {executor : Executor} {recipe : Recipe} {tasks : List Task}

/-- Some of the objects do not lie in each other's way either. -/
theorem LaidOut.apart_plan (hlaid : project.LaidOut before place) (s : FileStore)
    (all debug : Bool) : Apart before place ((project.plan s all debug).map Task.object) := by
  have hsub : ((project.plan s all debug).map Task.object).Sublist project.objects := by
    rw [plan, List.map_map]
    exact List.filter_sublist.map _
  constructor
  case placed => exact fun object hobject ↦ hlaid.apart.placed object (hsub.subset hobject)
  case distinct => exact hlaid.apart.distinct.sublist (hsub.map place)
  case aside =>
    exact fun object hobject other hother ↦
      hlaid.apart.aside object (hsub.subset hobject) other (hsub.subset hother)

/-- The files that two passes leave behind are tied. -/
theorem LaidOut.tied (hlaid : project.LaidOut before place) (hbefore : before.WellFormed)
    {s : FileStore} {all debug : Bool}
    (ha : Passed recipe place before (project.plan s all debug) (project.plan s all debug) a)
    (hb : Passed recipe place before (project.plan s all debug) (project.plan s all debug) b) :
    Tied before (project.Unsettled place) a b := by
  have hapart := hlaid.apart_plan s all debug
  constructor
  case alike => exact ha.alike hb fun _ htask ↦ htask
  case same =>
    refine fun x hx ↦ ha.find?_eq hb (fun _ htask ↦ htask) fun task htask hmem ↦ hx (Or.inl ?_)
    obtain ⟨file, hfile, rfl⟩ := List.mem_map.1 htask
    exact ⟨_, List.mem_map_of_mem (List.mem_filter.1 hfile).1, hmem⟩
  case keeps => exact ⟨ha.keeps hbefore hapart, hb.keeps hbefore hapart⟩
  case no_link =>
    rintro x target (hx | hx)
    · exact ha.no_link hbefore hapart hx
    · exact hb.no_link hbefore hapart hx
  case wellFormed => exact ⟨ha.wellFormed, hb.wellFormed⟩

/-- Tied files conclude a build in the same way. -/
theorem LaidOut.uniform_complete (hlaid : project.LaidOut before place)
    (hbefore : before.WellFormed) (tasks : List Task) (report : Report)
    (h : ∀ command s, ((executor command).run s).1 = recipe.answer command) :
    Session.Uniform (Tied before (project.Unsettled place)) (fun _ _ ↦ True)
      (project.complete options executor tasks report) :=
  .complete tasks h (fun _ _ htied ↦ htied.alike)
    (fun _ _ htied ↦ writeDatabase_agree hlaid hbefore htied options.debug)
    fun _ _ htied ↦ needsLinking_eq hlaid hbefore htied report options.forceLinking

/-- What a pass of a build comes to. -/
theorem LaidOut.passEnds {session : Session} (hlaid : project.LaidOut session.files place)
    (hfiles : session.files.WellFormed)
    (hobeys : executor.Obeys recipe place (project.sources.map (project.task options.debug)))
    (choices : Nat → Nat) (budget : Nat) :
    let tasks := project.plan session.files options.fullRebuild options.debug
    let passed := (Pool.run (Task.execute executor) choices tasks budget).run
      (project.opened options session)
    PassEnds recipe place tasks (project.opened options session) passed.1 passed.2 := by
  intro tasks passed
  obtain ⟨history, hfinished, -⟩ := Pool.finished_run (Task.execute executor) choices tasks budget
    (project.opened options session)
  have hopened := project.files_opened options session
  refine hfinished.passEnds (hopened ▸ hfiles) (hopened ▸ hlaid.apart_plan ..) ?_
  refine hobeys.of_subset fun task htask ↦ ?_
  obtain ⟨file, hfile, rfl⟩ := List.mem_map.1 htask
  exact List.mem_map_of_mem (List.mem_filter.1 hfile).1

/-- Two builds that differ in their schedules alone come to the same result and print the same. -/
theorem LaidOut.build_eq {session : Session} (hlaid : project.LaidOut session.files place)
    (hfiles : session.files.WellFormed)
    (hobeys : executor.Obeys recipe place (project.sources.map (project.task options.debug)))
    (choices choices' : Nat → Nat) (cores cores' : Nat) :
    let built := (project.build options executor choices cores).run session
    let built' := (project.build options executor choices' cores').run session
    built.1 = built'.1 ∧ built.2.printed = built'.2.printed := by
  intro built built'
  have hopened := project.files_opened options session
  have hends := hlaid.passEnds hfiles hobeys choices (project.budget cores)
  have hends' := hlaid.passEnds hfiles hobeys choices' (project.budget cores')
  simp only [built, built', run_build]
  split
  · exact ⟨rfl, rfl⟩
  simp only at hends hends' ⊢
  generalize (Pool.run (Task.execute executor) choices _ (project.budget cores)).run
    (project.opened options session) = passed at hends ⊢
  generalize (Pool.run (Task.execute executor) choices' _ (project.budget cores')).run
    (project.opened options session) = passed' at hends' ⊢
  rw [hends.jobs, hends'.jobs, hends.report, hends'.report]
  have htied := hlaid.tied hfiles (hopened ▸ hends.files) (hopened ▸ hends'.files)
  have hshows : passed.2.Shows (Tied session.files (project.Unsettled place)) passed'.2 :=
    ⟨htied, hends.coloured.trans hends'.coloured.symm, hends.printed.trans hends'.printed.symm⟩
  set jobs := (project.plan session.files options.fullRebuild options.debug).map fun task ↦
    Job.mk task (.collected (recipe.completion place (project.opened options session).files task))
  have huniform : ∀ tasks report,
      Session.Uniform (Tied session.files (project.Unsettled place)) (fun _ _ ↦ True)
        (project.conclude options executor tasks jobs report) := fun tasks report ↦
    .conclude jobs (hlaid.uniform_complete hfiles tasks report hobeys.answer)
  obtain ⟨hresult, hafter⟩ := (huniform _ _).same _ _ hshows
  exact ⟨hresult, hafter.printed⟩

/-- A build prints the diagnostics of its tasks in their order. -/
theorem LaidOut.exists_printed_build {session : Session}
    (hlaid : project.LaidOut session.files place) (hfiles : session.files.WellFormed)
    (hobeys : executor.Obeys recipe place (project.sources.map (project.task options.debug)))
    (choices : Nat → Nat) (cores : Nat) (hsources : project.isHeaderOnly = false) :
    ∃ earlier later,
      ((project.build options executor choices cores).run session).2.printed = earlier ++
        (project.plan session.files options.fullRebuild options.debug).flatMap (fun task ↦
          Session.diagnosed session.coloured options.showWarnings
            { task, phase := .collected (recipe.completion place session.files task) }) ++
        later := by
  have hends := hlaid.passEnds hfiles hobeys choices (project.budget cores)
  obtain ⟨listed, hopened⟩ := project.exists_opened options session
  rw [run_build, hsources]
  simp only [Bool.false_eq_true, if_false] at hends ⊢
  rw [hopened] at hends ⊢
  obtain ⟨earlier, later, hprinted⟩ := Session.exists_printed_conclude project options
    (project.plan session.files options.fullRebuild options.debug) _ _ hobeys.answer _
  refine ⟨earlier, later, hprinted.trans ?_⟩
  rw [hends.jobs, hends.coloured, List.flatMap_map]

end Project

/-- Two runs of a pass over the same tasks have come to the same end, and their reports say what
there is to say about it. -/
structure SamePass (tasks : List Task) (pool pool' : Pool) (after after' : Session) : Prop where
  /-- Every task has the same state and output. -/
  jobs : pool.jobs = pool'.jobs
  /-- The reports are the same. -/
  report : pool.report = pool'.report
  /-- The one says what has become of the tasks. -/
  summed : Summed tasks pool after.files
  /-- So does the other. -/
  summed' : Summed tasks pool' after'.files

/-- The order in which tasks are executed, the number of slots, and the order in which completions
arrive make no difference to what a pass, or a build, comes to. -/
theorem outcome_eq (executor : Executor) (recipe : Recipe) (place : Path → Location) :
    (∀ tasks (before : Session), before.files.WellFormed →
      Apart before.files place (tasks.map Task.object) → executor.Obeys recipe place tasks →
      ∀ budget budget' history history' pool pool' after after',
        Pool.Reaches (Task.execute executor) tasks budget before history pool after →
        pool.isOver = true →
        Pool.Reaches (Task.execute executor) tasks budget' before history' pool' after' →
        pool'.isOver = true → SamePass tasks pool pool' after after') ∧
    (∀ (project : Project) (options : BuildOptions) (before : Session), before.files.WellFormed →
      project.LaidOut before.files place →
      executor.Obeys recipe place (project.sources.map (project.task options.debug)) →
      ∀ choices choices' cores cores',
        let built := (project.build options executor choices cores).run before
        let built' := (project.build options executor choices' cores').run before
        built.1 = built'.1 ∧ built.2.printed = built'.2.printed ∧
          (project.isHeaderOnly = false → ∃ earlier later, built.2.printed = earlier ++
            (project.plan before.files options.fullRebuild options.debug).flatMap (fun task ↦
              Session.diagnosed before.coloured options.showWarnings
                { task, phase := .collected (recipe.completion place before.files task) }) ++
            later)) := by
  constructor
  · intro tasks before hbefore hapart hobeys budget budget' history history' pool pool' after after'
      hreach hend hreach' hend'
    have hends := (hreach.finished hend).passEnds hbefore hapart hobeys
    have hends' := (hreach'.finished hend').passEnds hbefore hapart hobeys
    exact ⟨hends.jobs.trans hends'.jobs.symm, hends.report.trans hends'.report.symm,
      hends.summed hbefore hapart, hends'.summed hbefore hapart⟩
  · intro project options before hbefore hlaid hobeys choices choices' cores cores' built built'
    obtain ⟨hresult, hprinted⟩ := hlaid.build_eq hbefore hobeys choices choices' cores cores'
    exact ⟨hresult, hprinted, hlaid.exists_printed_build hbefore hobeys choices cores⟩

/-! ### Two sources -/

/-- The location of the file that a command is told to make. -/
def CommandLine.output? (command : CommandLine) : Option Location :=
  (command.args.dropWhile (· ≠ "-o"))[1]?.map fun word ↦ namedPlace ⟨word⟩

/-- Every command succeeds and makes an empty file. -/
def plainRecipe : Recipe where
  answer _ := { success := true }
  product _ := some { content := .empty, modified := 50 }

/-- A project with the sources in the folder `src`, two of which are compiled at once. -/
def plainProject (s : FileStore) : Project :=
  Project.scan s ⟨"."⟩ { Project.plainConfig [⟨"src"⟩] with threads := some 2 } "default"

/-- A store with two sources in one folder. -/
def twoSources : FileStore where
  entries := [(.root, .folder 0), (⟨["src"]⟩, .folder 0),
    (⟨["src", "a.c"]⟩, .file .empty false 10), (⟨["src", "b.c"]⟩, .file .empty false 10)]
  clock := 40

/-- The outputs of the project with two sources have places. -/
theorem placed_twoSources {p : Path} (hp : p ∈ [(⟨"./obj/default/src/a.o"⟩ : Path),
    ⟨"./obj/default/src/b.o"⟩, ⟨"./compile_commands.json"⟩, ⟨"./bin/app"⟩]) :
    twoSources.Placed p (namedPlace p) := by
  have hspells : twoSources.Spells p := by
    revert p
    decide +kernel
  exact hspells.placed (by decide +kernel) rfl

theorem laidOut_twoSources : (plainProject twoSources).LaidOut twoSources namedPlace := by
  have hobjects : (plainProject twoSources).objects =
      [⟨"./obj/default/src/a.o"⟩, ⟨"./obj/default/src/b.o"⟩] := by decide +kernel
  have hartifact : (plainProject twoSources).artifact = ⟨"./bin/app"⟩ := by decide +kernel
  have hdatabase : (plainProject twoSources).databasePath = ⟨"./compile_commands.json"⟩ := by
    decide +kernel
  have hunsettled (x : Location) : (plainProject twoSources).Unsettled namedPlace x ↔
      (∃ object ∈ [(⟨"./obj/default/src/a.o"⟩ : Path), ⟨"./obj/default/src/b.o"⟩],
        x ∈ (namedPlace object).parent.around) ∨
      x = ⟨["compile_commands.json"]⟩ ∨ x = .root := by
    rw [Project.Unsettled, hobjects, hdatabase]
    rfl
  constructor
  case apart =>
    rw [hobjects]
    exact ⟨fun p hp ↦ placed_twoSources (List.mem_append_left _ hp), by decide +kernel, by decide +kernel⟩
  case database =>
    rw [hdatabase]
    exact placed_twoSources (by decide)
  case settled =>
    intro object hobject
    rw [hunsettled]
    rw [hobjects] at hobject
    revert object
    decide +kernel
  case artifact =>
    rw [hartifact]
    refine ⟨namedPlace ⟨"./bin/app"⟩, ?_, Or.inl (placed_twoSources (by decide))⟩
    rw [hunsettled]
    decide +kernel
  case libraries =>
    intro p hp
    cases hp

theorem obeys_twoSources : (plainRecipe.executor CommandLine.output?).Obeys plainRecipe namedPlace
    ((plainProject twoSources).sources.map ((plainProject twoSources).task false)) :=
  Recipe.obeys_executor (by decide +kernel) (by decide +kernel)

/-- Two sources of one folder can be compiled in any order, one or two at once. -/
theorem outcome_eq_of_twoSources :
    let project := plainProject twoSources
    let executor := plainRecipe.executor CommandLine.output?
    let tasks := project.plan twoSources false false
    twoSources.WellFormed ∧ project.LaidOut twoSources namedPlace ∧ tasks.length = 2 ∧
      (∃ history history' pool pool' after after',
        Pool.Reaches (Task.execute executor) tasks 1 { files := twoSources } history pool after ∧
        Pool.Reaches (Task.execute executor) tasks 2 { files := twoSources } history' pool' after' ∧
        SamePass tasks pool pool' after after') ∧
      ((project.build {} executor (fun _ ↦ 0) 2).run { files := twoSources }).1 =
        ((project.build {} executor (fun _ ↦ 1) 2).run { files := twoSources }).1 := by
  intro project executor tasks
  have hs : twoSources.WellFormed := by decide +kernel
  have hapart : Apart twoSources namedPlace (tasks.map Task.object) :=
    laidOut_twoSources.apart_plan twoSources false false
  have hobeys : executor.Obeys plainRecipe namedPlace tasks :=
    obeys_twoSources.of_subset ((List.filter_sublist.map _).subset)
  obtain ⟨hpasses, hbuilds⟩ := outcome_eq executor plainRecipe namedPlace
  refine ⟨hs, laidOut_twoSources, by decide +kernel, ?_, ?_⟩
  · have hstart (budget : Nat) : Pool.Reaches (Task.execute executor) tasks budget
        { files := twoSources } {} (.ofTasks tasks budget) { files := twoSources } := .start
    obtain ⟨history, hreach⟩ := (hstart 1).runFrom (fun _ ↦ 0) 0
    obtain ⟨history', hreach'⟩ := (hstart 2).runFrom (fun _ ↦ 1) 0
    have hsame := hpasses tasks { files := twoSources } hs hapart hobeys 1 2 history history' _ _ _ _
      hreach ((hstart 1).over_runFrom _ 0) hreach' ((hstart 2).over_runFrom _ 0)
    exact ⟨history, history', _, _, _, _, hreach, hreach', hsame⟩
  · exact (hbuilds project {} { files := twoSources } hs laidOut_twoSources obeys_twoSources
      (fun _ ↦ 0) (fun _ ↦ 1) 2 2).1

/-- A store with two sources, where the object of the one is on the way to the object of the
other. -/
def nestedSources : FileStore where
  entries := [(.root, .folder 0), (⟨["src"]⟩, .folder 0),
    (⟨["src", "a.c"]⟩, .file .empty false 10), (⟨["src", "a.o"]⟩, .folder 0),
    (⟨["src", "a.o", "b.c"]⟩, .file .empty false 10)]
  clock := 40

/-- When an object is on the way to another, the order in which they are made tells: the folder
of the one can be made before the other, but not behind it. -/
theorem outcome_ne_of_nestedSources :
    let project := plainProject nestedSources
    let executor := plainRecipe.executor CommandLine.output?
    let build (choices : Nat → Nat) :=
      (project.build {} executor choices 2).run { files := nestedSources }
    nestedSources.WellFormed ∧ project.objects.Nodup ∧
      (build fun _ ↦ 0).1 = .error (.compile 1) ∧
      (build fun step ↦ if step = 2 then 1 else 0).1 =
        .ok { status := .changed, compiled := 2, linked := true } :=
  ⟨by decide +kernel, by decide +kernel, by decide +kernel, by decide +kernel⟩

end Rebuild
