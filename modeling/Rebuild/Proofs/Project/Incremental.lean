import Rebuild.Proofs.Project.Cleaning
import Rebuild.Proofs.Project.Moves
import Rebuild.Proofs.Project.Spelled

/-!
# Building again is as good as building anew

However often files are changed and builds succeed or fail, a build that succeeds leaves what a build
of the same files would leave that begins without outputs. This needs a site that fits all files on the
way and is steady from each to the next.
-/

namespace Rebuild

open FileStore

/-- Nothing has failed in a build that succeeds. -/
theorem Project.Course.succeeded {project : Project} {options : BuildOptions} {executor : Executor}
    {s compiled s' : FileStore} {deeds : List Deed} {summary : BuildSummary}
    {finishing : List CommandLine}
    (h : project.Course options executor s deeds compiled (.ok summary) s' finishing) :
    ∀ deed ∈ deeds, deed.done.succeeded = true := by
  have hconcludes := h.concludes
  generalize hresult : Except.ok summary = result at hconcludes
  cases hconcludes with
  | failed => cases hresult
  | fresh hstatus => exact Project.worst_ne_failed_iff.1 hstatus
  | linked hstatus => exact Project.worst_ne_failed_iff.1 hstatus

namespace Site

variable {site : Site} {tooling : Tooling} {s s' : FileStore} {file : ProjectFile} {l x : Location}
variable {executor : Executor} {options : BuildOptions} {deeds : List Deed} {compiled : FileStore}
variable {result : Except BuildError BuildSummary} {finishing : List CommandLine}

/-! ### What a build leaves that succeeds -/

/-- All objects and the artifact in the store `s'` are right for the store `s`. -/
structure Right (site : Site) (tooling : Tooling) (s s' : FileStore) : Prop where
  /-- The objects are right. -/
  objects : ∀ file ∈ site.sources s,
    s'.content? (site.objectPlace file) = some (site.objectBytes tooling s file)
  /-- The artifact is right, and made of these objects. -/
  artifact : s'.content? site.artifactPlace = some (site.artifactBytes tooling s s')

/-- A source that is not stale has an object, and nothing that it depends on has changed since. -/
theorem Fits.not_changedSince (h : site.Fits s) (hfile : file ∈ site.sources s)
    (hfresh : (site.project s).isStale s false file = false) :
    ∃ content executable time,
      s.find? (site.objectPlace file) = some (.file content executable time) ∧
        ¬site.ChangedSince s file time := by
  obtain ⟨hstale, -⟩ := Project.isStale_iff_outdated h.wellFormed site.root site.config site.stem
    site.installed false site.debug
  obtain ⟨l, -, -, -, hlead, -, hiff⟩ := hstale file hfile
  obtain ⟨hshort, hshort'⟩ := h.short file hfile
  have hnot : ¬Project.Outdated s (site.folders s) l (site.objectOf file) := fun houtdated ↦ by
    rw [show (site.project s).isStale s false file = true from
      (hiff hshort (hshort' l hlead)).2 (Or.inr houtdated)] at hfresh
    cases hfresh
  rw [Project.Outdated, not_or, Bool.not_eq_false] at hnot
  obtain ⟨hexists, hnot⟩ := hnot
  have hmem := objectOf_mem hfile
  rw [h.ready.pathExists_eq hmem] at hexists
  obtain ⟨content, executable, time, hfind⟩ := exists_find?_of_hasFile
    ((h.ready.plain hmem).resolve_right (Option.isSome_iff_ne_none.1 hexists))
  refine ⟨content, executable, time, hfind, ?_⟩
  rintro ⟨l', m, time', hlead', hclosure, htime', hlt⟩
  obtain rfl : l = l' := by simpa using hlead.symm.trans hlead'
  obtain ⟨l', hstart, -, -, hl⟩ := h.exists_start hfile
  obtain rfl : l' = l := by simpa using hstart.symm.trans hlead
  obtain ⟨hfile', hshort'', -⟩ := h.ready.nodes m (Fits.mem_graph hl hclosure)
  refine hnot ⟨time, ?_, m, hclosure, time', ?_, hlt⟩
  · rw [(h.ready.placed hmem).modified?_eq_timeAt? h.wellFormed]
    exact timeAt?_of_fileTime? (by rw [fileTime?, show s.find? (site.place _) = _ from hfind])
  · obtain ⟨content', executable', time'', hfind'⟩ := exists_find?_of_hasFile hfile'
    rw [fileTime?, hfind'] at htime'
    cases htime'
    rw [modified?, h.wellFormed.stat_path hfind' (by simp) hshort'']
    rfl

/-- What is due makes the artifact due. -/
theorem DueSince.linkDue {time : Time} (h : site.DueSince (site.sources s) s' time)
    (hready : (site.project s).Ready site.place s') (htime : s'.fileTime? site.artifactPlace = some time)
    (hobjects : ∀ file ∈ site.sources s, s'.HasFile (site.objectPlace file)) :
    (site.project s).LinkDue false s' [] := by
  have hmodified {p : Path} (hp : p ∈ (site.project s).outputs) {time' : Time}
      (htime' : s'.fileTime? (site.place p) = some time') : s'.modified? p = some time' := by
    rw [(hready.placed hp).modified?_eq_timeAt? hready.wellFormed, timeAt?_of_fileTime? htime']
  refine Or.inr (Or.inr ⟨time, hmodified (site.project s).artifact_mem_outputs htime, ?_⟩)
  rcases h with ⟨file, hfile, hlate⟩ | ⟨p, hp, l, time', hlead, htime', hlt⟩
  · obtain ⟨time', htime'⟩ := Option.isSome_iff_exists.1
      (fileTime?_isSome_iff.2 (hobjects file hfile))
    refine Or.inl (Project.lt_max?_iff.2 ⟨time', ?_, hlate time' htime'⟩)
    rw [List.append_nil]
    exact List.mem_filterMap.2 ⟨_, objectOf_mem_objects hfile, hmodified (objectOf_mem hfile) htime'⟩
  · have hfinds : s'.FindsFile p l time' := ⟨hlead, htime'⟩
    refine Or.inr ⟨p, hp, ?_, time', hfinds.modified?_eq, hlt⟩
    rw [← hready.wellFormed.modified?_isSome, hfinds.modified?_eq]
    rfl

/-- A source that no deed has compiled is not stale, as it would have been planned. -/
theorem not_isStale_of_not_compiled {summary : BuildSummary} (hdebug : options.debug = site.debug)
    (hcourse : (site.project s).Course options executor s deeds compiled (.ok summary) s' finishing)
    (hfile : file ∈ site.sources s)
    (hfailed : ∀ deed ∈ deeds, deed.task = (site.project s).task site.debug file →
      deed.done.succeeded = false) : (site.project s).isStale s false file = false := by
  by_contra hstale
  rw [Bool.not_eq_false, Project.isStale, Bool.false_or] at hstale
  have hplan : (site.project s).task options.debug file ∈
      (site.project s).plan s options.fullRebuild options.debug := by
    refine List.mem_map_of_mem (List.mem_filter.2 ⟨hfile, ?_⟩)
    rw [Project.isStale, hstale, Bool.or_true]
  obtain ⟨deed, hdeed, htask⟩ := List.mem_map.1 (hcourse.tasks.mem_iff.2 hplan)
  have hnot := hfailed deed hdeed (hdebug ▸ htask)
  rw [hcourse.succeeded deed hdeed] at hnot
  cases hnot

/-- A build of a sound site that succeeds leaves the right objects. -/
theorem Follows.objects_of_ok {summary : BuildSummary} (h : site.Follows tooling s executor)
    (hsound : site.Sound tooling s) (hfits : site.Fits s) (hdebug : options.debug = site.debug)
    (hcourse : (site.project s).Course options executor s deeds compiled (.ok summary) s' finishing)
    (hfile : file ∈ site.sources s) :
    s'.content? (site.objectPlace file) = some (site.objectBytes tooling s file) := by
  have hcareful : (site.project s).Careful options.debug executor := hdebug ▸ h.careful
  obtain ⟨hpass, hmade⟩ := hfits.ready.reworks_compiled hcourse hcareful
  have hcompiled := hfits.ready.of_reworks (hpass.mono hmade)
  have hsame := hcompiled.find?_object
    (hcompiled.reworks_concludes hcourse.concludes hcareful) (objectOf_mem_objects hfile)
  refine (content?_congr hsame).trans (content?_eq_some_iff.2 ?_)
  rcases h.objects_compiled hfits hdebug hcourse hfile with ⟨hkept, hfailed⟩ | hmade
  · have hfresh := not_isStale_of_not_compiled hdebug hcourse hfile hfailed
    obtain ⟨content, executable, time, hfind, hnot⟩ := hfits.not_changedSince hfile hfresh
    obtain rfl := (hsound.objects file hfile _ _ _ hfind).resolve_right hnot
    exact ⟨executable, time, hkept.trans hfind⟩
  · obtain ⟨executable, time, hfind, -⟩ := hmade
    exact ⟨executable, time, hfind⟩

/-- A build of a sound site that succeeds leaves the right outputs. -/
theorem Follows.right_of_ok {summary : BuildSummary} (h : site.Follows tooling s executor)
    (hsound : site.Sound tooling s) (hfits : site.Fits s) (hdebug : options.debug = site.debug)
    (hcourse : (site.project s).Course options executor s deeds compiled (.ok summary) s' finishing) :
    site.Right tooling s s' := by
  have hready := hfits.ready
  have hcareful : (site.project s).Careful options.debug executor := hdebug ▸ h.careful
  obtain ⟨hpass, hmade⟩ := hready.reworks_compiled hcourse hcareful
  have hcompiled := hready.of_reworks (hpass.mono hmade)
  have hready' := hready.of_reworks (hready.reworks_course hcourse hcareful)
  have hadvance := h.advance hfits hdebug hcourse
  have hobjects : ∀ file ∈ site.sources s,
      s'.content? (site.objectPlace file) = some (site.objectBytes tooling s file) :=
    fun _ ↦ h.objects_of_ok hsound hfits hdebug hcourse
  refine ⟨hobjects, ?_⟩
  rcases h.artifact_concludes hcompiled hdebug hcourse.concludes with
    ⟨hsame, hnot⟩ | ⟨-, hnot⟩ | hright
  · -- the artifact has been kept, and was right unless it had to be made
    have hnot := hnot summary rfl
    have hartifact : s'.HasFile site.artifactPlace := by
      refine (hready'.plain (site.project s).artifact_mem_outputs).resolve_right fun hnone ↦ ?_
      refine hnot (Or.inr (Or.inl ?_))
      rw [(hready'.placed (site.project s).artifact_mem_outputs).modified?_eq_timeAt?
        hready'.wellFormed, timeAt?, hnone]
      rfl
    obtain ⟨content, executable, time, hfind⟩ := exists_find?_of_hasFile hartifact
    have hkept := hsame.trans (hready.find?_artifact hpass fun _ ↦ hcourse.object_mem)
    rcases hsound.artifact_kept hadvance hfits hkept hfind with rfl | hdue
    · exact content?_eq_some_iff.2 ⟨executable, time, hfind⟩
    · exact absurd (hdue.linkDue hready' (by rw [fileTime?, hfind]) fun file hfile ↦
        hasFile_of_content? (hobjects file hfile)) hnot
  · exact absurd rfl (hnot summary)
  · exact hright

/-! ### Runs -/

/-- A file is changed, or the project is loaded and built, whatever comes of it. -/
inductive Moves (site : Site) (tooling : Tooling) : Session → Session → Prop where
  /-- A file is changed that builds do not write. -/
  | edit {before after : Session} {l : Location} (hedits : site.Edits before.files l after.files)
      (hfits : site.Fits after.files) : Moves site tooling before after
  /-- The project is loaded and built. -/
  | build {before after : Session} (options : BuildOptions) (executor : Executor)
      (choices : Nat → Nat) (cores : Nat) (hdebug : options.debug = site.debug)
      (hfollows : site.Follows tooling before.files executor)
      (hbuilt : after =
        (((site.project before.files).build options executor choices cores).run before).2)
      (hfits : site.Fits after.files) : Moves site tooling before after

theorem Moves.fits {before after : Session} (h : site.Moves tooling before after) :
    site.Fits after.files := by
  cases h with
  | edit _ hfits => exact hfits
  | build _ _ _ _ _ _ _ hfits => exact hfits

/-- A move in which the site is steady. -/
def MovesSteadily (site : Site) (tooling : Tooling) (before after : Session) : Prop :=
  site.Moves tooling before after ∧ site.Steady before.files after.files

/-- A site that is sound stays so in every move in which it is steady. -/
theorem Sound.of_moves {before after : Session} (h : site.Sound tooling before.files)
    (hfits : site.Fits before.files) (hmoves : site.Moves tooling before after)
    (hsteady : site.Steady before.files after.files) : site.Sound tooling after.files := by
  cases hmoves with
  | edit hedits hfits' =>
    exact h.advance (hedits.advance hfits hfits') hsteady hfits hfits'
  | build options executor choices cores hdebug hfollows hbuilt hfits' =>
    subst hbuilt
    cases hsources : (site.project before.files).isHeaderOnly with
    | true =>
      obtain ⟨-, hfiles, -⟩ :=
        Project.build_of_isHeaderOnly hsources options executor choices cores before
      rwa [hfiles]
    | false =>
      obtain ⟨_, _, _, hcourse, -⟩ :=
        (site.project before.files).exists_course options executor choices cores before hsources
      exact h.advance (hfollows.advance hfits hdebug hcourse) hsteady hfits hfits'

/-- A run that begins without outputs keeps the site sound. -/
theorem Sound.of_run {first session : Session} (hfirst : site.Fits first.files)
    (hbare : site.Bare first.files)
    (hrun : Relation.ReflTransGen (site.MovesSteadily tooling) first session) :
    site.Fits session.files ∧ site.Sound tooling session.files := by
  induction hrun with
  | refl => exact ⟨hfirst, hbare.sound⟩
  | tail _ hmoves ih => exact ⟨hmoves.1.fits, ih.2.of_moves ih.1 hmoves.1 hmoves.2⟩

/-- A build that succeeds leaves the right outputs. -/
theorem Sound.right_of_ok {session : Session} (h : site.Sound tooling session.files)
    (hfits : site.Fits session.files) (hdebug : options.debug = site.debug)
    (hfollows : site.Follows tooling session.files executor) (choices : Nat → Nat) (cores : Nat)
    (hsources : (site.project session.files).isHeaderOnly = false) {summary : BuildSummary} :
    let built := ((site.project session.files).build options executor choices cores).run session
    built.1 = .ok summary → site.Right tooling session.files built.2.files := by
  intro built hok
  obtain ⟨deeds, compiled, finishing, hcourse, -⟩ :=
    (site.project session.files).exists_course options executor choices cores session hsources
  exact hfollows.right_of_ok h hfits hdebug (hok ▸ hcourse)

/-- Behind any run of changes and builds that begins without outputs, a build that succeeds leaves the
right outputs: these are what a build leaves that succeeds and begins with the same files but without
outputs. -/
theorem content?_eq_of_cleaned (site : Site) (tooling : Tooling) (first session clean : Session)
    (hfirst : site.Fits first.files) (hbare : site.Bare first.files)
    (hrun : Relation.ReflTransGen (site.MovesSteadily tooling) first session)
    (hclean : site.Cleaned session.files clean.files) (options options' : BuildOptions)
    (executor executor' : Executor) (choices choices' : Nat → Nat) (cores cores' : Nat)
    (hdebug : options.debug = site.debug) (hdebug' : options'.debug = site.debug)
    (hfollows : site.Follows tooling session.files executor)
    (hfollows' : site.Follows tooling clean.files executor') :
    let project := site.project session.files
    let built := (project.build options executor choices cores).run session
    let rebuilt := ((site.project clean.files).build options' executor' choices' cores').run clean
    project.isHeaderOnly = false → (∃ summary, built.1 = .ok summary) →
      site.Right tooling session.files built.2.files ∧
      (site.project clean.files).objects = project.objects ∧
      ((∃ summary, rebuilt.1 = .ok summary) → ∀ p ∈ project.artifact :: project.objects,
        ∃ content, built.2.files.content? (site.place p) = some content ∧
          rebuilt.2.files.content? (site.place p) = some content) := by
  rintro project built rebuilt hsources ⟨summary, hok⟩
  obtain ⟨hfits, hsound⟩ := Sound.of_run hfirst hbare hrun
  have hsame := hclean.sources_eq hfits
  have hright := hsound.right_of_ok hfits hdebug hfollows choices cores hsources hok
  refine ⟨hright, congrArg (List.map site.objectOf) hsame, ?_⟩
  rintro ⟨summary', hok'⟩
  have hsources' : (site.project clean.files).isHeaderOnly = false := by
    rw [← hsources]
    exact congrArg List.isEmpty hsame
  have hright' := (hclean.bare hsound).sound.right_of_ok (hclean.fits hfits) hdebug' hfollows'
    choices' cores' hsources' hok'
  have hobjects : ∀ file ∈ site.sources session.files,
      rebuilt.2.files.content? (site.objectPlace file) =
        some (site.objectBytes tooling session.files file) := by
    intro file hfile
    rw [hright'.objects file (hsame ▸ hfile), objectBytes, objectBytes, hclean.unitOf_eq hfits hfile]
  intro p hp
  rcases List.mem_cons.1 hp with rfl | hp
  · refine ⟨_, hright.artifact, hright'.artifact.trans (congrArg some ?_)⟩
    have hcontents : (site.sources session.files).map
        (fun file ↦ rebuilt.2.files.content? (site.objectPlace file)) =
          (site.sources session.files).map
            fun file ↦ built.2.files.content? (site.objectPlace file) :=
      List.map_congr_left fun file hfile ↦
        (hobjects file hfile).trans (hright.objects file hfile).symm
    rw [artifactBytes, artifactBytes, hsame, hclean.libraries_eq hfits, hcontents]
  · obtain ⟨file, hfile, rfl⟩ := List.mem_map.1 hp
    exact ⟨_, hright.objects file hfile, hobjects file hfile⟩

/-! ### A header behind a folder that is not there -/

/-- A site with the sources in the folder `src`. -/
def plainSite : Site where
  root := ⟨"."⟩
  config := Project.plainConfig [⟨"src"⟩]
  stem := "default"
  place := namedPlace

/-- Commands that put together the bytes of all that they read. -/
def gathering : Tooling where
  object _ unit := (unit.filterMap Include.UnitFile.content).foldl (· ++ ·) .empty
  artifact _ archive objects libraries :=
    (archive.toList ++ objects.reduceOption ++ libraries.map Prod.snd).foldl (· ++ ·) .empty

/-- A build by such commands. -/
def gather (before : Session) (refused : CommandLine → Bool := fun _ ↦ false) :
    Except BuildError BuildSummary × Session :=
  ((plainSite.project before.files).build {} (plainSite.executor gathering before.files refused)
    Pool.firstChoices 1).run before

/-- A store with two sources, one of which includes a header through a folder that is not there. -/
def throughFolder : FileStore where
  entries := [(.root, .folder 0), (⟨["src"]⟩, .folder 0),
    (⟨["src", "a.c"]⟩, .file (Text.Utf8.encode "#include \"n/../a.h\"\n") false 10),
    (⟨["src", "a.h"]⟩, .file (Text.Utf8.encode "int a;\n") false 10),
    (⟨["src", "b.c"]⟩, .file .empty false 10)]
  clock := 40

/-- What becomes of it when the first source is compiled and the second one cannot be. Behind this the first
one may have been changed, and more may have come into the folder of the sources. -/
def halfBuilt (text : String) (time changed clock : Time) (more : List (Location × Entry)) :
    FileStore where
  entries := [(.root, .folder 40), (⟨["src"]⟩, .folder changed),
    (⟨["src", "a.c"]⟩, .file (Text.Utf8.encode text) false time),
    (⟨["src", "a.h"]⟩, .file (Text.Utf8.encode "int a;\n") false 10),
    (⟨["src", "b.c"]⟩, .file .empty false 10), (⟨["obj"]⟩, .folder 41),
    (⟨["obj", "default"]⟩, .folder 42), (⟨["obj", "default", "src"]⟩, .folder 43),
    (⟨["obj", "default", "src", "a.o"]⟩,
      .file (Text.Utf8.encode "#include \"n/../a.h\"\n") false 43)] ++ more
  clock := clock

/-- The second source cannot be compiled. -/
def secondFailed : FileStore :=
  halfBuilt "#include \"n/../a.h\"\n" 10 0 43 []

/-- Then the first source is changed to include the header where it is. -/
def headerNamed : FileStore :=
  halfBuilt "#include \"a.h\"\n" 44 0 45 []

/-- Then another header comes into the folder that was not there. -/
def folderOpened : FileStore :=
  halfBuilt "#include \"n/../a.h\"\n" 10 43 45
    [(⟨["src", "n"]⟩, .folder 44), (⟨["src", "n", "b.h"]⟩, .file .empty false 44)]

/-- Whether a command compiles the second source. -/
def compilesSecond (command : CommandLine) : Bool :=
  command.args.contains "./src/b.c"

theorem segmentName_default : Path.SegmentName plainSite.stem :=
  ⟨⟨by decide, by decide⟩, by decide, by decide⟩

theorem segment_objectExtension : Path.Segment plainSite.config.platform.objectExtension :=
  ⟨by decide, by decide⟩

theorem follows_gathering (hfits : plainSite.Fits s) (refused : CommandLine → Bool) :
    plainSite.Follows gathering s (plainSite.executor gathering s refused) :=
  hfits.follows_executor (by decide) gathering refused

/-- A build is a move. -/
theorem moves_gather {before : Session} {refused : CommandLine → Bool}
    (hbuilt : (gather before refused).2.files = s') (hfits : plainSite.Fits before.files)
    (hfits' : plainSite.Fits s') : plainSite.Moves gathering before (gather before refused).2 :=
  .build {} _ Pool.firstChoices 1 rfl (follows_gathering hfits refused) rfl (hbuilt ▸ hfits')

/-- So is a file that comes or changes at a place to which builds do not write. -/
theorem moves_create {before : Session} {p : Path} {content : ByteArray} (hbefore : before.files = s)
    (hfits : plainSite.Fits s) (hfits' : plainSite.Fits s') (hcurrent : s.current = .root)
    (hspells : s.Spells p) (hunwritten : namedPlace p ≠ ⟨["bin", "app"]⟩ ∧
      namedPlace p ≠ ⟨["compile_commands.json"]⟩ ∧ ¬["obj"] <+: (namedPlace p).names)
    (hcreate : s.createFile? p content = some s') :
    plainSite.Moves gathering before { files := s' } := by
  subst hbefore
  refine .edit (l := namedPlace p) (.of_createFile? hfits.wellFormed
    (hspells.placed hfits.wellFormed hcurrent) (fun hwritten ↦ ?_) hcreate) hfits'
  have happ : namedPlace (plainSite.root.join plainSite.config.artifactPath) = ⟨["bin", "app"]⟩ := by
    decide +kernel
  have hdatabase : namedPlace (plainSite.root.joinName Project.databaseName) =
      ⟨["compile_commands.json"]⟩ := by decide +kernel
  rcases hwritten.cases rfl segmentName_default segment_objectExtension with heq | heq | hobject
  · exact hunwritten.1 (heq.trans happ)
  · exact hunwritten.2.1 (heq.trans hdatabase)
  · exact hunwritten.2.2 hobject

theorem fits_throughFolder : plainSite.Fits throughFolder := by
  have hspelled : plainSite.Spelled throughFolder := by decide +kernel
  exact hspelled.fits rfl

theorem bare_throughFolder : plainSite.Bare throughFolder :=
  bare_of_named rfl segmentName_default segment_objectExtension (by decide +kernel) (by decide +kernel)

theorem files_secondFailed :
    (gather { files := throughFolder } compilesSecond).2.files = secondFailed := by
  decide +kernel

theorem secondFailed_steady :
    plainSite.Fits secondFailed ∧ plainSite.Steady throughFolder secondFailed := by
  have hspelled : plainSite.Spelled secondFailed ∧
      ∀ l ∈ (plainSite.project secondFailed).graph.locations, ∀ name ∈ Include.namesAt secondFailed l,
        Include.resolve? secondFailed l.parent.path (plainSite.folders secondFailed) name =
          Include.resolve? throughFolder l.parent.path (plainSite.folders throughFolder) name := by
    decide +kernel
  exact ⟨hspelled.1.fits rfl, steady_of_resolve?_eq rfl hspelled.2⟩

/-- When a source could not be compiled and the other one was changed then, the next build leaves what a
build leaves that begins without outputs. -/
theorem content?_eq_of_headerNamed :
    plainSite.Fits throughFolder ∧ plainSite.Bare throughFolder ∧
      Relation.ReflTransGen (plainSite.MovesSteadily gathering) { files := throughFolder }
        { files := headerNamed } ∧
      plainSite.Cleaned headerNamed (plainSite.cleaned headerNamed) ∧
      (gather { files := headerNamed }).1.toOption.isSome ∧
      (gather { files := plainSite.cleaned headerNamed }).1.toOption.isSome ∧
      ∀ p ∈ (plainSite.project headerNamed).artifact :: (plainSite.project headerNamed).objects,
        ∃ content,
          (gather { files := headerNamed }).2.files.content? (plainSite.place p) = some content ∧
          (gather { files := plainSite.cleaned headerNamed }).2.files.content? (plainSite.place p) =
            some content := by
  obtain ⟨hfits, hsteady⟩ := secondFailed_steady
  have hspelled : plainSite.Spelled headerNamed ∧
      (∀ l ∈ (plainSite.project headerNamed).graph.locations, ∀ name ∈ Include.namesAt headerNamed l,
        Include.resolve? headerNamed l.parent.path (plainSite.folders headerNamed) name =
          Include.resolve? secondFailed l.parent.path (plainSite.folders secondFailed) name) ∧
      (plainSite.project headerNamed).isHeaderOnly = false := by
    decide +kernel
  obtain ⟨hspelled, hsame, hsources⟩ := hspelled
  have hfits' : plainSite.Fits headerNamed := hspelled.fits rfl
  have hsteady' : plainSite.Steady secondFailed headerNamed := steady_of_resolve?_eq rfl hsame
  have hedit : plainSite.Moves gathering (gather { files := throughFolder } compilesSecond).2
      { files := headerNamed } :=
    moves_create (p := ⟨"./src/a.c"⟩) files_secondFailed hfits hfits' rfl (by decide +kernel)
      (by decide +kernel) (show secondFailed.createFile? _ (Text.Utf8.encode "#include \"a.h\"\n") = _ by
        decide +kernel)
  have hrun : Relation.ReflTransGen (plainSite.MovesSteadily gathering) { files := throughFolder }
      { files := headerNamed } :=
    .tail (.single ⟨moves_gather files_secondFailed fits_throughFolder hfits,
      files_secondFailed.symm ▸ hsteady⟩) ⟨hedit, files_secondFailed.symm ▸ hsteady'⟩
  have hok : (gather { files := headerNamed }).1.toOption.isSome ∧
      (gather { files := plainSite.cleaned headerNamed }).1.toOption.isSome := by
    decide +kernel
  have hclean : plainSite.Cleaned headerNamed (plainSite.cleaned headerNamed) :=
    cleaned_cleaned plainSite hfits'.distinct
  have hsummary {result : Except BuildError BuildSummary} (h : result.toOption.isSome) :
      ∃ summary, result = .ok summary := by
    cases result with
    | error => cases h
    | ok summary => exact ⟨summary, rfl⟩
  -- the stores are variables here, so that nothing is computed
  have halike {s c : FileStore} (hfits : plainSite.Fits s) (hclean : plainSite.Cleaned s c)
      (hrun : Relation.ReflTransGen (plainSite.MovesSteadily gathering) { files := throughFolder }
        { files := s })
      (hsources : (plainSite.project s).isHeaderOnly = false)
      (hok : (gather { files := s }).1.toOption.isSome) (hok' : (gather { files := c }).1.toOption.isSome) :
      ∀ p ∈ (plainSite.project s).artifact :: (plainSite.project s).objects, ∃ content,
        (gather { files := s }).2.files.content? (plainSite.place p) = some content ∧
          (gather { files := c }).2.files.content? (plainSite.place p) = some content :=
    (content?_eq_of_cleaned plainSite gathering { files := throughFolder } { files := s } { files := c }
      fits_throughFolder bare_throughFolder hrun hclean {} {} _ _ Pool.firstChoices Pool.firstChoices 1 1
      rfl rfl (follows_gathering hfits fun _ ↦ false) (follows_gathering (hclean.fits hfits) fun _ ↦ false)
      hsources (hsummary hok)).2.2 (hsummary hok')
  exact ⟨fits_throughFolder, bare_throughFolder, hrun, hclean, hok.1, hok.2,
    halike hfits' hclean hrun hsources hok.1 hok.2⟩

/-- When a header comes into a folder that was not there, an include may lead to an old file through this
folder. A build that succeeds then leaves another object and another artifact than a build that begins
without outputs. -/
theorem exists_content?_ne :
    plainSite.Fits throughFolder ∧ plainSite.Bare throughFolder ∧
      Relation.ReflTransGen (plainSite.Moves gathering) { files := throughFolder }
        { files := folderOpened } ∧
      plainSite.Cleaned folderOpened (plainSite.cleaned folderOpened) ∧
      plainSite.Follows gathering folderOpened (plainSite.executor gathering folderOpened) ∧
      plainSite.Follows gathering (plainSite.cleaned folderOpened)
        (plainSite.executor gathering (plainSite.cleaned folderOpened)) ∧
      (gather { files := folderOpened }).1.toOption.isSome ∧
      (gather { files := plainSite.cleaned folderOpened }).1.toOption.isSome ∧
      ∀ p ∈ [(plainSite.project folderOpened).artifact, ⟨"./obj/default/src/a.o"⟩],
        p ∈ (plainSite.project folderOpened).outputs ∧
        (gather { files := folderOpened }).2.files.content? (plainSite.place p) ≠
          (gather { files := plainSite.cleaned folderOpened }).2.files.content? (plainSite.place p) := by
  obtain ⟨hfits, -⟩ := secondFailed_steady
  have hspelled : plainSite.Spelled folderOpened := by decide +kernel
  have hfits' : plainSite.Fits folderOpened := hspelled.fits rfl
  have hclean : plainSite.Cleaned folderOpened (plainSite.cleaned folderOpened) :=
    cleaned_cleaned plainSite hfits'.distinct
  have hedit : plainSite.Moves gathering (gather { files := throughFolder } compilesSecond).2
      { files := folderOpened } :=
    moves_create (p := ⟨"./src/n/b.h"⟩) files_secondFailed hfits hfits' rfl (by decide +kernel)
      (by decide +kernel) (show secondFailed.createFile? _ .empty = _ by decide +kernel)
  exact ⟨fits_throughFolder, bare_throughFolder,
    .tail (.single (moves_gather files_secondFailed fits_throughFolder hfits)) hedit, hclean,
    follows_gathering hfits' _, follows_gathering (hclean.fits hfits') _, by decide +kernel⟩

end Site

end Rebuild
