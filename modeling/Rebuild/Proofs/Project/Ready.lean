import Rebuild.Proofs.FileStore.Reworking
import Rebuild.Proofs.Project.FixedPoint

/-!
# Projects that are ready to be built

A project is *ready* in a store when its outputs have places of their own, none of which is on the way
to another, and what its sources depend on lies at none of these places. Whatever builds do with such a
store is a reworking of the places of the outputs. So the project is ready still, however many builds
succeed or fail.
-/

namespace Rebuild

open FileStore

variable {place : Path → Location} {s s' before after : FileStore} {executor : Executor}
variable {deed : Deed} {deeds : List Deed} {debug : Bool}

namespace Project

variable {project : Project} {options : BuildOptions}

/-- Everything that a build writes. -/
def outputs (project : Project) : List Path :=
  project.artifact :: project.databasePath :: project.objects

theorem artifact_mem_outputs (project : Project) : project.artifact ∈ project.outputs :=
  List.mem_cons_self

theorem databasePath_mem_outputs (project : Project) : project.databasePath ∈ project.outputs :=
  List.mem_cons_of_mem _ List.mem_cons_self

theorem mem_outputs_of_mem_objects {object : Path} (h : object ∈ project.objects) :
    object ∈ project.outputs :=
  List.mem_cons_of_mem _ (List.mem_cons_of_mem _ h)

/-- The outputs of a project can be made at their places. -/
structure Ready (project : Project) (place : Path → Location) (s : FileStore) : Prop where
  /-- Everything is in a folder. -/
  wellFormed : s.WellFormed
  /-- The outputs have places of their own, and none is on the way to another. -/
  apart : Apart s place project.outputs
  /-- No folder is where an output should be. -/
  no_folder : ∀ p ∈ project.outputs, ¬s.HasFolder (place p)
  /-- What sources depend on are files, and no outputs. -/
  nodes : ∀ l ∈ project.graph.locations,
    s.HasFile l ∧ tooLong l.path = false ∧ l ∉ project.outputs.map place
  /-- Sources are files, and no outputs. -/
  sources : ∀ file ∈ project.sources, ∃ l, s.lead true file.path = .ok (.existing l) ∧
    s.HasFile l ∧ l ∉ project.outputs.map place

theorem Careful.makes_deeds {compiled : FileStore} {result : Except BuildError BuildSummary}
    {finishing : List CommandLine} (h : project.Careful options.debug executor)
    (hcourse : project.Course options executor s deeds compiled result s' finishing) :
    ∀ deed ∈ deeds, executor.Makes deed.task.command deed.task.object := by
  intro deed hdeed
  obtain ⟨file, hfile, -, htask⟩ := hcourse.exists_source hdeed
  rw [htask]
  exact h.makes file hfile

theorem Careful.spares_deeds {compiled : FileStore} {result : Except BuildError BuildSummary}
    {finishing : List CommandLine} (h : project.Careful options.debug executor)
    (hcourse : project.Course options executor s deeds compiled result s' finishing) :
    ∀ deed ∈ deeds, executor.Spares deed.task.command := by
  intro deed hdeed
  obtain ⟨file, hfile, -, htask⟩ := hcourse.exists_source hdeed
  rw [htask]
  exact h.spares file hfile

namespace Ready

theorem placed (h : project.Ready place s) {p : Path} (hp : p ∈ project.outputs) :
    s.Placed p (place p) :=
  h.apart.placed p hp

theorem aside (h : project.Ready place s) : Aside (project.outputs.map place) := by
  intro l hl l' hl'
  obtain ⟨p, hp, rfl⟩ := List.mem_map.1 hl
  obtain ⟨p', hp', rfl⟩ := List.mem_map.1 hl'
  exact h.apart.aside p hp p' hp'

theorem plain (h : project.Ready place s) {p : Path} (hp : p ∈ project.outputs) :
    s.Plain (place p) :=
  (h.placed hp).plain h.wellFormed (h.no_folder p hp)

/-- Different outputs have different places. -/
theorem eq_of_place_eq (h : project.Ready place s) {p p' : Path} (hp : p ∈ project.outputs)
    (hp' : p' ∈ project.outputs) (heq : place p = place p') : p = p' :=
  List.inj_on_of_nodup_map h.apart.distinct hp hp' heq

theorem place_object_ne (h : project.Ready place s) {object : Path} (hobject : object ∈ project.objects) :
    place object ≠ place project.artifact ∧ place object ≠ place project.databasePath := by
  have hdistinct := h.apart.distinct
  rw [outputs, List.map_cons, List.map_cons, List.nodup_cons, List.nodup_cons] at hdistinct
  have hmem : place object ∈ project.objects.map place := List.mem_map_of_mem hobject
  exact ⟨fun heq ↦ hdistinct.1 (List.mem_cons_of_mem _ (heq ▸ hmem)),
    fun heq ↦ hdistinct.2.1 (heq ▸ hmem)⟩

/-- Different sources have different objects. -/
theorem nodup_objects (h : project.Ready place s) : project.objects.Nodup := by
  have hdistinct := h.apart.distinct
  rw [outputs, List.map_cons, List.map_cons, List.nodup_cons, List.nodup_cons] at hdistinct
  exact List.Nodup.of_map place hdistinct.2.2

/-- A project is ready still when the places of its outputs have been reworked. -/
theorem of_reworks (h : project.Ready place s)
    (hreworks : Reworks (project.outputs.map place) (project.outputs.map place) s s') :
    project.Ready place s' := by
  have hfile {l : Location} (hl : s.HasFile l) (hnot : l ∉ project.outputs.map place) :
      s'.kind? l = s.kind? l := by
    rw [kind?, kind?, hreworks.find?_eq_of_hasFile hl hnot]
  constructor
  case wellFormed => exact hreworks.wellFormed
  case apart =>
    exact ⟨fun p hp ↦ hreworks.placed h.wellFormed (h.placed hp), h.apart.distinct, h.apart.aside⟩
  case no_folder =>
    exact fun p hp ↦ hreworks.not_hasFolder h.aside (List.mem_map_of_mem hp) (h.no_folder p hp)
  case nodes =>
    intro l hl
    obtain ⟨hwas, hshort, hnot⟩ := h.nodes l hl
    exact ⟨(hfile hwas hnot).trans hwas, hshort, hnot⟩
  case sources =>
    intro file hmem
    obtain ⟨l, hlead, hwas, hnot⟩ := h.sources file hmem
    exact ⟨l, hreworks.keepsWays.lead_eq (hfile hwas hnot) hlead, (hfile hwas hnot).trans hwas, hnot⟩

/-- What is reworked can be reworked again. -/
theorem trans {touched touched' : List Location} (h : project.Ready place s)
    (hreworks : Reworks (project.outputs.map place) touched s s')
    (hreworks' : Reworks (project.outputs.map place) touched' s' after)
    (hsub : touched ⊆ project.outputs.map place) (hsub' : touched' ⊆ project.outputs.map place) :
    Reworks (project.outputs.map place) (touched ++ touched') s after :=
  hreworks.trans hreworks' h.aside hsub hsub'

/-- What a build needs to reach its end is given when it has only reworked the outputs. -/
theorem orderly (h : project.Ready place before)
    (hreworks : Reworks (project.outputs.map place) (project.outputs.map place) before after) :
    project.Orderly before after := by
  have hafter := h.of_reworks hreworks
  constructor
  case nodes =>
    intro l hl
    obtain ⟨hwas, hshort, hnot⟩ := h.nodes l hl
    obtain ⟨content, executable, time, hfind⟩ := exists_find?_of_hasFile hwas
    refine ⟨content, executable, time, h.wellFormed.stat_path hfind (by simp) hshort,
      hafter.wellFormed.stat_path ?_ (by simp) hshort⟩
    rw [hreworks.find?_eq_of_hasFile hwas hnot, hfind]
  case sources =>
    intro file hfile
    obtain ⟨l, hlead, hwas, -⟩ := h.sources file hfile
    exact ⟨l, hlead, isSome_of_hasFile hwas⟩
  case objects =>
    intro object hobject
    have hmem := mem_outputs_of_mem_objects hobject
    exact (h.placed hmem).isFolder_eq_false h.wellFormed (h.plain hmem)
  case database =>
    intro object hobject l hdatabase hsame
    have heq := (hafter.placed project.databasePath_mem_outputs).eq_of_resolve
      hafter.wellFormed hdatabase
    have heq' := (hafter.placed (mem_outputs_of_mem_objects hobject)).eq_of_resolve
      hafter.wellFormed hsame
    exact (h.place_object_ne hobject).2 (heq'.symm.trans heq)
  case links => exact fun _ l target hlink ↦ hreworks.find?_link_iff.2 hlink

end Ready

/-! ### Projects that are spelled out -/

/-- What has to be decided of a store for a project to be ready there, when outputs are where their names
spell. -/
structure Spelled (project : Project) (s : FileStore) : Prop where
  /-- Everything is in a folder. -/
  wellFormed : s.WellFormed
  /-- Relative paths begin at the root. -/
  current : s.current = .root
  /-- The paths of outputs spell their places. -/
  outputs : ∀ p ∈ project.outputs, s.Spells p
  /-- Outputs have places of their own. -/
  distinct : (project.outputs.map namedPlace).Nodup
  /-- None is on the way to another. -/
  aside : ∀ p ∈ project.outputs, ∀ p' ∈ project.outputs,
    namedPlace p ∉ (namedPlace p').parent.around
  /-- What sources depend on are files, and no outputs. -/
  nodes : ∀ l ∈ project.graph.locations,
    s.HasFile l ∧ tooLong l.path = false ∧ l ∉ project.outputs.map namedPlace
  /-- Sources lead to such files. -/
  sources : ∀ file ∈ project.sources, ∃ l ∈ project.graph.locations,
    s.lead true file.path = .ok (.existing l)

instance : Decidable (project.Spelled s) :=
  decidable_of_iff
    (s.WellFormed ∧ s.current = .root ∧ (∀ p ∈ project.outputs, s.Spells p) ∧
      (project.outputs.map namedPlace).Nodup ∧
      (∀ p ∈ project.outputs, ∀ p' ∈ project.outputs, namedPlace p ∉ (namedPlace p').parent.around) ∧
      (∀ l ∈ project.graph.locations,
        s.HasFile l ∧ tooLong l.path = false ∧ l ∉ project.outputs.map namedPlace) ∧
      ∀ file ∈ project.sources, ∃ l ∈ project.graph.locations,
        s.lead true file.path = .ok (.existing l))
    ⟨fun ⟨h1, h2, h3, h4, h5, h6, h7⟩ ↦ ⟨h1, h2, h3, h4, h5, h6, h7⟩,
      fun h ↦ ⟨h.wellFormed, h.current, h.outputs, h.distinct, h.aside, h.nodes, h.sources⟩⟩

/-- A project is ready where it is spelled out. -/
theorem Spelled.ready (h : project.Spelled s) : project.Ready namedPlace s where
  wellFormed := h.wellFormed
  apart := ⟨fun p hp ↦ (h.outputs p hp).placed h.wellFormed h.current, h.distinct, h.aside⟩
  no_folder := fun p hp ↦ (h.outputs p hp).no_folder
  nodes := h.nodes
  sources := by
    intro file hfile
    obtain ⟨l, hl, hlead⟩ := h.sources file hfile
    obtain ⟨hfile, -, hnot⟩ := h.nodes l hl
    exact ⟨l, hlead, hfile, hnot⟩

/-! ### Passes -/

/-- The places of the objects that deeds have made. -/
def madePlaces (place : Path → Location) (deeds : List Deed) : List Location :=
  (deeds.filter (·.done.succeeded)).map fun deed ↦ place deed.task.object

theorem madePlaces_subset (hobjects : ∀ deed ∈ deeds, deed.task.object ∈ project.objects) :
    madePlaces place deeds ⊆ project.outputs.map place := by
  intro l hl
  obtain ⟨deed, hdeed, rfl⟩ := List.mem_map.1 hl
  exact List.mem_map_of_mem
    (mem_outputs_of_mem_objects (hobjects deed (List.mem_filter.1 hdeed).1))

namespace Ready

/-- Making the folders around an output is a reworking. -/
theorem reworks_createFolders {p : Path} (h : project.Ready place s) (hp : p ∈ project.outputs) :
    ∃ folder, p.parent? = some folder ∧
      Reworks (project.outputs.map place) [] s (s.createFolders folder).2 :=
  Reworks.of_createFolders h.wellFormed (h.placed hp) (List.mem_map_of_mem hp)

theorem reworks_makeFolder {task : Task} {result : Except FileError Unit} {made : FileStore}
    (h : project.Ready place s) (hobject : task.object ∈ project.objects)
    (hmake : task.makeFolder s = (result, made)) :
    Reworks (project.outputs.map place) [] s made := by
  obtain ⟨folder, hparent, hreworks⟩ :=
    h.reworks_createFolders (mem_outputs_of_mem_objects hobject)
  rw [Task.makeFolder, hparent] at hmake
  dsimp only at hmake
  rw [hmake] at hreworks
  exact hreworks

/-- A command that makes an output reworks its place. -/
theorem reworks_makes {p : Path} (h : project.Ready place s) (hp : p ∈ project.outputs)
    (hmakes : s.Makes p s') : Reworks (project.outputs.map place) [place p] s s' := by
  obtain ⟨l, time, hwrites, -⟩ := hmakes
  exact .of_writes h.wellFormed (h.placed hp) (List.mem_map_of_mem hp) hwrites

/-- A deed reworks the place of its object if it succeeds. -/
theorem reworks_executes (h : project.Ready place s) (hexecutes : Executes executor s deed s')
    (hobject : deed.task.object ∈ project.objects)
    (hmakes : executor.Makes deed.task.command deed.task.object)
    (hspares : executor.Spares deed.task.command) :
    Reworks (project.outputs.map place) (madePlaces place [deed]) s s' := by
  have hmem := mem_outputs_of_mem_objects hobject
  have hsub {touched : List Location} (hsub : touched ⊆ [place deed.task.object]) :
      touched ⊆ project.outputs.map place :=
    fun l hl ↦ List.mem_singleton.1 (hsub hl) ▸ List.mem_map_of_mem hmem
  cases hexecutes with
  | refused hmake => exact (h.reworks_makeFolder hobject hmake).mono (List.nil_subset _)
  | @ran task made _ outcome hmake hran =>
    have hfolder := h.reworks_makeFolder hobject hmake
    have hready := h.of_reworks (hfolder.mono (List.nil_subset _))
    cases hsuccess : outcome.success with
    | true =>
      have hmade := hmakes made (by rw [hran, hsuccess])
      rw [hran] at hmade
      have hplaces : madePlaces place [⟨task, none, task.completed outcome s'⟩] =
          [place task.object] := by
        simp [madePlaces, Task.completed, hsuccess]
      rw [hplaces]
      exact h.trans hfolder (hready.reworks_makes hmem hmade) (List.nil_subset _)
        (hsub (List.Subset.refl _))
    | false =>
      have hspared := hspares made (by rw [hran, hsuccess])
      rw [hran] at hspared
      have hplaces : madePlaces place [⟨task, none, task.completed outcome s'⟩] = [] := by
        simp [madePlaces, Task.completed, hsuccess]
      have hkept : Reworks (project.outputs.map place) [] _ _ :=
        .of_unchanged hready.wellFormed hspared
      rw [hplaces]
      exact h.trans hfolder hkept (List.nil_subset _) (List.nil_subset _)

/-- A pass reworks the places of the objects of the deeds that succeed. -/
theorem reworks_executesAll (h : project.Ready place s) (hexecutes : ExecutesAll executor s deeds s')
    (hobjects : ∀ deed ∈ deeds, deed.task.object ∈ project.objects)
    (hmakes : ∀ deed ∈ deeds, executor.Makes deed.task.command deed.task.object)
    (hspares : ∀ deed ∈ deeds, executor.Spares deed.task.command) :
    Reworks (project.outputs.map place) (madePlaces place deeds) s s' := by
  induction hexecutes with
  | nil => exact .refl h.wellFormed
  | @cons _ _ _ deed deeds hfirst hrest ih =>
    have hplaces : madePlaces place (deed :: deeds) =
        madePlaces place [deed] ++ madePlaces place deeds := by
      rw [madePlaces, madePlaces, madePlaces, ← List.map_append, ← List.filter_append]
      rfl
    have hfirstSub := @madePlaces_subset place [deed] project fun other hother ↦
      hobjects other (List.mem_cons.2 (Or.inl (List.mem_singleton.1 hother)))
    rw [List.forall_mem_cons] at hobjects hmakes hspares
    have hreworks := h.reworks_executes hfirst hobjects.1 hmakes.1 hspares.1
    rw [hplaces]
    exact h.trans hreworks
      (ih (h.of_reworks (hreworks.mono hfirstSub)) hobjects.2 hmakes.2 hspares.2) hfirstSub
      (madePlaces_subset hobjects.2)

/-- Writing the compile database reworks its place. -/
theorem reworks_withDatabase (h : project.Ready place s) (tasks : List Task) (debug : Bool) :
    Reworks (project.outputs.map place) [place project.databasePath] s
      (project.withDatabase debug tasks s) := by
  have hmem := project.databasePath_mem_outputs
  rcases project.withDatabase_cases debug tasks s with hsame | ⟨l, hwrites⟩
  · rw [hsame]
    exact .refl h.wellFormed
  · exact .of_writes h.wellFormed (h.placed hmem) (List.mem_map_of_mem hmem) hwrites

/-- The path of an output leads to its place, if it leads to anything. -/
theorem locate_output {followLast : Bool} {p : Path} {l : Location} {e : Entry}
    (h : project.Ready place s) (hp : p ∈ project.outputs)
    (hlocate : s.locate followLast p = .ok (l, e)) : s.find? l = some e ∧ place p = l := by
  rw [locate] at hlocate
  cases hdest : s.resolve followLast p with
  | error =>
    rw [hdest] at hlocate
    cases hlocate
  | ok dest =>
    rw [hdest] at hlocate
    obtain ⟨rfl, hfind⟩ := find?_of_arrive hlocate
    exact ⟨hfind, ((h.placed hp).eq_of_resolve h.wellFormed hdest).symm⟩

theorem reworks_makeRoom {result : Except BuildError Unit} {made : FileStore}
    (h : project.Ready place s) (hmake : project.makeRoom s = (result, made)) :
    Reworks (project.outputs.map place) [] s made := by
  obtain ⟨folder, hparent, hreworks⟩ := h.reworks_createFolders project.artifact_mem_outputs
  unfold makeRoom at hmake
  rw [hparent] at hmake
  dsimp only at hmake
  split at hmake <;> cases hmake <;> rename_i hcreate <;> rw [hcreate] at hreworks <;> exact hreworks

/-- Removing a library reworks the place of the artifact. -/
theorem reworks_clear {result : Except BuildError Unit} {made : FileStore}
    (h : project.Ready place s) (hclear : project.clear s = (result, made)) :
    Reworks (project.outputs.map place) [place project.artifact] s made := by
  have hmem := project.artifact_mem_outputs
  rw [clear] at hclear
  split at hclear
  · split at hclear <;> cases hclear
    · rename_i hremove
      obtain ⟨l, e, hlocate, hfolder, hloses⟩ := exists_loses hremove
      obtain ⟨hfind, rfl⟩ := h.locate_output hmem hlocate
      have hfile : s.HasFile (place project.artifact) := by
        refine (h.plain hmem).resolve_right fun hnone ↦ ?_
        rw [hnone] at hfind
        cases hfind
      exact .of_loses h.wellFormed hfile (List.mem_map_of_mem hmem) hloses
    · exact .refl h.wellFormed
  · cases hclear
    exact .refl h.wellFormed

theorem reworks_prepare {result : Except BuildError Unit} {made : FileStore}
    (h : project.Ready place s) (hprepare : project.prepare s = (result, made)) :
    Reworks (project.outputs.map place) [place project.artifact] s made := by
  have hsub : [place project.artifact] ⊆ project.outputs.map place :=
    List.cons_subset.2 ⟨List.mem_map_of_mem project.artifact_mem_outputs, List.nil_subset _⟩
  rcases hroom : project.makeRoom s with ⟨made' | _, room⟩
  · rw [prepare_of_error hroom] at hprepare
    cases hprepare
    exact (h.reworks_makeRoom hroom).mono (List.nil_subset _)
  · rw [prepare_of_ok hroom] at hprepare
    have hreworks := h.reworks_makeRoom hroom
    have hready := h.of_reworks (hreworks.mono (List.nil_subset _))
    exact h.trans hreworks (hready.reworks_clear hprepare) (List.nil_subset _) hsub

/-- Making the artifact reworks its place. -/
theorem reworks_links {result : Except BuildError Unit} {commands : List CommandLine}
    (h : project.Ready place s) (hlinks : project.Links options executor s result s' commands)
    (hcareful : project.Careful options.debug executor) :
    Reworks (project.outputs.map place) [place project.artifact] s s' := by
  have hsub : [place project.artifact] ⊆ project.outputs.map place :=
    List.cons_subset.2 ⟨List.mem_map_of_mem project.artifact_mem_outputs, List.nil_subset _⟩
  cases hlinks with
  | unprepared hprepare => exact h.reworks_prepare hprepare
  | failed hprepare hran hfailed =>
    have hreworks := h.reworks_prepare hprepare
    have hspared := hcareful.spares_finish _ (by rw [hran, hfailed])
    rw [hran] at hspared
    have hkept : Reworks (project.outputs.map place) [] _ _ :=
      .of_unchanged hreworks.wellFormed hspared
    exact (h.trans hreworks hkept hsub (List.nil_subset _)).mono (by simp)
  | made hprepare hran hsucceeded =>
    have hreworks := h.reworks_prepare hprepare
    have hmade := hcareful.finishes _ (by rw [hran, hsucceeded])
    rw [hran] at hmade
    exact (h.trans hreworks ((h.of_reworks (hreworks.mono hsub)).reworks_makes
      project.artifact_mem_outputs hmade) hsub hsub).mono (by simp)

/-- What a build does behind its tasks reworks the places of the compile database and the
artifact. -/
theorem reworks_concludes {tasks : List Task} {report : Report}
    {result : Except BuildError BuildSummary} {finishing : List CommandLine}
    (h : project.Ready place s)
    (hconcludes : project.Concludes options executor tasks report s result s' finishing)
    (hcareful : project.Careful options.debug executor) :
    Reworks (project.outputs.map place)
      [place project.databasePath, place project.artifact] s s' := by
  have hdatabase := h.reworks_withDatabase tasks options.debug
  have hsub : [place project.databasePath] ⊆ project.outputs.map place :=
    List.cons_subset.2 ⟨List.mem_map_of_mem project.databasePath_mem_outputs, List.nil_subset _⟩
  have hsub' : [place project.artifact] ⊆ project.outputs.map place :=
    List.cons_subset.2 ⟨List.mem_map_of_mem project.artifact_mem_outputs, List.nil_subset _⟩
  cases hconcludes with
  | failed => exact .refl h.wellFormed
  | fresh => exact hdatabase.mono (by simp)
  | linked _ _ hlinks =>
    exact h.trans hdatabase
      ((h.of_reworks (hdatabase.mono hsub)).reworks_links hlinks hcareful) hsub hsub'

/-- A pass reworks the places of the objects that are made. -/
theorem reworks_compiled {compiled : FileStore} {result : Except BuildError BuildSummary}
    {finishing : List CommandLine} (h : project.Ready place s)
    (hcourse : project.Course options executor s deeds compiled result s' finishing)
    (hcareful : project.Careful options.debug executor) :
    Reworks (project.outputs.map place) (madePlaces place deeds) s compiled ∧
      madePlaces place deeds ⊆ project.outputs.map place := by
  have hobjects : ∀ deed ∈ deeds, deed.task.object ∈ project.objects := fun _ ↦ hcourse.object_mem
  exact ⟨h.reworks_executesAll hcourse.executes hobjects (hcareful.makes_deeds hcourse)
    (hcareful.spares_deeds hcourse), madePlaces_subset hobjects⟩

/-- A build reworks the places of the outputs. -/
theorem reworks_course {compiled : FileStore} {result : Except BuildError BuildSummary}
    {finishing : List CommandLine} (h : project.Ready place s)
    (hcourse : project.Course options executor s deeds compiled result s' finishing)
    (hcareful : project.Careful options.debug executor) :
    Reworks (project.outputs.map place) (project.outputs.map place) s s' := by
  obtain ⟨hcompiled, hsub⟩ := h.reworks_compiled hcourse hcareful
  have hsub' : [place project.databasePath, place project.artifact] ⊆ project.outputs.map place :=
    List.cons_subset.2 ⟨List.mem_map_of_mem project.databasePath_mem_outputs,
      List.cons_subset.2 ⟨List.mem_map_of_mem project.artifact_mem_outputs, List.nil_subset _⟩⟩
  have hconcludes := (h.of_reworks (hcompiled.mono hsub)).reworks_concludes hcourse.concludes hcareful
  exact (h.trans hcompiled hconcludes hsub hsub').mono (List.append_subset.2 ⟨hsub, hsub'⟩)

end Ready

end Project

end Rebuild
