import Rebuild.Proofs.Project.Advance

/-!
# Removing outputs

A store is *cleaned* when the outputs of a project have been removed and nothing else. No output is on
the way to anything that is read, so the project that is loaded from a cleaned store has the same
sources, the same translation units and the same libraries.
-/

namespace Rebuild

open FileStore

namespace FileStore

/-- Nothing is where things have been removed, and everything else is as it was. -/
theorem find?_foldl_erase (places : List Location) (s : FileStore) (x : Location) :
    (places.foldl erase s).find? x = if x ∈ places then none else s.find? x := by
  induction places generalizing s with
  | nil => simp
  | cons l places ih =>
    rw [List.foldl_cons, ih, find?_erase]
    by_cases hx : x = l <;> simp [hx]

theorem sublist_foldl_erase (places : List Location) (s : FileStore) :
    (places.foldl erase s).locations.Sublist s.locations := by
  induction places generalizing s with
  | nil => exact List.Sublist.refl _
  | cons l places ih => exact (ih (s.erase l)).trans (List.filter_sublist.map _)

theorem current_foldl_erase (places : List Location) (s : FileStore) :
    (places.foldl erase s).current = s.current := by
  induction places generalizing s with
  | nil => rfl
  | cons l places ih => exact ih (s.erase l)

end FileStore

namespace Site

variable {site : Site} {tooling : Tooling} {s c : FileStore} {file : ProjectFile} {l m : Location}
variable {p : Path} {name : Path}

/-- The store `c` is `s` without the outputs of the project. The folders around them may count as
changed. -/
structure Cleaned (site : Site) (s c : FileStore) : Prop where
  /-- Relative paths begin in the same folder. -/
  current : c.current = s.current
  /-- Nothing is listed twice. -/
  distinct : c.locations.Nodup
  /-- The outputs are gone. -/
  outputs : ∀ l ∈ site.outputPlaces s, c.find? l = none
  /-- Everything else is as it was. -/
  others : ∀ l, l ∉ site.outputPlaces s → c.find? l = s.find? l ∨ s.HasFolder l ∧ c.HasFolder l

/-- The store without the outputs of the project. -/
def cleaned (site : Site) (s : FileStore) : FileStore :=
  (site.outputPlaces s).foldl erase s

theorem cleaned_cleaned (site : Site) (hdistinct : s.locations.Nodup) :
    site.Cleaned s (site.cleaned s) := by
  have hfind (l : Location) : (site.cleaned s).find? l =
      if l ∈ site.outputPlaces s then none else s.find? l := find?_foldl_erase _ s l
  refine ⟨current_foldl_erase _ s, hdistinct.sublist (sublist_foldl_erase _ s), fun l hl ↦ ?_,
    fun l hl ↦ Or.inl ?_⟩
  · rw [hfind, if_pos hl]
  · rw [hfind, if_neg hl]

namespace Cleaned

/-! ### Where paths lead -/

theorem kind?_eq (h : site.Cleaned s c) (hl : l ∉ site.outputPlaces s) : c.kind? l = s.kind? l := by
  rcases h.others l hl with hsame | ⟨hwas, his⟩
  · rw [kind?, kind?, hsame]
  · rw [hasFolder_iff_kind?.1 hwas, hasFolder_iff_kind?.1 his]

/-- What is left was no output. -/
theorem not_mem (h : site.Cleaned s c) (hl : (c.find? l).isSome) : l ∉ site.outputPlaces s := by
  intro hmem
  rw [h.outputs l hmem] at hl
  cases hl

/-- What is no output is there if it was there. -/
theorem isSome_iff (h : site.Cleaned s c) (hl : l ∉ site.outputPlaces s) :
    (c.find? l).isSome ↔ (s.find? l).isSome := by
  rw [Option.isSome_iff_ne_none, Option.isSome_iff_ne_none, Ne, Ne, ← kind?_eq_none_iff,
    ← kind?_eq_none_iff, h.kind?_eq hl]

theorem not_mem_of_kind? {kind : Entry.Kind} (h : site.Cleaned s c) (hl : c.kind? l = some kind) :
    l ∉ site.outputPlaces s := by
  refine h.not_mem (Option.isSome_iff_ne_none.2 fun hnone ↦ ?_)
  rw [kind?_eq_none_iff.2 hnone] at hl
  cases hl

/-- Files that are left are as they were. -/
theorem find?_eq (h : site.Cleaned s c) (hl : l ∉ site.outputPlaces s) (hfile : s.HasFile l) :
    c.find? l = s.find? l := by
  rcases h.others l hl with hsame | ⟨hfolder, -⟩
  · exact hsame
  · exact absurd hfolder (Plain.not_hasFolder (Or.inl hfile))

theorem hasFile (h : site.Cleaned s c) (hl : l ∉ site.outputPlaces s) (hfile : s.HasFile l) :
    c.HasFile l :=
  (h.kind?_eq hl).trans hfile

/-- Nothing has come. -/
theorem keepsWays_back (h : site.Cleaned s c) : c.KeepsWays s :=
  ⟨h.current.symm, fun _ _ _ hkind ↦ (h.kind?_eq (h.not_mem_of_kind? hkind)).symm.trans hkind⟩

/-- A cleaned store has no outputs, if the store had none but those of the project. -/
theorem bare (h : site.Cleaned s c) (hsound : site.Sound tooling s) : site.Bare c := by
  have hgone {l : Location} (hl : site.Written l) (hfile : c.HasFile l) : False := by
    have hnot := h.not_mem_of_kind? hfile
    exact hsound.orphans l hl hnot ((h.kind?_eq hnot).symm.trans hfile)
  exact ⟨hgone ⟨s, site.artifactPlace_mem s⟩, fun t file hfile ↦ hgone ⟨t, objectPlace_mem hfile⟩⟩

variable (h : site.Cleaned s c) (hfits : site.Fits s)
include h hfits

/-- No folder and no link has gone. -/
theorem keepsWays : s.KeepsWays c := by
  refine ⟨h.current, fun l kind hfile hkind ↦ (h.kind?_eq fun hmem ↦ ?_).trans hkind⟩
  obtain ⟨p, hp, rfl⟩ := List.mem_map.1 hmem
  rcases hfits.ready.plain hp with hplain | hnone
  · rw [show s.kind? _ = _ from hplain] at hkind
    exact hfile (Option.some.inj hkind).symm
  · rw [kind?_eq_none_iff.2 hnone] at hkind
    cases hkind

theorem wellFormed : c.WellFormed := by
  have hfolder {l : Location} (hl : s.HasFolder l) : c.HasFolder l :=
    hasFolder_iff_kind?.2 ((h.keepsWays hfits).kind l _ (by simp) (hasFolder_iff_kind?.1 hl))
  have hsome {l : Location} (hl : (c.find? l).isSome) : (s.find? l).isSome :=
    (h.isSome_iff (h.not_mem hl)).1 hl
  exact ⟨hfolder hfits.wellFormed.root, h.current ▸ hfolder hfits.wellFormed.current,
    fun l hl ↦ hfolder (hfits.wellFormed.parent l (hsome hl)),
    fun l hl ↦ hfits.wellFormed.names l (hsome hl)⟩

/-- A path leads where it led, if it led to no output. -/
theorem resolve_iff (hl : l ∉ site.outputPlaces s) :
    c.resolve true p = .ok (.existing l) ↔ s.resolve true p = .ok (.existing l) :=
  ⟨h.keepsWays_back.resolve_eq (h.kind?_eq hl).symm, (h.keepsWays hfits).resolve_eq (h.kind?_eq hl)⟩

theorem isFolder_eq (p : Path) : c.isFolder p = s.isFolder p := by
  rw [Bool.eq_iff_iff, isFolder_iff, isFolder_iff]
  have hfolder (l : Location) : c.HasFolder l ↔ s.HasFolder l := by
    rw [hasFolder_iff_kind?, hasFolder_iff_kind?]
    exact ⟨h.keepsWays_back.kind l _ (by simp), (h.keepsWays hfits).kind l _ (by simp)⟩
  have hnot {l : Location} (hl : c.HasFolder l) : l ∉ site.outputPlaces s :=
    h.not_mem_of_kind? (hasFolder_iff_kind?.1 hl)
  constructor
  · rintro ⟨l, hlead, hl⟩
    exact ⟨l, (h.resolve_iff hfits (hnot hl)).1 hlead, (hfolder l).1 hl⟩
  · rintro ⟨l, hlead, hl⟩
    have hl := (hfolder l).2 hl
    exact ⟨l, (h.resolve_iff hfits (hnot hl)).2 hlead, hl⟩

/-! ### What is loaded -/

theorem folders_eq : site.folders c = site.folders s := by
  rw [folders, folders, Project.includeFolders, Project.includeFolders,
    funext fun p ↦ h.isFolder_eq hfits p]

theorem sources_eq : site.sources c = site.sources s := by
  refine List.Sublist.antisymm ?_ ?_
  · refine sublist_sources h.keepsWays_back (h.wellFormed hfits) h.distinct
      fun file hfile l hlead ↦ ?_
    obtain ⟨l', content, executable, time, hlead', hfind⟩ :=
      Project.leadsToFile_of_mem_sources (h.wellFormed hfits) hfile
    obtain rfl : l' = l := by simpa using hlead'.symm.trans hlead
    have hl := hasFile_of_find? hfind
    exact (h.kind?_eq (h.not_mem_of_kind? hl)).symm.trans hl
  · refine sublist_sources (h.keepsWays hfits) hfits.wellFormed hfits.distinct
      fun file hfile l hlead ↦ ?_
    obtain ⟨l', hlead', hl, hnot, -⟩ := hfits.exists_start hfile
    obtain rfl : l' = l := by simpa using hlead'.symm.trans hlead
    exact h.hasFile hnot hl

theorem outputs_eq : (site.project c).outputs = (site.project s).outputs := by
  have hobjects : (site.project c).objects = (site.project s).objects :=
    congrArg (List.map site.objectOf) (h.sources_eq hfits)
  rw [Project.outputs, Project.outputs, hobjects]
  rfl

/-- An include leads where it led, since it led to no output. -/
theorem resolve?_eq (hl : l ∈ (site.project s).graph.locations)
    (hname : name ∈ Include.namesAt s l) :
    Include.resolve? c l.parent.path (site.folders c) name =
      Include.resolve? s l.parent.path (site.folders s) name := by
  have hback {q : Path} (hq : s.pathExists q = false) : c.pathExists q = false := by
    refine Bool.eq_false_iff.2 fun hexists ↦ Bool.eq_false_iff.1 hq ?_
    obtain ⟨x, hlead, hsome⟩ := pathExists_iff.1 hexists
    have hnot := h.not_mem hsome
    exact pathExists_iff.2 ⟨x, (h.resolve_iff hfits hnot).1 hlead, (h.isSome_iff hnot).1 hsome⟩
  rw [h.folders_eq hfits, Include.resolve?, Include.resolve?]
  cases hfound : Include.firstExisting? s
      ((l.parent.path :: site.folders s).map (·.join name)) with
  | none =>
    rw [Include.firstExisting?, List.find?_eq_none] at hfound
    have hnone : Include.firstExisting? c
        ((l.parent.path :: site.folders s).map (·.join name)) = none :=
      List.find?_eq_none.2 fun q hq ↦ by simp [hback (Bool.eq_false_iff.2 (hfound q hq))]
    rw [hnone, Option.bind_none, Option.bind_none]
  | some p =>
    obtain ⟨before, after, hpaths, hexists, hbefore⟩ := Include.firstExisting?_eq_some_iff.1 hfound
    obtain ⟨x, hlead, hsome⟩ := pathExists_iff.1 hexists
    have hnot := hfits.includes l hl name hname p hfound x hlead
    have hlead' := (h.resolve_iff hfits hnot).2 hlead
    have hsome' := (h.isSome_iff hnot).2 hsome
    have hfound' : Include.firstExisting? c
        ((l.parent.path :: site.folders s).map (·.join name)) = some p :=
      Include.firstExisting?_eq_some_iff.2 ⟨before, after, hpaths,
        pathExists_iff.2 ⟨x, hlead', hsome'⟩, fun q hq ↦ hback (hbefore q hq)⟩
    rw [hfound', Option.bind_some, Option.bind_some,
      canonical?_eq_filter (lead_of_resolve hlead') hsome',
      canonical?_eq_filter (lead_of_resolve hlead) hsome]

/-- What is scanned is scanned as before. -/
theorem scan_eq (hl : l ∈ (site.project s).graph.locations) :
    Include.scan c (site.folders c) l = Include.scan s (site.folders s) l := by
  obtain ⟨hfile, hshort, hnot⟩ := hfits.ready.nodes l hl
  rw [Include.scan_eq_namesAt, Include.scan_eq_namesAt,
    namesAt_eq hfits.wellFormed (h.wellFormed hfits) (h.hasFile hnot hfile) hshort
      (h.find?_eq hnot hfile)]
  exact List.filterMap_congr fun name hname ↦ h.resolve?_eq hfits hl hname

/-- A source leads where it led, and is added as before. -/
theorem exists_start (hfile : file ∈ site.sources s) :
    ∃ l, l ∈ (site.project s).graph.locations ∧
      (s.lead true file.path = .ok (.existing l) ∧ l ∈ s.locations ∧
        Include.Graph.start? s (site.folders s) file.path = some l) ∧
      (c.lead true file.path = .ok (.existing l) ∧ l ∈ c.locations ∧
        Include.Graph.start? c (site.folders c) file.path = some l) := by
  obtain ⟨l, hlead, hl, hnot, hgraph⟩ := hfits.exists_start hfile
  obtain ⟨hshort, hshort'⟩ := hfits.short file hfile
  have hstart {t : FileStore} (hlead : t.lead true file.path = .ok (.existing l))
      (hl : t.HasFile l) (folders : List Path) :
      t.lead true file.path = .ok (.existing l) ∧ l ∈ t.locations ∧
        Include.Graph.start? t folders file.path = some l := by
    have hsome := isSome_of_hasFile hl
    exact ⟨hlead, find?_isSome_iff.1 hsome, Project.start?_of_pathExists
      (pathExists_of_lead hlead hsome hshort) (canonical?_of_lead hlead hsome (hshort' l ‹_›))⟩
  exact ⟨l, hgraph, hstart hlead hl _,
    hstart ((h.keepsWays hfits).lead_eq (h.kind?_eq hnot) hlead) (h.hasFile hnot hl) _⟩

/-- The graph is the same. -/
theorem graph_eq : (site.project c).graph = (site.project s).graph := by
  have hgraph (t : FileStore) : (site.project t).graph = (site.sources t).foldl
      (fun g file ↦ g.add t (site.folders t) file.path) ({} : Include.Graph) := rfl
  rw [hgraph, hgraph, h.sources_eq hfits]
  refine List.foldl_ext _ _ _ fun g file hfile ↦ ?_
  obtain ⟨l, hgraph, ⟨-, hl, hstart⟩, -, hl', hstart'⟩ := h.exists_start hfits hfile
  rw [Include.Graph.add, Include.Graph.add, hstart, hstart']
  exact Include.visit_eq_of_scan_eq g hl hl' fun m hm ↦
    h.scan_eq hfits (Fits.mem_graph hgraph hm)

theorem unitOf_eq (hfile : file ∈ site.sources s) : site.unitOf c file = site.unitOf s file := by
  obtain ⟨l, hgraph, ⟨hlead, hl, -⟩, hlead', hl', -⟩ := h.exists_start hfits hfile
  rw [unitOf, unitOf, landing?_of_lead hlead', landing?_of_lead hlead]
  refine Include.unit_eq hl hl' (fun m hm ↦ ?_) fun m hm ↦
    h.scan_eq hfits (Fits.mem_graph hgraph hm)
  obtain ⟨hfile, -, hnot⟩ := hfits.ready.nodes m (Fits.mem_graph hgraph hm)
  exact content?_congr (h.find?_eq hnot hfile)

theorem libraries_eq : site.libraries c = site.libraries s := by
  refine List.filterMap_congr fun p hp ↦ congrArg _ (Option.ext fun content ↦ ?_)
  rw [toOption_readBytes_eq_some_iff, toOption_readBytes_eq_some_iff]
  constructor
  · rintro ⟨l, hlead, hcontent⟩
    have hfile := hasFile_of_content? hcontent
    have hnot := h.not_mem_of_kind? hfile
    refine ⟨l, (h.resolve_iff hfits hnot).1 hlead, ?_⟩
    rwa [← content?_congr (h.find?_eq hnot ((h.kind?_eq hnot).symm.trans hfile))]
  · rintro ⟨l, hlead, hcontent⟩
    have hnot := hfits.libraries p hp l hlead
    refine ⟨l, (h.resolve_iff hfits hnot).2 hlead, ?_⟩
    rwa [content?_congr (h.find?_eq hnot (hasFile_of_content? hcontent))]

/-! ### What is built -/

/-- The project is ready to be built anew. -/
theorem ready : (site.project c).Ready site.place c := by
  have hready := hfits.ready
  constructor
  case wellFormed => exact h.wellFormed hfits
  case apart =>
    rw [h.outputs_eq hfits]
    refine ⟨fun p hp ↦ (hready.placed hp).of_keepsWays (h.keepsWays hfits) ?_,
      hready.apart.distinct, hready.apart.aside⟩
    intro x hx target hlink
    refine (hready.placed hp).no_link hfits.wellFormed hx target ?_
    rw [← kind?_eq_link_iff] at hlink ⊢
    rwa [← h.kind?_eq (h.not_mem_of_kind? hlink)]
  case no_folder =>
    rw [h.outputs_eq hfits]
    rintro p hp ⟨time, hfolder⟩
    rw [h.outputs _ (List.mem_map_of_mem hp)] at hfolder
    cases hfolder
  case nodes =>
    rw [h.graph_eq hfits, h.outputs_eq hfits]
    intro l hl
    obtain ⟨hfile, hshort, hnot⟩ := hready.nodes l hl
    exact ⟨h.hasFile hnot hfile, hshort, hnot⟩
  case sources =>
    rw [h.outputs_eq hfits, show (site.project c).sources = _ from h.sources_eq hfits]
    intro file hfile
    obtain ⟨l, hlead, hl, hnot, -⟩ := hfits.exists_start hfile
    exact ⟨l, (h.keepsWays hfits).lead_eq (h.kind?_eq hnot) hlead, h.hasFile hnot hl, hnot⟩

theorem outputPlaces_eq : site.outputPlaces c = site.outputPlaces s := by
  rw [outputPlaces, outputPlaces, h.outputs_eq hfits]

/-- No path leads to an output. -/
theorem not_mem_of_resolve (hlead : c.resolve true p = .ok (.existing l)) :
    l ∉ site.outputPlaces c := by
  obtain ⟨e, hfind, -⟩ := (h.wellFormed hfits).lead_real (lead_of_resolve hlead)
  rw [h.outputPlaces_eq hfits]
  exact h.not_mem (Option.isSome_of_eq_some hfind)

/-- The site fits a cleaned store. -/
theorem fits : site.Fits c where
  ready := h.ready hfits
  distinct := h.distinct
  short := by
    rw [h.sources_eq hfits]
    intro file hfile
    obtain ⟨hshort, hshort'⟩ := hfits.short file hfile
    obtain ⟨l, -, ⟨hlead, -, -⟩, hlead', -, -⟩ := h.exists_start hfits hfile
    refine ⟨hshort, fun l' hother ↦ ?_⟩
    obtain rfl : l = l' := by simpa using hlead'.symm.trans hother
    exact hshort' l hlead
  includes _ _ _ _ _ _ _ hlead := h.not_mem_of_resolve hfits hlead
  libraries _ _ _ hlead := h.not_mem_of_resolve hfits hlead

end Cleaned

end Site

end Rebuild
