import Rebuild.Proofs.Path.Joining
import Rebuild.Proofs.Project.Advance

/-!
# Sites whose outputs are where their paths spell

When relative paths begin at the root of the files and outputs are where their names spell, it can be decided
whether a site fits a store (`Site.Spelled.fits`). Objects are then below the root's object folder,
whatever files there are.
-/

namespace Rebuild

open FileStore

namespace FileStore

instance : DecidableEq FileStore := fun s t ↦
  decidable_of_iff (s.entries = t.entries ∧ s.current = t.current ∧ s.clock = t.clock)
    ⟨fun ⟨hentries, hcurrent, hclock⟩ ↦ by
      cases s
      cases t
      cases hentries
      cases hcurrent
      cases hclock
      rfl,
    fun h ↦ h ▸ ⟨rfl, rfl, rfl⟩⟩

end FileStore

namespace Site

variable {site : Site} {s : FileStore} {p : Path} {l : Location}

/-- Whether a path leads to no output. -/
def Avoids (site : Site) (s : FileStore) (p : Path) : Bool :=
  (s.landing? p).all fun l ↦ l ∉ (site.project s).outputs.map namedPlace

theorem not_mem_of_avoids (havoids : site.Avoids s p = true)
    (hresolve : s.resolve true p = .ok (.existing l)) : l ∉ (site.project s).outputs.map namedPlace := by
  rw [Avoids, landing?_of_lead (lead_of_resolve hresolve)] at havoids
  simpa using havoids

/-- What has to be decided of a store for a site to fit it, when outputs are where their names spell. -/
structure Spelled (site : Site) (s : FileStore) : Prop where
  /-- The project can be built. -/
  project : (site.project s).Spelled s
  /-- Nothing is listed twice. -/
  distinct : s.locations.Nodup
  /-- Paths of sources are accepted. -/
  short : ∀ file ∈ site.sources s, tooLong file.path = false
  /-- No include leads to an output. -/
  includes : ∀ l ∈ (site.project s).graph.locations, ∀ name ∈ Include.namesAt s l,
    (Include.firstExisting? s ((l.parent.path :: site.folders s).map (·.join name))).all (site.Avoids s)
  /-- No library is an output. -/
  libraries : ∀ p ∈ site.libraryPaths, site.Avoids s p

theorem spelled_iff : site.Spelled s ↔
    (site.project s).Spelled s ∧ s.locations.Nodup ∧
      (∀ file ∈ site.sources s, tooLong file.path = false) ∧
      (∀ l ∈ (site.project s).graph.locations, ∀ name ∈ Include.namesAt s l,
        (Include.firstExisting? s ((l.parent.path :: site.folders s).map (·.join name))).all
          (site.Avoids s)) ∧
      ∀ p ∈ site.libraryPaths, site.Avoids s p := by
  constructor
  · exact fun h ↦ ⟨h.project, h.distinct, h.short, h.includes, h.libraries⟩
  · rintro ⟨hproject, hdistinct, hshort, hincludes, hlibraries⟩
    exact ⟨hproject, hdistinct, hshort, hincludes, hlibraries⟩

instance : Decidable (site.Spelled s) :=
  decidable_of_iff _ spelled_iff.symm

/-- A site fits a store where it is spelled out. -/
theorem Spelled.fits (h : site.Spelled s) (hplace : site.place = namedPlace) : site.Fits s where
  ready := by
    rw [hplace]
    exact h.project.ready
  distinct := h.distinct
  short := by
    intro file hfile
    refine ⟨h.short file hfile, fun l' hlead' ↦ ?_⟩
    obtain ⟨l, hl, hlead⟩ := h.project.sources file hfile
    obtain rfl : l = l' := by simpa using hlead.symm.trans hlead'
    exact (h.project.nodes l hl).2.1
  includes := by
    intro l hl name hname p hfound m hresolve
    have havoids := h.includes l hl name hname
    rw [hfound, Option.all_some] at havoids
    rw [outputPlaces, hplace]
    exact not_mem_of_avoids havoids hresolve
  libraries := by
    intro p hp l hresolve
    rw [outputPlaces, hplace]
    exact not_mem_of_avoids (h.libraries p hp) hresolve

/-- A site without libraries is steady as long as includes lead where they led. -/
theorem steady_of_resolve?_eq {s s' : FileStore} (hlibraries : site.libraryPaths = [])
    (h : ∀ l ∈ (site.project s').graph.locations, ∀ name ∈ Include.namesAt s' l,
      Include.resolve? s' l.parent.path (site.folders s') name =
        Include.resolve? s l.parent.path (site.folders s) name) : site.Steady s s' where
  includes l hl name hname := Or.inl (h l hl name hname)
  libraries p hp := by
    rw [hlibraries] at hp
    cases hp

/-! ### What builds write -/

/-- Objects are below the object folder, whatever their sources are. -/
theorem prefix_names_objectOf (hstem : Path.SegmentName site.stem)
    (hextension : Path.Segment site.config.platform.objectExtension) (file : ProjectFile) :
    site.root.names ++ ["obj"] <+: (site.objectOf file).names := by
  have hobj : Path.SegmentName "obj" := ⟨segment_obj, by decide, by decide⟩
  have hobject : ∃ rest, (site.objectOf file).body = (site.root.joinName "obj").body ++ rest ∧
      (site.objectOf file).isAbsolute = (site.root.joinName "obj").isAbsolute := by
    rw [objectOf, Path.body_joinName segment_obj.no_slash, Path.isAbsolute_joinName segment_obj.no_slash]
    rcases List.eq_nil_or_concat file.relative.names with hnames | ⟨names, name, hnames⟩
    · have hbody := @body_trunk _ [] site.root hstem.toSegment (by simp)
      have habsolute := @isAbsolute_trunk _ [] site.root hstem.toSegment (by simp)
      rw [List.append_nil, objectFolder, List.append_cons] at hbody
      rw [objectPath, hnames, Path.body_withExtension hstem hbody hextension,
        Path.isAbsolute_withExtension hstem hbody hextension, habsolute]
      exact ⟨_, rfl, rfl⟩
    · rw [List.concat_eq_append] at hnames
      rw [body_objectPath hstem.toSegment hextension hnames,
        isAbsolute_objectPath hstem.toSegment hextension hnames, objectFolder]
      exact ⟨_, by simp only [List.append_assoc, List.cons_append]; rfl, rfl⟩
  obtain ⟨rest, hbody, habsolute⟩ := hobject
  rw [Path.names_eq_filterMap (site.objectOf file), Path.components_of_body habsolute hbody,
    Path.components_joinName hobj, List.filterMap_append, List.filterMap_append,
    ← Path.names_eq_filterMap]
  exact List.prefix_append _ _

/-- Builds write the artifact, the compile database, and what is below the object folder. -/
theorem Written.cases (hplace : site.place = namedPlace) (hstem : Path.SegmentName site.stem)
    (hextension : Path.Segment site.config.platform.objectExtension) (h : site.Written l) :
    l = namedPlace (site.root.join site.config.artifactPath) ∨
      l = namedPlace (site.root.joinName Project.databaseName) ∨ site.root.names ++ ["obj"] <+: l.names := by
  obtain ⟨s, hl⟩ := h
  rcases mem_outputPlaces.1 hl with rfl | rfl | ⟨file, -, rfl⟩
  · rw [artifactPlace, hplace]
    exact Or.inl rfl
  · rw [hplace]
    exact Or.inr (Or.inl rfl)
  · rw [objectPlace, hplace]
    exact Or.inr (Or.inr (prefix_names_objectOf hstem hextension file))

/-- A store is bare that has no artifact and no file below the object folder. -/
theorem bare_of_named (hplace : site.place = namedPlace) (hstem : Path.SegmentName site.stem)
    (hextension : Path.Segment site.config.platform.objectExtension)
    (hartifact : ¬s.HasFile (namedPlace (site.root.join site.config.artifactPath)))
    (hobjects : ∀ l ∈ s.locations, site.root.names ++ ["obj"] <+: l.names → ¬s.HasFile l) :
    site.Bare s := by
  constructor
  case artifact => rwa [artifactPlace, hplace]
  case objects =>
    intro t file _ hfile
    refine hobjects _ (find?_isSome_iff.1 (isSome_of_hasFile hfile)) ?_ hfile
    rw [objectPlace, hplace]
    exact prefix_names_objectOf hstem hextension file

end Site

end Rebuild
