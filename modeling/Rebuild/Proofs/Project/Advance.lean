import Rebuild.Proofs.Project.Site

/-!
# Outputs that are right or due

What commands make is a function of what they read. An output is *right* when it is what its command
would make of the files as they are, and a site is *sound* when every output that is not right is going
to be made again: an object that is not right is older than something that its source depends on, and an
artifact that is not right lacks an object, or is older than an object or a library.

Changing a file and building are both an *advance*: what is no output stays as it is or becomes the
latest file of all, and what is an output stays as it is or becomes right. A site that is sound stays
so in every advance in which it is steady.
-/

namespace Rebuild

open FileStore

/-- What commands make of what they read. -/
structure Tooling where
  /-- The object that a command makes of a translation unit. -/
  object : CommandLine → List Include.UnitFile → ByteArray
  /-- The artifact that a command makes of the archive that is there, of objects, and of libraries. -/
  artifact : CommandLine → Option ByteArray → List (Option ByteArray) → List (Path × ByteArray) →
    ByteArray

/-- What is at the location is a file, and every other file is older. -/
def FileStore.Latest (s : FileStore) (l : Location) : Prop :=
  ∃ time, s.fileTime? l = some time ∧ ∀ m, m ≠ l → ∀ time', s.fileTime? m = some time' → time' < time

theorem FileStore.Latest.hasFile {s : FileStore} {l : Location} (h : s.Latest l) : s.HasFile l := by
  obtain ⟨time, htime, -⟩ := h
  exact fileTime?_isSome_iff.1 (Option.isSome_of_eq_some htime)

namespace Site

variable {site : Site} {tooling : Tooling} {s s' : FileStore} {file : ProjectFile}
variable {l m : Location} {p : Path} {time : Time}

/-! ### What is right -/

/-- The command that compiles a file. -/
def compileCommand (site : Site) (file : ProjectFile) : CommandLine :=
  { config := site.config, root := site.root, debug := site.debug : Toolchain }.compile file.path
    (site.objectOf file)

/-- The command that makes the artifact of the objects of files. -/
def finishCommand (site : Site) (files : List ProjectFile) : CommandLine :=
  { config := site.config, root := site.root, debug := site.debug : Toolchain }.finish
    (files.map site.objectOf) (site.root.join site.config.artifactPath)

/-- The translation unit of a source. -/
def unitOf (site : Site) (s : FileStore) (file : ProjectFile) : List Include.UnitFile :=
  match s.landing? file.path with
  | some l => Include.unit s (site.folders s) l
  | none => []

/-- The right object of a source. -/
def objectBytes (site : Site) (tooling : Tooling) (s : FileStore) (file : ProjectFile) : ByteArray :=
  tooling.object (site.compileCommand file) (site.unitOf s file)

/-- The right artifact, if it is made of the objects in the store `made`. -/
def artifactBytes (site : Site) (tooling : Tooling) (s made : FileStore) : ByteArray :=
  tooling.artifact (site.finishCommand (site.sources s)) none
    ((site.sources s).map fun file ↦ made.content? (site.objectPlace file)) (site.libraries s)

/-! ### What is due -/

/-- Something that a source depends on has changed after a time. -/
def ChangedSince (site : Site) (s : FileStore) (file : ProjectFile) (time : Time) : Prop :=
  ∃ l m time', s.lead true file.path = .ok (.existing l) ∧
    Include.Closure s (site.folders s) l m ∧ s.fileTime? m = some time' ∧ time < time'

/-- The object of one of the files is not there, or one of their objects or a library has changed after a
time. -/
def DueSince (site : Site) (files : List ProjectFile) (s : FileStore) (time : Time) : Prop :=
  (∃ file ∈ files, ∀ time', s.fileTime? (site.objectPlace file) = some time' → time < time') ∨
  ∃ p ∈ site.libraryPaths, ∃ l time', s.resolve true p = .ok (.existing l) ∧
    s.fileTime? l = some time' ∧ time < time'

/-- Every output is right, or is going to be made again. -/
structure Sound (site : Site) (tooling : Tooling) (s : FileStore) : Prop where
  /-- No object is there but those of sources. -/
  orphans : ∀ l, site.Written l → l ∉ site.outputPlaces s → ¬s.HasFile l
  /-- Objects are right or outdated. -/
  objects : ∀ file ∈ site.sources s, ∀ content executable time,
    s.find? (site.objectPlace file) = some (.file content executable time) →
      content = site.objectBytes tooling s file ∨ site.ChangedSince s file time
  /-- The artifact is right or due. -/
  artifact : ∀ content executable time,
    s.find? site.artifactPlace = some (.file content executable time) →
      content = site.artifactBytes tooling s s ∨ site.DueSince (site.sources s) s time

/-- There is no artifact, and no object of whatever source. -/
structure Bare (site : Site) (s : FileStore) : Prop where
  /-- There is no artifact. -/
  artifact : ¬s.HasFile site.artifactPlace
  /-- There are no objects. -/
  objects : ∀ t, ∀ file ∈ site.sources t, ¬s.HasFile (site.objectPlace file)

theorem Bare.sound (h : site.Bare s) : site.Sound tooling s where
  orphans := by
    rintro l ⟨t, hl⟩ hnot
    rcases mem_outputPlaces.1 hl with rfl | rfl | ⟨file, hfile, rfl⟩
    · exact h.artifact
    · exact absurd (mem_outputPlaces.2 (Or.inr (Or.inl rfl))) hnot
    · exact h.objects t file hfile
  objects _ hfile _ _ _ hfind := absurd (hasFile_of_find? hfind) (h.objects s _ hfile)
  artifact _ _ _ hfind := absurd (hasFile_of_find? hfind) h.artifact

/-! ### Advances -/

/-- The object of a source in the store `s'` is right for the store `s`, and newer than all files
there. -/
def Compiled (site : Site) (tooling : Tooling) (s s' : FileStore) (file : ProjectFile) : Prop :=
  ∃ executable time, s'.find? (site.objectPlace file) =
      some (.file (site.objectBytes tooling s file) executable time) ∧
    ∀ l time', s.fileTime? l = some time' → time' < time

/-- An object that has been compiled is newer than what was there. -/
theorem Compiled.lt {time' : Time} (h : site.Compiled tooling s s' file) (hl : s.fileTime? l = some time)
    (hobject : s'.fileTime? (site.objectPlace file) = some time') : time < time' := by
  obtain ⟨executable, time'', hfind, hnewer⟩ := h
  rw [fileTime?, hfind] at hobject
  cases hobject
  exact hnewer l time hl

/-- What is no output stays as it is or becomes the latest file, and what is an output stays as it is or
becomes right. -/
structure Advance (site : Site) (tooling : Tooling) (s s' : FileStore) : Prop where
  /-- Folders and links are kept. -/
  keeps : s.KeepsWays s'
  /-- Other files stay as they are, or one of them becomes the latest file. -/
  others : ∀ l, l ∉ site.outputPlaces s → s.HasFile l ∨ s'.HasFile l →
    s'.find? l = s.find? l ∨ ¬site.Written l ∧ s'.Latest l
  /-- Objects stay as they are, or become right. -/
  objects : ∀ file ∈ site.sources s,
    s'.find? (site.objectPlace file) = s.find? (site.objectPlace file) ∨
      site.Compiled tooling s s' file
  /-- The artifact stays as it is, or goes, or becomes right. -/
  artifact : s'.find? site.artifactPlace = s.find? site.artifactPlace ∨
    ¬s'.HasFile site.artifactPlace ∨
    s'.content? site.artifactPlace = some (site.artifactBytes tooling s s')

namespace Advance

/-- Files that are no outputs are files still. -/
theorem hasFile (h : site.Advance tooling s s') (hnot : l ∉ site.outputPlaces s) (hl : s.HasFile l) :
    s'.HasFile l := by
  rcases h.others l hnot (Or.inl hl) with hsame | ⟨-, hlatest⟩
  · rwa [HasFile, kind?, hsame]
  · exact hlatest.hasFile

theorem sublist (h : site.Advance tooling s s') (hfits : site.Fits s) :
    (site.sources s).Sublist (site.sources s') := by
  refine sublist_sources h.keeps hfits.wellFormed hfits.distinct fun file hfile l hlead ↦ ?_
  obtain ⟨l', hlead', hl, hnot, -⟩ := hfits.exists_start hfile
  obtain rfl : l' = l := by simpa using hlead'.symm.trans hlead
  exact h.hasFile hnot hl

theorem outputPlaces_subset (h : site.Advance tooling s s') (hfits : site.Fits s) :
    site.outputPlaces s ⊆ site.outputPlaces s' := by
  rw [outputPlaces_eq_cons, outputPlaces_eq_cons]
  exact List.cons_subset_cons _ (List.cons_subset_cons _ (List.map_subset _ (h.sublist hfits).subset))

/-- A source leads where it led. -/
theorem lead (h : site.Advance tooling s s') (hfits : site.Fits s) (hfile : file ∈ site.sources s) :
    ∃ l, s.lead true file.path = .ok (.existing l) ∧ s'.lead true file.path = .ok (.existing l) := by
  obtain ⟨l, hlead, hl, hnot, -⟩ := hfits.exists_start hfile
  exact ⟨l, hlead, h.keeps.lead_eq ((h.hasFile hnot hl).trans hl.symm) hlead⟩

/-- A source whose object is there has been one before. -/
theorem mem_sources (h : site.Advance tooling s s') (hsound : site.Sound tooling s)
    (hfits : site.Fits s) (hfits' : site.Fits s') (hfile : file ∈ site.sources s')
    (hobject : s'.HasFile (site.objectPlace file)) : file ∈ site.sources s := by
  have hwritten : site.Written (site.objectPlace file) := ⟨s', objectPlace_mem hfile⟩
  by_cases hmem : site.objectPlace file ∈ site.outputPlaces s
  · -- it can only be at the place of its own object
    obtain ⟨hartifact, hdatabase⟩ := hfits'.ready.place_object_ne (objectOf_mem_objects hfile)
    rcases mem_outputPlaces.1 hmem with hplace | hplace | ⟨other, hother, hplace⟩
    · exact absurd hplace hartifact
    · exact absurd hplace hdatabase
    · rwa [hfits'.eq_of_objectPlace_eq hfile ((h.sublist hfits).subset hother) hplace.symm]
  · rcases h.others _ hmem (Or.inr hobject) with hsame | ⟨hnot, -⟩
    · refine absurd ?_ (hsound.orphans _ hwritten hmem)
      rwa [HasFile, kind?, ← hsame]
    · exact absurd hwritten hnot

/-- If all objects are there, the sources are the same as before. -/
theorem sources_eq (h : site.Advance tooling s s') (hsound : site.Sound tooling s)
    (hfits : site.Fits s) (hfits' : site.Fits s')
    (hall : ∀ file ∈ site.sources s', s'.HasFile (site.objectPlace file)) :
    site.sources s' = site.sources s := by
  have hsub : site.sources s' ⊆ site.sources s := fun file hfile ↦
    h.mem_sources hsound hfits hfits' hfile (hall file hfile)
  exact ((h.sublist hfits).eq_of_length_le (hfits'.nodup_sources.subperm hsub).length_le).symm

/-- The translation unit of a source is the same, or the latest file is in it. -/
theorem unitOf_eq_or (h : site.Advance tooling s s') (hsteady : site.Steady s s')
    (hfits : site.Fits s) (hfits' : site.Fits s') (hfile : file ∈ site.sources s) :
    (site.unitOf s' file = site.unitOf s file ∧
      ∀ time, site.ChangedSince s file time → site.ChangedSince s' file time) ∨
    ∃ l m, s'.lead true file.path = .ok (.existing l) ∧
      Include.Closure s' (site.folders s') l m ∧ s'.Latest m ∧ m ∉ site.outputPlaces s' := by
  obtain ⟨l, hlead, hlead'⟩ := h.lead hfits hfile
  obtain ⟨l', hstart, -, -, hl⟩ := hfits'.exists_start ((h.sublist hfits).subset hfile)
  obtain rfl : l' = l := by simpa using hstart.symm.trans hlead'
  have hnode {m : Location} (hm : Include.Closure s' (site.folders s') l' m) :=
    hfits'.ready.nodes m (Fits.mem_graph hl hm)
  by_cases hlatest : ∃ m, Include.Closure s' (site.folders s') l' m ∧ s'.Latest m
  · obtain ⟨m, hm, hlatest⟩ := hlatest
    exact Or.inr ⟨l', m, hlead', hm, hlatest, (hnode hm).2.2⟩
  · have hsame : ∀ m, Include.Closure s' (site.folders s') l' m → s'.find? m = s.find? m := by
      intro m hm
      obtain ⟨hfile', -, hnot⟩ := hnode hm
      have hnot' : m ∉ site.outputPlaces s := fun hmem ↦ hnot (h.outputPlaces_subset hfits hmem)
      exact (h.others m hnot' (Or.inr hfile')).resolve_right fun hother ↦
        hlatest ⟨m, hm, hother.2⟩
    obtain ⟨hunit, hclosure⟩ := hsteady.unit_eq hfits.wellFormed hfits' hl hsame
    refine Or.inl ⟨?_, ?_⟩
    · rw [unitOf, unitOf, landing?_of_lead hlead', landing?_of_lead hlead]
      exact hunit
    · rintro time ⟨l, m, time', hother, hm, htime, hlt⟩
      obtain rfl : l' = l := by simpa using hlead.symm.trans hother
      refine ⟨l', m, time', hlead', (hclosure m).1 hm, ?_, hlt⟩
      rw [← htime, fileTime?, fileTime?, hsame m ((hclosure m).1 hm)]

/-- The libraries are the same, or the latest file is one of them. -/
theorem libraries_eq_or (h : site.Advance tooling s s') (hsteady : site.Steady s s')
    (hfits : site.Fits s) (hfits' : site.Fits s') :
    site.libraries s' = site.libraries s ∨
      ∃ p ∈ site.libraryPaths, ∃ l, s'.resolve true p = .ok (.existing l) ∧ s'.Latest l ∧
        l ∉ site.outputPlaces s' := by
  by_cases hlatest : ∃ p ∈ site.libraryPaths, ∃ l, s'.resolve true p = .ok (.existing l) ∧
      s'.Latest l ∧ l ∉ site.outputPlaces s'
  · exact Or.inr hlatest
  refine Or.inl (List.filterMap_congr fun p hp ↦ congrArg _ (Option.ext fun content ↦ ?_))
  have hsame {l : Location} (hlead : s'.resolve true p = .ok (.existing l))
      (hfile : s.HasFile l ∨ s'.HasFile l) : s'.find? l = s.find? l := by
    have hnot := hfits'.libraries p hp l hlead
    have hnot' : l ∉ site.outputPlaces s := fun hmem ↦ hnot (h.outputPlaces_subset hfits hmem)
    exact (h.others l hnot' hfile).resolve_right fun hother ↦
      hlatest ⟨p, hp, l, hlead, hother.2, hnot⟩
  rw [toOption_readBytes_eq_some_iff, toOption_readBytes_eq_some_iff]
  constructor
  · rintro ⟨l, hlead, hcontent⟩
    have hfile := hasFile_of_content? hcontent
    have hfind := hsame hlead (Or.inr hfile)
    refine ⟨l, (hsteady.libraries p hp l hlead).resolve_right fun hnone ↦ ?_, ?_⟩
    · rw [HasFile, kind?, hfind, hnone] at hfile
      cases hfile
    · exact (content?_congr hfind).symm.trans hcontent
  · rintro ⟨l, hlead, hcontent⟩
    have hfile := hasFile_of_content? hcontent
    have hlead' := h.keeps.resolve_eq
      ((h.hasFile (hfits.libraries p hp l hlead) hfile).trans hfile.symm) hlead
    exact ⟨l, hlead', (content?_congr (hsame hlead' (Or.inl hfile))).trans hcontent⟩

end Advance

/-! ### Sound sites stay sound -/

/-- What is due stays due as long as the artifact is not changed. -/
theorem DueSince.advance (h : site.DueSince (site.sources s) s time)
    (hadvance : site.Advance tooling s s') (hfits : site.Fits s)
    (hartifact : s.fileTime? site.artifactPlace = some time)
    (hartifact' : s'.fileTime? site.artifactPlace = some time) :
    site.DueSince (site.sources s) s' time := by
  rcases h with ⟨file, hfile, hlate⟩ | ⟨p, hp, l, time', hlead, htime', hlt⟩
  · refine Or.inl ⟨file, hfile, fun time' htime' ↦ ?_⟩
    rcases hadvance.objects file hfile with hsame | hcompiled
    · exact hlate time' (by rwa [fileTime?, ← hsame])
    · exact hcompiled.lt hartifact htime'
  · have hnot := hfits.libraries p hp l hlead
    have hfile : s.HasFile l := fileTime?_isSome_iff.1 (Option.isSome_of_eq_some htime')
    have hlead' := hadvance.keeps.resolve_eq
      ((hadvance.hasFile hnot hfile).trans hfile.symm) hlead
    rcases hadvance.others l hnot (Or.inl hfile) with hsame | ⟨-, time'', htime'', hlatest⟩
    · exact Or.inr ⟨p, hp, l, time', hlead', by rwa [fileTime?, hsame], hlt⟩
    · refine Or.inr ⟨p, hp, l, time'', hlead', htime'', hlatest _ ?_ _ hartifact'⟩
      rintro rfl
      exact hnot (site.artifactPlace_mem s)

namespace Sound

/-- No object comes but those of sources. -/
theorem orphans_advance (h : site.Sound tooling s) (hadvance : site.Advance tooling s s')
    (hfits : site.Fits s) (hl : site.Written l) (hnot : l ∉ site.outputPlaces s') :
    ¬s'.HasFile l := by
  intro hfile
  have hnot' : l ∉ site.outputPlaces s := fun hmem ↦
    hnot (hadvance.outputPlaces_subset hfits hmem)
  rcases hadvance.others l hnot' (Or.inr hfile) with hsame | ⟨hunwritten, -⟩
  · refine h.orphans l hl hnot' ?_
    rwa [HasFile, kind?, ← hsame]
  · exact hunwritten hl

/-- Objects are still right or outdated. -/
theorem objects_advance (h : site.Sound tooling s) (hadvance : site.Advance tooling s s')
    (hsteady : site.Steady s s') (hfits : site.Fits s) (hfits' : site.Fits s')
    (hfile : file ∈ site.sources s') {content : ByteArray} {executable : Bool}
    (hfind : s'.find? (site.objectPlace file) = some (.file content executable time)) :
    content = site.objectBytes tooling s' file ∨ site.ChangedSince s' file time := by
  have hmem := hadvance.mem_sources h hfits hfits' hfile (hasFile_of_find? hfind)
  rcases hadvance.unitOf_eq_or hsteady hfits hfits' hmem with
    ⟨hunit, hchanged⟩ | ⟨l, m, hlead, hclosure, ⟨time', htime', hlatest⟩, hnot⟩
  · have hright : site.objectBytes tooling s' file = site.objectBytes tooling s file := by
      rw [objectBytes, objectBytes, hunit]
    rw [hright]
    rcases hadvance.objects file hmem with hsame | ⟨_, _, hcompiled, -⟩
    · exact (h.objects file hmem _ _ _ (hsame ▸ hfind)).imp_right (hchanged time)
    · rw [hcompiled] at hfind
      cases hfind
      exact Or.inl rfl
  · refine Or.inr ⟨l, m, time', hlead, hclosure, htime', ?_⟩
    refine hlatest (site.objectPlace file) ?_ time (by rw [fileTime?, hfind])
    rintro rfl
    exact hnot (objectPlace_mem hfile)

/-- An artifact that is not changed is still made of the objects that are there, or is due. -/
theorem artifact_kept (h : site.Sound tooling s) (hadvance : site.Advance tooling s s')
    (hfits : site.Fits s) (hsame : s'.find? site.artifactPlace = s.find? site.artifactPlace)
    {content : ByteArray} {executable : Bool}
    (hfind : s'.find? site.artifactPlace = some (.file content executable time)) :
    content = site.artifactBytes tooling s s' ∨ site.DueSince (site.sources s) s' time := by
  have htime : s.fileTime? site.artifactPlace = some time := by rw [fileTime?, ← hsame, hfind]
  rcases h.artifact content executable time (hsame ▸ hfind) with hcontent | hdue
  case inr => exact Or.inr (hdue.advance hadvance hfits htime (by rw [fileTime?, hfind]))
  by_cases hobjects : ∀ file ∈ site.sources s,
      s'.find? (site.objectPlace file) = s.find? (site.objectPlace file)
  · refine Or.inl (hcontent.trans ?_)
    have hcontents : (site.sources s).map (fun file ↦ s'.content? (site.objectPlace file)) =
        (site.sources s).map fun file ↦ s.content? (site.objectPlace file) :=
      List.map_congr_left fun file hfile ↦ content?_congr (hobjects file hfile)
    rw [artifactBytes, artifactBytes, hcontents]
  · -- an object has been compiled
    simp only [not_forall] at hobjects
    obtain ⟨file, hfile, hne⟩ := hobjects
    have hcompiled := (hadvance.objects file hfile).resolve_left hne
    exact Or.inr (Or.inl ⟨file, hfile, fun time' htime' ↦ hcompiled.lt htime htime'⟩)

/-- The artifact is still right or due. -/
theorem artifact_advance (h : site.Sound tooling s) (hadvance : site.Advance tooling s s')
    (hsteady : site.Steady s s') (hfits : site.Fits s) (hfits' : site.Fits s')
    {content : ByteArray} {executable : Bool}
    (hfind : s'.find? site.artifactPlace = some (.file content executable time)) :
    content = site.artifactBytes tooling s' s' ∨ site.DueSince (site.sources s') s' time := by
  have htime : s'.fileTime? site.artifactPlace = some time := by rw [fileTime?, hfind]
  by_cases hall : ∀ file ∈ site.sources s', s'.HasFile (site.objectPlace file)
  case neg =>
    -- an object is not there
    simp only [not_forall] at hall
    obtain ⟨file, hfile, hnone⟩ := hall
    refine Or.inr (Or.inl ⟨file, hfile, fun time' htime' ↦ absurd ?_ hnone⟩)
    exact fileTime?_isSome_iff.1 (Option.isSome_of_eq_some htime')
  have hsources := hadvance.sources_eq h hfits hfits' hall
  rcases hadvance.libraries_eq_or hsteady hfits hfits' with
    hlibraries | ⟨p, hp, l, hlead, ⟨time', htime', hlatest⟩, hnot⟩
  case inr =>
    -- a library has changed
    refine Or.inr (Or.inr ⟨p, hp, l, time', hlead, htime', hlatest _ ?_ _ htime⟩)
    rintro rfl
    exact hnot (site.artifactPlace_mem s')
  have hright : site.artifactBytes tooling s' s' = site.artifactBytes tooling s s' := by
    rw [artifactBytes, artifactBytes, hsources, hlibraries]
  rw [hright, hsources]
  rcases hadvance.artifact with hsame | hgone | hmade
  · exact h.artifact_kept hadvance hfits hsame hfind
  · exact absurd (hasFile_of_find? hfind) hgone
  · rw [content?, hfind] at hmade
    exact Or.inl (Option.some.inj hmade)

/-- A site that is sound stays so in every advance in which it is steady. -/
theorem advance (h : site.Sound tooling s) (hadvance : site.Advance tooling s s')
    (hsteady : site.Steady s s') (hfits : site.Fits s) (hfits' : site.Fits s') :
    site.Sound tooling s' where
  orphans _ hl hnot := h.orphans_advance hadvance hfits hl hnot
  objects _ hfile _ _ _ hfind := h.objects_advance hadvance hsteady hfits hfits' hfile hfind
  artifact _ _ _ hfind := h.artifact_advance hadvance hsteady hfits hfits' hfind

end Sound

end Site

end Rebuild
