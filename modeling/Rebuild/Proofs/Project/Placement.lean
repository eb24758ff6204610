import Rebuild.Proofs.Path.Trunk
import Rebuild.Proofs.Project.Objects
import Rebuild.Proofs.Project.Staleness

/-!
# Where objects are placed

The place of a path below a root is made of ordinary names (`relativeTo_ordinary`), and the object for the
place is below the folder of its configuration by the same names, the last one with the extension of
objects. A last name that is nothing but a dot before its extension is the exception: it becomes a double
dot, and the object is the folder around the one it should be in (`object_below_iff`).

Inside of the root the objects are placed as the sources are: two of them have one object if and only if
they are in one folder and have one stem (`objects_mirror_sources`). Only without an extension of objects,
a dot and a double dot are not told apart.
-/

namespace Rebuild

open Rebuild.Path (Segment SegmentName splitName exchanged renamed)

variable {root relative p q : Path} {stem extension name : String} {names : List String}

/-! ### Below the object folder -/

/-- A place below a root is relative and made of ordinary names. -/
theorem relativeTo_ordinary (root p : Path) : ∃ names : List String,
    (root.relativeTo p).components = names.map .name := by
  by_cases h : p.LiesIn root
  · obtain ⟨names, hnames⟩ := h
    exact ⟨names, Path.components_relativeTo_of_extend hnames⟩
  · exact ⟨_, Path.components_relativeTo_of_not_liesIn h⟩

/-- The folder of the objects of a configuration. -/
def objectTrunk (root : Path) (stem : String) : Path :=
  (root.joinName "obj").joinName stem

theorem components_objectTrunk (hstem : SegmentName stem) :
    (objectTrunk root stem).components = root.components ++ [.name "obj", .name stem] := by
  rw [objectTrunk, Path.components_joinName hstem,
    Path.components_joinName ⟨segment_obj, by decide, by decide⟩, List.append_assoc]
  rfl

/-- The object is behind the trunk as the source is behind the root. -/
theorem objectPath_eq (h : relative.names = names ++ [name]) : objectPath root stem relative extension =
    (((objectTrunk root stem).joinNames names).joinName name).withExtension extension := by
  rw [objectPath, h, Path.joinNames_concat]
  rfl

theorem components_objectPath (hstem : SegmentName stem) (hextension : Segment extension)
    (h : relative.names = names ++ [name]) : (objectPath root stem relative extension).components =
      root.components ++ (["obj", stem] ++ names).map .name ++
        [Path.componentOf (renamed (splitName name).1 extension)] := by
  have hall : ∀ other ∈ names ++ [name], SegmentName other := fun _ hother ↦
    Path.segmentName_of_mem_names (h ▸ hother)
  have hname := hall name (by simp)
  have hstem' := Path.segment_stem hname
  rw [objectPath_eq h, Path.withExtension_joinName hname hextension.no_slash,
    Path.components_joinSegment (Path.segment_exchanged hstem' hextension.no_slash)
      (Path.exchanged_ne_dot hstem'.ne_empty _),
    Path.components_joinNames fun other hother ↦ hall other (List.mem_append_left _ hother),
    components_objectTrunk hstem, Path.exchanged_of_ne_empty hextension.ne_empty]
  simp

/-- A name has only a dot before its extension if two dots begin it and no other dot is in it. -/
theorem stem_eq_dot_iff (hname : SegmentName name) :
    (splitName name).1 = "." ↔ ∃ present : String, '.' ∉ present.toList ∧ name = ".." ++ present := by
  have hdots (present : String) : ".." ++ present = "." ++ "." ++ present := by
    rw [show (".." : String) = "." ++ "." by decide]
  constructor
  · intro h
    rcases Path.splitName_cases name with hnone | ⟨stem, present, hstem, hdot, rfl⟩
    · rw [hnone] at h
      exact absurd h hname.ne_dot
    · rw [Path.splitName_of_dot hstem hdot] at h
      exact ⟨present, hdot, by rw [hdots, ← h]⟩
  · rintro ⟨present, hdot, rfl⟩
    rw [hdots, Path.splitName_of_dot (by decide) hdot]

/-- What an object has behind the components of the root: the folder of its configuration, the folders of
the place, and the last name with the extension of objects. -/
def Mirrors (root : Path) (stem : String) (names : List String) (name extension : String) (object : Path) :
    Prop :=
  object.components = root.components ++
    (["obj", stem] ++ names ++ [(splitName name).1 ++ "." ++ extension]).map .name

instance (root : Path) (stem : String) (names : List String) (name extension : String) (object : Path) :
    Decidable (Mirrors root stem names name extension object) :=
  inferInstanceAs (Decidable (_ = _))

/-- Places below a root are relative and made of ordinary names. The object for a place is below the folder
of its configuration by the folders of the place, and its last name differs from that of the place in the
extension only, if and only if the last name is not a double dot with letters behind it. Else the object is
the folder around that of the place. -/
theorem object_below_iff (root : Path) :
    (∀ p : Path, (root.relativeTo p).isAbsolute = false ∧
      ∀ component ∈ (root.relativeTo p).components, component.isName = true) ∧
    ∀ (relative : Path) (stem extension name : String) (names : List String),
      SegmentName stem → Segment extension → relative.names = names ++ [name] →
        (Mirrors root stem names name extension (objectPath root stem relative extension) ↔
          ¬∃ present : String, '.' ∉ present.toList ∧ name = ".." ++ present) ∧
        ((∃ present : String, '.' ∉ present.toList ∧ name = ".." ++ present) →
          (objectPath root stem relative extension).components =
            root.components ++ (["obj", stem] ++ names).map .name ++ [.parent]) := by
  refine ⟨fun p ↦ ?_, fun relative stem extension name names hstem hextension h ↦ ?_⟩
  · obtain ⟨names, hnames⟩ := relativeTo_ordinary root p
    refine ⟨Path.isAbsolute_of_components hnames, ?_⟩
    rw [hnames]
    intro component hcomponent
    obtain ⟨name, -, rfl⟩ := List.mem_map.1 hcomponent
    rfl
  · have hname : SegmentName name := Path.segmentName_of_mem_names (p := relative) (by simp [h])
    have hcomponents : (objectPath root stem relative extension).components = _ :=
      components_objectPath hstem hextension h
    rw [← stem_eq_dot_iff hname, Mirrors, hcomponents]
    by_cases hdot : (splitName name).1 = "."
    · have hlast : Path.componentOf (renamed "." extension) = .parent := rfl
      rw [hdot, hlast]
      simp
    · have hlast : Path.componentOf (renamed (splitName name).1 extension) =
          .name ((splitName name).1 ++ "." ++ extension) := by
        rw [Path.componentOf_name (Path.segmentName_renamed (Path.segment_stem hname) hdot hextension),
          renamed, if_neg hdot]
      rw [hlast]
      simp [hdot]

/-- The place of a path outside of the root, where a dot is left in the name, a name that begins with three
dots, and a name that begins with two. -/
theorem object_below_of_dots :
    (∀ component ∈ ((⟨"/p"⟩ : Path).relativeTo ⟨"../q/./a.b.c"⟩).components, component.isName = true) ∧
      Mirrors ⟨"/p"⟩ "release" ["_ext", "q"] "a.b.c" "o"
        (objectPath ⟨"/p"⟩ "release" ⟨"_ext/q/a.b.c"⟩ "o") ∧
      Mirrors ⟨"/p"⟩ "release" [] "...c" "o" (objectPath ⟨"/p"⟩ "release" ⟨"/...c"⟩ "o") ∧
      (objectPath ⟨"/p"⟩ "release" ⟨"../q/..c"⟩ "o").components =
        [.root, .name "p", .name "obj", .name "release", .name "q", .parent] := by
  have hstem : SegmentName "release" := by decide
  have hextension : Segment "o" := by decide
  have hname : SegmentName "a.b.c" := by decide
  have hdots : SegmentName "...c" := by decide
  obtain ⟨hplace, hbelow⟩ := object_below_iff ⟨"/p"⟩
  refine ⟨(hplace _).2,
    (hbelow _ _ _ _ _ hstem hextension (by decide)).1.2 (mt (stem_eq_dot_iff hname).2 (by decide)),
    (hbelow _ _ _ _ _ hstem hextension (by decide)).1.2 (mt (stem_eq_dot_iff hdots).2 (by decide)),
    ((hbelow _ _ _ "..c" ["q"] hstem hextension (by decide)).2 ⟨"c", by decide, by decide⟩).trans ?_⟩
  decide

/-- The object of a source that has two dots and letters for a name is the folder around the one that it
should be in, so that it is no file. -/
theorem not_mirrors_of_dots :
    let store : FileStore :=
      { entries := [(.root, .folder 0), (⟨["src"]⟩, .folder 0), (⟨["src", "..c"]⟩, .file .empty false 10)] }
    let project := Project.scan store ⟨"."⟩ (Project.plainConfig [⟨"src"⟩]) "release"
    let object := objectPath ⟨"."⟩ "release" ⟨"src/..c"⟩ "o"
    SegmentName "release" ∧ Segment "o" ∧ (⟨"src/..c"⟩ : Path).names = ["src", "..c"] ∧
      project.sources.map project.objectOf = [object] ∧
      object.components = [.current, .name "obj", .name "release", .name "src", .parent] ∧
      ¬Mirrors ⟨"."⟩ "release" ["src"] "..c" "o" object := by
  decide +kernel

/-! ### Inside of the root -/

/-- Whether the stem of a path is a dot or a double dot. -/
def DotStem (p : Path) : Prop :=
  p.fileStem? = some "." ∨ p.fileStem? = some ".."

/-- The objects of two paths inside of the root are the same if and only if the normal paths are in one
folder and have one stem, or dots for stems if objects have no extension. -/
theorem objects_mirror_sources (hslash : '/' ∉ extension.toList)
    (hp : p.normalize.StrictlyBelow root.normalize) (hq : q.normalize.StrictlyBelow root.normalize)
    (stem : String) :
    let mirrored := p.normalize.parent? = q.normalize.parent? ∧
      (p.normalize.fileStem? = q.normalize.fileStem? ∨
        extension = "" ∧ DotStem p.normalize ∧ DotStem q.normalize)
    let object (p : Path) := objectPath root stem (root.relativeTo p) extension
    (root.join (root.relativeTo p)).normalize = p.normalize ∧
      (root.join (root.relativeTo q)).normalize = q.normalize ∧
      (object p = object q ↔ mirrored) ∧ ((object p).components = (object q).components ↔ mirrored) := by
  intro mirrored object
  obtain ⟨around, name, haround, hname, hp⟩ := Path.exists_extend_of_strictlyBelow hp
  obtain ⟨around', name', haround', hname', hq⟩ := Path.exists_extend_of_strictlyBelow hq
  have hobject {p : Path} {around : List String} {name : String}
      (hp : p.normalForm = root.normalForm.extend (around ++ [name])) : object p =
        (((objectTrunk root stem).joinNames around).joinName name).withExtension extension :=
    objectPath_eq (Path.names_of_components (Path.components_relativeTo_of_extend hp))
  have hnormal {p : Path} {around : List String} {name : String}
      (hp : p.normalForm = root.normalForm.extend (around ++ [name])) :
      p.normalize = (root.normalize.joinNames around).joinName name := by
    rw [Path.normalize_of_extend hp, Path.joinNames_concat]
  have hmirrored : mirrored ↔ around = around' ∧
      exchanged (splitName name).1 extension = exchanged (splitName name').1 extension := by
    have hexchanged := Path.exchanged_inj (Path.stem_ne_empty hname.ne_empty)
      (Path.stem_ne_empty hname'.ne_empty) extension
    simp only [mirrored, DotStem]
    rw [hnormal hp, hnormal hq, Path.parent?_joinName_inj hname hname' haround haround',
      Path.fileStem?_joinName hname, Path.fileStem?_joinName hname', hexchanged]
    simp
  have hcomponents : (object p).components = (object q).components ↔ mirrored := by
    rw [hobject hp, hobject hq, hmirrored,
      Path.components_withExtension_inj hname hname' haround haround' hslash]
  refine ⟨Path.normalize_join_relativeTo hp, Path.normalize_join_relativeTo hq, ?_, hcomponents⟩
  refine ⟨fun h ↦ hcomponents.1 (congrArg Path.components h), fun h ↦ ?_⟩
  obtain ⟨rfl, hlast⟩ := hmirrored.1 h
  rw [hobject hp, hobject hq, Path.withExtension_joinName hname hslash,
    Path.withExtension_joinName hname' hslash, hlast]

/-- Two spellings of files in one folder, with one stem and below a root with a double dot in it. -/
theorem objects_mirror_of_spellings :
    let root : Path := ⟨"./r/x/.."⟩
    (root.join (root.relativeTo ⟨"r/b/../a/m.x.cpp"⟩)).normalize = ⟨"r/a/m.x.cpp"⟩ ∧
      objectPath root "release" (root.relativeTo ⟨"r/./a/m.x.c"⟩) "o" =
        objectPath root "release" (root.relativeTo ⟨"r/b/../a/m.x.cpp"⟩) "o" := by
  intro root
  have hp : (⟨"r/./a/m.x.c"⟩ : Path).normalize.StrictlyBelow root.normalize :=
    ⟨["a", "m.x.c"], by decide, by decide, by decide⟩
  have hq : (⟨"r/b/../a/m.x.cpp"⟩ : Path).normalize.StrictlyBelow root.normalize :=
    ⟨["a", "m.x.cpp"], by decide, by decide, by decide⟩
  obtain ⟨-, hplace, hobjects, -⟩ := @objects_mirror_sources _ _ _ "o" (by decide) hp hq "release"
  exact ⟨hplace.trans (by decide), hobjects.2 ⟨by decide, Or.inl (by decide)⟩⟩

/-- Without an extension of objects, two files of one folder with different stems have one object. -/
theorem exists_mixed_stems :
    let root : Path := ⟨"/p"⟩
    (⟨"/p/..c"⟩ : Path).normalize.StrictlyBelow root.normalize ∧
      (⟨"/p/...c"⟩ : Path).normalize.StrictlyBelow root.normalize ∧
      objectPath root "default" (root.relativeTo ⟨"/p/..c"⟩) "" =
        objectPath root "default" (root.relativeTo ⟨"/p/...c"⟩) "" ∧
      (⟨"/p/..c"⟩ : Path).normalize.fileStem? = some "." ∧
      (⟨"/p/...c"⟩ : Path).normalize.fileStem? = some ".." := by
  exact ⟨⟨["..c"], by decide, by decide, by decide⟩, ⟨["...c"], by decide, by decide, by decide⟩,
    by decide, by decide, by decide⟩

end Rebuild
