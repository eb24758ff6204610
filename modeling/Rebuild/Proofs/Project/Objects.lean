import Rebuild.Project.Load
import Rebuild.Proofs.Path.Extension

/-!
# Objects

The place of an object is made of the names of the place of its source, the last one with the
extension of objects. So two sources have one object where their places differ at most in the
extension of the last name, and only there.
-/

namespace Rebuild

open Rebuild.Path (Segment SegmentName)

variable {root relative p q : Path} {stem extension name : String} {names : List String}

/-! ### The path of an object -/

/-- The segments around the objects of a configuration. -/
def objectFolder (root : Path) (stem : String) : List String :=
  root.before ++ ["obj", stem]

theorem segment_obj : Segment "obj" :=
  ⟨by decide, by decide⟩

theorem body_trunk (root : Path) (hstem : Segment stem) (hnames : ∀ name ∈ names, Segment name) :
    (((root.joinName "obj").joinName stem).joinNames names).body = objectFolder root stem ++ names := by
  rw [objectFolder]
  rcases names with - | ⟨first, rest⟩
  · show ((root.joinName "obj").joinName stem).body = _
    rw [Path.body_joinName hstem.no_slash, Path.before_joinName segment_obj]
    simp
  · rw [Path.body_joinNames hnames (by simp), Path.before_joinName hstem,
      Path.before_joinName segment_obj]
    simp

theorem isAbsolute_trunk (root : Path) (hstem : Segment stem)
    (hnames : ∀ name ∈ names, Segment name) :
    (((root.joinName "obj").joinName stem).joinNames names).isAbsolute = root.isAbsolute := by
  rw [Path.isAbsolute_joinNames hnames, Path.isAbsolute_joinName hstem.no_slash,
    Path.isAbsolute_joinName segment_obj.no_slash]

/-- An object is below the folder of the objects as its source is below the root. -/
theorem body_objectPath (hstem : Segment stem) (hextension : Segment extension)
    (h : relative.names = names ++ [name]) :
    (objectPath root stem relative extension).body =
      objectFolder root stem ++ names ++ [Path.renamed (Path.splitName name).1 extension] := by
  have hnames : ∀ name ∈ relative.names, SegmentName name := fun _ ↦ Path.segmentName_of_mem_names
  have hbody := body_trunk root hstem fun name hname ↦ (hnames name hname).toSegment
  rw [h, ← List.append_assoc] at hbody
  rw [objectPath, h]
  exact Path.body_withExtension (hnames name (by simp [h])) hbody hextension

theorem isAbsolute_objectPath (hstem : Segment stem) (hextension : Segment extension)
    (h : relative.names = names ++ [name]) :
    (objectPath root stem relative extension).isAbsolute = root.isAbsolute := by
  have hnames : ∀ name ∈ relative.names, SegmentName name := fun _ ↦ Path.segmentName_of_mem_names
  have hsegments := fun name hname ↦ (hnames name hname).toSegment
  have hbody := body_trunk root hstem hsegments
  have habsolute := isAbsolute_trunk root hstem hsegments
  rw [h, ← List.append_assoc] at hbody
  rw [h] at habsolute
  rw [objectPath, h, Path.isAbsolute_withExtension (hnames name (by simp [h])) hbody hextension,
    habsolute]

/-- An object without a name of its own is not below that folder. -/
theorem length_body_objectPath_le (hstem : Segment stem) (hextension : Segment extension)
    (h : relative.names = []) :
    (objectPath root stem relative extension).body.length ≤ (objectFolder root stem).length := by
  have hobj : SegmentName "obj" := ⟨segment_obj, by decide, by decide⟩
  have hbody := @body_trunk _ [] root hstem (by simp)
  rw [List.append_nil, objectFolder, List.append_cons] at hbody
  rw [objectPath, h, objectFolder, List.length_append]
  by_cases hdot : stem = "."
  · subst hdot
    rw [Path.body_withExtension_of_dot hobj (by decide) hbody hextension]
    simp
  by_cases hdots : stem = ".."
  · subst hdots
    rw [Path.withExtension_of_dots hbody, hbody]
    simp
  · rw [Path.body_withExtension ⟨hstem, hdot, hdots⟩ hbody hextension]
    simp

/-- Two places have one object if and only if they differ at most in the extension of the last
name. -/
theorem objectPath_inj (hstem : Segment stem) (hextension : Segment extension) :
    objectPath root stem p extension = objectPath root stem q extension ↔
      p.bareNames = q.bareNames := by
  have hlonger {p q : Path} {names : List String} {name : String} (hp : p.names = names ++ [name])
      (hq : q.names = []) :
      objectPath root stem p extension ≠ objectPath root stem q extension := by
    intro heq
    have hlength := congrArg (fun r : Path ↦ r.body.length) heq
    have hle := @length_body_objectPath_le root q stem extension hstem hextension hq
    simp only [body_objectPath hstem hextension hp, List.length_append, List.length_singleton] at hlength
    omega
  rw [Path.bareNames, Path.bareNames]
  rcases List.eq_nil_or_concat p.names with hp | ⟨names, name, hp⟩
  · rcases List.eq_nil_or_concat q.names with hq | ⟨others, other, hq⟩
    · simp [objectPath, hp, hq]
    · rw [List.concat_eq_append] at hq
      refine iff_of_false (hlonger hq hp).symm fun heq ↦ ?_
      simpa [hp, hq] using congrArg List.length heq
  · rw [List.concat_eq_append] at hp
    rcases List.eq_nil_or_concat q.names with hq | ⟨others, other, hq⟩
    · refine iff_of_false (hlonger hp hq) fun heq ↦ ?_
      simpa [hp, hq] using congrArg List.length heq
    · rw [List.concat_eq_append] at hq
      have hname : name ≠ "" := (@Path.segmentName_of_mem_names p name (by simp [hp])).ne_empty
      have hother : other ≠ "" := (@Path.segmentName_of_mem_names q other (by simp [hq])).ne_empty
      have hrenamed := Path.renamed_inj (Path.stem_ne_empty hname) (Path.stem_ne_empty hother)
        hextension.ne_empty
      rw [hp, hq, Path.bare_concat, Path.bare_concat]
      constructor
      · intro heq
        have hbody := congrArg Path.body heq
        rw [body_objectPath hstem hextension hp, body_objectPath hstem hextension hq,
          List.append_assoc, List.append_assoc, List.append_cancel_left_eq] at hbody
        obtain ⟨hfolders, hlast⟩ := List.append_inj' hbody rfl
        rw [hfolders, hrenamed.1 (List.singleton_inj.1 hlast)]
      · intro heq
        obtain ⟨hfolders, hlast⟩ := List.append_inj' heq rfl
        refine Path.eq_of_body ?_ ?_
        · rw [isAbsolute_objectPath hstem hextension hp, isAbsolute_objectPath hstem hextension hq]
        · rw [body_objectPath hstem hextension hp, body_objectPath hstem hextension hq, hfolders,
            List.singleton_inj.1 hlast]

end Rebuild
