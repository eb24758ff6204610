import Rebuild.Proofs.FileStore.Listing
import Rebuild.Proofs.Path.Joining

/-!
# Names behind a path

What is made of ordinary names behind a path, a *trunk*, keeps the trunk when its last name is cut off or
gets another extension (`parent?_joinName`, `withExtension_joinName`). Nothing is asked of the trunk: it may
be empty, absolute, or end with a double dot.
-/

namespace Rebuild.Path

variable {p q root : Path} {names others : List String} {name other extension : String} {segment : String}

/-! ### Cutting the last name off -/

theorem dropEnd_append_empty (first : Bool) (segments : List String) :
    dropEnd first (segments ++ [""]) = dropEnd first segments := by
  induction segments generalizing first with
  | nil => rw [List.nil_append, dropEnd, dropEnd, dropEnd, if_neg (by simp [mattersAt])]
  | cons segment rest ih => rw [List.cons_append, dropEnd, dropEnd, ih]

/-- What stays of a path before a name has the components of the path. -/
theorem components_dropEnd_before (p : Path) :
    (ofBody p.isAbsolute (dropEnd (!p.isAbsolute) p.before)).components = p.components := by
  have hbefore : dropEnd (!p.isAbsolute) p.before = dropEnd (!p.isAbsolute) p.body := by
    rcases body_eq_before p with h | h
    · rw [h]
    · rw [h, dropEnd_append_empty]
  rw [hbefore, components_dropEnd]

theorem parent?_joinName (hname : SegmentName name) :
    (p.joinName name).parent? = some (ofBody p.isAbsolute (dropEnd (!p.isAbsolute) p.before)) := by
  rw [parent?_of_body hname (body_joinName hname.no_slash), isAbsolute_joinName hname.no_slash]

theorem fileStem?_joinName (hname : SegmentName name) :
    (p.joinName name).fileStem? = some (splitName name).1 := by
  rw [fileStem?, fileName?_of_body hname (body_joinName hname.no_slash)]
  rfl

/-- Behind one trunk, names are in one folder if and only if the names before them are the same. -/
theorem parent?_joinName_inj (hname : SegmentName name) (hother : SegmentName other)
    (hnames : ∀ name ∈ names, SegmentName name) (hothers : ∀ name ∈ others, SegmentName name) :
    ((p.joinNames names).joinName name).parent? = ((p.joinNames others).joinName other).parent? ↔
      names = others := by
  rw [parent?_joinName hname, parent?_joinName hother, Option.some_inj]
  refine ⟨fun h ↦ ?_, fun h ↦ by rw [h]⟩
  have hcomponents := congrArg components h
  rw [components_dropEnd_before, components_dropEnd_before, components_joinNames hnames,
    components_joinNames hothers, List.append_cancel_left_eq] at hcomponents
  exact List.map_injective_iff.2 (fun _ _ ↦ Component.name.inj) hcomponents

/-! ### Another extension for the last name -/

theorem joinNames_concat (p : Path) (names : List String) (name : String) :
    p.joinNames (names ++ [name]) = (p.joinNames names).joinName name :=
  List.foldl_append ..

theorem segment_stem (hname : SegmentName name) : Segment (splitName name).1 :=
  ⟨stem_ne_empty hname.ne_empty, no_slash_stem hname.no_slash⟩

/-- Exchanging the extension behind a trunk exchanges the last name. -/
theorem withExtension_joinName (hname : SegmentName name) (hslash : '/' ∉ extension.toList) :
    (p.joinName name).withExtension extension = p.joinName (exchanged (splitName name).1 extension) := by
  have hbody := @body_joinName p name hname.no_slash
  have hsegment := segment_exchanged (segment_stem hname) hslash
  rw [withExtension_eq hname hbody]
  refine eq_of_body ?_ ?_
  · rw [isAbsolute_ofBody_last hbody hsegment, isAbsolute_joinName hname.no_slash,
      isAbsolute_joinName hsegment.no_slash]
  · rw [body_ofBody_last hbody hsegment, body_joinName hsegment.no_slash]

theorem text_componentOf (segment : String) : (componentOf segment).text = segment := by
  rw [componentOf]
  split
  case isTrue h => exact h.symm
  case isFalse =>
    split
    case isTrue h => exact h.symm
    case isFalse => rfl

theorem componentOf_inj {first second : String} :
    componentOf first = componentOf second ↔ first = second := by
  refine ⟨fun h ↦ ?_, fun h ↦ by rw [h]⟩
  rw [← text_componentOf first, h, text_componentOf]

/-- Behind one trunk, places with another extension are told apart by their folders and by their last names
up to the extension. -/
theorem components_withExtension_inj (hname : SegmentName name) (hother : SegmentName other)
    (hnames : ∀ name ∈ names, SegmentName name) (hothers : ∀ name ∈ others, SegmentName name)
    (hslash : '/' ∉ extension.toList) :
    (((p.joinNames names).joinName name).withExtension extension).components =
        (((p.joinNames others).joinName other).withExtension extension).components ↔
      names = others ∧
        exchanged (splitName name).1 extension = exchanged (splitName other).1 extension := by
  have hsegment {name : String} (hname : SegmentName name) :=
    segment_exchanged (segment_stem hname) hslash
  have hdot {name : String} (hname : SegmentName name) :=
    exchanged_ne_dot (segment_stem hname).ne_empty extension
  rw [withExtension_joinName hname hslash, withExtension_joinName hother hslash,
    components_joinSegment (hsegment hname) (hdot hname),
    components_joinSegment (hsegment hother) (hdot hother), components_joinNames hnames,
    components_joinNames hothers, List.append_assoc, List.append_assoc,
    List.append_cancel_left_eq, List.append_singleton_inj, componentOf_inj,
    (List.map_injective_iff.2 fun _ _ ↦ Component.name.inj).eq_iff]

/-! ### Normal paths -/

/-- The normal path of something below a root is the normal root with the names behind it. -/
theorem normalize_of_extend (h : p.normalForm = root.normalForm.extend names) :
    p.normalize = root.normalize.joinNames names := by
  have hjoin : ((names.map Component.name).foldl (fun q c ↦ q.join ⟨c.text⟩) root.normalize) =
      root.normalize.joinNames names := by
    rw [joinNames, List.foldl_map]
    rfl
  rw [← hjoin, normalize, normalComponents_components, h, NormalForm.components_extend,
    ofComponents, List.foldl_append, ← ofComponents, ← normalComponents_components]
  rfl

/-- Below a root, the root and the place below it lead to the normal path again. -/
theorem normalize_join_relativeTo (h : p.normalForm = root.normalForm.extend names) :
    (root.join (root.relativeTo p)).normalize = p.normalize := by
  rw [normalize, normalize, components_join_names (components_relativeTo_of_extend h),
    normalComponents_append_names, normalComponents_components, normalComponents_components, h,
    NormalForm.components_extend]

/-- What is strictly below a normal root has the names of its normal form behind those of the root. -/
theorem exists_extend_of_strictlyBelow (h : p.normalize.StrictlyBelow root.normalize) :
    ∃ names name, (∀ name ∈ names, SegmentName name) ∧ SegmentName name ∧
      p.normalForm = root.normalForm.extend (names ++ [name]) := by
  obtain ⟨names, hne, hnames, hcomponents⟩ := h
  rw [components_normalize, components_normalize, ← NormalForm.components_extend,
    NormalForm.components_inj] at hcomponents
  obtain ⟨around, name, rfl⟩ := (List.eq_nil_or_concat names).resolve_left hne
  rw [List.concat_eq_append] at hnames hcomponents
  exact ⟨around, name, fun other hother ↦ hnames other (List.mem_append_left _ hother),
    hnames name (by simp), hcomponents⟩

end Rebuild.Path
