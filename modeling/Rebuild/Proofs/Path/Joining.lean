import Rebuild.Proofs.Path.Normal

/-!
# Relative paths behind other paths

A relative path that does not begin with a dot adds its components to those of the path that it is joined
to. What follows a base in a path is such a path (`Path.Remainder`), and so joining it to another base keeps
apart what is kept apart behind the first one.
-/

namespace Rebuild.Path

variable {p q base below : Path} {segments rest : List String} {segment : String} {first : Bool}

/-! ### Components of a relative path -/

theorem parent_mem_componentsOf (h : ".." ∈ segments) (first : Bool) :
    .parent ∈ componentsOf first segments := by
  have hlater {others : List String} (hmem : ".." ∈ others) :
      Component.parent ∈ (others.filter matters).map componentOf :=
    List.mem_map.2 ⟨"..", List.mem_filter.2 ⟨hmem, rfl⟩, rfl⟩
  cases segments with
  | nil => cases h
  | cons segment rest =>
    rw [componentsOf]
    rcases List.mem_cons.1 h with rfl | hrest
    · rw [if_pos (by simp [mattersAt])]
      exact List.mem_cons_self
    · split
      · exact List.mem_cons_of_mem _ (hlater hrest)
      · exact hlater hrest

theorem componentOf_of_mem (h : ".." ∉ segments) (hmem : segment ∈ segments) (hdot : segment ≠ ".") :
    componentOf segment = .name segment := by
  have hdots : segment ≠ ".." := by
    rintro rfl
    exact h hmem
  rw [componentOf, if_neg hdot, if_neg hdots]

theorem map_componentOf_filter (h : ".." ∉ segments) :
    (segments.filter matters).map componentOf = (segments.filter matters).map .name := by
  refine List.map_congr_left fun segment hsegment ↦ ?_
  obtain ⟨hmem, hmatters⟩ := List.mem_filter.1 hsegment
  refine componentOf_of_mem h hmem ?_
  rintro rfl
  cases hmatters

/-- The ordinary names among segments. -/
theorem filterMap_name?_componentsOf (h : ".." ∉ segments) (first : Bool) :
    (componentsOf first segments).filterMap Component.name? = segments.filter matters := by
  cases segments with
  | nil => rfl
  | cons segment rest =>
    have hlater : ((rest.filter matters).map componentOf).filterMap Component.name? =
        rest.filter matters := by
      rw [map_componentOf_filter fun hmem ↦ h (List.mem_cons_of_mem _ hmem), NormalForm.filterMap_name?]
    rw [componentsOf, List.filter_cons]
    by_cases hempty : segment = ""
    · subst hempty
      exact hlater
    · by_cases hdot : segment = "."
      · subst hdot
        cases first <;> exact hlater
      · rw [if_pos (by simp [mattersAt, hempty, hdot]), if_pos (by simp [matters, hempty, hdot]),
          componentOf_of_mem h List.mem_cons_self hdot]
        exact congrArg (segment :: ·) hlater

/-- Whether a path is relative and goes up nowhere. -/
structure Descends (p : Path) : Prop where
  /-- The path is relative. -/
  relative : p.isAbsolute = false
  /-- It holds no double dot. -/
  no_parent : .parent ∉ p.components

instance : Decidable p.Descends :=
  decidable_of_iff (p.isAbsolute = false ∧ .parent ∉ p.components)
    ⟨fun ⟨hrelative, hparent⟩ ↦ ⟨hrelative, hparent⟩, fun h ↦ ⟨h.relative, h.no_parent⟩⟩

namespace Descends

theorem no_dots (h : p.Descends) : ".." ∉ p.body := by
  intro hdots
  have hparent := parent_mem_componentsOf hdots true
  rw [← show p.components = componentsOf true p.body by rw [components, h.relative]; rfl] at hparent
  exact h.no_parent hparent

theorem filter_body (h : p.Descends) : p.body.filter matters = p.names := by
  rw [names_eq_filterMap, components, h.relative]
  exact (filterMap_name?_componentsOf h.no_dots true).symm

theorem of_no_slash (hslash : '/' ∉ segment.toList) (hdots : segment ≠ "..") :
    (⟨segment⟩ : Path).Descends := by
  have hrelative := isAbsolute_of_no_slash hslash
  refine ⟨hrelative, fun hparent ↦ ?_⟩
  rw [components, hrelative, if_neg (by decide), body_of_no_slash hslash] at hparent
  obtain ⟨other, hother, -, hcomponent⟩ := exists_of_mem_componentsOf hparent
  obtain rfl := List.mem_singleton.1 hother
  rw [componentOf, if_neg hdots] at hcomponent
  split at hcomponent <;> cases hcomponent

end Descends

theorem names_of_segmentName {name : String} (h : SegmentName name) : (⟨name⟩ : Path).names = [name] := by
  rw [← (Descends.of_no_slash h.no_slash h.ne_dots).filter_body, body_of_no_slash h.no_slash]
  simp [matters, h.ne_empty, h.ne_dot]

theorem segmentName_of_fileName? {name : String} (h : p.fileName? = some name) : SegmentName name := by
  rw [fileName?] at h
  split at h
  · rename_i hlast
    cases h
    exact segmentName_of_mem_components (List.mem_of_getLast? hlast)
  · cases h

/-! ### What follows a base -/

/-- Whether a path can be what follows a base: it is relative, does not begin with a dot, and ends with a
segment that matters if it is not empty. -/
structure Remainder (p : Path) : Prop where
  /-- The path is relative. -/
  relative : p.isAbsolute = false
  /-- Its segments that matter are its components. -/
  components_eq : p.components = (p.body.filter matters).map componentOf
  /-- The last segment matters. -/
  ends : p = ⟨""⟩ ∨ ∃ segments segment, p.body = segments ++ [segment] ∧ matters segment = true

theorem exists_last_of_dropEnd (h : dropEnd false segments ≠ []) :
    ∃ before last, dropEnd false segments = before ++ [last] ∧ matters last = true := by
  induction segments with
  | nil => exact absurd rfl h
  | cons segment rest ih =>
    rw [dropEnd] at h ⊢
    cases hkept : dropEnd false rest with
    | nil =>
      rw [hkept] at h
      by_cases hat : mattersAt false segment = true
      · exact ⟨[], segment, if_pos hat, mattersAt_false segment ▸ hat⟩
      · exact absurd (if_neg hat) h
    | cons next others =>
      obtain ⟨before, last, hlast, hmatters⟩ := ih (by simp [hkept])
      exact ⟨segment :: before, last, congrArg (segment :: ·) (hkept.symm.trans hlast), hmatters⟩

/-- What is made of segments that stood behind others follows a base. -/
theorem remainder_below (hslash : ∀ segment ∈ segments, '/' ∉ segment.toList) :
    (stripPrefix?.below segments).Remainder := by
  have hcomponents := components_below hslash
  have hfilter := mattering_dropEnd false (segments.dropWhile fun segment ↦ !matters segment)
  rw [mattering_false, mattering_false, filter_dropWhile_matters] at hfilter
  rw [← hfilter] at hcomponents
  rw [stripPrefix?.below] at hcomponents ⊢
  by_cases hkept : dropEnd false (segments.dropWhile fun segment ↦ !matters segment) = []
  · rw [hkept] at hcomponents ⊢
    exact ⟨rfl, rfl, Or.inl rfl⟩
  · obtain ⟨cut, hcut, -⟩ :=
      exists_dropEnd_append false (segments.dropWhile fun segment ↦ !matters segment)
    obtain ⟨before, last, hlast, hmatters⟩ := exists_last_of_dropEnd hkept
    obtain ⟨first, others, hfirst⟩ := List.exists_cons_of_ne_nil hkept
    have hne : first ≠ "" := by
      have hhead := List.head?_dropWhile_not (fun segment ↦ !matters segment) segments
      rw [← hcut, hfirst] at hhead
      rintro rfl
      cases hhead
    have hall : ∀ segment ∈ first :: others, '/' ∉ segment.toList := fun segment hsegment ↦
      hslash segment ((List.dropWhile_sublist _).subset (hcut ▸ List.mem_append_left _ (hfirst ▸ hsegment)))
    have hbody := body_ofBody_false hne hall
    rw [← hfirst] at hbody
    refine ⟨?_, hcomponents.trans (by rw [hbody]), Or.inr ⟨before, last, hbody.trans hlast, hmatters⟩⟩
    rw [hfirst]
    exact isAbsolute_ofBody_false hne (hall first List.mem_cons_self)

theorem remainder_of_stripPrefix? (h : p.stripPrefix? base = some below) (hbase : base.components ≠ []) :
    below.Remainder := by
  have hslash (n : Nat) (first : Bool) : ∀ segment ∈ dropMattering first n p.body, '/' ∉ segment.toList :=
    fun segment hsegment ↦ no_slash_of_mem_body (dropMattering_subset first n p.body hsegment)
  rw [stripPrefix?] at h
  split at h
  · split at h
    · rename_i hnil
      exact absurd hnil hbase
    · cases h
      exact remainder_below (hslash _ _)
    · cases h
      exact remainder_below (hslash _ _)
  · cases h

namespace Remainder

theorem descends (h : p.Remainder) (hparent : .parent ∉ p.components) : p.Descends :=
  ⟨h.relative, hparent⟩

/-- What follows a base and goes up nowhere is made of ordinary names. -/
theorem components_eq_names (h : p.Remainder) (hparent : .parent ∉ p.components) :
    p.components = p.names.map .name := by
  have hdescends := h.descends hparent
  rw [h.components_eq, map_componentOf_filter hdescends.no_dots, hdescends.filter_body]

end Remainder

theorem stripPrefix?_eq_none (h : p.startsWith base = false) : p.stripPrefix? base = none := by
  rw [stripPrefix?, h]
  rfl

theorem components_ne_nil (h : p.text ≠ "") : p.components ≠ [] := by
  intro hnil
  rw [components] at hnil
  split at hnil
  · cases hnil
  · rename_i habsolute
    rw [componentsOf_eq_map, List.map_eq_nil_iff] at hnil
    rcases hbody : p.body with - | ⟨segment, rest⟩
    · exact body_ne_nil p hbody
    · rw [hbody, mattering] at hnil
      split at hnil
      · cases hnil
      · rename_i hat
        -- the first segment is empty, so that a slash would follow it
        have hempty : segment = "" := by simpa [mattersAt] using hat
        rcases rest with - | ⟨next, rest⟩
        · refine h ?_
          rw [← ofBody_body p, hbody, hempty, Bool.eq_false_iff.2 habsolute]
          rfl
        · exact head_ne_empty_of_relative (Bool.eq_false_iff.2 habsolute) hbody (by simp) hempty

/-! ### Joining what follows a base -/

theorem text_join_ne_empty (h : p.text ≠ "" ∨ q.text ≠ "") : (p.join q).text ≠ "" := by
  intro hempty
  cases hq : q.isAbsolute with
  | true =>
    rw [join, if_pos hq] at hempty
    rw [isAbsolute, hempty] at hq
    cases hq
  | false =>
    rw [← String.toList_eq_nil_iff, toList_join hq, List.append_eq_nil_iff, List.append_eq_nil_iff] at hempty
    rcases h with hp | hq
    · exact hp (String.toList_eq_nil_iff.1 hempty.1.1)
    · exact hq (String.toList_eq_nil_iff.1 hempty.2)

theorem componentsOf_append (hne : segments ≠ []) :
    componentsOf first (segments ++ rest) =
      componentsOf first segments ++ (rest.filter matters).map componentOf := by
  obtain ⟨segment, others, rfl⟩ := List.exists_cons_of_ne_nil hne
  rw [List.cons_append, componentsOf, componentsOf, List.filter_append, List.map_append]
  split <;> rfl

/-- Segments behind those of a path add their components. -/
theorem components_of_body (habsolute : p.isAbsolute = q.isAbsolute) (h : p.body = q.body ++ rest) :
    p.components = q.components ++ (rest.filter matters).map componentOf := by
  rw [components, components, habsolute, h, componentsOf_append (body_ne_nil q),
    componentsOf_append (body_ne_nil q)]
  split <;> rfl

/-- A relative path that does not begin with a dot adds its components to those of a path before it. -/
theorem components_join_of_relative (hrelative : q.isAbsolute = false)
    (hcomponents : q.components = (q.body.filter matters).map componentOf) (hp : p.text ≠ "") :
    (p.join q).components = p.components ++ q.components := by
  have hbody (first : Bool) (hempty : p.before = [] → componentsOf first q.body = q.components) :
      componentsOf first (p.join q).body = componentsOf first p.body ++ q.components := by
    have hp : componentsOf first p.body = componentsOf first p.before := by
      rcases body_eq_before p with hp | hp
      · rw [← hp]
      · rw [hp, componentsOf_append_empty]
    rw [hp, body_join hrelative]
    by_cases hbefore : p.before = []
    · rw [hbefore, List.nil_append, hempty hbefore]
      rfl
    · rw [componentsOf_append hbefore, hcomponents]
  cases habsolute : p.isAbsolute with
  | true =>
    have hrest : componentsOf false q.body = q.components := by
      rw [hcomponents, componentsOf_eq_map, mattering_false]
    rw [show (p.join q).components = .root :: componentsOf false (p.join q).body by
        rw [components, isAbsolute_join hrelative, if_pos habsolute],
      show p.components = .root :: componentsOf false p.body by rw [components, if_pos habsolute],
      hbody false fun _ ↦ hrest]
    rfl
  | false =>
    have hsome : p.before ≠ [] := by
      intro hbefore
      -- nothing stands before what is joined to the empty path only
      refine hp ?_
      rcases body_eq_before p with hbody | hbody
      · exact absurd (hbody.trans hbefore) (body_ne_nil p)
      · rw [← ofBody_body p, hbody, hbefore, habsolute]
        rfl
    rw [show (p.join q).components = componentsOf true (p.join q).body by
        rw [components, isAbsolute_join hrelative, habsolute]; rfl,
      show p.components = componentsOf true p.body by rw [components, habsolute]; rfl,
      hbody true fun hbefore ↦ absurd hbefore hsome]

theorem components_join (hq : q.Remainder) (hp : p.text ≠ "") :
    (p.join q).components = p.components ++ q.components :=
  components_join_of_relative hq.relative hq.components_eq hp

/-- A path made of ordinary names is relative. -/
theorem isAbsolute_of_components {names : List String} (h : q.components = names.map .name) :
    q.isAbsolute = false := by
  rw [← Bool.not_eq_true, ← root_mem_components_iff, h]
  simp

/-- A path made of ordinary names adds them to any path before it, an empty one included. -/
theorem components_join_names {names : List String} (h : q.components = names.map .name) :
    (p.join q).components = p.components ++ names.map .name := by
  have hrelative := isAbsolute_of_components h
  by_cases hp : p.text = ""
  · have hjoin : p.join q = q := by
      rw [join, if_neg (by simp [hrelative]), hp]
      simp
    have hempty : p.components = [] := by
      rw [show p = ⟨""⟩ from congrArg Path.mk hp]
      rfl
    rw [hjoin, hempty, h, List.nil_append]
  · rw [components_join_of_relative hrelative ?_ hp, h]
    -- the first segment is no dot, as a dot is no name
    rw [components, hrelative] at h ⊢
    rcases hbody : q.body with - | ⟨segment, rest⟩
    · rfl
    · have hdot : segment ≠ "." := by
        rintro rfl
        rw [hbody] at h
        have hcurrent : Component.current ∈ names.map Component.name :=
          h ▸ List.mem_cons_self
        simp at hcurrent
      have hat : mattersAt true segment = matters segment := by simp [mattersAt, matters, hdot]
      rw [if_neg (by decide), componentsOf_eq_map, mattering, hat, List.filter_cons]

/-- Whether a path goes on from another by ordinary names. -/
def StrictlyBelow (p base : Path) : Prop :=
  ∃ names, names ≠ [] ∧ (∀ name ∈ names, SegmentName name) ∧ p.components = base.components ++ names.map .name

/-- What follows a base is strictly below another one if it is not empty and goes up nowhere. -/
theorem strictlyBelow_join_iff (hq : q.Remainder) (hp : p.text ≠ "") :
    (p.join q).StrictlyBelow p ↔ q.components ≠ [] ∧ .parent ∉ q.components := by
  rw [StrictlyBelow, components_join hq hp]
  simp only [List.append_cancel_left_eq]
  constructor
  · rintro ⟨names, hne, -, hnames⟩
    rw [hnames]
    simpa using hne
  · rintro ⟨hne, hparent⟩
    have hnames := hq.components_eq_names hparent
    refine ⟨q.names, ?_, fun name ↦ segmentName_of_mem_names, hnames⟩
    rintro hnil
    exact hne (by rw [hnames, hnil]; rfl)

end Rebuild.Path
