import Rebuild.Path.Normal
import Rebuild.Proofs.Path.Extension

/-!
# Normal forms

Folding the components of a path from the left keeps a root or none, then double dots, then names.
These three are the *normal form* of the path; they can be read off the normal path again, and where
a path sits below a root depends on the normal forms of the two only.
-/

namespace Rebuild

/-- The name of a component that is an ordinary name. -/
def Component.name? : Component → Option String
  | name s => some s
  | _ => none

namespace Path

theorem names_eq_filterMap (p : Path) : p.names = p.components.filterMap Component.name? := by
  refine congrArg (p.components.filterMap ·) (funext fun c ↦ ?_)
  cases c <;> rfl

/-- What folding leaves of the components of a path. -/
structure NormalForm where
  /-- Whether the path begins at the root. -/
  absolute : Bool
  /-- How many double dots the path begins with. -/
  climbs : Nat
  /-- The names behind the double dots. -/
  names : List String
deriving DecidableEq, Repr

namespace NormalForm

variable {form other : NormalForm} {c : Component}

/-- The components of a normal form. -/
def components (form : NormalForm) : List Component :=
  (if form.absolute then [.root] else []) ++
    (List.replicate form.climbs .parent ++ form.names.map .name)

/-- The normal form with names behind it. -/
def extend (form : NormalForm) (names : List String) : NormalForm :=
  { form with names := form.names ++ names }

/-- Folds one more component into a normal form. A root has its place before all folding. -/
def push (form : NormalForm) : Component → NormalForm
  | .root | .current => form
  | .parent =>
    if form.names = [] then { form with climbs := form.climbs + 1 }
    else { form with names := form.names.dropLast }
  | .name s => form.extend [s]

theorem components_extend (form : NormalForm) (names : List String) :
    (form.extend names).components = form.components ++ names.map .name := by
  simp only [components, extend, List.map_append, List.append_assoc]
  rfl

theorem filterMap_name? (names : List String) :
    (names.map Component.name).filterMap Component.name? = names := by
  rw [List.filterMap_map]
  exact List.filterMap_some

theorem names_components (form : NormalForm) :
    form.components.filterMap Component.name? = form.names := by
  rw [components, List.filterMap_append, List.filterMap_append, filterMap_name?,
    List.filterMap_replicate]
  cases form.absolute <;> rfl

theorem absolute_components (form : NormalForm) :
    form.absolute = decide (Component.root ∈ form.components) := by
  cases h : form.absolute <;> simp [components, h]

theorem climbs_components (form : NormalForm) : form.climbs = form.components.count .parent := by
  cases h : form.absolute <;> simp [components, h, List.count_eq_zero]

theorem components_inj : form.components = other.components ↔ form = other := by
  refine ⟨fun h ↦ ?_, fun h ↦ by rw [h]⟩
  have habsolute : form.absolute = other.absolute := by
    rw [absolute_components form, absolute_components other, h]
  have hclimbs : form.climbs = other.climbs := by
    rw [climbs_components form, climbs_components other, h]
  have hnames : form.names = other.names := by
    rw [← names_components form, ← names_components other, h]
  cases form
  cases other
  simp_all

/-! ### Folding -/

/-- A component is folded into the components of a normal form as it is into the normal form. -/
theorem foldComponent_components (hroot : c ≠ .root) :
    foldComponent form.components.reverse c = (form.push c).components.reverse := by
  cases c with
  | root => exact absurd rfl hroot
  | current => rfl
  | parent =>
    rcases List.eq_nil_or_concat form.names with hnames | ⟨names, name, hnames⟩
    · rcases form with ⟨absolute, climbs, names⟩
      cases hnames
      cases climbs <;> cases absolute <;>
        simp [push, components, foldComponent, List.replicate_succ']
    · simp [push, components, foldComponent, hnames]
  | name s => simp [push, components_extend, foldComponent]

theorem foldl_foldComponent {cs : List Component} (hroot : .root ∉ cs) :
    cs.foldl foldComponent form.components.reverse =
      (cs.foldl push form).components.reverse := by
  induction cs generalizing form with
  | nil => rfl
  | cons c cs ih =>
    rw [List.mem_cons, not_or] at hroot
    rw [List.foldl_cons, List.foldl_cons, foldComponent_components (Ne.symm hroot.1), ih hroot.2]

/-- What holds of the names that are folded holds of the names that are left. -/
theorem names_foldl_push {cs : List Component} {holds : String → Prop}
    (hform : ∀ name ∈ form.names, holds name) (hcs : ∀ name, .name name ∈ cs → holds name) :
    ∀ name ∈ (cs.foldl push form).names, holds name := by
  induction cs generalizing form with
  | nil => exact hform
  | cons c cs ih =>
    refine ih ?_ fun name hname ↦ hcs name (List.mem_cons_of_mem _ hname)
    intro name hname
    cases c with
    | root => exact hform name hname
    | current => exact hform name hname
    | parent =>
      rw [push] at hname
      split at hname
      · exact hform name hname
      · exact hform name (List.dropLast_subset _ hname)
    | name s =>
      rcases List.mem_append.1 hname with hname | hname
      · exact hform name hname
      · rw [List.mem_singleton.1 hname]
        exact hcs s List.mem_cons_self

end NormalForm

variable {p q base below root : Path} {segments names : List String} {segment : String}

/-- The normal form of a path. -/
def normalForm (p : Path) : NormalForm :=
  (componentsOf (!p.isAbsolute) p.body).foldl NormalForm.push
    { absolute := p.isAbsolute, climbs := 0, names := [] }

theorem root_not_mem_componentsOf (first : Bool) (segments : List String) :
    Component.root ∉ componentsOf first segments := by
  intro h
  obtain ⟨segment, -, -, hsegment⟩ := exists_of_mem_componentsOf h
  rw [componentOf] at hsegment
  split at hsegment
  · cases hsegment
  · split at hsegment <;> cases hsegment

theorem root_mem_components_iff : .root ∈ p.components ↔ p.isAbsolute = true := by
  rw [components]
  cases p.isAbsolute with
  | true => exact iff_of_true List.mem_cons_self rfl
  | false => exact iff_of_false (root_not_mem_componentsOf _ _) (by decide)

theorem normalComponents_components (p : Path) :
    normalComponents p.components = p.normalForm.components := by
  have hfold := @NormalForm.foldl_foldComponent ⟨p.isAbsolute, 0, []⟩ _
    (root_not_mem_componentsOf (!p.isAbsolute) p.body)
  rw [normalComponents, normalForm, components]
  cases habsolute : p.isAbsolute with
  | true =>
    rw [habsolute] at hfold
    rw [if_pos rfl, List.foldl_cons]
    exact List.reverse_eq_iff.2 hfold
  | false =>
    rw [habsolute] at hfold
    exact List.reverse_eq_iff.2 hfold

theorem segmentName_of_mem_normalForm {name : String} (h : name ∈ p.normalForm.names) :
    SegmentName name := by
  refine NormalForm.names_foldl_push (by simp) (fun name hname ↦ ?_) name h
  refine segmentName_of_mem_components (p := p) ?_
  rw [components]
  cases habsolute : p.isAbsolute with
  | true => rw [habsolute] at hname; exact List.mem_cons_of_mem _ hname
  | false => rw [habsolute] at hname; exact hname

/-! ### The normal path -/

theorem components_joinNames (hnames : ∀ name ∈ names, SegmentName name) :
    (p.joinNames names).components = p.components ++ names.map .name := by
  induction names generalizing p with
  | nil => exact (List.append_nil _).symm
  | cons name rest ih =>
    show ((p.joinName name).joinNames rest).components = _
    rw [ih fun other hother ↦ hnames other (List.mem_cons_of_mem _ hother),
      components_joinName (hnames name List.mem_cons_self), List.append_assoc]
    rfl

theorem components_climb (p : Path) (n : Nat) :
    (p.joinNames (List.replicate n "..")).components =
      p.components ++ List.replicate n .parent := by
  induction n generalizing p with
  | zero => exact (List.append_nil _).symm
  | succ n ih =>
    show ((p.joinName "..").joinNames (List.replicate n "..")).components = _
    rw [ih, components_joinSegment ⟨by decide, by decide⟩ (by decide), List.append_assoc]
    rfl

/-- The normal path is put together from the components of the normal form. -/
theorem normalize_eq (p : Path) :
    p.normalize = ((⟨if p.normalForm.absolute then "/" else ""⟩ : Path).joinNames
      (List.replicate p.normalForm.climbs "..")).joinNames p.normalForm.names := by
  have hjoin (start : Path) (cs : List Component) :
      cs.foldl (fun q c ↦ q.join ⟨c.text⟩) start = start.joinNames (cs.map Component.text) := by
    rw [joinNames, List.foldl_map]
    rfl
  have hnames : p.normalForm.names.map (Component.text ∘ Component.name) = p.normalForm.names :=
    List.map_id _
  rw [normalize, normalComponents_components, ofComponents, NormalForm.components,
    List.foldl_append, List.foldl_append, hjoin _ (List.replicate _ _), hjoin _ (List.map _ _),
    List.map_replicate, List.map_map, hnames]
  cases p.normalForm.absolute <;> rfl

/-- The components of the normal path are those of the normal form. -/
theorem components_normalize (p : Path) : p.normalize.components = p.normalForm.components := by
  rw [normalize_eq, components_joinNames fun name ↦ segmentName_of_mem_normalForm,
    components_climb, NormalForm.components, List.append_assoc]
  cases p.normalForm.absolute <;> rfl

theorem names_normalize (p : Path) : p.normalize.names = p.normalForm.names := by
  rw [names_eq_filterMap, components_normalize, NormalForm.names_components]

/-! ### What follows a base -/

/-- The segments that matter; `first` says that nothing stands before them. -/
def mattering (first : Bool) : List String → List String
  | [] => []
  | segment :: rest =>
    if mattersAt first segment then segment :: rest.filter matters else rest.filter matters

theorem componentsOf_eq_map (first : Bool) (segments : List String) :
    componentsOf first segments = (mattering first segments).map componentOf := by
  cases segments with
  | nil => rfl
  | cons segment rest =>
    rw [componentsOf, mattering]
    split <;> rfl

theorem mattersAt_false (segment : String) : mattersAt false segment = matters segment := by
  rw [mattersAt, matters, Bool.false_or]

theorem mattering_false (segments : List String) :
    mattering false segments = segments.filter matters := by
  cases segments with
  | nil => rfl
  | cons segment rest => rw [mattering, mattersAt_false, List.filter_cons]

theorem filter_dropMattering (n : Nat) (segments : List String) :
    (dropMattering false n segments).filter matters = (segments.filter matters).drop n := by
  induction segments generalizing n with
  | nil => cases n <;> rfl
  | cons segment rest ih =>
    cases n with
    | zero => rfl
    | succ n =>
      rw [dropMattering, mattersAt_false, List.filter_cons]
      split
      · rw [ih, List.drop_succ_cons]
      · exact ih (n + 1)

theorem filter_dropMattering_succ (first : Bool) (n : Nat) (segments : List String) :
    (dropMattering first (n + 1) segments).filter matters =
      (mattering first segments).drop (n + 1) := by
  cases segments with
  | nil => rfl
  | cons segment rest =>
    rw [dropMattering, mattering]
    split
    · rw [filter_dropMattering, List.drop_succ_cons]
    · rw [filter_dropMattering]

theorem dropMattering_subset (first : Bool) (n : Nat) (segments : List String) :
    dropMattering first n segments ⊆ segments := by
  induction segments generalizing first n with
  | nil => cases n <;> exact List.Subset.refl _
  | cons segment rest ih =>
    cases n with
    | zero => exact List.Subset.refl _
    | succ n =>
      rw [dropMattering]
      split
      · exact List.subset_cons_of_subset _ (ih _ _)
      · exact List.subset_cons_of_subset _ (ih _ _)

theorem mattering_dropEnd (first : Bool) (segments : List String) :
    mattering first (dropEnd first segments) = mattering first segments := by
  induction segments generalizing first with
  | nil => rfl
  | cons segment rest ih =>
    have hrest := ih false
    rw [mattering_false, mattering_false] at hrest
    rw [dropEnd]
    split
    · rename_i hnone
      rw [hnone] at hrest
      rw [mattering, ← hrest]
      by_cases hat : mattersAt first segment = true <;> simp [mattering, hat]
    · rw [mattering, mattering, hrest]

theorem filter_dropWhile_matters (segments : List String) :
    (segments.dropWhile fun segment ↦ !matters segment).filter matters =
      segments.filter matters := by
  induction segments with
  | nil => rfl
  | cons segment rest ih =>
    rw [List.dropWhile_cons]
    cases hmatters : matters segment with
    | false => simpa [hmatters] using ih
    | true => simp

/-- The components of a relative path that is made of what follows others. -/
theorem components_below (hslash : ∀ segment ∈ segments, '/' ∉ segment.toList) :
    (stripPrefix?.below segments).components = (segments.filter matters).map componentOf := by
  let rest := segments.dropWhile fun segment ↦ !matters segment
  obtain ⟨cut, hcut, -⟩ := exists_dropEnd_append false rest
  have hfilter := mattering_dropEnd false rest
  rw [mattering_false, mattering_false, filter_dropWhile_matters] at hfilter
  rw [← hfilter]
  show (ofBody false (dropEnd false rest)).components = _
  rcases hkept : dropEnd false rest with - | ⟨first, others⟩
  · rfl
  · rw [hkept] at hcut
    have hmatters : matters first = true := by
      have hhead := List.head?_dropWhile_not (fun segment ↦ !matters segment) segments
      have hfirst : rest.head? = some first := by rw [← hcut]; rfl
      rw [show segments.dropWhile (fun segment ↦ !matters segment) = rest from rfl, hfirst] at hhead
      simpa using hhead
    have hne : first ≠ "" := by
      rintro rfl
      cases hmatters
    have hall : ∀ segment ∈ first :: others, '/' ∉ segment.toList := by
      intro segment hsegment
      refine hslash segment ((List.dropWhile_sublist _).subset (?_ : segment ∈ rest))
      rw [← hcut]
      exact List.mem_append_left _ hsegment
    have hat : mattersAt true first = true := by simpa [mattersAt] using hne
    rw [components, isAbsolute_ofBody_false hne (hall first List.mem_cons_self),
      if_neg (by decide), body_ofBody_false hne hall, componentsOf_eq_map, mattering, if_pos hat,
      List.filter_cons, if_pos hmatters]

/-- What is cut from the end of a path is no component. -/
theorem components_dropEnd (p : Path) :
    (ofBody p.isAbsolute (dropEnd (!p.isAbsolute) p.body)).components = p.components := by
  have hmattering := mattering_dropEnd (!p.isAbsolute) p.body
  obtain ⟨cut, hcut, -⟩ := exists_dropEnd_append (!p.isAbsolute) p.body
  have hpath : p.components = (if p.isAbsolute then [Component.root] else []) ++
      (mattering (!p.isAbsolute) p.body).map componentOf := by
    rw [components, componentsOf_eq_map, componentsOf_eq_map]
    cases p.isAbsolute <;> rfl
  rw [hpath, ← hmattering]
  by_cases hkept : dropEnd (!p.isAbsolute) p.body = []
  · rw [hkept]
    cases p.isAbsolute <;> rfl
  · rw [components, isAbsolute_ofBody_first hcut.symm, body_ofBody_first hcut.symm hkept,
      componentsOf_eq_map, componentsOf_eq_map]
    cases p.isAbsolute <;> rfl

/-- A path is its base and what follows the base. -/
theorem components_stripPrefix? (h : p.stripPrefix? base = some below) :
    p.components = base.components ++ below.components := by
  have hslash (n : Nat) (first : Bool) :
      ∀ segment ∈ dropMattering first n p.body, '/' ∉ segment.toList :=
    fun segment hsegment ↦ no_slash_of_mem_body (dropMattering_subset first n p.body hsegment)
  by_cases hstarts : p.startsWith base = true
  · rw [stripPrefix?, if_pos hstarts] at h
    rw [startsWith, List.isPrefixOf_iff_prefix, List.prefix_iff_eq_append] at hstarts
    split at h
    · rename_i hbase
      cases h
      rw [hbase, components_dropEnd]
      rfl
    · rename_i rest hbase
      cases h
      have habsolute : p.isAbsolute = true := by
        rw [← root_mem_components_iff, ← hstarts, hbase]
        exact List.mem_cons_self
      rw [hbase, components, if_pos habsolute, List.length_cons, List.drop_succ_cons,
        List.cons_append, List.cons_inj_right, componentsOf_eq_map, ← List.map_drop] at hstarts
      rw [hbase, components_below (hslash _ _), filter_dropMattering, List.cons_append,
        ← mattering_false, hstarts, ← componentsOf_eq_map, components, if_pos habsolute]
    · rename_i hnil hroot
      cases h
      obtain ⟨c, rest, hbase⟩ := List.exists_cons_of_ne_nil hnil
      have habsolute : ¬p.isAbsolute = true := by
        intro habsolute
        rw [hbase, components, if_pos habsolute, List.cons_append] at hstarts
        exact hroot rest (hbase.trans (by rw [(List.cons.inj hstarts).1]))
      rw [hbase, components, if_neg habsolute, componentsOf_eq_map, List.length_cons,
        ← List.map_drop] at hstarts
      rw [hbase, components_below (hslash _ _), List.length_cons, filter_dropMattering_succ, hstarts,
        ← componentsOf_eq_map, components, if_neg habsolute]
  · rw [stripPrefix?, if_neg hstarts] at h
    cases h

theorem exists_stripPrefix? (h : base.components <+: p.components) :
    ∃ below, p.stripPrefix? base = some below := by
  rw [stripPrefix?, startsWith, if_pos (List.isPrefixOf_iff_prefix.2 h)]
  split <;> exact ⟨_, rfl⟩

/-! ### The place below a root -/

/-- Whether the normal form of a path is that of the root and names behind it. -/
def LiesIn (p root : Path) : Prop :=
  ∃ names, p.normalForm = root.normalForm.extend names

/-- Below the root, the names behind the root's are the place. -/
theorem components_relativeTo_of_extend (h : p.normalForm = root.normalForm.extend names) :
    (root.relativeTo p).components = names.map .name := by
  have hcomponents : p.normalize.components = root.normalize.components ++ names.map .name := by
    rw [components_normalize, components_normalize, h, NormalForm.components_extend]
  obtain ⟨below, hbelow⟩ := exists_stripPrefix? ⟨_, hcomponents.symm⟩
  have hnames : below.components = names.map .name := by
    rw [components_stripPrefix? hbelow, List.append_cancel_left_eq] at hcomponents
    exact hcomponents
  have hall : below.components.all Component.isName = true := by
    rw [hnames, List.all_eq_true]
    intro c hc
    obtain ⟨name, -, rfl⟩ := List.mem_map.1 hc
    rfl
  unfold relativeTo
  dsimp only
  split
  · rename_i other hother
    rw [hbelow] at hother
    cases hother
    rw [if_pos hall, hnames]
  · rename_i hnone
    rw [hbelow] at hnone
    cases hnone

theorem map_name_of_all {cs : List Component} (h : cs.all Component.isName = true) :
    ∃ names : List String, cs = names.map .name := by
  induction cs with
  | nil => exact ⟨[], rfl⟩
  | cons c cs ih =>
    rw [List.all_cons, Bool.and_eq_true] at h
    obtain ⟨names, hnames⟩ := ih h.2
    cases c with
    | name s => exact ⟨s :: names, by rw [hnames]; rfl⟩
    | root => cases h.1
    | current => cases h.1
    | parent => cases h.1

/-- Everywhere else, the names of the normal form are the place, below the folder of external
files. -/
theorem components_relativeTo_of_not_liesIn (h : ¬p.LiesIn root) :
    (root.relativeTo p).components = (externalFolder :: p.normalForm.names).map .name := by
  have hexternal : (relativeTo.external p.normalize).components =
      (externalFolder :: p.normalForm.names).map .name := by
    rw [relativeTo.external, names_normalize,
      components_joinNames fun name ↦ segmentName_of_mem_normalForm]
    rfl
  unfold relativeTo
  dsimp only
  split
  · rename_i below hbelow
    split
    · rename_i hall
      obtain ⟨names, hnames⟩ := map_name_of_all hall
      have hcomponents := components_stripPrefix? hbelow
      rw [hnames, components_normalize, components_normalize, ← NormalForm.components_extend,
        NormalForm.components_inj] at hcomponents
      exact absurd ⟨names, hcomponents⟩ h
    · exact hexternal
  · exact hexternal

theorem names_of_components (h : p.components = names.map .name) : p.names = names := by
  rw [names_eq_filterMap, h, NormalForm.filterMap_name?]

/-- Below the root, two paths have one place up to the extension if and only if their normal paths
are the same up to the extension. -/
theorem bareNames_relativeTo_inj (hp : p.LiesIn root) (hq : q.LiesIn root) :
    (root.relativeTo p).bareNames = (root.relativeTo q).bareNames ↔
      p.normalize.bareNames = q.normalize.bareNames := by
  obtain ⟨names, hp⟩ := hp
  obtain ⟨others, hq⟩ := hq
  rw [bareNames, bareNames, bareNames, bareNames,
    names_of_components (components_relativeTo_of_extend hp),
    names_of_components (components_relativeTo_of_extend hq), names_normalize, names_normalize, hp, hq]
  show bare names = bare others ↔
    bare (root.normalForm.names ++ names) = bare (root.normalForm.names ++ others)
  by_cases hnames : names = []
  · subst hnames
    by_cases hothers : others = []
    · subst hothers
      exact iff_of_true rfl rfl
    · refine iff_of_false (fun heq ↦ ?_) fun heq ↦ ?_ <;>
        simpa [hothers, eq_comm] using congrArg List.length heq
  · by_cases hothers : others = []
    · subst hothers
      refine iff_of_false (fun heq ↦ ?_) fun heq ↦ ?_ <;>
        simpa [hnames] using congrArg List.length heq
    · rw [bare_append _ hnames, bare_append _ hothers, List.append_cancel_left_eq]

end Path

end Rebuild
