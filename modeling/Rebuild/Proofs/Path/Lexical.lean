import Mathlib.Logic.Relation
import Rebuild.Proofs.Path.Joining

/-!
# Lexical equality

Two paths are *lexically equal* if their components become the same by putting in and leaving out dots, and
names directly before a double dot. Files are not looked at, so that lexically equal paths may lead to
different places where a name is a link.

What is put in or left out does not show in the components of the normal path (`normalComponents_of_detour`),
and folding one more component leaves out one detour at most (`lexicallyEqual_step`). So each path is lexically
equal to its normal path, and two paths are if and only if their normal paths are the same.
-/

namespace Rebuild.Path

variable {p q lead rest : Path} {cs ds before : List Component}

/-- The second list is the first one with a detour in it: a dot, or an ordinary name and the double dot that
takes it back. -/
inductive Detour : List Component → List Component → Prop
  | dot (before behind : List Component) : Detour (before ++ behind) (before ++ .current :: behind)
  | back (before : List Component) {name : String} (hname : SegmentName name) (behind : List Component) :
    Detour (before ++ behind) (before ++ .name name :: .parent :: behind)

/-- Lists of components become the same by putting detours in and leaving them out. -/
def LexicallyEqual (cs ds : List Component) : Prop :=
  Relation.EqvGen Detour cs ds

/-- What folding a component into those before it can do: it drops a dot, takes a name back for a double dot, and
keeps the component otherwise. -/
theorem foldComponent_cases (before : List Component) (c : Component) :
    (c = .current ∧ foldComponent before c = before) ∨
      (∃ name others, c = .parent ∧ before = .name name :: others ∧ foldComponent before c = others) ∨
      foldComponent before c = c :: before := by
  cases c with
  | current => exact Or.inl ⟨rfl, rfl⟩
  | parent =>
    rcases before with - | ⟨head, others⟩
    · exact Or.inr (Or.inr rfl)
    · cases head with
      | name name => exact Or.inr (Or.inl ⟨name, others, rfl, rfl, rfl⟩)
      | root => exact Or.inr (Or.inr rfl)
      | current => exact Or.inr (Or.inr rfl)
      | parent => exact Or.inr (Or.inr rfl)
  | root => exact Or.inr (Or.inr rfl)
  | name s => exact Or.inr (Or.inr rfl)

/-! ### Folding does not see detours -/

theorem normalComponents_of_detour (h : Detour cs ds) : normalComponents cs = normalComponents ds := by
  cases h with
  | dot before behind =>
    rw [normalComponents, normalComponents, List.foldl_append, List.foldl_append]
    rfl
  | back before _ behind =>
    rw [normalComponents, normalComponents, List.foldl_append, List.foldl_append]
    rfl

theorem LexicallyEqual.normalComponents_eq (h : LexicallyEqual cs ds) :
    normalComponents cs = normalComponents ds := by
  induction h with
  | rel _ _ h => exact normalComponents_of_detour h
  | refl => rfl
  | symm _ _ _ ih => exact ih.symm
  | trans _ _ _ _ _ ihfirst ihsecond => exact ihfirst.trans ihsecond

/-- Dots may be left out before folding. -/
theorem normalComponents_filter (cs : List Component) :
    normalComponents (cs.filter (· ≠ .current)) = normalComponents cs := by
  rw [normalComponents, normalComponents, List.foldl_filter]
  refine congrArg (fun fold : List Component → Component → List Component ↦ (cs.foldl fold []).reverse) ?_
  funext before c
  cases c <;> rfl

/-- What stands first may be folded first. -/
theorem normalComponents_append_congr (h : normalComponents cs = normalComponents ds) (es : List Component) :
    normalComponents (cs ++ es) = normalComponents (ds ++ es) := by
  rw [normalComponents, normalComponents, List.reverse_inj] at h
  rw [normalComponents, normalComponents, List.foldl_append, List.foldl_append, h]

/-! ### Folding leaves detours out -/

/-- Folding a component into those before it leaves out the detour that ends with it, if there is one. -/
theorem lexicallyEqual_step (hbefore : ∀ name, .name name ∈ before → SegmentName name) (c : Component)
    (behind : List Component) :
    LexicallyEqual (before.reverse ++ c :: behind) ((foldComponent before c).reverse ++ behind) := by
  rcases foldComponent_cases before c with ⟨rfl, hfold⟩ | ⟨name, others, rfl, rfl, hfold⟩ | hfold
  · rw [hfold]
    exact .symm _ _ (.rel _ _ (.dot _ _))
  · rw [hfold, List.reverse_cons, List.append_assoc]
    exact .symm _ _ (.rel _ _ (.back _ (hbefore name List.mem_cons_self) _))
  · rw [hfold, List.reverse_cons, List.append_assoc]
    exact .refl _

theorem foldComponent_subset (before : List Component) (c : Component) :
    foldComponent before c ⊆ c :: before := by
  rcases foldComponent_cases before c with ⟨-, hfold⟩ | ⟨name, others, -, rfl, hfold⟩ | hfold
  · rw [hfold]
    exact List.subset_cons_self _ _
  · rw [hfold]
    exact List.subset_cons_of_subset _ (List.subset_cons_self _ _)
  · rw [hfold]
    exact List.Subset.refl _

theorem lexicallyEqual_foldl (hbefore : ∀ name, .name name ∈ before → SegmentName name)
    (hcs : ∀ name, .name name ∈ cs → SegmentName name) :
    LexicallyEqual (before.reverse ++ cs) (cs.foldl foldComponent before).reverse := by
  induction cs generalizing before with
  | nil =>
    rw [List.append_nil]
    exact .refl _
  | cons c cs ih =>
    refine .trans _ _ _ (lexicallyEqual_step hbefore c cs) (ih ?_ fun name hname ↦
      hcs name (List.mem_cons_of_mem _ hname))
    intro name hname
    rcases List.mem_cons.1 (foldComponent_subset before c hname) with rfl | hname
    · exact hcs name List.mem_cons_self
    · exact hbefore name hname

/-- A path is lexically equal to its normal path. -/
theorem lexicallyEqual_normalize (p : Path) : LexicallyEqual p.components p.normalize.components := by
  rw [components_normalize, ← normalComponents_components]
  exact lexicallyEqual_foldl (fun _ hname ↦ absurd hname List.not_mem_nil) fun _ ↦ segmentName_of_mem_components

theorem normalComponents_normalize (p : Path) :
    normalComponents p.normalize.components = normalComponents p.components :=
  (lexicallyEqual_normalize p).normalComponents_eq.symm

theorem normalize_congr (h : normalComponents p.components = normalComponents q.components) :
    p.normalize = q.normalize :=
  congrArg ofComponents h

theorem components_normalize_eq_iff :
    p.normalize.components = q.normalize.components ↔ LexicallyEqual p.components q.components := by
  constructor
  · intro h
    have hq := lexicallyEqual_normalize q
    rw [← h] at hq
    exact .trans _ _ _ (lexicallyEqual_normalize p) (.symm _ _ hq)
  · intro h
    rw [normalize_congr h.normalComponents_eq]

theorem normalize_eq_iff : p.normalize = q.normalize ↔ LexicallyEqual p.components q.components :=
  ⟨fun h ↦ components_normalize_eq_iff.1 (congrArg components h), fun h ↦ normalize_congr h.normalComponents_eq⟩

/-! ### The text of a normal path -/

/-- A path made of a start with no segment of its own and of segments behind it. -/
theorem joinNames_eq_ofBody (absolute : Bool) {segments : List String}
    (hsegments : ∀ segment ∈ segments, Segment segment) :
    (⟨if absolute then "/" else ""⟩ : Path).joinNames segments = ofBody absolute segments := by
  have habsolute : (⟨if absolute then "/" else ""⟩ : Path).isAbsolute = absolute := by
    cases absolute <;> decide
  have hbefore : (⟨if absolute then "/" else ""⟩ : Path).before = [] := by
    cases absolute <;> decide
  have hslash : ∀ segment ∈ segments, '/' ∉ segment.toList := fun segment h ↦ (hsegments segment h).no_slash
  rcases segments with - | ⟨first, others⟩
  · cases absolute <;> rfl
  · have hbody := body_joinNames (p := ⟨if absolute then "/" else ""⟩) hsegments (List.cons_ne_nil _ _)
    rw [hbefore, List.nil_append] at hbody
    refine eq_of_body ?_ ?_
    · rw [isAbsolute_joinNames hsegments, habsolute]
      cases absolute with
      | true => exact (isAbsolute_ofBody_true _).symm
      | false =>
        have hfirst := hsegments first List.mem_cons_self
        exact (isAbsolute_ofBody_false hfirst.ne_empty hfirst.no_slash).symm
    · rw [hbody]
      cases absolute with
      | true => exact (body_ofBody_true (List.cons_ne_nil _ _) hslash).symm
      | false => exact (body_ofBody_false (hsegments first List.mem_cons_self).ne_empty hslash).symm

theorem absolute_normalForm (p : Path) : p.normalForm.absolute = p.isAbsolute := by
  have hkept (form : NormalForm) (cs : List Component) :
      (cs.foldl NormalForm.push form).absolute = form.absolute := by
    induction cs generalizing form with
    | nil => rfl
    | cons c cs ih =>
      rw [List.foldl_cons, ih]
      cases c with
      | parent =>
        rw [NormalForm.push]
        split <;> rfl
      | root => rfl
      | current => rfl
      | name s => rfl
  exact hkept _ _

/-- A normal path is written with its root, its double dots and its names, and nothing else. -/
theorem normalize_eq_ofBody (p : Path) :
    p.normalize =
      ofBody p.isAbsolute (List.replicate p.normalForm.climbs ".." ++ p.normalForm.names) := by
  rw [normalize_eq, absolute_normalForm, joinNames, joinNames, ← List.foldl_append, ← joinNames]
  refine joinNames_eq_ofBody _ fun segment hsegment ↦ ?_
  rcases List.mem_append.1 hsegment with hclimb | hname
  · rw [List.eq_of_mem_replicate hclimb]
    exact ⟨by decide, by decide⟩
  · exact (segmentName_of_mem_normalForm hname).toSegment

/-! ### A leading part -/

theorem componentOf_ne_current {segment : String} (h : segment ≠ ".") : componentOf segment ≠ .current := by
  rw [componentOf, if_neg h]
  split <;> exact Component.noConfusion

theorem filter_mattering (first : Bool) (segments : List String) :
    (mattering first segments).filter (componentOf · ≠ .current) = segments.filter matters := by
  have hlater (others : List String) :
      (others.filter matters).filter (componentOf · ≠ .current) = others.filter matters := by
    refine List.filter_eq_self.2 fun segment hsegment ↦ decide_eq_true (componentOf_ne_current ?_)
    rintro rfl
    exact Bool.noConfusion (List.mem_filter.1 hsegment).2
  -- a dot matters in the first place only
  rcases segments with - | ⟨segment, others⟩
  · rfl
  · by_cases hdot : segment = "."
    · subst hdot
      cases first <;> exact hlater others
    · have hat : mattersAt first segment = matters segment := by simp [mattersAt, matters, hdot]
      rw [mattering, hat, List.filter_cons]
      split
      · rw [List.filter_cons, if_pos (decide_eq_true (componentOf_ne_current hdot)), hlater]
      · exact hlater others

/-- The components that are no dots are the root and those of the segments that matter. -/
theorem filter_components (p : Path) :
    p.components.filter (· ≠ .current) =
      (if p.isAbsolute then [.root] else []) ++ (p.body.filter matters).map componentOf := by
  have hbody (first : Bool) : (componentsOf first p.body).filter (· ≠ .current) =
      (p.body.filter matters).map componentOf := by
    rw [componentsOf_eq_map, List.filter_map, ← filter_mattering first]
    rfl
  rw [components]
  cases p.isAbsolute with
  | true => exact congrArg (.root :: ·) (hbody false)
  | false => exact hbody true

/-- Joining a relative path adds its components, dots apart. -/
theorem normalComponents_join (hrest : rest.isAbsolute = false) :
    normalComponents (p.join rest).components = normalComponents (p.components ++ rest.components) := by
  -- the two differ in an empty segment at the end, where there is a slash
  have hbefore : p.before.filter matters = p.body.filter matters := by
    rcases body_eq_before p with hbody | hbody
    · rw [← hbody]
    · rw [hbody, List.filter_append]
      exact (List.append_nil _).symm
  rw [← normalComponents_filter, ← normalComponents_filter (p.components ++ rest.components), List.filter_append,
    filter_components, filter_components, filter_components, isAbsolute_join hrest, body_join hrest, hrest,
    List.filter_append, List.map_append, hbefore, List.append_assoc]
  rfl

theorem join_of_isAbsolute (hrest : rest.isAbsolute = true) : p.join rest = rest :=
  if_pos hrest

/-- Of two paths that are joined, the first one may be made normal first. -/
theorem normalize_join_normalize (p rest : Path) :
    (p.normalize.join rest).normalize = (p.join rest).normalize := by
  cases hrest : rest.isAbsolute with
  | true => rw [join_of_isAbsolute hrest, join_of_isAbsolute hrest]
  | false =>
    refine normalize_congr ?_
    rw [normalComponents_join hrest, normalComponents_join hrest]
    exact normalComponents_append_congr (normalComponents_normalize p) _

/-- A path has the normal path of its leading part joined with what follows it. -/
theorem normalize_join_of_stripPrefix? (h : p.stripPrefix? lead = some rest) :
    (lead.join rest).normalize = p.normalize := by
  have hcomponents := components_stripPrefix? h
  refine normalize_congr ?_
  cases hrest : rest.isAbsolute with
  | true =>
    -- nothing stands before a root
    have hlead : lead.components = [] := Decidable.byContradiction fun hne ↦ by
      rw [(remainder_of_stripPrefix? h hne).relative] at hrest
      cases hrest
    rw [join_of_isAbsolute hrest, hcomponents, hlead, List.nil_append]
  | false => rw [normalComponents_join hrest, hcomponents]

/-! ### The normal path as a representative -/

/-- Two paths have the same normal path exactly if their components become the same by putting in and leaving out
dots, and ordinary names directly before a double dot. The normal path is lexically equal to the path and its own
normal path; it is written with its root if the path is absolute, then double dots, then ordinary names, and holds
no dot. Any first part of a path may be made normal before the rest is put behind it. -/
theorem normalize_canonical (p q : Path) :
    (p.normalize = q.normalize ↔ LexicallyEqual p.components q.components) ∧
    (p.normalize.components = q.normalize.components ↔ LexicallyEqual p.components q.components) ∧
    LexicallyEqual p.components p.normalize.components ∧
    p.normalize.normalize = p.normalize ∧
    (∃ climbs names, (∀ name ∈ names, SegmentName name) ∧
      p.normalize = ofBody p.isAbsolute (List.replicate climbs ".." ++ names) ∧
      p.normalize.components = (if p.isAbsolute then [.root] else []) ++
        (List.replicate climbs .parent ++ names.map .name)) ∧
    (∀ rest, (p.normalize.join rest).normalize = (p.join rest).normalize) ∧
    ∀ lead, p.startsWith lead = true →
      ∃ rest, p.stripPrefix? lead = some rest ∧ (lead.normalize.join rest).normalize = p.normalize := by
  have hform : p.normalize.components = (if p.isAbsolute then [.root] else []) ++
      (List.replicate p.normalForm.climbs .parent ++ p.normalForm.names.map .name) := by
    rw [components_normalize, NormalForm.components, absolute_normalForm]
  refine ⟨normalize_eq_iff, components_normalize_eq_iff, lexicallyEqual_normalize p,
    normalize_congr (normalComponents_normalize p),
    ⟨_, _, fun _ ↦ segmentName_of_mem_normalForm, normalize_eq_ofBody p, hform⟩,
    normalize_join_normalize p, fun lead hlead ↦ ?_⟩
  obtain ⟨rest, hrest⟩ := exists_stripPrefix? (List.isPrefixOf_iff_prefix.1 hlead)
  exact ⟨rest, hrest, by rw [normalize_join_normalize, normalize_join_of_stripPrefix? hrest]⟩

/-- Two spellings of one place, the first of which goes into a folder, out of it and twice above the start, and a
first part of it that has taken back nothing yet. -/
theorem normalize_canonical_of_climbing :
    let p : Path := ⟨"./a/b/../../../x//c.h"⟩
    let lead : Path := ⟨"./a/b/.."⟩
    LexicallyEqual p.components (⟨"../x/./y/../c.h"⟩ : Path).components ∧ p.startsWith lead = true ∧
      p.stripPrefix? lead = some ⟨"../../x//c.h"⟩ ∧
      (lead.normalize.join ⟨"../../x//c.h"⟩).normalize = ⟨"../x/c.h"⟩ := by
  intro p lead
  obtain ⟨hequal, -, -, -, -, -, hlead⟩ := normalize_canonical p ⟨"../x/./y/../c.h"⟩
  obtain ⟨rest, hrest, hnormal⟩ := hlead lead (by decide)
  have hsome : p.stripPrefix? lead = some ⟨"../../x//c.h"⟩ := by decide
  obtain rfl := Option.some.inj (hsome.symm.trans hrest)
  exact ⟨hequal.1 (by decide), by decide, hsome, hnormal.trans (by decide)⟩

end Rebuild.Path
