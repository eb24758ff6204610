import Mathlib.Data.List.Nodup
import Rebuild.Proofs.FileStore.Walk
import Rebuild.Proofs.Path.Normal

/-!
# Where the listed files are

What a walk lists lies below the start by ordinary names, in the path as in the store
(`WellFormed.exists_names_of_mem_walk`): links are not followed on the way. So within one walk paths,
normal paths and locations are told apart by the same names, and no path is listed twice
(`WellFormed.nodup_walk`), as long as the store holds each location once.
-/

namespace Rebuild

/-! ### Names behind a path -/

namespace Path

variable {p : Path} {names others : List String}

theorem normalComponents_append_names (components : List Component) (names : List String) :
    normalComponents (components ++ names.map .name) =
      normalComponents components ++ names.map .name := by
  have hfold (before : List Component) :
      (names.map Component.name).foldl foldComponent before =
        (names.map Component.name).reverse ++ before := by
    induction names generalizing before with
    | nil => rfl
    | cons name names ih =>
      rw [List.map_cons, List.foldl_cons, ih, List.reverse_cons, List.append_assoc]
      rfl
  rw [normalComponents, List.foldl_append, hfold, List.reverse_append, List.reverse_reverse]
  rfl

theorem normalForm_joinNames (hnames : ∀ name ∈ names, SegmentName name) :
    (p.joinNames names).normalForm = p.normalForm.extend names := by
  rw [← NormalForm.components_inj, NormalForm.components_extend, ← normalComponents_components,
    ← normalComponents_components, components_joinNames hnames, normalComponents_append_names]

theorem joinNames_inj (hnames : ∀ name ∈ names, SegmentName name)
    (hothers : ∀ name ∈ others, SegmentName name) :
    p.joinNames names = p.joinNames others ↔ names = others := by
  refine ⟨fun h ↦ ?_, fun h ↦ by rw [h]⟩
  have hcomponents := congrArg Path.components h
  rw [components_joinNames hnames, components_joinNames hothers, List.append_cancel_left_eq]
    at hcomponents
  exact List.map_injective_iff.2 (fun _ _ ↦ Component.name.inj) hcomponents

end Path

namespace FileStore

variable {s : FileStore} {l : Location} {p q : Path} {keep : Path → Bool} {name : String}

theorem EntryName.segmentName (h : EntryName name) : Path.SegmentName name :=
  h.toOrdinaryName.segmentName

/-! ### The names in a folder -/

theorem perm_insertName (name : String) (names : List String) :
    (insertName name names).Perm (name :: names) := by
  induction names with
  | nil => rfl
  | cons first rest ih =>
    rw [insertName]
    split
    · rfl
    · exact (ih.cons first).trans (.swap name first rest)

theorem perm_foldr_insertName (names : List String) : (names.foldr insertName []).Perm names := by
  induction names with
  | nil => rfl
  | cons first rest ih => exact (perm_insertName first _).trans (ih.cons first)

theorem mem_childNames : name ∈ s.childNames l ↔ (s.find? (l.child name)).isSome := by
  refine ⟨fun h ↦ find?_isSome_iff.2 (child_mem_of_mem_childNames h), fun h ↦ ?_⟩
  rw [childNames, mem_foldr_insertName, List.mem_filterMap]
  exact ⟨l.child name, find?_isSome_iff.1 h, by simp⟩

theorem pairwise_insertName {names : List String} (h : names.Pairwise (· ≤ ·)) :
    (insertName name names).Pairwise (· ≤ ·) := by
  induction names with
  | nil => exact List.pairwise_singleton _ _
  | cons first rest ih =>
    obtain ⟨hfirst, hrest⟩ := List.pairwise_cons.1 h
    rw [insertName]
    split
    next hle =>
      refine List.pairwise_cons.2 ⟨fun other hother ↦ ?_, h⟩
      rcases List.mem_cons.1 hother with rfl | hother
      · exact hle
      · exact String.le_trans hle (hfirst other hother)
    next hnot =>
      refine List.pairwise_cons.2 ⟨fun other hother ↦ ?_, ih hrest⟩
      rcases mem_insertName.1 hother with rfl | hother
      · exact (String.le_total other first).resolve_left hnot
      · exact hfirst other hother

theorem pairwise_childNames (s : FileStore) (l : Location) :
    (s.childNames l).Pairwise (· ≤ ·) := by
  rw [childNames]
  generalize s.locations.filterMap _ = names
  induction names with
  | nil => exact .nil
  | cons first rest ih => exact pairwise_insertName ih

/-- A folder holds each name once. -/
theorem nodup_childNames (hs : s.locations.Nodup) (l : Location) : (s.childNames l).Nodup := by
  rw [childNames, (perm_foldr_insertName _).nodup_iff]
  refine hs.filterMap fun a b name ha hb ↦ ?_
  have hchild {l' : Location}
      (h : name ∈ if l'.parent = l then l'.names.getLast? else none) : l' = l.child name := by
    split at h
    next hparent =>
      obtain ⟨around, haround⟩ := List.getLast?_eq_some_iff.1 h
      subst hparent
      cases l'
      simp_all [Location.child, Location.parent]
    next => cases h
  rw [hchild ha, hchild hb]

/-! ### What a walk lists -/

/-- What is listed lies below the start by ordinary names, in the path as in the store. -/
theorem WellFormed.exists_names_of_mem_filesAt (hs : s.WellFormed)
    (h : ∀ e, s.find? l = some e → (∀ target, e ≠ .link target) →
      s.lead true p = .ok (.existing l))
    (hq : q ∈ s.filesAt keep p l) : ∃ names, (∀ name ∈ names, EntryName name) ∧
      q = p.joinNames names ∧ s.lead true q = .ok (.existing (l.descend names)) := by
  fun_induction s.filesAt keep p l with
  | case1 p l hkeep content executable time hfile =>
    obtain rfl := List.mem_singleton.1 hq
    refine ⟨[], by simp, rfl, ?_⟩
    rw [Location.descend_nil]
    exact h _ hfile (by simp)
  | case2 => cases hq
  | case3 p l hkeep time hfolder hshort ih =>
    obtain ⟨⟨name, hname⟩, -, hq⟩ := List.mem_flatMap.1 hq
    have hlead := h _ hfolder (by simp)
    have hentry := hs.entryName_of_mem_childNames hname
    obtain ⟨names, hnames, hpath, hlead⟩ :=
      ih name hname (fun e he hlink ↦ lead_child hentry ⟨time, hfolder⟩ hlead he hlink) hq
    refine ⟨name :: names, ?_, hpath, ?_⟩
    · rintro other (_ | ⟨_, hother⟩)
      · exact hentry
      · exact hnames other hother
    · rwa [Location.descend_cons]
  | case4 => cases hq
  | case5 => cases hq

theorem WellFormed.nodup_filesAt (hs : s.WellFormed) (hdistinct : s.locations.Nodup)
    (h : ∀ e, s.find? l = some e → (∀ target, e ≠ .link target) →
      s.lead true p = .ok (.existing l)) : (s.filesAt keep p l).Nodup := by
  fun_induction s.filesAt keep p l with
  | case1 => exact List.nodup_singleton _
  | case2 => exact List.nodup_nil
  | case3 p l hkeep time hfolder hshort ih =>
    have hlead := h _ hfolder (by simp)
    have hbelow {name : String} (hname : name ∈ s.childNames l) : ∀ e,
        s.find? (l.child name) = some e → (∀ target, e ≠ .link target) →
          s.lead true (p.joinName name) = .ok (.existing (l.child name)) := fun e he hlink ↦
      lead_child (hs.entryName_of_mem_childNames hname) ⟨time, hfolder⟩ hlead he hlink
    rw [List.nodup_flatMap]
    refine ⟨fun child _ ↦ ih child.1 child.2 (hbelow child.2), ?_⟩
    -- what is below two names differs in the component that the name is
    refine (List.nodup_attach.2 (nodup_childNames hdistinct l)).imp
      fun {a b} hne ↦ List.disjoint_left.2 fun q ha hb ↦ hne (Subtype.ext ?_)
    obtain ⟨names, hnames, hpath, -⟩ := hs.exists_names_of_mem_filesAt (hbelow a.2) ha
    obtain ⟨others, hothers, hpath', -⟩ := hs.exists_names_of_mem_filesAt (hbelow b.2) hb
    have hcons {name : String} {names : List String} (hname : name ∈ s.childNames l)
        (hnames : ∀ name ∈ names, EntryName name) :
        ∀ other ∈ name :: names, Path.SegmentName other := by
      rintro other (_ | ⟨_, hother⟩)
      · exact (hs.entryName_of_mem_childNames hname).segmentName
      · exact (hnames other hother).segmentName
    have heq : p.joinNames (a.1 :: names) = p.joinNames (b.1 :: others) := hpath.symm.trans hpath'
    exact (List.cons.inj ((Path.joinNames_inj (hcons a.2 hnames) (hcons b.2 hothers)).1 heq)).1
  | case4 => exact List.nodup_nil
  | case5 => exact List.nodup_nil

/-- A walk lists nothing, or what is at and below the location that the start leads to. -/
theorem walk_cases (s : FileStore) (keep : Path → Bool) (p : Path) :
    s.walk keep p = [] ∨
      ∃ l, s.lead true p = .ok (.existing l) ∧ s.walk keep p = s.filesAt keep p l := by
  rw [walk]
  split
  · split
    next l time hlocate => exact .inr ⟨l, (find?_of_locate hlocate).1, rfl⟩
    next => exact .inl rfl
  next l e hlink hlocate =>
    have hnot (target : String) : e ≠ .link target := by
      rintro rfl
      exact hlink target rfl
    exact .inr ⟨l, (lead_of_locate_false hlocate hnot).1, rfl⟩
  next => exact .inl rfl

theorem WellFormed.nodup_walk (hs : s.WellFormed) (hdistinct : s.locations.Nodup)
    (keep : Path → Bool) (p : Path) : (s.walk keep p).Nodup := by
  obtain hnone | ⟨l, hlead, hfiles⟩ := s.walk_cases keep p
  · rw [hnone]
    exact List.nodup_nil
  · rw [hfiles]
    exact hs.nodup_filesAt hdistinct fun _ _ _ ↦ hlead

/-- What a walk lists lies below the start by ordinary names, in the path as in the store. -/
theorem WellFormed.exists_names_of_mem_walk (hs : s.WellFormed) (hq : q ∈ s.walk keep p) :
    ∃ l names, s.lead true p = .ok (.existing l) ∧ (∀ name ∈ names, EntryName name) ∧
      q = p.joinNames names ∧ s.lead true q = .ok (.existing (l.descend names)) := by
  obtain hnone | ⟨l, hlead, hfiles⟩ := s.walk_cases keep p
  · rw [hnone] at hq
    cases hq
  · rw [hfiles] at hq
    exact ⟨l, _, hlead, (hs.exists_names_of_mem_filesAt (fun _ _ _ ↦ hlead) hq).choose_spec⟩

end FileStore

end Rebuild
