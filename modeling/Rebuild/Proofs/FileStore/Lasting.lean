import Mathlib.Data.List.Flatten
import Mathlib.Data.List.Perm.Subperm
import Mathlib.Data.List.Sort
import Rebuild.Proofs.FileStore.Listing
import Rebuild.Proofs.FileStore.Writing

/-!
# Walks while files come and go

A walk lists what is in a folder in the order of the names. So as long as folders and links are kept,
what is listed before and is still there is listed in the same order, and what has come stands in
between (`KeepsWays.sublist_walk`).
-/

namespace Rebuild.FileStore

variable {s s' : FileStore} {l : Location} {p : Path} {keep good : Path → Bool} {name : String}

/-! ### The names in a folder -/

/-- The names that are still in a folder are listed in the same order. -/
theorem sublist_childNames (hs : s.locations.Nodup) (s' : FileStore) (l : Location) :
    ((s.childNames l).filter fun name ↦ (s'.find? (l.child name)).isSome).Sublist
      (s'.childNames l) := by
  have hsubset : ((s.childNames l).filter fun name ↦ (s'.find? (l.child name)).isSome) ⊆
      s'.childNames l := fun name hname ↦ mem_childNames.2 (List.mem_filter.1 hname).2
  have : Std.Antisymm fun a b : String ↦ a ≤ b := ⟨fun _ _ ↦ String.le_antisymm⟩
  exact List.sublist_of_subperm_of_pairwise
    (List.Nodup.subperm ((nodup_childNames hs l).filter _) hsubset)
    ((pairwise_childNames s l).filter _) (pairwise_childNames s' l)

/-! ### What is listed still -/

/-- What has nothing to list can be left out. -/
theorem flatMap_filter_of_nil {names : List String} {f : String → List Path} {test : String → Bool}
    (h : ∀ name ∈ names, test name = false → f name = []) :
    (names.filter test).flatMap f = names.flatMap f := by
  induction names with
  | nil => rfl
  | cons first rest ih =>
    rw [List.forall_mem_cons] at h
    rw [List.flatMap_cons, ← ih h.2]
    cases htest : test first with
    | true => rw [List.filter_cons_of_pos htest, List.flatMap_cons]
    | false => rw [List.filter_cons_of_neg (by simp [htest]), h.1 htest, List.nil_append]

theorem filesAt_of_none (h : s.find? l = none) : s.filesAt keep p l = [] := by
  rw [filesAt, h]
  split <;> rfl

/-- What is listed below a location and is good is still listed, in the same order, if it is still
there. -/
theorem KeepsWays.sublist_filesAt (h : s.KeepsWays s') (hs : s.WellFormed)
    (hdistinct : s.locations.Nodup)
    (hlead : ∀ e, s.find? l = some e → (∀ target, e ≠ .link target) →
      s.lead true p = .ok (.existing l))
    (hstill : ∀ q ∈ s.filesAt keep p l, good q = true → ∀ x, s.lead true q = .ok (.existing x) →
      s'.HasFile x) :
    ((s.filesAt keep p l).filter good).Sublist (s'.filesAt keep p l) := by
  fun_induction s.filesAt keep p l with
  | case1 p l hkeep content executable time hfile =>
    cases hgood : good p with
    | false => simp [hgood]
    | true =>
      obtain ⟨content', executable', time', hfile'⟩ := exists_find?_of_hasFile
        (hstill p (List.mem_singleton_self p) hgood l (hlead _ hfile (by simp)))
      rw [filesAt_of_file hkeep hfile']
      exact List.filter_sublist
  | case2 => exact List.nil_sublist _
  | case3 p l hkeep time hfolder hshort ih =>
    obtain ⟨time', hfolder'⟩ := h.hasFolder ⟨time, hfolder⟩
    rw [filesAt_of_folder hkeep hfolder' (by simpa using hshort)]
    rw [List.flatMap_subtype (g := fun name ↦ s.filesAt keep (p.joinName name) (l.child name))
      (fun _ _ ↦ rfl), List.unattach_attach] at hstill ⊢
    have hchild : ∀ name ∈ s.childNames l,
        ((s.filesAt keep (p.joinName name) (l.child name)).filter good).Sublist
          (s'.filesAt keep (p.joinName name) (l.child name)) := fun name hname ↦
      ih name hname
        (fun e he hlink ↦ lead_child (hs.entryName_of_mem_childNames hname) ⟨time, hfolder⟩
          (hlead _ hfolder (by simp)) he hlink)
        fun q hq ↦ hstill q (List.mem_flatMap.2 ⟨name, hname, hq⟩)
    rw [List.filter_flatMap]
    refine (List.Sublist.flatMap_right _ hchild).trans ?_
    -- where nothing is left, nothing is listed
    rw [← flatMap_filter_of_nil fun name _ hgone ↦
      filesAt_of_none (Option.isSome_eq_false_iff.1 hgone |> Option.isNone_iff_eq_none.1)]
    exact (sublist_childNames hdistinct s' l).flatMap _
  | case4 => exact List.nil_sublist _
  | case5 => exact List.nil_sublist _

/-- A path leads to something of the same kind where that is kept. -/
theorem KeepsWays.exists_locate {followLast : Bool} {e : Entry} (h : s.KeepsWays s')
    (hlocate : s.locate followLast p = .ok (l, e)) (hkind : s'.kind? l = s.kind? l) :
    ∃ e', s'.locate followLast p = .ok (l, e') ∧ e'.kind = e.kind := by
  rw [locate] at hlocate
  cases hdest : s.resolve followLast p with
  | error =>
    rw [hdest] at hlocate
    cases hlocate
  | ok dest =>
    rw [hdest] at hlocate
    obtain ⟨rfl, hfind⟩ := find?_of_arrive hlocate
    have hsome : s.kind? l = some e.kind := by rw [kind?, hfind]; rfl
    obtain ⟨e', hfind', hkind'⟩ := Option.map_eq_some_iff.1 (hkind.trans hsome)
    refine ⟨e', ?_, hkind'⟩
    rw [locate, h.resolve_eq hkind hdest]
    show s'.arrive (.existing l) = _
    rw [arrive, hfind']

/-- What a path leads to is of the same kind still, if it is no file. -/
theorem KeepsWays.exists_locate_of_ne_file {followLast : Bool} {e : Entry} (h : s.KeepsWays s')
    (hlocate : s.locate followLast p = .ok (l, e)) (hfile : e.kind ≠ .file) :
    ∃ e', s'.locate followLast p = .ok (l, e') ∧ e'.kind = e.kind := by
  have hkind : s.kind? l = some e.kind := by rw [kind?, (find?_of_locate hlocate).2]; rfl
  exact h.exists_locate hlocate ((h.kind l _ hfile hkind).trans hkind.symm)

/-- A walk that starts at a file lists it, if anything. -/
theorem walk_of_locate_file {content : ByteArray} {executable : Bool} {time : Nat}
    (hlocate : s.locate false p = .ok (l, .file content executable time)) :
    s.walk keep p = if keep p then [p] else [] := by
  simp only [walk, hlocate]
  rw [filesAt, (find?_of_locate hlocate).2]

theorem KeepsWays.sublist_walk_of_file {content : ByteArray} {executable : Bool} {time : Nat}
    (h : s.KeepsWays s') (hlocate : s.locate false p = .ok (l, .file content executable time))
    (hstill : ∀ q ∈ s.walk keep p, good q = true → ∀ x, s.lead true q = .ok (.existing x) →
      s'.HasFile x) : ((s.walk keep p).filter good).Sublist (s'.walk keep p) := by
  rw [walk_of_locate_file hlocate] at hstill ⊢
  cases hkeep : keep p with
  | false => exact List.nil_sublist _
  | true =>
    rw [hkeep] at hstill
    cases hgood : good p with
    | false => simp [hgood]
    | true =>
      have hfile' := hstill p (List.mem_singleton_self p) hgood l
        (lead_of_locate_false hlocate (by simp)).1
      obtain ⟨e', hlocate', hfile⟩ := h.exists_locate hlocate
        (hfile'.trans (hasFile_of_find? (find?_of_locate hlocate).2).symm)
      cases e' <;> cases hfile
      rw [walk_of_locate_file hlocate', hkeep]
      exact List.filter_sublist

theorem KeepsWays.sublist_walk_of_link {target : String} (h : s.KeepsWays s') (hs : s.WellFormed)
    (hdistinct : s.locations.Nodup) (hlocate : s.locate false p = .ok (l, .link target))
    (hstill : ∀ q ∈ s.walk keep p, good q = true → ∀ x, s.lead true q = .ok (.existing x) →
      s'.HasFile x) : ((s.walk keep p).filter good).Sublist (s'.walk keep p) := by
  obtain ⟨e', hlocate', hlink⟩ := h.exists_locate_of_ne_file hlocate (by simp [Entry.kind])
  cases e' <;> cases hlink
  cases hthrough : s.locate true p with
  | error =>
    simp only [walk, hlocate, hthrough]
    exact List.nil_sublist _
  | ok found =>
    obtain ⟨l', e'⟩ := found
    cases e' with
    | folder time =>
      obtain ⟨e'', hthrough', hfolder⟩ :=
        h.exists_locate_of_ne_file hthrough (by simp [Entry.kind])
      cases e'' <;> cases hfolder
      simp only [walk, hlocate, hthrough, hlocate', hthrough'] at hstill ⊢
      exact h.sublist_filesAt hs hdistinct (fun _ _ _ ↦ (find?_of_locate hthrough).1) hstill
    | file =>
      simp only [walk, hlocate, hthrough]
      exact List.nil_sublist _
    | link =>
      simp only [walk, hlocate, hthrough]
      exact List.nil_sublist _

/-- What a walk lists and is good is still listed, in the same order, if it is still there. -/
theorem KeepsWays.sublist_walk (h : s.KeepsWays s') (hs : s.WellFormed)
    (hdistinct : s.locations.Nodup)
    (hstill : ∀ q ∈ s.walk keep p, good q = true → ∀ x, s.lead true q = .ok (.existing x) →
      s'.HasFile x) : ((s.walk keep p).filter good).Sublist (s'.walk keep p) := by
  cases hlocate : s.locate false p with
  | error e =>
    rw [walk, hlocate]
    exact List.nil_sublist _
  | ok found =>
    obtain ⟨l, e⟩ := found
    cases e with
    | link target => exact h.sublist_walk_of_link hs hdistinct hlocate hstill
    | folder time =>
      obtain ⟨e', hlocate', hfolder⟩ := h.exists_locate_of_ne_file hlocate (by simp [Entry.kind])
      cases e' <;> cases hfolder
      simp only [walk, hlocate, hlocate'] at hstill ⊢
      exact h.sublist_filesAt hs hdistinct
        (fun _ _ _ ↦ (lead_of_locate_false hlocate (by simp)).1) hstill
    | file content executable time => exact h.sublist_walk_of_file hlocate hstill

/-- Where a path leads to nothing, nothing is listed. -/
theorem walk_of_not_pathExists (h : s.pathExists p = false) : s.walk keep p = [] := by
  have hnot {l : Location} {e : Entry} : s.locate true p ≠ .ok (l, e) := by
    intro hlocate
    rw [pathExists, stat, hlocate] at h
    cases h
  rw [walk]
  split
  · split
    next hlocate => exact absurd hlocate hnot
    next => rfl
  next l e hlink hlocate =>
    have hresolve := resolve_of_locate_false hlocate fun target ↦ by
      rintro rfl
      exact hlink target rfl
    refine absurd ?_ (hnot (l := l) (e := e))
    rw [locate, hresolve]
    show s.arrive (.existing l) = _
    rw [arrive, (find?_of_locate hlocate).2]
  next => rfl

end Rebuild.FileStore
