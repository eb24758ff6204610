import Rebuild.Proofs.FileStore.Place

/-!
# Files that are made

A command that makes a file leaves the file at its place, and may leave the folder around it changed.
Everything else is as it was.
-/

namespace Rebuild

/-- A file that a command makes. -/
structure Product where
  /-- Its bytes. -/
  content : ByteArray
  /-- Whether it may be run. -/
  executable : Bool := false
  /-- The time of its last change. -/
  modified : Time

/-- The file in a store. -/
def Product.entry (product : Product) : Entry :=
  .file product.content product.executable product.modified

namespace FileStore

variable {s s' : FileStore} {l x : Location} {product : Option Product}

/-- What is at a location after a file has been made there. Where a folder is, none can be made. -/
def foundAfter (s : FileStore) (l : Location) (product : Option Product) : Option Entry :=
  if (s.find? l).any Entry.isFolder then s.find? l
  else (product.map Product.entry).or (s.find? l)

/-- The store `s'` is `s` with at most a file made at `l`. The folder that it is in may count as
changed. -/
structure Leaves (s : FileStore) (l : Location) (product : Option Product) (s' : FileStore) :
    Prop where
  /-- Relative paths begin in the same folder. -/
  current : s'.current = s.current
  /-- The folder of the file is there. -/
  folder : s'.HasFolder l.parent
  /-- The file is there. -/
  found : s'.find? l = s.foundAfter l product
  /-- Everything else is as it was. -/
  kept : ∀ x, x ≠ l → x ≠ l.parent → s'.find? x = s.find? x

/-- Makes a file, if there is one to be made and no folder is in its place. -/
def leave (s : FileStore) (l : Location) (product : Option Product) : FileStore :=
  match s.foundAfter l product with
  | some e => s.put l e
  | none => s

/-- What there is where a file is made keeps its kind. -/
theorem kind?_foundAfter {kind : Entry.Kind} (hlink : ∀ target, s.find? l ≠ some (.link target))
    (h : s.kind? l = some kind) : (s.foundAfter l product).map Entry.kind = some kind := by
  rw [foundAfter]
  split
  · exact h
  · rename_i hfolder
    rcases product with - | product
    · exact h
    · rw [kind?] at h
      rcases hfind : s.find? l with - | ⟨content, executable, time⟩ | time | target
      · rw [hfind] at h
        cases h
      · rw [hfind] at h
        exact h
      · rw [hfind] at hfolder
        exact absurd rfl hfolder
      · exact absurd hfind (hlink target)

/-- No link comes where a file is made. -/
theorem foundAfter_ne_link (hlink : ∀ target, s.find? l ≠ some (.link target)) (target : String) :
    s.foundAfter l product ≠ some (.link target) := by
  rw [foundAfter]
  split
  · exact hlink target
  · rcases product with - | product
    · exact hlink target
    · rintro h
      cases h

theorem foundAfter_congr (h : s.find? l = s'.find? l) (product : Option Product) :
    s.foundAfter l product = s'.foundAfter l product := by
  rw [foundAfter, foundAfter, h]

theorem leaves_leave (hfolder : s.HasFolder l.parent) (hne : l.parent ≠ l) :
    s.Leaves l product (s.leave l product) := by
  have hnone (h : s.foundAfter l product = none) : s.find? l = none := by
    rw [foundAfter] at h
    split at h
    · exact h
    · exact (Option.or_eq_none_iff.1 h).2
  rw [leave]
  cases hfound : s.foundAfter l product with
  | none => exact ⟨rfl, hfolder, (hnone hfound).trans hfound.symm, fun _ _ _ ↦ rfl⟩
  | some e =>
    refine ⟨rfl, ?_, ?_, fun x hx _ ↦ ?_⟩
    · rwa [HasFolder, find?_put, if_neg hne]
    · rw [find?_put, if_pos rfl, hfound]
    · rw [find?_put, if_neg hx]

/-- Folders are folders still. -/
theorem Leaves.hasFolder (h : s.Leaves l product s') (hx : s.HasFolder x) : s'.HasFolder x := by
  by_cases hl : x = l
  · subst hl
    rw [HasFolder, h.found, foundAfter, if_pos (hasFolder_iff.1 hx)]
    exact hx
  by_cases hparent : x = l.parent
  · exact hparent ▸ h.folder
  · rwa [HasFolder, h.kept x hl hparent]

/-- What there was is there, and is of the same kind. -/
theorem Leaves.keeps (h : s.Leaves l product s') (hfolder : s.HasFolder l.parent)
    (hlink : ∀ target, s.find? l ≠ some (.link target)) : s.Keeps s' := by
  refine ⟨h.current, fun x kind hkind ↦ ?_⟩
  by_cases hl : x = l
  · subst hl
    rw [kind?, h.found]
    exact kind?_foundAfter hlink hkind
  by_cases hparent : x = l.parent
  · subst hparent
    rw [hasFolder_iff_kind?.1 hfolder] at hkind
    rw [← hkind]
    exact hasFolder_iff_kind?.1 h.folder
  · rwa [kind?, h.kept x hl hparent]

theorem Leaves.no_link (h : s.Leaves l product s')
    (hlink : ∀ target, s.find? l ≠ some (.link target)) {target : String}
    (hx : s'.find? x = some (.link target)) : s.find? x = some (.link target) := by
  by_cases hl : x = l
  · subst hl
    rw [h.found] at hx
    exact absurd hx (foundAfter_ne_link hlink target)
  by_cases hparent : x = l.parent
  · subst hparent
    obtain ⟨time, hfolder⟩ := h.folder
    rw [hfolder] at hx
    cases hx
  · rwa [h.kept x hl hparent] at hx

theorem Leaves.wellFormed (h : s.Leaves l product s') (hs : s.WellFormed)
    (hfolder : s.HasFolder l.parent) (hnames : ∀ name ∈ l.names, EntryName name) :
    s'.WellFormed := by
  constructor
  case root => exact h.hasFolder hs.root
  case current => exact h.current ▸ h.hasFolder hs.current
  case parent =>
    intro x hx
    by_cases hl : x = l
    · exact hl ▸ h.folder
    by_cases hparent : x = l.parent
    · exact h.hasFolder (hs.parent x (hparent ▸ hfolder.isSome))
    · rw [h.kept x hl hparent] at hx
      exact h.hasFolder (hs.parent x hx)
  case names =>
    intro x hx
    by_cases hl : x = l
    · exact hl ▸ hnames
    by_cases hparent : x = l.parent
    · exact hs.names x (hparent ▸ hfolder.isSome)
    · rw [h.kept x hl hparent] at hx
      exact hs.names x hx

/-- Writing a file at a place leaves the file there. -/
theorem Placed.leaves_of_writeBytes {p : Path} {content : ByteArray} {executable : Bool}
    (h : s.Placed p l) (hs : s.WellFormed) (hwrite : s.writeBytes p content executable = .ok s') :
    s.HasFolder l.parent ∧ ∃ product, s.Leaves l (some product) s' := by
  obtain ⟨segments, base, names, name, hway, rfl⟩ := h.exists_way
  rw [Location.parent_child]
  by_cases hfolder : s.HasFolder (base.descend names)
  · refine ⟨hfolder, ?_⟩
    rw [writeBytes, hway.resolve_of_hasFolder hs hfolder] at hwrite
    have hchild := Location.child_not_mem_around (base.descend names) name
    have hne : base.descend names ≠ (base.descend names).child name := fun heq ↦
      hchild (heq ▸ Location.self_mem_around _)
    cases hfind : s.find? ((base.descend names).child name) with
    | none =>
      rw [hfind] at hwrite
      obtain rfl := Except.ok.inj hwrite
      refine ⟨{ content, executable, modified := s.clock }, current_add, ?_, ?_, ?_⟩
      · rw [Location.parent_child]
        exact hfolder.add hne
      · rw [find?_add_self, foundAfter, hfind]
        rfl
      · rw [Location.parent_child]
        exact fun x hx hparent ↦ find?_add_of_ne hx hparent
    | some e =>
      rw [hfind] at hwrite
      simp only [Option.isSome_some, if_true, hfind] at hwrite
      cases e with
      | file content' present time =>
        obtain rfl := Except.ok.inj hwrite
        refine ⟨{ content, executable := present, modified := s.clock }, rfl, ?_, ?_, ?_⟩
        · rw [Location.parent_child, HasFolder, find?_tick, find?_put, if_neg hne]
          exact hfolder
        · rw [find?_tick, find?_put, if_pos rfl, foundAfter, hfind]
          rfl
        · intro x hx _
          rw [find?_tick, find?_put, if_neg hx]
      | folder time => cases hwrite
      | link target => cases hwrite
  · rw [writeBytes, hway.resolve_of_not_hasFolder hs hfolder] at hwrite
    cases hwrite

end FileStore

end Rebuild
