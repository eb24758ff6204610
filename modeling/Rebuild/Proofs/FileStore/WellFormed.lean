import Mathlib.Data.List.Induction
import Rebuild.FileStore.Operations
import Rebuild.Proofs.Path.Body

/-!
# Well-formed stores

A store is well-formed when everything in it is in a folder and has a name that a path can spell.
Every store that operations on files can make is; the operations do not rely on it. Whether a store
is well-formed can be decided, by looking at its entries.
-/

namespace Rebuild

namespace Location

@[simp]
theorem names_child (l : Location) (name : String) : (l.child name).names = l.names ++ [name] :=
  rfl

@[simp]
theorem parent_child (l : Location) (name : String) : (l.child name).parent = l := by
  simp [parent, child]

/-- The place that names lead to from a place. -/
def descend (l : Location) (names : List String) : Location :=
  ⟨l.names ++ names⟩

@[simp]
theorem descend_nil (l : Location) : l.descend [] = l := by
  simp [descend]

@[simp]
theorem descend_cons (l : Location) (name : String) (names : List String) :
    l.descend (name :: names) = (l.child name).descend names := by
  simp [descend, child]

theorem descend_append (l : Location) (names others : List String) :
    l.descend (names ++ others) = (l.descend names).descend others := by
  simp [descend]

theorem root_descend (l : Location) : root.descend l.names = l := by
  simp [descend, root]

end Location

namespace FileStore

variable {s : FileStore} {l : Location}

/-- Whether there is a folder at a location. -/
def HasFolder (s : FileStore) (l : Location) : Prop :=
  ∃ time, s.find? l = some (.folder time)

/-- Whether a text can be the name of an entry. -/
structure EntryName (name : String) : Prop extends Path.OrdinaryName name where
  /-- It is not too long. -/
  short : Text.byteLength name.toList ≤ maxNameLength

/-- Everything is in a folder and has a name. -/
structure WellFormed (s : FileStore) : Prop where
  /-- There is a root. -/
  root : s.HasFolder .root
  /-- Relative paths begin in a folder. -/
  current : s.HasFolder s.current
  /-- What there is, is in a folder. -/
  parent : ∀ l, (s.find? l).isSome → s.HasFolder l.parent
  /-- What there is has a name. -/
  names : ∀ l, (s.find? l).isSome → ∀ name ∈ l.names, EntryName name

theorem HasFolder.isSome (h : s.HasFolder l) : (s.find? l).isSome := by
  obtain ⟨time, h⟩ := h
  exact Option.isSome_of_eq_some h

/-- Every place on the way to something is a folder. -/
theorem WellFormed.hasFolder_of_descend (hs : s.WellFormed) {names : List String} {name : String}
    (h : (s.find? ((l.descend names).child name)).isSome) : s.HasFolder (l.descend names) := by
  simpa using hs.parent _ h

theorem WellFormed.isSome_descend (hs : s.WellFormed) {names others : List String}
    (h : (s.find? (l.descend (names ++ others))).isSome) : (s.find? (l.descend names)).isSome := by
  induction others using List.reverseRecOn with
  | nil => simpa using h
  | append_singleton others name ih =>
    refine ih ?_
    rw [← List.append_assoc, Location.descend_append, Location.descend_cons,
      Location.descend_nil] at h
    exact (hs.hasFolder_of_descend h).isSome

theorem WellFormed.hasFolder_root_descend (hs : s.WellFormed) {names : List String}
    {name : String} {others : List String} (h : l.names = names ++ name :: others)
    (hl : (s.find? l).isSome) : s.HasFolder (Location.root.descend names) := by
  refine hs.hasFolder_of_descend (?_ : (s.find? ((Location.root.descend names).child name)).isSome)
  have hsplit : l.names = (names ++ [name]) ++ others := by rw [h, List.append_assoc]; rfl
  rw [← Location.root_descend l, hsplit] at hl
  have := hs.isSome_descend hl
  rwa [Location.descend_append, Location.descend_cons, Location.descend_nil] at this

/-! ### Deciding -/

theorem find?_isSome_iff : (s.find? l).isSome ↔ l ∈ s.locations := by
  rw [find?, locations, List.mem_map]
  constructor
  · intro h
    obtain ⟨e, he⟩ := Option.isSome_iff_exists.1 h
    obtain ⟨before, after, heq, -⟩ := List.lookup_eq_some_iff.1 he
    exact ⟨(l, e), by rw [heq]; simp, rfl⟩
  · rintro ⟨⟨l', e⟩, hmem, rfl⟩
    rw [Option.isSome_iff_ne_none]
    intro hnone
    have := List.lookup_eq_none_iff.1 hnone _ hmem
    simp at this

theorem hasFolder_iff : s.HasFolder l ↔ (s.find? l).any Entry.isFolder = true := by
  rw [HasFolder]
  rcases s.find? l with - | e
  · simp
  · cases e <;> simp [Entry.isFolder]

instance : Decidable (s.HasFolder l) :=
  decidable_of_iff _ hasFolder_iff.symm

instance (name : String) : Decidable (EntryName name) :=
  decidable_of_iff
    (name ≠ "" ∧ name ≠ "." ∧ name ≠ ".." ∧ '/' ∉ name.toList ∧ '\x00' ∉ name.toList ∧
      Text.byteLength name.toList ≤ maxNameLength)
    ⟨fun ⟨h1, h2, h3, h4, h5, h6⟩ ↦ ⟨⟨h1, h2, h3, h4, h5⟩, h6⟩,
      fun h ↦ ⟨h.ne_empty, h.ne_dot, h.ne_dots, h.no_slash, h.no_nul, h.short⟩⟩

instance : Decidable s.WellFormed :=
  decidable_of_iff
    (s.HasFolder .root ∧ s.HasFolder s.current ∧
      ∀ l ∈ s.locations, s.HasFolder l.parent ∧ ∀ name ∈ l.names, EntryName name)
    ⟨fun ⟨hroot, hcurrent, hall⟩ ↦ ⟨hroot, hcurrent,
        fun l hl ↦ (hall l (find?_isSome_iff.1 hl)).1,
        fun l hl ↦ (hall l (find?_isSome_iff.1 hl)).2⟩,
      fun h ↦ ⟨h.root, h.current, fun l hl ↦
        ⟨h.parent l (find?_isSome_iff.2 hl), h.names l (find?_isSome_iff.2 hl)⟩⟩⟩

end FileStore

end Rebuild
