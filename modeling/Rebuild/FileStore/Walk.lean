import Rebuild.Counting
import Rebuild.FileStore.Resolve

/-!
# Walking through folders

`walk` lists the regular files at and below a path: a folder's files come in the order of their
names, and what is below a name comes before the next name. Links below the start are not
followed. What a test refuses is left out together with everything below it, and so is what is in
a folder with a path that is too long.
-/

namespace Rebuild.FileStore

/-- How many entries lie below a location. -/
def countBelow (s : FileStore) (l : Location) : Nat :=
  s.locations.countP (·.isBelow l)

theorem mem_insertName {name name' : String} {names : List String} :
    name' ∈ insertName name names ↔ name' = name ∨ name' ∈ names := by
  induction names with
  | nil => simp [insertName]
  | cons first rest ih =>
    simp only [insertName]
    split
    · simp
    · simp only [List.mem_cons, ih, or_left_comm]

theorem mem_foldr_insertName {name : String} {names : List String} :
    name ∈ names.foldr insertName [] ↔ name ∈ names := by
  induction names with
  | nil => simp
  | cons first rest ih => simp [mem_insertName, ih]

theorem child_mem_of_mem_childNames {s : FileStore} {l : Location} {name : String}
    (h : name ∈ s.childNames l) : l.child name ∈ s.locations := by
  simp only [childNames, mem_foldr_insertName, List.mem_filterMap] at h
  obtain ⟨l', hl', h⟩ := h
  split at h
  · rename_i hparent
    subst hparent
    obtain ⟨around, haround⟩ := List.getLast?_eq_some_iff.1 h
    have : l'.parent.child name = l' := by
      cases l'
      simp_all [Location.child, Location.parent]
    rwa [this]
  · simp at h

theorem countBelow_child_lt {s : FileStore} {l : Location} {name : String}
    (h : name ∈ s.childNames l) : s.countBelow (l.child name) < s.countBelow l := by
  refine countP_lt_countP (child_mem_of_mem_childNames h) ?_ ?_ ?_
  · intro x hx
    simp only [Location.isBelow, Location.child, Bool.and_eq_true, List.isPrefixOf_iff_prefix,
      decide_eq_true_eq, List.length_append, List.length_singleton] at hx ⊢
    exact ⟨(List.prefix_append _ _).trans hx.1, by omega⟩
  · simp [Location.isBelow, Location.child]
  · simp [Location.isBelow]

/-- The regular files at and below a location that is spelled by a path. -/
def filesAt (s : FileStore) (keep : Path → Bool) (p : Path) (l : Location) : List Path :=
  if keep p then
    match s.find? l with
    | some (.file ..) => [p]
    | some (.folder _) =>
      if tooLong p then []
      else
        (s.childNames l).attach.flatMap fun ⟨name, _⟩ ↦
          s.filesAt keep (p.joinName name) (l.child name)
    | _ => []
  else []
termination_by s.countBelow l
decreasing_by exact countBelow_child_lt ‹_›

/-- The regular files at and below a path. A link at the path itself is followed if it leads to a
folder. -/
def walk (s : FileStore) (keep : Path → Bool) (p : Path) : List Path :=
  match s.locate false p with
  | .ok (_, .link _) =>
    match s.locate true p with
    | .ok (l, .folder _) => s.filesAt keep p l
    | _ => []
  | .ok (l, _) => s.filesAt keep p l
  | .error _ => []

end Rebuild.FileStore
