import Mathlib.Algebra.GroupWithZero.Nat
import Mathlib.Data.List.Nodup
import Rebuild.Include.Tree
import Rebuild.Proofs.Include.Asking

/-!
# Outlines of a graph

The include tree that is shown of a file is an *outline*: entries in order, each with what is shown below
it. `Grows` says how the outline comes about, entry by entry, without the bound that makes `treeLines` end:
a location that has been shown gets a mark and nothing below it, another one is expanded, and what has been
expanded before counts as shown for everything behind it. Every list of locations grows into an outline
(`exists_grows`), however the graph is made.

That no edge is lost although a location is expanded only once rests on one fact (`Grows.closed`): whatever
a location includes that has been expanded is expanded as well, or had been shown before. So from a file
that counts as shown exactly what it leads to is expanded (`Grows.leads_iff`).
-/

namespace Rebuild.Include.Graph

variable {g g' : Graph} {l m : Location} {seen found : List Location}

/-- Entries in order, each with what is shown below it. -/
inductive Outline where
  /-- There is no entry. -/
  | nil
  /-- An entry, whether it is marked as shown before, what is below it, and the entries that follow it below
  the same file. -/
  | entry (location : Location) (marked : Bool) (below rest : Outline)

namespace Outline

/-- The locations at the outermost level. -/
def heads : Outline → List Location
  | nil => []
  | entry l _ _ rest => l :: rest.heads

/-- All entries with their marks, from top to bottom. -/
def entries : Outline → List (Location × Bool)
  | nil => []
  | entry l marked below rest => (l, marked) :: (below.entries ++ rest.entries)

/-- The locations without a mark, from top to bottom. -/
def expanded : Outline → List Location
  | nil => []
  | entry l marked below rest => (if marked then [] else [l]) ++ (below.expanded ++ rest.expanded)

/-- Below a marked entry there is nothing, and below every other one exactly what its location includes, in
order. -/
def Shows (g : Graph) : Outline → Prop
  | nil => True
  | entry l marked below rest =>
    (if marked then below = nil else below.heads = (g.includes? l).getD []) ∧ below.Shows g ∧ rest.Shows g

@[simp] theorem expanded_marked (below rest : Outline) :
    (entry l true below rest).expanded = below.expanded ++ rest.expanded :=
  rfl

@[simp] theorem expanded_unmarked (below rest : Outline) :
    (entry l false below rest).expanded = l :: (below.expanded ++ rest.expanded) :=
  rfl

/-- The unmarked entries of an outline are those that are expanded. -/
theorem mem_expanded_iff {outline : Outline} : l ∈ outline.expanded ↔ (l, false) ∈ outline.entries := by
  induction outline with
  | nil => simp [expanded, entries]
  | entry k marked below rest ihbelow ihrest => cases marked <;> simp [expanded, entries, ihbelow, ihrest]

/-- The entries of the outermost level are entries. -/
theorem mem_entries_of_mem_heads {outline : Outline} (hl : l ∈ outline.heads) :
    l ∈ outline.entries.map Prod.fst := by
  induction outline with
  | nil => cases hl
  | entry k marked below rest _ ihrest =>
    rcases List.mem_cons.1 hl with rfl | hl
    · exact List.mem_cons_self
    · refine List.mem_cons_of_mem _ ?_
      rw [List.map_append]
      exact List.mem_append_right _ (ihrest hl)

/-- Two graphs of which one outline shows everything agree on what is expanded. -/
theorem Shows.includes?_eq {outline : Outline} (h : outline.Shows g) (h' : outline.Shows g')
    (hl : l ∈ outline.expanded) : (g.includes? l).getD [] = (g'.includes? l).getD [] := by
  induction outline with
  | nil => cases hl
  | entry k marked below rest ihbelow ihrest =>
    obtain ⟨hhead, hbelow, hrest⟩ := h
    obtain ⟨hhead', hbelow', hrest'⟩ := h'
    rcases List.mem_append.1 hl with hk | hl
    · cases marked with
      | true => cases hk
      | false =>
        obtain rfl := List.mem_singleton.1 hk
        exact Eq.trans (Eq.symm hhead) hhead'
    · exact (List.mem_append.1 hl).elim (ihbelow hbelow hbelow') (ihrest hrest hrest')

end Outline

open Outline (nil entry)

variable {outline : Outline}

/-! ### Growing -/

/-- How the outline of locations comes about when others have been shown. -/
inductive Grows (g : Graph) : List Location → List Location → Outline → Prop
  /-- There is no location. -/
  | nil {seen : List Location} : Grows g seen [] nil
  /-- The first location has been shown. -/
  | known {seen found : List Location} {rest : Outline} {l : Location} (hl : l ∈ seen)
    (hrest : Grows g seen found rest) : Grows g seen (l :: found) (entry l true nil rest)
  /-- The first location is expanded, and then it and all that is expanded below it has been shown. -/
  | fresh {seen found : List Location} {below rest : Outline} {l : Location} (hl : l ∉ seen)
    (hbelow : Grows g (l :: seen) ((g.includes? l).getD []) below)
    (hrest : Grows g (below.expanded ++ l :: seen) found rest) :
    Grows g seen (l :: found) (entry l false below rest)

theorem weightMissing_append_le (weight : Location → Nat) (others seen all : List Location) :
    weightMissing weight (others ++ seen) all ≤ weightMissing weight seen all := by
  induction others with
  | nil => exact Nat.le_refl _
  | cons l others ih => exact Nat.le_trans (weightMissing_cons_le weight (others ++ seen) all l) ih

/-- Expanding a location leaves less to expand than there was. -/
theorem weightMissing_expand_lt (hl : l ∉ seen) :
    weightMissing g.degree (l :: seen) g.locations + ((g.includes? l).getD []).length ≤
      weightMissing g.degree seen g.locations := by
  cases hfound : g.includes? l with
  | none => exact weightMissing_cons_le g.degree seen g.locations l
  | some found =>
    have hlt := weightMissing_cons_lt g.degree (mem_locations_of_includes? hfound)
      (show seen.contains l = false by simpa using hl)
    rw [degree_of_includes? hfound] at hlt
    exact Nat.le_of_lt hlt

/-- Locations grow into an outline, whatever has been shown. -/
theorem exists_grows (g : Graph) (seen found : List Location) : ∃ outline, Grows g seen found outline := by
  obtain ⟨n, hn⟩ : ∃ n, weightMissing g.degree seen g.locations + found.length ≤ n := ⟨_, Nat.le_refl _⟩
  induction n generalizing seen found with
  | zero =>
    obtain rfl : found = [] := List.length_eq_zero_iff.1 (by omega)
    exact ⟨nil, .nil⟩
  | succ n ih =>
    cases found with
    | nil => exact ⟨nil, .nil⟩
    | cons l found =>
      rw [List.length_cons] at hn
      by_cases hl : l ∈ seen
      · obtain ⟨rest, hrest⟩ := ih seen found (by omega)
        exact ⟨_, .known hl hrest⟩
      · have hexpand := weightMissing_expand_lt (g := g) hl
        obtain ⟨below, hbelow⟩ := ih (l :: seen) ((g.includes? l).getD []) (by omega)
        have hshown := weightMissing_append_le g.degree below.expanded (l :: seen) g.locations
        have hfirst := weightMissing_cons_le g.degree seen g.locations l
        obtain ⟨rest, hrest⟩ := ih (below.expanded ++ l :: seen) found (by omega)
        exact ⟨_, .fresh hl hbelow hrest⟩

namespace Grows

theorem heads_eq (h : Grows g seen found outline) : outline.heads = found := by
  induction h with
  | nil => rfl
  | known _ _ ih => exact congrArg _ ih
  | fresh _ _ _ _ ih => exact congrArg _ ih

theorem shows (h : Grows g seen found outline) : outline.Shows g := by
  induction h with
  | nil => trivial
  | known _ _ ih => exact ⟨rfl, trivial, ih⟩
  | fresh _ hbelow _ ihbelow ihrest => exact ⟨hbelow.heads_eq, ihbelow, ihrest⟩

/-- Every location of the outline has been shown before it, or is expanded in it. -/
theorem mem_of_mem_entries (h : Grows g seen found outline) (hl : l ∈ outline.entries.map Prod.fst) :
    l ∈ outline.expanded ∨ l ∈ seen := by
  induction h with
  | nil => cases hl
  | known hk _ ih =>
    rcases List.mem_cons.1 hl with rfl | hl
    · exact Or.inr hk
    · exact ih hl
  | @fresh seen _ below rest k _ _ _ ihbelow ihrest =>
    rw [Outline.entries, List.map_cons, List.map_append, List.mem_cons, List.mem_append] at hl
    rw [Outline.expanded_unmarked, List.mem_cons, List.mem_append]
    rcases hl with rfl | hl | hl
    · exact Or.inl (Or.inl rfl)
    · have hbelow := ihbelow hl
      rw [List.mem_cons] at hbelow
      tauto
    · have hrest := ihrest hl
      rw [List.mem_append, List.mem_cons] at hrest
      tauto

/-- No location is expanded twice, and none that has been shown. -/
theorem nodup (h : Grows g seen found outline) :
    outline.expanded.Nodup ∧ ∀ l ∈ outline.expanded, l ∉ seen := by
  induction h with
  | nil => exact ⟨List.nodup_nil, fun _ h ↦ absurd h List.not_mem_nil⟩
  | known _ _ ih => exact ih
  | @fresh seen _ below rest l hl _ _ ihbelow ihrest =>
    obtain ⟨hnodup, hnew⟩ := ihbelow
    obtain ⟨hnodup', hnew'⟩ := ihrest
    simp only [List.mem_append, List.mem_cons, not_or] at hnew hnew'
    rw [Outline.expanded_unmarked]
    refine ⟨?_, fun m hm ↦ ?_⟩
    · refine List.nodup_cons.2 ⟨fun hmem ↦ ?_, hnodup.append hnodup' fun m hm hm' ↦ (hnew' m hm').1 hm⟩
      rcases List.mem_append.1 hmem with hmem | hmem
      · exact (hnew l hmem).1 rfl
      · exact (hnew' l hmem).2.1 rfl
    · rcases List.mem_cons.1 hm with rfl | hm
      · exact hl
      · exact (List.mem_append.1 hm).elim (fun hm ↦ (hnew m hm).2) fun hm ↦ (hnew' m hm).2.2

/-- What an expanded location includes is expanded as well, or had been shown. -/
theorem closed (h : Grows g seen found outline) (hl : l ∈ outline.expanded)
    (hm : m ∈ (g.includes? l).getD []) : m ∈ outline.expanded ∨ m ∈ seen := by
  induction h with
  | nil => cases hl
  | known _ _ ih => exact ih hl
  | @fresh seen _ below rest k _ hbelow _ ihbelow ihrest =>
    have hmet (hor : m ∈ below.expanded ∨ m ∈ k :: seen) :
        m ∈ (entry k false below rest).expanded ∨ m ∈ seen := by
      rw [Outline.expanded_unmarked, List.mem_cons, List.mem_append]
      rw [List.mem_cons] at hor
      tauto
    rw [Outline.expanded_unmarked, List.mem_cons, List.mem_append] at hl
    rcases hl with rfl | hl | hl
    · -- all that the location includes stands directly below it
      rw [← hbelow.heads_eq] at hm
      exact hmet (hbelow.mem_of_mem_entries (Outline.mem_entries_of_mem_heads hm))
    · exact hmet (ihbelow hl)
    · rcases ihrest hl with hrest | hshown
      · exact Or.inl (Outline.expanded_unmarked below rest ▸ List.mem_cons_of_mem _ (List.mem_append_right _ hrest))
      · exact hmet (List.mem_append.1 hshown)

/-- Something at the outermost level leads to every location of the outline. -/
theorem exists_leads (h : Grows g seen found outline) (hl : l ∈ outline.expanded) :
    ∃ k ∈ found, g.Leads k l := by
  induction h with
  | nil => cases hl
  | known _ _ ih =>
    obtain ⟨k, hk, hleads⟩ := ih hl
    exact ⟨k, List.mem_cons_of_mem _ hk, hleads⟩
  | @fresh _ _ _ _ top _ _ _ ihbelow ihrest =>
    rw [Outline.expanded_unmarked, List.mem_cons, List.mem_append] at hl
    rcases hl with rfl | hl | hl
    · exact ⟨l, List.mem_cons_self, .refl⟩
    · obtain ⟨k, hk, hleads⟩ := ihbelow hl
      exact ⟨top, List.mem_cons_self, .head (mem_includes_iff.1 hk) hleads⟩
    · obtain ⟨k, hk, hleads⟩ := ihrest hl
      exact ⟨k, List.mem_cons_of_mem _ hk, hleads⟩

/-- From a file exactly what it leads to is expanded. -/
theorem leads_iff (h : Grows g [l] ((g.includes? l).getD []) outline) :
    g.Leads l m ↔ m ∈ l :: outline.expanded := by
  constructor
  · intro hleads
    induction hleads with
    | refl => exact List.mem_cons_self
    | @tail k m _ hnext ih =>
      rw [← mem_includes_iff] at hnext
      have hmet : m ∈ outline.expanded ∨ m ∈ [l] := by
        rcases List.mem_cons.1 ih with rfl | hk
        · refine h.mem_of_mem_entries ?_
          rw [← h.heads_eq] at hnext
          exact Outline.mem_entries_of_mem_heads hnext
        · exact h.closed hk hnext
      exact hmet.elim (List.mem_cons_of_mem _) fun hm ↦ List.mem_singleton.1 hm ▸ List.mem_cons_self
  · intro hm
    rcases List.mem_cons.1 hm with rfl | hm
    · exact .refl
    · obtain ⟨k, hk, hleads⟩ := h.exists_leads hm
      exact .head (mem_includes_iff.1 hk) hleads

/-- Each entry is one of the outermost level, or stands below an expanded one. -/
theorem length_entries (h : Grows g seen found outline) :
    outline.entries.length = found.length + (outline.expanded.map g.degree).sum := by
  induction h with
  | nil => rfl
  | known _ _ ih =>
    rw [Outline.entries, Outline.expanded_marked, Outline.entries, Outline.expanded, List.nil_append,
      List.nil_append, List.length_cons, List.length_cons, ih]
    omega
  | fresh _ _ _ ihbelow ihrest =>
    simp only [Outline.entries, Outline.expanded_unmarked, List.length_cons, List.length_append, List.map_append,
      List.sum_append, List.map_cons, List.sum_cons, ihbelow, ihrest, degree]
    omega

end Grows

/-! ### Marks -/

/-- Each entry is marked if and only if its location is among those shown before. -/
def Marked : List Location → List (Location × Bool) → Prop
  | _, [] => True
  | seen, (l, marked) :: rest => (marked = true ↔ l ∈ seen) ∧ Marked (l :: seen) rest

variable {shown others : List (Location × Bool)} {seen' : List Location} {marked : Bool}

theorem Marked.congr (h : Marked seen shown) (hseen : ∀ l, l ∈ seen' ↔ l ∈ seen) : Marked seen' shown := by
  induction shown generalizing seen seen' with
  | nil => trivial
  | cons first rest ih =>
    refine ⟨h.1.trans (hseen first.1).symm, ih h.2 fun l ↦ ?_⟩
    rw [List.mem_cons, List.mem_cons, hseen]

theorem Marked.append (h : Marked seen shown) (h' : Marked (shown.map Prod.fst ++ seen) others) :
    Marked seen (shown ++ others) := by
  induction shown generalizing seen with
  | nil => exact h'
  | cons first rest ih =>
    refine ⟨h.1, ih h.2 (h'.congr fun l ↦ ?_)⟩
    simp only [List.map_cons, List.mem_append, List.mem_cons]
    tauto

/-- Where entries are marked in this way, an entry is marked if and only if its location has been shown or
stands further up. -/
theorem Marked.iff_mem (h : Marked seen shown) {before after : List (Location × Bool)}
    (hshown : shown = before ++ (l, marked) :: after) :
    marked = true ↔ l ∈ seen ∨ l ∈ before.map Prod.fst := by
  subst hshown
  induction before generalizing seen with
  | nil => simpa using h.1
  | cons first before ih =>
    rw [ih h.2, List.map_cons, List.mem_cons, List.mem_cons]
    tauto

theorem Grows.marked_entries (h : Grows g seen found outline) : Marked seen outline.entries := by
  induction h with
  | nil => trivial
  | @known seen _ rest l hl _ ih =>
    refine ⟨iff_of_true rfl hl, ih.congr fun k ↦ ?_⟩
    refine ⟨fun hk ↦ ?_, List.mem_cons_of_mem _⟩
    exact (List.mem_cons.1 hk).elim (fun heq ↦ heq ▸ hl) id
  | @fresh seen _ below rest l hl hbelow _ ihbelow ihrest =>
    refine ⟨iff_of_false Bool.false_ne_true hl, ihbelow.append (ihrest.congr fun k ↦ ?_)⟩
    rw [List.mem_append, List.mem_append]
    refine ⟨fun hk ↦ hk.elim hbelow.mem_of_mem_entries Or.inr, fun hk ↦ hk.imp_left fun hk ↦ ?_⟩
    exact List.mem_map.2 ⟨(k, false), Outline.mem_expanded_iff.1 hk, rfl⟩

end Rebuild.Include.Graph
