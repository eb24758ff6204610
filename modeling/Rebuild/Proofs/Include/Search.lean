import Rebuild.Proofs.Include.Asking

/-!
# Searching the include graph

Two searches run over what files include, one that scans files into the graph and one that asks the
graph. Both keep what is pending and pass over what they have met. Here the first is shown to end
with a graph that holds a file together with everything it includes, at any depth. In such a graph
the second (`Rebuild.Proofs.Include.Asking`) finds a file exactly if there is one to be found. Neither
needs to know how names are looked up.

The invariant of both is the same: what has been met leads only to what has been met or is pending.
When nothing is pending, what has been met is closed.
-/

namespace Rebuild.Include.Graph

variable {s : FileStore} {folders : List Path} {g : Graph} {pending : List Location}

/-- One location includes the other. -/
def Includes (s : FileStore) (folders : List Path) (l m : Location) : Prop :=
  m ∈ scan s folders l

/-- What is in the graph is what scanning finds, and of files that are there. -/
structure Sound (s : FileStore) (folders : List Path) (g : Graph) : Prop where
  /-- Nodes are what scanning finds. -/
  scanned : ∀ l found, (l, found) ∈ g.nodes → found = scan s folders l
  /-- Nodes are in the store. -/
  present : ∀ l ∈ g.locations, l ∈ s.locations

/-- What is included by a file of the graph is in the graph, or is pending. -/
def ClosedUpTo (s : FileStore) (folders : List Path) (g : Graph) (pending : List Location) : Prop :=
  ∀ l ∈ g.locations, ∀ m, Includes s folders l m → m ∈ g.locations ∨ m ∈ pending

/-- What is included by a file of the graph is in the graph. -/
def Closed (s : FileStore) (folders : List Path) (g : Graph) : Prop :=
  ∀ l ∈ g.locations, ∀ m, Includes s folders l m → m ∈ g.locations

theorem Sound.includes?_eq (h : Sound s folders g) {l : Location} (hl : l ∈ g.locations) :
    g.includes? l = some (scan s folders l) := by
  cases hfound : g.includes? l with
  | none =>
    obtain ⟨⟨l', found⟩, hmem, rfl⟩ := List.mem_map.1 hl
    have := List.lookup_eq_none_iff.1 hfound _ hmem
    simp at this
  | some found =>
    obtain ⟨before, after, heq, -⟩ := List.lookup_eq_some_iff.1 hfound
    rw [h.scanned l found (by rw [heq]; simp)]

/-! ### Scanning -/

theorem mem_locations_of_canonical? {p : Path} {l : Location} (h : s.canonical? p = some l) :
    l ∈ s.locations := by
  obtain ⟨e, he⟩ := Option.isSome_iff_exists.1 (FileStore.find?_isSome_of_canonical? h)
  obtain ⟨before, after, heq, -⟩ := List.lookup_eq_some_iff.1 he
  exact List.mem_map.2 ⟨(l, e), by rw [heq]; simp, rfl⟩

theorem mem_locations_of_includes {l m : Location} (h : Includes s folders l m) :
    m ∈ s.locations := by
  rw [Includes, scan] at h
  split at h
  · obtain ⟨name, -, hname⟩ := List.mem_filterMap.1 h
    obtain ⟨p, -, hp⟩ := Option.bind_eq_some_iff.1 hname
    exact mem_locations_of_canonical? hp
  · cases h

theorem mem_locations_of_start? {p : Path} {l : Location} (h : start? s folders p = some l) :
    l ∈ s.locations := by
  obtain ⟨p', -, hp'⟩ := Option.bind_eq_some_iff.1 h
  exact mem_locations_of_canonical? hp'

/-- What the search for included files does for a graph. -/
structure Grown (s : FileStore) (folders : List Path) (g : Graph) (pending : List Location)
    (grown : Graph) : Prop where
  /-- What was in the graph still is. -/
  kept : ∀ l ∈ g.locations, l ∈ grown.locations
  /-- What was pending is in the graph. -/
  added : ∀ l ∈ pending, l ∈ grown.locations
  /-- The graph is sound. -/
  sound : Sound s folders grown
  /-- The graph is closed. -/
  closed : Closed s folders grown

theorem grown_visit (hsound : Sound s folders g) (hpending : ∀ l ∈ pending, l ∈ s.locations)
    (hclosed : ClosedUpTo s folders g pending) :
    Grown s folders g pending (visit s folders g pending) := by
  fun_induction visit s folders g pending with
  | case1 g =>
    refine ⟨fun _ h ↦ h, by simp, hsound, fun l hl m hm ↦ ?_⟩
    exact (hclosed l hl m hm).resolve_right (by simp)
  | case2 g l rest hscan found ih =>
    have hgrown := ih ?_ ?_ ?_
    · refine ⟨fun m hm ↦ hgrown.kept m (List.mem_cons_of_mem _ hm), fun m hm ↦ ?_,
        hgrown.sound, hgrown.closed⟩
      rcases List.mem_cons.1 hm with rfl | hm
      · exact hgrown.kept m List.mem_cons_self
      · exact hgrown.added m (List.mem_append_right _ hm)
    · constructor
      · intro m among hm
        rcases List.mem_cons.1 hm with heq | hm
        · obtain ⟨rfl, rfl⟩ := Prod.mk.inj heq
          rfl
        · exact hsound.scanned m among hm
      · intro m hm
        rcases List.mem_cons.1 hm with rfl | hm
        · exact hscan.1
        · exact hsound.present m hm
    · intro m hm
      rcases List.mem_append.1 hm with hm | hm
      · exact mem_locations_of_includes hm
      · exact hpending m (List.mem_cons_of_mem _ hm)
    · intro k hk m hm
      rcases List.mem_cons.1 hk with rfl | hk
      · exact Or.inr (List.mem_append_left _ hm)
      · rcases hclosed k hk m hm with h | h
        · exact Or.inl (List.mem_cons_of_mem _ h)
        · rcases List.mem_cons.1 h with rfl | h
          · exact Or.inl List.mem_cons_self
          · exact Or.inr (List.mem_append_right _ h)
  | case3 g l rest hscan ih =>
    -- the location is in the store, so that it is passed over because it has been scanned
    have hl : l ∈ g.locations := Decidable.byContradiction fun hnot ↦
      hscan ⟨hpending l List.mem_cons_self, by simpa using hnot⟩
    have hgrown := ih hsound (fun m hm ↦ hpending m (List.mem_cons_of_mem _ hm)) ?_
    · refine ⟨hgrown.kept, fun m hm ↦ ?_, hgrown.sound, hgrown.closed⟩
      rcases List.mem_cons.1 hm with rfl | hm
      · exact hgrown.kept m hl
      · exact hgrown.added m hm
    · intro k hk m hm
      rcases hclosed k hk m hm with h | h
      · exact Or.inl h
      · rcases List.mem_cons.1 h with rfl | h
        · exact Or.inl hl
        · exact Or.inr h

/-! ### A graph of several files -/

/-- Adding a file to a graph that is complete for what is in it keeps it so. -/
theorem grown_add (hsound : Sound s folders g) (hclosed : Closed s folders g) (p : Path) :
    Grown s folders g (start? s folders p).toList (g.add s folders p) := by
  rw [add]
  cases hstart : start? s folders p with
  | none => exact ⟨fun _ h ↦ h, by simp, hsound, hclosed⟩
  | some l =>
    refine grown_visit hsound ?_ fun k hk m hm ↦ Or.inl (hclosed k hk m hm)
    intro m hm
    obtain rfl := List.mem_singleton.1 hm
    exact mem_locations_of_start? hstart

/-- Adding files one after the other gives a graph that holds all of them and is complete. -/
theorem grown_foldl {α : Type} (path : α → Path) (files : List α) (hsound : Sound s folders g)
    (hclosed : Closed s folders g) :
    Grown s folders g (files.filterMap fun file ↦ start? s folders (path file))
      (files.foldl (fun g file ↦ g.add s folders (path file)) g) := by
  induction files generalizing g with
  | nil => exact ⟨fun _ h ↦ h, by simp, hsound, hclosed⟩
  | cons file files ih =>
    have hadd := grown_add hsound hclosed (path file)
    have hrest := ih hadd.sound hadd.closed
    refine ⟨fun l hl ↦ hrest.kept l (hadd.kept l hl), fun l hl ↦ ?_, hrest.sound, hrest.closed⟩
    rw [List.filterMap_cons] at hl
    cases hstart : start? s folders (path file) with
    | none =>
      rw [hstart] at hl
      exact hrest.added l hl
    | some first =>
      rw [hstart] at hl
      rcases List.mem_cons.1 hl with rfl | hl
      · exact hrest.kept l (hadd.added l (by rw [hstart]; simp))
      · exact hrest.added l hl

/-- The empty graph is complete. -/
theorem sound_empty : Sound s folders {} :=
  ⟨fun _ _ h ↦ absurd h List.not_mem_nil, fun _ h ↦ absurd h List.not_mem_nil⟩

theorem closed_empty : Closed s folders {} :=
  fun _ h ↦ absurd h List.not_mem_nil

/-! ### Asking -/

/-- In a complete graph one of its files leads to what it includes, at any depth. -/
theorem leads_iff (hsound : Sound s folders g) (hclosed : Closed s folders g) {l m : Location}
    (hl : l ∈ g.locations) :
    g.Leads l m ∧ m ∈ g.locations ↔ Relation.ReflTransGen (Includes s folders) l m := by
  constructor
  · rintro ⟨hleads, -⟩
    induction hleads with
    | refl => exact .refl
    | tail _ hnext ih =>
      obtain ⟨found, hfound, hnext⟩ := hnext
      rw [hsound.includes?_eq (mem_locations_of_includes? hfound)] at hfound
      obtain rfl := Option.some.inj hfound
      exact ih.tail hnext
  · intro h
    induction h with
    | refl => exact ⟨.refl, hl⟩
    | tail _ hnext ih =>
      obtain ⟨hleads, hk⟩ := ih
      exact ⟨hleads.tail ⟨_, hsound.includes?_eq hk, hnext⟩, hclosed _ hk _ hnext⟩

/-- Asking a complete graph about one of its files finds what there is to find among the file and
everything it includes, at any depth. -/
theorem reaches_iff (hsound : Sound s folders g) (hclosed : Closed s folders g)
    {test : Location → Bool} {l : Location} (hl : l ∈ g.locations) :
    reaches g test [] [l] = true ↔
      ∃ m, Relation.ReflTransGen (Includes s folders) l m ∧ test m = true := by
  rw [reaches_iff_leads]
  simp only [← leads_iff hsound hclosed hl, and_assoc]

end Rebuild.Include.Graph
