import Mathlib.Data.List.Nodup
import Rebuild.Include.Tree
import Rebuild.Proofs.Include.Closure

/-!
# The include graph as it grows

Files are added to a graph one call after the other, and between two calls the store and the
folders may be others. `Scanning` is the search of one call as it goes on, without the bound that
makes `visit` end: it passes over what is in the graph and scans what is not. Every call is such a
search (`exists_scanning_visit`), and it scans no file twice, so it ends.

What is stored never changes (`Scanning.nodes_eq`) and leads only to what is stored
(`Scanning.leadsInside`). Both together say that later calls do not change an answer about a file that
is in the graph: whoever starts there never leaves what was there before.
-/

namespace Rebuild.Include.Graph

variable {s s' : FileStore} {folders : List Path} {g grown : Graph} {l m : Location}
variable {pending scanned found : List Location}

/-! ### One call -/

/-- The search of one call: from a graph and what is pending, over the locations that are scanned, in
order, to the graph afterwards. -/
inductive Scanning (s : FileStore) (folders : List Path) :
    Graph → List Location → List Location → Graph → Prop
  /-- Nothing is pending. -/
  | done {g : Graph} : Scanning s folders g [] [] g
  /-- The next location is in the graph. -/
  | known {g grown : Graph} {l : Location} {pending scanned : List Location}
    (hl : l ∈ g.locations) (hrest : Scanning s folders g pending scanned grown) :
    Scanning s folders g (l :: pending) scanned grown
  /-- The next location is scanned, and what it includes comes before the rest. -/
  | fresh {g grown : Graph} {l : Location} {pending scanned : List Location}
    (hl : l ∉ g.locations)
    (hrest : Scanning s folders { nodes := (l, scan s folders l) :: g.nodes }
      (scan s folders l ++ pending) scanned grown) :
    Scanning s folders g (l :: pending) (l :: scanned) grown

/-- The search ends when what is pending is in the store, and `visit` is what it ends with. -/
theorem exists_scanning_visit (hpending : ∀ l ∈ pending, l ∈ s.locations) :
    ∃ scanned, Scanning s folders g pending scanned (visit s folders g pending) := by
  fun_induction visit s folders g pending with
  | case1 g => exact ⟨[], .done⟩
  | case2 g l rest hscan found ih =>
    have hfound : ∀ m ∈ found ++ rest, m ∈ s.locations := by
      intro m hm
      rcases List.mem_append.1 hm with hm | hm
      · exact mem_locations_of_includes hm
      · exact hpending m (List.mem_cons_of_mem _ hm)
    obtain ⟨scanned, hrest⟩ := ih hfound
    exact ⟨l :: scanned, .fresh (by simpa using hscan.2) hrest⟩
  | case3 g l rest hscan ih =>
    -- the location is in the store, so that only the graph can hold the search off
    have hl : l ∈ g.locations := Decidable.byContradiction fun hnot ↦
      hscan ⟨hpending l List.mem_cons_self, by simpa using hnot⟩
    obtain ⟨scanned, hrest⟩ := ih fun m hm ↦ hpending m (List.mem_cons_of_mem _ hm)
    exact ⟨scanned, .known hl hrest⟩

/-- The search goes one way only. -/
theorem Scanning.unique {scanned' : List Location} {grown' : Graph}
    (h : Scanning s folders g pending scanned grown)
    (h' : Scanning s folders g pending scanned' grown') : scanned = scanned' ∧ grown = grown' := by
  induction h generalizing scanned' grown' with
  | done =>
    cases h'
    exact ⟨rfl, rfl⟩
  | known hl _ ih =>
    cases h' with
    | known _ hrest => exact ih hrest
    | fresh hnot _ => exact absurd hl hnot
  | fresh hl _ ih =>
    cases h' with
    | known hin _ => exact absurd hin hl
    | fresh _ hrest =>
      obtain ⟨rfl, rfl⟩ := ih hrest
      exact ⟨rfl, rfl⟩

/-- What is scanned comes to the graph, and nothing else happens to it. -/
theorem Scanning.nodes_eq (h : Scanning s folders g pending scanned grown) :
    grown.nodes = (scanned.map fun l ↦ (l, scan s folders l)).reverse ++ g.nodes := by
  induction h with
  | done => rfl
  | known _ _ ih => exact ih
  | fresh _ _ ih => simp [ih]

theorem Scanning.mem_locations (h : Scanning s folders g pending scanned grown) :
    l ∈ grown.locations ↔ l ∈ scanned ∨ l ∈ g.locations := by
  simp [locations, h.nodes_eq]

/-- No location is scanned twice, and none that was in the graph. -/
theorem Scanning.nodup (h : Scanning s folders g pending scanned grown) :
    scanned.Nodup ∧ ∀ l ∈ scanned, l ∉ g.locations := by
  induction h with
  | done => exact ⟨List.nodup_nil, fun _ h ↦ absurd h List.not_mem_nil⟩
  | known _ _ ih => exact ih
  | fresh hl _ ih =>
    obtain ⟨hnodup, hnew⟩ := ih
    refine ⟨List.nodup_cons.2 ⟨fun h ↦ hnew _ h List.mem_cons_self, hnodup⟩, fun m hm ↦ ?_⟩
    rcases List.mem_cons.1 hm with rfl | hm
    · exact hl
    · exact fun hin ↦ hnew m hm (List.mem_cons_of_mem _ hin)

/-- Each location has one node. -/
theorem Scanning.nodup_locations (h : Scanning s folders g pending scanned grown)
    (hg : g.locations.Nodup) : grown.locations.Nodup := by
  obtain ⟨hnodup, hnew⟩ := h.nodup
  have heq : grown.locations = scanned.reverse ++ g.locations := by
    simp [locations, h.nodes_eq, Function.comp_def]
  rw [heq]
  exact (List.nodup_reverse.2 hnodup).append hg fun l hl hin ↦
    hnew l (List.mem_reverse.1 hl) hin

/-- What the graph says is included by a file is in the graph, or is pending. -/
def LeadsInsideUpTo (g : Graph) (pending : List Location) : Prop :=
  ∀ l found, (l, found) ∈ g.nodes → ∀ m ∈ found, m ∈ g.locations ∨ m ∈ pending

/-- What the graph says is included by a file is in the graph. -/
def LeadsInside (g : Graph) : Prop :=
  ∀ l found, (l, found) ∈ g.nodes → ∀ m ∈ found, m ∈ g.locations

theorem LeadsInside.upTo (h : g.LeadsInside) (pending : List Location) :
    g.LeadsInsideUpTo pending :=
  fun l found hmem m hm ↦ Or.inl (h l found hmem m hm)

theorem Scanning.leadsInside (h : Scanning s folders g pending scanned grown)
    (hg : g.LeadsInsideUpTo pending) : grown.LeadsInside := by
  induction h with
  | done => exact fun l found hmem m hm ↦ (hg l found hmem m hm).resolve_right List.not_mem_nil
  | known hl _ ih =>
    refine ih fun k found hmem m hm ↦ ?_
    rcases hg k found hmem m hm with h | h
    · exact Or.inl h
    · exact (List.mem_cons.1 h).elim (fun heq ↦ Or.inl (heq ▸ hl)) Or.inr
  | fresh _ _ ih =>
    refine ih fun k found hmem m hm ↦ ?_
    rcases List.mem_cons.1 hmem with heq | hmem
    · obtain ⟨rfl, rfl⟩ := Prod.mk.inj heq
      exact Or.inr (List.mem_append_left _ hm)
    · rcases hg k found hmem m hm with h | h
      · exact Or.inl (List.mem_cons_of_mem _ h)
      · rcases List.mem_cons.1 h with rfl | h
        · exact Or.inl List.mem_cons_self
        · exact Or.inr (List.mem_append_right _ h)

/-! ### Calls in a row -/

/-- A call that adds a file, with the store and the folders as they are then. -/
structure Call where
  /-- The store. -/
  store : FileStore
  /-- The folders in which names are looked for. -/
  folders : List Path
  /-- The file. -/
  file : Path

/-- The graph after calls, one after the other. -/
def addAll (g : Graph) (calls : List Call) : Graph :=
  calls.foldl (fun g call ↦ g.add call.store call.folders call.file) g

/-- The graph that calls build from nothing. -/
def ofCalls (calls : List Call) : Graph :=
  addAll {} calls

theorem addAll_append (g : Graph) (calls further : List Call) :
    g.addAll (calls ++ further) = (g.addAll calls).addAll further :=
  List.foldl_append

/-- Adding a file is a search from where the file is found, or from nowhere. -/
theorem exists_scanning_add (g : Graph) (s : FileStore) (folders : List Path) (p : Path) :
    ∃ scanned, Scanning s folders g (start? s folders p).toList scanned (g.add s folders p) := by
  rw [add]
  cases hstart : start? s folders p with
  | none => exact ⟨[], .done⟩
  | some l =>
    refine exists_scanning_visit fun m hm ↦ ?_
    obtain rfl := List.mem_singleton.1 hm
    exact mem_locations_of_start? hstart

/-- What calls do to a graph: the nodes that were there stay as they are. -/
structure Extends (g grown : Graph) : Prop where
  /-- Nodes are only added. -/
  suffix : g.nodes <:+ grown.nodes
  /-- Each location still has one node. -/
  nodup : g.locations.Nodup → grown.locations.Nodup
  /-- The graph still leads only to what it holds. -/
  leadsInside : g.LeadsInside → grown.LeadsInside

theorem extends_add (g : Graph) (s : FileStore) (folders : List Path) (p : Path) :
    g.Extends (g.add s folders p) := by
  obtain ⟨scanned, hscanning⟩ := exists_scanning_add g s folders p
  exact ⟨⟨_, hscanning.nodes_eq.symm⟩, hscanning.nodup_locations,
    fun h ↦ hscanning.leadsInside (h.upTo _)⟩

theorem extends_addAll (g : Graph) (calls : List Call) : g.Extends (g.addAll calls) := by
  induction calls generalizing g with
  | nil => exact ⟨List.suffix_refl _, id, id⟩
  | cons call calls ih =>
    have hfirst := extends_add g call.store call.folders call.file
    have hrest := ih (g.add call.store call.folders call.file)
    exact ⟨hfirst.suffix.trans hrest.suffix, hrest.nodup ∘ hfirst.nodup,
      hrest.leadsInside ∘ hfirst.leadsInside⟩

theorem nodup_ofCalls (calls : List Call) : (ofCalls calls).locations.Nodup :=
  (extends_addAll {} calls).nodup List.nodup_nil

theorem leadsInside_ofCalls (calls : List Call) : (ofCalls calls).LeadsInside :=
  (extends_addAll {} calls).leadsInside fun _ _ h ↦ absurd h List.not_mem_nil

/-- With one node for each location, looking a location up finds its node. -/
theorem includes?_eq_some_iff (hg : g.locations.Nodup) :
    g.includes? l = some found ↔ (l, found) ∈ g.nodes := by
  rw [includes?]
  constructor
  · intro h
    obtain ⟨before, after, heq, -⟩ := List.lookup_eq_some_iff.1 h
    simp [heq]
  · intro h
    obtain ⟨before, after, heq⟩ := List.append_of_mem h
    refine List.lookup_eq_some_iff.2 ⟨before, after, heq, fun node hnode ↦ bne_iff_ne.2 ?_⟩
    -- otherwise the location would have another node before this one
    rintro rfl
    rw [locations, heq, List.map_append, List.map_cons] at hg
    exact List.disjoint_of_nodup_append hg (List.mem_map_of_mem hnode) List.mem_cons_self

theorem Extends.includes? (h : g.Extends grown) (hg : g.locations.Nodup) (hl : l ∈ g.locations) :
    grown.includes? l = g.includes? l := by
  obtain ⟨⟨l', found⟩, hmem, rfl⟩ := List.mem_map.1 hl
  rw [(includes?_eq_some_iff hg).2 hmem, (includes?_eq_some_iff (h.nodup hg)).2
    (h.suffix.subset hmem)]

/-! ### Answers -/

/-- Two graphs say the same about the locations of a set that the first does not lead out of. -/
structure SameOn (g grown : Graph) (inside : Location → Prop) : Prop where
  /-- The graphs say the same. -/
  includes? : ∀ l, inside l → grown.includes? l = g.includes? l
  /-- What is included is inside as well. -/
  step : ∀ l found, inside l → g.includes? l = some found → ∀ m ∈ found, inside m

variable {inside : Location → Prop}

/-- A search sees no more of a graph than where it is led. -/
theorem SameOn.reaches_eq (h : g.SameOn grown inside) {test test' : Location → Bool}
    (htest : ∀ l, inside l → test' l = test l) {seen : List Location}
    (hpending : ∀ l ∈ pending, inside l) :
    grown.reaches test' seen pending = g.reaches test seen pending := by
  fun_induction g.reaches test seen pending with
  | case1 => rw [reaches]
  | case2 seen l rest hseen ih =>
    rw [reaches, dif_pos hseen, ih fun m hm ↦ hpending m (List.mem_cons_of_mem _ hm)]
  | case3 seen l rest hseen hfound ih =>
    have hsame := h.includes? l (hpending l List.mem_cons_self)
    rw [reaches, dif_neg hseen]
    split
    · exact ih fun m hm ↦ hpending m (List.mem_cons_of_mem _ hm)
    · rename_i found hother
      rw [hsame, hfound] at hother
      cases hother
  | case4 seen l rest hseen found hfound ih =>
    have hl := hpending l List.mem_cons_self
    rw [reaches, dif_neg hseen]
    split
    · rename_i hother
      rw [h.includes? l hl, hfound] at hother
      cases hother
    · rename_i found' hother
      rw [h.includes? l hl, hfound] at hother
      obtain rfl := Option.some.inj hother
      rw [htest l hl, ih fun m hm ↦ ?_]
      rcases List.mem_append.1 hm with hm | hm
      · exact h.step l _ hl hfound m hm
      · exact hpending m (List.mem_cons_of_mem _ hm)

theorem location_of_mem_branches {indent : String} {branch : Branch}
    (h : branch ∈ branches indent found) : branch.location ∈ found := by
  fun_induction branches indent found with
  | case1 => cases h
  | case2 l =>
    obtain rfl := List.mem_singleton.1 h
    exact List.mem_cons_self
  | case3 l next rest ih =>
    rcases List.mem_cons.1 h with rfl | h
    · exact List.mem_cons_self
    · exact List.mem_cons_of_mem _ (ih h)

/-- A tree shows no more of a graph than where it is led. -/
theorem SameOn.treeLines_eq (h : g.SameOn grown inside) {seen : List Location}
    {branches : List Branch} (hbranches : ∀ branch ∈ branches, inside branch.location) :
    grown.treeLines seen branches = g.treeLines seen branches := by
  fun_induction g.treeLines seen branches with
  | case1 => rw [treeLines]
  | case2 seen branch rest hseen ih =>
    rw [treeLines, dif_pos hseen, ih fun other hother ↦
      hbranches other (List.mem_cons_of_mem _ hother)]
  | case3 seen branch rest hseen hfound ih =>
    have hsame := h.includes? _ (hbranches branch List.mem_cons_self)
    rw [treeLines, dif_neg hseen]
    split
    · rw [ih fun other hother ↦ hbranches other (List.mem_cons_of_mem _ hother)]
    · rename_i found hother
      rw [hsame, hfound] at hother
      cases hother
  | case4 seen branch rest hseen found hfound ih =>
    have hinside := hbranches branch List.mem_cons_self
    rw [treeLines, dif_neg hseen]
    split
    · rename_i hother
      rw [h.includes? _ hinside, hfound] at hother
      cases hother
    · rename_i found' hother
      rw [h.includes? _ hinside, hfound] at hother
      obtain rfl := Option.some.inj hother
      rw [ih fun other hother ↦ ?_]
      rcases List.mem_append.1 hother with hother | hother
      · exact h.step _ _ hinside hfound _ (location_of_mem_branches hother)
      · exact hbranches other (List.mem_cons_of_mem _ hother)

theorem Extends.sameOn (h : g.Extends grown) (hg : g.locations.Nodup) (hinside : g.LeadsInside)
    (hl : l ∈ g.locations) : g.SameOn grown (g.Leads l) := by
  have hmem {m : Location} (hm : g.Leads l m) : m ∈ g.locations := by
    induction hm with
    | refl => exact hl
    | tail _ hnext _ =>
      obtain ⟨found, hfound, hmem⟩ := hnext
      exact hinside _ found ((includes?_eq_some_iff hg).1 hfound) _ hmem
  exact ⟨fun m hm ↦ h.includes? hg (hmem hm), fun m found hm hfound k hk ↦
    hm.tail ⟨found, hfound, hk⟩⟩

theorem key?_congr {p : Path} (h : s'.canonical? p = s.canonical? p) : key? s' p = key? s p := by
  rw [key?, key?, h]

/-- Files to which a path leads through the graph are as old as they were. -/
def Untouched (g : Graph) (s s' : FileStore) (p : Path) : Prop :=
  ∀ l ∈ key? s p, ∀ m, g.Leads l m → s'.modified? m.path = s.modified? m.path

/-- Answers about a file of the graph stay what they were. -/
theorem Extends.answers (h : g.Extends grown) (hg : g.locations.Nodup) (hinside : g.LeadsInside)
    {p : Path} (hp : g.contains s p = true) (hplace : s'.canonical? p = s.canonical? p) :
    grown.dependencies? s' p = g.dependencies? s p ∧ grown.tree s' p = g.tree s p ∧
      (g.Untouched s s' p → ∀ reference,
        grown.needsRebuild s' p reference = g.needsRebuild s p reference) := by
  obtain ⟨found, hfound⟩ := Option.isSome_iff_exists.1 hp
  obtain ⟨l, hkey, hl⟩ := Option.bind_eq_some_iff.1 hfound
  have hsame := h.sameOn hg hinside (mem_locations_of_includes? hl)
  have hincludes := hsame.includes? l .refl
  have hkey' := (key?_congr hplace).trans hkey
  refine ⟨?_, ?_, fun huntouched reference ↦ ?_⟩
  · rw [dependencies?, dependencies?, hkey', hkey]
    exact hincludes
  · rw [tree, tree, hplace, hkey', hkey]
    simp only [hincludes, hl, Option.getD_some]
    rw [hsame.treeLines_eq fun branch hbranch ↦ ?_]
    exact hsame.step l found .refl hl _ (location_of_mem_branches hbranch)
  · rw [needsRebuild, needsRebuild, hkey', hkey]
    refine hsame.reaches_eq (fun m hm ↦ ?_) fun m hm ↦ ?_
    · rw [changedAfter, changedAfter, huntouched l hkey m hm]
    · obtain rfl := List.mem_singleton.1 hm
      exact .refl

/-! ### Calls with one store -/

/-- A file is found as it is spelled, or else in the first of the folders in which it is. -/
def FoundAt (s : FileStore) (folders : List Path) (p : Path) (l : Location) : Prop :=
  ∃ q, FirstExisting s (p :: folders.map (·.join p)) q ∧ s.canonical? q = some l

theorem start?_eq_some_iff {p : Path} : start? s folders p = some l ↔ FoundAt s folders p l := by
  rw [start?, Option.bind_eq_some_iff]
  simp only [firstExisting?_eq_some_iff]
  rfl

/-- What is scanned can be reached from what was pending. -/
theorem Scanning.exists_closure (h : Scanning s folders g pending scanned grown)
    (hl : l ∈ scanned) : ∃ k ∈ pending, Closure s folders k l := by
  induction h with
  | done => cases hl
  | known _ _ ih =>
    obtain ⟨k, hk, hclosure⟩ := ih hl
    exact ⟨k, List.mem_cons_of_mem _ hk, hclosure⟩
  | @fresh _ _ first _ _ _ _ ih =>
    rcases List.mem_cons.1 hl with rfl | hl
    · exact ⟨l, List.mem_cons_self, .refl⟩
    · obtain ⟨k, hk, hclosure⟩ := ih hl
      rcases List.mem_append.1 hk with hk | hk
      · exact ⟨first, List.mem_cons_self, .head (includes_iff.1 hk) hclosure⟩
      · exact ⟨k, List.mem_cons_of_mem _ hk, hclosure⟩

/-- The graph of files that are added with one store and the same folders. -/
def ofFiles (s : FileStore) (folders files : List Path) : Graph :=
  ofCalls (files.map (Call.mk s folders))

theorem ofFiles_eq (s : FileStore) (folders files : List Path) :
    ofFiles s folders files = files.foldl (fun g file ↦ g.add s folders file) {} := by
  rw [ofFiles, ofCalls, addAll, List.foldl_map]

/-- What is in the graph is what the files depend on. -/
theorem mem_locations_ofFiles {files : List Path} :
    l ∈ (ofFiles s folders files).locations ↔
      ∃ p ∈ files, ∃ start, FoundAt s folders p start ∧ Closure s folders start l := by
  constructor
  · rw [ofFiles_eq]
    induction files using List.reverseRecOn with
    | nil => exact fun h ↦ absurd h List.not_mem_nil
    | append_singleton files file ih =>
      intro hl
      rw [List.foldl_append, List.foldl_cons, List.foldl_nil] at hl
      obtain ⟨scanned, hscanning⟩ := exists_scanning_add
        (files.foldl (fun g file ↦ g.add s folders file) {}) s folders file
      rcases hscanning.mem_locations.1 hl with hl | hl
      · obtain ⟨start, hstart, hclosure⟩ := hscanning.exists_closure hl
        exact ⟨file, by simp, start, start?_eq_some_iff.1 (Option.mem_toList.1 hstart), hclosure⟩
      · obtain ⟨p, hp, hrest⟩ := ih hl
        exact ⟨p, List.mem_append_left _ hp, hrest⟩
  · rintro ⟨p, hp, start, hfound, hclosure⟩
    have hgrown := grown_foldl id files (@sound_empty s folders) closed_empty
    rw [ofFiles_eq]
    induction hclosure with
    | refl =>
      exact hgrown.added start (List.mem_filterMap.2 ⟨p, hp, start?_eq_some_iff.2 hfound⟩)
    | tail _ hnext ih => exact hgrown.closed _ ih _ (includes_iff.2 hnext)

theorem includes?_ofFiles {files : List Path} (hl : l ∈ (ofFiles s folders files).locations) :
    (ofFiles s folders files).includes? l = some (scan s folders l) := by
  have hgrown := grown_foldl id files (@sound_empty s folders) closed_empty
  rw [ofFiles_eq] at hl ⊢
  exact hgrown.sound.includes?_eq hl

theorem mem_nodes_ofFiles {files : List Path} :
    (l, found) ∈ (ofFiles s folders files).nodes ↔
      l ∈ (ofFiles s folders files).locations ∧ found = scan s folders l := by
  have hnodup := nodup_ofCalls (files.map (Call.mk s folders))
  constructor
  · intro h
    have hl : l ∈ (ofFiles s folders files).locations := List.mem_map_of_mem h
    have hfound := (includes?_eq_some_iff hnodup).2 h
    exact ⟨hl, Option.some.inj (hfound.symm.trans (includes?_ofFiles hl))⟩
  · rintro ⟨hl, rfl⟩
    exact (includes?_eq_some_iff hnodup).1 (includes?_ofFiles hl)

/-- The order of the files and repetitions do not matter. -/
theorem perm_ofFiles {files others : List Path} (h : ∀ p, p ∈ files ↔ p ∈ others) :
    (ofFiles s folders files).nodes.Perm (ofFiles s folders others).nodes := by
  have hnodup (files : List Path) : (ofFiles s folders files).nodes.Nodup :=
    (nodup_ofCalls (files.map (Call.mk s folders))).of_map
  refine (List.perm_ext_iff_of_nodup (hnodup _) (hnodup _)).2 fun ⟨l, found⟩ ↦ ?_
  simp only [mem_nodes_ofFiles, mem_locations_ofFiles, h]

/-- A file has one node, at the location to which its spellings lead. -/
theorem canonical?_of_mem_ofFiles (hs : s.WellFormed) {files : List Path}
    (hl : l ∈ (ofFiles s folders files).locations) : s.canonical? l.path = some l := by
  have hplace : ∃ p, s.canonical? p = some l := by
    obtain ⟨_, _, start, ⟨p, -, hp⟩, hclosure⟩ := mem_locations_ofFiles.1 hl
    rcases Relation.ReflTransGen.cases_tail hclosure with rfl | ⟨_, -, _, _, _, q, -, -, -, -, hq⟩
    · exact ⟨p, hp⟩
    · exact ⟨q, hq⟩
  obtain ⟨p, hp⟩ := hplace
  obtain ⟨e, hfind, hlink, hshort⟩ := hs.canonical?_real hp
  obtain ⟨hlead, -⟩ := FileStore.find?_of_locate (hs.locate_path hfind hlink hshort true)
  exact FileStore.canonical?_of_lead hlead (Option.isSome_of_eq_some hfind) hshort

/-- Over any sequence of calls, with stores and folders that may differ from call to call: a call is a
search that ends, it scans no location twice and none that was in the graph; the graph leads only to
what it holds; and further calls leave its nodes as they are, and with them what is answered about a
file of the graph, as far as the files that matter to the answer are untouched.

With one store and the same folders the nodes are the locations on which the files depend, each of
them once and with what scanning it finds, whatever the order of the files and however often they
are added. -/
theorem ofCalls_grows :
    (∀ calls : List Call, let g := ofCalls calls
      (∀ call : Call, ∃ scanned,
        (∀ other grown, Scanning call.store call.folders g
            (start? call.store call.folders call.file).toList other grown ↔
          other = scanned ∧ grown = ofCalls (calls ++ [call])) ∧
        scanned.Nodup ∧ ∀ l ∈ scanned, l ∉ g.locations) ∧
      g.LeadsInside ∧
      ∀ further, let grown := ofCalls (calls ++ further)
        (∀ l ∈ g.locations, l ∈ grown.locations) ∧
        (∀ l found, g.includes? l = some found → grown.includes? l = some found) ∧
        ∀ s s' p, g.contains s p = true → s'.canonical? p = s.canonical? p →
          grown.dependencies? s' p = g.dependencies? s p ∧ grown.tree s' p = g.tree s p ∧
            (g.Untouched s s' p → ∀ reference,
              grown.needsRebuild s' p reference = g.needsRebuild s p reference)) ∧
    ∀ s folders files, let g := ofFiles s folders files
      (∀ l found, g.includes? l = some found ↔
        (∃ p ∈ files, ∃ start, FoundAt s folders p start ∧ Closure s folders start l) ∧
          found = scan s folders l) ∧
      g.locations.Nodup ∧
      (s.WellFormed → ∀ l ∈ g.locations, s.canonical? l.path = some l) ∧
      (∀ l ∈ g.locations, ∀ p, s.canonical? p = some l →
        g.dependencies? s p = some (scan s folders l)) ∧
      ∀ others, (∀ p, p ∈ others ↔ p ∈ files) → (ofFiles s folders others).nodes.Perm g.nodes := by
  refine ⟨fun calls ↦ ?_, fun s folders files ↦ ?_⟩
  · have hnodup := nodup_ofCalls calls
    have hinside := leadsInside_ofCalls calls
    refine ⟨fun call ↦ ?_, hinside, fun further ↦ ?_⟩
    · obtain ⟨scanned, hscanning⟩ :=
        exists_scanning_add (ofCalls calls) call.store call.folders call.file
      have heq : ofCalls (calls ++ [call]) =
          (ofCalls calls).add call.store call.folders call.file := addAll_append {} calls [call]
      refine ⟨scanned, fun other grown ↦ ⟨fun h ↦ ?_, ?_⟩, hscanning.nodup⟩
      · rw [heq]
        exact h.unique hscanning
      · rintro ⟨rfl, rfl⟩
        rwa [heq]
    · have hextends := extends_addAll (ofCalls calls) further
      rw [ofCalls, ← addAll_append] at hextends
      refine ⟨fun l hl ↦ ?_, fun l found hl ↦ ?_, fun s s' p hp hplace ↦ ?_⟩
      · exact (hextends.suffix.map Prod.fst).subset hl
      · exact (hextends.includes? hnodup (mem_locations_of_includes? hl)).trans hl
      · exact hextends.answers hnodup hinside hp hplace
  · have hnodup : (ofFiles s folders files).locations.Nodup := nodup_ofCalls _
    refine ⟨fun l found ↦ ?_, hnodup, fun hs l hl ↦ canonical?_of_mem_ofFiles hs hl,
      fun l hl p hp ↦ ?_, fun others h ↦ perm_ofFiles h⟩
    · rw [includes?_eq_some_iff hnodup, mem_nodes_ofFiles, mem_locations_ofFiles]
    · rw [dependencies?, key?, hp]
      exact includes?_ofFiles hl

/-- Two headers that include each other, and a link to one of them. -/
def mutualHeaders : FileStore where
  entries := [(.root, .folder 0),
    (⟨["a.h"]⟩, .file (Text.Utf8.encode "#include \"b.h\"\n") false 10),
    (⟨["b.h"]⟩, .file (Text.Utf8.encode "#include \"a.h\"\n") false 10),
    (⟨["link.h"]⟩, .link "a.h")]
  clock := 20

/-- Both headers come to the graph, once each, whether they are added under their own names or through
the link; and a later call with a store in which they are gone changes nothing about them. -/
theorem ofCalls_grows_of_mutualHeaders :
    let g := ofFiles mutualHeaders [] [⟨"/a.h"⟩, ⟨"/link.h"⟩]
    let grown := ofCalls
      ([⟨"/a.h"⟩, ⟨"/link.h"⟩].map (Call.mk mutualHeaders []) ++ [⟨{}, [], ⟨"/c.h"⟩⟩])
    mutualHeaders.WellFormed ∧ mutualHeaders.canonical? ⟨"/link.h"⟩ = some ⟨["a.h"]⟩ ∧
      g.includes? ⟨["b.h"]⟩ = some [⟨["a.h"]⟩] ∧
      grown.dependencies? mutualHeaders ⟨"/link.h"⟩ = some [⟨["b.h"]⟩] ∧
      (ofFiles mutualHeaders [] [⟨"/link.h"⟩, ⟨"/a.h"⟩, ⟨"/link.h"⟩]).nodes.Perm g.nodes := by
  intro g grown
  obtain ⟨hcalls, hfiles⟩ := ofCalls_grows
  obtain ⟨hincludes, -, -, hdependencies, hperm⟩ :=
    hfiles mutualHeaders [] [⟨"/a.h"⟩, ⟨"/link.h"⟩]
  have hscans : scan mutualHeaders [] ⟨["a.h"]⟩ = [⟨["b.h"]⟩] ∧
      scan mutualHeaders [] ⟨["b.h"]⟩ = [⟨["a.h"]⟩] := by
    decide +kernel
  have hlink : mutualHeaders.canonical? ⟨"/link.h"⟩ = some ⟨["a.h"]⟩ := by decide +kernel
  have hstart : FoundAt mutualHeaders [] ⟨"/a.h"⟩ ⟨["a.h"]⟩ :=
    start?_eq_some_iff.1 (by decide +kernel)
  have hfirst := (hincludes ⟨["a.h"]⟩ _).2 ⟨⟨_, List.mem_cons_self, _, hstart, .refl⟩, rfl⟩
  have hstep : Closure mutualHeaders [] ⟨["a.h"]⟩ ⟨["b.h"]⟩ :=
    .single (includes_iff.1 (by rw [Includes, hscans.1]; exact List.mem_cons_self))
  have hsecond := (hincludes ⟨["b.h"]⟩ _).2 ⟨⟨_, List.mem_cons_self, _, hstart, hstep⟩, rfl⟩
  have hknown := hdependencies _ (mem_locations_of_includes? hfirst) _ hlink
  obtain ⟨-, -, hanswers⟩ := (hcalls _).2.2 [⟨{}, [], ⟨"/c.h"⟩⟩]
  obtain ⟨hkept, -⟩ := hanswers _ mutualHeaders _ (Option.isSome_of_eq_some hknown) rfl
  exact ⟨by decide +kernel, hlink, hsecond.trans (congrArg some hscans.2),
    hkept.trans (hknown.trans (congrArg some hscans.1)), hperm _ (by simp [or_comm])⟩

end Rebuild.Include.Graph
