import Mathlib.Data.List.Nodup
import Mathlib.Logic.Relation
import Rebuild.Include.Graph

/-!
# Asking the include graph

Whether a file has to be made again is a search through the graph, which ends with the first file that has
changed. `Asking` is this search as it goes on, without the bound that makes `reaches` end, and with the
files whose times it looks at. Every question is such a search (`exists_asking`), and it looks at no file
twice.

A search that finds nothing has looked at everything it could be led to (`Asking.exhausted`): whatever is
included by a file it has looked at, and is a node, it has looked at as well. So asking finds a change
exactly if there is one in what the graph leads to (`needsRebuild_eq_true_iff`), whatever the graph is like.
-/

namespace Rebuild.Include.Graph

variable {g : Graph} {s : FileStore} {p : Path} {l m : Location} {test : Location → Bool}
variable {seen pending examined : List Location} {answer : Bool}

/-- According to the graph one location leads to the other. -/
def Leads (g : Graph) (l m : Location) : Prop :=
  Relation.ReflTransGen (fun l m ↦ ∃ found, g.includes? l = some found ∧ m ∈ found) l m

theorem exists_includes?_iff : (∃ found, g.includes? l = some found) ↔ l ∈ g.locations := by
  refine ⟨fun ⟨_, h⟩ ↦ mem_locations_of_includes? h, fun h ↦ ?_⟩
  obtain ⟨⟨l', found⟩, hnode, rfl⟩ := List.mem_map.1 h
  refine Option.ne_none_iff_exists'.1 fun hnone ↦ ?_
  have hne := List.lookup_eq_none_iff.1 hnone _ hnode
  simp at hne

theorem mem_includes_iff : m ∈ (g.includes? l).getD [] ↔ ∃ found, g.includes? l = some found ∧ m ∈ found := by
  cases g.includes? l <;> simp

theorem Leads.mem_locations (h : g.Leads l m) (hm : m ∈ g.locations) : l ∈ g.locations := by
  rcases Relation.ReflTransGen.cases_head h with rfl | ⟨_, ⟨found, hfound, -⟩, -⟩
  · exact hm
  · exact mem_locations_of_includes? hfound

/-! ### The search -/

/-- A search: from what has been seen and what is pending, over the locations that are examined, in order,
to the answer. -/
inductive Asking (g : Graph) (test : Location → Bool) :
    List Location → List Location → List Location → Bool → Prop
  /-- Nothing is pending. -/
  | done {seen : List Location} : Asking g test seen [] [] false
  /-- The next location has been seen, or is no node. -/
  | passed {seen pending examined : List Location} {answer : Bool} {l : Location}
    (hl : l ∈ seen ∨ g.includes? l = none) (hrest : Asking g test seen pending examined answer) :
    Asking g test seen (l :: pending) examined answer
  /-- The next location passes the test, and nothing else is examined. -/
  | hit {seen pending found : List Location} {l : Location} (hl : l ∉ seen)
    (hfound : g.includes? l = some found) (htest : test l = true) :
    Asking g test seen (l :: pending) [l] true
  /-- The next location fails the test, and what it includes comes before the rest. -/
  | miss {seen pending examined found : List Location} {answer : Bool} {l : Location} (hl : l ∉ seen)
    (hfound : g.includes? l = some found) (htest : test l = false)
    (hrest : Asking g test (l :: seen) (found ++ pending) examined answer) :
    Asking g test seen (l :: pending) (l :: examined) answer

/-- The search ends, and `reaches` is the answer that it ends with. -/
theorem exists_asking (g : Graph) (test : Location → Bool) (seen pending : List Location) :
    ∃ examined, Asking g test seen pending examined (g.reaches test seen pending) := by
  fun_induction reaches g test seen pending with
  | case1 => exact ⟨[], .done⟩
  | case2 seen l rest hseen ih =>
    obtain ⟨examined, hrest⟩ := ih
    exact ⟨examined, .passed (.inl (by simpa using hseen)) hrest⟩
  | case3 seen l rest hseen hfound ih =>
    obtain ⟨examined, hrest⟩ := ih
    exact ⟨examined, .passed (.inr hfound) hrest⟩
  | case4 seen l rest hseen found hfound ih =>
    have hnew : l ∉ seen := by simpa using hseen
    cases htest : test l with
    | true => exact ⟨[l], .hit hnew hfound htest⟩
    | false =>
      obtain ⟨examined, hrest⟩ := ih
      exact ⟨l :: examined, .miss hnew hfound htest hrest⟩

/-- The search goes one way only. -/
theorem Asking.unique {examined' : List Location} {answer' : Bool}
    (h : Asking g test seen pending examined answer)
    (h' : Asking g test seen pending examined' answer') : examined = examined' ∧ answer = answer' := by
  -- no location is both passed over and examined
  have hclash {seen found : List Location} {l : Location} (hl : l ∈ seen ∨ g.includes? l = none)
      (hnew : l ∉ seen) (hfound : g.includes? l = some found) : False := by
    rcases hl with hl | hnone
    · exact hnew hl
    · cases hnone.symm.trans hfound
  induction h generalizing examined' answer' with
  | done =>
    cases h'
    exact ⟨rfl, rfl⟩
  | passed hl _ ih =>
    cases h' with
    | passed _ hrest => exact ih hrest
    | hit hnew hfound _ => exact (hclash hl hnew hfound).elim
    | miss hnew hfound _ _ => exact (hclash hl hnew hfound).elim
  | hit hnew hfound htest =>
    cases h' with
    | passed hl _ => exact (hclash hl hnew hfound).elim
    | hit => exact ⟨rfl, rfl⟩
    | miss _ _ hfails _ => cases htest.symm.trans hfails
  | miss hnew hfound htest _ ih =>
    cases h' with
    | passed hl _ => exact (hclash hl hnew hfound).elim
    | hit _ _ hpasses => cases htest.symm.trans hpasses
    | miss _ hfound' _ hrest =>
      obtain rfl := Option.some.inj (hfound.symm.trans hfound')
      obtain ⟨rfl, rfl⟩ := ih hrest
      exact ⟨rfl, rfl⟩

/-- No location is examined twice, none that has been seen, and none that is no node. -/
theorem Asking.nodup (h : Asking g test seen pending examined answer) :
    examined.Nodup ∧ ∀ l ∈ examined, l ∉ seen ∧ l ∈ g.locations := by
  induction h with
  | done => exact ⟨List.nodup_nil, fun _ h ↦ absurd h List.not_mem_nil⟩
  | passed _ _ ih => exact ih
  | hit hl hfound _ =>
    refine ⟨List.nodup_singleton _, fun m hm ↦ ?_⟩
    obtain rfl := List.mem_singleton.1 hm
    exact ⟨hl, mem_locations_of_includes? hfound⟩
  | miss hl hfound _ _ ih =>
    obtain ⟨hnodup, hnew⟩ := ih
    refine ⟨List.nodup_cons.2 ⟨fun h ↦ (hnew _ h).1 List.mem_cons_self, hnodup⟩, fun m hm ↦ ?_⟩
    rcases List.mem_cons.1 hm with rfl | hm
    · exact ⟨hl, mem_locations_of_includes? hfound⟩
    · exact ⟨fun hseen ↦ (hnew m hm).1 (List.mem_cons_of_mem _ hseen), (hnew m hm).2⟩

/-! ### What is found -/

/-- What a search finds is a node to which something pending leads. -/
theorem Asking.exists_leads (h : Asking g test seen pending examined answer) (hanswer : answer = true) :
    ∃ l ∈ pending, ∃ m, g.Leads l m ∧ m ∈ g.locations ∧ test m = true := by
  induction h with
  | done => cases hanswer
  | passed _ _ ih =>
    obtain ⟨k, hk, hrest⟩ := ih hanswer
    exact ⟨k, List.mem_cons_of_mem _ hk, hrest⟩
  | @hit _ _ _ l _ hfound htest =>
    exact ⟨l, List.mem_cons_self, l, .refl, mem_locations_of_includes? hfound, htest⟩
  | @miss _ _ _ found _ l _ hfound _ _ ih =>
    obtain ⟨k, hk, m, hm, hrest⟩ := ih hanswer
    rcases List.mem_append.1 hk with hk | hk
    · exact ⟨l, List.mem_cons_self, m, .head ⟨found, hfound, hk⟩ hm, hrest⟩
    · exact ⟨k, List.mem_cons_of_mem _ hk, m, hm, hrest⟩

/-- What a search that finds nothing has met: the nodes that were pending, and the nodes that are included
by what it has examined. All that it has examined fails the test. -/
theorem Asking.exhausted (h : Asking g test seen pending examined answer) (hanswer : answer = false) :
    (∀ l ∈ pending, l ∈ g.locations → l ∈ seen ∨ l ∈ examined) ∧
      ∀ l ∈ examined, test l = false ∧ ∀ found, g.includes? l = some found →
        ∀ m ∈ found, m ∈ g.locations → m ∈ seen ∨ m ∈ examined := by
  induction h with
  | done => exact ⟨fun _ h ↦ absurd h List.not_mem_nil, fun _ h ↦ absurd h List.not_mem_nil⟩
  | passed hl _ ih =>
    obtain ⟨hpending, hexamined⟩ := ih hanswer
    refine ⟨fun m hm hnode ↦ ?_, hexamined⟩
    rcases List.mem_cons.1 hm with rfl | hm
    · refine .inl (hl.resolve_right fun hnone ↦ ?_)
      obtain ⟨found, hfound⟩ := exists_includes?_iff.2 hnode
      cases hnone.symm.trans hfound
    · exact hpending m hm hnode
  | hit => cases hanswer
  | @miss seen pending examined found _ l _ hfound htest _ ih =>
    obtain ⟨hpending, hexamined⟩ := ih hanswer
    -- what has been seen besides is the location itself, which has been examined
    have hmet {m : Location} (hm : m ∈ l :: seen ∨ m ∈ examined) : m ∈ seen ∨ m ∈ l :: examined := by
      simp only [List.mem_cons] at hm ⊢
      tauto
    refine ⟨fun m hm hnode ↦ ?_, fun m hm ↦ ?_⟩
    · rcases List.mem_cons.1 hm with rfl | hm
      · exact .inr List.mem_cons_self
      · exact hmet (hpending m (List.mem_append_right _ hm) hnode)
    · rcases List.mem_cons.1 hm with rfl | hm
      · refine ⟨htest, fun found' hfound' k hk hnode ↦ ?_⟩
        obtain rfl := Option.some.inj (hfound.symm.trans hfound')
        exact hmet (hpending k (List.mem_append_left _ hk) hnode)
      · obtain ⟨hfails, hincluded⟩ := hexamined m hm
        exact ⟨hfails, fun found' hfound' k hk hnode ↦ hmet (hincluded found' hfound' k hk hnode)⟩

/-- A search from a location finds what there is to find among the nodes to which it leads. -/
theorem reaches_iff_leads :
    g.reaches test [] [l] = true ↔ ∃ m, g.Leads l m ∧ m ∈ g.locations ∧ test m = true := by
  obtain ⟨examined, hasking⟩ := exists_asking g test [] [l]
  constructor
  · intro h
    obtain ⟨k, hk, hfound⟩ := hasking.exists_leads h
    obtain rfl := List.mem_singleton.1 hk
    exact hfound
  · rintro ⟨m, hleads, hm, htest⟩
    refine Bool.of_not_eq_false fun hnone ↦ ?_
    obtain ⟨hpending, hexamined⟩ := hasking.exhausted hnone
    have hmet {k : Location} (hk : g.Leads l k) (hnode : k ∈ g.locations) : k ∈ examined := by
      induction hk with
      | refl => exact (hpending l List.mem_cons_self hnode).resolve_left List.not_mem_nil
      | tail _ hnext ih =>
        obtain ⟨found, hfound, hin⟩ := hnext
        have hbefore := ih (mem_locations_of_includes? hfound)
        exact ((hexamined _ hbefore).2 found hfound _ hin hnode).resolve_left List.not_mem_nil
    cases htest.symm.trans (hexamined m (hmet hleads hm)).1

/-! ### Changes -/

theorem changedAfter_eq_true_iff {reference : Time} : changedAfter s reference l = true ↔
    s.modified? l.path = none ∨ ∃ time, s.modified? l.path = some time ∧ reference < time := by
  cases h : s.modified? l.path <;> simp [changedAfter, h]

theorem needsRebuild_eq_true_iff {reference : Time} : g.needsRebuild s p reference = true ↔
    ∃ l ∈ key? s p, ∃ m, g.Leads l m ∧ m ∈ g.locations ∧ changedAfter s reference m = true := by
  rw [needsRebuild]
  cases key? s p with
  | none => simp
  | some l => simp [reaches_iff_leads]

/-- What has changed after a time has changed after every earlier time. -/
theorem needsRebuild_of_later {earlier later : Time} (hle : earlier ≤ later)
    (h : g.needsRebuild s p later = true) : g.needsRebuild s p earlier = true := by
  simp only [needsRebuild_eq_true_iff, changedAfter_eq_true_iff] at h ⊢
  obtain ⟨l, hl, m, hleads, hm, hchanged⟩ := h
  exact ⟨l, hl, m, hleads, hm,
    hchanged.imp_right fun ⟨time, htime, hlt⟩ ↦ ⟨time, htime, Nat.lt_of_le_of_lt hle hlt⟩⟩

/-- A path stands for the location that it leads to or, if it leads nowhere, for the one that it spells. -/
def StandsFor (s : FileStore) (p : Path) (l : Location) : Prop :=
  s.canonical? p = some l ∨ s.canonical? p = none ∧ Location.ofPath? p = some l

theorem key?_eq_some_iff : key? s p = some l ↔ StandsFor s p l := by
  rw [key?, StandsFor]
  cases s.canonical? p <;> simp

/-- What has to be made again has to be made again with everything that leads to it. -/
theorem needsRebuild_of_leads {q : Path} {reference : Time} (hp : StandsFor s p l)
    (hq : StandsFor s q m) (hleads : g.Leads l m) (h : g.needsRebuild s q reference = true) :
    g.needsRebuild s p reference = true := by
  rw [needsRebuild_eq_true_iff] at h ⊢
  obtain ⟨m', hm', k, hk, hchanged⟩ := h
  obtain rfl := Option.some.inj ((key?_eq_some_iff.2 hq).symm.trans hm')
  exact ⟨l, key?_eq_some_iff.2 hp, k, hleads.trans hk, hchanged⟩

/-- Asking a graph, whatever it is like, is a search that ends and looks at no node twice. The answer is
whether the file is a node and leads to a node that is newer than the time, or is gone. So what has changed
after a time has changed after every earlier one, a change of a file is one of every file that leads to it,
and files that lead to each other get the same answer. -/
theorem needsRebuild_iff_leads (g : Graph) (s : FileStore) (p : Path) (reference : Time) :
    (∃ examined,
      (∀ other answer, Asking g (changedAfter s reference) [] (key? s p).toList other answer ↔
        other = examined ∧ answer = g.needsRebuild s p reference) ∧
      examined.Nodup ∧ ∀ l ∈ examined, l ∈ g.locations) ∧
    (g.needsRebuild s p reference = true ↔
      ∃ l, StandsFor s p l ∧ l ∈ g.locations ∧ ∃ m, g.Leads l m ∧ m ∈ g.locations ∧
        (s.modified? m.path = none ∨ ∃ time, s.modified? m.path = some time ∧ reference < time)) ∧
    (∀ earlier ≤ reference, g.needsRebuild s p reference = true →
      g.needsRebuild s p earlier = true) ∧
    (∀ q l m, StandsFor s p l → StandsFor s q m → g.Leads l m →
      g.needsRebuild s q reference = true → g.needsRebuild s p reference = true) ∧
    ∀ q l m, StandsFor s p l → StandsFor s q m → g.Leads l m → g.Leads m l →
      g.needsRebuild s p reference = g.needsRebuild s q reference := by
  refine ⟨?_, ?_, fun earlier hle ↦ needsRebuild_of_later hle, fun q l m ↦ needsRebuild_of_leads,
    fun q l m hp hq hlm hml ↦ ?_⟩
  · obtain ⟨examined, hasking⟩ := exists_asking g (changedAfter s reference) [] (key? s p).toList
    obtain ⟨hnodup, hnodes⟩ := hasking.nodup
    have hanswer : g.reaches (changedAfter s reference) [] (key? s p).toList =
        g.needsRebuild s p reference := by
      rw [needsRebuild]
      cases key? s p with
      | none => rw [Option.toList_none, reaches]
      | some l => rfl
    rw [hanswer] at hasking
    refine ⟨examined, fun other answer ↦ ⟨fun h ↦ h.unique hasking, ?_⟩, hnodup,
      fun l hl ↦ (hnodes l hl).2⟩
    rintro ⟨rfl, rfl⟩
    exact hasking
  · rw [needsRebuild_eq_true_iff]
    constructor
    · rintro ⟨l, hl, m, hleads, hm, hchanged⟩
      exact ⟨l, key?_eq_some_iff.1 hl, hleads.mem_locations hm, m, hleads, hm,
        changedAfter_eq_true_iff.1 hchanged⟩
    · rintro ⟨l, hl, -, m, hleads, hm, hchanged⟩
      exact ⟨l, key?_eq_some_iff.2 hl, m, hleads, hm, changedAfter_eq_true_iff.2 hchanged⟩
  · rw [Bool.eq_iff_iff]
    exact ⟨needsRebuild_of_leads hq hp hml, needsRebuild_of_leads hp hq hlm⟩

/-- A source and two headers that include each other, one of which includes a file that is no node. -/
def cyclicGraph : Graph where
  nodes := [(⟨["a.c"]⟩, [⟨["b.h"]⟩]), (⟨["b.h"]⟩, [⟨["c.h"]⟩]),
    (⟨["c.h"]⟩, [⟨["b.h"]⟩, ⟨["d.h"]⟩])]

/-- The files of the graph, of which the second header has been changed last. -/
def changedHeader : FileStore where
  entries := [(.root, .folder 0), (⟨["a.c"]⟩, .file .empty false 10),
    (⟨["b.h"]⟩, .file .empty false 10), (⟨["c.h"]⟩, .file .empty false 30)]
  clock := 40

/-- The change of one header of the cycle is one of the other header and of the source. -/
theorem needsRebuild_iff_leads_of_cyclicGraph :
    changedHeader.canonical? ⟨"/./b.h"⟩ = some ⟨["b.h"]⟩ ∧
      cyclicGraph.Leads ⟨["a.c"]⟩ ⟨["b.h"]⟩ ∧
      cyclicGraph.needsRebuild changedHeader ⟨"/c.h"⟩ 20 = true ∧
      cyclicGraph.needsRebuild changedHeader ⟨"/./b.h"⟩ 20 = true ∧
      cyclicGraph.needsRebuild changedHeader ⟨"/a.c"⟩ 15 = true := by
  have hsource : StandsFor changedHeader ⟨"/a.c"⟩ ⟨["a.c"]⟩ := .inl (by decide +kernel)
  have hfirst : changedHeader.canonical? ⟨"/./b.h"⟩ = some ⟨["b.h"]⟩ := by decide +kernel
  have hsecond : StandsFor changedHeader ⟨"/c.h"⟩ ⟨["c.h"]⟩ := .inl (by decide +kernel)
  have hentry : cyclicGraph.Leads ⟨["a.c"]⟩ ⟨["b.h"]⟩ := .single ⟨_, rfl, by decide⟩
  have hback : cyclicGraph.Leads ⟨["c.h"]⟩ ⟨["b.h"]⟩ := .single ⟨_, rfl, by decide⟩
  have hforth : cyclicGraph.Leads ⟨["b.h"]⟩ ⟨["c.h"]⟩ := .single ⟨_, rfl, by decide⟩
  obtain ⟨-, hiff, -, -, hcycle⟩ := needsRebuild_iff_leads cyclicGraph changedHeader ⟨"/c.h"⟩ 20
  have hchanged := hiff.2 ⟨_, hsecond, by decide, _, .refl, by decide,
    .inr ⟨30, by decide +kernel, by decide⟩⟩
  have hother := (hcycle _ _ _ hsecond (.inl hfirst) hback hforth).symm.trans hchanged
  obtain ⟨-, -, hantitone, hincluder, -⟩ :=
    needsRebuild_iff_leads cyclicGraph changedHeader ⟨"/a.c"⟩ 20
  have habove := hincluder _ _ _ hsource (.inl hfirst) hentry hother
  exact ⟨hfirst, hentry, hchanged, hother, hantitone 15 (by decide) habove⟩

end Rebuild.Include.Graph
