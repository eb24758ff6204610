import Rebuild.Proofs.FileStore.Follow
import Rebuild.Proofs.Include.Search

/-!
# What a file depends on

A file depends on itself and on what it includes, at any depth. `Included` says what a file includes
in terms of its text and of what exists, without any search; `Closure` is everything that a file
depends on.

In a graph that holds the file and is complete, asking for changes finds exactly the changes of what
the file depends on.
-/

namespace Rebuild.Include

variable {s : FileStore} {folders : List Path} {l m : Location}

/-- A path is the first of several that leads to something. -/
def FirstExisting (s : FileStore) (paths : List Path) (p : Path) : Prop :=
  ∃ before after, paths = before ++ p :: after ∧ s.pathExists p = true ∧
    ∀ q ∈ before, s.pathExists q = false

/-- A file includes what is at a location: it is text, one of its lines is a directive, and the
first existing path among those that the name stands for leads to the location. -/
def Included (s : FileStore) (folders : List Path) (l m : Location) : Prop :=
  ∃ text line name p, s.readText l.path = .ok text ∧
    line ∈ Text.lines text.toList ∧ parse? line = some name ∧
    FirstExisting s (l.parent.path.join ⟨String.ofList name⟩ ::
      folders.map (·.join ⟨String.ofList name⟩)) p ∧ s.canonical? p = some m

/-- A file depends on what is at a location. -/
def Closure (s : FileStore) (folders : List Path) (l m : Location) : Prop :=
  Relation.ReflTransGen (Included s folders) l m

theorem firstExisting?_eq_some_iff {paths : List Path} {p : Path} :
    firstExisting? s paths = some p ↔ FirstExisting s paths p := by
  rw [firstExisting?, List.find?_eq_some_iff_append, FirstExisting]
  constructor
  · rintro ⟨hp, before, after, heq, hbefore⟩
    exact ⟨before, after, heq, hp, fun q hq ↦ by simpa using hbefore q hq⟩
  · rintro ⟨before, after, heq, hp, hbefore⟩
    exact ⟨hp, before, after, heq, fun q hq ↦ by simpa using hbefore q hq⟩

theorem resolve?_eq_some_iff {folder : Path} {name : Path} :
    resolve? s folder folders name = some m ↔
      ∃ p, FirstExisting s (folder.join name :: folders.map (·.join name)) p ∧
        s.canonical? p = some m := by
  rw [resolve?, Option.bind_eq_some_iff]
  simp only [firstExisting?_eq_some_iff, List.map_cons]

/-- Scanning a file finds what it includes. -/
theorem includes_iff : Graph.Includes s folders l m ↔ Included s folders l m := by
  rw [Graph.Includes, scan]
  constructor
  · intro h
    split at h
    · rename_i text htext
      obtain ⟨path, hpath, hresolve⟩ := List.mem_filterMap.1 h
      obtain ⟨line, hline, hname⟩ := List.mem_filterMap.1 hpath
      obtain ⟨name, hparse, rfl⟩ := Option.map_eq_some_iff.1 hname
      obtain ⟨p, hfirst, hplace⟩ := resolve?_eq_some_iff.1 hresolve
      exact ⟨text, line, name, p, htext, hline, hparse, hfirst, hplace⟩
    · cases h
  · rintro ⟨text, line, name, p, htext, hline, hname, hfirst, hplace⟩
    rw [htext]
    refine List.mem_filterMap.2 ⟨⟨String.ofList name⟩, ?_, ?_⟩
    · exact List.mem_filterMap.2 ⟨line, hline, by rw [hname]; rfl⟩
    · exact resolve?_eq_some_iff.2 ⟨p, hfirst, hplace⟩

theorem includes_eq_included (s : FileStore) (folders : List Path) :
    Graph.Includes s folders = Included s folders := by
  funext l m
  exact propext includes_iff

/-- What a file depends on is there, and the path that spells its place leads to it. -/
theorem Closure.modified?_isSome (hs : s.WellFormed) {p : Path} (hp : s.canonical? p = some l)
    (h : Closure s folders l m) : (s.modified? m.path).isSome := by
  rcases Relation.ReflTransGen.cases_tail h with rfl | ⟨k, -, hlast⟩
  · exact hs.modified?_canonical hp
  · obtain ⟨-, -, -, q, -, -, -, -, hplace⟩ := hlast
    exact hs.modified?_canonical hplace

theorem changedAfter_iff {reference : Time} (h : (s.modified? l.path).isSome) :
    Graph.changedAfter s reference l = true ↔
      ∃ time, s.modified? l.path = some time ∧ reference < time := by
  obtain ⟨time, htime⟩ := Option.isSome_iff_exists.1 h
  simp [Graph.changedAfter, htime]

/-- Asking a complete graph about a file that it holds is asking what the file depends on. -/
theorem needsRebuild_iff (hs : s.WellFormed) {g : Graph} (hsound : Graph.Sound s folders g)
    (hclosed : Graph.Closed s folders g) {p : Path} (hp : s.canonical? p = some l)
    (hl : l ∈ g.locations) (reference : Time) :
    g.needsRebuild s p reference = true ↔
      ∃ m, Closure s folders l m ∧ ∃ time, s.modified? m.path = some time ∧ reference < time := by
  have hkey : Graph.key? s p = some l := by rw [Graph.key?, hp]
  rw [Graph.needsRebuild, hkey]
  show Graph.reaches g _ [] [l] = true ↔ _
  rw [Graph.reaches_iff hsound hclosed hl, includes_eq_included]
  constructor
  · rintro ⟨m, hm, htest⟩
    exact ⟨m, hm, (changedAfter_iff (Closure.modified?_isSome hs hp hm)).1 htest⟩
  · rintro ⟨m, hm, htime⟩
    exact ⟨m, hm, (changedAfter_iff (Closure.modified?_isSome hs hp hm)).2 htime⟩

end Rebuild.Include
