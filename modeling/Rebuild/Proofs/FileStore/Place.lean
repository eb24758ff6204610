import Mathlib.Data.List.Infix
import Rebuild.Proofs.FileStore.Alike
import Rebuild.Proofs.Path.Ancestors

/-!
# Places that paths are made for

A path to something that is to be made often leads through folders that are to be made as well. It
has a *place* all the same, if it goes on from a folder that is there by ordinary names and through
no link. `createFolders` makes the way to such a place, unless something that is no folder is in the
way, and what is at the place is then found by the path.
-/

namespace Rebuild

/-- A location and those around it, the outermost first. -/
def Location.around (l : Location) : List Location :=
  l.names.inits.map Location.mk

namespace Location

variable {l x y : Location} {name : String}

theorem mem_around : x ∈ l.around ↔ x.names <+: l.names := by
  rw [around, List.mem_map]
  constructor
  · rintro ⟨names, hnames, rfl⟩
    exact (List.mem_inits _ _).1 hnames
  · intro h
    exact ⟨x.names, (List.mem_inits _ _).2 h, rfl⟩

theorem self_mem_around (l : Location) : l ∈ l.around :=
  mem_around.2 List.prefix_rfl

theorem mem_around_trans (hxy : x ∈ y.around) (hyl : y ∈ l.around) : x ∈ l.around :=
  mem_around.2 ((mem_around.1 hxy).trans (mem_around.1 hyl))

theorem mem_around_child : x ∈ (l.child name).around ↔ x = l.child name ∨ x ∈ l.around := by
  rw [mem_around, mem_around, names_child, List.prefix_concat_iff]
  refine or_congr_left ⟨fun h ↦ ?_, fun h ↦ by rw [h, names_child]⟩
  cases x
  exact congrArg mk h

theorem child_not_mem_around (l : Location) (name : String) : l.child name ∉ l.around := by
  intro h
  have hle := (mem_around.1 h).length_le
  rw [names_child, List.length_append] at hle
  exact Nat.not_succ_le_self _ hle

theorem parent_mem_around (l : Location) : l.parent ∈ l.around :=
  mem_around.2 (List.dropLast_prefix _)

theorem descend_mem_around {names before : List String} (h : before <+: names) :
    l.descend before ∈ (l.descend names).around :=
  mem_around.2 ((List.prefix_append_right_inj _).2 h)

/-- What is around a place below a location is around the location, or on the way from there. -/
theorem mem_around_descend {names : List String} (h : x ∈ (l.descend names).around) :
    x ∈ l.around ∨ ∃ before, before <+: names ∧ x = l.descend before := by
  have hx := mem_around.1 h
  rcases List.prefix_or_prefix_of_prefix hx (List.prefix_append l.names names) with hl | hl
  · exact Or.inl (mem_around.2 hl)
  · obtain ⟨before, hbefore⟩ := hl
    refine Or.inr ⟨before, ?_, ?_⟩
    · rw [← hbefore] at hx
      exact (List.prefix_append_right_inj _).1 hx
    · cases x
      exact congrArg mk hbefore.symm

end Location

namespace FileStore

variable {s s' : FileStore} {l x base : Location} {e : Entry} {p : Path}
variable {name : String} {names rest segments : List String} {followLast : Bool}

/-! ### Being in the way -/

/-- Whether there is something at a location that is no folder. -/
def bars (s : FileStore) (l : Location) : Bool :=
  (s.find? l).any fun e ↦ !e.isFolder

/-- Why the way to a location cannot be made. -/
def obstacle (s : FileStore) (l : Location) : Option FileError :=
  if s.bars l then some .alreadyExists
  else if ∃ x ∈ l.around, s.bars x = true then some .notAFolder
  else none

theorem bars_eq_false_iff : s.bars l = false ↔ s.find? l = none ∨ s.HasFolder l := by
  rw [bars, HasFolder]
  rcases s.find? l with - | e
  · simp
  · cases e <;> simp [Entry.isFolder]

theorem obstacle_eq_none_iff :
    s.obstacle l = none ↔ ∀ x ∈ l.around, s.find? x = none ∨ s.HasFolder x := by
  simp only [← bars_eq_false_iff]
  rw [obstacle]
  constructor
  · intro h
    split at h
    · cases h
    split at h
    · cases h
    rename_i hnot
    exact fun x hx ↦ Bool.eq_false_iff.2 fun hbars ↦ hnot ⟨x, hx, hbars⟩
  · intro h
    rw [h l l.self_mem_around, if_neg (by decide), if_neg]
    rintro ⟨x, hx, hbars⟩
    rw [h x hx] at hbars
    cases hbars

theorem obstacle_ne_none_of_bars (hx : x ∈ l.around) (hbars : s.bars x = true) :
    s.obstacle l ≠ none := by
  intro h
  rw [bars_eq_false_iff.2 (obstacle_eq_none_iff.1 h x hx)] at hbars
  cases hbars

theorem obstacle_congr (h : ∀ x ∈ l.around, s.bars x = s'.bars x) : s.obstacle l = s'.obstacle l := by
  have hany : (∃ x ∈ l.around, s.bars x = true) ↔ ∃ x ∈ l.around, s'.bars x = true :=
    exists_congr fun x ↦ and_congr_right fun hx ↦ by rw [h x hx]
  rw [obstacle, obstacle, h l l.self_mem_around]
  simp only [hany]

/-- Everything around a folder is a folder. -/
theorem WellFormed.hasFolder_around (hs : s.WellFormed) (h : s.HasFolder l) (hx : x ∈ l.around) :
    s.HasFolder x := by
  obtain ⟨others, hothers⟩ := Location.mem_around.1 hx
  rcases others with - | ⟨name, others⟩
  · rw [List.append_nil] at hothers
    have hx : x = l := by
      cases x
      exact congrArg Location.mk hothers
    exact hx ▸ h
  · exact hs.hasFolder_root_descend hothers.symm h.isSome

/-- Nothing is below what is no folder. -/
theorem WellFormed.find?_eq_none_of_around (hs : s.WellFormed) (hx : x ∈ l.around) (hne : x ≠ l)
    (hnot : ¬s.HasFolder x) : s.find? l = none := by
  obtain ⟨others, hothers⟩ := Location.mem_around.1 hx
  rcases others with - | ⟨name, others⟩
  · rw [List.append_nil] at hothers
    cases x
    exact absurd (congrArg Location.mk hothers) hne
  · by_contra hsome
    exact hnot (hs.hasFolder_root_descend hothers.symm (Option.isSome_iff_ne_none.2 hsome))

theorem WellFormed.find?_child_eq_none (hs : s.WellFormed) (h : ¬s.HasFolder l) (name : String) :
    s.find? (l.child name) = none := by
  refine hs.find?_eq_none_of_around (Location.mem_around_child.2 (Or.inr l.self_mem_around)) ?_ h
  intro heq
  exact l.child_not_mem_around name (heq ▸ l.self_mem_around)

theorem WellFormed.obstacle_of_hasFolder (hs : s.WellFormed) (h : s.HasFolder l) :
    s.obstacle l = none :=
  obstacle_eq_none_iff.2 fun _ hx ↦ Or.inr (hs.hasFolder_around h hx)

/-- Nothing is in the way behind a name that is missing in a folder. -/
theorem WellFormed.obstacle_of_missing (hs : s.WellFormed) (h : s.HasFolder l)
    (hfind : s.find? (l.child name) = none) (names : List String) :
    s.obstacle ((l.child name).descend names) = none := by
  have hfree : ¬s.HasFolder (l.child name) := by
    rintro ⟨time, hfolder⟩
    rw [hfind] at hfolder
    cases hfolder
  refine obstacle_eq_none_iff.2 fun x hx ↦ ?_
  by_cases heq : x = l.child name
  · exact Or.inl (heq ▸ hfind)
  rcases Location.mem_around_descend hx with hx | ⟨before, -, rfl⟩
  · exact Or.inr (hs.hasFolder_around h ((Location.mem_around_child.1 hx).resolve_left heq))
  · refine Or.inl (hs.find?_eq_none_of_around ?_ (Ne.symm heq) hfree)
    exact Location.mem_around.2 (List.prefix_append _ _)

/-- What is in the way to a folder is in the way to everything in it. -/
theorem WellFormed.obstacle_child (hs : s.WellFormed) (h : ¬s.HasFolder l) (name : String) :
    s.obstacle (l.child name) = (s.obstacle l).map fun _ ↦ .notAFolder := by
  have hfree : s.bars (l.child name) = false :=
    bars_eq_false_iff.2 (Or.inl (hs.find?_child_eq_none h name))
  have hany : (∃ x ∈ (l.child name).around, s.bars x = true) ↔ ∃ x ∈ l.around, s.bars x = true := by
    constructor
    · rintro ⟨x, hx, hbars⟩
      rcases Location.mem_around_child.1 hx with rfl | hx
      · rw [hfree] at hbars
        cases hbars
      · exact ⟨x, hx, hbars⟩
    · rintro ⟨x, hx, hbars⟩
      exact ⟨x, Location.mem_around_child.2 (Or.inr hx), hbars⟩
  rw [obstacle, hfree, if_neg (by decide), obstacle]
  simp only [hany]
  by_cases hl : s.bars l = true
  · rw [if_pos ⟨l, l.self_mem_around, hl⟩, if_pos hl]
    rfl
  · rw [if_neg hl]
    split <;> rfl

/-! ### The way to a place -/

/-- The first segments of a path lead to a folder, and the names behind them are ordinary names that
pass no link, whether there is something at them or not. -/
structure Way (s : FileStore) (p : Path) (segments : List String) (base : Location)
    (names : List String) : Prop where
  /-- The path is made of the segments and the names. -/
  body : p.body = segments ++ names
  /-- The segments lead to the folder. -/
  around : s.follow true maxLinks (if p.isAbsolute then .root else s.current) segments =
    .ok (.existing base)
  /-- The folder is there. -/
  folder : s.HasFolder base
  /-- The names are ordinary. -/
  entryName : ∀ name ∈ names, EntryName name
  /-- No link is passed. -/
  no_link : ∀ before, before <+: names → ∀ target, s.find? (base.descend before) ≠ some (.link target)
  /-- The path can be given to the system. -/
  no_nul : p.text.toList.contains '\x00' = false
  /-- It is not too long. -/
  short : tooLong p = false

/-- A path leads to a place, or would if all on the way were made. -/
def Placed (s : FileStore) (p : Path) (l : Location) : Prop :=
  ∃ segments base names, s.Way p segments base names ∧ names ≠ [] ∧ l = base.descend names

theorem byteLength_prefix_le {cs others : List Char} (h : cs <+: others) :
    Text.byteLength cs ≤ Text.byteLength others := by
  obtain ⟨rest, rfl⟩ := h
  induction cs with
  | nil => exact Nat.zero_le _
  | cons c cs ih => exact Nat.add_le_add_left ih _

theorem no_nul_ofBody_first (h : p.body = segments ++ names)
    (hp : p.text.toList.contains '\x00' = false) :
    (Path.ofBody p.isAbsolute segments).text.toList.contains '\x00' = false := by
  rw [← Bool.not_eq_true, List.contains_iff_mem] at hp ⊢
  exact fun hc ↦ hp ((Path.toList_ofBody_first h).subset hc)

theorem tooLong_ofBody_first (h : p.body = segments ++ names) (hp : tooLong p = false) :
    tooLong (Path.ofBody p.isAbsolute segments) = false := by
  have hle := byteLength_prefix_le (Path.toList_ofBody_first h)
  rw [tooLong, decide_eq_false_iff_not] at hp ⊢
  omega

/-- Where names lead that pass something missing or something that is no folder. -/
theorem WellFormed.followWith_of_not_hasFolder (hs : s.WellFormed)
    {pass : Location → List String → Except FileError Destination} {here : Location}
    {rest : List String} (hhere : s.HasFolder here) (hnames : ∀ name ∈ names, EntryName name)
    (hlink : ∀ before, before <+: names → ∀ target,
      s.find? (here.descend before) ≠ some (.link target))
    (hrest : ∃ name ∈ rest, name ≠ "") (hnot : ¬s.HasFolder (here.descend names)) :
    s.followWith followLast pass here (names ++ rest) =
      .error (if (s.obstacle (here.descend names)).isSome then .notAFolder else .notFound) := by
  -- by induction on the names: the first one that is no folder decides
  induction names generalizing here with
  | nil =>
    rw [Location.descend_nil] at hnot
    exact absurd hhere hnot
  | cons name names ih =>
    have hname := hnames name List.mem_cons_self
    have hhead : (here.child name) ∈ (here.descend (name :: names)).around := by
      rw [Location.descend_cons]
      exact Location.mem_around.2 (List.prefix_append _ _)
    rw [List.cons_append, followWith_cons, pace_name hname]
    rcases hfind : s.find? (here.child name) with - | ⟨content, executable, time⟩ | time | target
    · have hmore : ¬((names ++ rest).all (· = "") = true) := by
        obtain ⟨other, hother, hne⟩ := hrest
        intro hall
        exact hne (of_decide_eq_true
          (List.all_eq_true.1 hall other (List.mem_append_right _ hother)))
      have hnone : s.obstacle (here.descend (name :: names)) = none := by
        rw [Location.descend_cons]
        exact hs.obstacle_of_missing hhere hfind names
      simp only [hnone, if_neg hmore, Option.isSome_none, Bool.false_eq_true, if_false]
    · have hbars : s.obstacle (here.descend (name :: names)) ≠ none :=
        obstacle_ne_none_of_bars hhead (by rw [bars, hfind]; rfl)
      have hmore : (names ++ rest).isEmpty = false := by
        obtain ⟨other, hother, -⟩ := hrest
        simp [List.ne_nil_of_mem hother]
      simp only [hmore, Bool.false_eq_true, if_false, Option.isSome_iff_ne_none.2 hbars, if_true]
    · rw [Location.descend_cons] at hnot ⊢
      refine ih ⟨time, hfind⟩ (fun name hname ↦ hnames name (List.mem_cons_of_mem _ hname)) ?_ hnot
      intro before hbefore target
      have := hlink (name :: before) ((List.prefix_cons_inj name).2 hbefore) target
      rwa [Location.descend_cons] at this
    · have := hlink [name] (by simp) target
      rw [Location.descend_cons, Location.descend_nil] at this
      exact absurd hfind this

namespace Way

/-- The first names of a way are a way. -/
theorem take (h : s.Way p segments base (names ++ rest)) (hne : names ≠ []) :
    s.Way (Path.ofBody p.isAbsolute (segments ++ names)) segments base names := by
  have hbody : p.body = (segments ++ names) ++ rest := by rw [h.body, List.append_assoc]
  constructor
  case body => exact Path.body_ofBody_first hbody (by simp [hne])
  case around =>
    rw [Path.isAbsolute_ofBody_first hbody]
    exact h.around
  case folder => exact h.folder
  case entryName => exact fun name hname ↦ h.entryName name (List.mem_append_left _ hname)
  case no_link =>
    exact fun before hbefore ↦ h.no_link before (hbefore.trans (List.prefix_append _ _))
  case no_nul => exact no_nul_ofBody_first hbody h.no_nul
  case short => exact tooLong_ofBody_first hbody h.short

theorem isEmpty_text (h : s.Way p segments base names) (hne : names ≠ []) :
    p.text.isEmpty = false := by
  rw [← Bool.not_eq_true, String.isEmpty_iff]
  intro hempty
  have hbody := Path.body_of_text_eq_empty hempty
  obtain ⟨others, name, rfl⟩ := List.eq_nil_or_concat names |>.resolve_left hne
  rw [h.body, List.concat_eq_append, ← List.append_assoc] at hbody
  have hlast : name = "" := by simpa using congrArg List.getLast? hbody
  exact (h.entryName name (by simp)).ne_empty hlast

/-- A way is followed from the folder in which it begins. -/
theorem resolve (h : s.Way p segments base names) (hne : names ≠ []) (followLast : Bool) :
    ∃ pass, s.resolve followLast p = s.followWith followLast pass base names := by
  obtain ⟨left, hleft⟩ := follow_append h.folder followLast h.around
  obtain ⟨pass, hpass⟩ := follow_eq_followWith s followLast left
  refine ⟨pass, ?_⟩
  rw [FileStore.resolve, lead, h.no_nul, h.short, h.isEmpty_text hne]
  simp only [Bool.false_eq_true, if_false]
  rw [h.body, hleft names hne, hpass]

/-- What a way leads to from a folder that is there. -/
theorem resolve_of_hasFolder (h : s.Way p segments base (names ++ [name])) (hs : s.WellFormed)
    (hl : s.HasFolder (base.descend names)) (followLast : Bool) :
    s.resolve followLast p =
      .ok (if (s.find? ((base.descend names).child name)).isSome
        then .existing ((base.descend names).child name)
        else .vacant (base.descend names) name false) := by
  obtain ⟨pass, hpass⟩ := h.resolve (by simp) followLast
  have hnames := h.entryName
  rw [hpass, followWith_descend fun name hname ↦ hnames name (List.mem_append_left _ hname)]
  · rw [followWith_cons, pace_name (hnames name (by simp))]
    rcases hfind : s.find? ((base.descend names).child name) with
      - | ⟨content, executable, time⟩ | time | target
    · rfl
    · rfl
    · rfl
    · have := h.no_link _ List.prefix_rfl target
      rw [Location.descend_append, Location.descend_cons, Location.descend_nil] at this
      exact absurd hfind this
  · intro before after hsplit _
    exact hs.hasFolder_around hl (Location.descend_mem_around ⟨after, hsplit.symm⟩)

theorem stat_of_hasFolder (h : s.Way p segments base (names ++ [name])) (hs : s.WellFormed)
    (hl : s.HasFolder (base.descend names)) :
    s.stat p = (s.find? ((base.descend names).child name)).elim (.error .notFound) .ok := by
  rw [stat, locate, h.resolve_of_hasFolder hs hl]
  cases hfind : s.find? ((base.descend names).child name) with
  | none => rfl
  | some e =>
    show (s.arrive (.existing _)).map _ = _
    rw [arrive, hfind]
    rfl

/-- What a way leads to from something missing, or from something that is no folder. -/
theorem resolve_of_not_hasFolder (h : s.Way p segments base (names ++ [name]))
    (hs : s.WellFormed) (hl : ¬s.HasFolder (base.descend names)) (followLast : Bool) :
    s.resolve followLast p =
      .error (if (s.obstacle (base.descend names)).isSome then .notAFolder else .notFound) := by
  obtain ⟨pass, hpass⟩ := h.resolve (by simp) followLast
  have hnames := h.entryName
  rw [hpass]
  refine hs.followWith_of_not_hasFolder h.folder
    (fun name hname ↦ hnames name (List.mem_append_left _ hname))
    (fun before hbefore ↦ h.no_link before (hbefore.trans (List.prefix_append _ _)))
    ⟨name, List.mem_singleton_self name, ?_⟩ hl
  exact (hnames name (by simp)).ne_empty

end Way

/-! ### Making the way -/

/-- The store `s'` is `s` with folders on the way to `l`, and at `l` itself. -/
structure WayMade (s : FileStore) (l : Location) (s' : FileStore) : Prop where
  /-- Relative paths begin in the same folder. -/
  current : s'.current = s.current
  /-- All on the way is a folder. -/
  folder : ∀ x ∈ l.around, s'.HasFolder x
  /-- What is not on the way is as it was, and what is on it was missing or a folder. -/
  kept : ∀ x, s'.find? x = s.find? x ∨ x ∈ l.around ∧ (s.find? x = none ∨ s.HasFolder x)

namespace WayMade

theorem find?_of_not_mem (h : s.WayMade l s') (hx : x ∉ l.around) : s'.find? x = s.find? x :=
  (h.kept x).resolve_right fun hmade ↦ hx hmade.1

/-- There are no other new entries than folders on the way. -/
theorem find?_cases (h : s.WayMade l s') (x : Location) :
    s'.find? x = s.find? x ∨ s'.HasFolder x ∧ (s.find? x = none ∨ s.HasFolder x) :=
  (h.kept x).imp_right fun ⟨hx, hmade⟩ ↦ ⟨h.folder x hx, hmade⟩

theorem keeps (h : s.WayMade l s') : s.Keeps s' := by
  refine ⟨h.current, fun x kind hkind ↦ ?_⟩
  rcases h.find?_cases x with hx | ⟨hfolder, hnone | hx⟩
  · rwa [kind?, hx]
  · rw [kind?, hnone] at hkind
    cases hkind
  · rw [hasFolder_iff_kind?] at hfolder hx
    rw [← hkind, hx, hfolder]

theorem no_link (h : s.WayMade l s') {target : String} (hx : s'.find? x = some (.link target)) :
    s.find? x = some (.link target) := by
  rcases h.find?_cases x with hkept | ⟨⟨time, hfolder⟩, -⟩
  · rwa [hkept] at hx
  · rw [hfolder] at hx
    cases hx

theorem wellFormed (h : s.WayMade l s') (hs : s.WellFormed)
    (hnames : ∀ name ∈ l.names, EntryName name) : s'.WellFormed := by
  have hisSome {x : Location} (hx : (s'.find? x).isSome) :
      (s.find? x).isSome ∨ x ∈ l.around := by
    rcases h.kept x with hkept | ⟨hx, -⟩
    · exact Or.inl (hkept ▸ hx)
    · exact Or.inr hx
  constructor
  case root => exact h.keeps.hasFolder hs.root
  case current => exact h.current ▸ h.keeps.hasFolder hs.current
  case parent =>
    intro x hx
    rcases hisSome hx with hx | hx
    · exact h.keeps.hasFolder (hs.parent x hx)
    · exact h.folder _ (Location.mem_around_trans x.parent_mem_around hx)
  case names =>
    intro x hx name hname
    rcases hisSome hx with hx | hx
    · exact hs.names x hx name hname
    · exact hnames name ((Location.mem_around.1 hx).subset hname)

end WayMade

/-- Nothing has to be made where there is a folder. -/
theorem WellFormed.wayMade_of_hasFolder (hs : s.WellFormed) (h : s.HasFolder l) : s.WayMade l s :=
  ⟨rfl, fun _ hx ↦ hs.hasFolder_around h hx, fun _ ↦ Or.inl rfl⟩

/-- A way that is made to a folder is made to a name in it when the name becomes a folder. -/
theorem WayMade.add (h : s.WayMade l s')
    (hfree : s.find? (l.child name) = none) (time : Time) :
    s.WayMade (l.child name) (s'.add l name (.folder time)) := by
  constructor
  case current => rw [current_add, h.current]
  case folder =>
    intro x hx
    by_cases heq : x = l.child name
    · exact ⟨time, by rw [heq, find?_add_self]⟩
    · exact (h.folder x ((Location.mem_around_child.1 hx).resolve_left heq)).add heq
  case kept =>
    intro x
    by_cases hchild : x = l.child name
    · exact Or.inr ⟨hchild ▸ Location.self_mem_around _, Or.inl (hchild ▸ hfree)⟩
    by_cases hl : x = l
    · have hmem : x ∈ l.around := hl ▸ l.self_mem_around
      have hwas : s.find? x = none ∨ s.HasFolder x := by
        rcases h.find?_cases x with hkept | ⟨-, hwas⟩
        · obtain ⟨time, hfolder⟩ := h.folder x hmem
          exact Or.inr ⟨time, by rw [← hkept, hfolder]⟩
        · exact hwas
      exact Or.inr ⟨Location.mem_around_child.2 (Or.inr hmem), hwas⟩
    · rw [find?_add_of_ne hchild hl]
      exact (h.kept x).imp_right fun ⟨hx, hwas⟩ ↦ ⟨Location.mem_around_child.2 (Or.inr hx), hwas⟩

/-- A way is still one where all is kept and no link has come. -/
theorem Way.of_keeps (h : s.Way p segments base names) (hkeeps : s.Keeps s')
    (hlink : ∀ before, before <+: names → ∀ target,
      s'.find? (base.descend before) ≠ some (.link target)) : s'.Way p segments base names := by
  refine ⟨h.body, ?_, hkeeps.hasFolder h.folder, h.entryName, hlink, h.no_nul, h.short⟩
  rw [hkeeps.current]
  exact hkeeps.follow_eq h.around

theorem Way.of_wayMade (h : s.Way p segments base names) (hmade : s.WayMade l s') :
    s'.Way p segments base names :=
  h.of_keeps hmade.keeps fun before hbefore target hlink ↦
    h.no_link before hbefore target (hmade.no_link hlink)

/-- A folder that is there needs not be made. -/
theorem createThrough_of_hasFolder {around : List Path} (hbase : s.HasFolder base)
    (hstop : s.resolve false p = .ok (.existing l)) (hp : s.resolve true p = .ok (.existing base)) :
    s.createThrough (p :: around) = (.ok (), s) := by
  obtain ⟨time, hbase⟩ := hbase
  have hfolder : s.isFolder p = true := by
    rw [isFolder, stat, locate, hp]
    show ((s.arrive (.existing base)).map _).toOption.any _ = true
    rw [arrive, hbase]
    rfl
  rw [FileStore.createThrough, FileStore.createFolder, hstop]
  split <;> rfl

/-- A folder that the first segments of a path lead to needs not be made. -/
theorem WellFormed.createThrough_start (hs : s.WellFormed) (hp : p.body = segments ++ rest)
    (haround : s.follow true maxLinks (if p.isAbsolute then .root else s.current) segments =
      .ok (.existing base))
    (hfolder : s.HasFolder base) (hnul : p.text.toList.contains '\x00' = false)
    (hshort : tooLong p = false) :
    s.createThrough (Path.ancestorsOf p.isAbsolute segments) = (.ok (), s) := by
  obtain ⟨cut, hcut, hmatters⟩ := Path.exists_dropEnd_append (!p.isAbsolute) segments
  by_cases hkept : Path.dropEnd (!p.isAbsolute) segments = []
  · rw [Path.ancestorsOf_of_dropEnd_nil hkept]
    cases p.isAbsolute with
    | false => rfl
    | true => exact createThrough_of_hasFolder hs.root (l := .root) rfl rfl
  · have hbody : p.body = Path.dropEnd (!p.isAbsolute) segments ++ (cut ++ rest) := by
      rw [← List.append_assoc, hcut, hp]
    rw [← hcut] at haround
    have hfollow := follow_cut hmatters haround
    obtain ⟨l, hstop, -⟩ := follow_stop hfollow
    have htext : (Path.ofBody p.isAbsolute (Path.dropEnd (!p.isAbsolute) segments)).text.isEmpty =
        false := by
      rw [← Bool.not_eq_true, String.isEmpty_iff]
      intro hempty
      -- an empty text is one empty segment, which would have been cut
      have hone := Path.body_of_text_eq_empty hempty
      rw [Path.body_ofBody_first hbody hkept] at hone
      have hidle := Path.dropEnd_dropEnd (!p.isAbsolute) segments
      rw [hone] at hidle
      exact absurd hidle (by simp [Path.dropEnd, Path.mattersAt])
    have hresolve (followLast : Bool) (dest : Destination)
        (hdest : s.follow followLast maxLinks (if p.isAbsolute then .root else s.current)
          (Path.dropEnd (!p.isAbsolute) segments) = .ok dest) :
        s.resolve followLast (Path.ofBody p.isAbsolute (Path.dropEnd (!p.isAbsolute) segments)) =
          .ok dest := by
      rw [FileStore.resolve, lead, no_nul_ofBody_first hbody hnul,
        tooLong_ofBody_first hbody hshort, htext, Path.isAbsolute_ofBody_first hbody,
        Path.body_ofBody_first hbody hkept, hdest]
      rfl
    rw [Path.ancestorsOf_of_dropEnd rfl hkept]
    exact createThrough_of_hasFolder hfolder (hresolve false _ hstop) (hresolve true _ hfollow)

/-- The folder in which a way begins needs not be made. -/
theorem Way.createThrough_start (h : s.Way p segments base names) (hs : s.WellFormed) :
    s.createThrough (Path.ancestorsOf p.isAbsolute segments) = (.ok (), s) :=
  hs.createThrough_start h.body h.around h.folder h.no_nul h.short

/-- Making folders for the paths makes the way to a location, unless something is in the way. -/
def MakesWay (s : FileStore) (paths : List Path) (l : Location) : Prop :=
  match s.obstacle l with
  | some e => s.createThrough paths = (.error e, s)
  | none => ∃ made, s.WayMade l made ∧ s.createThrough paths = (.ok (), made)

/-- In a folder that is there, the way to a name is open if the name is free or a folder. -/
theorem Way.makesWay_of_hasFolder (h : s.Way p segments base (names ++ [name])) (hs : s.WellFormed)
    (hfolder : s.HasFolder (base.descend names)) (around : List Path) :
    s.MakesWay (p :: around) ((base.descend names).child name) := by
  have hcreate : s.createFolder p =
      if (s.find? ((base.descend names).child name)).isSome then .error .alreadyExists
      else .ok (s.add (base.descend names) name (.folder s.clock)) := by
    rw [createFolder, h.resolve_of_hasFolder hs hfolder]
    cases s.find? ((base.descend names).child name) <;> rfl
  rw [MakesWay, FileStore.createThrough, h.isEmpty_text (by simp), hcreate, isFolder,
    h.stat_of_hasFolder hs hfolder]
  simp only [Bool.false_eq_true, if_false]
  rcases hfind : s.find? ((base.descend names).child name) with
    - | ⟨content, executable, time⟩ | time | target
  · have hnone := hs.obstacle_of_missing hfolder hfind []
    rw [Location.descend_nil] at hnone
    rw [hnone]
    exact ⟨_, (hs.wayMade_of_hasFolder hfolder).add hfind _, rfl⟩
  · rw [obstacle, bars, hfind]
    rfl
  · have hthere : s.HasFolder ((base.descend names).child name) := ⟨time, hfind⟩
    rw [hs.obstacle_of_hasFolder hthere]
    exact ⟨s, hs.wayMade_of_hasFolder hthere, rfl⟩
  · have hlink := h.no_link _ List.prefix_rfl target
    rw [Location.descend_append, Location.descend_cons, Location.descend_nil] at hlink
    exact absurd hfind hlink

/-- Where the folder is not there, the way to a name in it is as open as the way to the folder. -/
theorem Way.makesWay_of_not_hasFolder (h : s.Way p segments base (names ++ [name]))
    (hs : s.WellFormed) (hfolder : ¬s.HasFolder (base.descend names)) {around : List Path}
    (haround : s.MakesWay around (base.descend names)) :
    s.MakesWay (p :: around) ((base.descend names).child name) := by
  have hresolve := h.resolve_of_not_hasFolder hs hfolder
  have hcreate : s.createFolder p =
      .error (if (s.obstacle (base.descend names)).isSome then .notAFolder else .notFound) := by
    rw [createFolder, hresolve]
  rw [MakesWay, FileStore.createThrough, h.isEmpty_text (by simp), hs.obstacle_child hfolder]
  simp only [Bool.false_eq_true, if_false]
  rw [MakesWay] at haround
  cases hobstacle : s.obstacle (base.descend names) with
  | some e =>
    rw [hobstacle] at hcreate hresolve
    rw [hcreate, isFolder, stat, locate, hresolve]
    rfl
  | none =>
    -- the folder is made from the paths behind, and then the name is tried once more
    rw [hobstacle] at hcreate haround
    obtain ⟨made, hmade, hthrough⟩ := haround
    have hnames : ∀ other ∈ (base.descend names).names, EntryName other := by
      intro other hother
      rcases List.mem_append.1 hother with hother | hother
      · exact hs.names base h.folder.isSome other hother
      · exact h.entryName other (List.mem_append_left _ hother)
    have hfree := hs.find?_child_eq_none hfolder name
    have hcreate' : made.createFolder p =
        .ok (made.add (base.descend names) name (.folder made.clock)) := by
      rw [createFolder, (h.of_wayMade hmade).resolve_of_hasFolder (hmade.wellFormed hs hnames)
        (hmade.folder _ (Location.self_mem_around _)),
        hmade.find?_of_not_mem (Location.child_not_mem_around _ _), hfree]
      rfl
    rw [hcreate, hthrough]
    simp only [Option.isSome_none, Bool.false_eq_true, if_false, hcreate', Option.map_none]
    exact ⟨_, hmade.add hfree _, rfl⟩

/-- The way to a folder is made, unless something is in the way. -/
theorem Way.createThrough (h : s.Way p segments base (names ++ rest)) (hs : s.WellFormed) :
    s.MakesWay (Path.ancestorsOf p.isAbsolute (segments ++ names)) (base.descend names) := by
  -- by induction on the names from the last one, as the paths begin with the innermost folder
  induction names using List.reverseRecOn generalizing rest with
  | nil =>
    rw [MakesWay, Location.descend_nil, hs.obstacle_of_hasFolder h.folder, List.append_nil]
    exact ⟨s, hs.wayMade_of_hasFolder h.folder, h.createThrough_start hs⟩
  | append_singleton names name ih =>
    have htake := h.take (by simp)
    have hthere : base.descend (names ++ [name]) = (base.descend names).child name := by
      rw [Location.descend_append, Location.descend_cons, Location.descend_nil]
    rw [List.append_assoc] at h
    rw [hthere, ← List.append_assoc,
      Path.ancestorsOf_append_name (h.entryName name (by simp)).segmentName, List.append_assoc]
    by_cases hfolder : s.HasFolder (base.descend names)
    · exact htake.makesWay_of_hasFolder hs hfolder _
    · exact htake.makesWay_of_not_hasFolder hs hfolder (ih h)

/-! ### Places -/

namespace Placed

/-- A place is a name in a folder, which the names of a way lead to. -/
theorem exists_way (h : s.Placed p l) : ∃ segments base names name,
    s.Way p segments base (names ++ [name]) ∧ l = (base.descend names).child name := by
  obtain ⟨segments, base, names, hway, hne, rfl⟩ := h
  obtain ⟨before, name, rfl⟩ := (List.eq_nil_or_concat names).resolve_left hne
  rw [List.concat_eq_append] at hway ⊢
  refine ⟨segments, base, before, name, hway, ?_⟩
  rw [Location.descend_append, Location.descend_cons, Location.descend_nil]

theorem not_mem_around_parent (h : s.Placed p l) : l ∉ l.parent.around := by
  obtain ⟨segments, base, names, name, -, rfl⟩ := h.exists_way
  rw [Location.parent_child]
  exact Location.child_not_mem_around _ _

theorem entryName (h : s.Placed p l) (hs : s.WellFormed) : ∀ name ∈ l.names, EntryName name := by
  obtain ⟨segments, base, names, hway, -, rfl⟩ := h
  intro name hname
  rcases List.mem_append.1 hname with hname | hname
  · exact hs.names base hway.folder.isSome name hname
  · exact hway.entryName name hname

theorem no_link (h : s.Placed p l) (hs : s.WellFormed) (hx : x ∈ l.around) (target : String) :
    s.find? x ≠ some (.link target) := by
  obtain ⟨segments, base, names, hway, -, rfl⟩ := h
  rcases Location.mem_around_descend hx with hx | ⟨before, hbefore, rfl⟩
  · obtain ⟨time, hfolder⟩ := hs.hasFolder_around hway.folder hx
    rw [hfolder]
    simp
  · exact hway.no_link before hbefore target

/-- A place is still one where all is kept and no link has come. -/
theorem of_keeps (h : s.Placed p l) (hkeeps : s.Keeps s')
    (hlink : ∀ x ∈ l.around, ∀ target, s'.find? x ≠ some (.link target)) : s'.Placed p l := by
  obtain ⟨segments, base, names, hway, hne, rfl⟩ := h
  refine ⟨segments, base, names, hway.of_keeps hkeeps fun before hbefore ↦ ?_, hne, rfl⟩
  exact hlink _ (Location.descend_mem_around hbefore)

/-- What is at a place is what the path leads to, if the folder of the place is there. -/
theorem stat_eq (h : s.Placed p l) (hs : s.WellFormed) (hfolder : s.HasFolder l.parent) :
    s.stat p = (s.find? l).elim (.error .notFound) .ok := by
  obtain ⟨segments, base, names, name, hway, rfl⟩ := h.exists_way
  rw [Location.parent_child] at hfolder
  exact hway.stat_of_hasFolder hs hfolder

theorem modified?_eq (h : s.Placed p l) (hs : s.WellFormed) (hfolder : s.HasFolder l.parent) :
    s.modified? p = (s.find? l).bind Entry.modified? := by
  rw [modified?, h.stat_eq hs hfolder]
  cases s.find? l <;> rfl

/-- The path of a place leads nowhere else. -/
theorem eq_of_resolve (h : s.Placed p l) (hs : s.WellFormed)
    (hx : s.resolve followLast p = .ok (.existing x)) : x = l := by
  obtain ⟨segments, base, names, name, hway, rfl⟩ := h.exists_way
  by_cases hfolder : s.HasFolder (base.descend names)
  · rw [hway.resolve_of_hasFolder hs hfolder] at hx
    split at hx <;> cases hx
    rfl
  · rw [hway.resolve_of_not_hasFolder hs hfolder] at hx
    cases hx

/-- The way to the folder of a place is made, unless something is in the way. -/
theorem createFolders (h : s.Placed p l) (hs : s.WellFormed) :
    ∃ folder, p.parent? = some folder ∧
      match s.obstacle l.parent with
      | some e => s.createFolders folder = (.error e, s)
      | none => ∃ made, s.WayMade l.parent made ∧ s.createFolders folder = (.ok (), made) := by
  obtain ⟨segments, base, names, name, hway, rfl⟩ := h.exists_way
  have hbody : p.body = (segments ++ names) ++ [name] := by rw [hway.body, List.append_assoc]
  have hname := hway.entryName name (by simp)
  refine ⟨_, Path.parent?_of_body hname.segmentName hbody, ?_⟩
  rw [Location.parent_child, FileStore.createFolders, Path.ancestors_ofBody hbody]
  exact hway.createThrough hs

end Placed

/-! ### Places that can be decided -/

/-- The location that the ordinary names of a path spell. -/
def namedPlace (p : Path) : Location :=
  ⟨p.names⟩

/-- Whether a path spells a place: it is a dot with ordinary names behind it, passes files and folders
only, and leads to no folder. -/
structure Spells (s : FileStore) (p : Path) : Prop where
  /-- The path is made of a dot and of names. -/
  body : p.body = "." :: p.names
  /-- There are names. -/
  names_ne : p.names ≠ []
  /-- The names are ordinary. -/
  entryName : ∀ name ∈ p.names, EntryName name
  /-- No link is passed. -/
  kinds : ∀ l ∈ (namedPlace p).around, (s.kind? l).all (· ∈ [.file, .folder])
  /-- It does not lead to a folder. -/
  no_folder : ¬s.HasFolder (namedPlace p)
  /-- The path can be given to the system. -/
  no_nul : p.text.toList.contains '\x00' = false
  /-- It is not too long. -/
  short : tooLong p = false

instance : Decidable (s.Spells p) :=
  decidable_of_iff
    (p.body = "." :: p.names ∧ p.names ≠ [] ∧ (∀ name ∈ p.names, EntryName name) ∧
      (∀ l ∈ (namedPlace p).around, (s.kind? l).all (· ∈ [.file, .folder])) ∧
      ¬s.HasFolder (namedPlace p) ∧ p.text.toList.contains '\x00' = false ∧ tooLong p = false)
    ⟨fun ⟨h1, h2, h3, h4, h5, h6, h7⟩ ↦ ⟨h1, h2, h3, h4, h5, h6, h7⟩,
      fun h ↦ ⟨h.body, h.names_ne, h.entryName, h.kinds, h.no_folder, h.no_nul, h.short⟩⟩

/-- A path that spells its place has that place. -/
theorem Spells.placed (h : s.Spells p) (hs : s.WellFormed) (hcurrent : s.current = .root) :
    s.Placed p (namedPlace p) := by
  have hplace (names : List String) : s.current.descend names = ⟨names⟩ := by
    rw [hcurrent]
    exact Location.root_descend ⟨names⟩
  refine ⟨["."], s.current, p.names, ?_, h.names_ne, (hplace _).symm⟩
  constructor
  case body => exact h.body
  case around =>
    rw [hcurrent, ite_self]
    rfl
  case folder => exact hs.current
  case entryName => exact h.entryName
  case no_link =>
    intro before hbefore target hlink
    have hmem : s.current.descend before ∈ (namedPlace p).around := by
      rw [hplace]
      exact Location.mem_around.2 hbefore
    have hkind := h.kinds _ hmem
    rw [kind?_eq_link_iff.2 hlink] at hkind
    simp at hkind
  case no_nul => exact h.no_nul
  case short => exact h.short

end FileStore

end Rebuild
