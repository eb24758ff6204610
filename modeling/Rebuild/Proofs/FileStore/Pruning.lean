import Rebuild.Proofs.FileStore.Listing
import Rebuild.Proofs.FileStore.Place

/-!
# Walks that leave something out

A walk lists the regular files that names lead to from its start (`Below`), as far as the test accepts every
path on the way (`mem_filesAt_iff`), and in the order of the names (`pairwise_names_filesAt`). A test that
refuses whatever is below something that it refuses can as well be asked afterwards (`mem_walk_iff`).

The order in which a store holds its entries does not matter to what is found in it (`find?_of_perm`).
-/

namespace Rebuild

namespace Path

variable {p : Path} {names : List String}

theorem names_joinNames (hnames : ∀ name ∈ names, SegmentName name) :
    (p.joinNames names).names = p.names ++ names := by
  rw [names_eq_filterMap, names_eq_filterMap, components_joinNames hnames, List.filterMap_append,
    NormalForm.filterMap_name?]

end Path

namespace FileStore

variable {s t : FileStore} {l : Location} {e : Entry} {p q : Path} {keep : Path → Bool}
variable {name : String} {names : List String}

/-! ### Names in order -/

/-- Names in a folder are listed in their order, each once. -/
theorem pairwise_lt_childNames (hdistinct : s.locations.Nodup) (l : Location) :
    (s.childNames l).Pairwise (· < ·) :=
  (pairwise_childNames s l).imp₂ (fun _ _ hle hne ↦ Std.lt_of_le_of_ne hle hne)
    (nodup_childNames hdistinct l)

/-! ### What is listed -/

/-- Names lead from a start to a regular file, whose folder has a path that is not too long. -/
structure Below (s : FileStore) (p : Path) (l : Location) (names : List String) : Prop where
  /-- There is a file. -/
  file : ∃ content executable time, s.find? (l.descend names) = some (.file content executable time)
  /-- The folder that it is in can be looked into. -/
  short : names ≠ [] → tooLong (p.joinNames names.dropLast) = false

theorem Below.entryName (h : s.Below p l names) (hs : s.WellFormed) : ∀ name ∈ names, EntryName name := by
  obtain ⟨content, executable, time, hfile⟩ := h.file
  exact fun name hname ↦ hs.names _ (Option.isSome_of_eq_some hfile) name (List.mem_append_right _ hname)

theorem Below.segmentName (h : s.Below p l names) (hs : s.WellFormed) :
    ∀ name ∈ names, Path.SegmentName name :=
  fun name hname ↦ (h.entryName hs name hname).segmentName

/-- Behind a path that is too long everything is. -/
theorem tooLong_joinNames (hnames : ∀ name ∈ names, Path.SegmentName name) (hp : tooLong p = true) :
    tooLong (p.joinNames names) = true := by
  induction names generalizing p with
  | nil => exact hp
  | cons name names ih =>
    refine ih (fun other hother ↦ hnames other (List.mem_cons_of_mem _ hother)) ?_
    have htext := Path.toList_joinName (p := p) (hnames name List.mem_cons_self).no_slash
    rw [List.append_assoc] at htext
    rw [tooLong, decide_eq_true_iff] at hp ⊢
    rw [htext]
    exact Nat.lt_of_lt_of_le hp (byteLength_prefix_le (List.prefix_append _ _))

theorem Below.of_file {content : ByteArray} {executable : Bool} {time : Time}
    (hl : s.find? l = some (.file content executable time)) : s.Below p l [] where
  file := ⟨content, executable, time, by rwa [Location.descend_nil]⟩
  short hne := absurd rfl hne

theorem Below.isSome_child (h : s.Below p l (name :: names)) (hs : s.WellFormed) :
    (s.find? (l.child name)).isSome := by
  obtain ⟨content, executable, time, hfile⟩ := h.file
  rw [Location.descend_cons] at hfile
  have hdeep : (s.find? ((l.child name).descend ([] ++ names))).isSome := Option.isSome_of_eq_some hfile
  simpa using hs.isSome_descend hdeep

/-- Only from a folder other names than none lead to something. -/
theorem Below.eq_nil (h : s.Below p l names) (hs : s.WellFormed) (hl : ¬s.HasFolder l) : names = [] := by
  rcases names with - | ⟨name, names⟩
  · rfl
  · exact absurd (by simpa using hs.parent _ (h.isSome_child hs)) hl

/-- From a folder no names do not lead to a file. -/
theorem Below.ne_nil (h : s.Below p l names) (hl : s.HasFolder l) : names ≠ [] := by
  rintro rfl
  obtain ⟨content, executable, time, hfile⟩ := h.file
  obtain ⟨changed, hfolder⟩ := hl
  rw [Location.descend_nil, hfolder] at hfile
  cases hfile

theorem below_cons_iff (hshort : tooLong p = false) :
    s.Below p l (name :: names) ↔ s.Below (p.joinName name) (l.child name) names := by
  constructor
  · intro h
    refine ⟨by simpa using h.file, fun hne ↦ ?_⟩
    have hlast := h.short (List.cons_ne_nil _ _)
    rwa [List.dropLast_cons_of_ne_nil hne] at hlast
  · intro h
    refine ⟨by simpa using h.file, fun _ ↦ ?_⟩
    by_cases hne : names = []
    · subst hne
      exact hshort
    · rw [List.dropLast_cons_of_ne_nil hne]
      exact h.short hne

/-- A walk lists what names lead to from its start if the test accepts every path on the way. -/
theorem mem_filesAt_iff (hs : s.WellFormed) : q ∈ s.filesAt keep p l ↔ ∃ names, q = p.joinNames names ∧
    s.Below p l names ∧ ∀ before, before <+: names → keep (p.joinNames before) = true := by
  fun_induction s.filesAt keep p l with
  | case1 p l hkeep content executable time hfile =>
    constructor
    · intro hq
      refine ⟨[], List.mem_singleton.1 hq, .of_file hfile, fun before hbefore ↦ ?_⟩
      rw [List.prefix_nil.1 hbefore]
      exact hkeep
    · rintro ⟨names, rfl, hbelow, -⟩
      rw [hbelow.eq_nil hs (by simp [HasFolder, hfile])]
      exact List.mem_singleton_self _
  | case2 p l hkeep time hfolder hlong =>
    refine iff_of_false List.not_mem_nil ?_
    rintro ⟨names, -, hbelow, -⟩
    have hshort := hbelow.short (hbelow.ne_nil ⟨time, hfolder⟩)
    have hnames := fun name hname ↦ hbelow.segmentName hs name (List.dropLast_subset names hname)
    rw [tooLong_joinNames hnames hlong] at hshort
    cases hshort
  | case3 p l hkeep time hfolder hlong ih =>
    have hshort : tooLong p = false := Bool.eq_false_iff.2 hlong
    simp only [List.mem_flatMap, List.mem_attach, true_and, Subtype.exists]
    constructor
    · rintro ⟨name, hname, hq⟩
      obtain ⟨names, rfl, hbelow, hall⟩ := (ih name hname).1 hq
      refine ⟨name :: names, rfl, (below_cons_iff hshort).2 hbelow, fun before hbefore ↦ ?_⟩
      rcases List.prefix_cons_iff.1 hbefore with rfl | ⟨rest, rfl, hrest⟩
      · exact hkeep
      · exact hall rest hrest
    · rintro ⟨names, rfl, hbelow, hall⟩
      obtain ⟨name, names, rfl⟩ := List.exists_cons_of_ne_nil (hbelow.ne_nil ⟨time, hfolder⟩)
      have hname := mem_childNames.2 (hbelow.isSome_child hs)
      exact ⟨name, hname, (ih name hname).2 ⟨names, rfl, (below_cons_iff hshort).1 hbelow,
        fun before hbefore ↦ hall (name :: before) (List.cons_prefix_cons.2 ⟨rfl, hbefore⟩)⟩⟩
  | case4 p l hkeep hfile hfolder =>
    refine iff_of_false List.not_mem_nil ?_
    have hnot : ¬s.HasFolder l := by
      rintro ⟨time, hl⟩
      exact hfolder time hl
    rintro ⟨names, -, hbelow, -⟩
    obtain rfl := hbelow.eq_nil hs hnot
    obtain ⟨content, executable, time, hl⟩ := hbelow.file
    exact hfile content executable time (by rwa [Location.descend_nil] at hl)
  | case5 p l hkeep =>
    refine iff_of_false List.not_mem_nil ?_
    rintro ⟨names, -, -, hall⟩
    exact hkeep (hall [] List.nil_prefix)

/-! ### Asking afterwards -/

/-- Whether a test refuses whatever is below something that it refuses. -/
def Prunes (keep : Path → Bool) : Prop :=
  ∀ p name, Path.SegmentName name → keep (p.joinName name) = true → keep p = true

theorem Prunes.keep_of_prefix (hprunes : Prunes keep) {before : List String}
    (hnames : ∀ name ∈ names, Path.SegmentName name) (hbefore : before <+: names)
    (h : keep (p.joinNames names) = true) : keep (p.joinNames before) = true := by
  obtain ⟨rest, rfl⟩ := hbefore
  induction rest using List.reverseRecOn with
  | nil => rwa [List.append_nil] at h
  | append_singleton rest name ih =>
    rw [← List.append_assoc] at h hnames
    refine ih (fun other hother ↦ hnames other (List.mem_append_left _ hother))
      (hprunes _ name (hnames name (by simp)) ?_)
    rwa [Path.joinNames, List.foldl_append] at h

/-- Such a test can be asked afterwards. -/
theorem mem_filesAt_iff_of_prunes (hs : s.WellFormed) (hprunes : Prunes keep) :
    q ∈ s.filesAt keep p l ↔ (∃ names, q = p.joinNames names ∧ s.Below p l names) ∧ keep q = true := by
  rw [mem_filesAt_iff hs]
  constructor
  · rintro ⟨names, rfl, hbelow, hall⟩
    exact ⟨⟨names, rfl, hbelow⟩, hall names List.prefix_rfl⟩
  · rintro ⟨⟨names, rfl, hbelow⟩, hkeep⟩
    exact ⟨names, rfl, hbelow, fun before hbefore ↦
      hprunes.keep_of_prefix (hbelow.segmentName hs) hbefore hkeep⟩

/-! ### The order of the files -/

/-- What is below a name in a folder has the names of the folder, that name and more. -/
theorem exists_names_of_mem_child (hs : s.WellFormed) (hname : name ∈ s.childNames l)
    (hq : q ∈ s.filesAt keep (p.joinName name) (l.child name)) :
    ∃ names, q.names = p.names ++ name :: names := by
  obtain ⟨names, rfl, hbelow, -⟩ := (mem_filesAt_iff hs).1 hq
  have hentry := hs.entryName_of_mem_childNames hname
  refine ⟨names, @Path.names_joinNames p (name :: names) fun other hother ↦ ?_⟩
  rcases List.mem_cons.1 hother with rfl | hother
  · exact hentry.segmentName
  · exact hbelow.segmentName hs other hother

/-- Files are listed in the order of the names that lead to them. -/
theorem pairwise_names_filesAt (hs : s.WellFormed) (hdistinct : s.locations.Nodup) :
    ((s.filesAt keep p l).map Path.names).Pairwise (· < ·) := by
  fun_induction s.filesAt keep p l with
  | case1 => exact List.pairwise_singleton _ _
  | case2 => exact List.Pairwise.nil
  | case3 p l hkeep time hfolder hshort ih =>
    rw [List.map_flatMap, List.pairwise_flatMap]
    refine ⟨fun child _ ↦ ih child.1 child.2, ?_⟩
    have hchildren := pairwise_lt_childNames hdistinct l
    rw [← List.attach_map_subtype_val (s.childNames l), List.pairwise_map] at hchildren
    refine hchildren.imp fun {a b} hlt x hx y hy ↦ ?_
    obtain ⟨q, hq, rfl⟩ := List.mem_map.1 hx
    obtain ⟨r, hr, rfl⟩ := List.mem_map.1 hy
    obtain ⟨names, hnames⟩ := exists_names_of_mem_child hs a.2 hq
    obtain ⟨others, hothers⟩ := exists_names_of_mem_child hs b.2 hr
    rw [hnames, hothers]
    exact List.append_left_lt (List.cons_lt_cons_iff.2 (Or.inl hlt))
  | case4 => exact List.Pairwise.nil
  | case5 => exact List.Pairwise.nil

theorem pairwise_names_walk (hs : s.WellFormed) (hdistinct : s.locations.Nodup) (keep : Path → Bool)
    (p : Path) : ((s.walk keep p).map Path.names).Pairwise (· < ·) := by
  obtain hnone | ⟨l, -, hfiles⟩ := s.walk_cases keep p
  · rw [hnone]
    exact List.Pairwise.nil
  · rw [hfiles]
    exact pairwise_names_filesAt hs hdistinct

/-- Lists that go on by ever later names are told apart by their members. -/
theorem eq_of_pairwise_names {α : Type} {namesOf : α → List String} {xs ys : List α}
    (hx : (xs.map namesOf).Pairwise (· < ·)) (hy : (ys.map namesOf).Pairwise (· < ·))
    (h : ∀ a, a ∈ xs ↔ a ∈ ys) : xs = ys := by
  have hne {zs : List α} (hz : (zs.map namesOf).Pairwise (· < ·)) : zs.Nodup := by
    rw [List.pairwise_map] at hz
    refine hz.imp fun hlt heq ↦ ?_
    rw [heq] at hlt
    exact List.lt_irrefl _ hlt
  refine List.Perm.eq_of_pairwise (fun a b _ _ hab hba ↦ ?_) (List.pairwise_map.1 hx)
    (List.pairwise_map.1 hy) ((List.perm_ext_iff_of_nodup (hne hx) (hne hy)).2 h)
  exact absurd hab (List.lt_asymm hba)

/-! ### From the start of a walk -/

/-- A path leads to a location, and may be a link only if that is a folder. -/
structure Opens (s : FileStore) (p : Path) (l : Location) : Prop where
  /-- It leads there. -/
  lead : s.lead true p = .ok (.existing l)
  /-- It is not too long. -/
  short : tooLong p = false
  /-- It is no link to a file. -/
  direct : s.HasFolder l ∨ s.lead false p = .ok (.existing l)

theorem short_of_locate {followLast : Bool} {found : Location × Entry}
    (h : s.locate followLast p = .ok found) : tooLong p = false := by
  rw [← Bool.not_eq_true]
  intro hlong
  rw [locate, resolve, if_pos hlong] at h
  split at h <;> cases h

theorem walk_of_opens (hs : s.WellFormed) (h : s.Opens p l) : s.walk keep p = s.filesAt keep p l := by
  obtain ⟨e, hfind, hlink⟩ := hs.lead_real h.lead
  obtain ⟨l', hstop, rfl | ⟨target, htarget⟩⟩ := lead_stop h.lead
  · rw [walk, locate_of_lead hstop hfind h.short]
    cases e with
    | file => rfl
    | folder => rfl
    | link target => exact absurd rfl (hlink target)
  · rw [walk, locate_of_lead hstop htarget h.short]
    rcases h.direct with ⟨time, hfolder⟩ | hdirect
    · simp only [locate_of_lead h.lead hfolder h.short]
    · -- what is at the end of the path is the link then, and no file
      cases hstop.symm.trans hdirect
      exact absurd (Option.some.inj (hfind.symm.trans htarget)) (hlink target)

theorem walk_eq_nil_or_opens (s : FileStore) (keep : Path → Bool) (p : Path) :
    s.walk keep p = [] ∨ ∃ l, s.Opens p l ∧ s.walk keep p = s.filesAt keep p l := by
  rw [walk]
  split
  · split
    next l time hlocate =>
      obtain ⟨hlead, hfolder⟩ := find?_of_locate hlocate
      exact .inr ⟨l, ⟨hlead, short_of_locate hlocate, .inl ⟨time, hfolder⟩⟩, rfl⟩
    next => exact .inl rfl
  next l e hlink hlocate =>
    have hnot (target : String) : e ≠ .link target := by
      rintro rfl
      exact hlink target rfl
    exact .inr ⟨l, ⟨(lead_of_locate_false hlocate hnot).1, short_of_locate hlocate,
      .inr (find?_of_locate hlocate).1⟩, rfl⟩
  next => exact .inl rfl

/-- A walk lists what is at and below the location that its start opens. -/
theorem mem_walk_iff (hs : s.WellFormed) (hprunes : Prunes keep) : q ∈ s.walk keep p ↔
    (∃ l names, s.Opens p l ∧ q = p.joinNames names ∧ s.Below p l names) ∧ keep q = true := by
  constructor
  · intro hq
    obtain hnone | ⟨l, hopens, hfiles⟩ := s.walk_eq_nil_or_opens keep p
    · rw [hnone] at hq
      cases hq
    · rw [hfiles, mem_filesAt_iff_of_prunes hs hprunes] at hq
      obtain ⟨⟨names, hpath, hbelow⟩, hkeep⟩ := hq
      exact ⟨⟨l, names, hopens, hpath, hbelow⟩, hkeep⟩
  · rintro ⟨⟨l, names, hopens, hpath, hbelow⟩, hkeep⟩
    rw [walk_of_opens hs hopens, mem_filesAt_iff_of_prunes hs hprunes]
    exact ⟨⟨names, hpath, hbelow⟩, hkeep⟩

/-! ### Stores that hold the same in another order -/

theorem find?_eq_some_iff (hdistinct : s.locations.Nodup) : s.find? l = some e ↔ (l, e) ∈ s.entries := by
  rw [find?, List.lookup_eq_some_iff]
  constructor
  · rintro ⟨before, after, hentries, -⟩
    rw [hentries]
    simp
  · intro hmem
    obtain ⟨before, after, hentries⟩ := List.append_of_mem hmem
    refine ⟨before, after, hentries, fun other hother ↦ ?_⟩
    rw [locations, hentries, List.map_append, List.map_cons, List.nodup_append] at hdistinct
    rw [bne_iff_ne]
    exact (hdistinct.2.2 _ (List.mem_map_of_mem hother) _ List.mem_cons_self).symm

/-- The order of the entries does not matter to what is found. -/
theorem find?_of_perm (hdistinct : s.locations.Nodup) (hperm : t.entries.Perm s.entries) (l : Location) :
    t.find? l = s.find? l := by
  have hdistinct' : t.locations.Nodup := (hperm.map Prod.fst).nodup_iff.2 hdistinct
  refine Option.ext fun e ↦ ?_
  rw [find?_eq_some_iff hdistinct, find?_eq_some_iff hdistinct', hperm.mem_iff]

theorem alike_of_find?_eq (hfind : ∀ l, t.find? l = s.find? l) (hcurrent : t.current = s.current) :
    t.Alike s :=
  ⟨hcurrent, fun l ↦ congrArg (Option.map Entry.kind) (hfind l)⟩

theorem Opens.of_find?_eq (h : s.Opens p l) (hfind : ∀ l, t.find? l = s.find? l)
    (hcurrent : t.current = s.current) : t.Opens p l where
  lead := ((alike_of_find?_eq hfind hcurrent).lead_eq true p).trans h.lead
  short := h.short
  direct := h.direct.imp (alike_of_find?_eq hfind hcurrent).hasFolder_iff.2
    ((alike_of_find?_eq hfind hcurrent).lead_eq false p).trans

theorem Below.of_find?_eq (h : s.Below p l names) (hfind : ∀ l, t.find? l = s.find? l) :
    t.Below p l names where
  file := by
    rw [hfind]
    exact h.file
  short := h.short

theorem WellFormed.of_find?_eq (hs : s.WellFormed) (hfind : ∀ l, t.find? l = s.find? l)
    (hcurrent : t.current = s.current) : t.WellFormed := by
  have halike := alike_of_find?_eq hfind hcurrent
  refine ⟨halike.hasFolder_iff.2 hs.root, ?_, fun l hl ↦ ?_, fun l hl ↦ ?_⟩
  · rw [hcurrent]
    exact halike.hasFolder_iff.2 hs.current
  · rw [hfind] at hl
    exact halike.hasFolder_iff.2 (hs.parent l hl)
  · rw [hfind] at hl
    exact hs.names l hl

end FileStore

end Rebuild
