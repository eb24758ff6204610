import Rebuild.Proofs.FileStore.Product
import Rebuild.Proofs.FileStore.Writing

/-!
# Reworking places

A store is *reworked* when files at some of its places come, change or go, and folders on the way to
its places come. As long as no place is on the way to another, all that is done to the places one
after the other is one reworking: links and folders stay, so that every path goes the same way, and
what is at none of the places is not touched.
-/

namespace Rebuild.FileStore

variable {s s' s'' : FileStore} {l l' x : Location} {p : Path}

/-! ### Places once more -/

/-- Segments that lead to a folder still lead to it where folders and links are kept. -/
theorem KeepsWays.follow_folder (h : s.KeepsWays s') (hfolder : s.HasFolder l) {links : Nat}
    {here : Location} {segments : List String}
    (hfollow : s.follow true links here segments = .ok (.existing l)) :
    s'.HasFolder l ∧ s'.follow true links here segments = .ok (.existing l) := by
  refine ⟨h.hasFolder hfolder, ?_⟩
  have hmeets := h.follow_meets hfollow
  generalize s'.follow true links here segments = result at hmeets ⊢
  cases hmeets with
  | same => rfl
  | file hfile => exact absurd hfolder hfile.not_hasFolder

theorem Way.of_keepsWays {segments names : List String} {base : Location}
    (h : s.Way p segments base names) (hkeeps : s.KeepsWays s')
    (hlink : ∀ before, before <+: names → ∀ target,
      s'.find? (base.descend before) ≠ some (.link target)) : s'.Way p segments base names := by
  obtain ⟨hfolder, hfollow⟩ := hkeeps.follow_folder h.folder h.around
  rw [← hkeeps.current] at hfollow
  exact ⟨h.body, hfollow, hfolder, h.entryName, hlink, h.no_nul, h.short⟩

namespace Placed

/-- A place is still one where all folders and links are kept and no link has come. -/
theorem of_keepsWays (h : s.Placed p l) (hkeeps : s.KeepsWays s')
    (hlink : ∀ x ∈ l.around, ∀ target, s'.find? x ≠ some (.link target)) : s'.Placed p l := by
  obtain ⟨segments, base, names, hway, hne, rfl⟩ := h
  refine ⟨segments, base, names, hway.of_keepsWays hkeeps fun before hbefore ↦ ?_, hne, rfl⟩
  exact hlink _ (Location.descend_mem_around hbefore)

/-- What the path of a place leads to, if it leads to anything. -/
theorem resolve_cases {followLast : Bool} {dest : Destination} (h : s.Placed p l)
    (hs : s.WellFormed) (hdest : s.resolve followLast p = .ok dest) :
    s.HasFolder l.parent ∧
      (dest = .existing l ∨ ∃ folder name, l = folder.child name ∧ dest = .vacant folder name false) := by
  obtain ⟨segments, base, names, name, hway, rfl⟩ := h.exists_way
  rw [Location.parent_child]
  by_cases hfolder : s.HasFolder (base.descend names)
  · refine ⟨hfolder, ?_⟩
    rw [hway.resolve_of_hasFolder hs hfolder] at hdest
    split at hdest <;> cases hdest
    · exact Or.inl rfl
    · exact Or.inr ⟨_, _, rfl, rfl⟩
  · rw [hway.resolve_of_not_hasFolder hs hfolder] at hdest
    cases hdest

/-- What is written by the path of a place is at the place. -/
theorem eq_of_writes (h : s.Placed p l) (hs : s.WellFormed) (hwrites : s.Writes p l' s') :
    l' = l ∧ s.HasFolder l.parent := by
  rcases hwrites.dest with ⟨hdest, -⟩ | ⟨folder, name, rfl, hdest⟩
  · obtain ⟨hfolder, hsame | ⟨_, _, -, hvacant⟩⟩ := h.resolve_cases hs hdest
    · cases hsame
      exact ⟨rfl, hfolder⟩
    · cases hvacant
  · obtain ⟨hfolder, hsame | ⟨_, _, rfl, hvacant⟩⟩ := h.resolve_cases hs hdest
    · cases hsame
    · cases hvacant
      exact ⟨rfl, hfolder⟩

/-- The time of what is at a place is what the path tells. -/
theorem modified?_eq_timeAt? (h : s.Placed p l) (hs : s.WellFormed) :
    s.modified? p = s.timeAt? l := by
  by_cases hfolder : s.HasFolder l.parent
  · exact h.modified?_eq hs hfolder
  · have hnone : s.find? l = none := by
      by_contra hsome
      exact hfolder (hs.parent l (Option.isSome_iff_ne_none.2 hsome))
    rw [timeAt?, hnone, Option.bind_none, modified?, stat, locate]
    cases hdest : s.resolve true p with
    | error e => rfl
    | ok dest => exact absurd (h.resolve_cases hs hdest).1 hfolder

/-- A file at a place is found by the path. -/
theorem findsFile {time : Time} (h : s.Placed p l) (hs : s.WellFormed)
    (hfile : s.fileTime? l = some time) : s.FindsFile p l time := by
  have hsome := isSome_of_fileTime? hfile
  obtain ⟨segments, base, names, name, hway, rfl⟩ := h.exists_way
  have hfolder : s.HasFolder (base.descend names) := hs.hasFolder_of_descend hsome
  refine ⟨?_, hfile⟩
  rw [hway.resolve_of_hasFolder hs hfolder, if_pos hsome]

/-- Nothing has to be made on the way to a place in a folder that is there. -/
theorem createFolders_of_hasFolder (h : s.Placed p l) (hs : s.WellFormed)
    (hfolder : s.HasFolder l.parent) :
    ∃ folder, p.parent? = some folder ∧ s.createFolders folder = (.ok (), s) := by
  obtain ⟨segments, base, names, name, hway, rfl⟩ := h.exists_way
  rw [Location.parent_child] at hfolder
  have hbody : p.body = (segments ++ names) ++ [name] := by rw [hway.body, List.append_assoc]
  have hname := hway.entryName name (by simp)
  refine ⟨_, Path.parent?_of_body hname.segmentName hbody, ?_⟩
  rw [FileStore.createFolders, Path.ancestors_ofBody hbody]
  rcases List.eq_nil_or_concat names with rfl | ⟨before, last, rfl⟩
  · rw [List.append_nil]
    exact hway.createThrough_start hs
  · rw [List.concat_eq_append] at hway hfolder ⊢
    have hlast := hway.entryName last (by simp)
    have htake := hway.take (by simp)
    have hthere : base.descend (before ++ [last]) = (base.descend before).child last := by
      rw [Location.descend_append, Location.descend_cons, Location.descend_nil]
    rw [hthere] at hfolder
    have haround : s.HasFolder (base.descend before) := hs.hasFolder_of_descend hfolder.isSome
    have hresolve (followLast : Bool) := htake.resolve_of_hasFolder hs haround followLast
    simp only [hfolder.isSome, if_true] at hresolve
    rw [← List.append_assoc, Path.ancestorsOf_append_name hlast.segmentName, List.append_assoc]
    exact createThrough_of_hasFolder hfolder (hresolve false) (hresolve true)

end Placed

/-! ### Reworking -/

/-- There is a file, or nothing. -/
def Plain (s : FileStore) (l : Location) : Prop :=
  s.HasFile l ∨ s.find? l = none

theorem Plain.not_hasFolder (h : s.Plain l) : ¬s.HasFolder l := by
  rw [hasFolder_iff_kind?]
  rcases h with hfile | hnone
  · rw [show s.kind? l = _ from hfile]
    simp
  · rw [kind?_eq_none_iff.2 hnone]
    simp

theorem Plain.ne_link (h : s.Plain l) (target : String) : s.find? l ≠ some (.link target) := by
  rw [Ne, ← kind?_eq_link_iff]
  rcases h with hfile | hnone
  · rw [show s.kind? l = _ from hfile]
    simp
  · rw [kind?_eq_none_iff.2 hnone]
    simp

/-- What is at a place is plain, if it is no folder. -/
theorem Placed.plain (h : s.Placed p l) (hs : s.WellFormed) (hnot : ¬s.HasFolder l) :
    s.Plain l := by
  have hlink := h.no_link hs l.self_mem_around
  cases hfind : s.find? l with
  | none => exact Or.inr hfind
  | some e =>
    cases e with
    | file => exact Or.inl (hasFile_of_find? hfind)
    | folder time => exact absurd ⟨time, hfind⟩ hnot
    | link target => exact absurd hfind (hlink target)

/-- A store is well-formed when all folders stay and what comes has a name in one of them. -/
theorem WellFormed.of_hasFolder (hs : s.WellFormed) (hcurrent : s'.current = s.current)
    (hfolder : ∀ x, s.HasFolder x → s'.HasFolder x)
    (hcome : ∀ x, (s'.find? x).isSome → (s.find? x).isSome ∨
      s.HasFolder x.parent ∧ ∀ name ∈ x.names, EntryName name) : s'.WellFormed := by
  constructor
  case root => exact hfolder _ hs.root
  case current => exact hcurrent ▸ hfolder _ hs.current
  case parent =>
    intro x hx
    rcases hcome x hx with hwas | ⟨hparent, -⟩
    · exact hfolder _ (hs.parent x hwas)
    · exact hfolder _ hparent
  case names =>
    intro x hx
    rcases hcome x hx with hwas | ⟨-, hnames⟩
    · exact hs.names x hwas
    · exact hnames

theorem Placed.isFolder_eq_false (h : s.Placed p l) (hs : s.WellFormed) (hplain : s.Plain l) :
    s.isFolder p = false := by
  rw [isFolder, stat, locate]
  cases hdest : s.resolve true p with
  | error => rfl
  | ok dest =>
    obtain ⟨-, rfl | ⟨folder, name, -, rfl⟩⟩ := h.resolve_cases hs hdest
    · show ((s.arrive (.existing l)).map _).toOption.any _ = false
      rw [arrive]
      rcases hplain with hfile | hnone
      · obtain ⟨content, executable, time, hfind⟩ := exists_find?_of_hasFile hfile
        rw [hfind]
        rfl
      · rw [hnone]
        rfl
    · rfl

/-- The store `s'` is `s` with plain things changed at the locations `touched`, and folders made on
the way to the locations `places`. -/
structure Reworks (places touched : List Location) (s s' : FileStore) : Prop where
  /-- Relative paths begin in the same folder. -/
  current : s'.current = s.current
  /-- Everything is in a folder still. -/
  wellFormed : s'.WellFormed
  /-- What is at a location. -/
  find : ∀ x, s'.find? x = s.find? x ∨ x ∈ touched ∧ s.Plain x ∧ s'.Plain x ∨
    (∃ l ∈ places, x ∈ l.parent.around) ∧ (s.find? x = none ∨ s.HasFolder x) ∧ s'.HasFolder x

/-- No place is on the way to another. -/
def Aside (places : List Location) : Prop :=
  ∀ l ∈ places, ∀ l' ∈ places, l ∉ l'.parent.around

namespace Reworks

variable {places touched touched' : List Location}

theorem refl (hs : s.WellFormed) : Reworks places touched s s :=
  ⟨rfl, hs, fun _ ↦ Or.inl rfl⟩

theorem mono (h : Reworks places touched s s') (hsub : touched ⊆ touched') :
    Reworks places touched' s s' :=
  ⟨h.current, h.wellFormed, fun x ↦ (h.find x).imp_right (Or.imp_left (.imp_left (@hsub x)))⟩

theorem trans (h : Reworks places touched s s') (h' : Reworks places touched' s' s'')
    (haside : Aside places) (hsub : touched ⊆ places) (hsub' : touched' ⊆ places) :
    Reworks places (touched ++ touched') s s'' := by
  refine ⟨h'.current.trans h.current, h'.wellFormed, fun x ↦ ?_⟩
  have hapart (hx : x ∈ places) : ¬∃ l ∈ places, x ∈ l.parent.around := by
    rintro ⟨l, hl, hmem⟩
    exact haside x hx l hl hmem
  rcases h.find x with hsame | ⟨hx, hwas, his⟩ | ⟨hx, hwas, his⟩
  · rcases h'.find x with hsame' | ⟨hx', hwas', his'⟩ | ⟨hx', hwas', his'⟩
    · exact Or.inl (hsame'.trans hsame)
    · refine Or.inr (Or.inl ⟨List.mem_append_right _ hx', ?_, his'⟩)
      rwa [Plain, HasFile, kind?, ← hsame, ← kind?]
    · refine Or.inr (Or.inr ⟨hx', ?_, his'⟩)
      rwa [HasFolder, ← hsame]
  · rcases h'.find x with hsame' | ⟨-, -, his'⟩ | ⟨hx', -, -⟩
    · refine Or.inr (Or.inl ⟨List.mem_append_left _ hx, hwas, ?_⟩)
      rwa [Plain, HasFile, kind?, hsame', ← kind?]
    · exact Or.inr (Or.inl ⟨List.mem_append_left _ hx, hwas, his'⟩)
    · exact absurd hx' (hapart (hsub hx))
  · rcases h'.find x with hsame' | ⟨hx', -, -⟩ | ⟨-, -, his'⟩
    · refine Or.inr (Or.inr ⟨hx, hwas, ?_⟩)
      rwa [HasFolder, hsame']
    · exact absurd hx (hapart (hsub' hx'))
    · exact Or.inr (Or.inr ⟨hx, hwas, his'⟩)

theorem keepsWays (h : Reworks places touched s s') : s.KeepsWays s' := by
  refine ⟨h.current, fun x kind hkind hx ↦ ?_⟩
  rcases h.find x with hsame | ⟨-, hfile | hnone, -⟩ | ⟨-, hnone | hwas, his⟩
  · rwa [kind?, hsame]
  · rw [show s.kind? x = _ from hfile] at hx
    exact absurd (Option.some.inj hx).symm hkind
  · rw [kind?_eq_none_iff.2 hnone] at hx
    cases hx
  · rw [kind?_eq_none_iff.2 hnone] at hx
    cases hx
  · rw [hasFolder_iff_kind?] at hwas his
    rw [← hx, hwas, his]

theorem find?_link_iff (h : Reworks places touched s s') {target : String} :
    s'.find? x = some (.link target) ↔ s.find? x = some (.link target) := by
  rcases h.find x with hsame | ⟨-, hwas, his⟩ | ⟨-, hnone | ⟨time, hwas⟩, ⟨time', his⟩⟩
  · rw [hsame]
  · exact iff_of_false (his.ne_link target) (hwas.ne_link target)
  · rw [hnone, his]
    simp
  · rw [hwas, his]
    simp

/-- What is not touched is as it was, if it is a place. -/
theorem find?_eq (h : Reworks places touched s s') (haside : Aside places) (hx : x ∈ places)
    (hnot : x ∉ touched) : s'.find? x = s.find? x := by
  rcases h.find x with hsame | ⟨htouched, -⟩ | ⟨⟨l, hl, haround⟩, -⟩
  · exact hsame
  · exact absurd htouched hnot
  · exact absurd haround (haside x hx l hl)

/-- A file that is not touched is as it was. -/
theorem find?_eq_of_hasFile (h : Reworks places touched s s') (hfile : s.HasFile x)
    (hnot : x ∉ touched) : s'.find? x = s.find? x := by
  rcases h.find x with hsame | ⟨htouched, -⟩ | ⟨-, hnone | hfolder, -⟩
  · exact hsame
  · exact absurd htouched hnot
  · rw [HasFile, kind?_eq_none_iff.2 hnone] at hfile
    cases hfile
  · exact absurd hfolder (Plain.not_hasFolder (Or.inl hfile))

/-- No folder comes to a place. -/
theorem not_hasFolder (h : Reworks places touched s s') (haside : Aside places) (hx : x ∈ places)
    (hnot : ¬s.HasFolder x) : ¬s'.HasFolder x := by
  rcases h.find x with hsame | ⟨-, -, his⟩ | ⟨⟨l, hl, haround⟩, -⟩
  · rwa [HasFolder, hsame]
  · exact his.not_hasFolder
  · exact absurd haround (haside x hx l hl)

theorem placed (h : Reworks places touched s s') (hs : s.WellFormed) (hp : s.Placed p l) :
    s'.Placed p l :=
  hp.of_keepsWays h.keepsWays fun _ hx target hlink ↦
    hp.no_link hs hx target (h.find?_link_iff.1 hlink)

theorem of_unchanged (hs : s.WellFormed) (h : s.Unchanged s') : Reworks places touched s s' :=
  ⟨h.current,
    hs.of_hasFolder h.current (fun x hx ↦ by rwa [HasFolder, h.find])
      fun x hx ↦ Or.inl (h.find x ▸ hx),
    fun x ↦ Or.inl (h.find x)⟩

/-- Making the way to a place is a reworking. -/
theorem of_wayMade (hs : s.WellFormed) (hp : s.Placed p l) (hl : l ∈ places)
    (h : s.WayMade l.parent s') : Reworks places touched s s' := by
  refine ⟨h.current, h.wellFormed hs fun name hname ↦ ?_, fun x ↦ ?_⟩
  · exact hp.entryName hs name (List.dropLast_subset _ hname)
  · rcases h.kept x with hsame | ⟨hx, hwas⟩
    · exact Or.inl hsame
    · exact Or.inr (Or.inr ⟨⟨l, hl, hx⟩, hwas, h.folder x hx⟩)

/-- Making the folders around a place is a reworking. -/
theorem of_createFolders (hs : s.WellFormed) (hp : s.Placed p l) (hl : l ∈ places) :
    ∃ folder, p.parent? = some folder ∧
      Reworks places touched s (s.createFolders folder).2 := by
  obtain ⟨folder, hparent, hcreate⟩ := hp.createFolders hs
  refine ⟨folder, hparent, ?_⟩
  split at hcreate
  · rw [hcreate]
    exact .refl hs
  · obtain ⟨made, hmade, hcreate⟩ := hcreate
    rw [hcreate]
    exact .of_wayMade hs hp hl hmade

/-- Writing a file to a place is a reworking. -/
theorem of_writes (hs : s.WellFormed) (hp : s.Placed p l) (hl : l ∈ places)
    (h : s.Writes p l' s') : Reworks places [l] s s' := by
  obtain ⟨rfl, hparent⟩ := hp.eq_of_writes hs h
  refine ⟨h.current, hs.of_hasFolder h.current (fun x ↦ h.keeps.hasFolder) fun x hx ↦ ?_,
    fun x ↦ ?_⟩ <;> by_cases hne : x = l'
  · exact Or.inr (hne ▸ ⟨hparent, hp.entryName hs⟩)
  · exact Or.inl (isSome_of_kept (h.kept x hne) hx)
  · subst hne
    exact Or.inr (Or.inl ⟨List.mem_singleton_self x, h.kind?_dest, Or.inl h.file⟩)
  · rcases h.kept x hne with hsame | ⟨rfl, hwas, his⟩
    · exact Or.inl hsame
    · exact Or.inr (Or.inr ⟨⟨l', hl, Location.self_mem_around _⟩, Or.inr hwas, his⟩)

/-- Removing a file from a place is a reworking. -/
theorem of_loses (hs : s.WellFormed) (hfile : s.HasFile l) (hl : l ∈ places) (h : s.Loses l s') :
    Reworks places [l] s s' := by
  refine ⟨h.current, hs.of_hasFolder h.current (fun x ↦ (h.keepsWays hfile).hasFolder)
    fun x hx ↦ Or.inl ?_, fun x ↦ ?_⟩ <;> by_cases hne : x = l
  · exact hne ▸ isSome_of_hasFile hfile
  · exact isSome_of_kept (h.kept x hne) hx
  · subst hne
    exact Or.inr (Or.inl ⟨List.mem_singleton_self x, Or.inl hfile, Or.inr h.gone⟩)
  · rcases h.kept x hne with hsame | ⟨rfl, hwas, his⟩
    · exact Or.inl hsame
    · exact Or.inr (Or.inr ⟨⟨l, hl, Location.self_mem_around _⟩, Or.inr hwas, his⟩)

end Reworks

end Rebuild.FileStore
