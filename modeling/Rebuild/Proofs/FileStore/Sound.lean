import Rebuild.Proofs.FileStore.Reworking

/-!
# Stores that operations keep sound

A store is *sound* when it is well-formed and its links stand for paths that can be given to the system. A
free name that a path leads to is then an ordinary name in a folder, wherever the path goes, so that what is
made there keeps the store well-formed. No operation makes a link. So whatever is done to the files of a
sound store leaves it sound.
-/

namespace Rebuild.FileStore

variable {s s' : FileStore} {l folder : Location} {p : Path} {name : String} {slash followLast : Bool}

/-- Everything is in a folder and has a name, and links stand for paths. -/
structure Sound (s : FileStore) : Prop extends WellFormed s where
  /-- No link holds the character that ends texts. -/
  links : ∀ l target, s.find? l = some (.link target) → '\x00' ∉ target.toList

/-- Whether an entry stands for a path, if it is a link. -/
def standsForPath : Entry → Bool
  | .link target => !target.toList.contains '\x00'
  | _ => true

instance : Decidable s.Sound :=
  decidable_of_iff (s.WellFormed ∧ ∀ l ∈ s.locations, (s.find? l).all standsForPath = true) <| by
    constructor
    · rintro ⟨hs, hall⟩
      refine ⟨hs, fun l target hlink ↦ ?_⟩
      have hstands := hall l (find?_isSome_iff.1 (Option.isSome_of_eq_some hlink))
      rw [hlink] at hstands
      simpa [standsForPath] using hstands
    · intro hs
      refine ⟨hs.toWellFormed, fun l _ ↦ ?_⟩
      cases hfind : s.find? l with
      | none => rfl
      | some e =>
        cases e with
        | link target => simpa [standsForPath] using hs.links l target hfind
        | file => rfl
        | folder => rfl

/-! ### Segments of a path -/

/-- A segment holds nothing that a name cannot hold. -/
structure Clean (segment : String) : Prop where
  /-- It holds no slash. -/
  no_slash : '/' ∉ segment.toList
  /-- It holds no character that ends texts. -/
  no_nul : '\x00' ∉ segment.toList

theorem mem_intercalate {separator part : List Char} {parts : List (List Char)} {c : Char}
    (hpart : part ∈ parts) (hc : c ∈ part) : c ∈ separator.intercalate parts := by
  induction parts with
  | nil => cases hpart
  | cons first rest ih =>
    cases rest with
    | nil =>
      obtain rfl := List.mem_singleton.1 hpart
      simpa using hc
    | cons other rest =>
      rw [List.intercalate_cons_cons, List.mem_append, List.mem_append]
      rcases List.mem_cons.1 hpart with rfl | hrest
      · exact Or.inl (Or.inl hc)
      · exact Or.inr (ih hrest)

theorem clean_of_mem_body (hnul : '\x00' ∉ p.text.toList) {segment : String} (h : segment ∈ p.body) :
    Clean segment := by
  refine ⟨Path.no_slash_of_mem_body h, fun hmem ↦ hnul ?_⟩
  rw [← Path.ofBody_body p, Path.toList_ofBody]
  exact List.mem_append_right _ (mem_intercalate (List.mem_map_of_mem h) hmem)

/-! ### Free names -/

/-- Only an ordinary name can be free. -/
theorem Clean.entryName_of_pace {here : Location} {segment : String} (h : Clean segment)
    (hpace : s.pace here segment = .free) : EntryName segment := by
  rw [pace] at hpace
  split at hpace
  · cases hpace
  split at hpace
  · cases hpace
  split at hpace
  · cases hpace
  rename_i hdot hdots hlong
  rw [not_or] at hdot
  exact ⟨⟨hdot.1, hdot.2, hdots, h.no_slash, h.no_nul⟩, Nat.le_of_not_lt hlong⟩

/-- A name that is followed to be free is an ordinary name in a folder. -/
theorem Sound.followWith_vacant (hs : s.Sound)
    {pass : Location → List String → Except FileError Destination} {here : Location}
    {segments : List String} (hhere : s.HasFolder here) (hclean : ∀ segment ∈ segments, Clean segment)
    (hpass : ∀ there others, s.HasFolder there → (∀ segment ∈ others, Clean segment) →
      pass there others = .ok (.vacant folder name slash) → EntryName name ∧ s.HasFolder folder)
    (h : s.followWith followLast pass here segments = .ok (.vacant folder name slash)) :
    EntryName name ∧ s.HasFolder folder := by
  replace h := followed_of_followWith h
  generalize hdest : Destination.vacant folder name slash = dest at h
  induction h with
  | done => cases hdest
  | folder hpace _ ih =>
    exact ih (hs.hasFolder_of_pace hhere hpace)
      (fun other hother ↦ hclean other (List.mem_cons_of_mem _ hother)) hdest
  | free hpace =>
    cases hdest
    exact ⟨(hclean _ List.mem_cons_self).entryName_of_pace hpace, hhere⟩
  | file => cases hdest
  | stop => cases hdest
  | link hpace _ hpassed =>
    subst hdest
    refine hpass _ _ (hs.hasFolder_start hhere _) (fun other hother ↦ ?_) hpassed
    rcases List.mem_append.1 hother with hbody | hlater
    · exact clean_of_mem_body (hs.links _ _ (find?_of_pace_link hpace)) hbody
    · exact hclean other (List.mem_cons_of_mem _ hlater)

theorem Sound.follow_vacant (hs : s.Sound) {links : Nat} {here : Location} {segments : List String}
    (hhere : s.HasFolder here) (hclean : ∀ segment ∈ segments, Clean segment)
    (h : s.follow followLast links here segments = .ok (.vacant folder name slash)) :
    EntryName name ∧ s.HasFolder folder := by
  induction links generalizing here segments with
  | zero =>
    refine hs.followWith_vacant hhere hclean ?_ h
    intro there others _ _ hnever
    cases hnever
  | succ links ih => exact hs.followWith_vacant hhere hclean (fun _ _ hthere ↦ ih hthere) h

/-- A free name that a path leads to is an ordinary name in a folder. -/
theorem Sound.resolve_vacant (hs : s.Sound)
    (h : s.resolve followLast p = .ok (.vacant folder name slash)) :
    EntryName name ∧ s.HasFolder folder := by
  have hlead := lead_of_resolve h
  rw [lead] at hlead
  split at hlead
  · cases hlead
  rename_i hnul
  split at hlead
  · cases hlead
  refine hs.follow_vacant (hs.hasFolder_start hs.current _) (fun segment ↦ clean_of_mem_body ?_) hlead
  rwa [List.contains_iff_mem] at hnul

/-! ### Operations -/

namespace Sound

/-- A store is sound when all folders stay, what comes has a name in one of them, and no link comes. -/
theorem of_hasFolder (hs : s.Sound) (hcurrent : s'.current = s.current)
    (hfolder : ∀ x, s.HasFolder x → s'.HasFolder x)
    (hcome : ∀ x, (s'.find? x).isSome → (s.find? x).isSome ∨
      s.HasFolder x.parent ∧ ∀ name ∈ x.names, EntryName name)
    (hlink : ∀ x target, s'.find? x = some (.link target) → s.find? x = some (.link target)) :
    s'.Sound where
  toWellFormed := hs.toWellFormed.of_hasFolder hcurrent hfolder hcome
  links x target h := hs.links x target (hlink x target h)

theorem entryName_child (hs : s.Sound) (hfolder : s.HasFolder folder) (hname : EntryName name) :
    ∀ other ∈ (folder.child name).names, EntryName other := by
  intro other hother
  rw [Location.names_child, List.mem_append] at hother
  rcases hother with hfirst | hlast
  · exact hs.names folder hfolder.isSome other hfirst
  · rwa [List.mem_singleton.1 hlast]

/-- Making folders at free names leaves the store sound. -/
theorem createFolder (hs : s.Sound) (h : s.createFolder p = .ok s') : s'.Sound := by
  have hfurnishes := Furnishes.createFolder h
  rw [FileStore.createFolder] at h
  split at h
  · cases h
  · cases h
  rename_i folder name slash hdest
  obtain ⟨hname, hfolder⟩ := hs.resolve_vacant hdest
  cases h
  refine hs.of_hasFolder hfurnishes.current (fun x ↦ hfurnishes.keeps.hasFolder) (fun x hx ↦ ?_)
    fun x target ↦ hfurnishes.no_link
  by_cases hnew : x = folder.child name
  · rw [hnew, Location.parent_child]
    exact Or.inr ⟨hfolder, hs.entryName_child hfolder hname⟩
  · refine Or.inl ?_
    by_cases hsame : x = folder
    · exact hsame ▸ hfolder.isSome
    · rwa [find?_add_of_ne hnew hsame] at hx

theorem createFolders (hs : s.Sound) (p : Path) : (s.createFolders p).2.Sound :=
  createThrough_rel (r := fun s s' ↦ s.Sound → s'.Sound) (fun _ hs ↦ hs) (fun h h' hs ↦ h' (h hs))
    (fun hmade hs ↦ hs.createFolder hmade) s p.ancestors hs

/-- Writing a file leaves the store sound. -/
theorem of_writes (hs : s.Sound) (h : s.Writes p l s') : s'.Sound := by
  refine hs.of_hasFolder h.current (fun x ↦ h.keeps.hasFolder) (fun x hx ↦ ?_) fun x target ↦ h.no_link
  by_cases hl : x = l
  · rcases h.dest with ⟨-, hfile⟩ | ⟨folder, name, hchild, hdest⟩
    · exact Or.inl (hl ▸ isSome_of_hasFile hfile)
    · obtain ⟨hname, hfolder⟩ := hs.resolve_vacant hdest
      rw [hl, hchild, Location.parent_child]
      exact Or.inr ⟨hfolder, hs.entryName_child hfolder hname⟩
  · exact Or.inl (isSome_of_kept (h.kept x hl) hx)

/-- Removing what is no folder leaves the store sound. -/
theorem of_loses (hs : s.Sound) (h : s.Loses l s') (hnot : ¬s.HasFolder l) : s'.Sound := by
  refine hs.of_hasFolder h.current (fun x hx ↦ ?_) (fun x hx ↦ Or.inl ?_) fun x target hlink ↦ ?_
  · have hl : x ≠ l := by
      rintro rfl
      exact hnot hx
    rw [hasFolder_iff_kind?] at hx ⊢
    rw [h.kind?_eq hl, hx]
  · have hl : x ≠ l := by
      rintro rfl
      rw [h.gone] at hx
      cases hx
    exact isSome_of_kept (h.kept x hl) hx
  · have hl : x ≠ l := by
      rintro rfl
      rw [h.gone] at hlink
      cases hlink
    rw [← kind?_eq_link_iff] at hlink ⊢
    rw [← h.kind?_eq hl, hlink]

end Sound

end Rebuild.FileStore
