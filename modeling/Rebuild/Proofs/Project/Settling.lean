import Rebuild.Proofs.FileStore.Renewing
import Rebuild.Proofs.Project.Exporting

/-!
# Exports settle

Items are *exportable* when the contents of each are in a file that is older than the clock, and no destination
is that of a source or a link (`Project.Exportable`). Then whatever an item comes to renews the files, and only
the file at its destination is another one (`Project.ExportItem.Ends.renews`). So an item that is up to date stays
so while others are exported, and one that has not failed is up to date. When nothing fails, all items are up to
date in the end, and a second export has nothing left to do (`Project.export_settles`).
-/

namespace Rebuild

open FileStore

variable {s s' s'' cleared made : FileStore} {l x : Location}

theorem FileStore.Renews.of_createFolderOf {p : Path} {outcome : Except FileError Unit}
    (h : s.createFolderOf p = (outcome, made)) : s.Renews made := by
  rw [createFolderOf] at h
  split at h
  · have hrenews := Renews.createFolders s ‹_›
    rwa [h] at hrenews
  · cases h
    exact .refl s

namespace Project

namespace ExportItem

/-- The destination of an item is newer than its source. -/
def UpToDate (item : ExportItem) (s : FileStore) : Prop :=
  ∃ there here, item.times s = .ok (there, here) ∧ here < there

theorem times_eq_ok_iff {item : ExportItem} {there here : Time} : item.times s = .ok (there, here) ↔
    ∃ l m, (s.resolve true item.destination = .ok (.existing l) ∧ (s.find? l).isSome ∧
        (s.timeAt? l).getD 0 = there) ∧
      s.resolve true item.source = .ok (.existing m) ∧ (s.find? m).isSome ∧ (s.timeAt? m).getD 0 = here := by
  constructor
  · intro h
    rw [times] at h
    split at h
    · cases h
    rename_i d hd
    split at h
    · cases h
    rename_i e he
    cases h
    obtain ⟨l, hdest, hl⟩ := stat_eq_ok_iff.1 hd
    obtain ⟨m, hsource, hm⟩ := stat_eq_ok_iff.1 he
    refine ⟨l, m, ⟨hdest, Option.isSome_of_eq_some hl, ?_⟩, hsource, Option.isSome_of_eq_some hm, ?_⟩
    · rw [timeAt?, hl, Option.bind_some]
    · rw [timeAt?, hm, Option.bind_some]
  · rintro ⟨l, m, ⟨hdest, hl, rfl⟩, hsource, hm, rfl⟩
    obtain ⟨d, hl⟩ := Option.isSome_iff_exists.1 hl
    obtain ⟨e, hm⟩ := Option.isSome_iff_exists.1 hm
    rw [times, stat_eq_ok_iff.2 ⟨l, hdest, hl⟩]
    simp only
    rw [stat_eq_ok_iff.2 ⟨m, hsource, hm⟩, timeAt?, timeAt?, hl, hm]
    rfl

theorem UpToDate.pathExists {item : ExportItem} (h : item.UpToDate s) : s.pathExists item.destination = true := by
  obtain ⟨there, here, htimes, -⟩ := h
  obtain ⟨l, -, ⟨hdest, hsome, -⟩, -⟩ := times_eq_ok_iff.1 htimes
  obtain ⟨d, hl⟩ := Option.isSome_iff_exists.1 hsome
  rw [FileStore.pathExists, stat_eq_ok_iff.2 ⟨l, hdest, hl⟩]
  rfl

end ExportItem

/-- Items can be exported beside each other. -/
structure Exportable (items : List ExportItem) (s : FileStore) : Prop where
  /-- The source of each is a file that is older than the clock. -/
  sources : ∀ item ∈ items, ∃ m time, s.aim? true item.source = some m ∧ s.fileTime? m = some time ∧ time < s.clock
  /-- No destination is a source. -/
  apart : ∀ item ∈ items, ∀ other ∈ items, s.aim? true item.destination ≠ s.aim? true other.source
  /-- No destination is a link. -/
  no_link : ∀ item ∈ items, ∀ l target, s.aim? false item.destination = some l → s.find? l ≠ some (.link target)

instance (items : List ExportItem) (s : FileStore) : Decidable (Exportable items s) :=
  decidable_of_iff
    ((∀ item ∈ items, ((s.aim? true item.source).bind s.fileTime?).any (· < s.clock) = true) ∧
      (∀ item ∈ items, ∀ other ∈ items, s.aim? true item.destination ≠ s.aim? true other.source) ∧
      ∀ item ∈ items, (s.aim? false item.destination).bind s.link? = none) <| by
    constructor
    · rintro ⟨hsources, hapart, hlinks⟩
      refine ⟨fun item hitem ↦ ?_, hapart, fun item hitem l target haim hlink ↦ ?_⟩
      · obtain ⟨time, hfound, hold⟩ := (Option.any_eq_true ..).1 (hsources item hitem)
        obtain ⟨m, haim, htime⟩ := Option.bind_eq_some_iff.1 hfound
        exact ⟨m, time, haim, htime, of_decide_eq_true hold⟩
      · have hnone := hlinks item hitem
        rw [haim, Option.bind_some, link?_eq_some_iff.2 hlink] at hnone
        cases hnone
    · intro h
      refine ⟨fun item hitem ↦ ?_, h.apart, fun item hitem ↦ ?_⟩
      · obtain ⟨m, time, haim, htime, hold⟩ := h.sources item hitem
        rw [haim, Option.bind_some, htime]
        exact decide_eq_true hold
      · refine Option.eq_none_iff_forall_not_mem.2 fun target htarget ↦ ?_
        obtain ⟨l, haim, hlink⟩ := Option.bind_eq_some_iff.1 htarget
        exact h.no_link item hitem l target haim (link?_eq_some_iff.1 hlink)

variable {items : List ExportItem} {item : ExportItem} {result : Except BuildError Bool} {copied : Bool}

/-- A path to the source of an item leads to the file. -/
theorem Exportable.source_eq (h : Exportable items s) (hitem : item ∈ items)
    (hsource : s.resolve true item.source = .ok (.existing l)) :
    ∃ time, s.aim? true item.source = some l ∧ s.fileTime? l = some time ∧ time < s.clock := by
  obtain ⟨m, time, haim, htime, hold⟩ := h.sources item hitem
  obtain rfl : l = m := Option.some.inj ((aim?_of_resolve hsource).symm.trans haim)
  exact ⟨time, haim, htime, hold⟩

/-- The store `s'` renews `s`, and the sources of the items are what they were. -/
structure Serves (items : List ExportItem) (s s' : FileStore) : Prop extends Renews s s' where
  /-- Sources are as they were. -/
  source : ∀ item ∈ items, ∀ m, s.aim? true item.source = some m → s'.find? m = s.find? m

namespace Serves

theorem refl (items : List ExportItem) (s : FileStore) : Serves items s s :=
  ⟨.refl s, fun _ _ _ _ ↦ rfl⟩

theorem trans (h : Serves items s s') (h' : Serves items s' s'') : Serves items s s'' := by
  refine ⟨h.toRenews.trans h'.toRenews, fun item hitem m haim ↦ ?_⟩
  exact (h'.source item hitem m ((h.aim?_eq ..).trans haim)).trans (h.source item hitem m haim)

theorem exportable (h : Serves items s s') (hitems : Exportable items s) : Exportable items s' := by
  constructor
  case sources =>
    intro item hitem
    obtain ⟨m, time, haim, htime, hold⟩ := hitems.sources item hitem
    refine ⟨m, time, (h.aim?_eq ..).trans haim, ?_, Nat.lt_of_lt_of_le hold h.clock⟩
    rw [fileTime?, h.source item hitem m haim]
    exact htime
  case apart =>
    intro item hitem other hother
    rw [h.aim?_eq, h.aim?_eq]
    exact hitems.apart item hitem other hother
  case no_link =>
    intro item hitem l target haim hlink
    rw [h.aim?_eq] at haim
    exact hitems.no_link item hitem l target haim (h.no_link l target hlink)

/-- What is up to date stays so. -/
theorem upToDate (h : Serves items s s') (hitems : Exportable items s) (hitem : item ∈ items)
    (hdate : item.UpToDate s) : item.UpToDate s' := by
  obtain ⟨there, here, htimes, hnewer⟩ := hdate
  obtain ⟨l, m, ⟨hdest, hl, hthere⟩, hsource, hm, hhere⟩ := ExportItem.times_eq_ok_iff.1 htimes
  obtain ⟨time, haim, htime, hold⟩ := hitems.source_eq hitem hsource
  obtain rfl : time = here := by
    rw [timeAt?_of_fileTime? htime] at hhere
    exact hhere
  have hsame := h.source item hitem m haim
  have htimeAt : s.timeAt? l = some there := by
    cases hnone : s.timeAt? l with
    | none =>
      rw [hnone] at hthere
      subst hthere
      exact absurd hnewer (Nat.not_lt_zero _)
    | some there' =>
      rw [hnone] at hthere
      exact congrArg some hthere
  obtain ⟨there', htime', hlate⟩ := h.exists_timeAt? htimeAt
  refine ⟨there', time, ExportItem.times_eq_ok_iff.2 ⟨l, m, ⟨h.toKeeps.resolve_eq hl hdest, ?_, ?_⟩,
    h.toKeeps.resolve_eq hm hsource, ?_, ?_⟩, ?_⟩
  · obtain ⟨d, hd, -⟩ := Option.bind_eq_some_iff.1 htime'
    exact Option.isSome_of_eq_some hd
  · rw [htime', Option.getD_some]
  · rwa [hsame]
  · rw [timeAt?, hsame, ← timeAt?, timeAt?_of_fileTime? htime, Option.getD_some]
  · rcases hlate with rfl | hlate
    · exact hnewer
    · exact Nat.lt_of_lt_of_le hold hlate

end Serves

/-! ### One item -/

namespace ExportItem

theorem Clears.stamps (h : item.Clears s cleared) : s.Stamps cleared := by
  cases h with
  | absent => exact .refl s
  | removed _ _ hremove => exact .removeFile hremove

theorem Rooms.stamps (h : item.Rooms s made) : s.Stamps made := by
  obtain ⟨cleared, hclears, hmake⟩ := h
  exact hclears.stamps.trans (Renews.of_createFolderOf hmake).toStamps

/-- If anything has been removed, it was a file at the destination, and the item can be copied there at once. -/
theorem Clears.eq_or_replaces (h : item.Clears s cleared) (hs : s.Sound) (hitems : Exportable items s)
    (hitem : item ∈ items) : cleared = s ∨
      ∃ y, s.resolve true item.destination = .ok (.existing y) ∧ s.HasFile y ∧ s.Loses y cleared ∧
        cleared.createFolderOf item.destination = (.ok (), cleared) ∧
        ∃ s', cleared.copyFile item.source item.destination = .ok s' := by
  cases h with
  | absent => exact Or.inl rfl
  | removed htimes hnewer hremove =>
    refine Or.inr ?_
    obtain ⟨y, e, hlocate, hkind, hloses⟩ := exists_loses hremove
    obtain ⟨hplace, hfind⟩ := locate_eq_ok_iff.1 hlocate
    have hlink (target : String) : e ≠ .link target := fun heq ↦
      hitems.no_link item hitem y target (aim?_of_resolve hplace) (heq ▸ hfind)
    have hfile : s.HasFile y := by
      cases e with
      | file => exact hasFile_of_find? hfind
      | folder => cases hkind
      | link target => exact absurd rfl (hlink target)
    have hdest := resolve_of_locate_false hlocate hlink
    -- the times are known, so there is a source, and it is not at the destination
    obtain ⟨-, m, -, hsource, -⟩ := times_eq_ok_iff.1 htimes
    obtain ⟨time, haim, htime, -⟩ := hitems.source_eq hitem hsource
    have hne : m ≠ y := by
      rintro rfl
      exact hitems.apart item hitem item hitem ((aim?_of_resolve hdest).trans haim.symm)
    obtain ⟨hroom, hcopied⟩ := room_of_loses hs hlocate hfile hloses
    exact ⟨y, hdest, hfile, hloses, hroom,
      hcopied m hsource (fileTime?_isSome_iff.1 (Option.isSome_of_eq_some htime)) hne⟩

/-- Where there is room, folders have been made at most, or a file has been removed and can be copied. -/
theorem Rooms.furnished_or_replaces (h : item.Rooms s made) (hs : s.Sound) (hitems : Exportable items s)
    (hitem : item ∈ items) : (s.Renews made ∧ ∀ x, s.HasFile x → made.find? x = s.find? x) ∨
      ∃ y, s.resolve true item.destination = .ok (.existing y) ∧ s.HasFile y ∧ s.Loses y made ∧
        ∃ s', made.copyFile item.source item.destination = .ok s' := by
  obtain ⟨cleared, hclears, hmake⟩ := h
  rcases hclears.eq_or_replaces hs hitems hitem with rfl | ⟨y, hplace, hfile, hloses, hroom, hcopied⟩
  · exact Or.inl ⟨.of_createFolderOf hmake, fun x hfile ↦ find?_of_createFolderOf hfile hmake⟩
  · rw [hroom] at hmake
    cases hmake
    exact Or.inr ⟨y, hplace, hfile, hloses, hcopied⟩

/-- Copying an item renews the files, and every file is as it was but the one at the destination. -/
theorem Rooms.renews_of_copyFile (h : item.Rooms s made) (hs : s.Sound) (hitems : Exportable items s)
    (hitem : item ∈ items) (hcopy : made.copyFile item.source item.destination = .ok s') :
    s.Renews s' ∧ ∀ x, s.HasFile x → s'.find? x = s.find? x ∨ s.aim? true item.destination = some x := by
  obtain ⟨-, -, -, hstamps⟩ := exists_stamped_of_copyFile hcopy
  obtain ⟨-, w, -, -, hwrites, -⟩ := exists_writes_of_copyFile hcopy
  have hwritten {x : Location} (hfile : s.HasFile x) (hsame : made.find? x = s.find? x) (hx : x ≠ w) :
      s'.find? x = s.find? x :=
    (hwrites.find?_eq hx (hfile.of_find?_eq hsame)).trans hsame
  rcases h.furnished_or_replaces hs hitems hitem with ⟨hrenews, hsame⟩ | ⟨y, hplace, hfile, hloses, -⟩
  · refine ⟨hrenews.trans (.of_writes hwrites hstamps), fun x hfile ↦ ?_⟩
    by_cases hx : x = w
    · obtain ⟨dest, hdest, hlocation⟩ := hwrites.exists_dest
      refine Or.inr ?_
      rw [← hrenews.aim?_eq, aim?_of_resolve hdest, hlocation, hx]
    · exact Or.inl (hwritten hfile (hsame x hfile) hx)
  · -- the file that was removed is written again
    obtain rfl : w = y := hloses.eq_of_writes hfile hplace hwrites
    refine ⟨.of_loses hloses hfile hwrites (h.stamps.trans hstamps), fun x hfile' ↦ ?_⟩
    by_cases hx : x = w
    · exact Or.inr (hx ▸ aim?_of_resolve hplace)
    · exact Or.inl (hwritten hfile' (hloses.find?_eq hx hfile') hx)

/-- Whatever an item comes to renews the files, and every file is as it was but the one at the destination of an
item that is copied. -/
theorem Ends.renews (h : item.Ends s result s') (hs : s.Sound) (hitems : Exportable items s)
    (hitem : item ∈ items) : s.Renews s' ∧ ∀ x, s.HasFile x →
      s'.find? x = s.find? x ∨ result = .ok true ∧ s.aim? true item.destination = some x := by
  cases h with
  | unknown | newer | occupied => exact ⟨.refl s, fun _ _ ↦ Or.inl rfl⟩
  | unplaced hclears _ hmake =>
    rcases hclears.eq_or_replaces hs hitems hitem with rfl | ⟨y, -, -, -, hroom, -⟩
    · exact ⟨.of_createFolderOf hmake, fun x hfile ↦ Or.inl (find?_of_createFolderOf hfile hmake)⟩
    · rw [hroom] at hmake
      cases hmake
  | uncopied hrooms hcopy =>
    rcases hrooms.furnished_or_replaces hs hitems hitem with ⟨hrenews, hsame⟩ | ⟨y, -, -, -, after, hafter⟩
    · exact ⟨hrenews, fun x hfile ↦ Or.inl (hsame x hfile)⟩
    · rw [hafter] at hcopy
      cases hcopy
  | copied hrooms hcopy =>
    obtain ⟨hrenews, hfiles⟩ := hrooms.renews_of_copyFile hs hitems hitem hcopy
    exact ⟨hrenews, fun x hfile ↦ (hfiles x hfile).imp_right fun haim ↦ ⟨rfl, haim⟩⟩

theorem Ends.serves (h : item.Ends s result s') (hs : s.Sound) (hitems : Exportable items s)
    (hitem : item ∈ items) : Serves items s s' := by
  obtain ⟨hrenews, hfiles⟩ := h.renews hs hitems hitem
  refine ⟨hrenews, fun other hother m haim ↦ ?_⟩
  obtain ⟨m', time, haim', htime, -⟩ := hitems.sources other hother
  obtain rfl : m' = m := Option.some.inj (haim'.symm.trans haim)
  rcases hfiles m' (fileTime?_isSome_iff.1 (Option.isSome_of_eq_some htime)) with hsame | ⟨-, hdest⟩
  · exact hsame
  · exact absurd (hdest.trans haim.symm) (hitems.apart item hitem other hother)

/-- An item that has not failed is up to date. -/
theorem Ends.upToDate (h : item.Ends s (.ok copied) s') (hs : s.Sound) (hitems : Exportable items s)
    (hitem : item ∈ items) : item.UpToDate s' := by
  have hserves := h.serves hs hitems hitem
  cases h with
  | newer htimes hnewer => exact ⟨_, _, htimes, hnewer⟩
  | @copied made _ hrooms hcopy =>
    obtain ⟨l, hdest, hcopied, -⟩ := exists_stamped_of_copyFile hcopy
    obtain ⟨m, w, hsource, hfile, hwrites, -⟩ := exists_writes_of_copyFile hcopy
    have hthere := hwrites.keeps.resolve_eq (isSome_of_hasFile hfile) hsource
    -- the source is as it was, and was older than the clock
    obtain ⟨m', time, haim, htime, hold⟩ := hitems.sources item hitem
    obtain rfl : m = m' := hserves.location_eq haim hthere
    have hsame := hserves.source item hitem m haim
    have hstill : s'.fileTime? m = some time := by
      rw [fileTime?, hsame]
      exact htime
    refine ⟨made.clock, time, times_eq_ok_iff.2 ⟨l, m, ⟨hdest, isSome_of_fileTime? hcopied, ?_⟩, hthere,
      isSome_of_fileTime? hstill, ?_⟩, Nat.lt_of_lt_of_le hold hrooms.stamps.clock⟩
    · rw [timeAt?_of_fileTime? hcopied, Option.getD_some]
    · rw [timeAt?_of_fileTime? hstill, Option.getD_some]

/-- An item that is up to date is not copied. -/
theorem Ends.ne_copied (h : item.Ends s result s') (hdate : item.UpToDate s) : result ≠ .ok true := by
  rintro rfl
  have hexists := hdate.pathExists
  obtain ⟨there, here, htimes, hnewer⟩ := hdate
  cases h with
  | copied hrooms =>
    obtain ⟨cleared, hclears, -⟩ := hrooms
    cases hclears with
    | absent habsent =>
      rw [hexists] at habsent
      cases habsent
    | removed htimes' hnot =>
      rw [htimes] at htimes'
      cases htimes'
      exact hnot hnewer

/-- An item leaves the contents at the destination of one that is up to date, unless it is copied there. -/
theorem Ends.readBytes_eq {other : ExportItem} (h : other.Ends s result s') (hs : s.Sound)
    (hitems : Exportable items s) (hother : other ∈ items) (hdate : item.UpToDate s) :
    s'.readBytes item.destination = s.readBytes item.destination ∨
      result = .ok true ∧ other ≠ item ∧ s.aim? true other.destination = s.aim? true item.destination := by
  obtain ⟨hrenews, hfiles⟩ := h.renews hs hitems hother
  obtain ⟨there, here, htimes, -⟩ := id hdate
  obtain ⟨l, -, ⟨hdest, hsome, -⟩, -⟩ := times_eq_ok_iff.1 htimes
  have hdest' := hrenews.toKeeps.resolve_eq hsome hdest
  obtain ⟨e, hfind⟩ := Option.isSome_iff_exists.1 hsome
  obtain ⟨e', hfind', hkept⟩ := hrenews.exists_find? hfind
  simp only [FileStore.readBytes, stat_eq_ok_iff.2 ⟨l, hdest, hfind⟩, stat_eq_ok_iff.2 ⟨l, hdest', hfind'⟩]
  cases e with
  | file content executable time =>
    rcases hfiles l (hasFile_of_find? hfind) with hsame | ⟨rfl, haim⟩
    · rw [hfind, hfind'] at hsame
      cases hsame
      exact Or.inl rfl
    · -- the other one is copied to the same place, so it is not this one
      refine Or.inr ⟨rfl, ?_, haim.trans (aim?_of_resolve hdest).symm⟩
      rintro rfl
      exact h.ne_copied hdate rfl
  | folder time =>
    cases e' <;> cases hkept
    exact Or.inl rfl
  | link target =>
    cases e' <;> cases hkept
    exact Or.inl rfl

end ExportItem

/-! ### All items -/

section Runs

variable {steps : List Exported}

theorem ExportsAll.sound (h : ExportsAll s steps s') (hs : s.Sound) : s'.Sound := by
  induction h with
  | nil => exact hs
  | cons hfirst _ ih => exact ih (hfirst.sound hs)

/-- An export serves its items, step after step. -/
theorem ExportsAll.serves (h : ExportsAll s steps s') (hs : s.Sound) (hitems : Exportable items s)
    (hsteps : ∀ step ∈ steps, step.item ∈ items) : Serves items s s' := by
  induction h with
  | nil => exact .refl items _
  | cons hfirst _ ih =>
    obtain ⟨hitem, hrest⟩ := List.forall_mem_cons.1 hsteps
    have hserves := hfirst.serves hs hitems hitem
    exact hserves.trans (ih (hfirst.sound hs) (hserves.exportable hitems) hrest)

/-- When no item has failed, all are up to date. -/
theorem ExportsAll.upToDate (h : ExportsAll s steps s') (hs : s.Sound) (hitems : Exportable items s)
    (hsteps : ∀ step ∈ steps, step.item ∈ items) (hfailed : ∀ step ∈ steps, step.isFailed = false) :
    ∀ step ∈ steps, step.item.UpToDate s' := by
  induction h with
  | nil => exact List.forall_mem_nil _
  | @cons step steps _ hfirst hrest ih =>
    obtain ⟨hitem, hitems'⟩ := List.forall_mem_cons.1 hsteps
    obtain ⟨hok, hothers⟩ := List.forall_mem_cons.1 hfailed
    have hafter := (hfirst.serves hs hitems hitem).exportable hitems
    have hsound := hfirst.sound hs
    refine List.forall_mem_cons.2 ⟨?_, ih hsound hafter hitems' hothers⟩
    obtain ⟨copied, hresult⟩ := Exported.exists_copied hok
    rw [hresult] at hfirst
    -- up to date when its turn is over, and left so by the turns of the others
    exact (hrest.serves hsound hafter hitems').upToDate hafter hitem (hfirst.upToDate hs hitems hitem)

/-- The destination of an item that is up to date keeps its contents, unless another item is copied there. -/
theorem ExportsAll.readBytes_eq (h : ExportsAll s steps s') (hs : s.Sound) (hitems : Exportable items s)
    (hsteps : ∀ step ∈ steps, step.item ∈ items) (hitem : item ∈ items) (hdate : item.UpToDate s) :
    s'.readBytes item.destination = s.readBytes item.destination ∨
      ∃ step ∈ steps, step.isCopied = true ∧ step.item ≠ item ∧
        s.aim? true step.item.destination = s.aim? true item.destination := by
  induction h with
  | nil => exact Or.inl rfl
  | @cons step steps _ hfirst _ ih =>
    obtain ⟨hstep, hrest⟩ := List.forall_mem_cons.1 hsteps
    have hserves := hfirst.serves hs hitems hstep
    rcases hfirst.readBytes_eq hs hitems hstep hdate with hsame | ⟨hresult, hne, haim⟩
    · rcases ih (hfirst.sound hs) (hserves.exportable hitems) hrest (hserves.upToDate hitems hitem hdate)
        with hlater | ⟨later, hlater, hcopied, hne, haim⟩
      · exact Or.inl (hlater.trans hsame)
      · rw [hserves.aim?_eq, hserves.aim?_eq] at haim
        exact Or.inr ⟨later, List.mem_cons_of_mem _ hlater, hcopied, hne, haim⟩
    · refine Or.inr ⟨step, List.mem_cons_self, ?_, hne, haim⟩
      rw [Exported.isCopied, hresult]
      rfl

end Runs

/-! ### A second export -/

section Sessions

variable {session before : Session} {ran : ExportReport × Session} {project : Project} {target : Path}

/-- An item that is up to date is skipped. -/
theorem ExportItem.UpToDate.run_record (h : item.UpToDate session.files) (report : ExportReport) :
    (item.record report).run session = ({ report with skipped := report.skipped + 1 }, session) := by
  have hexists := h.pathExists
  obtain ⟨there, here, htimes, hnewer⟩ := h
  have hprepare : item.prepare.run session = (.ok false, session) := by
    simp [ExportItem.prepare, hexists, htimes, hnewer]
    rfl
  have hcopy : item.copy.run session = (.ok false, session) := by
    rw [ExportItem.copy, Session.run_bind, hprepare]
    rfl
  rw [ExportItem.record, Session.run_bind, hcopy]
  rfl

/-- Items that are up to date are skipped, one after the other. -/
theorem run_exportItems_of_upToDate (h : ∀ item ∈ items, item.UpToDate session.files) (report : ExportReport) :
    (items.foldlM ExportItem.record report).run session =
      ({ report with skipped := report.skipped + items.length }, session) := by
  induction items generalizing report with
  | nil => rfl
  | cons item items ih =>
    obtain ⟨hfirst, hrest⟩ := List.forall_mem_cons.1 h
    rw [List.foldlM_cons, Session.run_bind, hfirst.run_record, ih hrest, List.length_cons, Nat.add_assoc,
      Nat.add_comm 1]

/-- The items that an export takes: the headers, and the artifact if it is there when they have been taken. -/
def takenItems (project : Project) (target : Path) (before : Session) : List ExportItem :=
  let copied := ((project.headerItems target).foldlM ExportItem.record {}).run before
  project.headerItems target ++
    if copied.2.files.pathExists project.artifact then (project.artifactItem? target).toList else []

/-- An export takes its items one after the other, and tells if there is no artifact. -/
theorem run_exportTo (project : Project) (target : Path) (before : Session) :
    let ran := (project.exportTo target).run before
    let taken := ((project.takenItems target before).foldlM ExportItem.record {}).run before
    ran.1 = taken.1 ∧ ran.2.files = taken.2.files := by
  simp only [takenItems, exportTo, List.foldlM_append, Session.run_bind]
  generalize ((project.headerItems target).foldlM ExportItem.record {}).run before = copied
  simp only [show (get : StateM Session Session).run copied.2 = (copied.2, copied.2) from rfl]
  split
  · cases project.artifactItem? target with
    | none => exact ⟨rfl, rfl⟩
    | some item =>
      rw [Option.toList_some, List.foldlM_cons, Session.run_bind]
      exact ⟨rfl, rfl⟩
  · exact ⟨rfl, rfl⟩

/-- What an export comes to, item after item. -/
theorem exists_taken (project : Project) (target : Path) (hran : (project.exportTo target).run before = ran) :
    ∃ steps : List Exported, steps.map Exported.item = project.takenItems target before ∧
      ExportsAll before.files steps ran.2.files ∧ ran.1 = reportOf steps := by
  obtain ⟨hreport, hfiles⟩ := run_exportTo project target before
  rw [hran] at hreport hfiles
  have hdoes := Session.does_exportItems {} (project.takenItems target before) before.files before rfl
  generalize ((project.takenItems target before).foldlM ExportItem.record {}).run before = taken at *
  obtain ⟨-, -, -, steps, hsteps, hall, htaken⟩ := hdoes
  refine ⟨steps, hsteps, ?_, ?_⟩
  · rw [hfiles]
    exact hall
  · rw [hreport, htaken, foldl_addTo]

/-- An export from which all items come out up to date leaves the next one nothing to do. -/
theorem run_exportTo_of_upToDate (hran : (project.exportTo target).run session = ran)
    (h : ∀ item ∈ project.takenItems target session, item.UpToDate session.files) :
    ran.1 = { skipped := (project.takenItems target session).length } ∧ ran.2.files = session.files := by
  obtain ⟨hreport, hfiles⟩ := run_exportTo project target session
  rw [hran, run_exportItems_of_upToDate h] at hreport hfiles
  exact ⟨by rw [hreport, Nat.zero_add], hfiles⟩

/-- Each item is counted once. -/
theorem count_reportOf (steps : List Exported) : (reportOf steps).copied.length + (reportOf steps).skipped +
    (reportOf steps).failed = steps.length := by
  induction steps with
  | nil => rfl
  | cons step steps ih =>
    rw [List.length_cons, ← ih]
    obtain ⟨item, before, result, after⟩ := step
    rcases result with e | _ | _ <;>
      simp [reportOf, Exported.isCopied, Exported.isSkipped, Exported.isFailed, Except.toOption] <;> omega

/-- The artifact is taken if it is there in the end. -/
theorem takenItems_eq (hs : before.files.Sound)
    (hitems : Exportable (project.takenItems target before) before.files)
    (hran : (project.exportTo target).run before = ran) :
    project.takenItems target before = project.headerItems target ++
      if ran.2.files.pathExists project.artifact then (project.artifactItem? target).toList else [] := by
  obtain ⟨-, hfiles⟩ := run_exportTo project target before
  rw [← hran, hfiles]
  clear hran
  have hheaders := Session.does_exportItems {} (project.headerItems target) before.files before rfl
  rw [takenItems] at hitems ⊢
  simp only [List.foldlM_append, Session.run_bind]
  generalize ((project.headerItems target).foldlM ExportItem.record {}).run before = copied at *
  obtain ⟨-, -, -, headers, hmap, hfirst, -⟩ := hheaders
  have hserves := hfirst.serves hs hitems fun step hstep ↦
    List.mem_append_left _ (hmap ▸ List.mem_map_of_mem hstep)
  have hrest := Session.does_exportItems copied.1
    (if copied.2.files.pathExists project.artifact then (project.artifactItem? target).toList else [])
    copied.2.files copied.2 rfl
  generalize hran : (List.foldlM ExportItem.record copied.1 _).run copied.2 = ran at *
  obtain ⟨-, -, -, artifact, hmap', hlast, -⟩ := hrest
  have hrenews := hlast.serves (hfirst.sound hs) (hserves.exportable hitems) fun step hstep ↦
    List.mem_append_right _ (hmap' ▸ List.mem_map_of_mem hstep)
  cases hexists : copied.2.files.pathExists project.artifact with
  | true => rw [hrenews.pathExists hexists]
  | false =>
    rw [hexists] at hran
    obtain rfl : copied = ran := hran
    rw [hexists]

/-- A store with two headers, of which one has been exported since it was changed, and an artifact. -/
def halfExported : FileStore where
  entries := [(.root, .folder 0), (⟨["src"]⟩, .folder 0),
    (⟨["src", "a.h"]⟩, .file (Text.Utf8.encode "int a;\n") false 10),
    (⟨["src", "b.h"]⟩, .file (Text.Utf8.encode "int b;\n") false 10), (⟨["bin"]⟩, .folder 0),
    (⟨["bin", "app"]⟩, .file (Text.Utf8.encode "app") true 10), (⟨["out"]⟩, .folder 0),
    (⟨["out", "include"]⟩, .folder 0), (⟨["out", "include", "app"]⟩, .folder 0),
    (⟨["out", "include", "app", "b.h"]⟩, .file (Text.Utf8.encode "int c;\n") false 20)]
  clock := 40

/-- Every source is older than the clock, and no destination is spelled as a source is. -/
def looksExportable (items : List ExportItem) (s : FileStore) : Bool :=
  items.all fun item ↦ (s.modified? item.source).any (· < s.clock) &&
    items.all fun other ↦ item.destination ≠ other.source

/-- What an export and a second one report. -/
def exportTwice (project : Project) (target : Path) (s : FileStore) : ExportReport × ExportReport :=
  let ran := (project.exportTo target).run { files := s }
  (ran.1, ((project.exportTo target).run ran.2).1)

/-- A store in which the place of one header is a link to a folder that holds the place of another. -/
def folderBehindLink : FileStore where
  entries := [(.root, .folder 0), (⟨["a"]⟩, .folder 0), (⟨["a", "x.h"]⟩, .folder 0),
    (⟨["a", "x.h", "y.h"]⟩, .file .empty false 10), (⟨["b"]⟩, .folder 0),
    (⟨["b", "x.h"]⟩, .file .empty false 10), (⟨["d"]⟩, .folder 5), (⟨["d", "y.h"]⟩, .file .empty false 20),
    (⟨["out"]⟩, .folder 0), (⟨["out", "include"]⟩, .folder 0), (⟨["out", "include", "app"]⟩, .folder 0),
    (⟨["out", "include", "app", "x.h"]⟩, .link "../../../d")]
  clock := 40

/-- A store with two headers, where the place of the second is a link to a file, and the first one is, or is a
link to that place. -/
def fileBehindLink (first : Entry) : FileStore where
  entries := [(.root, .folder 0), (⟨["src"]⟩, .folder 0), (⟨["src", "a.h"]⟩, first),
    (⟨["src", "b.h"]⟩, .file .empty false 10), (⟨["f.h"]⟩, .file .empty false 5), (⟨["out"]⟩, .folder 0),
    (⟨["out", "include"]⟩, .folder 0), (⟨["out", "include", "app"]⟩, .folder 0),
    (⟨["out", "include", "app", "b.h"]⟩, .link "../../../f.h")]
  clock := 40

/-- A store with a header, and another one where it is exported to, or a folder instead of that. -/
def turnedHeader (turned : List (Location × Entry)) : FileStore where
  entries := [(.root, .folder 0), (⟨["src"]⟩, .folder 0), (⟨["src", "y.h"]⟩, .file .empty false 10),
    (⟨["out"]⟩, .folder 0), (⟨["out", "include"]⟩, .folder 0)] ++ turned
  clock := 40

end Sessions

end Project

end Rebuild
