import Rebuild.Proofs.FileStore.Heading
import Rebuild.Proofs.Project.Exporting
import Rebuild.Proofs.Project.Sources

/-!
# Where headers are exported to

The destination of a header is the folder of the exported headers and the header's place: what follows the
first source folder in its path. So headers have one destination if and only if they have one place, which
headers behind one folder have not. A place is made of ordinary names, unless another source folder, in which
the header was found, is spelled with a double dot behind the first one.

An export that does not fail leaves the contents of a header at its destination when there was nothing in
the target before, or those of another header with the same place (`Project.exported_places`).
-/

namespace Rebuild

open FileStore

variable {s s' s'' b : FileStore} {l x : Location} {p : Path} {content : ByteArray}

namespace FileStore

/-! ### Filling free locations -/

theorem KeepsWays.trans (h : s.KeepsWays s') (h' : s'.KeepsWays s'') : s.KeepsWays s'' :=
  ⟨h'.current.trans h.current, fun l kind hne hkind ↦ h'.kind l kind hne (h.kind l kind hne hkind)⟩

/-- The store `s'` is `s` with a file at a location, or none, and folders around it. -/
structure Fills (s : FileStore) (l : Location) (s' : FileStore) : Prop where
  /-- Folders and links are kept. -/
  keepsWays : s.KeepsWays s'
  /-- No link has come. -/
  no_link : ∀ x target, s'.find? x = some (.link target) → s.find? x = some (.link target)
  /-- Other files are as they were. -/
  kept : ∀ x, x ≠ l → s.HasFile x → s'.find? x = s.find? x
  /-- Only what is around the location has come. -/
  free : ∀ x, x ∉ l.around → s.find? x = none → s'.find? x = none

namespace Fills

theorem refl (s : FileStore) (l : Location) : s.Fills l s :=
  ⟨⟨rfl, fun _ _ _ h ↦ h⟩, fun _ _ h ↦ h, fun _ _ _ ↦ rfl, fun _ _ h ↦ h⟩

theorem trans (h : s.Fills l s') (h' : s'.Fills l s'') : s.Fills l s'' where
  keepsWays := h.keepsWays.trans h'.keepsWays
  no_link x target hlink := h.no_link x target (h'.no_link x target hlink)
  kept x hx hfile := by
    have hsame := h.kept x hx hfile
    exact (h'.kept x hx (hfile.of_find?_eq hsame)).trans hsame
  free x hx hfree := h'.free x hx (h.free x hx hfree)

theorem of_loses (hfile : s.HasFile l) (h : s.Loses l s') : s.Fills l s' := by
  have hkind {x : Location} (hx : x ≠ l) : s'.kind? x = s.kind? x := h.kind?_eq hx
  refine ⟨h.keepsWays hfile, fun x target hlink ↦ ?_, fun x ↦ h.find?_eq, fun x hx hfree ↦ ?_⟩
  · have hx : x ≠ l := by
      rintro rfl
      rw [h.gone] at hlink
      cases hlink
    rw [← kind?_eq_link_iff] at hlink ⊢
    exact (hkind hx).symm.trans hlink
  · have hx : x ≠ l := by
      rintro rfl
      exact hx (Location.self_mem_around _)
    rw [← kind?_eq_none_iff] at hfree ⊢
    exact (hkind hx).trans hfree

theorem of_writes (h : s.Writes p l s') : s.Fills l s' := by
  refine ⟨h.keeps.keepsWays, fun x target ↦ h.no_link, fun x ↦ h.find?_eq, fun x hx hfree ↦ ?_⟩
  have hx : x ≠ l := by
    rintro rfl
    exact hx (Location.self_mem_around _)
  rw [← kind?_eq_none_iff] at hfree ⊢
  exact (h.kind?_eq hx).trans hfree

/-- Making the folders on the way to a location. -/
theorem of_createFolderOf (hs : s.WellFormed) (h : s.HeadsFor p l)
    (hnul : p.text.toList.contains '\x00' = false) (hshort : tooLong p = false) :
    s.Fills l (s.createFolderOf p).2 := by
  have hfurnishes := furnishes_createFolderOf s p
  refine ⟨hfurnishes.keeps.keepsWays, fun x target ↦ hfurnishes.no_link,
    fun x _ hfile ↦ hfurnishes.find?_eq (isSome_of_hasFile hfile) hfile.not_hasFolder,
    fun x hx hfree ↦ ?_⟩
  rw [createFolderOf]
  split
  · rename_i folder hfolder
    refine h.find?_createFolders hs hnul hshort (fun hmem ↦ hx ?_) hfree hfolder
    exact Location.mem_around_trans hmem l.parent_mem_around
  · exact hfree

/-- Where a path led to a file it still does. -/
theorem lead_eq (h : s.Fills l s') {m : Location} (hm : m ≠ l) (hfile : s.HasFile m)
    (hlead : s.lead true p = .ok (.existing m)) : s'.lead true p = .ok (.existing m) := by
  refine h.keepsWays.lead_eq ?_ hlead
  rw [kind?, kind?, h.kept m hm hfile]

end Fills

/-- A path that can be given to the system leads where it leads however long it is. -/
theorem resolve_of_lead {followLast : Bool} {dest dest' : Destination}
    (h : s.resolve followLast p = .ok dest) (hlead : s'.lead followLast p = .ok dest') :
    s'.resolve followLast p = .ok dest' := by
  rw [resolve] at h ⊢
  split at h
  · cases h
  · split at h
    · cases h
    · rename_i hnul hshort
      rw [if_neg hnul, if_neg hshort]
      exact hlead

theorem no_nul_of_resolve {followLast : Bool} {dest : Destination} (h : s.resolve followLast p = .ok dest) :
    p.text.toList.contains '\x00' = false ∧ tooLong p = false := by
  rw [resolve] at h
  split at h
  · cases h
  · split at h
    · cases h
    · exact ⟨Bool.eq_false_iff.2 ‹_›, Bool.eq_false_iff.2 ‹_›⟩

theorem readBytes_of_resolve (h : s.resolve true p = .ok (.existing l))
    (hcontent : s.content? l = some content) : s.readBytes p = .ok content := by
  obtain ⟨executable, time, hfind⟩ := content?_eq_some_iff.1 hcontent
  rw [readBytes, stat, locate_eq_ok_iff.2 ⟨h, hfind⟩]
  rfl

end FileStore

namespace Project

/-! ### One item -/

namespace ExportItem

variable {item : ExportItem} {copied : Bool} {cleared made : FileStore}

theorem Clears.fills (h : item.Clears s cleared) (hitem : s.HeadsFor item.destination l) :
    s.Fills l cleared := by
  cases h with
  | absent => exact .refl s l
  | removed _ _ hremove =>
    obtain ⟨x, e, hlocate, hkind, hloses⟩ := exists_loses hremove
    obtain ⟨hdest, hfind⟩ := locate_eq_ok_iff.1 hlocate
    obtain rfl : x = l := hitem.location_eq hdest
    refine .of_loses ?_ hloses
    cases e with
    | file => exact hasFile_of_find? hfind
    | folder => cases hkind
    | link target => exact absurd hfind (hitem.goesDownTo.ne_link target)

/-- The times are known of a destination only that leads to something. -/
theorem resolve_of_times {times : Time × Time} (h : item.times s = .ok times)
    (hitem : s.HeadsFor item.destination l) :
    s.resolve true item.destination = .ok (.existing l) ∧ (s.find? l).isSome := by
  rw [ExportItem.times] at h
  split at h
  · cases h
  · rename_i e hstat
    obtain ⟨x, hlocate⟩ := locate_of_stat hstat
    obtain ⟨hdest, hfind⟩ := locate_eq_ok_iff.1 hlocate
    obtain rfl : x = l := hitem.location_eq hdest
    exact ⟨hdest, Option.isSome_of_eq_some hfind⟩

/-- An item whose destination is newer changes nothing, and there is something at the destination. -/
theorem Ends.newer_iff (h : item.Ends s (.ok false) s') (hitem : s.HeadsFor item.destination l) :
    s' = s ∧ s.resolve true item.destination = .ok (.existing l) ∧ (s.find? l).isSome := by
  cases h with
  | newer htimes => exact ⟨rfl, resolve_of_times htimes hitem⟩

/-- An item that has been copied fills its location with the contents of its source. -/
theorem Ends.copied_fills (h : item.Ends s (.ok true) s') (hs : s.Sound)
    (hitem : s.HeadsFor item.destination l) :
    s.Fills l s' ∧ s'.resolve true item.destination = .ok (.existing l) ∧ s'.HasFile l ∧
      ∀ m, m ≠ l → s.HasFile m → s.lead true item.source = .ok (.existing m) →
        s.resolve true item.source = .ok (.existing m) ∧ s'.content? l = s.content? m := by
  cases h with
  | @copied made _ hrooms hcopy =>
    obtain ⟨cleared, hclears, hmake⟩ := hrooms
    obtain ⟨m', w, hsource, -, hwrites, hcontent⟩ := exists_writes_of_copyFile hcopy
    obtain ⟨dest, hdest, hlocation⟩ := hwrites.exists_dest
    obtain ⟨hnul, hshort⟩ := no_nul_of_resolve hdest
    have hfirst := hclears.fills hitem
    have hcleared := hitem.of_keepsWays hfirst.keepsWays hfirst.no_link
    have hmade := Fills.of_createFolderOf (hclears.sound hs).toWellFormed hcleared hnul hshort
    rw [hmake] at hmade
    have hroom := hfirst.trans hmade
    obtain rfl : w = l :=
      hlocation.symm.trans ((hitem.of_keepsWays hroom.keepsWays hroom.no_link).location_eq hdest)
    refine ⟨hroom.trans (.of_writes hwrites), hwrites.resolve_eq, hwrites.file, fun m hne hfile hlead ↦ ?_⟩
    have hthere := lead_of_resolve hsource
    rw [hroom.lead_eq hne hfile hlead] at hthere
    cases hthere
    exact ⟨resolve_of_lead hsource hlead, (hcontent hne).trans (content?_congr (hroom.kept _ hne hfile))⟩

/-- An item whose destination ends with a slash changes nothing, unless it fails. -/
theorem Ends.eq_of_slash (h : item.Ends s (.ok copied) s') (hs : s.Sound) {segments : List String}
    (hslash : item.destination.body = segments ++ [""]) : s' = s := by
  cases h with
  | newer => rfl
  | copied hrooms hcopy =>
    obtain ⟨_, _, -, -, hwrites, -⟩ := exists_writes_of_copyFile hcopy
    exact (hwrites.false_of_slash (hrooms.sound hs).toWellFormed hslash).elim

end ExportItem

/-! ### All items -/

section Serving

/-- What has been exported since: the store `s` is `b` with files at free locations, and folders around
them. -/
structure Outgrows (b s : FileStore) : Prop where
  /-- The store is sound. -/
  sound : s.Sound
  /-- Folders and links are kept. -/
  keepsWays : b.KeepsWays s
  /-- No link has come. -/
  no_link : ∀ x target, s.find? x = some (.link target) → b.find? x = some (.link target)
  /-- Files are as they were. -/
  files : ∀ x, b.HasFile x → s.find? x = b.find? x

/-- An item goes to a location that was free, where it does not stand in the way of another, and brings
contents that are good if it goes to that one. -/
structure Suits (b : FileStore) (good : ByteArray → Prop) (l : Location) (item : ExportItem)
    (x : Location) : Prop where
  /-- The destination heads for the location. -/
  heads : b.HeadsFor item.destination x
  /-- The location is free. -/
  free : b.find? x = none
  /-- It is not below the other one. -/
  aside : l ∈ x.around → x = l
  /-- The source is a file, and has good contents if it can be read. -/
  source : x = l → ∃ m, b.HasFile m ∧ b.lead true item.source = .ok (.existing m) ∧
    ∀ content, b.readBytes item.source = .ok content → good content

/-- There is a file with good contents. -/
def Holds (good : ByteArray → Prop) (s : FileStore) (l : Location) : Prop :=
  ∃ content, s.content? l = some content ∧ good content

variable {good : ByteArray → Prop} {item : ExportItem} {copied : Bool}

theorem Holds.hasFile (h : Holds good s l) : s.HasFile l := by
  obtain ⟨content, hcontent, -⟩ := h
  exact hasFile_of_content? hcontent

theorem Outgrows.refl (hs : s.Sound) : Outgrows s s :=
  ⟨hs, ⟨rfl, fun _ _ _ h ↦ h⟩, fun _ _ h ↦ h, fun _ _ ↦ rfl⟩

/-- A path that led to a file still does. -/
theorem Outgrows.lead_eq (h : Outgrows b s) (hfile : b.HasFile l)
    (hlead : b.lead true p = .ok (.existing l)) : s.lead true p = .ok (.existing l) := by
  refine h.keepsWays.lead_eq ?_ hlead
  rw [kind?, kind?, h.files l hfile]

/-- Where something was free that is filled, the store outgrows what it was. -/
theorem Outgrows.of_fills (h : Outgrows b s) (hfills : s.Fills x s') (hs : s'.Sound)
    (hfree : b.find? x = none) : Outgrows b s' where
  sound := hs
  keepsWays := h.keepsWays.trans hfills.keepsWays
  no_link y target hlink := h.no_link y target (hfills.no_link y target hlink)
  files y hfile := by
    have hne : y ≠ x := by
      rintro rfl
      exact absurd (isSome_of_hasFile hfile) (by simp [hfree])
    have hsame := h.files y hfile
    exact (hfills.kept y hne (hfile.of_find?_eq hsame)).trans hsame

/-- What an item does that has not failed. -/
theorem Outgrows.step (h : Outgrows b s) (hends : item.Ends s (.ok copied) s')
    (hsuits : Suits b good l item x) :
    Outgrows b s' ∧ s.Fills x s' ∧ s'.resolve true item.destination = .ok (.existing x) := by
  have hitem := hsuits.heads.of_keepsWays h.keepsWays h.no_link
  cases copied with
  | false =>
    obtain ⟨rfl, hdest, -⟩ := hends.newer_iff hitem
    exact ⟨h, .refl s' x, hdest⟩
  | true =>
    obtain ⟨hfills, hdest, -⟩ := hends.copied_fills h.sound hitem
    exact ⟨h.of_fills hfills (hends.sound h.sound) hsuits.free, hfills, hdest⟩

/-- Where there are good contents or nothing, there are so still. -/
theorem Outgrows.holds_step (h : Outgrows b s) (hends : item.Ends s (.ok copied) s')
    (hsuits : Suits b good l item x) (hl : s.find? l = none ∨ Holds good s l) :
    (s'.find? l = none ∨ Holds good s' l) ∧ (x = l ∨ Holds good s l → Holds good s' l) := by
  have hitem := hsuits.heads.of_keepsWays h.keepsWays h.no_link
  by_cases hx : x = l
  · -- the item goes to the location itself
    subst hx
    have hholds : Holds good s' x := by
      cases copied with
      | false =>
        obtain ⟨rfl, -, hsome⟩ := hends.newer_iff hitem
        rcases hl with hfree | hholds
        · rw [hfree] at hsome
          cases hsome
        · exact hholds
      | true =>
        obtain ⟨m, hfile, hlead, hgood⟩ := hsuits.source rfl
        have hne : m ≠ x := by
          rintro rfl
          exact absurd (isSome_of_hasFile hfile) (by simp [hsuits.free])
        obtain ⟨-, -, -, hcopy⟩ := hends.copied_fills h.sound hitem
        have hsame := h.files m hfile
        obtain ⟨hresolve, hcontents⟩ := hcopy m hne (hfile.of_find?_eq hsame) (h.lead_eq hfile hlead)
        obtain ⟨content, executable, time, hfind⟩ := exists_find?_of_hasFile hfile
        have hcontent : b.content? m = some content := content?_eq_some_iff.2 ⟨executable, time, hfind⟩
        have hread := readBytes_of_resolve (resolve_of_lead hresolve hlead) hcontent
        exact ⟨content, (hcontents.trans (content?_congr hsame)).trans hcontent, hgood content hread⟩
    exact ⟨Or.inr hholds, fun _ ↦ hholds⟩
  · obtain ⟨-, hfills, -⟩ := h.step hends hsuits
    have hkept (hholds : Holds good s l) : Holds good s' l := by
      obtain ⟨content, hcontent, hgood⟩ := hholds
      refine ⟨content, ?_, hgood⟩
      rw [content?_congr (hfills.kept l (Ne.symm hx) (hasFile_of_content? hcontent))]
      exact hcontent
    refine ⟨hl.imp (hfills.free l fun hmem ↦ hx (hsuits.aside hmem)) hkept, fun hor ↦ ?_⟩
    exact hkept (hor.resolve_left hx)

/-- When no item fails, the contents that come to a free location are good, and they stay where the path of
an item leads. -/
theorem ExportsAll.holds {steps : List Exported} (h : ExportsAll s steps s') (hb : Outgrows b s)
    (hfailed : ∀ step ∈ steps, step.isFailed = false)
    (hsuits : ∀ step ∈ steps, (∃ segments, step.item.destination.body = segments ++ [""]) ∨
      ∃ x, Suits b good l step.item x)
    (hl : s.find? l = none ∨ Holds good s l) (hp : b.HeadsFor p l)
    (hserves : (∃ step ∈ steps, step.item.destination = p) ∨
      s.resolve true p = .ok (.existing l) ∧ Holds good s l) :
    s'.resolve true p = .ok (.existing l) ∧ Holds good s' l := by
  induction h with
  | nil => exact hserves.resolve_left (by simp)
  | @cons step steps s' hfirst _ ih =>
    obtain ⟨copied, hresult⟩ := Exported.exists_copied (hfailed step List.mem_cons_self)
    rw [hresult] at hfirst
    have hgo {after : FileStore} (hafter : step.after = after) (hb : Outgrows b after)
        (hl : after.find? l = none ∨ Holds good after l)
        (hserves : (∃ other ∈ steps, other.item.destination = p) ∨
          after.resolve true p = .ok (.existing l) ∧ Holds good after l) :
        s'.resolve true p = .ok (.existing l) ∧ Holds good s' l := by
      subst hafter
      exact ih hb (fun other hother ↦ hfailed other (List.mem_cons_of_mem _ hother))
        (fun other hother ↦ hsuits other (List.mem_cons_of_mem _ hother)) hl hserves
    rcases hsuits step List.mem_cons_self with ⟨segments, hslash⟩ | ⟨x, hx⟩
    · -- nothing is copied, and the path is that of a later item
      refine hgo (hfirst.eq_of_slash hb.sound hslash) hb hl (hserves.imp_left ?_)
      rintro ⟨own, hown, rfl⟩
      rcases List.mem_cons.1 hown with rfl | hlater
      · exact absurd hslash (hp.body_ne segments)
      · exact ⟨own, hlater, rfl⟩
    · obtain ⟨hafter, hfills, hdest⟩ := hb.step hfirst hx
      obtain ⟨hplain, hholds⟩ := hb.holds_step hfirst hx hl
      refine hgo rfl hafter hplain ?_
      rcases hserves with ⟨own, hown, rfl⟩ | ⟨hthere, hgood⟩
      · rcases List.mem_cons.1 hown with rfl | hlater
        · obtain rfl := hx.heads.goesDownTo.unique hp.goesDownTo
          exact Or.inr ⟨hdest, hholds (Or.inl rfl)⟩
        · exact Or.inl ⟨own, hlater, rfl⟩
      · refine Or.inr ⟨hfills.keepsWays.resolve_eq ?_ hthere, hholds (Or.inr hgood)⟩
        exact (hholds (Or.inr hgood)).hasFile.trans hgood.hasFile.symm

end Serving

/-! ### Where headers go -/

variable {root target : Path} {config : Config} {stem : String} {installed : Option Path}
variable {project : Project} {header : ProjectFile}

/-- The folder that headers are exported to. -/
def headerFolder (project : Project) (target : Path) : Path :=
  (target.joinName "include").joinName project.config.name

/-- Where a header is exported to. -/
def headerDestination (project : Project) (target : Path) (header : ProjectFile) : Path :=
  (project.headerFolder target).join (project.placeBelowSource header.path)

/-- The first source folder that a path begins with. -/
def firstFolder? (project : Project) (p : Path) : Option Path :=
  project.config.sourceFolders.find? fun folder ↦ p.startsWith (project.root.join folder)

theorem headerItems_eq (project : Project) (target : Path) : project.headerItems target =
    project.headers.map fun header ↦ ⟨header.path, project.headerDestination target header⟩ :=
  rfl

theorem headerFolder_ne_empty (project : Project) (target : Path) :
    (project.headerFolder target).text ≠ "" :=
  Path.text_join_ne_empty (Or.inl (Path.text_join_ne_empty (Or.inr (by decide))))

/-- The place of a path is what follows the first source folder that it begins with. -/
theorem stripPrefix?_of_firstFolder? {folder : Path} (h : project.firstFolder? p = some folder) :
    p.stripPrefix? (project.root.join folder) = some (project.placeBelowSource p) := by
  have hfirst : project.config.sourceFolders.findSome? (fun folder ↦
      p.stripPrefix? (project.root.join folder)) = p.stripPrefix? (project.root.join folder) := by
    rw [firstFolder?] at h
    generalize project.config.sourceFolders = folders at h ⊢
    induction folders with
    | nil => cases h
    | cons other folders ih =>
      rw [List.find?_cons] at h
      rw [List.findSome?_cons]
      cases hstarts : p.startsWith (project.root.join other) with
      | true =>
        rw [hstarts] at h
        cases h
        obtain ⟨below, hbelow⟩ := Path.exists_stripPrefix? (List.isPrefixOf_iff_prefix.1 hstarts)
        rw [hbelow]
      | false =>
        rw [hstarts] at h
        rw [Path.stripPrefix?_eq_none hstarts]
        exact ih h
  have hstarts := List.find?_some h
  obtain ⟨below, hbelow⟩ := Path.exists_stripPrefix? (List.isPrefixOf_iff_prefix.1 hstarts)
  rw [placeBelowSource, hfirst, hbelow]

/-- A header is found in a source folder, below which it lies by ordinary names. -/
theorem exists_listed (hheader : header ∈ (scan s root config stem installed).headers) :
    ∃ found ∈ config.sourceFolders, header.path ∈ listed s root config found := by
  have hmem : header ∈ ProjectFile.scan s root config := (List.mem_filter.1 hheader).1
  exact List.mem_flatMap.1 (sublist_files.subset (List.mem_map_of_mem hmem))

theorem leadsToFile_of_mem_headers (hs : s.WellFormed)
    (hheader : header ∈ (scan s root config stem installed).headers) : s.LeadsToFile header.path := by
  obtain ⟨found, -, hlisted⟩ := exists_listed hheader
  exact hs.leadsToFile_walk hlisted

theorem components_of_mem_listed (hs : s.WellFormed) {found : Path} (h : p ∈ listed s root config found) :
    ∃ names : List String, p.components = (root.join found).components ++ names.map .name := by
  obtain ⟨-, names, -, hnames, rfl, -⟩ := hs.exists_names_of_mem_walk h
  exact ⟨names, Path.components_joinNames fun name hname ↦ (hnames name hname).segmentName⟩

theorem exists_firstFolder? (hs : s.WellFormed)
    (hheader : header ∈ (scan s root config stem installed).headers) :
    ∃ folder ∈ config.sourceFolders,
      (scan s root config stem installed).firstFolder? header.path = some folder := by
  obtain ⟨found, hfound, hlisted⟩ := exists_listed hheader
  obtain ⟨names, hnames⟩ := components_of_mem_listed hs hlisted
  have hstarts : header.path.startsWith (root.join found) = true :=
    List.isPrefixOf_iff_prefix.2 ⟨_, hnames.symm⟩
  have hsome : (config.sourceFolders.find? fun folder ↦ header.path.startsWith (root.join folder)).isSome :=
    List.find?_isSome.2 ⟨found, hfound, hstarts⟩
  obtain ⟨folder, hfolder⟩ := Option.isSome_iff_exists.1 hsome
  exact ⟨folder, List.mem_of_find?_eq_some hfolder, hfolder⟩

/-- What is known of the place of a header. -/
theorem place_of_mem_headers (hs : s.WellFormed)
    (hfolders : ∀ folder ∈ config.sourceFolders, root.join folder ≠ ⟨""⟩)
    (hheader : header ∈ (scan s root config stem installed).headers) :
    let project := scan s root config stem installed
    let place := project.placeBelowSource header.path
    place.Remainder ∧ ∃ folder ∈ config.sourceFolders, project.firstFolder? header.path = some folder ∧
      header.path.components = (root.join folder).components ++ place.components := by
  intro project place
  obtain ⟨folder, hmem, hfolder⟩ := exists_firstFolder? hs hheader
  have hplace := stripPrefix?_of_firstFolder? hfolder
  have hne : (root.join folder).components ≠ [] :=
    Path.components_ne_nil fun htext ↦ hfolders folder hmem (congrArg Path.mk htext)
  exact ⟨Path.remainder_of_stripPrefix? hplace hne, folder, hmem, hfolder,
    Path.components_stripPrefix? hplace⟩

/-- What a place has besides ordinary names is spelled by the source folder in which the header was found. -/
theorem isName_or_mem_drop (hs : s.WellFormed) {base place found : Path}
    (hplace : p.components = base.components ++ place.components) (hfound : p ∈ listed s root config found)
    {c : Component} (hc : c ∈ place.components) :
    c.isName = true ∨ c ∈ (root.join found).components.drop base.components.length := by
  obtain ⟨names, hnames⟩ := components_of_mem_listed hs hfound
  have hdrop : place.components =
      ((root.join found).components ++ names.map Component.name).drop base.components.length := by
    rw [← hnames, hplace, List.drop_left]
  rw [hdrop, List.drop_append] at hc
  rcases List.mem_append.1 hc with hfirst | hlater
  · exact Or.inr hfirst
  · obtain ⟨name, -, rfl⟩ := List.mem_map.1 (List.mem_of_mem_drop hlater)
    exact Or.inl rfl

/-! ### Into an empty target -/

/-- The location of a header that is exported below a location. -/
def headerLocation (project : Project) (top : Location) (header : ProjectFile) : Location :=
  top.descend ("include" :: ((⟨project.config.name⟩ : Path).names ++
    (project.placeBelowSource header.path).names))

/-- Whether bytes are the contents of a header that has the place of the given one. -/
def OfPlace (project : Project) (b : FileStore) (header : ProjectFile) (content : ByteArray) : Prop :=
  ∃ other ∈ project.headers,
    (project.placeBelowSource other.path).components = (project.placeBelowSource header.path).components ∧
      b.readBytes other.path = .ok content

section Deserted

variable {top : Location} (htop : b.Deserted target top) (hb : b.WellFormed)
include htop hb

theorem goesDownTo_joinName {name : String} (hslash : '/' ∉ name.toList) (hdots : name ≠ "..") :
    b.GoesDownTo (target.joinName name) (top.descend (⟨name⟩ : Path).names) :=
  htop.goesDown.join (.of_no_slash hslash hdots) fun before _ ↦ htop.no_link hb before

theorem headsFor_headerDestination (hname : (⟨project.config.name⟩ : Path).Descends)
    (hplace : (project.placeBelowSource header.path).Descends) {segments : List String} {segment : String}
    (hbody : (project.placeBelowSource header.path).body = segments ++ [segment])
    (hsegment : Path.matters segment = true) :
    b.HeadsFor (project.headerDestination target header) (project.headerLocation top header) := by
  have hinclude : b.GoesDownTo (target.joinName "include") (top.descend ["include"]) :=
    goesDownTo_joinName htop hb (by decide) (by decide)
  have hfolder : b.GoesDownTo (project.headerFolder target) _ := hinclude.join hname fun before _ ↦ by
    rw [← Location.descend_append]
    exact htop.no_link hb _
  have hdest := hfolder.headsFor_join hplace hbody hsegment fun before _ ↦ by
    rw [← Location.descend_append, ← Location.descend_append]
    exact htop.no_link hb _
  rwa [← Location.descend_append, ← Location.descend_append] at hdest

/-- The artifact goes beside the headers. -/
theorem headsFor_artifact {item : ExportItem} (hitem : project.artifactItem? target = some item) :
    ∃ folder name, folder ≠ "include" ∧ b.HeadsFor item.destination (top.descend [folder, name]) := by
  obtain ⟨name, hname, rfl⟩ := Option.map_eq_some_iff.1 hitem
  have hsegment : Path.SegmentName name := Path.segmentName_of_fileName? hname
  have hheads {folder : String} (hslash : '/' ∉ folder.toList) (hdots : folder ≠ "..")
      (hnames : (⟨folder⟩ : Path).names = [folder]) :
      b.HeadsFor ((target.joinName folder).joinName name) (top.descend [folder, name]) := by
    have hfolder := goesDownTo_joinName htop hb hslash hdots
    rw [hnames] at hfolder
    have hbody : (⟨name⟩ : Path).body = [] ++ [name] := Path.body_of_no_slash hsegment.no_slash
    have hdest := hfolder.headsFor_join (.of_no_slash hsegment.no_slash hsegment.ne_dots) hbody
      (by simp [Path.matters, hsegment.ne_empty, hsegment.ne_dot])
      fun before _ ↦ by
        rw [← Location.descend_append]
        exact htop.no_link hb _
    rwa [Path.names_of_segmentName hsegment, ← Location.descend_append] at hdest
  show ∃ folder name', _ ∧ b.HeadsFor
    ((target.joinName (if project.config.isLibrary then "lib" else "bin")).joinName name) _
  split
  · exact ⟨"lib", name, by decide, hheads (by decide) (by decide) (by decide)⟩
  · exact ⟨"bin", name, by decide, hheads (by decide) (by decide) (by decide)⟩

theorem suits_artifact {item : ExportItem} {good : ByteArray → Prop}
    (hitem : project.artifactItem? target = some item) (header : ProjectFile) :
    ∃ x, Suits b good (project.headerLocation top header) item x := by
  obtain ⟨folder, name, hfolder, hheads⟩ := headsFor_artifact htop hb hitem
  have haside : project.headerLocation top header ∉ (top.descend [folder, name]).around := by
    intro hmem
    have hprefix := (List.prefix_append_right_inj top.names).1 (Location.mem_around.1 hmem)
    exact hfolder (List.cons_prefix_cons.1 hprefix).1.symm
  refine ⟨_, hheads, htop.find?_descend hb (by simp), fun hmem ↦ absurd hmem haside, fun heq ↦ ?_⟩
  exact absurd (heq ▸ Location.self_mem_around _) haside

/-- An item of a header goes to the location of that header, or its destination ends with a slash. -/
theorem suits_header {other : ProjectFile} (hname : (⟨project.config.name⟩ : Path).Descends)
    (hplaces : ∀ header ∈ project.headers, (project.placeBelowSource header.path).Remainder ∧
      .parent ∉ (project.placeBelowSource header.path).components)
    (hother : other ∈ project.headers) (hheader : header ∈ project.headers)
    (hfile : b.LeadsToFile other.path)
    (haside : (project.placeBelowSource header.path).components <+:
        (project.placeBelowSource other.path).components →
      (project.placeBelowSource other.path).components = (project.placeBelowSource header.path).components) :
    (∃ segments, (project.headerDestination target other).body = segments ++ [""]) ∨
      ∃ x, Suits b (project.OfPlace b header) (project.headerLocation top header)
        ⟨other.path, project.headerDestination target other⟩ x := by
  obtain ⟨hremainder, hparent⟩ := hplaces other hother
  have hnames := hremainder.components_eq_names hparent
  have hnames' := (hplaces header hheader).1.components_eq_names (hplaces header hheader).2
  rcases hremainder.ends with hempty | ⟨segments, segment, hbody, hsegment⟩
  · refine Or.inl ⟨(project.headerFolder target).before, (Path.body_join hremainder.relative).trans ?_⟩
    rw [hempty]
    rfl
  · refine Or.inr ⟨_, headsFor_headerDestination htop hb hname (hremainder.descends hparent) hbody hsegment,
      htop.find?_descend hb (by simp), fun hmem ↦ ?_, fun heq ↦ ?_⟩
    · have hprefix := (List.prefix_append_right_inj top.names).1 (Location.mem_around.1 hmem)
      have hbehind := (List.prefix_append_right_inj _).1 (List.cons_prefix_cons.1 hprefix).2
      have hsame := haside (by rw [hnames, hnames']; exact hbehind.map _)
      rw [headerLocation, headerLocation, Path.names_of_components (hsame.trans hnames')]
    · have hbehind := (List.cons.inj (List.append_cancel_left (congrArg Location.names heq))).2
      obtain ⟨m, content, executable, time, hlead, hfind⟩ := hfile
      refine ⟨m, hasFile_of_find? hfind, hlead, fun content hread ↦ ⟨other, hother, ?_, hread⟩⟩
      rw [hnames, hnames', List.append_cancel_left hbehind]

end Deserted

/-- Where a header has been exported into an empty target there are its contents, or those of another header
with the same place. -/
theorem exists_ofPlace {before : Session} {ran : ExportReport × Session}
    (hran : (project.exportTo target).run before = ran) (hbefore : before.files.Sound) {top : Location}
    (htop : before.files.Deserted target top) (hname : (⟨project.config.name⟩ : Path).Descends)
    (hfailed : ran.1.failed = 0)
    (hplaces : ∀ header ∈ project.headers, (project.placeBelowSource header.path).Remainder ∧
      .parent ∉ (project.placeBelowSource header.path).components)
    (hfiles : ∀ header ∈ project.headers, before.files.LeadsToFile header.path)
    (hheader : header ∈ project.headers) (hne : (project.placeBelowSource header.path).components ≠ [])
    (haside : ∀ other ∈ project.headers, (project.placeBelowSource header.path).components <+:
        (project.placeBelowSource other.path).components →
      (project.placeBelowSource other.path).components = (project.placeBelowSource header.path).components) :
    ∃ content, project.OfPlace before.files header content ∧
      ran.2.files.readBytes (project.headerDestination target header) = .ok content := by
  obtain ⟨steps, hall, hitems, hreport, hheaders⟩ := exists_exported project target hran
  have hwell := hbefore.toWellFormed
  have hsuits : ∀ step ∈ steps, (∃ segments, step.item.destination.body = segments ++ [""]) ∨
      ∃ x, Suits before.files (project.OfPlace before.files header) (project.headerLocation top header)
        step.item x := by
    intro step hstep
    rcases List.mem_append.1 (hitems step hstep) with hfirst | hlast
    · rw [headerItems_eq] at hfirst
      obtain ⟨other, hother, heq⟩ := List.mem_map.1 hfirst
      rw [← heq]
      exact suits_header htop hwell hname hplaces hother hheader (hfiles other hother) (haside other hother)
    · exact Or.inr (suits_artifact htop hwell (Option.mem_toList.1 hlast) header)
  have hok : ∀ step ∈ steps, step.isFailed = false := by
    rw [hreport] at hfailed
    simpa using List.countP_eq_zero.1 hfailed
  obtain ⟨own, hown, hitem⟩ := hheaders ⟨header.path, project.headerDestination target header⟩ <| by
    rw [headerItems_eq]
    exact List.mem_map_of_mem hheader
  obtain ⟨hremainder, hparent⟩ := hplaces header hheader
  obtain ⟨segments, segment, hbody, hsegment⟩ := hremainder.ends.resolve_left fun hempty ↦
    hne (by rw [hempty]; decide)
  have hheads := headsFor_headerDestination htop hwell hname (hremainder.descends hparent) hbody hsegment
  obtain ⟨hresolve, content, hcontent, hplace⟩ :=
    hall.holds (.refl hbefore) hok hsuits (Or.inl (htop.find?_descend hwell (by simp))) hheads
      (Or.inl ⟨own, hown, congrArg ExportItem.destination hitem⟩)
  exact ⟨content, hplace, readBytes_of_resolve hresolve hcontent⟩

/-- Headers have one destination if and only if they have one place, and never when they have the same first
source folder. A destination lies below the folder of the exported headers if the place is not empty and goes
up nowhere, and it can go up only as another source folder does. When nothing fails, every header that has
been exported into an empty target is at its destination, unless another one with the same place is. -/
theorem exported_places (hs : s.WellFormed) (root : Path) (config : Config) (stem : String)
    (installed : Option Path) (hfolders : ∀ folder ∈ config.sourceFolders, root.join folder ≠ ⟨""⟩)
    (target : Path) (before : Session) (hbefore : before.files.Sound) :
    let project := scan s root config stem installed
    let place (header : ProjectFile) := project.placeBelowSource header.path
    let destination := project.headerDestination target
    let ran := (project.exportTo target).run before
    project.headerItems target = project.headers.map (fun header ↦ ⟨header.path, destination header⟩) ∧
    (∀ header ∈ project.headers, ∃ folder ∈ config.sourceFolders,
      project.firstFolder? header.path = some folder ∧
      header.path.components = (root.join folder).components ++ (place header).components ∧
      (destination header).components =
        (project.headerFolder target).components ++ (place header).components ∧
      ((destination header).StrictlyBelow (project.headerFolder target) ↔
        (place header).components ≠ [] ∧ .parent ∉ (place header).components) ∧
      ∀ found, header.path ∈ listed s root config found → ∀ c ∈ (place header).components,
        c.isName = true ∨ c ∈ (root.join found).components.drop (root.join folder).components.length) ∧
    (∀ header ∈ project.headers, ∀ other ∈ project.headers,
      ((destination header).components = (destination other).components ↔
        (place header).components = (place other).components) ∧
      (project.firstFolder? header.path = project.firstFolder? other.path →
        (destination header).components = (destination other).components →
        header.path.components = other.path.components)) ∧
    ∀ top, before.files.Deserted target top → (⟨config.name⟩ : Path).Descends → ran.1.failed = 0 →
      (∀ header ∈ project.headers, before.files.LeadsToFile header.path ∧
        .parent ∉ (place header).components) →
      ∀ header ∈ project.headers, (place header).components ≠ [] →
        (∀ other ∈ project.headers, (place header).components <+: (place other).components →
          (place other).components = (place header).components) →
        ∃ content, ran.2.files.readBytes (destination header) = .ok content ∧
          ∃ other ∈ project.headers, (place other).components = (place header).components ∧
            before.files.readBytes other.path = .ok content := by
  intro project place destination ran
  have hplace (header : ProjectFile) (hheader : header ∈ project.headers) :=
    place_of_mem_headers hs hfolders hheader
  have hdestination (header : ProjectFile) (hheader : header ∈ project.headers) :
      (destination header).components =
        (project.headerFolder target).components ++ (place header).components :=
    Path.components_join (hplace header hheader).1 (headerFolder_ne_empty project target)
  refine ⟨rfl, fun header hheader ↦ ?_, fun header hheader other hother ↦ ⟨?_, fun hfirst hsame ↦ ?_⟩,
    fun top htop hname hfailed hheaders header hheader hne haside ↦ ?_⟩
  · obtain ⟨hremainder, folder, hmem, hfolder, hpath⟩ := hplace header hheader
    exact ⟨folder, hmem, hfolder, hpath, hdestination header hheader,
      Path.strictlyBelow_join_iff hremainder (headerFolder_ne_empty project target),
      fun found hfound c ↦ isName_or_mem_drop hs hpath hfound⟩
  · rw [hdestination header hheader, hdestination other hother, List.append_cancel_left_eq]
  · rw [hdestination header hheader, hdestination other hother, List.append_cancel_left_eq] at hsame
    obtain ⟨-, folder, -, hfolder, hpath⟩ := hplace header hheader
    obtain ⟨-, folder', -, hfolder', hpath'⟩ := hplace other hother
    obtain rfl : folder = folder' := Option.some.inj (hfolder.symm.trans (hfirst.trans hfolder'))
    rw [hpath, hpath']
    exact congrArg _ hsame
  · have hran : (project.exportTo target).run before = ran := rfl
    obtain ⟨content, hother, hread⟩ := exists_ofPlace hran hbefore htop hname hfailed
      (fun other hother ↦ ⟨(hplace other hother).1, (hheaders other hother).2⟩)
      (fun other hother ↦ (hheaders other hother).1) hheader hne haside
    exact ⟨content, hread, hother⟩

/-- A store with two folders that hold a header of one name. -/
def twoLibraries : FileStore where
  entries := [(.root, .folder 0), (⟨["a"]⟩, .folder 0),
    (⟨["a", "x.h"]⟩, .file (Text.Utf8.encode "int a;\n") false 10), (⟨["b"]⟩, .folder 0),
    (⟨["b", "x.h"]⟩, .file (Text.Utf8.encode "int b;\n") false 10)]
  clock := 40

/-- There is nothing yet where a path goes down to a new name. -/
theorem deserted_twoLibraries : twoLibraries.Deserted ⟨"out"⟩ ⟨["out"]⟩ := by
  have hs : twoLibraries.WellFormed := by decide +kernel
  refine ⟨⟨[], .root, ["out"], ⟨by decide, rfl, hs.root, by decide, fun before hbefore ↦ ?_⟩, by decide⟩,
    hs.find?_child_eq_none (by decide)⟩
  have hkind : ∀ before ∈ ["out"].inits,
      (twoLibraries.kind? (Location.root.descend before)).all (· = .folder) := by
    decide
  intro target hlink
  have hfolder := hkind before ((List.mem_inits _ _).2 (by simpa [Path.matters] using hbefore))
  rw [kind?_eq_link_iff.2 hlink] at hfolder
  cases hfolder

/-- The header of one of the folders is exported. -/
theorem exported_of_twoLibraries :
    let project := scan twoLibraries ⟨"."⟩ (plainConfig [⟨"a"⟩]) "default"
    let ran := (project.exportTo ⟨"out"⟩).run { files := twoLibraries }
    ∃ content, ran.2.files.readBytes ⟨"out/include/app/x.h"⟩ = .ok content ∧
      ∃ other ∈ project.headers, (project.placeBelowSource other.path).components = [.name "x.h"] ∧
        twoLibraries.readBytes other.path = .ok content := by
  intro project ran
  have hs : twoLibraries.Sound := by decide +kernel
  have hproject : scan twoLibraries ⟨"."⟩ (plainConfig [⟨"a"⟩]) "default" = project := rfl
  have hran : (project.exportTo ⟨"out"⟩).run { files := twoLibraries } = ran := rfl
  let header : ProjectFile := ⟨⟨"./a/x.h"⟩, ⟨"a/x.h"⟩, .header⟩
  have hheaders : project.headers = [header] := by decide +kernel
  have hplace : (project.placeBelowSource header.path).components = [.name "x.h"] := by decide +kernel
  have hdestination : project.headerDestination ⟨"out"⟩ header = ⟨"out/include/app/x.h"⟩ := by decide +kernel
  have honly (other : ProjectFile) (hother : other ∈ project.headers) : other = header :=
    List.mem_singleton.1 (hheaders ▸ hother)
  have hready : ∀ other ∈ project.headers, twoLibraries.LeadsToFile other.path ∧
      .parent ∉ (project.placeBelowSource other.path).components := by
    intro other hother
    refine ⟨leadsToFile_of_mem_headers hs.toWellFormed hother, ?_⟩
    rw [honly other hother, hplace]
    decide
  have hfailed : ran.1.failed = 0 := by decide +kernel
  obtain ⟨-, -, -, hexported⟩ := exported_places hs.toWellFormed ⟨"."⟩ (plainConfig [⟨"a"⟩]) "default" none
    (by decide) ⟨"out"⟩ { files := twoLibraries } hs
  rw [hproject, hran] at hexported
  have hresult := hexported ⟨["out"]⟩ deserted_twoLibraries (by decide) hfailed hready header
    (hheaders ▸ List.mem_cons_self) (by rw [hplace]; decide) fun other hother _ ↦ by rw [honly other hother]
  rw [hdestination, hplace] at hresult
  exact hresult

/-- Headers of two source folders can have one destination, so that one of them is not there, although nothing
has failed; and a header can go beside the folder of the exported headers. -/
theorem exists_shared_destination :
    let project (sources : List Path) := scan twoLibraries ⟨"."⟩ (plainConfig sources) "default"
    let destinations (sources : List Path) :=
      ((project sources).headerItems ⟨"out"⟩).map ExportItem.destination
    let ran := ((project [⟨"a"⟩, ⟨"b"⟩]).exportTo ⟨"out"⟩).run { files := twoLibraries }
    ((project [⟨"a"⟩, ⟨"b"⟩]).headers.map ProjectFile.path = [⟨"./a/x.h"⟩, ⟨"./b/x.h"⟩] ∧
      destinations [⟨"a"⟩, ⟨"b"⟩] = [⟨"out/include/app/x.h"⟩, ⟨"out/include/app/x.h"⟩] ∧
      ran.1.failed = 0 ∧ (twoLibraries.readText ⟨"./b/x.h"⟩).toOption = some "int b;\n" ∧
      (ran.2.files.readText ⟨"out/include/app/x.h"⟩).toOption = some "int a;\n") ∧
    ⟨"out/include/app/../b/x.h"⟩ ∈ destinations [⟨"a"⟩, ⟨"a/../b"⟩] := by
  decide +kernel

end Project

end Rebuild
