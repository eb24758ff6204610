import Rebuild.Proofs.FileStore.Copying
import Rebuild.Proofs.FileStore.Heading

/-!
# Stores that are renewed

A path that leads nowhere can come to lead somewhere when folders are made. Where it can lead at all is settled
by the links: what a path *aims at* is found by following it as if every name were that of a folder, links aside
(`aim?`). So as long as no link comes or goes, a path leads to no other location than the one it aims at
(`Renews.location_eq`).

A store *renews* another if everything that was there is still there and of its kind, no link has come, and
whatever has another time than before has got it since (`Renews`). Making folders renews a store, and so does
copying a file.
-/

namespace Rebuild.FileStore

variable {s s' s'' : FileStore} {l : Location} {p source target : Path} {followLast : Bool}

theorem stat_eq_ok_iff {e : Entry} :
    s.stat p = .ok e ↔ ∃ l, s.resolve true p = .ok (.existing l) ∧ s.find? l = some e := by
  constructor
  · intro h
    obtain ⟨l, hlocate⟩ := locate_of_stat h
    exact ⟨l, locate_eq_ok_iff.1 hlocate⟩
  · rintro ⟨l, hlocate⟩
    rw [stat, locate_eq_ok_iff.2 hlocate]
    rfl

/-! ### What paths aim at -/

/-- What the link at a location stands for, if there is one. -/
def link? (s : FileStore) (l : Location) : Option String :=
  match s.find? l with
  | some (.link target) => some target
  | _ => none

theorem link?_eq_some_iff {target : String} : s.link? l = some target ↔ s.find? l = some (.link target) := by
  rw [link?]
  rcases s.find? l with - | e
  · simp
  · cases e <;> simp

/-- Follows segments as if what they name were folders, unless it is a link. -/
def aimWith (s : FileStore) (followLast : Bool) (pass : Location → List String → Option Location)
    (here : Location) (segments : List String) : Option Location :=
  match segments with
  | [] => some here
  | segment :: rest =>
    if segment = "" ∨ segment = "." then s.aimWith followLast pass here rest
    else if segment = ".." then s.aimWith followLast pass here.parent rest
    else
      match s.link? (here.child segment) with
      | none => s.aimWith followLast pass (here.child segment) rest
      | some target =>
        if rest.isEmpty && !followLast then some (here.child segment)
        else
          let path : Path := ⟨target⟩
          pass (if path.isAbsolute then .root else here) (path.body ++ rest)

/-- Follows segments as if what they name were folders; `links` links may be passed. -/
def aim (s : FileStore) (followLast : Bool) (links : Nat) : Location → List String → Option Location :=
  match links with
  | 0 => s.aimWith followLast fun _ _ ↦ none
  | links + 1 => s.aimWith followLast (s.aim followLast links)

/-- The location that a path aims at: it leads there when all folders on the way are there. -/
def aim? (s : FileStore) (followLast : Bool) (p : Path) : Option Location :=
  s.aim followLast maxLinks (if p.isAbsolute then .root else s.current) p.body

section Segments

variable {pass : Location → List String → Except FileError Destination}
variable {pass' : Location → List String → Option Location} {here : Location} {segments : List String}
variable {dest : Destination}

theorem aimWith_of_all_empty (h : segments.all (· = "") = true) :
    s.aimWith followLast pass' here segments = some here := by
  induction segments with
  | nil => rfl
  | cons segment rest ih =>
    obtain ⟨hsegment, hrest⟩ := List.forall_mem_cons.1 (List.all_eq_true.1 h)
    rw [aimWith, if_pos (Or.inl (by simpa using hsegment))]
    exact ih (List.all_eq_true.2 hrest)

/-- Segments lead where they aim at. -/
theorem aimWith_of_followWith
    (hpass : ∀ there others dest, pass there others = .ok dest → pass' there others = some dest.location)
    (h : s.followWith followLast pass here segments = .ok dest) :
    s.aimWith followLast pass' here segments = some dest.location := by
  induction segments generalizing here with
  | nil =>
    cases h
    rfl
  | cons segment rest ih =>
    rw [followWith] at h
    rw [aimWith]
    split at h
    case isTrue hidle =>
      rw [if_pos hidle]
      exact ih h
    rename_i hidle
    rw [if_neg hidle]
    split at h
    case isTrue hdots =>
      rw [if_pos hdots]
      exact ih h
    rename_i hdots
    rw [if_neg hdots]
    split at h
    · cases h
    simp only [link?] at h ⊢
    split at h
    case h_1 hfree =>
      -- a free name has only slashes behind it
      rw [hfree]
      simp only at h ⊢
      split at h <;> cases h
      exact aimWith_of_all_empty ‹_›
    case h_2 hfile =>
      rw [hfile]
      simp only at h ⊢
      split at h <;> cases h
      rename_i hempty
      rw [List.isEmpty_iff.1 hempty]
      rfl
    case h_3 hfolder =>
      rw [hfolder]
      exact ih h
    case h_4 target hlink =>
      rw [hlink]
      simp only at h ⊢
      split at h
      case isTrue hlast =>
        cases h
        rw [if_pos hlast]
        rfl
      case isFalse hlast =>
        rw [if_neg hlast]
        exact hpass _ _ _ h

theorem aim_of_follow {links : Nat} (h : s.follow followLast links here segments = .ok dest) :
    s.aim followLast links here segments = some dest.location := by
  induction links generalizing here segments dest with
  | zero =>
    refine aimWith_of_followWith ?_ h
    intro there others dest hnever
    cases hnever
  | succ links ih => exact aimWith_of_followWith (fun _ _ _ ↦ ih) h

end Segments

/-- A path leads where it aims at. -/
theorem aim?_of_lead {dest : Destination} (h : s.lead followLast p = .ok dest) :
    s.aim? followLast p = some dest.location := by
  rw [lead] at h
  split at h
  · cases h
  split at h
  · cases h
  exact aim_of_follow h

theorem aim?_of_resolve {dest : Destination} (h : s.resolve followLast p = .ok dest) :
    s.aim? followLast p = some dest.location :=
  aim?_of_lead (lead_of_resolve h)

/-- What paths aim at depends on the links alone. -/
theorem aim?_congr (hcurrent : s'.current = s.current) (hlinks : s'.link? = s.link?) :
    s'.aim? followLast p = s.aim? followLast p := by
  have hwith (pass : Location → List String → Option Location) (here : Location) (segments : List String) :
      s'.aimWith followLast pass here segments = s.aimWith followLast pass here segments := by
    induction segments generalizing here with
    | nil => rfl
    | cons segment rest ih => simp only [aimWith, hlinks, ih]
  have haim (links : Nat) : s'.aim followLast links = s.aim followLast links := by
    induction links with
    | zero => exact funext₂ (hwith _)
    | succ links ih =>
      rw [aim, ih]
      exact funext₂ (hwith _)
  rw [aim?, aim?, haim, hcurrent]

/-! ### What has another time -/

/-- What has another time in the store `s'` than in `s` has got it since. -/
structure Stamps (s s' : FileStore) : Prop where
  /-- The clock goes on. -/
  clock : s.clock ≤ s'.clock
  /-- Times are those of before, or later. -/
  time : ∀ x time, s'.timeAt? x = some time → s.timeAt? x = some time ∨ s.clock ≤ time

namespace Stamps

theorem refl (s : FileStore) : s.Stamps s :=
  ⟨Nat.le_refl _, fun _ _ ↦ Or.inl⟩

theorem trans (h : s.Stamps s') (h' : s'.Stamps s'') : s.Stamps s'' := by
  refine ⟨Nat.le_trans h.clock h'.clock, fun x time htime ↦ ?_⟩
  rcases h'.time x time htime with hwas | hlate
  · exact h.time x time hwas
  · exact Or.inr (Nat.le_trans h.clock hlate)

theorem touchFolder (s : FileStore) (l : Location) : s.Stamps (s.touchFolder l) := by
  refine ⟨?_, fun x time htime ↦ (timeAt?_touchFolder htime).imp_right fun heq ↦ Nat.le_of_eq heq.symm⟩
  rw [FileStore.touchFolder]
  split <;> exact Nat.le_refl _

/-- What is put there has a time of now, or none. -/
theorem put {e : Entry} (h : s.Stamps s') (htime : ∀ time, e.modified? = some time → s.clock ≤ time)
    (l : Location) : s.Stamps (s'.put l e) := by
  refine ⟨h.clock, fun x time htimeAt ↦ ?_⟩
  rw [timeAt?, find?_put] at htimeAt
  split at htimeAt
  · exact Or.inr (htime time htimeAt)
  · exact h.time x time htimeAt

theorem erase (s : FileStore) (l : Location) : s.Stamps (s.erase l) := by
  refine ⟨Nat.le_refl _, fun x time htime ↦ ?_⟩
  rw [timeAt?, find?_erase] at htime
  split at htime
  · cases htime
  · exact Or.inl htime

theorem tick (s : FileStore) : s.Stamps s.tick :=
  ⟨Nat.le_succ _, fun _ _ ↦ Or.inl⟩

theorem add {e : Entry} (h : ∀ time, e.modified? = some time → s.clock ≤ time) (folder : Location)
    (name : String) : s.Stamps (s.add folder name e) :=
  ((touchFolder s folder).put h _).trans (.tick _)

theorem createFolder (h : s.createFolder p = .ok s') : s.Stamps s' := by
  rw [FileStore.createFolder] at h
  split at h <;> cases h
  exact .add (fun time htime ↦ by cases htime; exact Nat.le_refl _) _ _

theorem createFolders (s : FileStore) (p : Path) : s.Stamps (s.createFolders p).2 :=
  createThrough_rel refl trans createFolder s p.ancestors

theorem removeFile (h : s.removeFile p = .ok s') : s.Stamps s' := by
  rw [FileStore.removeFile] at h
  split at h <;> cases h
  exact ((touchFolder s _).trans (.erase _ _)).trans (.tick _)

theorem writeBytes {content : ByteArray} {executable : Bool} (h : s.writeBytes p content executable = .ok s') :
    s.Stamps s' := by
  rw [FileStore.writeBytes] at h
  split at h
  · cases h
  · split at h <;> cases h
    exact .add (fun time htime ↦ by cases htime; exact Nat.le_refl _) _ _
  · split at h <;> cases h
    exact ((refl s).put (fun time htime ↦ by cases htime; exact Nat.le_refl _) _).trans (.tick _)

end Stamps

/-- A file that has been copied has the time of the clock. -/
theorem exists_stamped_of_copyFile (h : s.copyFile source target = .ok s') :
    ∃ l, s'.resolve true target = .ok (.existing l) ∧ s'.fileTime? l = some s.clock ∧ s.Stamps s' := by
  obtain ⟨m, content, executable, -, written, l, -, hwritten, hwrites, rfl⟩ := exists_written_of_copyFile h
  refine ⟨l, (hwrites.put ..).resolve_eq, ?_, (Stamps.writeBytes hwritten).put (fun time htime ↦ ?_) l⟩
  · rw [fileTime?, find?_put, if_pos rfl]
  · cases htime
    exact Nat.le_refl _

/-! ### Renewed stores -/

/-- Everything that was there is still there and of its kind, no link has come, and what has another time has
got it since. -/
structure Renews (s s' : FileStore) : Prop extends Keeps s s', Stamps s s' where
  /-- Links were there before. -/
  no_link : ∀ l target, s'.find? l = some (.link target) → s.find? l = some (.link target)

namespace Renews

theorem refl (s : FileStore) : s.Renews s :=
  ⟨.refl s, .refl s, fun _ _ h ↦ h⟩

theorem trans (h : s.Renews s') (h' : s'.Renews s'') : s.Renews s'' :=
  ⟨h.toKeeps.trans h'.toKeeps, h.toStamps.trans h'.toStamps,
    fun l target hlink ↦ h.no_link l target (h'.no_link l target hlink)⟩

theorem createFolders (s : FileStore) (p : Path) : s.Renews (s.createFolders p).2 :=
  ⟨(Furnishes.createFolders s p).keeps, .createFolders s p,
    fun _ _ ↦ (Furnishes.createFolders s p).no_link⟩

theorem of_writes (h : s.Writes p l s') (hstamps : s.Stamps s') : s.Renews s' :=
  ⟨h.keeps, hstamps, fun _ _ ↦ h.no_link⟩

/-- A file may be removed before it is written. -/
theorem of_loses (h : s.Loses l s') (hfile : s.HasFile l) (hwrites : s'.Writes p l s'')
    (hstamps : s.Stamps s'') : s.Renews s'' := by
  refine ⟨h.keeps_of_writes hfile hwrites, hstamps, fun x target hlink ↦ ?_⟩
  have hstill := hwrites.no_link hlink
  have hx : x ≠ l := by
    rintro rfl
    rw [h.gone] at hstill
    cases hstill
  rw [← kind?_eq_link_iff] at hstill ⊢
  rwa [h.kind?_eq hx] at hstill

/-- Paths aim at what they have aimed at. -/
theorem aim?_eq (h : s.Renews s') (followLast : Bool) (p : Path) : s'.aim? followLast p = s.aim? followLast p := by
  refine aim?_congr h.current (funext fun l ↦ Option.ext fun target ↦ ?_)
  rw [link?_eq_some_iff, link?_eq_some_iff]
  refine ⟨h.no_link l target, fun hlink ↦ ?_⟩
  rw [← kind?_eq_link_iff] at hlink ⊢
  exact h.kind l _ hlink

/-- A path leads to where it aimed at. -/
theorem location_eq (h : s.Renews s') {dest : Destination} (haim : s.aim? followLast p = some l)
    (hdest : s'.resolve followLast p = .ok dest) : dest.location = l := by
  have hthere := aim?_of_resolve hdest
  rw [h.aim?_eq, haim] at hthere
  exact (Option.some.inj hthere).symm

/-- What was there is there, and is of its kind. -/
theorem exists_find? (h : s.Renews s') {e : Entry} (hfind : s.find? l = some e) :
    ∃ e', s'.find? l = some e' ∧ e'.kind = e.kind :=
  Option.map_eq_some_iff.1 (h.kind l e.kind (by rw [kind?, hfind]; rfl))

/-- What has had a time has that one or a later one. -/
theorem exists_timeAt? {time : Time} (h : s.Renews s') (htime : s.timeAt? l = some time) :
    ∃ time', s'.timeAt? l = some time' ∧ (time' = time ∨ s.clock ≤ time') := by
  have hkind {e : Entry} : e.modified?.isSome ↔ ∀ target, e.kind ≠ .link target := by
    cases e <;> simp [Entry.modified?, Entry.kind]
  obtain ⟨e, hfind, hmodified⟩ := Option.bind_eq_some_iff.1 htime
  obtain ⟨e', hfind', hkept⟩ := h.exists_find? hfind
  have hsome : e'.modified?.isSome := hkind.2 (hkept ▸ hkind.1 (Option.isSome_of_eq_some hmodified))
  obtain ⟨time', hmodified'⟩ := Option.isSome_iff_exists.1 hsome
  have htime' : s'.timeAt? l = some time' := by rw [timeAt?, hfind']; exact hmodified'
  refine ⟨time', htime', (h.time l time' htime').imp_left fun hwas ↦ ?_⟩
  exact Option.some.inj (hwas.symm.trans htime)

/-- What a path led to it still leads to. -/
theorem exists_stat (h : s.Renews s') {e : Entry} (hstat : s.stat p = .ok e) :
    ∃ e', s'.stat p = .ok e' ∧ e'.kind = e.kind := by
  obtain ⟨l, hdest, hfind⟩ := stat_eq_ok_iff.1 hstat
  obtain ⟨e', hfind', hkept⟩ := h.exists_find? hfind
  exact ⟨e', stat_eq_ok_iff.2 ⟨l, h.toKeeps.resolve_eq (Option.isSome_of_eq_some hfind) hdest, hfind'⟩, hkept⟩

theorem pathExists (h : s.Renews s') (hexists : s.pathExists p = true) : s'.pathExists p = true := by
  rw [FileStore.pathExists] at hexists ⊢
  cases hstat : s.stat p with
  | error e =>
    rw [hstat] at hexists
    cases hexists
  | ok e =>
    obtain ⟨e', hstat', -⟩ := h.exists_stat hstat
    rw [hstat']
    rfl

end Renews

end Rebuild.FileStore
