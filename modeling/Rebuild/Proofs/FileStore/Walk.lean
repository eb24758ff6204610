import Rebuild.FileStore.Walk
import Rebuild.Proofs.FileStore.Follow

/-!
# What a walk finds

In a well-formed store, every path that a walk lists leads to a regular file. It is not said that the
file can be opened: a path may become too long on the way down.
-/

namespace Rebuild.FileStore

variable {s : FileStore} {l : Location} {e : Entry} {p q : Path} {keep : Path → Bool}

/-- A path leads to a regular file. -/
def LeadsToFile (s : FileStore) (p : Path) : Prop :=
  ∃ l content executable time, s.lead true p = .ok (.existing l) ∧
    s.find? l = some (.file content executable time)

/-! ### What is listed -/

theorem filesAt_of_file (hkeep : keep p = true) {content : ByteArray} {executable : Bool}
    {time : Time} (hl : s.find? l = some (.file content executable time)) :
    s.filesAt keep p l = [p] := by
  rw [filesAt, if_pos hkeep, hl]

theorem filesAt_of_folder (hkeep : keep p = true) {time : Time}
    (hl : s.find? l = some (.folder time)) (hshort : tooLong p = false) :
    s.filesAt keep p l =
      (s.childNames l).flatMap fun name ↦ s.filesAt keep (p.joinName name) (l.child name) := by
  rw [filesAt, if_pos hkeep, hl, hshort]
  simp [List.flatMap_subtype]

/-! ### Where what is listed is -/

/-- What is in a folder has a path behind the path of the folder. -/
theorem lead_child {name : String} (hname : EntryName name) (hl : s.HasFolder l)
    (h : s.lead true p = .ok (.existing l)) (hfind : s.find? (l.child name) = some e)
    (hlink : ∀ target, e ≠ .link target) :
    s.lead true (p.joinName name) = .ok (.existing (l.child name)) := by
  obtain ⟨left, hleft⟩ := lead_joinName hname hl h
  obtain ⟨pass, hpass⟩ := follow_eq_followWith s true left
  rw [hleft, hpass, followWith_cons, pace_name hname, hfind]
  cases e with
  | file => rfl
  | folder => rfl
  | link target => exact absurd rfl (hlink target)

/-- The names in a folder are ordinary ones. -/
theorem WellFormed.entryName_of_mem_childNames (hs : s.WellFormed) {name : String}
    (hname : name ∈ s.childNames l) : EntryName name :=
  hs.names _ (find?_isSome_iff.2 (child_mem_of_mem_childNames hname)) name (by simp)

theorem WellFormed.leadsToFile_filesAt (hs : s.WellFormed)
    (h : ∀ e, s.find? l = some e → (∀ target, e ≠ .link target) →
      s.lead true p = .ok (.existing l))
    (hq : q ∈ s.filesAt keep p l) : s.LeadsToFile q := by
  fun_induction s.filesAt keep p l with
  | case1 p l hkeep content executable time hfile =>
    obtain rfl := List.mem_singleton.1 hq
    exact ⟨l, content, executable, time, h _ hfile (by simp), hfile⟩
  | case2 => cases hq
  | case3 p l hkeep time hfolder hshort ih =>
    obtain ⟨⟨name, hname⟩, -, hq⟩ := List.mem_flatMap.1 hq
    have hlead := h _ hfolder (by simp)
    have hentry := hs.entryName_of_mem_childNames hname
    exact ih name hname (fun e he hlink ↦ lead_child hentry ⟨time, hfolder⟩ hlead he hlink) hq
  | case4 => cases hq
  | case5 => cases hq

/-- What is no link is reached in the same way whether or not a link at the end is followed. -/
theorem followWith_of_not_link {pass : Location → List String → Except FileError Destination}
    {pass' : Location → List String → Except FileError Destination} {here : Location}
    {segments : List String} (hl : ∀ target, s.find? l ≠ some (.link target))
    (hpass : ∀ there others, pass there others = .ok (.existing l) →
      pass' there others = .ok (.existing l))
    (h : s.followWith false pass here segments = .ok (.existing l)) :
    s.followWith true pass' here segments = .ok (.existing l) := by
  replace h := followed_of_followWith h
  generalize hdest : Destination.existing l = dest at h
  induction h with
  | done => rfl
  | folder hpace _ ih =>
    rw [followWith_cons, hpace]
    exact ih hdest
  | free => cases hdest
  | file hpace hend => exact followWith_eq_ok_iff.2 (.file hpace hend)
  | @stop _ _ target _ hpace =>
    cases hdest
    exact absurd (find?_of_pace_link hpace) (hl target)
  | link hpace _ hpassed =>
    subst hdest
    exact followWith_eq_ok_iff.2 (.link hpace (fun _ ↦ rfl) (hpass _ _ hpassed))

theorem follow_of_not_link {links : Nat} {here : Location} {segments : List String}
    (hl : ∀ target, s.find? l ≠ some (.link target))
    (h : s.follow false links here segments = .ok (.existing l)) :
    s.follow true links here segments = .ok (.existing l) := by
  induction links generalizing here segments with
  | zero => exact followWith_of_not_link hl (fun _ _ h ↦ h) h
  | succ links ih => exact followWith_of_not_link hl (fun _ _ h ↦ ih h) h

theorem lead_of_locate_false (h : s.locate false p = .ok (l, e)) (hlink : ∀ target, e ≠ .link target) :
    s.lead true p = .ok (.existing l) ∧ s.find? l = some e := by
  obtain ⟨hlead, hfind⟩ := find?_of_locate h
  refine ⟨?_, hfind⟩
  rw [lead] at hlead ⊢
  split at hlead
  · cases hlead
  split at hlead
  · cases hlead
  rename_i hnul hempty
  rw [if_neg hnul, if_neg hempty]
  refine follow_of_not_link (fun target htarget ↦ ?_) hlead
  exact hlink target (Option.some.inj (hfind.symm.trans htarget))

/-- Every path that a walk lists leads to a regular file. -/
theorem WellFormed.leadsToFile_walk (hs : s.WellFormed) (hq : q ∈ s.walk keep p) :
    s.LeadsToFile q := by
  rw [walk] at hq
  split at hq
  · split at hq
    · rename_i l time hlocate
      obtain ⟨hlead, -⟩ := find?_of_locate hlocate
      exact hs.leadsToFile_filesAt (fun _ _ _ ↦ hlead) hq
    · cases hq
  · rename_i l e hlink hlocate
    have hnot (target : String) : e ≠ .link target := by
      rintro rfl
      exact hlink target rfl
    obtain ⟨hlead, -⟩ := lead_of_locate_false hlocate hnot
    exact hs.leadsToFile_filesAt (fun _ _ _ ↦ hlead) hq
  · cases hq

end Rebuild.FileStore
