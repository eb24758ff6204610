import Rebuild.Proofs.FileStore.Alike

/-!
# Where paths lead while files come and go

A path goes on through folders and links, and stops at a file or at a free name. As long as folders
and links are kept, a path still goes the same way, and only what is at its last name can be different.
So making folders and writing files changes nothing about where a path leads that leads to something,
and a path that leads to a free name leads to the file that is written there.
-/

namespace Rebuild.FileStore

variable {s s' s'' : FileStore} {l x here folder : Location} {p : Path} {name segment : String}
variable {slash followLast : Bool} {dest : Destination}

/-! ### Files -/

/-- Whether there is a file at a location. -/
def HasFile (s : FileStore) (l : Location) : Prop :=
  s.kind? l = some .file

instance {s : FileStore} {l : Location} : Decidable (s.HasFile l) :=
  inferInstanceAs (Decidable (s.kind? l = some .file))

/-- The time of the file at a location. -/
def fileTime? (s : FileStore) (l : Location) : Option Time :=
  match s.find? l with
  | some (.file _ _ time) => some time
  | _ => none

theorem fileTime?_isSome_iff : (s.fileTime? l).isSome ↔ s.HasFile l := by
  rw [fileTime?, HasFile, kind?]
  rcases s.find? l with - | e
  · simp
  · cases e <;> simp [Entry.kind]

theorem hasFile_of_find? {content : ByteArray} {executable : Bool} {time : Time}
    (h : s.find? l = some (.file content executable time)) : s.HasFile l := by
  rw [HasFile, kind?, h]
  rfl

theorem exists_find?_of_hasFile (h : s.HasFile l) :
    ∃ content executable time, s.find? l = some (.file content executable time) := by
  obtain ⟨e, he, hfile⟩ := Option.map_eq_some_iff.1 h
  cases e with
  | file content executable time => exact ⟨content, executable, time, he⟩
  | folder => cases hfile
  | link => cases hfile

theorem isSome_of_hasFile (h : s.HasFile l) : (s.find? l).isSome := by
  obtain ⟨e, he, -⟩ := Option.map_eq_some_iff.1 h
  exact Option.isSome_of_eq_some he

theorem HasFile.not_hasFolder (hfile : s.HasFile l) : ¬s.HasFolder l := by
  rw [hasFolder_iff_kind?, show s.kind? l = _ from hfile]
  simp

theorem HasFile.of_find?_eq (hfile : s.HasFile l) (h : s'.find? l = s.find? l) : s'.HasFile l := by
  rw [HasFile, kind?, h]
  exact hfile

theorem isSome_of_fileTime? {time : Time} (h : s.fileTime? l = some time) : (s.find? l).isSome :=
  isSome_of_hasFile (fileTime?_isSome_iff.1 (Option.isSome_of_eq_some h))

/-! ### Kept ways -/

/-- The folders and links of the one store are in the other as well. -/
structure KeepsWays (s s' : FileStore) : Prop where
  /-- Relative paths begin in the same folder. -/
  current : s'.current = s.current
  /-- Folders and links are kept. -/
  kind : ∀ l kind, kind ≠ .file → s.kind? l = some kind → s'.kind? l = some kind

theorem KeepsWays.hasFolder (h : s.KeepsWays s') (hl : s.HasFolder l) : s'.HasFolder l :=
  hasFolder_iff_kind?.2 (h.kind l .folder (by simp) (hasFolder_iff_kind?.1 hl))

theorem Keeps.keepsWays (h : s.Keeps s') : s.KeepsWays s' :=
  ⟨h.current, fun l kind _ ↦ h.kind l kind⟩

/-- Where a path that leads to a destination in the store `s` leads in the store `s'`. -/
inductive Meets (s s' : FileStore) : Destination → Except FileError Destination → Prop where
  /-- To the same folder or link. -/
  | same (l : Location) : Meets s s' (.existing l) (.ok (.existing l))
  /-- To a file, if there is still one. -/
  | file {folder : Location} {name : String} {result : Except FileError Destination}
      (hfile : s.HasFile (folder.child name))
      (hstill : s'.HasFile (folder.child name) → result = .ok (.existing (folder.child name)))
      (hgone : s'.find? (folder.child name) = none → result = .ok (.vacant folder name false)) :
      Meets s s' (.existing (folder.child name)) result
  /-- To a free name, if it is still free. -/
  | free {folder : Location} {name : String} {slash : Bool} {result : Except FileError Destination}
      (hfree : s.find? (folder.child name) = none)
      (hstill : s'.find? (folder.child name) = none → result = .ok (.vacant folder name slash))
      (hcome : slash = false → s'.HasFile (folder.child name) →
        result = .ok (.existing (folder.child name))) :
      Meets s s' (.vacant folder name slash) result

/-- What a segment leads to that names a location where something of a kind is, or nothing. -/
def Pace.ofKind (there : Location) : Option Entry.Kind → Pace
  | none => .free
  | some .file => .file
  | some .folder => .folder there
  | some (.link target) => .link target

/-- What a segment leads to depends on the kind of what it names, or on nothing. -/
theorem pace_cases (here : Location) (segment : String) :
    (∀ s : FileStore, s.pace here segment =
      .ofKind (here.child segment) (s.kind? (here.child segment))) ∨
    (∃ l, ∀ s : FileStore, s.pace here segment = .folder l) ∨
    ∀ s : FileStore, s.pace here segment = .nowhere := by
  by_cases hidle : segment = "" ∨ segment = "."
  · exact Or.inr (Or.inl ⟨here, fun s ↦ by rw [pace, if_pos hidle]⟩)
  by_cases hdots : segment = ".."
  · exact Or.inr (Or.inl ⟨here.parent, fun s ↦ by rw [pace, if_neg hidle, if_pos hdots]⟩)
  by_cases hlong : maxNameLength < Text.byteLength segment.toList
  · exact Or.inr (Or.inr fun s ↦ by rw [pace, if_neg hidle, if_neg hdots, if_pos hlong])
  · refine Or.inl fun s ↦ ?_
    rw [pace_eq_kind?, if_neg hidle, if_neg hdots, if_neg hlong]
    rfl

/-- A segment that stops, at a file or a free name, stops at whatever file is there instead, or at
the free name. -/
theorem pace_of_stop (s' : FileStore) (h : s.pace here segment = .file ∨ s.pace here segment = .free) :
    s.pace here segment = .ofKind (here.child segment) (s.kind? (here.child segment)) ∧
      (s'.HasFile (here.child segment) → s'.pace here segment = .file) ∧
      (s'.find? (here.child segment) = none → s'.pace here segment = .free) := by
  rcases pace_cases here segment with hall | ⟨l, hall⟩ | hall
  · rw [hall s, hall s']
    refine ⟨rfl, fun hfile ↦ ?_, fun hnone ↦ ?_⟩
    · rw [show s'.kind? (here.child segment) = _ from hfile]
      rfl
    · rw [kind?_eq_none_iff.2 hnone]
      rfl
  · rw [hall] at h
    rcases h with h | h <;> cases h
  · rw [hall] at h
    rcases h with h | h <;> cases h

theorem hasFile_of_pace (h : s.pace here segment = .file) : s.HasFile (here.child segment) := by
  obtain ⟨content, executable, time, hfind⟩ := find?_of_pace_file h
  exact hasFile_of_find? hfind

theorem find?_of_pace_free (h : s.pace here segment = .free) :
    s.find? (here.child segment) = none := by
  rw [(pace_of_stop s (Or.inr h)).1] at h
  rw [← kind?_eq_none_iff]
  rcases hkind : s.kind? (here.child segment) with - | _ | _ | target
  · rfl
  all_goals
    rw [hkind] at h
    cases h

namespace KeepsWays

variable (h : s.KeepsWays s')
include h

/-- What leads on still leads on. -/
theorem pace_eq (hstop : s.pace here segment ≠ .file ∧ s.pace here segment ≠ .free) :
    s'.pace here segment = s.pace here segment := by
  rcases pace_cases here segment with hall | ⟨l, hall⟩ | hall
  · rw [hall] at hstop
    rw [hall, hall]
    cases hkind : s.kind? (here.child segment) with
    | none =>
      rw [hkind] at hstop
      exact absurd rfl hstop.2
    | some kind =>
      rw [h.kind _ kind ?_ hkind]
      rintro rfl
      rw [hkind] at hstop
      exact hstop.1 rfl
  · rw [hall, hall]
  · rw [hall, hall]

theorem followWith_meets {pass pass' : Location → List String → Except FileError Destination}
    (hpass : ∀ there others dest, pass there others = .ok dest →
      Meets s s' dest (pass' there others))
    {segments : List String} (hdest : s.followWith followLast pass here segments = .ok dest) :
    Meets s s' dest (s'.followWith followLast pass' here segments) := by
  replace hdest := followed_of_followWith hdest
  induction hdest with
  | done here => exact .same here
  | folder hpace _ ih =>
    rw [followWith_cons, h.pace_eq (by simp [hpace]), hpace]
    exact ih
  | free hpace hslashes =>
    obtain ⟨-, hfile, hfree⟩ := pace_of_stop s' (Or.inr hpace)
    refine .free (find?_of_pace_free hpace) (fun hstill ↦ ?_) fun hslash hcome ↦ ?_
    · exact followWith_eq_ok_iff.2 (.free (hfree hstill) hslashes)
    · exact followWith_eq_ok_iff.2 (.file (hfile hcome) (by simpa using hslash))
  | file hpace hend =>
    obtain ⟨-, hfile, hfree⟩ := pace_of_stop s' (Or.inl hpace)
    refine .file (hasFile_of_pace hpace) (fun hstill ↦ ?_) fun hgone ↦ ?_
    · exact followWith_eq_ok_iff.2 (.file (hfile hstill) hend)
    · rw [followWith_cons, hfree hgone, hend]
      rfl
  | stop hpace hend hlast =>
    rw [followWith_eq_ok_iff.2 (.stop (by rw [h.pace_eq (by simp [hpace]), hpace]) hend hlast)]
    exact .same _
  | link hpace hmore hpassed =>
    rw [followWith_cons, h.pace_eq (by simp [hpace]), hpace]
    simp only
    split
    · rename_i hlast
      obtain ⟨hend, hlast⟩ := Bool.and_eq_true_iff.1 hlast
      simp [hmore (List.isEmpty_iff.1 hend)] at hlast
    · exact hpass _ _ _ hpassed

theorem follow_meets {links : Nat} {segments : List String}
    (hdest : s.follow followLast links here segments = .ok dest) :
    Meets s s' dest (s'.follow followLast links here segments) := by
  induction links generalizing here segments dest with
  | zero => exact h.followWith_meets (fun _ _ _ hpass ↦ by cases hpass) hdest
  | succ links ih => exact h.followWith_meets (fun _ _ _ ↦ ih) hdest

theorem lead_meets (hdest : s.lead followLast p = .ok dest) :
    Meets s s' dest (s'.lead followLast p) := by
  rw [lead] at hdest ⊢
  split
  · rw [if_pos ‹_›] at hdest
    cases hdest
  rw [if_neg ‹_›] at hdest
  split
  · rw [if_pos ‹_›] at hdest
    cases hdest
  rw [if_neg ‹_›] at hdest
  rw [h.current]
  exact h.follow_meets hdest

theorem resolve_meets (hdest : s.resolve followLast p = .ok dest) :
    Meets s s' dest (s'.resolve followLast p) := by
  rw [resolve] at hdest ⊢
  split
  · rw [if_pos ‹_›] at hdest
    cases hdest
  rw [if_neg ‹_›] at hdest
  split
  · rw [if_pos ‹_›] at hdest
    cases hdest
  rw [if_neg ‹_›] at hdest
  exact h.lead_meets hdest

/-- A path still leads to what is still of its kind. -/
theorem resolve_eq (hx : s'.kind? x = s.kind? x)
    (hdest : s.resolve followLast p = .ok (.existing x)) :
    s'.resolve followLast p = .ok (.existing x) := by
  have hmeets := h.resolve_meets hdest
  generalize s'.resolve followLast p = result at hmeets ⊢
  cases hmeets with
  | same => rfl
  | file hfile hstill => exact hstill (hx.trans hfile)

theorem lead_eq (hx : s'.kind? x = s.kind? x) (hdest : s.lead followLast p = .ok (.existing x)) :
    s'.lead followLast p = .ok (.existing x) := by
  have hmeets := h.lead_meets hdest
  generalize s'.lead followLast p = result at hmeets ⊢
  cases hmeets with
  | same => rfl
  | file hfile hstill => exact hstill (hx.trans hfile)

/-- A path that leads to a free name leads to the file that has come there. -/
theorem resolve_of_vacant (hdest : s.resolve followLast p = .ok (.vacant folder name false))
    (hfile : s'.HasFile (folder.child name)) :
    s'.resolve followLast p = .ok (.existing (folder.child name)) := by
  cases h.resolve_meets hdest with
  | free _ _ hcome => exact hcome rfl hfile

/-- A path that leads to a file leads to the free name when the file has gone. -/
theorem resolve_of_gone (hdest : s.resolve followLast p = .ok (.existing l)) (hfile : s.HasFile l)
    (hgone : s'.find? l = none) :
    s'.resolve followLast p = .ok (.existing l) ∨
      ∃ folder name, l = folder.child name ∧
        s'.resolve followLast p = .ok (.vacant folder name false) := by
  have hmeets := h.resolve_meets hdest
  generalize s'.resolve followLast p = result at hmeets ⊢
  cases hmeets with
  | same => exact Or.inl rfl
  | file _ _ hvacant => exact Or.inr ⟨_, _, rfl, hvacant hgone⟩

end KeepsWays

theorem find?_of_vacant (h : s.resolve followLast p = .ok (.vacant folder name slash)) :
    s.find? (folder.child name) = none := by
  cases (Keeps.refl s).keepsWays.resolve_meets h with
  | free hfree => exact hfree

theorem Keeps.resolve_eq (h : s.Keeps s') (hx : (s.find? x).isSome)
    (hdest : s.resolve followLast p = .ok (.existing x)) :
    s'.resolve followLast p = .ok (.existing x) := by
  refine h.keepsWays.resolve_eq ?_ hdest
  obtain ⟨e, he⟩ := Option.isSome_iff_exists.1 hx
  have hkind : s.kind? x = some e.kind := by rw [kind?, he, Option.map_some]
  rw [hkind, h.kind x _ hkind]

end Rebuild.FileStore
