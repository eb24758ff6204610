import Rebuild.Proofs.FileStore.Reworking
import Rebuild.Proofs.Include.Unit

/-!
# Copying files

Copying a file writes the bytes of one file where a path leads (`exists_writes_of_copyFile`). It fails only
where the source is no file or the target cannot be written: to a place in a folder that is there, where no
folder stands in the way, a file can be copied (`Placed.exists_copyFile`).

A path that leads to a file, and to no link, ends with the name of the file in its folder. So it has the
location of the file for its place, and still has it when the file has been removed.
-/

namespace Rebuild.FileStore

variable {s s' : FileStore} {l m x : Location} {p source target : Path} {content : ByteArray}
variable {executable : Bool}

/-! ### The name of a file -/

section Segments

variable {pass pass' : Location → List String → Except FileError Destination} {here : Location}
variable {segments : List String}

/-- Segments that lead to a file, without a link at their end, lead to its folder and end with its name. -/
theorem WellFormed.followWith_name (hs : s.WellFormed) (hfile : s.HasFile l) (hhere : s.HasFolder here)
    (hpass : ∀ there others, s.HasFolder there → pass there others = .ok (.existing l) →
      ∃ first base name, others = first ++ [name] ∧ pass' there first = .ok (.existing base) ∧
        l = base.child name)
    (h : s.followWith false pass here segments = .ok (.existing l)) :
    ∃ first base name, segments = first ++ [name] ∧
      s.followWith true pass' here first = .ok (.existing base) ∧ l = base.child name := by
  replace h := followed_of_followWith h
  generalize hdest : Destination.existing l = dest at h
  induction h with
  | done =>
    cases hdest
    exact absurd hhere hfile.not_hasFolder
  | @folder _ _ segment _ _ hpace _ ih =>
    obtain ⟨first, base, name, rfl, hfirst, hl⟩ := ih (hs.hasFolder_of_pace hhere hpace) hdest
    refine ⟨segment :: first, base, name, rfl, ?_, hl⟩
    rw [followWith_cons, hpace]
    exact hfirst
  | free => cases hdest
  | @file here segment _ _ hend =>
    cases hdest
    exact ⟨[], here, segment, by rw [hend]; rfl, rfl, rfl⟩
  | stop hpace =>
    -- a link at the end is no file
    cases hdest
    have hlink := find?_of_pace_link hpace
    rw [← kind?_eq_link_iff, show s.kind? _ = _ from hfile] at hlink
    cases hlink
  | @link here segment target rest _ hpace hmore hpassed =>
    subst hdest
    obtain ⟨first, base, name, hothers, hfirst, hl⟩ :=
      hpass _ _ (hs.hasFolder_start hhere _) hpassed
    -- the last segment is not one of the link
    obtain ⟨others, last, rfl⟩ := List.eq_nil_or_concat' rest |>.resolve_left fun hend ↦
      Bool.false_ne_true (hmore hend)
    rw [← List.append_assoc] at hothers
    obtain ⟨rfl, hlast⟩ := List.append_inj' hothers rfl
    cases hlast
    exact ⟨segment :: others, base, name, rfl,
      followWith_eq_ok_iff.2 (.link hpace (fun _ ↦ rfl) hfirst), hl⟩

theorem WellFormed.follow_name (hs : s.WellFormed) (hfile : s.HasFile l) {links : Nat}
    (hhere : s.HasFolder here) (h : s.follow false links here segments = .ok (.existing l)) :
    ∃ first base name, segments = first ++ [name] ∧
      s.follow true links here first = .ok (.existing base) ∧ l = base.child name := by
  induction links generalizing here segments with
  | zero =>
    refine hs.followWith_name hfile hhere ?_ h
    intro there others _ hnever
    cases hnever
  | succ links ih => exact hs.followWith_name hfile hhere (fun _ _ hthere ↦ ih hthere) h

end Segments

/-- The place of a path that leads to a file, and to no link, is the location of the file. -/
theorem WellFormed.placed_of_locate_false (hs : s.WellFormed) {e : Entry}
    (h : s.locate false p = .ok (l, e)) (hfile : s.HasFile l) : s.Placed p l := by
  obtain ⟨hresolve, hfind⟩ := locate_eq_ok_iff.1 h
  rw [resolve] at hresolve
  split at hresolve
  · cases hresolve
  rename_i hnul
  split at hresolve
  · cases hresolve
  rename_i hshort
  rw [lead, if_neg hnul] at hresolve
  split at hresolve
  · cases hresolve
  obtain ⟨segments, base, name, hbody, haround, rfl⟩ :=
    hs.follow_name hfile (hs.hasFolder_start hs.current _) hresolve
  have hsome : (s.find? (base.child name)).isSome := Option.isSome_of_eq_some hfind
  have hbase : s.HasFolder base := by
    have := hs.parent _ hsome
    rwa [Location.parent_child] at this
  refine ⟨segments, base, [name], ⟨hbody, haround, hbase, ?_, ?_, Bool.eq_false_iff.2 hnul,
    Bool.eq_false_iff.2 hshort⟩, List.cons_ne_nil _ _, rfl⟩
  · intro other hother
    refine hs.names _ hsome other ?_
    rw [Location.names_child]
    exact List.mem_append_right _ hother
  · intro before hbefore target hlink
    rcases List.prefix_cons_iff.1 hbefore with rfl | ⟨before, rfl, hnil⟩
    · obtain ⟨time, hfolder⟩ := hbase
      rw [Location.descend_nil, hfolder] at hlink
      cases hlink
    · rw [List.prefix_nil.1 hnil] at hlink
      have hkind : s.kind? (base.child name) = _ := kind?_eq_link_iff.2 hlink
      rw [show s.kind? _ = _ from hfile] at hkind
      cases hkind

/-! ### What copying does -/

/-- What has been written is what was to be written. -/
theorem content?_of_writeBytes (h : s.writeBytes p content executable = .ok s')
    (hwrites : s.Writes p l s') : s'.content? l = some content := by
  rw [writeBytes] at h
  rcases hwrites.dest with ⟨hdest, -⟩ | ⟨folder, name, rfl, hdest⟩
  · rw [hdest] at h
    simp only at h
    split at h <;> cases h
    exact content?_eq_some_iff.2 ⟨_, _, by rw [find?_tick, find?_put, if_pos rfl]⟩
  · rw [hdest] at h
    cases h
    exact content?_eq_some_iff.2 ⟨_, _, find?_add_self⟩

theorem setExecutable_of_writes {time : Time} (h : s.Writes p l s')
    (hfind : s'.find? l = some (.file content executable time)) (executable' : Bool) :
    s'.setExecutable p executable' = .ok (s'.put l (.file content executable' time)) := by
  rw [setExecutable, locate_eq_ok_iff.2 ⟨h.resolve_eq, hfind⟩]

/-- A file that has been written may be put there with something else about it. -/
theorem Writes.put (h : s.Writes p l s') (content : ByteArray) (executable : Bool) (time : Time) :
    s.Writes p l (s'.put l (.file content executable time)) := by
  refine ⟨h.current, h.dest, hasFile_of_find? ((find?_put ..).trans (if_pos rfl)), fun x hx ↦ ?_⟩
  have hput : (s'.put l (.file content executable time)).find? x = s'.find? x := by
    rw [find?_put, if_neg hx]
  rcases h.kept x hx with hsame | ⟨hparent, hwas, hfolder⟩
  · exact Or.inl (hput.trans hsame)
  · refine Or.inr ⟨hparent, hwas, ?_⟩
    rwa [HasFolder, hput]

/-- Copying writes the bytes of the source, or none if the target leads to the source itself, and then says
whether the file may be run. -/
theorem exists_written_of_copyFile (h : s.copyFile source target = .ok s') :
    ∃ m content executable time written l, s.locate true source = .ok (m, .file content executable time) ∧
      let bytes := if (s.locate true target).toOption.any (fun found ↦ found.1 = m) then .empty else content
      s.writeBytes target bytes executable = .ok written ∧ s.Writes target l written ∧
        s' = written.put l (.file bytes executable s.clock) := by
  rw [copyFile] at h
  cases hsource : s.locate true source with
  | error e =>
    rw [hsource] at h
    cases h
  | ok found =>
    obtain ⟨m, e⟩ := found
    rw [hsource] at h
    cases e with
    | folder time => cases h
    | link other => cases h
    | file content executable time =>
      simp only at h
      split at h
      · cases h
      rename_i written hwritten
      obtain ⟨l, hwrites, htime, -⟩ := exists_writes_at hwritten
      obtain ⟨present, time', hfound⟩ := content?_eq_some_iff.1 (content?_of_writeBytes hwritten hwrites)
      rw [fileTime?, hfound] at htime
      cases htime
      rw [setExecutable_of_writes hwrites hfound] at h
      cases h
      exact ⟨m, content, executable, time, written, l, rfl, hwritten, hwrites, rfl⟩

/-- Copying writes the bytes of the source where the target leads. -/
theorem exists_writes_of_copyFile (h : s.copyFile source target = .ok s') :
    ∃ m l, s.resolve true source = .ok (.existing m) ∧ s.HasFile m ∧ s.Writes target l s' ∧
      (m ≠ l → s'.content? l = s.content? m) := by
  obtain ⟨m, content, executable, time, written, l, hsource, -, hwrites, rfl⟩ := exists_written_of_copyFile h
  obtain ⟨hleads, hfind⟩ := locate_eq_ok_iff.1 hsource
  refine ⟨m, l, hleads, hasFile_of_find? hfind, hwrites.put .., fun hne ↦ ?_⟩
  have honto : ((s.locate true target).toOption.any fun found ↦ found.1 = m) = false := by
    rw [locate]
    rcases hwrites.dest with ⟨hdest, hfile⟩ | ⟨folder, name, -, hdest⟩
    · rw [hdest]
      obtain ⟨content', executable', time', hthere⟩ := exists_find?_of_hasFile hfile
      show (s.arrive (.existing l)).toOption.any _ = _
      rw [arrive, hthere]
      exact decide_eq_false hne.symm
    · rw [hdest]
      rfl
  rw [honto, if_neg Bool.false_ne_true, content?_eq_some_iff.2 ⟨_, _, hfind⟩]
  exact content?_eq_some_iff.2 ⟨executable, s.clock, (find?_put ..).trans (if_pos rfl)⟩

/-! ### When copying succeeds -/

/-- Where no folder is, a file can be written to a place in a folder. -/
theorem Placed.exists_writeBytes (h : s.Placed p l) (hs : s.WellFormed) (hfolder : s.HasFolder l.parent)
    (hnot : ¬s.HasFolder l) (content : ByteArray) (executable : Bool) :
    ∃ s', s.writeBytes p content executable = .ok s' := by
  obtain ⟨segments, base, names, name, hway, rfl⟩ := h.exists_way
  rw [Location.parent_child] at hfolder
  have hresolve := hway.resolve_of_hasFolder hs hfolder true
  rcases h.plain hs hnot with hfile | hnone
  · obtain ⟨content', executable', time, hfind⟩ := exists_find?_of_hasFile hfile
    rw [hfind] at hresolve
    rw [writeBytes, hresolve]
    simp only [Option.isSome_some, if_true, hfind]
    exact ⟨_, rfl⟩
  · rw [hnone] at hresolve
    rw [writeBytes, hresolve]
    exact ⟨_, rfl⟩

/-- Where no folder is, a file can be copied to a place in a folder. -/
theorem Placed.exists_copyFile (h : s.Placed target l) (hs : s.WellFormed)
    (hfolder : s.HasFolder l.parent) (hnot : ¬s.HasFolder l)
    (hsource : s.resolve true source = .ok (.existing m)) (hfile : s.HasFile m) :
    ∃ s', s.copyFile source target = .ok s' := by
  obtain ⟨content, executable, time, hfind⟩ := exists_find?_of_hasFile hfile
  rw [copyFile, locate_eq_ok_iff.2 ⟨hsource, hfind⟩]
  simp only
  set ontoItself := (s.locate true target).toOption.any fun found ↦ found.1 = m
  obtain ⟨written, hwritten⟩ := h.exists_writeBytes hs hfolder hnot
    (if ontoItself then .empty else content) executable
  obtain ⟨l', hwrites⟩ := exists_writes hwritten
  obtain ⟨present, time', hfound⟩ := content?_eq_some_iff.1 (content?_of_writeBytes hwritten hwrites)
  simp only [hwritten]
  exact ⟨_, setExecutable_of_writes hwrites hfound executable⟩

end Rebuild.FileStore
