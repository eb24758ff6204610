import Rebuild.Proofs.FileStore.WellFormed

/-!
# Following paths in a well-formed store

In a well-formed store a location is reached by the path that spells it, and what a path leads to is
in the store and is no link. Segments are followed to a destination exactly if they lead there
(`followWith_eq_ok_iff`), so that what is said about following is proved by induction on `Followed`, one
way of a first segment at a time.
-/

namespace Rebuild.FileStore

variable {s : FileStore} {l : Location} {e : Entry} {p : Path}

/-! ### One segment -/

/-- What a segment leads to from a folder. -/
inductive Pace where
  /-- To a folder. -/
  | folder (l : Location)
  /-- To a name that is free. -/
  | free
  /-- To a file. -/
  | file
  /-- To a link. -/
  | link (target : String)
  /-- Nowhere, for the name is too long. -/
  | nowhere

/-- What a segment leads to from a folder. -/
def pace (s : FileStore) (here : Location) (segment : String) : Pace :=
  if segment = "" ∨ segment = "." then .folder here
  else if segment = ".." then .folder here.parent
  else if maxNameLength < Text.byteLength segment.toList then .nowhere
  else
    match s.find? (here.child segment) with
    | none => .free
    | some (.file ..) => .file
    | some (.folder _) => .folder (here.child segment)
    | some (.link target) => .link target

section Segments

variable {followLast : Bool} {pass : Location → List String → Except FileError Destination}
variable {here : Location} {segment name : String} {segments rest : List String}

/-- Segments are followed by what each of them leads to. -/
theorem followWith_cons :
    s.followWith followLast pass here (segment :: rest) =
      match s.pace here segment with
      | .folder there => s.followWith followLast pass there rest
      | .free =>
        if rest.all (· = "") then .ok (.vacant here segment (!rest.isEmpty)) else .error .notFound
      | .file =>
        if rest.isEmpty then .ok (.existing (here.child segment)) else .error .notAFolder
      | .link target =>
        if rest.isEmpty && !followLast then .ok (.existing (here.child segment))
        else
          pass (if (⟨target⟩ : Path).isAbsolute then .root else here)
            ((⟨target⟩ : Path).body ++ rest)
      | .nowhere => .error .nameTooLong := by
  rw [followWith, pace]
  split
  · rfl
  split
  · rfl
  split
  · rfl
  simp only
  cases s.find? (here.child segment) with
  | none => rfl
  | some e => cases e <;> rfl

theorem pace_name (h : EntryName name) :
    s.pace here name =
      match s.find? (here.child name) with
      | none => .free
      | some (.file ..) => .file
      | some (.folder _) => .folder (here.child name)
      | some (.link target) => .link target := by
  rw [pace, if_neg (not_or.2 ⟨h.ne_empty, h.ne_dot⟩), if_neg h.ne_dots,
    if_neg (Nat.not_lt.2 h.short)]

theorem pace_folder (h : EntryName name) (hfolder : s.HasFolder (here.child name)) :
    s.pace here name = .folder (here.child name) := by
  obtain ⟨time, hfolder⟩ := hfolder
  rw [pace_name h, hfolder]

/-- A segment that leads to a folder does so from a folder. -/
theorem WellFormed.hasFolder_of_pace (hs : s.WellFormed) (hhere : s.HasFolder here)
    (h : s.pace here segment = .folder l) : s.HasFolder l := by
  rw [pace] at h
  split at h
  · cases h
    exact hhere
  split at h
  · cases h
    exact hs.parent _ hhere.isSome
  split at h
  · cases h
  split at h <;> cases h
  exact ⟨_, ‹_›⟩

theorem find?_of_pace_file (h : s.pace here segment = .file) :
    ∃ content executable time,
      s.find? (here.child segment) = some (.file content executable time) := by
  rw [pace] at h
  split at h
  · cases h
  split at h
  · cases h
  split at h
  · cases h
  split at h <;> cases h
  exact ⟨_, _, _, ‹_›⟩

theorem find?_of_pace_link {target : String} (h : s.pace here segment = .link target) :
    s.find? (here.child segment) = some (.link target) := by
  rw [pace] at h
  split at h
  · cases h
  split at h
  · cases h
  split at h
  · cases h
  split at h <;> cases h
  assumption

/-- A link begins in a folder, whether it is absolute or not. -/
theorem WellFormed.hasFolder_start (hs : s.WellFormed) (hhere : s.HasFolder here) (absolute : Bool) :
    s.HasFolder (if absolute then .root else here) := by
  cases absolute with
  | false => exact hhere
  | true => exact hs.root

/-- The segments lead from a folder to a destination. -/
inductive Followed (s : FileStore) (followLast : Bool)
    (pass : Location → List String → Except FileError Destination) :
    Location → List String → Destination → Prop where
  /-- No segment is left. -/
  | done (here : Location) : Followed s followLast pass here [] (.existing here)
  /-- The first one leads to a folder, and the others lead on from there. -/
  | folder {here there : Location} {segment : String} {rest : List String} {dest : Destination}
      (hpace : s.pace here segment = .folder there)
      (hrest : Followed s followLast pass there rest dest) :
      Followed s followLast pass here (segment :: rest) dest
  /-- The first one leads to a free name, and there is nothing but slashes behind it. -/
  | free {here : Location} {segment : String} {rest : List String}
      (hpace : s.pace here segment = .free) (hslashes : rest.all (· = "") = true) :
      Followed s followLast pass here (segment :: rest) (.vacant here segment (!rest.isEmpty))
  /-- The last one leads to a file. -/
  | file {here : Location} {segment : String} {rest : List String}
      (hpace : s.pace here segment = .file) (hend : rest = []) :
      Followed s followLast pass here (segment :: rest) (.existing (here.child segment))
  /-- The last one leads to a link that is not passed. -/
  | stop {here : Location} {segment target : String} {rest : List String}
      (hpace : s.pace here segment = .link target) (hend : rest = []) (hlast : followLast = false) :
      Followed s followLast pass here (segment :: rest) (.existing (here.child segment))
  /-- The first one leads to a link that is passed. -/
  | link {here : Location} {segment target : String} {rest : List String} {dest : Destination}
      (hpace : s.pace here segment = .link target) (hmore : rest = [] → followLast = true)
      (hpassed : pass (if (⟨target⟩ : Path).isAbsolute then .root else here)
        ((⟨target⟩ : Path).body ++ rest) = .ok dest) :
      Followed s followLast pass here (segment :: rest) dest

theorem followed_of_followWith {dest : Destination}
    (h : s.followWith followLast pass here segments = .ok dest) :
    s.Followed followLast pass here segments dest := by
  induction segments generalizing here with
  | nil =>
    cases h
    exact .done here
  | cons segment rest ih =>
    rw [followWith_cons] at h
    cases hpace : s.pace here segment with
    | folder there =>
      rw [hpace] at h
      exact .folder hpace (ih h)
    | free =>
      rw [hpace] at h
      simp only at h
      split at h <;> cases h
      exact .free hpace ‹_›
    | file =>
      rw [hpace] at h
      simp only at h
      split at h <;> cases h
      exact .file hpace (List.isEmpty_iff.1 ‹_›)
    | link target =>
      rw [hpace] at h
      simp only at h
      split at h
      case isTrue hlast =>
        cases h
        obtain ⟨hend, hlast⟩ := Bool.and_eq_true_iff.1 hlast
        exact .stop hpace (List.isEmpty_iff.1 hend) (by simpa using hlast)
      case isFalse hmore =>
        refine .link hpace (fun hend ↦ ?_) h
        simpa [hend] using hmore
    | nowhere =>
      rw [hpace] at h
      cases h

/-- Segments are followed to a destination exactly if they lead there. -/
theorem followWith_eq_ok_iff {dest : Destination} :
    s.followWith followLast pass here segments = .ok dest ↔
      s.Followed followLast pass here segments dest := by
  refine ⟨followed_of_followWith, fun h ↦ ?_⟩
  induction h with
  | done => rfl
  | folder hpace _ ih =>
    rw [followWith_cons, hpace]
    exact ih
  | free hpace hslashes =>
    rw [followWith_cons, hpace]
    exact if_pos hslashes
  | file hpace hend =>
    rw [followWith_cons, hpace, hend]
    rfl
  | stop hpace hend hlast =>
    rw [followWith_cons, hpace, hend, hlast]
    rfl
  | @link _ _ _ rest _ hpace hmore hpassed =>
    rw [followWith_cons, hpace]
    cases rest with
    | nil =>
      rw [hmore rfl]
      exact hpassed
    | cons => exact hpassed

/-- Names that lead through folders are passed. -/
theorem followWith_descend {names : List String} (hnames : ∀ name ∈ names, EntryName name)
    (hfolders : ∀ before after, names = before ++ after → before ≠ [] →
      s.HasFolder (here.descend before)) :
    s.followWith followLast pass here (names ++ rest) =
      s.followWith followLast pass (here.descend names) rest := by
  induction names generalizing here with
  | nil => simp
  | cons name names ih =>
    have hname := hnames name List.mem_cons_self
    have hfolder := hfolders [name] names rfl (by simp)
    rw [Location.descend_cons, Location.descend_nil] at hfolder
    rw [List.cons_append, followWith_cons, pace_folder hname hfolder, Location.descend_cons]
    refine ih (fun name hname ↦ hnames name (List.mem_cons_of_mem _ hname)) ?_
    intro before after hsplit hne
    have := hfolders (name :: before) after (by rw [hsplit]; rfl) (by simp)
    rwa [Location.descend_cons] at this

/-- Segments that lead to a folder either pass no link, or lead to it behind the first link that
they pass. Either way what comes behind them is followed from there. -/
theorem followWith_append {pass' : Location → List String → Except FileError Destination}
    (hl : s.HasFolder l) (h : s.followWith true pass here segments = .ok (.existing l)) :
    (∀ rest, rest ≠ [] → s.followWith followLast pass' here (segments ++ rest) =
        s.followWith followLast pass' l rest) ∨
      ∃ there others, pass there others = .ok (.existing l) ∧
        ∀ rest, rest ≠ [] → s.followWith followLast pass' here (segments ++ rest) =
          pass' there (others ++ rest) := by
  replace h := followed_of_followWith h
  generalize hdest : Destination.existing l = dest at h
  induction h with
  | done =>
    cases hdest
    exact Or.inl fun rest _ ↦ rfl
  | folder hpace _ ih =>
    simp only [List.cons_append, followWith_cons, hpace]
    exact ih hdest
  | free => cases hdest
  | file hpace =>
    -- a file is no folder
    cases hdest
    obtain ⟨content, executable, time, hfile⟩ := find?_of_pace_file hpace
    obtain ⟨time', hl⟩ := hl
    rw [hfile] at hl
    cases hl
  | stop _ _ hlast => cases hlast
  | @link _ _ _ segments _ hpace _ hpassed =>
    subst hdest
    refine Or.inr ⟨_, _, hpassed, fun rest hrest ↦ ?_⟩
    have hmore : (segments ++ rest).isEmpty = false := by simp [hrest]
    simp only [List.cons_append, followWith_cons, hpace, hmore, Bool.false_and, Bool.false_eq_true,
      if_false, List.append_assoc]

/-- Segments at the end that do not matter can be cut. -/
theorem followWith_cut {cut : List String} (hcut : ∀ segment ∈ cut, segment = "" ∨ segment = ".")
    (hpass : ∀ there others, pass there (others ++ cut) = .ok (.existing l) →
      pass there others = .ok (.existing l))
    (h : s.followWith true pass here (segments ++ cut) = .ok (.existing l)) :
    s.followWith true pass here segments = .ok (.existing l) := by
  induction segments generalizing here with
  | nil =>
    have hstay : s.followWith true pass here cut = .ok (.existing here) := by
      clear h hpass
      induction cut with
      | nil => rfl
      | cons segment cut ih =>
        rw [followWith, if_pos (hcut segment List.mem_cons_self)]
        exact ih fun segment hsegment ↦ hcut segment (List.mem_cons_of_mem _ hsegment)
    rw [List.nil_append, hstay] at h
    exact h
  | cons segment segments ih =>
    rw [List.cons_append] at h
    cases followed_of_followWith h with
    | folder hpace hrest =>
      rw [followWith_cons, hpace]
      exact ih (followWith_eq_ok_iff.2 hrest)
    | file hpace hend =>
      exact followWith_eq_ok_iff.2 (.file hpace (List.append_eq_nil_iff.1 hend).1)
    | stop _ _ hlast => cases hlast
    | link hpace _ hpassed =>
      rw [← List.append_assoc] at hpassed
      exact followWith_eq_ok_iff.2 (.link hpace (fun _ ↦ rfl) (hpass _ _ hpassed))

/-- A path to something leads there as well if a link at its end is not followed, or to a link. -/
theorem followWith_stop {pass' : Location → List String → Except FileError Destination}
    (hpass : ∀ there others, pass there others = .ok (.existing l) →
      ∃ l', pass' there others = .ok (.existing l') ∧ (l' = l ∨ ∃ target, s.find? l' = some (.link target)))
    (h : s.followWith true pass here segments = .ok (.existing l)) :
    ∃ l', s.followWith false pass' here segments = .ok (.existing l') ∧
      (l' = l ∨ ∃ target, s.find? l' = some (.link target)) := by
  replace h := followed_of_followWith h
  generalize hdest : Destination.existing l = dest at h
  induction h with
  | done =>
    cases hdest
    exact ⟨_, rfl, Or.inl rfl⟩
  | folder hpace _ ih =>
    rw [followWith_cons, hpace]
    exact ih hdest
  | free => cases hdest
  | file hpace hend =>
    cases hdest
    exact ⟨_, followWith_eq_ok_iff.2 (.file hpace hend), Or.inl rfl⟩
  | stop _ _ hlast => cases hlast
  | @link _ _ target _ _ hpace _ hpassed =>
    subst hdest
    rw [followWith_cons, hpace]
    simp only
    split
    · exact ⟨_, rfl, Or.inr ⟨target, find?_of_pace_link hpace⟩⟩
    · exact hpass _ _ hpassed

/-- An empty segment before a name does not matter. -/
theorem followWith_skip (hname : name ≠ "")
    (hpass : ∀ there others,
      pass there (others ++ ["", name]) = pass there (others ++ [name])) :
    s.followWith followLast pass here (segments ++ ["", name]) =
      s.followWith followLast pass here (segments ++ [name]) := by
  induction segments generalizing here with
  | nil => rw [List.nil_append, List.nil_append, followWith_cons]; rfl
  | cons segment segments ih =>
    simp only [List.cons_append, followWith_cons]
    cases s.pace here segment with
    | folder there => exact ih
    | free => simp [hname]
    | file => simp
    | link target =>
      have hrest := hpass (if (⟨target⟩ : Path).isAbsolute then .root else here)
        ((⟨target⟩ : Path).body ++ segments)
      rw [List.append_assoc, List.append_assoc] at hrest
      simpa using hrest
    | nowhere => rfl

end Segments

/-! ### The path of a location -/

theorem follow_eq_followWith (s : FileStore) (followLast : Bool) (links : Nat) :
    ∃ pass, s.follow followLast links = s.followWith followLast pass := by
  cases links with
  | zero => exact ⟨_, rfl⟩
  | succ links => exact ⟨_, rfl⟩

theorem isAbsolute_path (l : Location) : l.path.isAbsolute = true :=
  Path.isAbsolute_ofBody_true l.names

theorem path_ne_empty (l : Location) : l.path.text.isEmpty = false := by
  have h : l.path.text.toList ≠ [] := by
    rw [Location.path, Path.toList_ofBody]
    simp
  rw [← Bool.not_eq_true, String.isEmpty_iff]
  rintro heq
  exact h (by rw [heq]; rfl)

/-- Following the path of a location from the root leads to the location. -/
theorem WellFormed.follow_path (hs : s.WellFormed) (hl : s.find? l = some e)
    (hlink : ∀ target, e ≠ .link target) (followLast : Bool) (links : Nat) :
    s.follow followLast links .root l.path.body = .ok (.existing l) := by
  obtain ⟨pass, hpass⟩ := follow_eq_followWith s followLast links
  have hsome := Option.isSome_of_eq_some hl
  have hnames := hs.names l hsome
  rw [hpass]
  rcases List.eq_nil_or_concat l.names with hroot | ⟨around, name, hsplit⟩
  · have hl' : l = .root := by cases l; simp_all [Location.root]
    subst hl'
    rfl
  · rw [List.concat_eq_append] at hsplit
    have hne : l.names ≠ [] := by rw [hsplit]; simp
    have hslash := fun segment hsegment ↦ (hnames segment hsegment).no_slash
    have hend : (Location.root.descend around).child name = l := by
      rw [← Location.root_descend l, hsplit, Location.descend_append, Location.descend_cons,
        Location.descend_nil]
    rw [Location.path, Path.body_ofBody_true hne hslash, hsplit, followWith_descend]
    · rw [followWith_cons, pace_name (hnames name (by rw [hsplit]; simp)), hend, hl]
      cases e with
      | file => rfl
      | folder => rfl
      | link target => exact absurd rfl (hlink target)
    · intro name hname
      exact hnames name (by rw [hsplit]; exact List.mem_append_left _ hname)
    · rintro before after rfl -
      rcases after with - | ⟨next, after⟩
      · rw [List.append_nil] at hsplit
        exact hs.hasFolder_root_descend hsplit hsome
      · exact hs.hasFolder_root_descend (by rw [hsplit, List.append_assoc, List.cons_append]) hsome

theorem WellFormed.no_nul (hs : s.WellFormed) (hl : (s.find? l).isSome) :
    l.path.text.toList.contains '\x00' = false := by
  have hnames := hs.names l hl
  rw [← Bool.not_eq_true, List.contains_iff_mem, Location.path, Path.toList_ofBody]
  intro hmem
  rcases List.mem_append.1 hmem with hmem | hmem
  · exact absurd hmem (by decide)
  · refine Path.not_mem_intercalate (by decide) ?_ hmem
    intro segment hsegment
    obtain ⟨name, hname, rfl⟩ := List.mem_map.1 hsegment
    exact (hnames name hname).no_nul

/-- The path of a location leads to what is there, unless it is too long. -/
theorem WellFormed.locate_path (hs : s.WellFormed) (hl : s.find? l = some e)
    (hlink : ∀ target, e ≠ .link target) (hshort : tooLong l.path = false) (followLast : Bool) :
    s.locate followLast l.path = .ok (l, e) := by
  have hnul := hs.no_nul (Option.isSome_of_eq_some hl)
  rw [locate, resolve, hnul, hshort, lead, hnul, path_ne_empty, isAbsolute_path]
  simp only [Bool.false_eq_true, if_false, if_true, hs.follow_path hl hlink]
  show s.arrive (.existing l) = _
  rw [arrive, hl]

theorem WellFormed.stat_path (hs : s.WellFormed) (hl : s.find? l = some e)
    (hlink : ∀ target, e ≠ .link target) (hshort : tooLong l.path = false) :
    s.stat l.path = .ok e := by
  rw [stat, hs.locate_path hl hlink hshort]
  rfl

/-! ### What a path leads to -/

/-- Where a path leads is something in the store, and no link if links are followed. -/
def Destination.Real (s : FileStore) : Destination → Prop
  | .existing l => ∃ e, s.find? l = some e ∧ ∀ target, e ≠ .link target
  | .vacant folder _ _ => s.HasFolder folder

theorem HasFolder.real (h : s.HasFolder l) : Destination.Real s (.existing l) := by
  obtain ⟨time, h⟩ := h
  exact ⟨_, h, fun _ ↦ by simp⟩

theorem WellFormed.followWith_real (hs : s.WellFormed)
    {pass : Location → List String → Except FileError Destination}
    (hpass : ∀ here segments dest, s.HasFolder here → pass here segments = .ok dest →
      Destination.Real s dest)
    {here : Location} {segments : List String} {dest : Destination} (hhere : s.HasFolder here)
    (h : s.followWith true pass here segments = .ok dest) : Destination.Real s dest := by
  replace h := followed_of_followWith h
  induction h with
  | done => exact hhere.real
  | folder hpace _ ih => exact ih (hs.hasFolder_of_pace hhere hpace)
  | free => exact hhere
  | file hpace =>
    obtain ⟨content, executable, time, hfile⟩ := find?_of_pace_file hpace
    exact ⟨_, hfile, fun _ ↦ by simp⟩
  | stop _ _ hlast => cases hlast
  | link _ _ hpassed => exact hpass _ _ _ (hs.hasFolder_start hhere _) hpassed

theorem WellFormed.follow_real (hs : s.WellFormed) {links : Nat} {here : Location}
    {segments : List String} {dest : Destination} (hhere : s.HasFolder here)
    (h : s.follow true links here segments = .ok dest) : Destination.Real s dest := by
  induction links generalizing here segments dest with
  | zero => exact hs.followWith_real (fun _ _ _ _ h ↦ by cases h) hhere h
  | succ links ih => exact hs.followWith_real (fun _ _ _ hhere h ↦ ih hhere h) hhere h

theorem WellFormed.lead_real (hs : s.WellFormed) {dest : Destination}
    (h : s.lead true p = .ok dest) : Destination.Real s dest := by
  rw [lead] at h
  split at h
  · cases h
  split at h
  · cases h
  exact hs.follow_real (hs.hasFolder_start hs.current _) h

/-- What a path leads to when links are followed is no link. -/
theorem WellFormed.arrive_lead (hs : s.WellFormed)
    (h : s.lead true p >>= s.arrive = .ok (l, e)) :
    s.find? l = some e ∧ ∀ target, e ≠ .link target := by
  cases hdest : s.lead true p with
  | error => rw [hdest] at h; cases h
  | ok dest =>
    rw [hdest] at h
    obtain ⟨rfl, hfind⟩ := find?_of_arrive h
    obtain ⟨e', hfind', hlink⟩ := hs.lead_real hdest
    obtain rfl := Option.some.inj (hfind.symm.trans hfind')
    exact ⟨hfind, hlink⟩

/-- What the canonical location of a path is. -/
theorem WellFormed.canonical?_real (hs : s.WellFormed) (h : s.canonical? p = some l) :
    ∃ e, s.find? l = some e ∧ (∀ target, e ≠ .link target) ∧ tooLong l.path = false := by
  obtain ⟨hplace, hshort⟩ := Option.filter_eq_some_iff.1 h
  obtain ⟨⟨l', e⟩, harrive, rfl⟩ := Option.map_eq_some_iff.1 hplace
  cases hlead : s.lead true p >>= s.arrive with
  | error => rw [hlead] at harrive; cases harrive
  | ok found =>
    rw [hlead] at harrive
    obtain rfl := Option.some.inj harrive
    obtain ⟨hfind, hlink⟩ := hs.arrive_lead hlead
    exact ⟨e, hfind, hlink, by simpa using hshort⟩

/-- What a canonical location has been changed last. -/
theorem WellFormed.modified?_canonical (hs : s.WellFormed) (h : s.canonical? p = some l) :
    (s.modified? l.path).isSome := by
  obtain ⟨e, hfind, hlink, hshort⟩ := hs.canonical?_real h
  rw [modified?, hs.stat_path hfind hlink hshort]
  cases e with
  | file => rfl
  | folder => rfl
  | link target => exact absurd rfl (hlink target)

theorem lead_of_resolve {followLast : Bool} {dest : Destination}
    (h : s.resolve followLast p = .ok dest) : s.lead followLast p = .ok dest := by
  rw [resolve] at h
  split at h
  · cases h
  split at h
  · cases h
  exact h

theorem find?_of_locate {followLast : Bool} (h : s.locate followLast p = .ok (l, e)) :
    s.lead followLast p = .ok (.existing l) ∧ s.find? l = some e := by
  rw [locate] at h
  cases hresolve : s.resolve followLast p with
  | error => rw [hresolve] at h; cases h
  | ok dest =>
    rw [hresolve] at h
    obtain ⟨rfl, hfind⟩ := find?_of_arrive h
    exact ⟨lead_of_resolve hresolve, hfind⟩

theorem locate_of_stat (h : s.stat p = .ok e) : ∃ l, s.locate true p = .ok (l, e) := by
  rw [stat] at h
  cases hlocate : s.locate true p with
  | error => rw [hlocate] at h; cases h
  | ok found =>
    rw [hlocate] at h
    cases h
    exact ⟨found.1, rfl⟩

/-- What is there has a time of its last change. -/
theorem WellFormed.modified?_isSome (hs : s.WellFormed) (p : Path) :
    (s.modified? p).isSome = s.pathExists p := by
  rw [modified?, pathExists]
  cases hstat : s.stat p with
  | error => rfl
  | ok e =>
    obtain ⟨l, hlocate⟩ := locate_of_stat hstat
    obtain ⟨hlead, hfind⟩ := find?_of_locate hlocate
    obtain ⟨e', hfind', hlink⟩ := hs.lead_real hlead
    obtain rfl := Option.some.inj (hfind.symm.trans hfind')
    cases e with
    | file => rfl
    | folder => rfl
    | link target => exact absurd rfl (hlink target)

/-! ### Paths that are not too long -/

theorem canonical?_of_lead {p : Path} {l : Location} (h : s.lead true p = .ok (.existing l))
    (hl : (s.find? l).isSome) (hshort : tooLong l.path = false) : s.canonical? p = some l := by
  obtain ⟨e, he⟩ := Option.isSome_iff_exists.1 hl
  have harrive : s.lead true p >>= s.arrive = .ok (l, e) := by
    rw [h]
    show s.arrive (.existing l) = _
    rw [arrive, he]
  rw [canonical?, harrive]
  exact Option.filter_eq_some_iff.2 ⟨rfl, by rw [hshort]; rfl⟩

theorem locate_of_lead {followLast : Bool} (h : s.lead followLast p = .ok (.existing l))
    (hl : s.find? l = some e) (hshort : tooLong p = false) :
    s.locate followLast p = .ok (l, e) := by
  have hresolve : s.resolve followLast p = .ok (.existing l) := by
    have hlead := h
    rw [lead] at hlead
    split at hlead
    · cases hlead
    rename_i hnul
    rw [resolve, if_neg hnul, hshort, h]
    rfl
  rw [locate, hresolve]
  show s.arrive (.existing l) = _
  rw [arrive, hl]

theorem pathExists_of_lead (h : s.lead true p = .ok (.existing l)) (hl : (s.find? l).isSome)
    (hshort : tooLong p = false) : s.pathExists p = true := by
  obtain ⟨e, he⟩ := Option.isSome_iff_exists.1 hl
  rw [pathExists, stat, locate_of_lead h he hshort]
  rfl

/-! ### A name behind a path -/

/-- Going on behind segments that lead to a folder is going on from the folder, perhaps with fewer
links left. -/
theorem follow_append (hl : s.HasFolder l) (followLast : Bool) {links : Nat} {here : Location}
    {segments : List String} (h : s.follow true links here segments = .ok (.existing l)) :
    ∃ left, ∀ rest, rest ≠ [] →
      s.follow followLast links here (segments ++ rest) = s.follow followLast left l rest := by
  induction links generalizing here segments with
  | zero =>
    rcases followWith_append hl h with hall | ⟨there, others, hpass, -⟩
    · exact ⟨0, hall⟩
    · cases hpass
  | succ links ih =>
    rcases followWith_append hl h with hall | ⟨there, others, hpass, hrest⟩
    · exact ⟨links + 1, hall⟩
    · obtain ⟨left, hleft⟩ := ih hpass
      exact ⟨left, fun rest hne ↦ (hrest rest hne).trans (hleft rest hne)⟩

theorem follow_cut {cut : List String} (hcut : ∀ segment ∈ cut, segment = "" ∨ segment = ".")
    {links : Nat} {here : Location} {segments : List String}
    (h : s.follow true links here (segments ++ cut) = .ok (.existing l)) :
    s.follow true links here segments = .ok (.existing l) := by
  induction links generalizing here segments with
  | zero => exact followWith_cut hcut (fun _ _ h ↦ by cases h) h
  | succ links ih => exact followWith_cut hcut (fun _ _ ↦ ih) h

theorem follow_stop {links : Nat} {here : Location} {segments : List String}
    (h : s.follow true links here segments = .ok (.existing l)) :
    ∃ l', s.follow false links here segments = .ok (.existing l') ∧
      (l' = l ∨ ∃ target, s.find? l' = some (.link target)) := by
  induction links generalizing here segments with
  | zero => exact followWith_stop (fun _ _ h ↦ by cases h) h
  | succ links ih => exact followWith_stop (fun _ _ ↦ ih) h

theorem lead_stop (h : s.lead true p = .ok (.existing l)) : ∃ l',
    s.lead false p = .ok (.existing l') ∧ (l' = l ∨ ∃ target, s.find? l' = some (.link target)) := by
  rw [lead] at h ⊢
  split at h
  · cases h
  rename_i hnul
  split at h
  · cases h
  rename_i hempty
  rw [if_neg hnul, if_neg hempty]
  exact follow_stop h

theorem follow_skip {followLast : Bool} {links : Nat} {here : Location} {segments : List String}
    {name : String} (hname : name ≠ "") :
    s.follow followLast links here (segments ++ ["", name]) =
      s.follow followLast links here (segments ++ [name]) := by
  induction links generalizing here segments with
  | zero => exact followWith_skip hname fun _ _ ↦ rfl
  | succ links ih => exact followWith_skip hname fun _ _ ↦ ih

/-- The path of something in a folder is followed by following the path of the folder. -/
theorem lead_joinName {name : String} (hname : EntryName name) (hl : s.HasFolder l)
    (h : s.lead true p = .ok (.existing l)) :
    ∃ left, s.lead true (p.joinName name) = s.follow true left l [name] := by
  rw [lead] at h
  split at h
  · cases h
  rename_i hnul
  split at h
  · cases h
  rename_i hempty
  have htext := Path.toList_joinName (p := p) hname.no_slash
  have hnul' : (p.joinName name).text.toList.contains '\x00' = false := by
    rw [← Bool.not_eq_true, htext, List.contains_iff_mem]
    have hslash : '\x00' ∉ (if p.isOpen then [] else ['/']) := by split <;> decide
    simpa [hslash, hname.no_nul] using hnul
  have hempty' : (p.joinName name).text.isEmpty = false := by
    rw [← Bool.not_eq_true, String.isEmpty_iff, ← String.toList_eq_nil_iff, htext]
    simp [hname.ne_empty]
  obtain ⟨left, hleft⟩ := follow_append hl true h
  refine ⟨left, ?_⟩
  rw [lead, hnul', hempty', Path.isAbsolute_joinName hname.no_slash]
  simp only [Bool.false_eq_true, if_false]
  rw [← hleft _ (by simp)]
  rw [Path.body_joinName hname.no_slash]
  rcases Path.body_eq_before p with hbody | hbody
  · rw [hbody]
  · rw [hbody, List.append_assoc]
    exact (follow_skip hname.ne_empty).symm

end Rebuild.FileStore
