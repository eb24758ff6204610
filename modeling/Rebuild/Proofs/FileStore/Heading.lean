import Rebuild.Proofs.FileStore.Copying
import Rebuild.Proofs.FileStore.Sound
import Rebuild.Proofs.Path.Joining

/-!
# Where paths head for

A path *heads for* a location when its first segments lead to a folder and the others go down from there by
names and through no link. Whether or not there is something at the location, or on the way to it, the path
leads nowhere else (`HeadsFor.location_eq`), and making the folders on the way makes nothing else
(`Heads.find?_createThrough`). Unlike a place, the location may be spelled with segments that do not matter.
-/

namespace Rebuild

open Rebuild.Path (matters)

variable {s s' : FileStore} {p q : Path} {l x base : Location} {segments rest names : List String}
variable {name segment : String} {followLast : Bool}

namespace Path

/-- A segment at the end that does not matter is cut. -/
theorem dropEnd_append_idle {first : Bool} (hidle : matters segment = false)
    (hempty : segments = [] → first = true → segment = "") :
    dropEnd first (segments ++ [segment]) = dropEnd first segments := by
  induction segments generalizing first with
  | nil =>
    have hat : mattersAt first segment = false := by
      cases first with
      | false => rw [mattersAt_false, hidle]
      | true => rw [hempty rfl rfl]; rfl
    rw [List.nil_append, dropEnd, dropEnd, hat]
    rfl
  | cons other rest ih =>
    have hrest : dropEnd false (rest ++ [segment]) = dropEnd false rest :=
      ih fun _ hfirst ↦ absurd hfirst Bool.false_ne_true
    rw [List.cons_append, dropEnd, dropEnd, hrest]

theorem ancestorsOf_append_idle {absolute : Bool} (hidle : matters segment = false)
    (hempty : segments = [] → absolute = false → segment = "") :
    ancestorsOf absolute (segments ++ [segment]) = ancestorsOf absolute segments := by
  have hdrop : dropEnd (!absolute) (segments ++ [segment]) = dropEnd (!absolute) segments :=
    dropEnd_append_idle hidle fun hnil hfirst ↦ hempty hnil (by simpa using hfirst)
  by_cases hkept : dropEnd (!absolute) segments = []
  · rw [ancestorsOf_of_dropEnd_nil (hdrop.trans hkept), ancestorsOf_of_dropEnd_nil hkept]
  · rw [ancestorsOf_of_dropEnd hdrop hkept, ancestorsOf_of_dropEnd rfl hkept]

end Path

namespace FileStore

/-- The location that a path leads to, or that of the free name. -/
def Destination.location : Destination → Location
  | .existing l => l
  | .vacant folder name _ => folder.child name

/-- The folder that a name leads to is the one of that name. -/
theorem eq_child_of_pace {here there : Location} (hmatters : matters segment = true) (hup : segment ≠ "..")
    (h : s.pace here segment = .folder there) : there = here.child segment := by
  have hskip : ¬(segment = "" ∨ segment = ".") := by simpa [matters] using hmatters
  rw [pace, if_neg hskip, if_neg hup] at h
  split at h
  · cases h
  · split at h <;> cases h
    rfl

/-- A file is written where its path leads. -/
theorem Writes.exists_dest (h : s.Writes p l s') :
    ∃ dest, s.resolve true p = .ok dest ∧ dest.location = l := by
  rcases h.dest with ⟨hdest, -⟩ | ⟨folder, name, rfl, hdest⟩
  · exact ⟨_, hdest, rfl⟩
  · exact ⟨_, hdest, rfl⟩

/-- A segment that does not lead to a folder matters. -/
theorem matters_of_pace {here : Location} {way : Pace} (hpace : s.pace here segment = way)
    (hway : ∀ there, way ≠ .folder there) : matters segment = true := by
  by_contra hidle
  refine hway here (hpace.symm.trans ?_)
  rw [pace, if_pos (by simpa [matters, or_iff_not_imp_left] using hidle)]

/-- Segments that go down from a folder through no link lead to the location that they spell. -/
theorem location_of_followWith {pass : Location → List String → Except FileError Destination}
    {here : Location} {dest : Destination} (hdots : ".." ∉ rest)
    (hlink : ∀ before, before <+: rest.filter matters →
      ∀ target, s.find? (here.descend before) ≠ some (.link target))
    (h : s.followWith followLast pass here rest = .ok dest) :
    dest.location = here.descend (rest.filter matters) := by
  replace h := followed_of_followWith h
  induction h with
  | done here => exact here.descend_nil.symm
  | @folder here there segment rest _ hpace _ ih =>
    have hrest : ".." ∉ rest := fun hmem ↦ hdots (List.mem_cons_of_mem _ hmem)
    cases hmatters : matters segment with
    | false =>
      have hskip : segment = "" ∨ segment = "." := by
        simpa [matters, or_iff_not_imp_left] using hmatters
      rw [List.filter_cons_of_neg (by simp [hmatters])] at hlink ⊢
      rw [pace, if_pos hskip] at hpace
      cases hpace
      exact ih hrest hlink
    | true =>
      have hup : segment ≠ ".." := by
        rintro rfl
        exact hdots List.mem_cons_self
      rw [List.filter_cons_of_pos hmatters] at hlink ⊢
      rw [Location.descend_cons]
      obtain rfl := eq_child_of_pace hmatters hup hpace
      refine ih hrest fun before hbefore ↦ ?_
      rw [← Location.descend_cons]
      exact hlink (segment :: before) (List.cons_prefix_cons.2 ⟨rfl, hbefore⟩)
  | @free here segment rest hpace hslashes =>
    -- nothing that matters follows a free name
    have hnone : rest.filter matters = [] := List.filter_eq_nil_iff.2 fun other hother ↦ by
      rw [of_decide_eq_true (List.all_eq_true.1 hslashes other hother)]
      decide
    rw [List.filter_cons_of_pos (matters_of_pace hpace (by simp)), hnone, Location.descend_cons,
      Location.descend_nil]
    rfl
  | file hpace hend =>
    rw [hend, List.filter_cons_of_pos (matters_of_pace hpace (by simp)), Location.descend_cons]
    exact (Location.descend_nil _).symm
  | @stop here segment target _ hpace | @link here segment target _ _ hpace =>
    refine absurd (find?_of_pace_link hpace) (hlink [segment] ?_ target)
    rw [List.filter_cons_of_pos (matters_of_pace hpace (by simp))]
    simp

/-! ### A slash at the end -/

/-- Whether a destination is a folder, or a free name with a slash behind it. -/
def Destination.IsOpen (s : FileStore) : Destination → Prop
  | .existing l => s.HasFolder l
  | .vacant _ _ slash => slash = true

theorem WellFormed.followWith_slash (hs : s.WellFormed)
    {pass : Location → List String → Except FileError Destination} {here : Location}
    {segments : List String} {dest : Destination} (hhere : s.HasFolder here)
    (hpass : ∀ there others dest, s.HasFolder there → pass there (others ++ [""]) = .ok dest →
      dest.IsOpen s)
    (h : s.followWith followLast pass here (segments ++ [""]) = .ok dest) : dest.IsOpen s := by
  induction segments generalizing here with
  | nil =>
    cases h
    exact hhere
  | cons segment rest ih =>
    rw [List.cons_append] at h
    cases followed_of_followWith h with
    | folder hpace hrest =>
      exact ih (hs.hasFolder_of_pace hhere hpace) (followWith_eq_ok_iff.2 hrest)
    | free => simp [Destination.IsOpen]
    | file _ hend => simp at hend
    | stop _ hend => simp at hend
    | link _ _ hpassed =>
      rw [← List.append_assoc] at hpassed
      exact hpass _ _ dest (hs.hasFolder_start hhere _) hpassed

theorem WellFormed.follow_slash (hs : s.WellFormed) {links : Nat} {here : Location}
    {segments : List String} {dest : Destination} (hhere : s.HasFolder here)
    (h : s.follow followLast links here (segments ++ [""]) = .ok dest) : dest.IsOpen s := by
  induction links generalizing here segments dest with
  | zero => exact hs.followWith_slash hhere (fun _ _ _ _ h ↦ by cases h) h
  | succ links ih => exact hs.followWith_slash hhere (fun _ _ _ hthere ↦ ih hthere) h

/-- No file is written to a path that ends with a slash. -/
theorem Writes.false_of_slash (h : s.Writes p l s') (hs : s.WellFormed) (hp : p.body = segments ++ [""]) :
    False := by
  obtain ⟨dest, hdest, -⟩ := h.exists_dest
  have hopen : dest.IsOpen s := by
    have hlead := lead_of_resolve hdest
    rw [lead] at hlead
    split at hlead
    · cases hlead
    · split at hlead
      · cases hlead
      · rw [hp] at hlead
        exact hs.follow_slash (hs.hasFolder_start hs.current _) hlead
  rcases h.dest with ⟨hthere, hfile⟩ | ⟨folder, name, -, hthere⟩
  · rw [hthere] at hdest
    cases hdest
    exact hfile.not_hasFolder hopen
  · rw [hthere] at hdest
    cases hdest
    cases hopen

/-! ### Heading for a location -/

/-- The first segments of a path lead to a folder, and the others go down from there through no link. -/
structure Heads (s : FileStore) (p : Path) (segments : List String) (base : Location)
    (rest : List String) : Prop where
  /-- These are the segments of the path. -/
  body : p.body = segments ++ rest
  /-- The first ones lead to the folder. -/
  around : s.follow true maxLinks (if p.isAbsolute then .root else s.current) segments =
    .ok (.existing base)
  /-- The folder is there. -/
  folder : s.HasFolder base
  /-- The others do not go up. -/
  no_dots : ".." ∉ rest
  /-- No link is passed. -/
  no_link : ∀ before, before <+: rest.filter matters →
    ∀ target, s.find? (base.descend before) ≠ some (.link target)

/-- A path goes down to a location, or would if all on the way were made. -/
def GoesDownTo (s : FileStore) (p : Path) (l : Location) : Prop :=
  ∃ segments base rest, s.Heads p segments base rest ∧ l = base.descend (rest.filter matters)

/-- A path goes down to a location and ends with its name. -/
def HeadsFor (s : FileStore) (p : Path) (l : Location) : Prop :=
  ∃ segments base rest name, s.Heads p segments base (rest ++ [name]) ∧ matters name = true ∧
    l = (base.descend (rest.filter matters)).child name

namespace Heads

/-- A path that goes down from a folder leads to the location that its segments spell. -/
theorem location_eq (h : s.Heads p segments base rest) (hne : rest ≠ []) {dest : Destination}
    (hdest : s.resolve followLast p = .ok dest) : dest.location = base.descend (rest.filter matters) := by
  obtain ⟨left, hleft⟩ := follow_append h.folder followLast h.around
  obtain ⟨pass, hpass⟩ := follow_eq_followWith s followLast left
  have hlead := lead_of_resolve hdest
  rw [lead] at hlead
  split at hlead
  · cases hlead
  · split at hlead
    · cases hlead
    · rw [h.body, hleft rest hne, hpass] at hlead
      exact location_of_followWith h.no_dots h.no_link hlead

/-- The segments that go down and matter are ordinary names. -/
theorem segmentName (h : s.Heads p segments base rest) (hmem : name ∈ rest) (hmatters : matters name = true) :
    Path.SegmentName name := by
  have hbody : name ∈ p.body := by
    rw [h.body]
    exact List.mem_append_right _ hmem
  have hup : name ≠ ".." := by
    rintro rfl
    exact h.no_dots hmem
  have hskip : name ≠ "" ∧ name ≠ "." := by simpa [matters] using hmatters
  exact ⟨⟨hskip.1, Path.no_slash_of_mem_body hbody⟩, hskip.2, hup⟩

/-- The path of the first of the segments that go down. -/
theorem take (h : s.Heads p segments base (names ++ rest)) (hne : names ≠ []) :
    s.Heads (.ofBody p.isAbsolute (segments ++ names)) segments base names := by
  have hbody : p.body = (segments ++ names) ++ rest := by rw [h.body, List.append_assoc]
  refine ⟨Path.body_ofBody_first hbody (by simp [hne]), ?_, h.folder,
    fun hmem ↦ h.no_dots (List.mem_append_left _ hmem), fun before hbefore ↦ h.no_link before ?_⟩
  · rw [Path.isAbsolute_ofBody_first hbody]
    exact h.around
  · rw [List.filter_append]
    exact hbefore.trans (List.prefix_append _ _)

theorem of_keepsWays (h : s.Heads p segments base rest) (hkeeps : s.KeepsWays s')
    (hlink : ∀ x target, s'.find? x = some (.link target) → s.find? x = some (.link target)) :
    s'.Heads p segments base rest := by
  obtain ⟨hfolder, hfollow⟩ := hkeeps.follow_folder h.folder h.around
  rw [← hkeeps.current] at hfollow
  exact ⟨h.body, hfollow, hfolder, h.no_dots,
    fun before hbefore target hthere ↦ h.no_link before hbefore target (hlink _ _ hthere)⟩

/-- A path that goes down behind another goes on going down. -/
theorem join (h : s.Heads p segments base rest) (hq : q.Descends)
    (hlink : ∀ before, before <+: q.names → ∀ target,
      s.find? ((base.descend (rest.filter matters)).descend before) ≠ some (.link target)) :
    ∃ segments' rest', s.Heads (p.join q) segments' base (rest' ++ q.body) ∧
      rest'.filter matters = rest.filter matters := by
  have hjoin {segments' rest' : List String} (hbefore : p.before = segments' ++ rest')
      (haround : s.follow true maxLinks (if p.isAbsolute then .root else s.current) segments' =
        .ok (.existing base))
      (hdots : ".." ∉ rest') (hfilter : rest'.filter matters = rest.filter matters) :
      s.Heads (p.join q) segments' base (rest' ++ q.body) := by
    refine ⟨by rw [Path.body_join hq.relative, hbefore, List.append_assoc], ?_, h.folder, ?_,
      fun before hprefix target ↦ ?_⟩
    · rw [Path.isAbsolute_join hq.relative]
      exact haround
    · rw [List.mem_append, not_or]
      exact ⟨hdots, hq.no_dots⟩
    · rw [List.filter_append, hfilter, hq.filter_body] at hprefix
      obtain ⟨after, hafter⟩ := hprefix
      rcases List.append_eq_append_iff.1 hafter with ⟨left, hleft, -⟩ | ⟨later, rfl, hlater⟩
      · exact h.no_link before ⟨left, hleft.symm⟩ target
      · rw [Location.descend_append]
        exact hlink later ⟨after, hlater.symm⟩ target
  rcases Path.body_eq_before p with hbefore | hbefore
  · exact ⟨segments, rest, hjoin (hbefore.symm.trans h.body) h.around h.no_dots rfl, rfl⟩
  · -- an empty segment at the end gives way
    rcases List.eq_nil_or_concat rest with rfl | ⟨others, last, rfl⟩
    · rw [h.body, List.append_nil] at hbefore
      have haround := h.around
      rw [hbefore] at haround
      exact ⟨p.before, [], hjoin (List.append_nil _).symm (follow_cut (by simp) haround) (by simp) rfl, rfl⟩
    · rw [h.body, List.concat_eq_append, ← List.append_assoc] at hbefore
      obtain ⟨hothers, hlast⟩ := List.append_inj' hbefore rfl
      obtain rfl := List.singleton_inj.1 hlast
      have hfilter : others.filter matters = (others.concat "").filter matters := by
        rw [List.concat_eq_append, List.filter_append]
        exact (List.append_nil _).symm
      refine ⟨segments, others, hjoin hothers.symm h.around (fun hmem ↦ h.no_dots ?_) hfilter, hfilter⟩
      rw [List.concat_eq_append]
      exact List.mem_append_left _ hmem

/-- What goes down to a location in two ways does so from one folder. -/
theorem descend_eq {segments' names : List String} {base' : Location}
    (h : s.Heads p segments base (names ++ rest)) (h' : s.Heads p segments' base' rest)
    (hsegments : segments' = segments ++ names) : base' = base.descend (names.filter matters) := by
  have haround := h'.around
  rw [hsegments] at haround
  by_cases hne : names = []
  · subst hne
    rw [List.append_nil, h.around] at haround
    cases haround
    exact base.descend_nil.symm
  · obtain ⟨left, hleft⟩ := follow_append h.folder true h.around
    obtain ⟨pass, hpass⟩ := follow_eq_followWith s true left
    rw [hleft names hne, hpass] at haround
    refine location_of_followWith (fun hmem ↦ h.no_dots (List.mem_append_left _ hmem))
      (fun before hbefore ↦ h.no_link before ?_) haround
    rw [List.filter_append]
    exact hbefore.trans (List.prefix_append _ _)

/-- Making the folder that a path goes down to makes nothing else. -/
theorem find?_createFolder (h : s.Heads p segments base rest) (hne : rest ≠ [])
    (hmade : s.createFolder p = .ok s') (hx : x ≠ base.descend (rest.filter matters))
    (hfree : s.find? x = none) : s'.find? x = none := by
  rw [createFolder] at hmade
  split at hmade
  · cases hmade
  · cases hmade
  · rename_i folder name slash hdest
    cases hmade
    rw [← kind?_eq_none_iff, kind?_add, if_neg, kind?_eq_none_iff]
    · exact hfree
    · rintro rfl
      exact hx (h.location_eq hne hdest)

/-- Making the folders on the way of a path that goes down makes nothing else. -/
theorem find?_createThrough (h : s.Heads p segments base (names ++ rest)) (hs : s.WellFormed)
    (hnul : p.text.toList.contains '\x00' = false) (hshort : tooLong p = false)
    (hx : x ∉ (base.descend (names.filter matters)).around) (hfree : s.find? x = none) :
    (s.createThrough (Path.ancestorsOf p.isAbsolute (segments ++ names))).2.find? x = none := by
  -- by induction on the names from the last one, as the paths begin with the innermost folder
  induction names using List.reverseRecOn generalizing rest with
  | nil =>
    rw [List.append_nil, hs.createThrough_start h.body h.around h.folder hnul hshort]
    exact hfree
  | append_singleton names name ih =>
    have hheads : s.Heads p segments base (names ++ name :: rest) := by simpa using h
    have hthrough := ih hheads fun hmem ↦ hx <| by
      rw [List.filter_append, Location.descend_append]
      exact Location.mem_around_trans hmem (Location.mem_around.2 (List.prefix_append _ _))
    rw [← List.append_assoc]
    cases hmatters : matters name with
    | false =>
      by_cases hdot : segments ++ names = [] ∧ p.isAbsolute = false ∧ name = "."
      · -- the current folder needs not be made
        obtain ⟨hnil, hrelative, rfl⟩ := hdot
        have hkept : Path.dropEnd (!false) ([] ++ ["."]) = ["."] := rfl
        rw [hnil, hrelative, Path.ancestorsOf_of_dropEnd hkept (by simp),
          createThrough_of_hasFolder hs.current (l := s.current) rfl rfl]
        exact hfree
      · rw [Path.ancestorsOf_append_idle hmatters fun hnil hrelative ↦ ?_]
        · exact hthrough
        · by_contra hne
          exact hdot ⟨hnil, hrelative, by simpa [matters, hne] using hmatters⟩
    | true =>
      have hname := h.segmentName (by simp) hmatters
      have htake : s.Heads (.ofBody p.isAbsolute (segments ++ (names ++ [name]))) segments base
          (names ++ [name]) := h.take (by simp)
      have hother : x ≠ base.descend ((names ++ [name]).filter matters) := by
        rintro rfl
        exact hx (Location.self_mem_around _)
      rw [← List.append_assoc] at htake
      have hfurnishes := Furnishes.createThrough s (Path.ancestorsOf p.isAbsolute (segments ++ names))
      rw [Path.ancestorsOf_append_name hname]
      refine createThrough_cons_of (fun made ↦ made.find? x = none) hfree hthrough
        fun start made hstart hmade ↦ ?_
      obtain rfl | rfl := hstart
      · exact htake.find?_createFolder (by simp) hmade hother hfree
      · have hafter := htake.of_keepsWays hfurnishes.keeps.keepsWays fun _ _ ↦ hfurnishes.no_link
        exact hafter.find?_createFolder (by simp) hmade hother hthrough

end Heads

/-! ### The location that a path goes down to -/

namespace GoesDownTo

/-- There is one location only that a path goes down to. -/
theorem unique (h : s.GoesDownTo p l) (h' : s.GoesDownTo p x) : l = x := by
  obtain ⟨segments, base, rest, hheads, rfl⟩ := h
  obtain ⟨segments', base', rest', hheads', rfl⟩ := h'
  rcases List.append_eq_append_iff.1 (hheads.body.symm.trans hheads'.body) with
    ⟨names, hsegments, rfl⟩ | ⟨names, hsegments, rfl⟩
  · rw [hheads.descend_eq hheads' hsegments, List.filter_append, Location.descend_append]
  · rw [hheads'.descend_eq hheads hsegments, List.filter_append, Location.descend_append]

theorem ne_link (h : s.GoesDownTo p l) (target : String) : s.find? l ≠ some (.link target) := by
  obtain ⟨segments, base, rest, hheads, rfl⟩ := h
  exact hheads.no_link _ List.prefix_rfl target

/-- A path that goes down behind another goes down from where that one goes. -/
theorem join (h : s.GoesDownTo p l) (hq : q.Descends)
    (hlink : ∀ before, before <+: q.names → ∀ target, s.find? (l.descend before) ≠ some (.link target)) :
    s.GoesDownTo (p.join q) (l.descend q.names) := by
  obtain ⟨segments, base, rest, hheads, rfl⟩ := h
  obtain ⟨segments', rest', hjoin, hfilter⟩ := hheads.join hq hlink
  refine ⟨segments', base, rest' ++ q.body, hjoin, ?_⟩
  rw [List.filter_append, hfilter, hq.filter_body, Location.descend_append]

/-- A path that goes down behind another and ends with a name heads for that name. -/
theorem headsFor_join (h : s.GoesDownTo p l) (hq : q.Descends) (hbody : q.body = segments ++ [name])
    (hname : matters name = true)
    (hlink : ∀ before, before <+: q.names → ∀ target, s.find? (l.descend before) ≠ some (.link target)) :
    s.HeadsFor (p.join q) (l.descend q.names) := by
  obtain ⟨first, base, rest, hheads, rfl⟩ := h
  obtain ⟨first', rest', hjoin, hfilter⟩ := hheads.join hq hlink
  rw [hbody, ← List.append_assoc] at hjoin
  refine ⟨first', base, rest' ++ segments, name, hjoin, hname, ?_⟩
  rw [← hq.filter_body, hbody, List.filter_append, List.filter_append, List.filter_cons_of_pos hname, hfilter,
    Location.descend_append, Location.descend_append]
  rfl

end GoesDownTo

namespace HeadsFor

/-- A path that goes down to a location and ends with its name leads there, or nowhere. -/
theorem location_eq (h : s.HeadsFor p l) {dest : Destination} (hdest : s.resolve followLast p = .ok dest) :
    dest.location = l := by
  obtain ⟨segments, base, rest, name, hheads, hmatters, rfl⟩ := h
  rw [hheads.location_eq (by simp) hdest, List.filter_append, List.filter_cons_of_pos hmatters,
    Location.descend_append]
  rfl

theorem of_keepsWays (h : s.HeadsFor p l) (hkeeps : s.KeepsWays s')
    (hlink : ∀ x target, s'.find? x = some (.link target) → s.find? x = some (.link target)) :
    s'.HeadsFor p l := by
  obtain ⟨segments, base, rest, name, hheads, hname⟩ := h
  exact ⟨segments, base, rest, name, hheads.of_keepsWays hkeeps hlink, hname⟩

/-- A path that ends with a name does not end with a slash. -/
theorem body_ne (h : s.HeadsFor p l) (segments : List String) : p.body ≠ segments ++ [""] := by
  obtain ⟨first, base, rest, name, hheads, hmatters, rfl⟩ := h
  rw [hheads.body, ← List.append_assoc]
  intro heq
  obtain rfl := List.singleton_inj.1 (List.append_inj' heq rfl).2
  cases hmatters

theorem goesDownTo (h : s.HeadsFor p l) : s.GoesDownTo p l := by
  obtain ⟨segments, base, rest, name, hheads, hmatters, rfl⟩ := h
  refine ⟨segments, base, rest ++ [name], hheads, ?_⟩
  rw [List.filter_append, List.filter_cons_of_pos hmatters, Location.descend_append]
  rfl

/-- Making the folders around a location that a path heads for makes nothing else. -/
theorem find?_createFolders (h : s.HeadsFor p l) (hs : s.WellFormed)
    (hnul : p.text.toList.contains '\x00' = false) (hshort : tooLong p = false)
    (hx : x ∉ l.parent.around) (hfree : s.find? x = none) {folder : Path}
    (hfolder : p.parent? = some folder) :
    (s.createFolders folder).2.find? x = none := by
  obtain ⟨segments, base, rest, name, hheads, hmatters, rfl⟩ := h
  have hbody : p.body = (segments ++ rest) ++ [name] := by rw [hheads.body, List.append_assoc]
  have hname := hheads.segmentName (by simp) hmatters
  rw [Path.parent?_of_body hname hbody] at hfolder
  cases hfolder
  rw [createFolders, Path.ancestors_ofBody hbody]
  rw [Location.parent_child] at hx
  exact hheads.find?_createThrough hs hnul hshort hx hfree

end HeadsFor

/-! ### Going down to an empty folder -/

/-- A path goes down to a location below which there is nothing. -/
structure Deserted (s : FileStore) (p : Path) (l : Location) : Prop where
  /-- The path goes down to the location. -/
  goesDown : s.GoesDownTo p l
  /-- There is nothing in it. -/
  empty : ∀ name, s.find? (l.child name) = none

/-- An empty folder that a path leads to is deserted. -/
theorem deserted_of_hasFolder (hlead : s.resolve true p = .ok (.existing l)) (hfolder : s.HasFolder l)
    (hempty : ∀ name, s.find? (l.child name) = none) : s.Deserted p l := by
  have haround := lead_of_resolve hlead
  rw [lead] at haround
  split at haround
  · cases haround
  · split at haround
    · cases haround
    · refine ⟨⟨p.body, l, [], ⟨(List.append_nil _).symm, haround, hfolder, by simp, fun before hbefore ↦ ?_⟩,
        l.descend_nil.symm⟩, hempty⟩
      obtain rfl := List.prefix_nil.1 hbefore
      obtain ⟨time, hfind⟩ := hfolder
      intro target hlink
      rw [Location.descend_nil, hfind] at hlink
      cases hlink

namespace Deserted

theorem find?_descend (h : s.Deserted p l) (hs : s.WellFormed) (hne : names ≠ []) :
    s.find? (l.descend names) = none := by
  obtain ⟨name, others, rfl⟩ := List.exists_cons_of_ne_nil hne
  by_contra hsome
  have hchild : (s.find? (l.descend [name])).isSome :=
    hs.isSome_descend (Option.isSome_iff_ne_none.2 hsome)
  rw [show l.descend [name] = l.child name from rfl, h.empty] at hchild
  cases hchild

theorem no_link (h : s.Deserted p l) (hs : s.WellFormed) (names : List String) (target : String) :
    s.find? (l.descend names) ≠ some (.link target) := by
  by_cases hne : names = []
  · rw [hne, Location.descend_nil]
    exact h.goesDown.ne_link target
  · rw [h.find?_descend hs hne]
    exact nofun

end Deserted

end FileStore

end Rebuild
