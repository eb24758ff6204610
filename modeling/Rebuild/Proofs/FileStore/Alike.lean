import Rebuild.Proofs.FileStore.Entries
import Rebuild.Proofs.FileStore.Follow

/-!
# Stores that paths cannot tell apart

Where a path leads depends on the *kinds* of the entries alone: whether there is a file, a folder, or
a link and to what. Two stores with the same kinds are *alike*: every path leads to the same place in
both, and operations on files come to the same result and leave alike stores behind. A store in which
all kinds of another are *kept*, and perhaps more has come, still leads every path to what it led to.
-/

namespace Rebuild

/-- What paths can see of an entry. -/
inductive Entry.Kind where
  /-- A file. -/
  | file
  /-- A folder. -/
  | folder
  /-- A link and what it stands for. -/
  | link (target : String)
deriving DecidableEq, Repr

/-- What paths can see of an entry. -/
def Entry.kind : Entry → Entry.Kind
  | .file .. => .file
  | .folder _ => .folder
  | .link target => .link target

namespace FileStore

variable {s s' a b : FileStore} {l x here : Location} {e : Entry} {p : Path}
variable {segment name : String}

/-- What paths can see at a location. -/
def kind? (s : FileStore) (l : Location) : Option Entry.Kind :=
  (s.find? l).map Entry.kind

theorem hasFolder_iff_kind? : s.HasFolder l ↔ s.kind? l = some .folder := by
  rw [HasFolder, kind?]
  rcases s.find? l with - | e
  · simp
  · cases e <;> simp [Entry.kind]

theorem kind?_eq_none_iff : s.kind? l = none ↔ s.find? l = none := by
  rw [kind?, Option.map_eq_none_iff]

theorem kind?_eq_link_iff {target : String} :
    s.kind? l = some (.link target) ↔ s.find? l = some (.link target) := by
  rw [kind?]
  rcases s.find? l with - | e
  · simp
  · cases e <;> simp [Entry.kind]

theorem kind?_put : (s.put l e).kind? x = if x = l then some e.kind else s.kind? x := by
  rw [kind?, find?_put, kind?]
  split <;> rfl

theorem kind?_erase : (s.erase l).kind? x = if x = l then none else s.kind? x := by
  rw [kind?, find?_erase, kind?]
  split <;> rfl

theorem kind?_touchFolder : (s.touchFolder l).kind? x = s.kind? x := by
  rcases find?_touchFolder s l x with h | ⟨-, hfolder, htouched⟩
  · rw [kind?, h, kind?]
  · rw [hasFolder_iff_kind?.1 hfolder, hasFolder_iff_kind?.1 htouched]

theorem kind?_add :
    (s.add l name e).kind? x = if x = l.child name then some e.kind else s.kind? x := by
  have htick : (s.add l name e).kind? x = ((s.touchFolder l).put (l.child name) e).kind? x := rfl
  rw [htick, kind?_put, kind?_touchFolder]

/-- What a segment leads to is seen from the kind of what it names. -/
theorem pace_eq_kind? (s : FileStore) (here : Location) (segment : String) :
    s.pace here segment =
      if segment = "" ∨ segment = "." then .folder here
      else if segment = ".." then .folder here.parent
      else if maxNameLength < Text.byteLength segment.toList then .nowhere
      else
        match s.kind? (here.child segment) with
        | none => .free
        | some .file => .file
        | some .folder => .folder (here.child segment)
        | some (.link target) => .link target := by
  rw [pace, kind?]
  rcases s.find? (here.child segment) with - | e
  · rfl
  · cases e <;> rfl

/-! ### Kept kinds -/

/-- Whatever there is in the one store is in the other as well, and is of the same kind. -/
structure Keeps (s s' : FileStore) : Prop where
  /-- Relative paths begin in the same folder. -/
  current : s'.current = s.current
  /-- Kinds are kept. -/
  kind : ∀ l kind, s.kind? l = some kind → s'.kind? l = some kind

namespace Keeps

theorem refl (s : FileStore) : s.Keeps s :=
  ⟨rfl, fun _ _ h ↦ h⟩

theorem trans {s'' : FileStore} (h : s.Keeps s') (h' : s'.Keeps s'') : s.Keeps s'' :=
  ⟨h'.current.trans h.current, fun l kind hl ↦ h'.kind l kind (h.kind l kind hl)⟩

theorem hasFolder (h : s.Keeps s') (hl : s.HasFolder l) : s'.HasFolder l :=
  hasFolder_iff_kind?.2 (h.kind l _ (hasFolder_iff_kind?.1 hl))

/-- What is not free leads to the same. -/
theorem pace_eq (h : s.Keeps s') (hfree : s.pace here segment ≠ .free) :
    s'.pace here segment = s.pace here segment := by
  rw [pace_eq_kind?] at hfree
  rw [pace_eq_kind?, pace_eq_kind?]
  cases hkind : s.kind? (here.child segment) with
  | some kind => rw [h.kind _ _ hkind]
  | none =>
    -- only a segment that names nothing can lead somewhere although nothing is there
    rw [hkind] at hfree
    split
    · rfl
    split
    · rfl
    split
    · rfl
    simp_all

/-- What following leads to is still where it leads to. -/
theorem followWith_eq (h : s.Keeps s')
    {pass pass' : Location → List String → Except FileError Destination}
    (hpass : ∀ there others, pass there others = .ok (.existing l) →
      pass' there others = .ok (.existing l))
    {followLast : Bool} {segments : List String}
    (hl : s.followWith followLast pass here segments = .ok (.existing l)) :
    s'.followWith followLast pass' here segments = .ok (.existing l) := by
  replace hl := followed_of_followWith hl
  generalize hdest : Destination.existing l = dest at hl
  induction hl with
  | done => rfl
  | folder hpace _ ih =>
    rw [followWith_cons, h.pace_eq (by simp [hpace]), hpace]
    exact ih hdest
  | free => cases hdest
  | file hpace hend =>
    exact followWith_eq_ok_iff.2 (.file (by rw [h.pace_eq (by simp [hpace]), hpace]) hend)
  | stop hpace hend hlast =>
    exact followWith_eq_ok_iff.2 (.stop (by rw [h.pace_eq (by simp [hpace]), hpace]) hend hlast)
  | link hpace hmore hpassed =>
    subst hdest
    exact followWith_eq_ok_iff.2
      (.link (by rw [h.pace_eq (by simp [hpace]), hpace]) hmore (hpass _ _ hpassed))

theorem follow_eq (h : s.Keeps s') {followLast : Bool} {links : Nat} {segments : List String}
    (hl : s.follow followLast links here segments = .ok (.existing l)) :
    s'.follow followLast links here segments = .ok (.existing l) := by
  induction links generalizing here segments with
  | zero => exact h.followWith_eq (fun _ _ h ↦ by cases h) hl
  | succ links ih => exact h.followWith_eq (fun _ _ ↦ ih) hl

theorem lead_eq (h : s.Keeps s') {followLast : Bool}
    (hl : s.lead followLast p = .ok (.existing l)) :
    s'.lead followLast p = .ok (.existing l) := by
  rw [lead] at hl ⊢
  split
  · rw [if_pos ‹_›] at hl
    cases hl
  rw [if_neg ‹_›] at hl
  split
  · rw [if_pos ‹_›] at hl
    cases hl
  rw [if_neg ‹_›] at hl
  rw [h.current]
  exact h.follow_eq hl

end Keeps

/-! ### Equal kinds -/

/-- Two operations on files come to the same end, and if that is a good one they leave related
stores behind. -/
inductive Agree (r : FileStore → FileStore → Prop) :
    Except FileError FileStore → Except FileError FileStore → Prop where
  /-- Both fail in the same way. -/
  | error (e : FileError) : Agree r (.error e) (.error e)
  /-- Both succeed. -/
  | ok {a b : FileStore} (h : r a b) : Agree r (.ok a) (.ok b)

/-- Paths cannot tell the stores apart. -/
structure Alike (a b : FileStore) : Prop where
  /-- Relative paths begin in the same folder. -/
  current : a.current = b.current
  /-- Kinds are the same. -/
  kind : ∀ l, a.kind? l = b.kind? l

namespace Alike

theorem symm (h : a.Alike b) : b.Alike a :=
  ⟨h.current.symm, fun l ↦ (h.kind l).symm⟩

theorem hasFolder_iff (h : a.Alike b) : a.HasFolder l ↔ b.HasFolder l := by
  rw [hasFolder_iff_kind?, hasFolder_iff_kind?, h.kind]

theorem follow_eq (h : a.Alike b) (followLast : Bool) (links : Nat) :
    a.follow followLast links = b.follow followLast links := by
  have hwith (pass : Location → List String → Except FileError Destination) :
      a.followWith followLast pass = b.followWith followLast pass := by
    funext here segments
    induction segments generalizing here with
    | nil => rfl
    | cons segment rest ih =>
      rw [followWith_cons, followWith_cons, pace_eq_kind?, pace_eq_kind?, h.kind]
      simp only [ih]
  induction links with
  | zero => exact hwith _
  | succ links ih => exact (congrArg _ ih).trans (hwith _)

theorem lead_eq (h : a.Alike b) (followLast : Bool) (p : Path) :
    a.lead followLast p = b.lead followLast p := by
  rw [lead, lead, h.current, h.follow_eq]

theorem resolve_eq (h : a.Alike b) (followLast : Bool) (p : Path) :
    a.resolve followLast p = b.resolve followLast p := by
  rw [resolve, resolve, h.lead_eq]

/-- What is at a location in alike stores. -/
theorem find?_cases (h : a.Alike b) (l : Location) :
    (a.find? l = none ∧ b.find? l = none) ∨
      ∃ e e', a.find? l = some e ∧ b.find? l = some e' ∧ e.kind = e'.kind := by
  have hkind := h.kind l
  cases ha : a.find? l with
  | none =>
    rw [kind?_eq_none_iff.2 ha] at hkind
    exact Or.inl ⟨rfl, kind?_eq_none_iff.1 hkind.symm⟩
  | some e =>
    rw [kind?, ha] at hkind
    obtain ⟨e', hb, he⟩ := Option.map_eq_some_iff.1 hkind.symm
    exact Or.inr ⟨e, e', rfl, hb, he.symm⟩

theorem locate_cases (h : a.Alike b) (followLast : Bool) (p : Path) :
    (∃ error, a.locate followLast p = .error error ∧ b.locate followLast p = .error error) ∨
      ∃ l e e', a.locate followLast p = .ok (l, e) ∧ b.locate followLast p = .ok (l, e') ∧
        e.kind = e'.kind := by
  rw [locate, locate, h.resolve_eq]
  cases b.resolve followLast p with
  | error error => exact Or.inl ⟨error, rfl, rfl⟩
  | ok dest =>
    cases dest with
    | vacant => exact Or.inl ⟨.notFound, rfl, rfl⟩
    | existing l =>
      have hbind (s : FileStore) : (Except.ok (.existing l) >>= s.arrive) = s.arrive (.existing l) :=
        rfl
      rw [hbind, hbind, arrive, arrive]
      rcases h.find?_cases l with ⟨ha, hb⟩ | ⟨e, e', ha, hb, hkind⟩ <;> rw [ha, hb]
      · exact Or.inl ⟨.notFound, rfl, rfl⟩
      · exact Or.inr ⟨l, e, e', rfl, rfl, hkind⟩

theorem isFolder_eq (h : a.Alike b) (p : Path) : a.isFolder p = b.isFolder p := by
  rw [isFolder, isFolder, stat, stat]
  rcases h.locate_cases true p with ⟨error, ha, hb⟩ | ⟨l, e, e', ha, hb, hkind⟩
  · rw [ha, hb]
  · rw [ha, hb]
    show e.isFolder = e'.isFolder
    cases e <;> cases e' <;> first | rfl | cases hkind

theorem pathExists_eq (h : a.Alike b) (p : Path) : a.pathExists p = b.pathExists p := by
  rw [pathExists, pathExists, stat, stat]
  rcases h.locate_cases true p with ⟨error, ha, hb⟩ | ⟨l, e, e', ha, hb, -⟩
  · rw [ha, hb]
  · rw [ha, hb]
    rfl

/-- The time of the last change is the same where the entries are. -/
theorem modified?_eq (h : a.Alike b)
    (hfind : ∀ l, a.resolve true p = .ok (.existing l) → a.find? l = b.find? l) :
    a.modified? p = b.modified? p := by
  have hresolve := h.resolve_eq true p
  rw [modified?, modified?, stat, stat, locate, locate, ← hresolve]
  cases hdest : a.resolve true p with
  | error e => rfl
  | ok dest =>
    cases dest with
    | vacant => rfl
    | existing l =>
      have harrive : a.arrive (.existing l) = b.arrive (.existing l) := by
        rw [arrive, arrive, hfind l hdest]
      exact congrArg (fun found ↦ ((found.map (·.2)).toOption.bind Entry.modified?)) harrive

/-! ### Operations on alike stores -/

theorem add (h : a.Alike b) (l : Location) (name : String) {e e' : Entry} (he : e.kind = e'.kind) :
    (a.add l name e).Alike (b.add l name e') := by
  refine ⟨by rw [current_add, current_add, h.current], fun x ↦ ?_⟩
  rw [kind?_add, kind?_add, h.kind, he]

theorem createFolder (h : a.Alike b) (p : Path) :
    Agree Alike (a.createFolder p) (b.createFolder p) := by
  rw [FileStore.createFolder, FileStore.createFolder, h.resolve_eq]
  cases b.resolve false p with
  | error e => exact .error e
  | ok dest =>
    cases dest with
    | existing => exact .error _
    | vacant folder name => exact .ok (h.add folder name rfl)

theorem createThrough (h : a.Alike b) (paths : List Path) :
    (a.createThrough paths).1 = (b.createThrough paths).1 ∧
      (a.createThrough paths).2.Alike (b.createThrough paths).2 := by
  induction paths with
  | nil => exact ⟨rfl, h⟩
  | cons p around ih =>
    rw [FileStore.createThrough, FileStore.createThrough]
    split
    · exact ⟨rfl, h⟩
    obtain ⟨hresult, hmade⟩ := ih
    have hfirst := h.createFolder p
    generalize a.createFolder p = first, b.createFolder p = first' at hfirst
    cases hfirst with
    | ok hmade => exact ⟨rfl, hmade⟩
    | error e =>
      have hhere : (if a.isFolder p then Except.ok () else .error e) =
          if b.isFolder p then Except.ok () else .error e := by rw [h.isFolder_eq]
      cases e <;> try exact ⟨hhere, h⟩
      -- the folders around are made first
      simp only
      generalize a.createThrough around = made, b.createThrough around = made' at hresult hmade
      obtain ⟨result, made⟩ := made
      obtain ⟨result', made'⟩ := made'
      obtain rfl : result = result' := hresult
      have hmade : made.Alike made' := hmade
      cases result with
      | error e => exact ⟨rfl, hmade⟩
      | ok =>
        have hsecond := hmade.createFolder p
        simp only
        generalize made.createFolder p = second, made'.createFolder p = second' at hsecond
        cases hsecond with
        | ok hall => exact ⟨rfl, hall⟩
        | error e => exact ⟨by simp only [hmade.isFolder_eq], hmade⟩

theorem writeBytes (h : a.Alike b) (p : Path) (content : ByteArray) (executable : Bool) :
    Agree Alike (a.writeBytes p content executable) (b.writeBytes p content executable) := by
  rw [FileStore.writeBytes, FileStore.writeBytes, h.resolve_eq]
  cases b.resolve true p with
  | error e => exact .error e
  | ok dest =>
    cases dest with
    | vacant folder name slash =>
      cases slash with
      | true => exact .error _
      | false => exact .ok (h.add folder name rfl)
    | existing l =>
      simp only
      rcases h.find?_cases l with ⟨ha, hb⟩ | ⟨e, e', ha, hb, hkind⟩ <;> rw [ha, hb]
      · exact .error _
      · cases e <;> cases e' <;> try first | exact .error _ | cases hkind
        refine .ok ⟨h.current, fun x ↦ ?_⟩
        show (a.put l _).kind? x = (b.put l _).kind? x
        rw [kind?_put, kind?_put, h.kind]
        rfl

theorem removeFile (h : a.Alike b) (p : Path) : Agree Alike (a.removeFile p) (b.removeFile p) := by
  rw [FileStore.removeFile, FileStore.removeFile]
  rcases h.locate_cases false p with ⟨error, ha, hb⟩ | ⟨l, e, e', ha, hb, hkind⟩ <;> rw [ha, hb]
  · exact .error _
  · have hrest : (((a.touchFolder l.parent).erase l).tick).Alike
        (((b.touchFolder l.parent).erase l).tick) := by
      refine ⟨by simp [h.current], fun x ↦ ?_⟩
      show ((a.touchFolder l.parent).erase l).kind? x = ((b.touchFolder l.parent).erase l).kind? x
      rw [kind?_erase, kind?_erase, kind?_touchFolder, kind?_touchFolder, h.kind]
    cases e <;> cases e' <;> first | exact .error _ | exact .ok hrest | cases hkind

end Alike

end FileStore

end Rebuild
