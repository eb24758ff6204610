import Rebuild.Proofs.Session

/-!
# What a session does

Apart from printing, a computation of a session changes files and runs commands. `Does m s post` says
that on the files `s` the computation `m` comes to a result, files and commands of which `post` holds,
and that the commands have been run behind those that were run before. There is a rule for each way in
which computations are put together, so that what a computation does can be read off its text.
-/

namespace Rebuild.Session

variable {α β : Type} {s : FileStore} {post : α → FileStore → List CommandLine → Prop}

/-- The computation prints at most. -/
def Silent (m : StateM Session α) : Prop :=
  ∀ session, ∃ printed, (m.run session).2 = { session with printed }

/-- What the computation does on the files `s`. -/
def Does (m : StateM Session α) (s : FileStore) (post : α → FileStore → List CommandLine → Prop) :
    Prop :=
  ∀ session : Session, session.files = s → ∃ commands,
    (m.run session).2.ran = session.ran ++ commands ∧
    post (m.run session).1 (m.run session).2.files commands

/-! ### Printing -/

namespace Silent

theorem pure (x : α) : Silent (Pure.pure x) :=
  fun session ↦ ⟨session.printed, rfl⟩

theorem bind {m : StateM Session α} {f : α → StateM Session β} (hm : Silent m)
    (hf : ∀ x, Silent (f x)) : Silent (m >>= f) := by
  intro session
  obtain ⟨printed, hprinted⟩ := hm session
  obtain ⟨printed', hprinted'⟩ := hf (m.run session).1 (m.run session).2
  refine ⟨printed', ?_⟩
  rw [run_bind, hprinted', hprinted]

theorem print (text : String) : Silent (Session.print text) :=
  fun _ ↦ ⟨_, rfl⟩

theorem styled (style : Text.Style) (text : String) : Silent (Session.styled style text) :=
  fun session ↦ ⟨session.printed, rfl⟩

theorem printMarked (mark : String) (colour : Text.Colour) (text : String) :
    Silent (Session.printMarked mark colour text) :=
  fun _ ↦ ⟨_, rfl⟩

theorem printHint (output : String) : Silent (Job.diagnostics.printHint output) :=
  fun session ↦ ⟨_, run_printHint output session⟩

theorem forM_diagnostics (showWarnings : Bool) (jobs : List Job) :
    Silent (jobs.forM (Job.diagnostics showWarnings)) :=
  fun session ↦ ⟨_, run_forM_diagnostics showWarnings jobs session⟩

end Silent

/-! ### Doing -/

namespace Does

theorem imp {m : StateM Session α} {post' : α → FileStore → List CommandLine → Prop}
    (h : Does m s post) (himp : ∀ x s' commands, post x s' commands → post' x s' commands) :
    Does m s post' := by
  intro session hfiles
  obtain ⟨commands, hran, hpost⟩ := h session hfiles
  exact ⟨commands, hran, himp _ _ _ hpost⟩

theorem pure {x : α} (h : post x s []) : Does (Pure.pure x) s post := by
  rintro session rfl
  exact ⟨[], (List.append_nil _).symm, h⟩

theorem bind {m : StateM Session β} {f : β → StateM Session α}
    (h : Does m s fun x s' commands ↦
      Does (f x) s' fun y s'' commands' ↦ post y s'' (commands ++ commands')) :
    Does (m >>= f) s post := by
  intro session hfiles
  obtain ⟨commands, hran, hrest⟩ := h session hfiles
  obtain ⟨commands', hran', hpost⟩ := hrest _ rfl
  exact ⟨commands ++ commands', by rw [run_bind, hran', hran, List.append_assoc], hpost⟩

/-- What only prints may come first. -/
theorem silent {m : StateM Session β} {f : β → StateM Session α} (hm : Silent m)
    (hf : ∀ x, Does (f x) s post) : Does (m >>= f) s post := by
  rintro session hfiles
  obtain ⟨printed, hprinted⟩ := hm session
  obtain ⟨commands, hran, hpost⟩ := hf (m.run session).1 (m.run session).2 (by rw [hprinted, hfiles])
  exact ⟨commands, by rw [run_bind, hran, hprinted], hpost⟩

/-- What only prints may come first, or not. -/
theorem silent_if {c : Prop} [Decidable c] {m : StateM Session Unit}
    {k : Unit → StateM Session α} (hm : Silent m) (hk : Does (k ()) s post) :
    Does (if c then m >>= k else k ()) s post := by
  split
  · exact silent hm fun _ ↦ hk
  · exact hk

/-- The files may be read. -/
theorem read {k : Session → StateM Session α}
    (hk : ∀ session, session.files = s → Does (k session) s post) : Does (get >>= k) s post :=
  fun session hfiles ↦ hk session hfiles session hfiles

theorem execute {executor : Executor} {command : CommandLine}
    {post : Outcome → FileStore → List CommandLine → Prop}
    (h : post ((executor command).run s).1 ((executor command).run s).2 [command]) :
    Does (Session.execute executor command) s post := by
  rintro session rfl
  exact ⟨[command], rfl, h⟩

theorem createFolders {p : Path}
    {post : Except FileError Unit → FileStore → List CommandLine → Prop}
    (h : post (s.createFolders p).1 (s.createFolders p).2 []) :
    Does (Session.createFolders p) s post := by
  rintro session rfl
  exact ⟨[], (List.append_nil _).symm, h⟩

theorem change {operation : FileStore → Except FileError FileStore}
    {post : Except FileError Unit → FileStore → List CommandLine → Prop}
    (h : match operation s with
      | .ok s' => post (.ok ()) s' []
      | .error e => post (.error e) s []) :
    Does (Session.change operation) s post := by
  rintro session rfl
  refine ⟨[], ?_, ?_⟩ <;> rw [run_change] <;> cases hdone : operation session.files
  · exact (List.append_nil _).symm
  · exact (List.append_nil _).symm
  · rwa [hdone] at h
  · rwa [hdone] at h

end Does

end Rebuild.Session
