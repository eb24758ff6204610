import Rebuild.Project.Build
import Rebuild.Proofs.FileStore.Alike

/-!
# What a session shows

Two sessions *show* the same if the same has been printed in both and further text will look the
same. A computation is *uniform* if it comes to the same result in sessions that show the same and
whose files are related, shows the same there, and leaves the files related.
-/

namespace Rebuild.Session

variable {r r' r'' : FileStore → FileStore → Prop} {α β : Type}

/-- The same has been printed in both sessions, and their files are related. -/
structure Shows (r : FileStore → FileStore → Prop) (a b : Session) : Prop where
  /-- The files are related. -/
  files : r a.files b.files
  /-- Text looks the same. -/
  coloured : a.coloured = b.coloured
  /-- The same has been printed. -/
  printed : a.printed = b.printed

/-- The computation cannot tell sessions apart that show the same and whose files are related by
`r`, and relates their files by `r'`. It takes back nothing that has been printed. -/
structure Uniform (r r' : FileStore → FileStore → Prop) (m : StateM Session α) : Prop where
  /-- It comes to the same result and shows the same. -/
  same : ∀ a b : Session, a.Shows r b → (m.run a).1 = (m.run b).1 ∧ (m.run a).2.Shows r' (m.run b).2
  /-- What has been printed stays. -/
  adds : ∀ session : Session, session.printed <+: (m.run session).2.printed

theorem run_bind (m : StateM Session α) (f : α → StateM Session β) (session : Session) :
    (m >>= f).run session = (f (m.run session).1).run (m.run session).2 :=
  rfl

theorem run_change (operation : FileStore → Except FileError FileStore) (session : Session) :
    (change operation).run session =
      match operation session.files with
      | .ok files => (.ok (), { session with files })
      | .error e => (.error e, session) :=
  rfl

namespace Uniform

/-! ### Putting computations together -/

theorem pure (x : α) : Uniform r r (Pure.pure x) :=
  ⟨fun _ _ h ↦ ⟨rfl, h⟩, fun _ ↦ List.prefix_rfl⟩

theorem bind {m : StateM Session α} {f : α → StateM Session β} (hm : Uniform r r' m)
    (hf : ∀ x, Uniform r' r'' (f x)) : Uniform r r'' (m >>= f) := by
  constructor
  case same =>
    intro a b h
    obtain ⟨hresult, hafter⟩ := hm.same a b h
    rw [run_bind, run_bind, hresult]
    exact (hf (m.run b).1).same _ _ hafter
  case adds => exact fun session ↦ (hm.adds session).trans ((hf _).adds _)

/-- Something may come before, or not. -/
theorem bind_if {c : Prop} [Decidable c] {m : StateM Session Unit}
    {k : Unit → StateM Session β} (hm : Uniform r r m) (hk : Uniform r r' (k ())) :
    Uniform r r' (if c then m >>= k else k ()) := by
  split
  · exact bind hm fun _ ↦ hk
  · exact hk

/-- Files that are not related any more. -/
theorem weaken {m : StateM Session α} (hm : Uniform r r' m) (h : ∀ a b, r' a b → r'' a b) :
    Uniform r r'' m := by
  refine ⟨fun a b hab ↦ ?_, hm.adds⟩
  obtain ⟨hresult, hafter⟩ := hm.same a b hab
  exact ⟨hresult, h _ _ hafter.files, hafter.coloured, hafter.printed⟩

/-- Files that are related more closely. -/
theorem strengthen {m : StateM Session α} (hm : Uniform r' r'' m) (h : ∀ a b, r a b → r' a b) :
    Uniform r r'' m :=
  ⟨fun a b hab ↦ hm.same a b ⟨h _ _ hab.files, hab.coloured, hab.printed⟩, hm.adds⟩

/-- What is read from related files may be used if it is the same. -/
theorem read (g : FileStore → α) (k : α → StateM Session β) (hg : ∀ a b, r a b → g a = g b)
    (hk : ∀ x, Uniform r r' (k x)) :
    Uniform r r' (get >>= fun session : Session ↦ k (g session.files)) := by
  refine ⟨fun a b h ↦ ?_, fun session ↦ (hk _).adds session⟩
  show ((k (g a.files)).run a).1 = ((k (g b.files)).run b).1 ∧
    ((k (g a.files)).run a).2.Shows r' ((k (g b.files)).run b).2
  rw [hg a.files b.files h.files]
  exact (hk _).same a b h

theorem forM {f : β → StateM Session Unit} (hf : ∀ x, Uniform r r (f x)) (xs : List β) :
    Uniform r r (xs.forM f) := by
  induction xs with
  | nil => exact pure ()
  | cons x xs ih => exact bind (hf x) fun _ ↦ ih

/-! ### Printing -/

theorem print (s : String) : Uniform r r (Session.print s) :=
  ⟨fun _ _ h ↦ ⟨rfl, h.files, h.coloured, congrArg (· ++ [Printed.text s]) h.printed⟩,
    fun _ ↦ List.prefix_append _ _⟩

theorem printLine (s : String) : Uniform r r (Session.printLine s) :=
  print _

/-- How text looks may be used. -/
theorem look (k : Bool → StateM Session β) (hk : ∀ coloured, Uniform r r' (k coloured)) :
    Uniform r r' (get >>= fun session : Session ↦ k session.coloured) := by
  refine ⟨fun a b h ↦ ?_, fun session ↦ (hk _).adds session⟩
  show ((k a.coloured).run a).1 = ((k b.coloured).run b).1 ∧
    ((k a.coloured).run a).2.Shows r' ((k b.coloured).run b).2
  rw [h.coloured]
  exact (hk _).same a b h

theorem styled (style : Text.Style) (s : String) : Uniform r r (Session.styled style s) :=
  look (fun coloured ↦ Pure.pure (style.apply coloured s)) fun _ ↦ pure _

theorem printMarked (mark : String) (colour : Text.Colour) (s : String) :
    Uniform r r (Session.printMarked mark colour s) :=
  bind (styled _ _) fun _ ↦ printLine _

theorem printElapsed : Uniform r r (modify fun session : Session ↦
    { session with printed := session.printed ++ [.elapsed, .text "\n"] }) :=
  ⟨fun _ _ h ↦ ⟨rfl, h.files, h.coloured, congrArg (· ++ [Printed.elapsed, .text "\n"]) h.printed⟩,
    fun _ ↦ List.prefix_append _ _⟩

/-! ### Acting on files -/

/-- Running a command whose answer does not depend on the files. -/
theorem execute {executor : Executor} {command : CommandLine} {answer : Outcome}
    (h : ∀ s, ((executor command).run s).1 = answer) :
    Uniform r (fun _ _ ↦ True) (Session.execute executor command) := by
  refine ⟨fun a b hab ↦ ⟨?_, trivial, hab.coloured, hab.printed⟩, fun _ ↦ List.prefix_rfl⟩
  show ((executor command).run a.files).1 = ((executor command).run b.files).1
  rw [h, h]

/-- Operations that agree on related files. -/
theorem change {operation : FileStore → Except FileError FileStore}
    (h : ∀ a b, r a b → FileStore.Agree r (operation a) (operation b)) :
    Uniform r r (Session.change operation) := by
  constructor
  case same =>
    intro a b hab
    have hagree := h _ _ hab.files
    rw [run_change, run_change]
    generalize operation a.files = done, operation b.files = done' at hagree
    cases hagree with
    | error e => exact ⟨rfl, hab⟩
    | ok hfiles => exact ⟨rfl, hfiles, hab.coloured, hab.printed⟩
  case adds =>
    intro session
    rw [run_change]
    cases operation session.files with
    | error e => exact List.prefix_rfl
    | ok files => exact List.prefix_rfl

theorem createFolders (p : Path) :
    Uniform FileStore.Alike FileStore.Alike (Session.createFolders p) := by
  refine ⟨fun a b h ↦ ?_, fun _ ↦ List.prefix_rfl⟩
  obtain ⟨hresult, hmade⟩ := h.files.createThrough p.ancestors
  exact ⟨hresult, hmade, h.coloured, h.printed⟩

/-! ### Parts of a build -/

theorem printHint (output : String) : Uniform r r (Job.diagnostics.printHint output) := by
  rw [Job.diagnostics.printHint]
  cases Hint.ofOutput? output with
  | none => exact pure ()
  | some hint =>
    exact look (fun coloured ↦ Session.printNote (hint.message coloured)) fun _ ↦ printMarked ..

theorem diagnostics (showWarnings : Bool) (job : Job) :
    Uniform r r (job.diagnostics showWarnings) := by
  rw [Job.diagnostics]
  cases job.phase.completion? with
  | none => exact pure ()
  | some done =>
    simp only
    split
    · split
      · exact printMarked ..
      · exact pure ()
    · exact bind (styled ..) fun _ ↦ bind (printMarked ..) fun _ ↦ printHint _

theorem finish {executor : Executor} {answer : CommandLine → Outcome} (project : Project)
    (options : BuildOptions) (h : ∀ command s, ((executor command).run s).1 = answer command) :
    Uniform r (fun _ _ ↦ True) (project.finish options executor) := by
  unfold Project.finish
  refine bind_if (printLine _) (bind (styled ..) fun _ ↦ bind (printLine _) fun _ ↦
    bind (execute (h _)) fun outcome ↦ ?_)
  split
  · exact pure _
  · exact bind (printLine _) fun _ ↦ bind (printHint _) fun _ ↦ bind (printMarked ..) fun _ ↦
      pure _

theorem makeArtifactFolder (project : Project) :
    Uniform FileStore.Alike FileStore.Alike project.makeArtifactFolder := by
  unfold Project.makeArtifactFolder
  simp only
  split
  · refine bind (createFolders _) fun made ↦ ?_
    split
    · exact pure _
    · exact pure _
  · exact pure _

theorem clearLibrary (project : Project) (present : Bool) :
    Uniform FileStore.Alike FileStore.Alike (project.clearLibrary present) := by
  unfold Project.clearLibrary
  simp only
  split
  · refine bind (change fun a b hab ↦ hab.removeFile _) fun cleared ↦ ?_
    split
    · exact pure _
    · exact pure _
  · exact pure _

section Build

variable {executor : Executor} {answer : CommandLine → Outcome} {project : Project}
variable {options : BuildOptions}

theorem link (h : ∀ command s, ((executor command).run s).1 = answer command) :
    Uniform FileStore.Alike (fun _ _ ↦ True) (project.link options executor) := by
  have hfinish : Uniform FileStore.Alike (fun _ _ ↦ True) (project.finish options executor) :=
    finish project options h
  unfold Project.link
  refine bind (makeArtifactFolder project) fun made ↦ ?_
  split
  · exact (pure _).weaken fun _ _ _ ↦ trivial
  · refine read (fun files ↦ files.pathExists project.artifact) _ (fun a b hab ↦ hab.pathExists_eq _)
      fun present ↦ bind (clearLibrary project present) fun cleared ↦ ?_
    split
    · exact (pure _).weaken fun _ _ _ ↦ trivial
    · exact hfinish

theorem relink (summary : BuildSummary) (needed : Bool)
    (h : ∀ command s, ((executor command).run s).1 = answer command) :
    Uniform FileStore.Alike (fun _ _ ↦ True)
      (project.relink options executor summary needed) := by
  unfold Project.relink
  split
  · refine bind_if (printMarked ..) ?_
    exact (pure _).weaken fun _ _ _ ↦ trivial
  · refine bind (link h) fun linked ↦ ?_
    split
    · exact pure _
    · exact bind (styled ..) fun _ ↦ bind (print _) fun _ ↦ bind printElapsed fun _ ↦ pure _

theorem complete {report : Report} (tasks : List Task)
    (h : ∀ command s, ((executor command).run s).1 = answer command)
    (halike : ∀ a b, r a b → a.Alike b)
    (hdatabase : ∀ a b, r a b → FileStore.Agree r (project.writeDatabase a options.debug)
      (project.writeDatabase b options.debug))
    (hneeds : ∀ a b, r a b → project.needsLinking a report options.forceLinking =
      project.needsLinking b report options.forceLinking) :
    Uniform r (fun _ _ ↦ True) (project.complete options executor tasks report) := by
  have hrelink : Uniform r (fun _ _ ↦ True) (get >>= fun session : Session ↦
      project.relink options executor { status := report.status, compiled := tasks.length }
        (project.needsLinking session.files report options.forceLinking)) :=
    read (fun files ↦ project.needsLinking files report options.forceLinking) _ hneeds
      fun needed ↦ (relink _ needed h).strengthen halike
  unfold Project.complete
  split
  · exact (pure _).weaken fun _ _ _ ↦ trivial
  split
  · exact bind (change hdatabase) fun _ ↦ hrelink
  · exact hrelink

theorem conclude {tasks : List Task} {report : Report} (jobs : List Job)
    (h : Uniform r r' (project.complete options executor tasks report)) :
    Uniform r r' (project.conclude options executor tasks jobs report) := by
  unfold Project.conclude
  exact bind_if (printMarked ..) (bind (forM (fun job ↦ diagnostics _ job) _) fun _ ↦ h)

end Build

end Uniform

/-! ### What diagnostics print -/

/-- What is printed about a task that has ended. -/
def diagnosed (coloured showWarnings : Bool) (job : Job) : List Printed :=
  ((job.diagnostics showWarnings).run { coloured }).2.printed

theorem eq_append_nil (session : Session) :
    session = { session with printed := session.printed ++ [] } := by
  rw [List.append_nil]

theorem run_printHint (output : String) (session : Session) :
    ((Job.diagnostics.printHint output).run session).2 =
      { session with printed := session.printed ++
          ((Job.diagnostics.printHint output).run { coloured := session.coloured }).2.printed } := by
  rw [Job.diagnostics.printHint]
  cases Hint.ofOutput? output with
  | none => exact eq_append_nil session
  | some hint => rfl

/-- Diagnostics add what they print, and do nothing else. -/
theorem run_diagnostics (showWarnings : Bool) (job : Job) (session : Session) :
    ((job.diagnostics showWarnings).run session).2 = { session with
      printed := session.printed ++ diagnosed session.coloured showWarnings job } := by
  rw [diagnosed, Job.diagnostics]
  cases job.phase.completion? with
  | none => exact eq_append_nil session
  | some done =>
    simp only
    split
    · split
      · rfl
      · exact eq_append_nil session
    · -- the hint comes behind the line that says what has failed
      let line := Printed.text (Text.Style.apply (.inColour .red) session.coloured "x" ++ " " ++
        (Text.Style.apply .strong session.coloured job.task.label ++ ":\n" ++ done.output) ++ "\n")
      show ((Job.diagnostics.printHint done.output).run
          { session with printed := session.printed ++ [line] }).2 =
        { session with printed := session.printed ++ ((Job.diagnostics.printHint done.output).run
          { coloured := session.coloured, printed := [line] }).2.printed }
      rw [run_printHint, run_printHint _ { coloured := session.coloured, printed := [line] }]
      simp

theorem run_forM_diagnostics (showWarnings : Bool) (jobs : List Job) (session : Session) :
    ((jobs.forM (Job.diagnostics showWarnings)).run session).2 = { session with
      printed := session.printed ++ jobs.flatMap (diagnosed session.coloured showWarnings) } := by
  induction jobs generalizing session with
  | nil => exact eq_append_nil session
  | cons job jobs ih =>
    show ((job.diagnostics showWarnings >>= fun _ ↦
      jobs.forM (Job.diagnostics showWarnings)).run session).2 = _
    rw [run_bind, ih, run_diagnostics, List.flatMap_cons]
    simp

/-- Whatever a build does behind diagnostics, it takes nothing back. -/
theorem printed_complete {executor : Executor} {answer : CommandLine → Outcome} (project : Project)
    (options : BuildOptions) (tasks : List Task) (report : Report)
    (h : ∀ command s, ((executor command).run s).1 = answer command) (session : Session) :
    session.printed <+: ((project.complete options executor tasks report).run session).2.printed := by
  have huniform : Uniform (· = ·) (fun _ _ ↦ True)
      (project.complete options executor tasks report) := by
    refine Uniform.complete tasks h ?_ ?_ ?_
    · rintro a _ rfl
      exact ⟨rfl, fun _ ↦ rfl⟩
    · rintro a _ rfl
      cases project.writeDatabase a options.debug with
      | error e => exact .error e
      | ok files => exact .ok rfl
    · rintro a _ rfl
      rfl
  exact huniform.adds session

/-- A build prints the diagnostics of all tasks, one after the other. -/
theorem exists_printed_conclude {executor : Executor} {answer : CommandLine → Outcome}
    (project : Project) (options : BuildOptions) (tasks : List Task) (jobs : List Job)
    (report : Report) (h : ∀ command s, ((executor command).run s).1 = answer command)
    (session : Session) :
    ∃ earlier later, ((project.conclude options executor tasks jobs report).run session).2.printed =
      earlier ++ jobs.flatMap (diagnosed session.coloured options.showWarnings) ++ later := by
  have hrest (session' : Session) (hcoloured : session'.coloured = session.coloured) :
      ∃ earlier later, ((jobs.forM (Job.diagnostics options.showWarnings) >>= fun _ ↦
          project.complete options executor tasks report).run session').2.printed =
        earlier ++ jobs.flatMap (diagnosed session.coloured options.showWarnings) ++ later := by
    rw [run_bind, run_forM_diagnostics, hcoloured]
    obtain ⟨later, hlater⟩ := printed_complete project options tasks report h { session' with
      coloured := session.coloured
      printed := session'.printed ++
        jobs.flatMap (diagnosed session.coloured options.showWarnings) }
    exact ⟨_, later, hlater.symm⟩
  unfold Project.conclude
  split
  · exact hrest ((printFailed "Compilation failed").run session).2 rfl
  · exact hrest session rfl

end Rebuild.Session
