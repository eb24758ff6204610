import Rebuild.Proofs.Schedule.Invariant
import Rebuild.Proofs.Schedule.Report

/-!
# What a pool guarantees

The invariant of the reachable states says three things about any run. The slots are accounted for
and never exceeded. Nothing is ever stuck: as long as the run is not over, some party can make a
step, and a dispatcher that sleeps while a slot is free is about to be woken. And a run that is over
has executed every task once and recorded every completion once.

What the outside of a pool has come to is what executing the tasks one after the other, in the order
of the history, would have made of it (`Reaches.in_turn`). That is what makes runs comparable.
-/

namespace Rebuild.Pool

variable {σ : Type} {execute : Task → StateM σ Completion} {tasks : List Task} {budget : Nat}
variable {history : History} {pool pool' : Pool} {before outside outside' : σ} {event : Event}

/-! ### One after the other -/

/-- Executes some of the tasks one after the other, in the given order. -/
def inTurn (execute : Task → StateM σ Completion) (tasks : List Task) (order : List Nat) :
    StateM σ (List Completion) :=
  (order.filterMap (tasks[·]?)).mapM execute

theorem inTurn_append_singleton {order : List Nat} {i : Nat} {task : Task}
    (htask : tasks[i]? = some task) {dones : List Completion} {outside : σ}
    (h : (inTurn execute tasks order).run before = (dones, outside)) :
    (inTurn execute tasks (order ++ [i])).run before =
      (dones ++ [((execute task).run outside).1], ((execute task).run outside).2) := by
  have hi : [i].filterMap (tasks[·]?) = [task] := by simp [htask]
  rw [inTurn, List.filterMap_append, hi, List.mapM_append, StateT.run_bind, ← inTurn, h]
  rfl

/-- What a run has done to the outside, and what has become of its tasks, is what executing the
tasks in turn does. -/
theorem Reaches.in_turn (h : Reaches execute tasks budget before history pool outside) :
    (inTurn execute tasks history.executed).run before =
      (history.executed.filterMap pool.completion?, outside) := by
  induction h with
  | start => rfl
  | wake _ ih => exact ih
  | @step history pool pool' outside outside' event h hstep ih =>
    cases step?_eq_some_iff.1 hstep with
    | hand hnext hawake hfree =>
      rw [after_of_hand hnext hfree, (moves_hand hnext).completion?_eq rfl]
      exact ih
    | sleep _ _ hfull =>
      rw [after_of_sleep hfull]
      exact ih
    | @execute i task hjob =>
      have hsound := h.sound
      have hmove := moves_execute hjob ((execute task).run outside).1
      have htask : tasks[i]? = some task := by
        rw [← hsound.tasks, List.getElem?_map, hjob]
        rfl
      have hold : history.executed.filterMap
          (pool.setPhase i (.executed ((execute task).run outside).1)).completion? =
          history.executed.filterMap pool.completion? := by
        refine List.filterMap_congr fun j hj ↦ ?_
        have hne : i ≠ j := by
          rintro rfl
          exact hsound.executed.not_mem_of_phase? hmove.phase rfl hj
        rw [completion?, completion?, hmove.phase?_of_ne hne]
      have hnew : completion? (pool.setPhase i (.executed ((execute task).run outside).1)) i =
          some ((execute task).run outside).1 := by
        rw [completion?, hmove.phase?_self]
        rfl
      show (inTurn execute tasks (history.executed ++ [i])).run before = _
      rw [inTurn_append_singleton htask ih]
      show _ = ((history.executed ++ [i]).filterMap _, _)
      rw [List.filterMap_append, hold]
      simp [hnew]
    | release hphase => rw [(moves_release hphase).completion?_eq rfl]; exact ih
    | notify hphase => rw [(moves_notify hphase).completion?_eq rfl]; exact ih
    | send hphase => rw [(moves_send hphase).completion?_eq rfl]; exact ih
    | @receive i channel done hchannel hphase =>
      rw [after_of_receive hchannel, (moves_receive hphase channel).completion?_eq rfl]
      exact ih
    | close => exact ih

/-! ### Progress -/

/-- An event is possible if and only if something follows it. -/
theorem possible_iff : pool.possible event = (pool.step? execute outside event).isSome := by
  cases event with
  | dispatch =>
    simp only [possible, step?]
    cases pool.next? <;> cases pool.asleep <;> simp
    split <;> rfl
  | execute i =>
    simp only [possible, step?]
    split
    · exact decide_eq_true (phase?_of_getElem? ‹_›)
    · rename_i hnot
      refine decide_eq_false fun hphase ↦ ?_
      obtain ⟨⟨task, phase⟩, hjob, rfl⟩ := Option.map_eq_some_iff.1 hphase
      exact hnot task hjob
  | release i | notify i | send i =>
    simp only [possible, step?]
    rcases pool.phase? i with - | phase
    · rfl
    · cases phase <;> rfl
  | receive =>
    simp only [possible, step?]
    rcases pool.channel with - | ⟨i, channel⟩
    · rfl
    · simp only [List.head?_cons, Option.bind_some]
      rcases pool.phase? i with - | phase
      · rfl
      · cases phase <;> rfl
  | close =>
    simp only [possible, step?]
    split <;> simp_all

/-- A dispatcher that sleeps while a slot is free is about to be woken. -/
theorem Sound.notify_of_asleep (h : Sound tasks budget history pool) (hasleep : pool.asleep = true)
    (hfree : pool.taken < pool.budget) : ∃ i, pool.possible (.notify i) = true := by
  obtain ⟨-, hfull | ⟨i, done, hi⟩⟩ := h.asleep hasleep
  · omega
  · exact ⟨i, by rw [possible, hi]; rfl⟩

/-- A worker that holds a slot can make a step. -/
theorem exists_possible_of_holdsSlot {i : Nat} {phase : Phase} (hphase : pool.phase? i = some phase)
    (hholds : phase.holdsSlot = true) : ∃ event, pool.possible event = true := by
  cases phase with
  | running => exact ⟨.execute i, decide_eq_true hphase⟩
  | executed done => exact ⟨.release i, by rw [possible, hphase]; rfl⟩
  | _ => cases hholds

/-- As long as there is a task to hand out, something can happen. -/
theorem Sound.exists_possible_of_next? (h : Sound tasks budget history pool)
    (hnext : pool.next?.isSome = true) : ∃ event, pool.possible event = true := by
  cases hasleep : pool.asleep with
  | false => exact ⟨.dispatch, by rw [possible, hnext, hasleep]; rfl⟩
  | true =>
    obtain ⟨-, hfull | ⟨i, done, hi⟩⟩ := h.asleep hasleep
    · -- the budget is at least one, so that somebody holds a slot
      have hpos : 0 < pool.holders := by
        rw [← h.taken, hfull, h.budget]
        omega
      obtain ⟨i, phase, hphase, hholds⟩ := exists_of_holders_pos hpos
      exact exists_possible_of_holdsSlot hphase hholds
    · exact ⟨.notify i, by rw [possible, hi]; rfl⟩

/-- As long as a run is not over, something can happen. -/
theorem Sound.exists_possible (h : Sound tasks budget history pool) (hover : pool.isOver = false) :
    ∃ event, pool.possible event = true := by
  by_cases hall : ∀ job ∈ pool.jobs, job.phase.isSent
  · cases hclosed : pool.closed with
    | false =>
      refine ⟨.close, ?_⟩
      rw [possible, hclosed, List.all_eq_true.2 hall]
      rfl
    | true =>
      rcases hchannel : pool.channel with - | ⟨i, channel⟩
      · rw [isOver, hclosed, hchannel] at hover
        cases hover
      · obtain ⟨phase, hphase, hkind⟩ :=
          h.channel.exists_phase? (i := i) (by rw [hchannel]; exact List.mem_cons_self)
        refine ⟨.receive, ?_⟩
        rw [possible, hchannel, List.head?_cons, Option.bind_some, hphase]
        cases phase <;> first | rfl | cases hkind
  · simp only [not_forall] at hall
    obtain ⟨job, hjob, hsent⟩ := hall
    obtain ⟨i, hi⟩ := List.getElem?_of_mem hjob
    have hphase : pool.phase? i = some job.phase := by rw [phase?, hi]; rfl
    cases hp : job.phase <;> rw [hp] at hphase hsent
    case waiting => exact h.exists_possible_of_next? (next?_isSome_iff.2 ⟨i, hphase⟩)
    case running => exact exists_possible_of_holdsSlot hphase rfl
    case executed => exact exists_possible_of_holdsSlot hphase rfl
    case released => exact ⟨.notify i, by rw [possible, hphase]; rfl⟩
    case notified => exact ⟨.send i, by rw [possible, hphase]; rfl⟩
    case sent => exact absurd rfl hsent
    case collected => exact absurd rfl hsent

/-! ### The end -/

/-- When a run is over, every completion has been recorded. -/
theorem Sound.collected_of_over (h : Sound tasks budget history pool) (hover : pool.isOver = true)
    {i : Nat} (hi : i < tasks.length) : ∃ done, pool.phase? i = some (.collected done) := by
  rw [isOver, Bool.and_eq_true, List.isEmpty_iff] at hover
  obtain ⟨hclosed, hempty⟩ := hover
  rw [← h.tasks, List.length_map] at hi
  have hphase : pool.phase? i = some pool.jobs[i].phase := by
    rw [phase?, List.getElem?_eq_getElem hi]
    rfl
  have hsent := h.closed hclosed _ (List.getElem_mem hi)
  cases hp : pool.jobs[i].phase <;> rw [hp] at hphase hsent
  case sent done =>
    have hmem := h.channel.mem_of_phase? hphase rfl
    rw [hempty] at hmem
    cases hmem
  case collected done => exact ⟨done, hphase⟩
  all_goals cases hsent

/-- A list that names the tasks of a kind names all tasks if all are of the kind. -/
theorem Names.perm_range {kind : Phase → Bool} {places : List Nat}
    (h : pool.Names kind places) (hall : ∀ i < pool.jobs.length, (pool.phase? i).any kind) :
    places.Perm (List.range pool.jobs.length) := by
  rw [List.perm_ext_iff_of_nodup h.nodup List.nodup_range]
  intro i
  rw [List.mem_range]
  exact ⟨h.lt_length, fun hi ↦ (h.mem_iff i).2 (hall i hi)⟩

theorem Sound.length_jobs (h : Sound tasks budget history pool) :
    pool.jobs.length = tasks.length := by
  rw [← h.tasks, List.length_map]

/-- What has become of the tasks when a run is over. -/
structure Finished (execute : Task → StateM σ Completion) (tasks : List Task) (before : σ)
    (history : History) (pool : Pool) (outside : σ) : Prop where
  /-- The tasks are those that were given, in their order. -/
  given : pool.jobs.map Job.task = tasks
  /-- Every task has come to its end. -/
  collected : ∀ i < tasks.length, ∃ done, pool.phase? i = some (.collected done)
  /-- Every task has been executed once. -/
  executed : history.executed.Perm (List.range tasks.length)
  /-- Every completion has been recorded once. -/
  recorded : history.recorded.Perm (List.range tasks.length)
  /-- Completions are what executing the tasks gave. -/
  answers : (inTurn execute tasks history.executed).run before =
    (history.executed.filterMap pool.completion?, outside)
  /-- The report sums the completions up. -/
  report : pool.report =
    Report.ofCompletions ((List.range tasks.length).filterMap pool.completion?)
  /-- It counts as many of them as there are tasks. -/
  counted : pool.report.succeeded + pool.report.failed = tasks.length
  /-- All slots are free. -/
  taken : pool.taken = 0

theorem Reaches.finished (h : Reaches execute tasks budget before history pool outside)
    (hover : pool.isOver = true) : Finished execute tasks before history pool outside := by
  have hsound := h.sound
  have hcollected {i : Nat} (hi : i < tasks.length) := hsound.collected_of_over hover hi
  have hall (kind : Phase → Bool) (hkind : ∀ done, kind (.collected done) = true) :
      ∀ i < pool.jobs.length, (pool.phase? i).any kind := by
    intro i hi
    obtain ⟨done, hdone⟩ := hcollected (hsound.length_jobs ▸ hi)
    rw [hdone]
    exact hkind done
  have hexecuted := hsound.executed.perm_range (hall _ fun _ ↦ rfl)
  have hrecorded := hsound.recorded.perm_range (hall _ fun _ ↦ rfl)
  rw [hsound.length_jobs] at hexecuted hrecorded
  have hreport : pool.report =
      Report.ofCompletions ((List.range tasks.length).filterMap pool.completion?) := by
    rw [hsound.report, Report.foldl_record_perm (hrecorded.filterMap _), Report.foldl_record_eq]
  refine ⟨hsound.tasks, fun i ↦ hcollected, hexecuted, hrecorded, h.in_turn, hreport, ?_, ?_⟩
  · rw [hreport, Report.succeeded_add_failed, List.length_filterMap_eq_countP,
      List.countP_eq_length.2, List.length_range]
    intro i hi
    obtain ⟨done, hdone⟩ := hcollected (List.mem_range.1 hi)
    rw [completion?, hdone]
    rfl
  · rw [hsound.taken]
    by_contra hne
    obtain ⟨i, phase, hphase, hholds⟩ := exists_of_holders_pos (Nat.pos_of_ne_zero hne)
    obtain ⟨done, hdone⟩ := hcollected (hsound.length_jobs ▸ lt_length_of_phase? hphase)
    obtain rfl := Option.some.inj (hdone.symm.trans hphase)
    cases hholds

/-! ### The guarantee -/

/-- What is guaranteed of a state that a run has come to, and of how it came to it. -/
structure Guaranteed (execute : Task → StateM σ Completion) (tasks : List Task) (budget : Nat)
    (before : σ) (history : History) (pool : Pool) (outside : σ) : Prop where
  /-- The counter is the number of tasks that have a slot and have not given it back. -/
  taken : pool.taken = pool.jobs.countP (·.phase.holdsSlot)
  /-- The budget is not exceeded, and has never been. -/
  within : pool.taken ≤ max budget 1 ∧ pool.peak ≤ max budget 1
  /-- The counter is not zero when a slot is given back. -/
  no_underflow : ∀ i, pool.possible (.release i) = true → 0 < pool.taken
  /-- Tasks are handed out in order, each at most once. -/
  handed : history.handed <+: List.range tasks.length
  /-- A task waits until it has been handed out. -/
  waiting : ∀ i < tasks.length, pool.phase? i = some .waiting ↔ i ∉ history.handed
  /-- No task is executed twice. -/
  executed : history.executed.Nodup
  /-- No completion is recorded twice. -/
  recorded : history.recorded.Nodup
  /-- With a budget of one, no two tasks are on their way at once, and they are executed in
  order. -/
  serial : budget ≤ 1 → pool.jobs.countP (·.phase.holdsSlot) ≤ 1 ∧
    history.executed <+: List.range tasks.length
  /-- A run that is not over can go on. -/
  progress : pool.isOver = false → ∃ event, (pool.step? execute outside event).isSome
  /-- A dispatcher that sleeps while a slot is free is about to be woken. -/
  woken : pool.asleep = true → pool.taken < max budget 1 →
    ∃ i, (pool.step? execute outside (.notify i)).isSome
  /-- A run that is over has done everything. -/
  finished : pool.isOver = true → Finished execute tasks before history pool outside

/-- The first numbers, if they are places of tasks, are the first places of tasks. -/
theorem prefix_range {places : List Nat} {n : Nat} (heq : places = List.range places.length)
    (hlt : ∀ i ∈ places, i < n) : places <+: List.range n := by
  have hle : places.length ≤ n := by
    by_contra hgt
    refine absurd (hlt n ?_) (Nat.lt_irrefl n)
    rw [heq, List.mem_range]
    omega
  rw [heq, ← Nat.add_sub_cancel' hle, List.range_add]
  exact List.prefix_append _ _

/-- In every reachable state, whatever order of steps has led to it, a pool keeps its guarantee. -/
theorem guaranteed_of_reaches (h : Reaches execute tasks budget before history pool outside) :
    Guaranteed execute tasks budget before history pool outside := by
  have hsound := h.sound
  have hbudget := hsound.budget
  constructor
  case taken => exact hsound.taken
  case within => exact ⟨hbudget ▸ hsound.taken_le, hbudget ▸ hsound.peak_le⟩
  case no_underflow =>
    intro i hi
    rw [possible] at hi
    obtain ⟨phase, hphase, hdone⟩ := (Option.any_eq_true ..).1 hi
    rw [hsound.taken]
    refine holders_pos hphase ?_
    cases phase <;> first | rfl | cases hdone
  case handed =>
    refine prefix_range hsound.handed_eq fun i hi ↦ ?_
    exact hsound.length_jobs ▸ hsound.handed.lt_length hi
  case waiting =>
    intro i hi
    have hjob : i < pool.jobs.length := hsound.length_jobs ▸ hi
    rw [hsound.handed.mem_iff, phase?, List.getElem?_eq_getElem hjob]
    cases hp : pool.jobs[i].phase <;> simp [hp, handedOut]
  case executed => exact hsound.executed.nodup
  case recorded => exact hsound.recorded.nodup
  case serial =>
    intro hone
    have hone : max budget 1 = 1 := Nat.max_eq_right hone
    refine ⟨?_, prefix_range (h.serial hone).executed_eq fun i hi ↦ ?_⟩
    · show pool.holders ≤ 1
      rw [← hsound.taken, ← hone, ← hbudget]
      exact hsound.taken_le
    · exact hsound.length_jobs ▸ hsound.executed.lt_length hi
  case progress =>
    intro hover
    obtain ⟨event, hevent⟩ := hsound.exists_possible hover
    exact ⟨event, possible_iff ▸ hevent⟩
  case woken =>
    intro hasleep hfree
    obtain ⟨i, hi⟩ := hsound.notify_of_asleep hasleep (hbudget ▸ hfree)
    exact ⟨i, possible_iff ▸ hi⟩
  case finished => exact h.finished

/-- Two tasks and one slot: the dispatcher sleeps although the slot has been given back. -/
theorem guaranteed_of_asleep :
    let execute : Task → StateM Nat Completion := fun task time ↦
      ({ succeeded := true, output := task.label, objectTime := some time }, time + 1)
    let tasks : List Task :=
      [{ source := ⟨"a.c"⟩, label := "a", object := ⟨"a.o"⟩, command := ⟨"cc", ["a.c"]⟩ },
        { source := ⟨"b.c"⟩, label := "b", object := ⟨"b.o"⟩, command := ⟨"cc", ["b.c"]⟩ }]
    ∃ history pool outside, Reaches execute tasks 0 7 history pool outside ∧
      pool.asleep = true ∧ pool.taken = 0 ∧
      Guaranteed execute tasks 0 7 history pool outside := by
  intro execute tasks
  have hstart : Reaches execute tasks 0 7 {} (ofTasks tasks 0) 7 := .start
  have hhanded := hstart.step (show step? execute _ 7 .dispatch = some (_, _) from rfl)
  have hasleep := hhanded.step (show step? execute _ 7 .dispatch = some (_, _) from rfl)
  have hexecuted := hasleep.step (show step? execute _ 7 (.execute 0) = some (_, _) from rfl)
  have hreleased := hexecuted.step (show step? execute _ 8 (.release 0) = some (_, _) from rfl)
  exact ⟨_, _, _, hreleased, rfl, rfl, guaranteed_of_reaches hreleased⟩

/-! ### Runs -/

/-- A run by choices is a run. -/
theorem Reaches.runFrom (choices : Nat → Nat) (steps : Nat)
    (h : Reaches execute tasks budget before history pool outside) :
    ∃ history', Reaches execute tasks budget before history'
      (Pool.runFrom execute choices steps pool outside).1
      (Pool.runFrom execute choices steps pool outside).2 := by
  fun_induction Pool.runFrom execute choices steps pool outside generalizing history with
  | case1 => exact ⟨history, h⟩
  | case2 => exact ⟨history, h⟩
  | case3 =>
    rename_i hnext ih
    exact ih (h.step hnext)

theorem mem_events_of_possible (h : pool.possible event = true) : event ∈ pool.events := by
  have hworker {i : Nat} (hi : (pool.phase? i).isSome = true)
      (hevent : event ∈ [.execute i, .release i, .notify i, .send i]) : event ∈ pool.events := by
    obtain ⟨phase, hphase⟩ := Option.isSome_iff_exists.1 hi
    rw [events, List.cons_append, List.mem_cons, List.mem_append, List.mem_flatMap]
    exact Or.inr (Or.inl ⟨i, List.mem_range.2 (lt_length_of_phase? hphase), hevent⟩)
  cases event with
  | dispatch => exact List.mem_cons_self
  | execute i => exact hworker (by rw [of_decide_eq_true h]; rfl) (by simp)
  | release i => exact hworker (Option.isSome_of_any h) (by simp)
  | notify i => exact hworker (Option.isSome_of_any h) (by simp)
  | send i => exact hworker (Option.isSome_of_any h) (by simp)
  | receive => simp [events]
  | close => simp [events]

/-- A run by choices ends only when it is over. -/
theorem Reaches.over_runFrom (choices : Nat → Nat) (steps : Nat)
    (h : Reaches execute tasks budget before history pool outside) :
    (Pool.runFrom execute choices steps pool outside).1.isOver = true := by
  fun_induction Pool.runFrom execute choices steps pool outside generalizing history with
  | case1 steps pool outside hnone =>
    by_contra hover
    obtain ⟨event, hevent⟩ := h.sound.exists_possible (Bool.eq_false_iff.2 hover)
    have hmem := List.mem_filter.2 ⟨mem_events_of_possible hevent, hevent⟩
    rw [hnone] at hmem
    cases hmem
  | case2 =>
    rename_i pool outside first rest hsome event hnext
    have hmem : event ∈ pool.events.filter pool.possible := by
      rw [hsome]
      exact List.get_mem ..
    rw [List.mem_filter, possible_iff, hnext] at hmem
    cases hmem.2
  | case3 =>
    rename_i hnext ih
    exact ih (h.step hnext)

/-- Every run by choices comes to its end, with everything done, and in order if no two tasks can be on
their way at once. -/
theorem finished_run (execute : Task → StateM σ Completion) (choices : Nat → Nat)
    (tasks : List Task) (budget : Nat) (before : σ) :
    ∃ history, Finished execute tasks before history
      ((run execute choices tasks budget).run before).1
      ((run execute choices tasks budget).run before).2 ∧
      (budget ≤ 1 → history.executed = List.range tasks.length) := by
  have hstart : Reaches execute tasks budget before {} (ofTasks tasks budget) before := .start
  obtain ⟨history, hreach⟩ := hstart.runFrom choices 0
  have hfinished := hreach.finished (hstart.over_runFrom choices 0)
  refine ⟨history, hfinished, fun hone ↦ ?_⟩
  have hlength : history.executed.length = tasks.length := by
    rw [hfinished.executed.length_eq, List.length_range]
  rw [(hreach.serial (Nat.max_eq_right hone)).executed_eq, hlength]

end Rebuild.Pool
