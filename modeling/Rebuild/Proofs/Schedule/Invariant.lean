import Mathlib.Data.List.Perm.Basic
import Rebuild.Proofs.Schedule.Reach

/-!
# What holds in every reachable state

`Sound` relates a state of a pool to the history that led to it. Every step keeps it, so that it
holds in every reachable state. The proof goes by the kinds of steps, and for most facts it only
matters which phases a step moves a task between.

With a budget of one more is true: `Serial` says that a task holds a slot only if it is the last one
handed out, so that tasks are executed in the order in which they stand.
-/

namespace Rebuild.Pool

variable {σ : Type} {execute : Task → StateM σ Completion} {tasks : List Task} {budget : Nat}
variable {history : History} {pool pool' : Pool} {before outside outside' : σ} {event : Event}

/-- Whether a task with this phase has been handed out. -/
def handedOut : Phase → Bool
  | .waiting => false
  | _ => true

/-- What the state of a pool owes to its history. -/
structure Sound (tasks : List Task) (budget : Nat) (history : History) (pool : Pool) : Prop where
  /-- The tasks stay the same. -/
  tasks : pool.jobs.map Job.task = tasks
  /-- The budget stays the same. -/
  budget : pool.budget = max budget 1
  /-- The counter counts the tasks that hold a slot. -/
  taken : pool.taken = pool.holders
  /-- The budget is not exceeded. -/
  taken_le : pool.taken ≤ pool.budget
  /-- It never was. -/
  peak_le : pool.peak ≤ pool.budget
  /-- The tasks that have been handed out. -/
  handed : pool.Names handedOut history.handed
  /-- They are the first tasks, in order. -/
  handed_eq : history.handed = List.range history.handed.length
  /-- The tasks that have been executed. -/
  executed : pool.Names (·.completion?.isSome) history.executed
  /-- The tasks whose completions have been recorded. -/
  recorded : pool.Names Phase.isRecorded history.recorded
  /-- The tasks whose completions are in the channel. -/
  channel : pool.Names Phase.inChannel pool.channel
  /-- The report is made of the recorded completions. -/
  report : pool.report = (history.recorded.filterMap pool.completion?).foldl Report.record {}
  /-- A sleeping dispatcher has a task to hand out, and it waits for a slot or is about to be
  woken. -/
  asleep : pool.asleep = true → pool.next?.isSome ∧
    (pool.taken = pool.budget ∨ ∃ i done, pool.phase? i = some (.released done))
  /-- When the channel is closed, nothing more comes. -/
  closed : pool.closed = true → ∀ job ∈ pool.jobs, job.phase.isSent

/-! ### The next task -/

theorem next?_isSome_iff : pool.next?.isSome ↔ ∃ i, pool.phase? i = some .waiting := by
  rw [next?, List.findIdx?_isSome, List.any_eq_true]
  constructor
  · rintro ⟨job, hjob, hphase⟩
    obtain ⟨i, hi⟩ := List.getElem?_of_mem hjob
    refine ⟨i, ?_⟩
    rw [phase?, hi, Option.map_some, of_decide_eq_true hphase]
  · rintro ⟨i, hi⟩
    obtain ⟨job, hjob, hphase⟩ := Option.map_eq_some_iff.1 hi
    exact ⟨job, List.mem_of_getElem? hjob, decide_eq_true hphase⟩

/-- The next task is the one after those that have been handed out. -/
theorem Sound.next_eq (h : Sound tasks budget history pool) {i : Nat}
    (hnext : pool.next? = some i) : i = history.handed.length := by
  obtain ⟨hlt, hphase, hfirst⟩ := List.findIdx?_eq_some_iff_getElem.1 hnext
  have hnot : i ∉ history.handed := h.handed.not_mem_of_phase? (phase?_of_next? hnext) rfl
  rw [h.handed_eq, List.mem_range, Nat.not_lt] at hnot
  refine Nat.le_antisymm (Nat.le_of_not_lt fun hgt ↦ ?_) hnot
  -- the task at that place would have been handed out, since it comes before the first waiting one
  have hwaiting := hfirst _ hgt
  have hmem : history.handed.length ∈ history.handed := by
    have hjob : history.handed.length < pool.jobs.length := Nat.lt_trans hgt hlt
    rw [h.handed.mem_iff, phase?, List.getElem?_eq_getElem hjob]
    cases hp : pool.jobs[history.handed.length].phase <;> simp_all [handedOut]
  rw [h.handed_eq, List.length_range, List.mem_range] at hmem
  exact absurd hmem (Nat.lt_irrefl _)

/-! ### The moves that steps make -/

section Moves

variable {i : Nat} {done : Completion}

theorem moves_hand (h : pool.next? = some i) :
    Moves pool { pool.setPhase i .running with
      taken := pool.taken + 1, peak := max pool.peak (pool.taken + 1) } i .waiting .running :=
  ⟨phase?_of_next? h, rfl⟩

theorem moves_execute {task : Task} (h : pool.jobs[i]? = some { task, phase := .running })
    (done : Completion) :
    Moves pool (pool.setPhase i (.executed done)) i .running (.executed done) :=
  ⟨phase?_of_getElem? h, rfl⟩

theorem moves_release (h : pool.phase? i = some (.executed done)) :
    Moves pool { pool.setPhase i (.released done) with taken := pool.taken - 1 } i
      (.executed done) (.released done) :=
  ⟨h, rfl⟩

theorem moves_notify (h : pool.phase? i = some (.released done)) :
    Moves pool { pool.setPhase i (.notified done) with asleep := false } i
      (.released done) (.notified done) :=
  ⟨h, rfl⟩

theorem moves_send (h : pool.phase? i = some (.notified done)) :
    Moves pool { pool.setPhase i (.sent done) with channel := pool.channel ++ [i] } i
      (.notified done) (.sent done) :=
  ⟨h, rfl⟩

theorem moves_receive (h : pool.phase? i = some (.sent done)) (channel : List Nat) :
    Moves pool { pool.setPhase i (.collected done) with
      channel, report := pool.report.record done } i (.sent done) (.collected done) :=
  ⟨h, rfl⟩

end Moves

/-! ### What a step does to a history -/

theorem after_of_hand {i : Nat} (hnext : pool.next? = some i) (hfree : pool.taken < pool.budget) :
    history.after pool .dispatch = { history with handed := history.handed ++ [i] } := by
  simp [History.after, hfree, hnext]

theorem after_of_sleep (hfull : pool.budget ≤ pool.taken) :
    history.after pool .dispatch = history := by
  simp [History.after, Nat.not_lt.2 hfull]

theorem after_of_receive {i : Nat} {channel : List Nat} (hchannel : pool.channel = i :: channel) :
    history.after pool .receive = { history with recorded := history.recorded ++ [i] } := by
  simp [History.after, hchannel]

/-! ### One step -/

/-- The start is sound. -/
theorem sound_ofTasks (tasks : List Task) (budget : Nat) :
    Sound tasks budget {} (ofTasks tasks budget) := by
  have hphase (i : Nat) (kind : Phase → Bool) (hkind : kind .waiting = false) :
      ((ofTasks tasks budget).phase? i).any kind = false := by
    simp only [phase?, ofTasks, List.getElem?_map]
    cases tasks[i]? <;> simp [hkind]
  have hnames (kind : Phase → Bool) (hkind : kind .waiting = false) :
      (ofTasks tasks budget).Names kind [] :=
    ⟨List.nodup_nil, fun i ↦ by rw [hphase i kind hkind]; simp⟩
  constructor
  case tasks => simp [ofTasks, Function.comp_def]
  case taken =>
    show 0 = List.countP _ (tasks.map _)
    rw [List.countP_map, eq_comm, List.countP_eq_zero]
    intro task _
    simp [Phase.holdsSlot]
  case handed => exact hnames _ rfl
  case executed => exact hnames _ rfl
  case recorded => exact hnames _ rfl
  case channel => exact hnames _ rfl
  case asleep => intro h; cases h
  case closed => intro h; cases h
  all_goals simp [ofTasks]

/-- What a sleeping dispatcher knows survives a move that takes no task back and wakes nobody. -/
theorem asleep_of_moves {i : Nat} {before after : Phase}
    (h : pool.asleep = true → pool.next?.isSome ∧
      (pool.taken = pool.budget ∨ ∃ i done, pool.phase? i = some (.released done)))
    (hmove : Moves pool pool' i before after) (hbefore : before ≠ .waiting)
    (hreleased : ∀ done, before ≠ .released done)
    (htaken : pool'.taken = pool.taken ∨ ∃ done, after = .released done)
    (hbudget : pool'.budget = pool.budget) (hasleep : pool'.asleep = pool.asleep) :
    pool'.asleep = true → pool'.next?.isSome ∧
      (pool'.taken = pool'.budget ∨ ∃ i done, pool'.phase? i = some (.released done)) := by
  intro hsleeping
  obtain ⟨hnext, hwait⟩ := h (hasleep ▸ hsleeping)
  have hkeep {j : Nat} {phase : Phase} (hj : pool.phase? j = some phase) (hne : before ≠ phase) :
      pool'.phase? j = some phase := by
    rw [hmove.phase?_of_ne, hj]
    rintro rfl
    exact hne (Option.some.inj (hmove.phase.symm.trans hj))
  constructor
  · rw [next?_isSome_iff] at hnext ⊢
    obtain ⟨j, hj⟩ := hnext
    exact ⟨j, hkeep hj hbefore⟩
  · rcases htaken with htaken | ⟨done, rfl⟩
    · rcases hwait with hfull | ⟨j, done, hj⟩
      · exact Or.inl (by rw [htaken, hbudget, hfull])
      · exact Or.inr ⟨j, done, hkeep hj (hreleased done)⟩
    · exact Or.inr ⟨i, done, hmove.phase?_self⟩

/-- A channel that is closed stays out of reach for a move to a phase before sending. -/
theorem closed_of_moves {i : Nat} {before after : Phase}
    (h : pool.closed = true → ∀ job ∈ pool.jobs, job.phase.isSent)
    (hmove : Moves pool pool' i before after) (hsent : before.isSent = true → after.isSent = true)
    (hclosed : pool'.closed = pool.closed) :
    pool'.closed = true → ∀ job ∈ pool'.jobs, job.phase.isSent := by
  intro hshut job hjob
  have hall := h (hclosed ▸ hshut)
  obtain ⟨j, hj⟩ := List.getElem?_of_mem hjob
  have hphase : pool'.phase? j = some job.phase := by rw [phase?, hj]; rfl
  have hof {k : Nat} {phase : Phase} (hk : pool.phase? k = some phase) : phase.isSent = true := by
    obtain ⟨other, hother, rfl⟩ := Option.map_eq_some_iff.1 hk
    exact hall other (List.mem_of_getElem? hother)
  by_cases hij : i = j
  · subst hij
    rw [hmove.phase?_self] at hphase
    rw [← Option.some.inj hphase]
    exact hsent (hof hmove.phase)
  · exact hof ((hmove.phase?_of_ne hij).symm.trans hphase)

/-- The report does not change when completions already made stay as they are. -/
theorem Sound.report_of_moves (h : Sound tasks budget history pool) {i : Nat}
    {before after : Phase} (hmove : Moves pool pool' i before after)
    (hbefore : before.isRecorded = false) :
    pool.report = (history.recorded.filterMap pool'.completion?).foldl Report.record {} := by
  rw [h.report]
  congr 1
  refine List.filterMap_congr fun j hj ↦ ?_
  have hne : i ≠ j := by
    rintro rfl
    exact h.recorded.not_mem_of_phase? hmove.phase hbefore hj
  rw [completion?, completion?, hmove.phase?_of_ne hne]

/-- The report of one more completion. -/
theorem Sound.report_of_receive (h : Sound tasks budget history pool) {i : Nat} {done : Completion}
    (hmove : Moves pool pool' i (.sent done) (.collected done)) :
    pool.report.record done =
      ((history.recorded ++ [i]).filterMap pool'.completion?).foldl Report.record {} := by
  have hdone : pool.completion? i = some done := by rw [completion?, hmove.phase]; rfl
  rw [hmove.completion?_eq rfl, List.filterMap_append, List.foldl_append, ← h.report]
  simp [hdone]

/-- A state stays sound when no task moves, if what is asked of a dispatcher that sleeps and of a closed
channel is true of it. -/
theorem Sound.of_flags (h : Sound tasks budget history pool) {asleep closed : Bool}
    (hasleep : asleep = true → pool.next?.isSome ∧
      (pool.taken = pool.budget ∨ ∃ i done, pool.phase? i = some (.released done)))
    (hclosed : closed = true → ∀ job ∈ pool.jobs, job.phase.isSent) :
    Sound tasks budget history { pool with asleep, closed } :=
  { h with
    handed := h.handed.of_jobs_eq rfl
    executed := h.executed.of_jobs_eq rfl
    recorded := h.recorded.of_jobs_eq rfl
    channel := h.channel.of_jobs_eq rfl
    asleep := hasleep
    closed := hclosed }

/-- A state stays sound when a waiting task gets a free slot. -/
theorem Sound.hand (h : Sound tasks budget history pool) {i : Nat} (hnext : pool.next? = some i)
    (hawake : pool.asleep = false) (hfree : pool.taken < pool.budget) :
    Sound tasks budget { history with handed := history.handed ++ [i] }
      { pool.setPhase i .running with
        taken := pool.taken + 1, peak := max pool.peak (pool.taken + 1) } := by
  have hmove := moves_hand hnext
  constructor
  case tasks => exact hmove.map_task.trans h.tasks
  case budget => exact h.budget
  case taken => exact (congrArg (· + 1) h.taken).trans (hmove.holders_of_take rfl rfl).symm
  case taken_le => exact hfree
  case peak_le => exact Nat.max_le.2 ⟨h.peak_le, hfree⟩
  case handed => exact h.handed.append_of_moves hmove rfl rfl
  case handed_eq =>
    rw [List.length_append, List.length_singleton, List.range_succ, ← h.handed_eq, h.next_eq hnext]
  case executed => exact h.executed.of_moves hmove rfl
  case recorded => exact h.recorded.of_moves hmove rfl
  case channel => exact h.channel.of_moves hmove rfl
  case report => exact h.report_of_moves hmove rfl
  case asleep => exact fun hasleep ↦ absurd (hawake.symm.trans hasleep) (by decide)
  case closed => exact closed_of_moves h.closed hmove (by simp [Phase.isSent]) rfl

/-- A state stays sound when a task that has been handed out moves on, if the slots that are left taken and
the lists of tasks are those of the new state. -/
theorem Sound.of_moves (h : Sound tasks budget history pool) {i : Nat} {before after : Phase}
    {history' : History} (hmove : Moves pool pool' i before after)
    (hphases : handedOut before = true ∧ handedOut after = true ∧
      (before.isSent = true → after.isSent = true))
    (hsame : pool'.budget = pool.budget ∧ pool'.peak = pool.peak ∧ pool'.closed = pool.closed)
    (hhanded : history'.handed = history.handed)
    (htaken : pool'.taken = pool'.holders ∧ pool'.taken ≤ pool.taken)
    (hexecuted : pool'.Names (·.completion?.isSome) history'.executed)
    (hrecorded : pool'.Names Phase.isRecorded history'.recorded)
    (hchannel : pool'.Names Phase.inChannel pool'.channel)
    (hreport : pool'.report = (history'.recorded.filterMap pool'.completion?).foldl Report.record {})
    (hasleep : pool'.asleep = true → pool'.next?.isSome ∧
      (pool'.taken = pool'.budget ∨ ∃ i done, pool'.phase? i = some (.released done))) :
    Sound tasks budget history' pool' := by
  obtain ⟨hbudget, hpeak, hclosed⟩ := hsame
  obtain ⟨hbefore, hafter, hsent⟩ := hphases
  constructor
  case tasks => exact hmove.map_task.trans h.tasks
  case budget => exact hbudget.trans h.budget
  case taken => exact htaken.1
  case taken_le => exact hbudget ▸ Nat.le_trans htaken.2 h.taken_le
  case peak_le => exact hbudget ▸ hpeak ▸ h.peak_le
  case handed => exact hhanded ▸ h.handed.of_moves hmove (hafter.trans hbefore.symm)
  case handed_eq => exact hhanded ▸ h.handed_eq
  case executed => exact hexecuted
  case recorded => exact hrecorded
  case channel => exact hchannel
  case report => exact hreport
  case asleep => exact hasleep
  case closed => exact closed_of_moves h.closed hmove hsent hclosed

/-- Every step keeps a state sound. -/
theorem Sound.step (h : Sound tasks budget history pool)
    (hstep : Step execute pool outside event pool' outside') :
    Sound tasks budget (history.after pool event) pool' := by
  cases hstep with
  | hand hnext hawake hfree =>
    rw [after_of_hand hnext hfree]
    exact h.hand hnext hawake hfree
  | sleep hnext _ hfull =>
    -- all slots are taken, and the one who gives one back wakes the dispatcher
    rw [after_of_sleep hfull]
    exact h.of_flags (fun _ ↦ ⟨Option.isSome_of_eq_some hnext,
      Or.inl (Nat.le_antisymm h.taken_le hfull)⟩) h.closed
  | @execute _ task hjob =>
    have hmove := moves_execute hjob ((execute task).run outside).1
    exact h.of_moves hmove ⟨rfl, rfl, by simp [Phase.isSent]⟩ ⟨rfl, rfl, rfl⟩ rfl
      ⟨h.taken.trans (hmove.holders_eq rfl).symm, Nat.le_refl _⟩
      (h.executed.append_of_moves hmove rfl rfl) (h.recorded.of_moves hmove rfl)
      (h.channel.of_moves hmove rfl) (h.report_of_moves hmove rfl)
      (asleep_of_moves h.asleep hmove (by decide) (by simp) (Or.inl rfl) rfl rfl)
  | @release _ done hphase =>
    have hmove := moves_release hphase
    exact h.of_moves hmove ⟨rfl, rfl, by simp [Phase.isSent]⟩ ⟨rfl, rfl, rfl⟩ rfl
      ⟨Nat.sub_eq_of_eq_add (h.taken.trans (hmove.holders_of_give rfl rfl).symm), Nat.sub_le _ _⟩
      (h.executed.of_moves hmove rfl) (h.recorded.of_moves hmove rfl)
      (h.channel.of_moves hmove rfl) (h.report_of_moves hmove rfl)
      (asleep_of_moves h.asleep hmove (by simp) (by simp) (Or.inr ⟨done, rfl⟩) rfl rfl)
  | notify hphase =>
    have hmove := moves_notify hphase
    exact h.of_moves hmove ⟨rfl, rfl, by simp [Phase.isSent]⟩ ⟨rfl, rfl, rfl⟩ rfl
      ⟨h.taken.trans (hmove.holders_eq rfl).symm, Nat.le_refl _⟩
      (h.executed.of_moves hmove rfl) (h.recorded.of_moves hmove rfl)
      (h.channel.of_moves hmove rfl) (h.report_of_moves hmove rfl)
      fun hasleep ↦ by cases hasleep
  | send hphase =>
    have hmove := moves_send hphase
    exact h.of_moves hmove ⟨rfl, rfl, fun _ ↦ rfl⟩ ⟨rfl, rfl, rfl⟩ rfl
      ⟨h.taken.trans (hmove.holders_eq rfl).symm, Nat.le_refl _⟩
      (h.executed.of_moves hmove rfl) (h.recorded.of_moves hmove rfl)
      (h.channel.append_of_moves hmove rfl rfl) (h.report_of_moves hmove rfl)
      (asleep_of_moves h.asleep hmove (by simp) (by simp) (Or.inl rfl) rfl rfl)
  | @receive _ channel _ hchannel hphase =>
    have hmove := moves_receive hphase channel
    rw [after_of_receive hchannel]
    exact h.of_moves hmove ⟨rfl, rfl, fun _ ↦ rfl⟩ ⟨rfl, rfl, rfl⟩ rfl
      ⟨h.taken.trans (hmove.holders_eq rfl).symm, Nat.le_refl _⟩
      (h.executed.of_moves hmove rfl) (h.recorded.append_of_moves hmove rfl rfl)
      ((hchannel ▸ h.channel).tail_of_moves hmove rfl) (h.report_of_receive hmove)
      (asleep_of_moves h.asleep hmove (by simp) (by simp) (Or.inl rfl) rfl rfl)
  | close _ hsent => exact h.of_flags h.asleep fun _ ↦ List.all_eq_true.1 hsent

/-- A dispatcher that is awake knows nothing. -/
theorem Sound.wake (h : Sound tasks budget history pool) :
    Sound tasks budget history { pool with asleep := false } :=
  h.of_flags (fun hasleep ↦ by cases hasleep) h.closed

/-- Every reachable state is sound. -/
theorem Reaches.sound (h : Reaches execute tasks budget before history pool outside) :
    Sound tasks budget history pool := by
  induction h with
  | start => exact sound_ofTasks tasks budget
  | step _ hstep ih => exact ih.step (step?_eq_some_iff.1 hstep)
  | wake _ ih => exact ih.wake

/-! ### A budget of one -/

/-- What is true in addition when there is only one slot. -/
structure Serial (history : History) (pool : Pool) : Prop where
  /-- Only the task that was handed out last can hold the slot. -/
  last : ∀ i phase, pool.phase? i = some phase → phase.holdsSlot = true →
    i + 1 = history.handed.length
  /-- Tasks have been executed in order. -/
  executed_eq : history.executed = List.range history.executed.length

/-- A move of a task that does not take a slot, in a history that stays the same. -/
theorem Serial.of_moves (h : Serial history pool) {i : Nat} {phase after : Phase}
    (hmove : Moves pool pool' i phase after)
    (hslot : after.holdsSlot = true → phase.holdsSlot = true) {history' : History}
    (hhanded : history'.handed = history.handed)
    (hexecuted : history'.executed = List.range history'.executed.length) :
    Serial history' pool' where
  last j other hother hholds := by
    rw [hhanded]
    by_cases hij : i = j
    · subst hij
      rw [hmove.phase?_self] at hother
      obtain rfl := Option.some.inj hother
      exact h.last i phase hmove.phase (hslot hholds)
    · rw [hmove.phase?_of_ne hij] at hother
      exact h.last j other hother hholds
  executed_eq := hexecuted

/-- With one slot, the task that is executed is the first one that has not been. -/
theorem Serial.eq_length (hserial : Serial history pool) (h : Sound tasks budget history pool)
    {i : Nat} (hphase : pool.phase? i = some .running) : i = history.executed.length := by
  have hlast := hserial.last i _ hphase rfl
  have hmem (j : Nat) : j ∈ history.executed ↔ j < i := by
    constructor
    · intro hj
      obtain ⟨phase, hj, hdone⟩ := h.executed.exists_phase? hj
      have hhanded : j ∈ history.handed :=
        h.handed.mem_of_phase? hj (by cases phase <;> simp_all [handedOut, Phase.completion?])
      rw [h.handed_eq, List.mem_range] at hhanded
      refine Nat.lt_of_le_of_ne (by omega) ?_
      rintro rfl
      obtain rfl : Phase.running = phase := Option.some.inj (hphase.symm.trans hj)
      exact absurd hdone (by decide)
    · intro hj
      have hhanded : j ∈ history.handed := by
        rw [h.handed_eq, List.mem_range]
        omega
      obtain ⟨phase, hj', hphase'⟩ := h.handed.exists_phase? hhanded
      refine h.executed.mem_of_phase? hj' ?_
      -- it has been handed out and has given its slot back, so that it has been executed
      have hholds : phase.holdsSlot ≠ true := fun hholds ↦ by
        have := hserial.last j phase hj' hholds
        omega
      cases phase <;> simp_all [handedOut, Phase.completion?, Phase.holdsSlot]
  have hi := (not_congr (hmem i)).2 (Nat.lt_irrefl i)
  rw [hserial.executed_eq, List.mem_range, Nat.not_lt] at hi
  refine Nat.le_antisymm (Nat.le_of_not_lt fun hlt ↦ ?_) hi
  have hlength := (hmem _).2 hlt
  rw [hserial.executed_eq, List.length_range, List.mem_range] at hlength
  exact Nat.lt_irrefl _ hlength

/-- Every step of a pool with one slot keeps tasks in order. -/
theorem Serial.step (hserial : Serial history pool) (h : Sound tasks budget history pool)
    (hone : pool.budget = 1) (hstep : Step execute pool outside event pool' outside') :
    Serial (history.after pool event) pool' := by
  cases hstep with
  | @hand i hnext hawake hfree =>
    rw [after_of_hand hnext hfree]
    constructor
    · intro j phase hj hholds
      show j + 1 = (history.handed ++ [i]).length
      rw [List.length_append, List.length_singleton, ← h.next_eq hnext]
      by_cases hij : i = j
      · rw [hij]
      · -- nobody else holds a slot, for the slot was free
        have hpos := holders_pos (((moves_hand hnext).phase?_of_ne hij).symm.trans hj) hholds
        rw [← h.taken] at hpos
        omega
    · exact hserial.executed_eq
  | sleep hnext hawake hfull =>
    rw [after_of_sleep hfull]
    exact ⟨hserial.last, hserial.executed_eq⟩
  | @execute i task hjob =>
    have hphase := phase?_of_getElem? hjob
    refine hserial.of_moves (moves_execute hjob _) (fun _ ↦ rfl) rfl ?_
    show history.executed ++ [i] = List.range (history.executed ++ [i]).length
    rw [List.length_append, List.length_singleton, List.range_succ, ← hserial.executed_eq,
      ← hserial.eq_length h hphase]
  | release hphase =>
    exact hserial.of_moves (moves_release hphase) (fun _ ↦ rfl) rfl hserial.executed_eq
  | notify hphase => exact hserial.of_moves (moves_notify hphase) id rfl hserial.executed_eq
  | send hphase => exact hserial.of_moves (moves_send hphase) id rfl hserial.executed_eq
  | @receive i channel done hchannel hphase =>
    rw [after_of_receive hchannel]
    exact hserial.of_moves (moves_receive hphase channel) id rfl hserial.executed_eq
  | close => exact ⟨hserial.last, hserial.executed_eq⟩

/-- With a budget of one, every reachable state is serial. -/
theorem Reaches.serial (h : Reaches execute tasks budget before history pool outside)
    (hone : max budget 1 = 1) : Serial history pool := by
  induction h with
  | start =>
    refine ⟨fun i phase hphase hholds ↦ ?_, rfl⟩
    have hpos := holders_pos hphase hholds
    rw [← (sound_ofTasks tasks budget).taken] at hpos
    exact absurd hpos (Nat.lt_irrefl 0)
  | step h hstep ih =>
    exact ih.step h.sound (h.sound.budget.trans hone) (step?_eq_some_iff.1 hstep)
  | wake _ ih => exact ⟨ih.last, ih.executed_eq⟩

end Rebuild.Pool
