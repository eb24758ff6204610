import Rebuild.Schedule.Task

/-!
# A pool of workers

Tasks are handed out in order by a dispatcher, each to a worker of its own, and at most `budget` of
them hold a slot at once. While no slot is free the dispatcher sleeps. A worker executes its task,
gives its slot back, wakes the dispatcher, and puts the completion into a channel, from which a
collector records it. The channel closes when nothing is left that could put a completion into it,
and the run is over when the collector has emptied a closed channel.

The pool is a transition system: an `Event` is one step of one of the parties, `step?` says whether
the event can happen and what follows, and any order of events that can happen is a possible run.
Only executing a task acts on anything outside the pool, which is the state `σ`.
-/

namespace Rebuild

/-- How far a task has come. -/
inductive Phase where
  /-- It has not been handed out. -/
  | waiting
  /-- It holds a slot and is being executed. -/
  | running
  /-- It has been executed and still holds its slot. -/
  | executed (done : Completion)
  /-- It has given its slot back. -/
  | released (done : Completion)
  /-- It has woken the dispatcher. -/
  | notified (done : Completion)
  /-- Its completion is in the channel. -/
  | sent (done : Completion)
  /-- Its completion has been recorded. -/
  | collected (done : Completion)
deriving DecidableEq, Repr

namespace Phase

/-- The number of steps that a task has still to make. -/
def remaining : Phase → Nat
  | waiting => 6
  | running => 5
  | executed _ => 4
  | released _ => 3
  | notified _ => 2
  | sent _ => 1
  | collected _ => 0

/-- What became of the task, if it has been executed. -/
def completion? : Phase → Option Completion
  | waiting | running => none
  | executed done | released done | notified done | sent done | collected done => some done

/-- Whether the task holds a slot. -/
def holdsSlot : Phase → Bool
  | running | executed _ => true
  | _ => false

/-- Whether the completion of the task has been put into the channel. -/
def isSent : Phase → Bool
  | sent _ | collected _ => true
  | _ => false

end Phase

/-- A task and how far it has come. -/
structure Job where
  /-- The task. -/
  task : Task
  /-- How far it has come. -/
  phase : Phase := .waiting
deriving DecidableEq, Repr

/-- A step of one of the parties. Workers are named by the place of their task. -/
inductive Event where
  /-- The dispatcher hands out the next task, or falls asleep if no slot is free. -/
  | dispatch
  /-- A worker executes its task. -/
  | execute (i : Nat)
  /-- A worker gives its slot back. -/
  | release (i : Nat)
  /-- A worker wakes the dispatcher. -/
  | notify (i : Nat)
  /-- A worker puts its completion into the channel. -/
  | send (i : Nat)
  /-- The collector takes the next completion out of the channel. -/
  | receive
  /-- The channel closes: the dispatcher and all workers are done with it. -/
  | close
deriving DecidableEq, Repr

/-- The state of a pool. -/
structure Pool where
  /-- The tasks in order. -/
  jobs : List Job
  /-- How many tasks may hold a slot at once. -/
  budget : Nat
  /-- How many slots are taken. -/
  taken : Nat := 0
  /-- The most slots that were ever taken. -/
  peak : Nat := 0
  /-- Whether the dispatcher sleeps. -/
  asleep : Bool := false
  /-- The tasks whose completions are in the channel, the first one first. -/
  channel : List Nat := []
  /-- Whether the channel is closed. -/
  closed : Bool := false
  /-- What the collector has recorded. -/
  report : Report := {}
deriving DecidableEq, Repr

namespace Pool

/-- A pool in which nothing has happened. A budget of zero counts as one. -/
def ofTasks (tasks : List Task) (budget : Nat) : Pool :=
  { jobs := tasks.map fun task ↦ { task }, budget := max budget 1 }

/-- The place of the first task that has not been handed out. -/
def next? (pool : Pool) : Option Nat :=
  pool.jobs.findIdx? (·.phase = .waiting)

/-- The phase of a task. -/
def phase? (pool : Pool) (i : Nat) : Option Phase :=
  (pool.jobs[i]?).map Job.phase

/-- The pool in which a task has come to a phase. -/
def setPhase (pool : Pool) (i : Nat) (phase : Phase) : Pool :=
  { pool with jobs := pool.jobs.modify i fun job ↦ { job with phase } }

/-- Whether the collector is done: the channel is closed and nothing is in it. -/
def isOver (pool : Pool) : Bool :=
  pool.closed && pool.channel.isEmpty

/-- Whether an event can happen. -/
def possible (pool : Pool) : Event → Bool
  | .dispatch => pool.next?.isSome && !pool.asleep
  | .execute i => pool.phase? i = some .running
  | .release i => (pool.phase? i).any fun | .executed _ => true | _ => false
  | .notify i => (pool.phase? i).any fun | .released _ => true | _ => false
  | .send i => (pool.phase? i).any fun | .notified _ => true | _ => false
  | .receive =>
    (pool.channel.head?.bind pool.phase?).any fun | .sent _ => true | _ => false
  | .close => !pool.closed && pool.jobs.all (·.phase.isSent)

variable {σ : Type}

/-- What follows an event, if it can happen. -/
def step? (run : Task → StateM σ Completion) (pool : Pool) (outside : σ) :
    Event → Option (Pool × σ)
  | .dispatch =>
    match pool.next? with
    | none => none
    | some i =>
      if pool.asleep then none
      else if pool.taken < pool.budget then
        some ({ pool.setPhase i .running with
          taken := pool.taken + 1, peak := max pool.peak (pool.taken + 1) }, outside)
      else some ({ pool with asleep := true }, outside)
  | .execute i =>
    match pool.jobs[i]? with
    | some { task, phase := .running } =>
      let ran := (run task).run outside
      some (pool.setPhase i (.executed ran.1), ran.2)
    | _ => none
  | .release i =>
    match pool.phase? i with
    | some (.executed done) =>
      some ({ pool.setPhase i (.released done) with taken := pool.taken - 1 }, outside)
    | _ => none
  | .notify i =>
    match pool.phase? i with
    | some (.released done) =>
      some ({ pool.setPhase i (.notified done) with asleep := false }, outside)
    | _ => none
  | .send i =>
    match pool.phase? i with
    | some (.notified done) =>
      some ({ pool.setPhase i (.sent done) with channel := pool.channel ++ [i] }, outside)
    | _ => none
  | .receive =>
    match pool.channel with
    | [] => none
    | i :: channel =>
      match pool.phase? i with
      | some (.sent done) =>
        some ({ pool.setPhase i (.collected done) with
          channel, report := pool.report.record done }, outside)
      | _ => none
  | .close =>
    if !pool.closed && pool.jobs.all (·.phase.isSent) then
      some ({ pool with closed := true }, outside)
    else none

/-! ### What a step can be -/

/-- The steps of a pool: what each event needs, and all that follows from it. -/
inductive Step (run : Task → StateM σ Completion) (pool : Pool) (outside : σ) :
    Event → Pool → σ → Prop where
  /-- The next task gets a free slot. -/
  | hand {i : Nat} (hnext : pool.next? = some i) (hawake : pool.asleep = false)
      (hfree : pool.taken < pool.budget) :
      Step run pool outside .dispatch
        { pool.setPhase i .running with
          taken := pool.taken + 1, peak := max pool.peak (pool.taken + 1) } outside
  /-- There is no free slot for the next task. -/
  | sleep {i : Nat} (hnext : pool.next? = some i) (hawake : pool.asleep = false)
      (hfull : pool.budget ≤ pool.taken) :
      Step run pool outside .dispatch { pool with asleep := true } outside
  /-- A task is executed. -/
  | execute {i : Nat} {task : Task} (hjob : pool.jobs[i]? = some { task, phase := .running }) :
      Step run pool outside (.execute i)
        (pool.setPhase i (.executed ((run task).run outside).1)) ((run task).run outside).2
  /-- A slot is given back. -/
  | release {i : Nat} {done : Completion} (hphase : pool.phase? i = some (.executed done)) :
      Step run pool outside (.release i)
        { pool.setPhase i (.released done) with taken := pool.taken - 1 } outside
  /-- The dispatcher is woken. -/
  | notify {i : Nat} {done : Completion} (hphase : pool.phase? i = some (.released done)) :
      Step run pool outside (.notify i)
        { pool.setPhase i (.notified done) with asleep := false } outside
  /-- A completion is put into the channel. -/
  | send {i : Nat} {done : Completion} (hphase : pool.phase? i = some (.notified done)) :
      Step run pool outside (.send i)
        { pool.setPhase i (.sent done) with channel := pool.channel ++ [i] } outside
  /-- The first completion of the channel is recorded. -/
  | receive {i : Nat} {channel : List Nat} {done : Completion}
      (hchannel : pool.channel = i :: channel) (hphase : pool.phase? i = some (.sent done)) :
      Step run pool outside .receive
        { pool.setPhase i (.collected done) with
          channel, report := pool.report.record done } outside
  /-- The channel closes. -/
  | close (hopen : pool.closed = false) (hsent : pool.jobs.all (·.phase.isSent)) :
      Step run pool outside .close { pool with closed := true } outside

/-- What follows an event is what the steps say. -/
theorem step?_eq_some_iff {run : Task → StateM σ Completion} {pool pool' : Pool}
    {outside outside' : σ} {event : Event} :
    pool.step? run outside event = some (pool', outside') ↔
      Step run pool outside event pool' outside' := by
  constructor
  · intro h
    cases event with
    | dispatch =>
      simp only [step?] at h
      split at h
      · cases h
      · rename_i i hnext
        split at h
        · cases h
        · have hawake : pool.asleep = false := Bool.eq_false_iff.2 ‹_›
          split at h <;> cases h
          · exact .hand hnext hawake ‹_›
          · exact .sleep hnext hawake (Nat.le_of_not_lt ‹_›)
    | receive =>
      simp only [step?] at h
      split at h
      · cases h
      · split at h <;> cases h
        exact .receive ‹_› ‹_›
    | close =>
      simp only [step?] at h
      split at h <;> cases h
      rename_i hclose
      rw [Bool.and_eq_true, Bool.not_eq_true'] at hclose
      exact .close hclose.1 hclose.2
    | execute i =>
      simp only [step?] at h
      split at h <;> cases h
      exact .execute ‹_›
    | release i =>
      simp only [step?] at h
      split at h <;> cases h
      exact .release ‹_›
    | notify i =>
      simp only [step?] at h
      split at h <;> cases h
      exact .notify ‹_›
    | send i =>
      simp only [step?] at h
      split at h <;> cases h
      exact .send ‹_›
  · intro h
    cases h with
    | hand hnext hawake hfree => simp [step?, hnext, hawake, hfree]
    | sleep hnext hawake hfull => simp [step?, hnext, hawake, Nat.not_lt.2 hfull]
    | execute hjob => simp [step?, hjob]
    | release hphase => simp [step?, hphase]
    | notify hphase => simp [step?, hphase]
    | send hphase => simp [step?, hphase]
    | receive hchannel hphase => simp [step?, hchannel, hphase]
    | close hopen hsent => simp [step?, hopen, hsent]

/-! ### Every run ends -/

/-- The number of steps that tasks have still to make. -/
def remainingSteps : List Job → Nat
  | [] => 0
  | job :: rest => job.phase.remaining + remainingSteps rest

/-- A number that every event makes smaller: twice the steps that the tasks have still to make,
one while the dispatcher is awake, and one while the channel is open. -/
def measure (pool : Pool) : Nat :=
  2 * remainingSteps pool.jobs + (if pool.asleep then 0 else 1) + (if pool.closed then 0 else 1)

theorem remainingSteps_modify_lt {jobs : List Job} {i : Nat} {job : Job} {phase : Phase}
    (hjob : jobs[i]? = some job) (hphase : phase.remaining < job.phase.remaining) :
    remainingSteps (jobs.modify i fun job ↦ { job with phase }) < remainingSteps jobs := by
  induction jobs generalizing i with
  | nil => simp at hjob
  | cons first rest ih =>
    cases i with
    | zero =>
      simp only [List.getElem?_cons_zero, Option.some.injEq] at hjob
      subst hjob
      simpa [remainingSteps] using hphase
    | succ i =>
      simp only [List.getElem?_cons_succ] at hjob
      simpa [remainingSteps] using ih hjob

theorem measure_setPhase_lt {pool : Pool} {i : Nat} {before after : Phase}
    (hbefore : pool.phase? i = some before) (h : after.remaining < before.remaining)
    {pool' : Pool} (hjobs : pool'.jobs = (pool.setPhase i after).jobs)
    (hclosed : pool'.closed = pool.closed) : pool'.measure < pool.measure := by
  obtain ⟨job, hjob, rfl⟩ := Option.map_eq_some_iff.1 hbefore
  have hlt := remainingSteps_modify_lt hjob h
  have hone : (if pool'.asleep then 0 else 1) ≤ 1 := by split <;> omega
  simp only [measure, hjobs, setPhase, hclosed]
  omega

theorem phase?_of_next? {pool : Pool} {i : Nat} (h : pool.next? = some i) :
    pool.phase? i = some .waiting := by
  obtain ⟨hlt, hphase, -⟩ := List.findIdx?_eq_some_iff_getElem.1 h
  simpa [phase?, List.getElem?_eq_getElem hlt] using hphase

theorem phase?_of_getElem? {pool : Pool} {i : Nat} {task : Task} {phase : Phase}
    (h : pool.jobs[i]? = some { task, phase }) : pool.phase? i = some phase := by
  rw [phase?, h]
  rfl

/-- Every event that can happen makes the measure smaller. -/
theorem measure_lt_of_step? {run : Task → StateM σ Completion} {pool pool' : Pool}
    {outside outside' : σ} {event : Event}
    (h : pool.step? run outside event = some (pool', outside')) :
    pool'.measure < pool.measure := by
  cases step?_eq_some_iff.1 h with
  | hand hnext => exact measure_setPhase_lt (phase?_of_next? hnext) (by decide) rfl rfl
  | sleep _ hawake =>
    show 2 * _ + 0 + _ < 2 * _ + (if pool.asleep then 0 else 1) + _
    rw [hawake]
    exact Nat.add_lt_add_right (Nat.lt_succ_self _) _
  | execute hjob =>
    exact measure_setPhase_lt (phase?_of_getElem? hjob) (by simp [Phase.remaining]) rfl rfl
  | release hphase | notify hphase | send hphase | receive _ hphase =>
    exact measure_setPhase_lt hphase (by simp [Phase.remaining]) rfl rfl
  | close hopen =>
    show 2 * _ + _ + 0 < 2 * _ + _ + (if pool.closed then 0 else 1)
    rw [hopen]
    exact Nat.lt_succ_self _

end Pool

end Rebuild
