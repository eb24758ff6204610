import Mathlib.Data.List.Nodup
import Rebuild.Schedule.Run

/-!
# The reachable states of a pool

A run of a pool is any sequence of steps, in any order that the steps allow, and the dispatcher may
also wake up without having been woken. Beside the state a run has a *history*: which tasks were
handed out, which were executed and which were recorded, each list in the order in which it happened.

What is said about lists of tasks rests on one notion, `Names`: a list names, without repetition, the
tasks whose phase is of some kind. A step moves one task from one phase to another, and a list that
named the tasks of a kind before still does, or does with the task appended, or with its head removed.
-/

namespace Rebuild

namespace Phase

/-- Whether the completion of the task is in the channel. -/
def inChannel : Phase → Bool
  | sent _ => true
  | _ => false

/-- Whether the completion of the task has been recorded. -/
def isRecorded : Phase → Bool
  | collected _ => true
  | _ => false

end Phase

namespace Pool

variable {σ : Type} {execute : Task → StateM σ Completion}
variable {pool pool' : Pool} {outside outside' : σ} {event : Event}

/-! ### Phases after a move -/

theorem phase?_setPhase (pool : Pool) (i j : Nat) (phase : Phase) :
    (pool.setPhase i phase).phase? j =
      if i = j then (pool.phase? j).map fun _ ↦ phase else pool.phase? j := by
  simp only [phase?, setPhase, List.getElem?_modify]
  split <;> cases pool.jobs[j]? <;> rfl

theorem lt_length_of_phase? {i : Nat} {phase : Phase} (h : pool.phase? i = some phase) :
    i < pool.jobs.length := by
  obtain ⟨job, hjob, -⟩ := Option.map_eq_some_iff.1 h
  exact (List.getElem?_eq_some_iff.1 hjob).1

/-- The second pool is the first one with one of its tasks moved to another phase, as far as the
tasks are concerned. -/
structure Moves (pool pool' : Pool) (i : Nat) (before after : Phase) : Prop where
  /-- Where the task was. -/
  phase : pool.phase? i = some before
  /-- Where all tasks are now. -/
  jobs : pool'.jobs = (pool.setPhase i after).jobs

namespace Moves

variable {i j : Nat} {before after : Phase}

theorem phase?_self (h : Moves pool pool' i before after) : pool'.phase? i = some after := by
  rw [phase?, h.jobs, ← phase?, phase?_setPhase, if_pos rfl, h.phase]
  rfl

theorem phase?_of_ne (h : Moves pool pool' i before after) (hne : i ≠ j) :
    pool'.phase? j = pool.phase? j := by
  rw [phase?, h.jobs, ← phase?, phase?_setPhase, if_neg hne]

theorem map_task (h : Moves pool pool' i before after) :
    pool'.jobs.map Job.task = pool.jobs.map Job.task := by
  rw [h.jobs]
  refine List.ext_getElem? fun j ↦ ?_
  simp only [setPhase, List.getElem?_map, List.getElem?_modify]
  cases pool.jobs[j]? <;> simp [apply_ite Job.task]

end Moves

/-! ### Lists that name the tasks of a kind -/

/-- A list names the tasks whose phase is of a kind, each of them once. -/
structure Names (pool : Pool) (kind : Phase → Bool) (places : List Nat) : Prop where
  /-- No task is named twice. -/
  nodup : places.Nodup
  /-- The tasks of the kind are named. -/
  mem_iff : ∀ i, i ∈ places ↔ (pool.phase? i).any kind

namespace Names

variable {kind : Phase → Bool} {places : List Nat} {i : Nat} {before after : Phase}

theorem mem_of_phase? (h : pool.Names kind places) (hphase : pool.phase? i = some before)
    (hkind : kind before = true) : i ∈ places := by
  rw [h.mem_iff, hphase]
  exact hkind

theorem not_mem_of_phase? (h : pool.Names kind places) (hphase : pool.phase? i = some before)
    (hkind : kind before = false) : i ∉ places := by
  rw [h.mem_iff, hphase, Option.any_some, hkind]
  decide

theorem exists_phase? (h : pool.Names kind places) (hi : i ∈ places) :
    ∃ phase, pool.phase? i = some phase ∧ kind phase = true :=
  (Option.any_eq_true ..).1 ((h.mem_iff i).1 hi)

theorem lt_length (h : pool.Names kind places) (hi : i ∈ places) : i < pool.jobs.length := by
  obtain ⟨phase, hphase, -⟩ := h.exists_phase? hi
  exact lt_length_of_phase? hphase

/-- Two pools with the same tasks in the same phases name the same tasks. -/
theorem of_jobs_eq (h : pool.Names kind places) (hjobs : pool'.jobs = pool.jobs) :
    pool'.Names kind places where
  nodup := h.nodup
  mem_iff j := by rw [h.mem_iff, phase?, phase?, hjobs]

/-- A move within a kind, or outside of it, changes nothing. -/
theorem of_moves (h : pool.Names kind places) (hmove : Moves pool pool' i before after)
    (hkind : kind after = kind before) : pool'.Names kind places where
  nodup := h.nodup
  mem_iff j := by
    rw [h.mem_iff]
    by_cases hij : i = j
    · subst hij
      rw [hmove.phase?_self, hmove.phase, Option.any_some, Option.any_some, hkind]
    · rw [hmove.phase?_of_ne hij]

/-- A task that comes into a kind is named last. -/
theorem append_of_moves (h : pool.Names kind places) (hmove : Moves pool pool' i before after)
    (hbefore : kind before = false) (hafter : kind after = true) :
    pool'.Names kind (places ++ [i]) where
  nodup := by
    refine List.Nodup.append h.nodup (List.nodup_singleton i) ?_
    rw [List.disjoint_singleton]
    exact h.not_mem_of_phase? hmove.phase hbefore
  mem_iff j := by
    rw [List.mem_append, List.mem_singleton, h.mem_iff]
    by_cases hij : i = j
    · subst hij
      simp [hmove.phase?_self, hafter]
    · simp [hmove.phase?_of_ne hij, Ne.symm hij]

/-- The first task leaves a kind. -/
theorem tail_of_moves (h : pool.Names kind (i :: places)) (hmove : Moves pool pool' i before after)
    (hafter : kind after = false) : pool'.Names kind places where
  nodup := (List.nodup_cons.1 h.nodup).2
  mem_iff j := by
    have hi := (List.nodup_cons.1 h.nodup).1
    have hmem := h.mem_iff j
    by_cases hij : i = j
    · subst hij
      simp [hmove.phase?_self, hafter, hi]
    · rw [hmove.phase?_of_ne hij, ← hmem, List.mem_cons]
      exact ⟨Or.inr, fun hj ↦ hj.resolve_left (Ne.symm hij)⟩

end Names

/-! ### Counting the tasks that hold a slot -/

theorem countP_modify_add {α : Type} (p : α → Bool) (f : α → α) {xs : List α} {i : Nat} {a : α}
    (ha : xs[i]? = some a) :
    (xs.modify i f).countP p + (if p a then 1 else 0) =
      xs.countP p + (if p (f a) then 1 else 0) := by
  induction xs generalizing i with
  | nil => simp at ha
  | cons x xs ih =>
    cases i with
    | zero =>
      obtain rfl : x = a := by simpa using ha
      simp only [List.modify_zero_cons, List.countP_cons]
      omega
    | succ i =>
      have := ih (i := i) (by simpa using ha)
      simp only [List.modify_succ_cons, List.countP_cons]
      omega

/-- How many tasks hold a slot. -/
def holders (pool : Pool) : Nat :=
  pool.jobs.countP (·.phase.holdsSlot)

namespace Moves

variable {i : Nat} {before after : Phase}

theorem holders_add (h : Moves pool pool' i before after) :
    pool'.holders + (if before.holdsSlot then 1 else 0) =
      pool.holders + (if after.holdsSlot then 1 else 0) := by
  obtain ⟨job, hjob, rfl⟩ := Option.map_eq_some_iff.1 h.phase
  rw [holders, h.jobs]
  exact countP_modify_add (·.phase.holdsSlot) _ hjob

theorem holders_eq (h : Moves pool pool' i before after)
    (hslot : after.holdsSlot = before.holdsSlot) : pool'.holders = pool.holders := by
  have hcount := h.holders_add
  rw [hslot] at hcount
  exact Nat.add_right_cancel hcount

theorem holders_of_take (h : Moves pool pool' i before after)
    (hbefore : before.holdsSlot = false) (hafter : after.holdsSlot = true) :
    pool'.holders = pool.holders + 1 := by
  simpa [hbefore, hafter] using h.holders_add

theorem holders_of_give (h : Moves pool pool' i before after)
    (hbefore : before.holdsSlot = true) (hafter : after.holdsSlot = false) :
    pool'.holders + 1 = pool.holders := by
  simpa [hbefore, hafter] using h.holders_add

end Moves

theorem holders_pos {i : Nat} {phase : Phase} (h : pool.phase? i = some phase)
    (hphase : phase.holdsSlot = true) : 0 < pool.holders := by
  obtain ⟨job, hjob, rfl⟩ := Option.map_eq_some_iff.1 h
  exact List.countP_pos_iff.2 ⟨job, List.mem_of_getElem? hjob, hphase⟩

theorem exists_of_holders_pos (h : 0 < pool.holders) :
    ∃ i phase, pool.phase? i = some phase ∧ phase.holdsSlot = true := by
  obtain ⟨job, hjob, hphase⟩ := List.countP_pos_iff.1 h
  obtain ⟨i, hi⟩ := List.getElem?_of_mem hjob
  exact ⟨i, job.phase, by rw [phase?, hi]; rfl, hphase⟩

/-! ### Completions -/

/-- What became of a task, if it has been executed. -/
def completion? (pool : Pool) (i : Nat) : Option Completion :=
  (pool.phase? i).bind Phase.completion?

theorem Moves.completion?_eq {i : Nat} {before after : Phase} (h : Moves pool pool' i before after)
    (hdone : after.completion? = before.completion?) : pool'.completion? = pool.completion? := by
  funext j
  by_cases hij : i = j
  · subst hij
    simp only [completion?, h.phase?_self, h.phase, Option.bind_some, hdone]
  · simp only [completion?, h.phase?_of_ne hij]

/-! ### Histories and reachable states -/

/-- What has happened to tasks in a run, in the order in which it happened. -/
structure History where
  /-- The tasks that were handed out. -/
  handed : List Nat := []
  /-- The tasks that were executed. -/
  executed : List Nat := []
  /-- The tasks whose completions were recorded. -/
  recorded : List Nat := []
deriving DecidableEq, Repr

/-- The history after an event. -/
def History.after (history : History) (pool : Pool) : Event → History
  | .dispatch =>
    if pool.taken < pool.budget then
      { history with handed := history.handed ++ pool.next?.toList }
    else history
  | .execute i => { history with executed := history.executed ++ [i] }
  | .receive => { history with recorded := history.recorded ++ pool.channel.head?.toList }
  | _ => history

/-- The states that runs of tasks can come to, whatever the order of the steps. -/
inductive Reaches (execute : Task → StateM σ Completion) (tasks : List Task) (budget : Nat)
    (before : σ) : History → Pool → σ → Prop where
  /-- Nothing has happened. -/
  | start : Reaches execute tasks budget before {} (ofTasks tasks budget) before
  /-- One of the parties makes a step. -/
  | step {history : History} {pool pool' : Pool} {outside outside' : σ} {event : Event}
      (h : Reaches execute tasks budget before history pool outside)
      (hstep : pool.step? execute outside event = some (pool', outside')) :
      Reaches execute tasks budget before (history.after pool event) pool' outside'
  /-- The dispatcher wakes up by itself. -/
  | wake {history : History} {pool : Pool} {outside : σ}
      (h : Reaches execute tasks budget before history pool outside) :
      Reaches execute tasks budget before history { pool with asleep := false } outside

end Pool

end Rebuild
