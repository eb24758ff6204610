import Rebuild.Schedule.Pool

/-!
# Running a pool

A run makes one event after the other until none can happen. Which of the possible events comes
next is not fixed by the pool but by *choices*, a number for each step. What a run leaves behind
for its tasks does not depend on them, as long as executing a task depends on the task alone.
-/

namespace Rebuild.Pool

variable {σ : Type}

/-- All events of a pool, possible or not: the dispatcher first, then the workers in the order of
their tasks, then the collector and the end of the channel. -/
def events (pool : Pool) : List Event :=
  .dispatch ::
    (List.range pool.jobs.length).flatMap (fun i ↦ [.execute i, .release i, .notify i, .send i]) ++
    [.receive, .close]

/-- The event of a non-empty list that a number chooses. -/
def pick (choice : Nat) (first : Event) (rest : List Event) : Event :=
  (first :: rest).get ⟨choice % (first :: rest).length, Nat.mod_lt _ (by simp)⟩

/-- Runs a pool until no event can happen, choosing each time by the number for that step. -/
def runFrom (run : Task → StateM σ Completion) (choices : Nat → Nat) (steps : Nat) (pool : Pool)
    (outside : σ) : Pool × σ :=
  match pool.events.filter pool.possible with
  | [] => (pool, outside)
  | first :: rest =>
    let event := pick (choices steps) first rest
    match hnext : pool.step? run outside event with
    | none => (pool, outside)
    | some (pool', outside') => runFrom run choices (steps + 1) pool' outside'
termination_by pool.measure
decreasing_by exact measure_lt_of_step? hnext

/-- The choices of a run that always makes the first event that can happen. -/
def firstChoices : Nat → Nat := fun _ ↦ 0

/-- Runs tasks with at most `budget` of them holding a slot at once. -/
def run (execute : Task → StateM σ Completion) (choices : Nat → Nat) (tasks : List Task)
    (budget : Nat) : StateM σ Pool :=
  fun outside ↦ runFrom execute choices 0 (ofTasks tasks budget) outside

end Rebuild.Pool
