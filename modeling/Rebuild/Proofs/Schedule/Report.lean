import Mathlib.Data.List.Perm.Basic
import Mathlib.Order.MinMax
import Rebuild.Schedule.Task

/-!
# What a report says

Completions reach a report in any order, and it does not show: recording one after another is the
same as recording them the other way round. So a report is a function of the collection of
completions, and `Report.ofCompletions` is that function.
-/

namespace Rebuild

/-! ### Recording in any order -/

theorem Status.widen_comm (a b c : Status) : (a.widen b).widen c = (a.widen c).widen b := by
  cases a <;> cases b <;> cases c <;> rfl

theorem latest_right_comm (a b c : Option Time) :
    latest (latest a b) c = latest (latest a c) b := by
  cases a <;> cases b <;> cases c <;> simp [latest, max_comm, max_left_comm]

namespace Report

/-- The order in which two completions are recorded does not matter. -/
instance : RightCommutative Report.record where
  right_comm report a b := by
    cases ha : a.succeeded <;> cases hb : b.succeeded <;>
      simp [record, ha, hb, Status.widen_comm report.status, latest_right_comm report.latestObject]

/-- The report of completions that are recorded in one order is the report of the same completions
in another order. -/
theorem foldl_record_perm {dones others : List Completion} (h : dones.Perm others)
    (report : Report) : dones.foldl record report = others.foldl record report :=
  h.foldl_eq report

theorem foldl_record_cons (done : Completion) (dones : List Completion) (report : Report) :
    (done :: dones).foldl record report = (dones.foldl record report).record done := by
  rw [foldl_record_perm (List.perm_append_singleton done dones).symm, List.foldl_append]
  rfl

/-! ### The report of a collection -/

/-- How bad the worst completion is. -/
def worst (dones : List Completion) : Status :=
  if dones.any (!·.succeeded) then .failed else if dones.isEmpty then .noChange else .changed

/-- The times of the objects that were made and are there. -/
def objectTimes (dones : List Completion) : List Time :=
  (dones.filter (·.succeeded)).filterMap (·.objectTime)

/-- What there is to say about completions. -/
def ofCompletions (dones : List Completion) : Report where
  status := worst dones
  latestObject := (objectTimes dones).max?
  succeeded := dones.countP (·.succeeded)
  failed := dones.countP (!·.succeeded)

theorem worst_eq_failed_iff {dones : List Completion} :
    worst dones = .failed ↔ ∃ done ∈ dones, done.succeeded = false := by
  have hany : dones.any (!·.succeeded) = true ↔ ∃ done ∈ dones, done.succeeded = false := by
    simp
  rw [← hany, worst]
  split
  · simp_all
  · split <;> simp_all

theorem worst_eq_noChange_iff {dones : List Completion} : worst dones = .noChange ↔ dones = [] := by
  rw [worst]
  cases dones with
  | nil => simp
  | cons done dones => split <;> simp

theorem worst_cons (done : Completion) (dones : List Completion) :
    worst (done :: dones) =
      (worst dones).widen (if done.succeeded then .changed else .failed) := by
  simp only [worst, List.any_cons, List.isEmpty_cons]
  by_cases h : done.succeeded = true <;> by_cases hfailed : dones.any (!·.succeeded) = true <;>
    by_cases hnone : dones.isEmpty = true <;> simp only [h, hfailed, hnone] <;> rfl

theorem max?_objectTimes_cons {done : Completion} (dones : List Completion)
    (h : done.succeeded = true) :
    (objectTimes (done :: dones)).max? = latest (objectTimes dones).max? done.objectTime := by
  rw [objectTimes, List.filter_cons_of_pos h, List.filterMap_cons, ← objectTimes]
  cases done.objectTime with
  | none => cases (objectTimes dones).max? <;> rfl
  | some time =>
    show (time :: objectTimes dones).max? = _
    rw [List.max?_cons]
    cases (objectTimes dones).max? with
    | none => rfl
    | some newest => exact congrArg some (max_comm time newest)

/-- A report says what there is to say about the completions recorded in it, whatever their
order. -/
theorem foldl_record_eq (dones : List Completion) :
    dones.foldl record {} = ofCompletions dones := by
  induction dones with
  | nil => rfl
  | cons done dones ih =>
    rw [foldl_record_cons, ih, record]
    cases h : done.succeeded with
    | true =>
      simp [ofCompletions, worst_cons, max?_objectTimes_cons dones h, h]
    | false =>
      have htimes : objectTimes (done :: dones) = objectTimes dones := by
        rw [objectTimes, List.filter_cons_of_neg (by simp [h]), ← objectTimes]
      simp [ofCompletions, worst_cons, htimes, h]

/-- Every completion is counted, as a success or as a failure. -/
theorem succeeded_add_failed (dones : List Completion) :
    (ofCompletions dones).succeeded + (ofCompletions dones).failed = dones.length := by
  rw [List.length_eq_countP_add_countP (fun done : Completion ↦ done.succeeded)]
  simp [ofCompletions]

end Report

end Rebuild
