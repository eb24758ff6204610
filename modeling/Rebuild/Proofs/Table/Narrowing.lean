import Mathlib.Data.List.Forall2
import Rebuild.Table

/-!
# Narrowing columns

`Narrowing` is the loop that narrows columns as it goes on, without a bound on its steps: it ends where the
widths fit, or where no column can be narrowed. `narrow` never runs out of steps (`narrowing_narrow`).

What one step does is said once (`exists_of_narrowOnce`): one column among the widest loses one. What a step
keeps (`Evenly.narrowOnce`) the loop keeps, so that the columns end up narrowed evenly, and since the sum
goes down by one at a time it ends exactly where it has to (`Narrowing.settles`).
-/

namespace Rebuild.Table

variable {available widest : Nat} {widths narrower natural final : List Nat}

/-! ### One step -/

theorem widest_spec (widths : List Nat) (start : Nat) :
    (∀ width ∈ widths, width ≤ widths.foldl max start) ∧ start ≤ widths.foldl max start ∧
      (widths.foldl max start = start ∨ widths.foldl max start ∈ widths) := by
  induction widths generalizing start with
  | nil => exact ⟨fun _ h ↦ absurd h List.not_mem_nil, Nat.le_refl _, Or.inl rfl⟩
  | cons first rest ih =>
    obtain ⟨hle, hstart, hmem⟩ := ih (max start first)
    rw [List.foldl_cons]
    refine ⟨List.forall_mem_cons.2 ⟨by omega, hle⟩, by omega, ?_⟩
    rcases hmem with heq | hmem
    · rw [heq, List.mem_cons]
      omega
    · exact Or.inr (List.mem_cons_of_mem _ hmem)

theorem exists_of_narrowLast (h : widest ∈ widths) : ∃ before after,
    widths = before ++ widest :: after ∧
      narrowOnce.narrowLast widest widths = before ++ (widest - 1) :: after := by
  induction widths with
  | nil => cases h
  | cons first rest ih =>
    rw [narrowOnce.narrowLast]
    by_cases hfirst : first = widest
    · exact ⟨[], rest, by rw [hfirst]; rfl, by rw [if_pos hfirst, hfirst]; rfl⟩
    · obtain ⟨before, after, hrest, hnarrow⟩ := ih ((List.mem_cons.1 h).resolve_left fun h ↦ hfirst h.symm)
      exact ⟨first :: before, after, by rw [hrest]; rfl, by rw [if_neg hfirst, hnarrow]; rfl⟩

theorem narrowOnce_eq_none_iff : narrowOnce widths = none ↔ ∀ width ∈ widths, width ≤ leastWidth := by
  obtain ⟨hle, -, hmem⟩ := widest_spec widths 0
  rw [narrowOnce]
  split
  · next hleast => exact iff_of_true rfl fun width hwidth ↦ Nat.le_trans (hle width hwidth) hleast
  · next hwide =>
    refine iff_of_false nofun fun hall ↦ hwide ?_
    rcases hmem with hzero | hmem
    · rw [hzero]
      exact Nat.zero_le _
    · exact hall _ hmem

/-- A step takes one from a column that is as wide as any, and wider than the least width. -/
theorem exists_of_narrowOnce (h : narrowOnce widths = some narrower) : ∃ before widest after,
    widths = before ++ widest :: after ∧ narrower = before ++ (widest - 1) :: after ∧
      leastWidth < widest ∧ ∀ width ∈ widths, width ≤ widest := by
  obtain ⟨hle, -, hmem⟩ := widest_spec widths 0
  rw [narrowOnce] at h
  split at h
  · cases h
  · next hwide =>
    have hwidest : widths.foldl max 0 ∈ widths := by
      refine hmem.resolve_left fun hzero ↦ hwide ?_
      rw [hzero]
      exact Nat.zero_le _
    generalize widths.foldl max 0 = widest at *
    obtain ⟨before, after, hwidths, hnarrow⟩ := exists_of_narrowLast (List.mem_reverse.2 hwidest)
    refine ⟨after.reverse, widest, before.reverse, ?_, ?_, Nat.lt_of_not_le hwide, hle⟩
    · rw [← List.reverse_reverse widths, hwidths]
      simp
    · rw [← Option.some.inj h, hnarrow]
      simp

theorem total_append_cons (before after : List Nat) (width : Nat) :
    total (before ++ width :: after) = total before + (width + total after) :=
  List.sum_append

/-- A step takes one from the sum. -/
theorem total_narrowOnce (h : narrowOnce widths = some narrower) : total narrower + 1 = total widths := by
  obtain ⟨before, widest, after, rfl, rfl, hwide, -⟩ := exists_of_narrowOnce h
  rw [total_append_cons, total_append_cons]
  omega

/-! ### The loop -/

/-- The loop that narrows columns until they fit or cannot be narrowed. -/
inductive Narrowing (available : Nat) : List Nat → List Nat → Prop
  /-- The columns fit. -/
  | fits {widths : List Nat} (h : total widths ≤ available) : Narrowing available widths widths
  /-- No column can be narrowed. -/
  | stuck {widths : List Nat} (hwide : available < total widths) (h : narrowOnce widths = none) :
    Narrowing available widths widths
  /-- A column is narrowed, and the loop goes on. -/
  | step {widths narrower final : List Nat} (hwide : available < total widths)
    (h : narrowOnce widths = some narrower) (hrest : Narrowing available narrower final) :
    Narrowing available widths final

/-- The loop ends before its steps do. -/
theorem narrowing_narrow {steps : Nat} (h : total widths ≤ steps) :
    Narrowing available widths (narrow available steps widths) := by
  induction steps generalizing widths with
  | zero => exact .fits (Nat.le_trans h (Nat.zero_le _))
  | succ steps ih =>
    rw [narrow]
    split
    · next hfits => exact .fits hfits
    · next hwide =>
      cases hstep : narrowOnce widths with
      | none => exact .stuck (Nat.lt_of_not_le hwide) hstep
      | some narrower =>
        have htotal := total_narrowOnce hstep
        exact .step (Nat.lt_of_not_le hwide) hstep (ih (by omega))

theorem Narrowing.eq_of_fits (h : Narrowing available natural final) (hfits : total natural ≤ available) :
    final = natural := by
  cases h with
  | fits => rfl
  | stuck => rfl
  | step hwide => omega

/-! ### What the loop keeps -/

/-- A column of its natural width that has been narrowed to another one, beside columns of the given
widths. -/
structure Narrowed (widths : List Nat) (natural width : Nat) : Prop where
  /-- It is not wider than it was. -/
  le : width ≤ natural
  /-- It has not been narrowed below the least width. -/
  ge : min natural leastWidth ≤ width
  /-- If it has been narrowed, then no column is wider by more than one. -/
  even : width < natural → ∀ other ∈ widths, other ≤ width + 1

/-- The columns have been narrowed evenly from their natural widths. -/
def Evenly (natural widths : List Nat) : Prop :=
  List.Forall₂ (Narrowed widths) natural widths

theorem evenly_self (natural : List Nat) : Evenly natural natural :=
  List.forall₂_same.2 fun _ _ ↦ ⟨Nat.le_refl _, Nat.min_le_left _ _, fun h ↦ absurd h (Nat.lt_irrefl _)⟩

theorem Evenly.narrowOnce (h : Evenly natural widths) (hstep : narrowOnce widths = some narrower) :
    Evenly natural narrower := by
  obtain ⟨before, widest, after, rfl, rfl, hleast, hle⟩ := exists_of_narrowOnce hstep
  have hbelow : ∀ other ∈ before ++ (widest - 1) :: after, other ≤ widest := by
    intro other hother
    rcases List.mem_append.1 hother with hother | hother
    · exact hle other (List.mem_append_left _ hother)
    · rcases List.mem_cons.1 hother with rfl | hother
      · exact Nat.sub_le _ _
      · exact hle other (List.mem_append_right _ (List.mem_cons_of_mem _ hother))
  -- a column that stays as it is was not narrower by more than one than the widest
  have hkeep (n width : Nat) (h : Narrowed (before ++ widest :: after) n width) :
      Narrowed (before ++ (widest - 1) :: after) n width :=
    ⟨h.le, h.ge, fun hlt other hother ↦ Nat.le_trans (hbelow other hother)
      (h.even hlt widest (List.mem_append_right _ List.mem_cons_self))⟩
  have hbefore := List.forall₂_take_append _ _ _ h
  have hrest := List.forall₂_drop_append _ _ _ h
  rw [Evenly, ← List.take_append_drop before.length natural]
  refine List.rel_append (hbefore.imp hkeep) ?_
  generalize List.drop before.length natural = rest at hrest
  cases hrest with
  | cons hwidest hafter =>
    refine .cons ⟨?_, ?_, fun _ other hother ↦ ?_⟩ (hafter.imp hkeep)
    · exact Nat.le_trans (Nat.sub_le _ _) hwidest.le
    · omega
    · have := hbelow other hother
      omega

theorem Evenly.least_le (h : List.Forall₂ (Narrowed widths) natural final) :
    total (natural.map (min leastWidth)) ≤ total final := by
  induction h with
  | nil => exact Nat.le_refl _
  | @cons n width _ _ hwidth _ ih =>
    have hge := hwidth.ge
    rw [Nat.min_comm] at hge
    exact Nat.add_le_add hge ih

theorem Evenly.eq_least (h : List.Forall₂ (Narrowed widths) natural final)
    (hleast : ∀ width ∈ final, width ≤ leastWidth) : natural.map (min leastWidth) = final := by
  induction h with
  | nil => rfl
  | @cons n width _ _ hwidth _ ih =>
    obtain ⟨hfirst, hrest⟩ := List.forall_mem_cons.1 hleast
    have hle := hwidth.le
    have hge := hwidth.ge
    rw [List.map_cons, ih hrest]
    exact congrArg (· :: _) (by omega)

/-- From columns that have been narrowed evenly the loop goes on to columns that have been narrowed evenly,
and where they took no less than there is, they end up taking just that, or as little as they can. -/
theorem Narrowing.settles (h : Narrowing available widths final) (heven : Evenly natural widths)
    (hwide : available ≤ total widths) :
    Evenly natural final ∧ total final = max available (total (natural.map (min leastWidth))) := by
  induction h with
  | fits h =>
    have hleast := Evenly.least_le heven
    exact ⟨heven, by omega⟩
  | stuck hmore hstuck =>
    have hleast := Evenly.eq_least heven (narrowOnce_eq_none_iff.1 hstuck)
    exact ⟨heven, by rw [hleast]; omega⟩
  | step hmore hstep _ ih =>
    have htotal := total_narrowOnce hstep
    exact ih (heven.narrowOnce hstep) (by omega)

theorem Narrowing.evenly (h : Narrowing available natural final) : Evenly natural final := by
  by_cases hfits : total natural ≤ available
  · rw [h.eq_of_fits hfits]
    exact evenly_self natural
  · exact (h.settles (evenly_self natural) (Nat.le_of_not_le hfits)).1

/-- The columns take no more than there is if they take no more at their least widths. -/
theorem Narrowing.total_le (h : Narrowing available natural final)
    (hleast : total (natural.map (min leastWidth)) ≤ available) : total final ≤ available := by
  by_cases hfits : total natural ≤ available
  · rwa [h.eq_of_fits hfits]
  · have htotal := (h.settles (evenly_self natural) (Nat.le_of_not_le hfits)).2
    omega

end Rebuild.Table
