/-!
# Counting in lists

Searches that never look at anything twice end because there are fewer and fewer elements left to
look at. The lemmas say when a count becomes smaller, and when a sum of weights does.
-/

namespace Rebuild

theorem countP_lt_countP {α : Type} {p q : α → Bool} {xs : List α} {a : α} (ha : a ∈ xs)
    (himp : ∀ x, p x = true → q x = true) (hq : q a = true) (hp : p a = false) :
    xs.countP p < xs.countP q := by
  induction xs with
  | nil => simp at ha
  | cons x xs ih =>
    have hle : xs.countP p ≤ xs.countP q := List.countP_mono_left fun y _ ↦ himp y
    simp only [List.countP_cons]
    rcases List.mem_cons.1 ha with rfl | hmem
    · simp only [hq, hp, if_true, Bool.false_eq_true, if_false]
      omega
    · have hlt := ih hmem
      by_cases hx : p x = true
      · simp only [hx, himp x hx, if_true]
        omega
      · simp only [hx, if_false, Bool.false_eq_true]
        split <;> omega

/-- What is left to look at when some have been found: each of the others counts one and its
weight. -/
def weightMissing {α : Type} [BEq α] (weight : α → Nat) (found : List α) : List α → Nat
  | [] => 0
  | a :: rest => (if found.contains a then 0 else weight a + 1) + weightMissing weight found rest

theorem weightMissing_cons_le {α : Type} [BEq α] (weight : α → Nat) (found all : List α) (a : α) :
    weightMissing weight (a :: found) all ≤ weightMissing weight found all := by
  induction all with
  | nil => simp [weightMissing]
  | cons x xs ih =>
    simp only [weightMissing, List.contains_cons]
    cases found.contains x <;> cases x == a <;> simp <;> omega

theorem weightMissing_cons_lt {α : Type} [BEq α] [LawfulBEq α] (weight : α → Nat)
    {found all : List α} {a : α} (hmem : a ∈ all) (hnew : found.contains a = false) :
    weightMissing weight (a :: found) all + weight a < weightMissing weight found all := by
  induction all with
  | nil => simp at hmem
  | cons x xs ih =>
    have hle := weightMissing_cons_le weight found xs a
    rcases List.mem_cons.1 hmem with rfl | hmem
    · simp only [weightMissing, List.contains_cons, BEq.rfl, Bool.true_or, if_true, hnew,
        Bool.false_eq_true, if_false]
      omega
    · have hlt := ih hmem
      simp only [weightMissing, List.contains_cons]
      cases found.contains x <;> cases x == a <;> simp <;> omega

end Rebuild
