import Mathlib.Data.List.Induction
import Rebuild.Assignments
import Rebuild.Proofs.Text

/-!
# Assignments one after the other

What is left of a list of assignments when all of them have been merged. A name keeps all the texts it
was given, joined in order (`get?_mergeAll`), and the names stand in the order in which they came first
(`keys_mergeAll`). A joined text holds the values of each of its texts, one after the other
(`valuesIn_intercalate`), whatever separators and blanks are in them.
-/

namespace Rebuild.Assignments

variable {name key : String}

/-- The separator as a text. -/
def separator : String := valueSeparator.toString

/-- The texts that a name is given, in order. -/
def textsOf (name : String) (assigned : List (String × String)) : List String :=
  (assigned.filter (·.1 = name)).map Prod.snd

/-- Merges names and texts, one after the other. -/
def mergeAll (before : Assignments) (assigned : List (String × String)) : Assignments :=
  assigned.foldl (fun assignments given ↦ assignments.merge given.1 given.2) before

/-! ### One assignment -/

@[simp]
theorem add_nil (name value : String) : merge.add name value [] = [(name, value)] := rfl

@[simp]
theorem add_cons_self (name value present : String) (rest : List (String × String)) :
    merge.add name value ((name, present) :: rest) =
      (name, present ++ separator ++ value) :: rest :=
  if_pos rfl

theorem add_cons_of_ne (h : key ≠ name) (value present : String) (rest : List (String × String)) :
    merge.add name value ((key, present) :: rest) =
      (key, present) :: merge.add name value rest :=
  if_neg h

/-- A name that is assigned has its new text behind those it had. -/
theorem get?_merge_self (assignments : Assignments) (name value : String) :
    (assignments.merge name value).get? name =
      some (((assignments.get? name).map (· ++ separator ++ value)).getD value) := by
  obtain ⟨entries⟩ := assignments
  simp only [merge, get?]
  induction entries with
  | nil => simp
  | cons entry entries ih =>
    obtain ⟨key, present⟩ := entry
    by_cases h : key = name
    · subst h
      simp
    · have hne : (name == key) = false := beq_eq_false_iff_ne.2 (Ne.symm h)
      simpa [add_cons_of_ne h, List.lookup_cons, hne] using ih

theorem get?_merge_of_ne (assignments : Assignments) (h : key ≠ name) (value : String) :
    (assignments.merge name value).get? key = assignments.get? key := by
  have hne : (key == name) = false := beq_eq_false_iff_ne.2 h
  obtain ⟨entries⟩ := assignments
  simp only [merge, get?]
  induction entries with
  | nil => simp [List.lookup_cons, hne]
  | cons entry entries ih =>
    obtain ⟨other, present⟩ := entry
    by_cases heq : other = name
    · subst heq
      simp [List.lookup_cons, hne]
    · simp [add_cons_of_ne heq, List.lookup_cons, ih]

/-- A name that is new comes behind all others. -/
theorem keys_merge (assignments : Assignments) (name value : String) :
    (assignments.merge name value).keys =
      if name ∈ assignments.keys then assignments.keys else assignments.keys ++ [name] := by
  obtain ⟨entries⟩ := assignments
  change (merge.add name value entries).map Prod.fst = if name ∈ entries.map Prod.fst then _ else _
  induction entries with
  | nil => simp [keys]
  | cons entry entries ih =>
    obtain ⟨key, present⟩ := entry
    by_cases h : key = name
    · subst h
      simp [keys]
    · simp only [add_cons_of_ne h, List.map_cons, List.mem_cons, Ne.symm h, false_or, ih]
      split <;> rfl

/-- Two texts for a name are one text with a separator in it. -/
theorem merge_merge (assignments : Assignments) (name first second : String) :
    (assignments.merge name first).merge name second =
      assignments.merge name (first ++ separator ++ second) := by
  obtain ⟨entries⟩ := assignments
  simp only [merge, Assignments.mk.injEq]
  induction entries with
  | nil => simp
  | cons entry entries ih =>
    obtain ⟨key, present⟩ := entry
    by_cases h : key = name
    · subst h
      simp [String.append_assoc]
    · simp [add_cons_of_ne h, ih]

/-! ### All assignments -/

theorem mergeAll_append (before : Assignments) (first second : List (String × String)) :
    before.mergeAll (first ++ second) = (before.mergeAll first).mergeAll second :=
  List.foldl_append

theorem mergeAll_singleton (before : Assignments) (given : String × String) :
    before.mergeAll [given] = before.merge given.1 given.2 := rfl

theorem textsOf_concat_self (name value : String) (assigned : List (String × String)) :
    textsOf name (assigned ++ [(name, value)]) = textsOf name assigned ++ [value] := by
  simp [textsOf]

theorem textsOf_concat_of_ne (h : key ≠ name) (value : String) (assigned : List (String × String)) :
    textsOf key (assigned ++ [(name, value)]) = textsOf key assigned := by
  simp [textsOf, h.symm]

/-- A name has the texts it was given, joined in order. -/
theorem get?_mergeAll (assigned : List (String × String)) (name : String) :
    (mergeAll {} assigned).get? name =
      if textsOf name assigned = [] then none
      else some (separator.intercalate (textsOf name assigned)) := by
  induction assigned using List.reverseRecOn with
  | nil => rfl
  | append_singleton assigned given ih =>
    obtain ⟨key, value⟩ := given
    rw [mergeAll_append, mergeAll_singleton]
    by_cases h : name = key
    · subst h
      rw [get?_merge_self, ih, textsOf_concat_self, if_neg (List.concat_ne_nil _ _)]
      split
      next hnone => simp [hnone]
      next hsome => simp [String.intercalate_append_of_ne_nil, hsome]
    · rw [get?_merge_of_ne _ h, ih, textsOf_concat_of_ne h]

/-- The names stand in the order in which they came first, each of them once. -/
theorem keys_mergeAll (assigned : List (String × String)) :
    (mergeAll {} assigned).keys = (assigned.map Prod.fst).eraseDups := by
  induction assigned using List.reverseRecOn with
  | nil => rfl
  | append_singleton assigned given ih =>
    rw [mergeAll_append, mergeAll_singleton, keys_merge, ih, List.map_append, List.eraseDups_append]
    simp only [List.mem_eraseDups]
    split
    next h => simp [List.removeAll, h]
    next h => simp [List.removeAll, h, List.eraseDups_cons]

/-! ### The values in a joined text -/

theorem valuesIn_append (first second : String) :
    valuesIn (first ++ separator ++ second) = valuesIn first ++ valuesIn second := by
  have htext : (first ++ separator ++ second).toList =
      first.toList ++ valueSeparator :: second.toList := by
    simp [separator]
  have hsplit := Text.split_append_cons (· == valueSeparator) (beq_self_eq_true valueSeparator)
    first.toList second.toList
  simp only [valuesIn, htext, hsplit, List.map_append, List.filterMap_append]

/-- A joined text holds the values of each text, one after the other. -/
theorem valuesIn_intercalate (texts : List String) :
    valuesIn (separator.intercalate texts) = texts.flatMap valuesIn := by
  induction texts using List.reverseRecOn with
  | nil => decide
  | append_singleton texts text ih =>
    by_cases h : texts = []
    · simp [h]
    · rw [String.intercalate_append_of_ne_nil h (List.cons_ne_nil _ _), valuesIn_append, ih,
        List.flatMap_append]
      simp

/-- A name has the values of each text it was given, one after the other. -/
theorem values_mergeAll (assigned : List (String × String)) (name : String) :
    (mergeAll {} assigned).values name = (textsOf name assigned).flatMap valuesIn := by
  rw [values, get?_mergeAll]
  split
  next h => simp [h]
  next h => exact valuesIn_intercalate _

end Rebuild.Assignments
