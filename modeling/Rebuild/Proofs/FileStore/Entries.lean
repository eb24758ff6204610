import Rebuild.Proofs.FileStore.WellFormed

/-!
# What operations do to the entries

One lemma for each way in which a store changes, about what is at each location afterwards.
-/

namespace Rebuild.FileStore

variable {s : FileStore} {l x : Location} {e : Entry} {name : String}

/-! ### One entry -/

theorem lookup_cons_if (x l : Location) (e : Entry) (rest : List (Location × Entry)) :
    List.lookup x ((l, e) :: rest) = if x = l then some e else rest.lookup x := by
  rw [List.lookup_cons]
  by_cases h : x = l
  · simp [h]
  · rw [if_neg h, beq_false_of_ne h]

@[simp]
theorem find?_put : (s.put l e).find? x = if x = l then some e else s.find? x := by
  suffices h : ∀ entries : List (Location × Entry),
      (put.replace l e entries).lookup x = if x = l then some e else entries.lookup x from h s.entries
  intro entries
  induction entries with
  | nil => rw [put.replace, lookup_cons_if]
  | cons first rest ih =>
    obtain ⟨l', e'⟩ := first
    rw [put.replace]
    split
    · rename_i heq
      rw [lookup_cons_if, lookup_cons_if, heq]
      split <;> rfl
    · rename_i hne
      rw [lookup_cons_if, lookup_cons_if, ih]
      by_cases hx : x = l'
      · rw [if_pos hx, if_pos hx, if_neg (hx ▸ hne)]
      · rw [if_neg hx, if_neg hx]

@[simp]
theorem find?_erase : (s.erase l).find? x = if x = l then none else s.find? x := by
  suffices h : ∀ entries : List (Location × Entry),
      (entries.filter fun entry ↦ entry.1 ≠ l).lookup x =
        if x = l then none else entries.lookup x from h s.entries
  intro entries
  induction entries with
  | nil => simp
  | cons first rest ih =>
    obtain ⟨l', e'⟩ := first
    by_cases hl' : l' = l
    · rw [List.filter_cons_of_neg (by simpa using hl'), ih, lookup_cons_if, hl']
      split <;> rfl
    · rw [List.filter_cons_of_pos (by simpa using hl'), lookup_cons_if, lookup_cons_if, ih]
      by_cases hx : x = l'
      · rw [if_pos hx, if_pos hx, if_neg (hx ▸ hl')]
      · rw [if_neg hx, if_neg hx]

@[simp]
theorem find?_tick : s.tick.find? x = s.find? x :=
  rfl

@[simp]
theorem current_put : (s.put l e).current = s.current :=
  rfl

@[simp]
theorem current_erase : (s.erase l).current = s.current :=
  rfl

@[simp]
theorem current_tick : s.tick.current = s.current :=
  rfl

/-! ### Touching a folder -/

@[simp]
theorem current_touchFolder : (s.touchFolder l).current = s.current := by
  rw [touchFolder]
  split <;> rfl

theorem find?_touchFolder_of_ne (h : x ≠ l) : (s.touchFolder l).find? x = s.find? x := by
  rw [touchFolder]
  split
  · rw [find?_put, if_neg h]
  · rfl

theorem HasFolder.touchFolder (h : s.HasFolder x) : (s.touchFolder l).HasFolder x := by
  rw [FileStore.touchFolder]
  split
  · by_cases hx : x = l
    · exact ⟨s.clock, by rw [find?_put, if_pos hx]⟩
    · rwa [HasFolder, find?_put, if_neg hx]
  · exact h

/-- A folder that is touched is the only thing that touching it changes. -/
theorem find?_touchFolder (s : FileStore) (l x : Location) :
    (s.touchFolder l).find? x = s.find? x ∨
      x = l ∧ s.HasFolder x ∧ (s.touchFolder l).HasFolder x := by
  by_cases hx : x = l
  · subst hx
    by_cases hfolder : s.HasFolder x
    · exact Or.inr ⟨rfl, hfolder, hfolder.touchFolder⟩
    · refine Or.inl ?_
      rw [touchFolder]
      split
      · exact absurd ⟨_, ‹_›⟩ hfolder
      · rfl
  · exact Or.inl (find?_touchFolder_of_ne hx)

/-! ### Something new in a folder -/

@[simp]
theorem current_add : (s.add l name e).current = s.current := by
  simp [add]

@[simp]
theorem find?_add_self : (s.add l name e).find? (l.child name) = some e := by
  simp [add]

theorem find?_add_of_ne (hx : x ≠ l.child name) (hl : x ≠ l) :
    (s.add l name e).find? x = s.find? x := by
  simp [add, hx, find?_touchFolder_of_ne hl]

theorem HasFolder.add (h : s.HasFolder x) (hx : x ≠ l.child name) :
    (s.add l name e).HasFolder x := by
  obtain ⟨time, hfind⟩ := h.touchFolder (l := l)
  exact ⟨time, by simpa [FileStore.add, hx] using hfind⟩

end Rebuild.FileStore
