import Mathlib.Data.List.Infix
import Rebuild.Text.Basic

/-!
# Byte offsets

A byte offset in a text is good where a character begins or the text ends. `Text.suffixAt` reads from a good
offset on, `Text.slice?` what stands between two good offsets; both say by their answers how the text falls
apart there (`suffixAt_eq_some_iff`, `slice?_eq_some_iff`). So offsets never have to be compared with
lengths: an offset is the length of what stands before it.
-/

namespace Rebuild.Text

variable {cs rest piece : List Char} {n start stop : Nat}

/-! ### Lengths -/

@[simp]
theorem byteLength_nil : byteLength [] = 0 :=
  rfl

@[simp]
theorem byteLength_cons (c : Char) (cs : List Char) :
    byteLength (c :: cs) = c.utf8Size + byteLength cs :=
  rfl

@[simp]
theorem byteLength_append (cs others : List Char) :
    byteLength (cs ++ others) = byteLength cs + byteLength others := by
  induction cs with
  | nil => simp
  | cons c cs ih =>
    rw [List.cons_append, byteLength_cons, ih, byteLength_cons]
    omega

theorem byteLength_eq_zero_iff : byteLength cs = 0 ↔ cs = [] := by
  cases cs with
  | nil => simp
  | cons c cs =>
    have hpos := c.utf8Size_pos
    rw [byteLength_cons]
    exact iff_of_false (by omega) (List.cons_ne_nil c cs)

/-- Of two texts of which one is the end of the other, the shorter one has fewer bytes. -/
theorem byteLength_lt_iff (h : rest <:+ cs) :
    byteLength rest < byteLength cs ↔ rest.length < cs.length := by
  obtain ⟨before, rfl⟩ := h
  rw [byteLength_append, List.length_append]
  have hzero : byteLength before = 0 ↔ before.length = 0 :=
    byteLength_eq_zero_iff.trans List.length_eq_zero_iff.symm
  omega

/-! ### Reading from an offset on -/

theorem suffixAt_append (before cs : List Char) (n : Nat) :
    suffixAt (before ++ cs) (byteLength before + n) = suffixAt cs n := by
  induction before with
  | nil => rw [List.nil_append, byteLength_nil, Nat.zero_add]
  | cons c before ih =>
    have hpos := c.utf8Size_pos
    obtain ⟨m, hm⟩ : ∃ m, byteLength (c :: before) + n = m + 1 :=
      ⟨byteLength (c :: before) + n - 1, by rw [byteLength_cons]; omega⟩
    rw [byteLength_cons] at hm
    rw [List.cons_append, byteLength_cons, hm, suffixAt, if_pos (by omega),
      show m + 1 - c.utf8Size = byteLength before + n by omega, ih]

@[simp]
theorem suffixAt_byteLength (before cs : List Char) :
    suffixAt (before ++ cs) (byteLength before) = some cs := by
  have h := suffixAt_append before cs 0
  rwa [Nat.add_zero, suffixAt] at h

theorem suffixAt_eq_some_iff :
    suffixAt cs n = some rest ↔ ∃ before, cs = before ++ rest ∧ byteLength before = n := by
  constructor
  · intro h
    fun_induction suffixAt cs n with
    | case1 cs =>
      cases h
      exact ⟨[], rfl, rfl⟩
    | case2 => cases h
    | case3 c cs n hle ih =>
      obtain ⟨before, rfl, hbefore⟩ := ih h
      exact ⟨c :: before, rfl, by rw [byteLength_cons, hbefore]; omega⟩
    | case4 => cases h
  · rintro ⟨before, rfl, rfl⟩
    exact suffixAt_byteLength before rest

/-! ### Reading between two offsets -/

/-- The first `n` bytes of the text, where they are whole characters. -/
def prefixAt : List Char → Nat → Option (List Char)
  | _, 0 => some []
  | [], _ + 1 => none
  | c :: cs, n + 1 =>
    if c.utf8Size ≤ n + 1 then (prefixAt cs (n + 1 - c.utf8Size)).map (c :: ·) else none

/-- What stands between two byte offsets. There is no such text when the offsets are the wrong way round, and
none when one of them lies past the end or inside a character. -/
def slice? (cs : List Char) (start stop : Nat) : Option (List Char) :=
  if start ≤ stop then (suffixAt cs start).bind (prefixAt · (stop - start)) else none

theorem prefixAt_byteLength (piece cs : List Char) :
    prefixAt (piece ++ cs) (byteLength piece) = some piece := by
  induction piece with
  | nil => rw [byteLength_nil, prefixAt]
  | cons c piece ih =>
    have hpos := c.utf8Size_pos
    obtain ⟨m, hm⟩ : ∃ m, c.utf8Size + byteLength piece = m + 1 :=
      ⟨c.utf8Size + byteLength piece - 1, by omega⟩
    rw [List.cons_append, byteLength_cons, hm, prefixAt, if_pos (by omega),
      show m + 1 - c.utf8Size = byteLength piece by omega, ih, Option.map_some]

theorem prefixAt_eq_some_iff :
    prefixAt cs n = some piece ↔ ∃ behind, cs = piece ++ behind ∧ byteLength piece = n := by
  constructor
  · intro h
    fun_induction prefixAt cs n generalizing piece with
    | case1 cs =>
      cases h
      exact ⟨cs, rfl, rfl⟩
    | case2 => cases h
    | case3 c cs n hle ih =>
      obtain ⟨piece, hpiece, rfl⟩ := Option.map_eq_some_iff.1 h
      obtain ⟨behind, rfl, hlength⟩ := ih hpiece
      exact ⟨behind, rfl, by rw [byteLength_cons, hlength]; omega⟩
    | case4 => cases h
  · rintro ⟨behind, rfl, rfl⟩
    exact prefixAt_byteLength piece behind

theorem slice?_eq_some_iff : slice? cs start stop = some piece ↔
    ∃ before behind, cs = before ++ (piece ++ behind) ∧ byteLength before = start ∧
      start + byteLength piece = stop := by
  rw [slice?]
  constructor
  · intro h
    obtain ⟨hle, h⟩ := (Option.ite_none_right_eq_some).1 h
    obtain ⟨rest, hrest, hpiece⟩ := Option.bind_eq_some_iff.1 h
    obtain ⟨before, rfl, rfl⟩ := suffixAt_eq_some_iff.1 hrest
    obtain ⟨behind, rfl, hlength⟩ := prefixAt_eq_some_iff.1 hpiece
    exact ⟨before, behind, rfl, rfl, by omega⟩
  · rintro ⟨before, behind, rfl, rfl, rfl⟩
    rw [if_pos (Nat.le_add_right _ _), suffixAt_byteLength, Option.bind_some, Nat.add_sub_cancel_left,
      prefixAt_byteLength]

/-! ### What is ahead -/

/-- A character begins at the offset, or the text ends there. -/
def Boundary (cs : List Char) (n : Nat) : Prop :=
  ∃ before behind, cs = before ++ behind ∧ byteLength before = n

theorem boundary_iff : Boundary cs n ↔ ∃ rest, suffixAt cs n = some rest := by
  simp only [suffixAt_eq_some_iff]
  exact exists_comm

/-- The character that begins at the offset, if one does. -/
def charAt? (cs : List Char) (n : Nat) : Option Char :=
  (suffixAt cs n).bind List.head?

/-- The text from the offset on, and nothing where no character begins. -/
def ahead (cs : List Char) (n : Nat) : List Char :=
  (suffixAt cs n).getD []

theorem head?_ahead (cs : List Char) (n : Nat) : (ahead cs n).head? = charAt? cs n := by
  rw [ahead, charAt?]
  cases suffixAt cs n <;> rfl

theorem ahead_of_suffixAt (h : suffixAt cs n = some rest) : ahead cs n = rest := by
  rw [ahead, h, Option.getD_some]

theorem suffixAt_of_not_boundary (h : ¬ Boundary cs n) : suffixAt cs n = none :=
  Option.eq_none_iff_forall_ne_some.2 fun rest hrest ↦ h (boundary_iff.2 ⟨rest, hrest⟩)

theorem ahead_of_not_boundary (h : ¬ Boundary cs n) : ahead cs n = [] := by
  rw [ahead, suffixAt_of_not_boundary h, Option.getD_none]

theorem ahead_add (h : ahead cs n = piece ++ rest) : ahead cs (n + byteLength piece) = rest := by
  cases hsuffix : suffixAt cs n with
  | none =>
    -- nothing is ahead, so that the offset stays
    rw [ahead, hsuffix] at h
    obtain ⟨rfl, rfl⟩ := List.append_eq_nil_iff.1 h.symm
    rw [byteLength_nil, Nat.add_zero, ahead, hsuffix, Option.getD_none]
  | some cs' =>
    rw [ahead_of_suffixAt hsuffix] at h
    obtain ⟨before, rfl, rfl⟩ := suffixAt_eq_some_iff.1 hsuffix
    rw [h, ← List.append_assoc, ← byteLength_append]
    exact ahead_of_suffixAt (suffixAt_byteLength _ _)

/-- The offset at which an end of the text begins that is ahead of another offset. -/
def offsetOf (cs : List Char) (n : Nat) (rest : List Char) : Nat :=
  n + (byteLength (ahead cs n) - byteLength rest)

theorem offsetOf_append (h : ahead cs n = piece ++ rest) : offsetOf cs n rest = n + byteLength piece := by
  rw [offsetOf, h, byteLength_append, Nat.add_sub_cancel]

theorem offsetOf_ahead (cs : List Char) (n : Nat) : offsetOf cs n (ahead cs n) = n := by
  rw [offsetOf, Nat.sub_self, Nat.add_zero]

theorem ahead_offsetOf (h : rest <:+ ahead cs n) : ahead cs (offsetOf cs n rest) = rest := by
  obtain ⟨piece, hpiece⟩ := h
  rw [offsetOf_append hpiece.symm, ahead_add hpiece.symm]

theorem offsetOf_offsetOf {later : List Char} (h : rest <:+ ahead cs n) (hlater : later <:+ rest) :
    offsetOf cs (offsetOf cs n rest) later = offsetOf cs n later := by
  obtain ⟨piece, hpiece⟩ := h
  obtain ⟨piece', rfl⟩ := hlater
  rw [offsetOf_append (ahead_offsetOf ⟨piece, hpiece⟩), offsetOf_append hpiece.symm,
    offsetOf_append (hpiece.symm.trans (List.append_assoc _ _ _).symm), byteLength_append, Nat.add_assoc]

/-- The offset stays where it is when nothing is read. -/
theorem offsetOf_eq_iff (h : rest <:+ ahead cs n) : offsetOf cs n rest = n ↔ rest = ahead cs n := by
  refine ⟨fun heq ↦ ?_, fun heq ↦ heq ▸ offsetOf_ahead cs n⟩
  rw [← ahead_offsetOf h, heq]

end Rebuild.Text
