import Mathlib.Logic.Basic
import Mathlib.Tactic.SplitIfs
import Rebuild.Pattern.Compile

/-!
# Reading a pattern in one pass

`Pattern.compile` is two readers that call each other. A `Machine` reads the same text from left to right, one
character after the other, and keeps on a stack what is open: it has the items of the innermost group or
bracket at hand, and on the stack the items before each one that is open. What a character means depends on
the innermost one only.

The readers stop at the end of a group and say what remains, where the machine goes on. So the two are compared
for every stack: what the machine makes of a text is what the reader of the innermost makes of it, and then what
the machine makes of the rest with one item more (`Machine.read_eq`).
-/

namespace Rebuild.Pattern

/-! ### The machine -/

/-- The groups and brackets that are open, the innermost one first, each with the items that were read before
it, last one first. -/
inductive Stack where
  /-- Nothing is open. -/
  | empty
  /-- A parenthesis is open. -/
  | group (before : List Pattern) (around : Stack)
  /-- A square bracket is open. -/
  | bracket (before : List Pattern) (around : Stack)

/-- Whether a square bracket is innermost. -/
def Stack.isBracket : Stack → Bool
  | .bracket _ _ => true
  | _ => false

/-- The pattern when everything that is open is closed, where `items` are those of the innermost. -/
def Stack.close : Stack → List Pattern → Pattern
  | .empty, items => ofParts items.reverse
  | .group before around, items => around.close (ofParts items.reverse :: before)
  | .bracket before around, items => around.close (ofBranches items.reverse :: before)

/-- An item behind which a modifier stands. -/
def modified (modifier : Char) (item : Pattern) : Pattern :=
  if modifier = '*' then .many item else .optional item

/-- What is known behind a beginning of a text. -/
structure Machine where
  /-- The items of the innermost group or bracket, last one first. -/
  items : List Pattern := []
  /-- What is open. -/
  opened : Stack := .empty
  /-- Whether the next character is taken as it is. -/
  escaped : Bool := false

namespace Machine

/-- A character of a sequence that neither opens nor closes anything. -/
def stepInSequence (m : Machine) (c : Char) (offset : Nat) : Except PatternError Machine :=
  if c = '*' ∨ c = '?' then
    match m.items with
    | [] => .error (.danglingModifier c offset)
    | last :: items => .ok { m with items := modified c last :: items }
  else .ok { m with items := ofChar c :: m.items }

/-- The next character. -/
def step (m : Machine) : Char × Nat → Except PatternError Machine
  | (c, offset) =>
    if m.escaped then .ok { m with items := .char c :: m.items, escaped := false }
    else if c = '\\' then .ok { m with escaped := true }
    else if c = '(' then .ok { items := [], opened := .group m.items m.opened }
    else if c = '[' then .ok { items := [], opened := .bracket m.items m.opened }
    else match m.opened with
      | .bracket before around =>
        if c = ']' then .ok { items := ofBranches m.items.reverse :: before, opened := around }
        else .ok { m with items := ofChar c :: m.items }
      | .group before around =>
        if c = ')' then .ok { items := ofParts m.items.reverse :: before, opened := around }
        else m.stepInSequence c offset
      | .empty =>
        if c = ')' then .error (.unmatchedClose offset) else m.stepInSequence c offset

/-- Characters one after the other. -/
def run (m : Machine) (cs : Remaining) : Except PatternError Machine :=
  cs.foldlM step m

/-- The end of the text. -/
def finish (m : Machine) : Except PatternError Pattern :=
  if m.escaped then .error .trailingEscape else .ok (m.opened.close m.items)

/-- All that is left of the text. -/
def read (m : Machine) (cs : Remaining) : Except PatternError Pattern :=
  m.run cs >>= finish

end Machine

/-- The pattern that the machine finds in a text. -/
def scan (cs : List Char) : Except PatternError Pattern :=
  Machine.read {} cs.zipIdx

theorem bind_eq_ok_iff {ε α β : Type} {first : Except ε α} {next : α → Except ε β} {b : β} :
    first >>= next = .ok b ↔ ∃ a, first = .ok a ∧ next a = .ok b := by
  constructor
  · intro h
    cases first with
    | error e => cases h
    | ok a => exact ⟨a, rfl, h⟩
  · rintro ⟨a, rfl, h⟩
    exact h

namespace Machine

variable {m m' : Machine} {c : Char} {n : Nat} {e : PatternError}

theorem run_cons (m : Machine) (next : Char × Nat) (cs : Remaining) :
    m.run (next :: cs) = m.step next >>= (·.run cs) :=
  List.foldlM_cons

theorem run_append (m : Machine) (cs others : Remaining) :
    m.run (cs ++ others) = m.run cs >>= (·.run others) :=
  List.foldlM_append

theorem read_cons (m : Machine) (next : Char × Nat) (cs : Remaining) :
    m.read (next :: cs) = m.step next >>= (·.read cs) := by
  simp only [read, run_cons, bind_assoc]

theorem step_escape (h : m.escaped = false) (n : Nat) : m.step ('\\', n) = .ok { m with escaped := true } := by
  simp [step, h]

theorem step_group (h : m.escaped = false) (n : Nat) :
    m.step ('(', n) = .ok { items := [], opened := .group m.items m.opened } := by
  simp [step, h]

theorem step_bracket (h : m.escaped = false) (n : Nat) :
    m.step ('[', n) = .ok { items := [], opened := .bracket m.items m.opened } := by
  simp [step, h]

end Machine

/-! ### The readers -/

/-- An answer without the bound on what remains. -/
def Reading.bare {before : Remaining} (reading : Reading before) : Except PatternError (Pattern × Remaining) :=
  reading.map fun (p, after) ↦ (p, after.1)

@[simp]
theorem Reading.bare_widen {inner outer : Remaining} (h : inner.length ≤ outer.length)
    (reading : Reading inner) : (reading.widen h).bare = reading.bare := by
  cases reading <;> rfl

theorem bare_readSequence_cons (group : Bool) (parts : List Pattern) (c : Char) (n : Nat) (cs : Remaining) :
    (readSequence group parts ((c, n) :: cs)).bare =
      if c = ')' then
        if group then .ok (ofParts parts.reverse, cs) else .error (.unmatchedClose n)
      else if c = '*' ∨ c = '?' then
        match parts with
        | [] => .error (.danglingModifier c n)
        | last :: parts => (readSequence group (modified c last :: parts) cs).bare
      else if c = '(' then
        (readSequence true [] cs).bare >>= fun (p, after) ↦ (readSequence group (p :: parts) after).bare
      else if c = '[' then
        (readChoice [] cs).bare >>= fun (p, after) ↦ (readSequence group (p :: parts) after).bare
      else if c = '\\' then
        match cs with
        | [] => .error .trailingEscape
        | (escaped, _) :: cs => (readSequence group (.char escaped :: parts) cs).bare
      else (readSequence group (ofChar c :: parts) cs).bare := by
  rw [readSequence.eq_def]
  simp only [apply_ite Reading.bare, Reading.bare_widen]
  refine if_congr Iff.rfl rfl (if_congr Iff.rfl ?modifier (if_congr Iff.rfl ?inGroup
    (if_congr Iff.rfl ?inBracket (if_congr Iff.rfl ?escape rfl))))
  case modifier =>
    cases parts with
    | nil => rfl
    | cons last parts => exact Reading.bare_widen _ _
  case inGroup =>
    cases readSequence true [] cs with
    | error e => rfl
    | ok p => exact Reading.bare_widen _ _
  case inBracket =>
    cases readChoice [] cs with
    | error e => rfl
    | ok p => exact Reading.bare_widen _ _
  case escape =>
    cases cs with
    | nil => rfl
    | cons c cs => exact Reading.bare_widen _ _

theorem bare_readChoice_cons (branches : List Pattern) (c : Char) (n : Nat) (cs : Remaining) :
    (readChoice branches ((c, n) :: cs)).bare =
      if c = ']' then .ok (ofBranches branches.reverse, cs)
      else if c = '(' then
        (readSequence true [] cs).bare >>= fun (p, after) ↦ (readChoice (p :: branches) after).bare
      else if c = '[' then
        (readChoice [] cs).bare >>= fun (p, after) ↦ (readChoice (p :: branches) after).bare
      else if c = '\\' then
        match cs with
        | [] => .error .trailingEscape
        | (escaped, _) :: cs => (readChoice (.char escaped :: branches) cs).bare
      else (readChoice (ofChar c :: branches) cs).bare := by
  rw [readChoice.eq_def]
  simp only [apply_ite Reading.bare, Reading.bare_widen]
  refine if_congr Iff.rfl rfl (if_congr Iff.rfl ?inGroup (if_congr Iff.rfl ?inBracket
    (if_congr Iff.rfl ?escape rfl)))
  case inGroup =>
    cases readSequence true [] cs with
    | error e => rfl
    | ok p => exact Reading.bare_widen _ _
  case inBracket =>
    cases readChoice [] cs with
    | error e => rfl
    | ok p => exact Reading.bare_widen _ _
  case escape =>
    cases cs with
    | nil => rfl
    | cons c cs => exact Reading.bare_widen _ _

namespace Stack

/-- What the reader of the innermost group or bracket makes of a text. -/
def readInnermost (opened : Stack) (items : List Pattern) (cs : Remaining) :
    Except PatternError (Pattern × Remaining) :=
  match opened with
  | .empty => (readSequence false items cs).bare
  | .group _ _ => (readSequence true items cs).bare
  | .bracket _ _ => (readChoice items cs).bare

/-- What the machine makes of the rest when the innermost is closed. -/
def resume : Stack → Pattern × Remaining → Except PatternError Pattern
  | .empty, (p, _) => .ok p
  | .group before around, (p, after) => Machine.read { items := p :: before, opened := around } after
  | .bracket before around, (p, after) => Machine.read { items := p :: before, opened := around } after

variable (opened : Stack) (items : List Pattern) (cs : Remaining) (n : Nat)

theorem readInnermost_group : opened.readInnermost items (('(', n) :: cs) =
    (readSequence true [] cs).bare >>= fun (p, after) ↦ opened.readInnermost (p :: items) after := by
  cases opened <;> simp [readInnermost, bare_readSequence_cons, bare_readChoice_cons]

theorem readInnermost_bracket : opened.readInnermost items (('[', n) :: cs) =
    (readChoice [] cs).bare >>= fun (p, after) ↦ opened.readInnermost (p :: items) after := by
  cases opened <;> simp [readInnermost, bare_readSequence_cons, bare_readChoice_cons]

theorem readInnermost_escape : opened.readInnermost items (('\\', n) :: cs) =
    match cs with
    | [] => .error .trailingEscape
    | (escaped, _) :: cs => opened.readInnermost (.char escaped :: items) cs := by
  cases opened <;> simp [readInnermost, bare_readSequence_cons, bare_readChoice_cons]

end Stack

/-- Behind a character that is no backslash and opens nothing, the machine finds what the readers find if it
does so behind every item. -/
theorem Machine.read_cons_of_plain {opened : Stack} {items : List Pattern} {c : Char} {n : Nat}
    {cs : Remaining} (hescape : c ≠ '\\') (hgroup : c ≠ '(') (hbracket : c ≠ '[')
    (hrest : ∀ items, read { items, opened } cs = opened.readInnermost items cs >>= opened.resume) :
    (step { items, opened } (c, n) >>= (·.read cs)) =
      opened.readInnermost items ((c, n) :: cs) >>= opened.resume := by
  -- the innermost tells what the character is: a sequence has modifiers, a choice has not
  have hsequence (group : Bool) (hclose : c ≠ ')')
      (hopened : ∀ items cs, opened.readInnermost items cs = (readSequence group items cs).bare) :
      (stepInSequence { items, opened } c n >>= (·.read cs)) =
        opened.readInnermost items ((c, n) :: cs) >>= opened.resume := by
    rw [hopened, bare_readSequence_cons, if_neg hclose, if_neg hgroup, if_neg hbracket, if_neg hescape,
      stepInSequence]
    simp only [← hopened]
    split
    · cases items with
      | nil => rfl
      | cons last items => exact hrest _
    · exact hrest _
  cases opened with
  | empty =>
    by_cases hclose : c = ')'
    · subst hclose
      simp only [Stack.readInnermost, bare_readSequence_cons]
      rfl
    · simpa [step, hescape, hgroup, hbracket, hclose] using hsequence false hclose fun _ _ ↦ rfl
  | group before around =>
    by_cases hclose : c = ')'
    · subst hclose
      simp only [Stack.readInnermost, bare_readSequence_cons]
      rfl
    · simpa [step, hescape, hgroup, hbracket, hclose] using hsequence true hclose fun _ _ ↦ rfl
  | bracket before around =>
    by_cases hclose : c = ']'
    · subst hclose
      simp only [Stack.readInnermost, bare_readChoice_cons]
      rfl
    · have hstep : step { items, opened := .bracket before around } (c, n) =
          .ok { items := ofChar c :: items, opened := .bracket before around } := by
        simp [step, hescape, hgroup, hbracket, hclose]
      rw [hstep, Stack.readInnermost, bare_readChoice_cons, if_neg hclose, if_neg hgroup, if_neg hbracket,
        if_neg hescape]
      exact hrest _

/-- What the machine makes of a text is what the reader of the innermost makes of it, and then what the machine
makes of the rest. -/
theorem Machine.read_eq (opened : Stack) (items : List Pattern) (cs : Remaining) :
    read { items, opened } cs = opened.readInnermost items cs >>= opened.resume := by
  -- the induction is on what is left, which is less behind a group that is opened and closed
  induction hlength : cs.length using Nat.strongRecOn generalizing opened items cs with
  | ind length ih =>
  subst hlength
  cases cs with
  | nil =>
    rw [read, run, List.foldlM_nil, pure_bind, finish]
    cases opened <;> simp [Stack.readInnermost, readSequence, readChoice, Stack.close] <;> rfl
  | cons next cs =>
    obtain ⟨c, n⟩ := next
    have hrest (items : List Pattern) :
        read { items, opened } cs = opened.readInnermost items cs >>= opened.resume :=
      ih _ (Nat.lt_succ_self _) _ _ _ rfl
    have hinner (reading : Reading cs) :
        (reading.bare >>= fun (p, after) ↦ read { items := p :: items, opened } after) =
          (reading.bare >>= fun (p, after) ↦ opened.readInnermost (p :: items) after) >>= opened.resume := by
      cases reading with
      | error e => rfl
      | ok answer =>
        obtain ⟨p, after, hafter⟩ := answer
        exact ih _ (Nat.lt_succ_of_le hafter) _ _ _ rfl
    rw [read_cons]
    by_cases hescape : c = '\\'
    · subst hescape
      rw [step_escape rfl, Stack.readInnermost_escape]
      cases cs with
      | nil => rfl
      | cons next cs => exact ih _ (Nat.lt_succ_of_lt (Nat.lt_succ_self _)) _ _ _ rfl
    by_cases hgroup : c = '('
    · subst hgroup
      rw [step_group rfl, Stack.readInnermost_group, ← hinner]
      exact ih _ (Nat.lt_succ_self _) _ _ _ rfl
    by_cases hbracket : c = '['
    · subst hbracket
      rw [step_bracket rfl, Stack.readInnermost_bracket, ← hinner]
      exact ih _ (Nat.lt_succ_self _) _ _ _ rfl
    exact read_cons_of_plain hescape hgroup hbracket hrest

/-- The machine finds the pattern that the readers find. -/
theorem compile_eq (cs : List Char) : compile cs = scan cs := by
  rw [scan, Machine.read_eq, compile, Stack.readInnermost, Reading.bare]
  cases readSequence false [] cs.zipIdx <;> rfl

/-! ### What is refused -/

namespace Machine

variable {m m' : Machine} {cs : List Char} {c : Char} {n : Nat} {e : PatternError}

/-- A character cannot stand where it does. -/
inductive Refuses (m : Machine) : Char → Nat → PatternError → Prop
  /-- In a sequence a modifier has to have an item before it. -/
  | modifier {c : Char} {n : Nat} (hescaped : m.escaped = false)
    (hopened : m.opened.isBracket = false) (hitems : m.items = [])
    (hc : c = '*' ∨ c = '?') : Refuses m c n (.danglingModifier c n)
  /-- Outside of groups and brackets there is no parenthesis to close. -/
  | close {n : Nat} (hescaped : m.escaped = false) (hopened : m.opened = .empty) :
    Refuses m ')' n (.unmatchedClose n)

theorem Refuses.step_eq (h : m.Refuses c n e) : m.step (c, n) = .error e := by
  cases h with
  | modifier hescaped hopened hitems hc =>
    cases hstack : m.opened with
    | bracket => exact absurd (hstack ▸ hopened) Bool.noConfusion
    | empty | group => rcases hc with rfl | rfl <;> simp [step, stepInSequence, hescaped, hstack, hitems]
  | close hescaped hopened => simp [step, hescaped, hopened]

theorem refuses_of_stepInSequence (hescaped : m.escaped = false)
    (hopened : m.opened.isBracket = false) (h : m.stepInSequence c n = .error e) :
    m.Refuses c n e := by
  rw [stepInSequence] at h
  split at h
  case isTrue hc =>
    split at h
    case h_1 hitems =>
      cases h
      exact .modifier hescaped hopened hitems hc
    case h_2 => cases h
  case isFalse => cases h

theorem step_eq_error_iff : m.step (c, n) = .error e ↔ m.Refuses c n e := by
  refine ⟨fun h ↦ ?_, Refuses.step_eq⟩
  -- directly in a bracket every character can stand
  cases hopened : m.opened with
  | bracket before around =>
    simp only [step, hopened] at h
    split_ifs at h
  | group before around =>
    simp only [step, hopened] at h
    split_ifs at h with hescaped
    exact refuses_of_stepInSequence (Bool.eq_false_iff.2 hescaped) (by rw [hopened]; rfl) h
  | empty =>
    simp only [step, hopened] at h
    split_ifs at h with hescaped _ _ _ hclose
    · cases h
      subst hclose
      exact .close (Bool.eq_false_iff.2 hescaped) hopened
    · exact refuses_of_stepInSequence (Bool.eq_false_iff.2 hescaped) (by rw [hopened]; rfl) h

/-- Reading fails at the first character that is refused. -/
theorem run_eq_error_iff : m.run (cs.zipIdx n) = .error e ↔ ∃ before c behind m',
    cs = before ++ c :: behind ∧ m.run (before.zipIdx n) = .ok m' ∧ m'.Refuses c (n + before.length) e := by
  constructor
  · intro h
    -- for every machine and offset, since both are others behind the first character
    induction cs generalizing m n with
    | nil => cases h
    | cons c cs ih =>
      rw [List.zipIdx_cons, run_cons] at h
      cases hstep : m.step (c, n) with
      | error e' =>
        rw [hstep] at h
        cases h
        exact ⟨[], c, cs, m, rfl, rfl, step_eq_error_iff.1 hstep⟩
      | ok next =>
        rw [hstep] at h
        obtain ⟨before, c', behind, m', rfl, hrun, hrefuses⟩ := ih h
        refine ⟨c :: before, c', behind, m', rfl, ?_, ?_⟩
        · rw [List.zipIdx_cons, run_cons, hstep]
          exact hrun
        · rwa [List.length_cons, Nat.add_comm before.length, ← Nat.add_assoc]
  · rintro ⟨before, c, behind, m', rfl, hrun, hrefuses⟩
    rw [List.zipIdx_append, run_append, hrun, List.zipIdx_cons]
    show m'.run _ = _
    rw [run_cons, hrefuses.step_eq]
    rfl

/-- What a character can make of the machine. -/
inductive Next (m : Machine) : Char → Machine → Prop
  /-- Behind a backslash every character is an item. -/
  | taken {c : Char} (hescaped : m.escaped = true) :
    Next m c { m with items := .char c :: m.items, escaped := false }
  /-- A backslash waits for the next character. -/
  | escape (hescaped : m.escaped = false) : Next m '\\' { m with escaped := true }
  /-- A group begins. -/
  | openGroup (hescaped : m.escaped = false) : Next m '(' { items := [], opened := .group m.items m.opened }
  /-- A choice begins. -/
  | openBracket (hescaped : m.escaped = false) : Next m '[' { items := [], opened := .bracket m.items m.opened }
  /-- A group becomes an item of what is around it. -/
  | closeGroup {before : List Pattern} {around : Stack} (hescaped : m.escaped = false)
    (hopened : m.opened = .group before around) :
    Next m ')' { items := ofParts m.items.reverse :: before, opened := around }
  /-- A choice becomes an item of what is around it. -/
  | closeBracket {before : List Pattern} {around : Stack} (hescaped : m.escaped = false)
    (hopened : m.opened = .bracket before around) :
    Next m ']' { items := ofBranches m.items.reverse :: before, opened := around }
  /-- The last item is modified. -/
  | modifier {c : Char} {last : Pattern} {items : List Pattern} (hescaped : m.escaped = false)
    (hc : c = '*' ∨ c = '?') (hitems : m.items = last :: items) :
    Next m c { m with items := modified c last :: items }
  /-- Any other character is an item. -/
  | plain {c : Char} (hescaped : m.escaped = false) (hc : c ≠ '\\') :
    Next m c { m with items := ofChar c :: m.items }

theorem next_of_stepInSequence (hescaped : m.escaped = false) (hc : c ≠ '\\')
    (h : m.stepInSequence c n = .ok m') : m.Next c m' := by
  rw [stepInSequence] at h
  split_ifs at h with hmodifier
  · split at h
    case h_1 => cases h
    case h_2 hitems =>
      cases h
      exact .modifier hescaped hmodifier hitems
  · cases h
    exact .plain hescaped hc

theorem next_of_step (h : m.step (c, n) = .ok m') : m.Next c m' := by
  cases hescaped : m.escaped with
  | true =>
    rw [step, if_pos hescaped] at h
    cases h
    exact .taken hescaped
  | false =>
    by_cases hescape : c = '\\'
    · subst hescape
      cases (step_escape hescaped n).symm.trans h
      exact .escape hescaped
    by_cases hgroup : c = '('
    · subst hgroup
      cases (step_group hescaped n).symm.trans h
      exact .openGroup hescaped
    by_cases hbracket : c = '['
    · subst hbracket
      cases (step_bracket hescaped n).symm.trans h
      exact .openBracket hescaped
    simp only [step, hescaped, hescape, hgroup, hbracket, Bool.false_eq_true, if_false] at h
    split at h
    case h_1 before around hopened =>
      split_ifs at h with hclose
      · cases h
        subst hclose
        exact .closeBracket hescaped hopened
      · cases h
        exact hescaped ▸ .plain hescaped hescape
    case h_2 before around hopened =>
      split_ifs at h with hclose
      · cases h
        subst hclose
        exact .closeGroup hescaped hopened
      · exact next_of_stepInSequence hescaped hescape h
    case h_3 =>
      split_ifs at h
      exact next_of_stepInSequence hescaped hescape h

/-- The next character is taken as it is only behind a backslash that is not. -/
theorem exists_escaped_iff : (∃ m', run {} cs.zipIdx = .ok m' ∧ m'.escaped = true) ↔
    ∃ before m, cs = before ++ ['\\'] ∧ run {} before.zipIdx = .ok m ∧ m.escaped = false := by
  constructor
  · rintro ⟨m', hrun, hescaped⟩
    rcases List.eq_nil_or_concat cs with rfl | ⟨before, c, rfl⟩
    · cases hrun
      cases hescaped
    · rw [List.concat_eq_append, List.zipIdx_append, run_append, bind_eq_ok_iff] at hrun
      obtain ⟨m, hbefore, hlast⟩ := hrun
      have hstep : m.step (c, 0 + before.length) = .ok m' := (bind_pure _).symm.trans hlast
      -- every other step leaves nothing to be taken as it is
      cases next_of_step hstep with
      | escape hm => exact ⟨before, m, List.concat_eq_append, hbefore, hm⟩
      | taken | openGroup | openBracket | closeGroup | closeBracket => cases hescaped
      | modifier hm | plain hm => exact absurd (hm.symm.trans hescaped) Bool.false_ne_true
  · rintro ⟨before, m, rfl, hrun, hm⟩
    refine ⟨{ m with escaped := true }, ?_, rfl⟩
    rw [List.zipIdx_append, run_append]
    exact bind_eq_ok_iff.2 ⟨m, hrun, (bind_pure _).trans (step_escape hm _)⟩

end Machine

/-- The readers find what the machine finds, and they fail in two cases only: with the error of the first
character that is refused, or where the text ends in a backslash that is not itself behind one. -/
theorem compile_eq_scan (cs : List Char) :
    compile cs = scan cs ∧ ∀ e, compile cs = .error e ↔
      (∃ before c behind m, cs = before ++ c :: behind ∧ Machine.run {} before.zipIdx = .ok m ∧
        m.Refuses c before.length e) ∨
      e = .trailingEscape ∧ ∃ before m, cs = before ++ ['\\'] ∧ Machine.run {} before.zipIdx = .ok m ∧
        m.escaped = false := by
  refine ⟨compile_eq cs, fun e ↦ ?_⟩
  have hrefused := @Machine.run_eq_error_iff {} cs 0 e
  simp only [Nat.zero_add] at hrefused
  rw [compile_eq, scan, Machine.read, ← hrefused, ← Machine.exists_escaped_iff]
  cases hrun : Machine.run {} cs.zipIdx with
  | error e' =>
    show Except.error e' = .error e ↔ _
    simp
  | ok m =>
    show m.finish = .error e ↔ _
    rw [Machine.finish]
    cases hescaped : m.escaped with
    | false => simp [hescaped]
    | true => simp [hescaped, eq_comm (a := e)]

/-- A group in a choice in which the closing bracket is a character, and both are closed at the end. -/
example : scan "[a(b*]c?".toList =
    .ok (.choice [.char 'a', .sequence [.many (.char 'b'), .char ']', .optional (.char 'c')]]) :=
  rfl

end Rebuild.Pattern
