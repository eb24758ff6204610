import Rebuild.Proofs.Lexing.Remainder
import Rebuild.Proofs.Pattern.OnePass

/-!
# Patterns that have a text

A pattern is normal if it is built from single characters and the three classes and if no sequence or choice in
it has exactly one member. The machine builds nothing else (`normal_of_compile`). Conversely a normal pattern can
be written down (`written`): read anywhere but directly in a bracket its text adds the pattern as one item
(`Normal.reads`), and directly in a bracket it does so too unless a modifier stands at its end, which is why such
a branch is written in a group.
-/

namespace Rebuild.Pattern

/-! ### Normal patterns -/

/-- Built from characters and classes, with no sequence and no choice of exactly one member. -/
inductive Normal : Pattern → Prop
  /-- A single character. -/
  | char (c : Char) : Normal (.char c)
  /-- Any letter. -/
  | letter : Normal letter
  /-- Any digit. -/
  | digit : Normal digit
  /-- Any printable character. -/
  | printable : Normal printable
  /-- A choice of none or of several. -/
  | choice {branches : List Pattern} (hcount : branches.length ≠ 1) (h : ∀ p ∈ branches, Normal p) :
    Normal (.choice branches)
  /-- A sequence of none or of several. -/
  | sequence {parts : List Pattern} (hcount : parts.length ≠ 1) (h : ∀ p ∈ parts, Normal p) :
    Normal (.sequence parts)
  /-- A repetition. -/
  | many {body : Pattern} (h : Normal body) : Normal (.many body)
  /-- An option. -/
  | optional {body : Pattern} (h : Normal body) : Normal (.optional body)

theorem normal_ofChar (c : Char) : Normal (ofChar c) := by
  unfold ofChar
  split
  · exact .letter
  · exact .digit
  · exact .printable
  · exact .char c

theorem ofParts_of_length_ne {parts : List Pattern} (h : parts.length ≠ 1) :
    ofParts parts = .sequence parts := by
  rw [ofParts]
  rintro part rfl
  exact h rfl

theorem ofBranches_of_length_ne {branches : List Pattern} (h : branches.length ≠ 1) :
    ofBranches branches = .choice branches := by
  rw [ofBranches]
  rintro branch rfl
  exact h rfl

theorem normal_ofParts {parts : List Pattern} (h : ∀ p ∈ parts, Normal p) : Normal (ofParts parts) := by
  by_cases hcount : parts.length = 1
  · obtain ⟨part, rfl⟩ := List.length_eq_one_iff.1 hcount
    exact h part (.head _)
  · rw [ofParts_of_length_ne hcount]
    exact .sequence hcount h

theorem normal_ofBranches {branches : List Pattern} (h : ∀ p ∈ branches, Normal p) :
    Normal (ofBranches branches) := by
  by_cases hcount : branches.length = 1
  · obtain ⟨branch, rfl⟩ := List.length_eq_one_iff.1 hcount
    exact h branch (.head _)
  · rw [ofBranches_of_length_ne hcount]
    exact .choice hcount h

theorem normal_modified {p : Pattern} (h : Normal p) (c : Char) : Normal (modified c p) := by
  rw [modified]
  split
  · exact .many h
  · exact .optional h

/-! ### What the machine builds -/

/-- All items of the groups and brackets that are open are normal. -/
def Stack.Normal : Stack → Prop
  | .empty => True
  | .group before around => (∀ p ∈ before, Pattern.Normal p) ∧ around.Normal
  | .bracket before around => (∀ p ∈ before, Pattern.Normal p) ∧ around.Normal

theorem Stack.Normal.close {opened : Stack} (h : opened.Normal) {items : List Pattern}
    (hitems : ∀ p ∈ items, Pattern.Normal p) : Pattern.Normal (opened.close items) := by
  induction opened generalizing items with
  | empty => exact normal_ofParts fun p hp ↦ hitems p (List.mem_reverse.1 hp)
  | group before around ih =>
    exact ih h.2 (List.forall_mem_cons.2 ⟨normal_ofParts fun p hp ↦ hitems p (List.mem_reverse.1 hp), h.1⟩)
  | bracket before around ih =>
    exact ih h.2 (List.forall_mem_cons.2 ⟨normal_ofBranches fun p hp ↦ hitems p (List.mem_reverse.1 hp), h.1⟩)

namespace Machine

/-- All items are normal, those that wait included. -/
structure Normal (m : Machine) : Prop where
  /-- The items of the innermost group or bracket are normal. -/
  items : ∀ p ∈ m.items, Pattern.Normal p
  /-- And so are those before it. -/
  opened : m.opened.Normal

variable {m m' : Machine} {c : Char}

theorem Normal.next (h : m.Normal) (hnext : m.Next c m') : m'.Normal := by
  have hpush {p : Pattern} (hp : Pattern.Normal p) : ∀ q ∈ p :: m.items, Pattern.Normal q :=
    List.forall_mem_cons.2 ⟨hp, h.items⟩
  have hread : ∀ p ∈ m.items.reverse, Pattern.Normal p := fun p hp ↦ h.items p (List.mem_reverse.1 hp)
  cases hnext with
  | taken => exact ⟨hpush (.char c), h.opened⟩
  | escape => exact ⟨h.items, h.opened⟩
  | openGroup | openBracket => exact ⟨fun p hp ↦ (List.not_mem_nil hp).elim, h.items, h.opened⟩
  | closeGroup _ hopened =>
    obtain ⟨hbefore, haround⟩ : (Stack.group _ _).Normal := hopened ▸ h.opened
    exact ⟨List.forall_mem_cons.2 ⟨normal_ofParts hread, hbefore⟩, haround⟩
  | closeBracket _ hopened =>
    obtain ⟨hbefore, haround⟩ : (Stack.bracket _ _).Normal := hopened ▸ h.opened
    exact ⟨List.forall_mem_cons.2 ⟨normal_ofBranches hread, hbefore⟩, haround⟩
  | modifier _ _ hitems =>
    obtain ⟨hlast, hitems⟩ := List.forall_mem_cons.1 (hitems ▸ h.items)
    exact ⟨List.forall_mem_cons.2 ⟨normal_modified hlast c, hitems⟩, h.opened⟩
  | plain => exact ⟨hpush (normal_ofChar c), h.opened⟩

theorem Normal.run {cs : Remaining} (h : m.Normal) (hrun : m.run cs = .ok m') : m'.Normal := by
  induction cs generalizing m with
  | nil =>
    cases hrun
    exact h
  | cons next cs ih =>
    rw [run_cons, bind_eq_ok_iff] at hrun
    obtain ⟨m'', hstep, hrest⟩ := hrun
    exact ih (h.next (next_of_step hstep)) hrest

end Machine

theorem normal_of_compile {cs : List Char} {p : Pattern} (h : compile cs = .ok p) : Normal p := by
  rw [compile_eq, scan, Machine.read, bind_eq_ok_iff] at h
  obtain ⟨m, hrun, hfinish⟩ := h
  have hstart : Machine.Normal {} := ⟨fun p hp ↦ (List.not_mem_nil hp).elim, trivial⟩
  have hm := hstart.run hrun
  rw [Machine.finish] at hfinish
  split at hfinish
  case isTrue => cases hfinish
  case isFalse =>
    cases hfinish
    exact hm.opened.close hm.items

/-! ### Writing a pattern -/

/-- Whether the branches are those of a letter. -/
def areLetters : List Pattern → Bool
  | [.range 'a' 'z', .range 'A' 'Z'] => true
  | _ => false

/-- Whether a modifier stands at the end of the pattern's text. -/
def isModified : Pattern → Bool
  | .many _ => true
  | .optional _ => true
  | _ => false

mutual

/-- The text of a normal pattern. Every character is escaped, and every group and bracket is closed. -/
def written : Pattern → List Char
  | .char c => ['\\', c]
  | .range least _ => if least = '0' then ['#'] else ['~']
  | .choice branches => if areLetters branches then ['@'] else '[' :: writtenBranches branches ++ [']']
  | .sequence parts => '(' :: writtenParts parts ++ [')']
  | .many body => written body ++ ['*']
  | .optional body => written body ++ ['?']

/-- The texts of branches. A branch with a modifier is put in a group. -/
def writtenBranches : List Pattern → List Char
  | [] => []
  | branch :: branches =>
    (if isModified branch then '(' :: written branch ++ [')'] else written branch) ++ writtenBranches branches

/-- The texts of parts. -/
def writtenParts : List Pattern → List Char
  | [] => []
  | part :: parts => written part ++ writtenParts parts

end

namespace Machine

/-- The machine takes a text, wherever the text stands. -/
def Reads (m : Machine) (cs : List Char) (m' : Machine) : Prop :=
  ∀ n, m.run (cs.zipIdx n) = .ok m'

variable {m m' m'' : Machine} {c : Char} {cs others : List Char}

theorem Reads.nil (m : Machine) : m.Reads [] m :=
  fun _ ↦ rfl

theorem Reads.cons (hstep : ∀ n, m.step (c, n) = .ok m') (h : m'.Reads cs m'') : m.Reads (c :: cs) m'' := by
  intro n
  rw [List.zipIdx_cons, run_cons, hstep]
  exact h _

theorem Reads.append (h : m.Reads cs m') (hothers : m'.Reads others m'') : m.Reads (cs ++ others) m'' := by
  intro n
  rw [List.zipIdx_append, run_append, h]
  exact hothers _

theorem Reads.compile (h : Reads {} cs m) (hescaped : m.escaped = false) :
    compile cs = .ok (m.opened.close m.items) := by
  rw [compile_eq, scan, read, h]
  show m.finish = _
  rw [finish, hescaped]
  rfl

end Machine

section Reads

open Machine (Reads)

variable {items parts : List Pattern} {opened : Stack} {p : Pattern} {cs : List Char}

theorem reads_group (h : Reads { opened := .group items opened } cs
      { items := parts.reverse, opened := .group items opened }) :
    Reads { items, opened } ('(' :: cs ++ [')']) { items := ofParts parts :: items, opened } := by
  refine .append (.cons (Machine.step_group rfl) h) (.cons (fun n ↦ ?_) (.nil _))
  simp [Machine.step]

theorem reads_bracket (h : Reads { opened := .bracket items opened } cs
      { items := parts.reverse, opened := .bracket items opened }) :
    Reads { items, opened } ('[' :: cs ++ [']']) { items := ofBranches parts :: items, opened } := by
  refine .append (.cons (Machine.step_bracket rfl) h) (.cons (fun n ↦ ?_) (.nil _))
  simp [Machine.step]

theorem reads_escaped (items : List Pattern) (opened : Stack) (c : Char) :
    Reads { items, opened } ['\\', c] { items := .char c :: items, opened } :=
  .cons (Machine.step_escape rfl) (.cons (fun _ ↦ rfl) (.nil _))

/-- A class means the same everywhere. -/
theorem reads_class (items : List Pattern) (opened : Stack) {c : Char} (hc : c ∈ ['@', '#', '~']) :
    Reads { items, opened } [c] { items := ofChar c :: items, opened } := by
  refine .cons (fun n ↦ ?_) (.nil _)
  simp only [List.mem_cons, List.not_mem_nil, or_false] at hc
  rcases hc with rfl | rfl | rfl <;> cases opened <;> rfl

theorem reads_modifier (hopened : opened.isBracket = false) {c : Char} (hc : c = '*' ∨ c = '?')
    (h : Reads { items, opened } cs { items := p :: items, opened }) :
    Reads { items, opened } (cs ++ [c]) { items := modified c p :: items, opened } := by
  refine h.append (.cons (fun n ↦ ?_) (.nil _))
  cases opened with
  | bracket => cases hopened
  | empty | group => rcases hc with rfl | rfl <;> rfl

/-- Texts of which each adds its item add all of them. -/
theorem reads_flatMap {text : Pattern → List Char}
    (h : ∀ p ∈ parts, ∀ items, Reads { items, opened } (text p) { items := p :: items, opened })
    (items : List Pattern) :
    Reads { items, opened } (parts.flatMap text) { items := parts.reverse ++ items, opened } := by
  induction parts generalizing items with
  | nil => exact .nil _
  | cons p parts ih =>
    obtain ⟨hp, hparts⟩ := List.forall_mem_cons.1 h
    rw [List.flatMap_cons, List.reverse_cons, List.append_assoc]
    exact (hp items).append (ih hparts (p :: items))

end Reads

/-- The text of a pattern as a branch of a choice. -/
def writtenBranch (p : Pattern) : List Char :=
  if isModified p then '(' :: written p ++ [')'] else written p

/-- As a branch a pattern adds itself everywhere. -/
theorem reads_writtenBranch {p : Pattern} (h : ∀ {opened : Stack},
      opened.isBracket = false ∨ isModified p = false → ∀ items : List Pattern,
        Machine.Reads { items, opened } (written p) { items := p :: items, opened })
    (items : List Pattern) (opened : Stack) :
    Machine.Reads { items, opened } (writtenBranch p) { items := p :: items, opened } := by
  rw [writtenBranch]
  cases hmodified : isModified p with
  | true =>
    have hinside : Machine.Reads { opened := .group items opened } (written p)
        { items := [p].reverse, opened := .group items opened } := h (.inl rfl) []
    exact reads_group hinside
  | false => exact h (.inr hmodified) items

theorem writtenParts_eq (parts : List Pattern) : writtenParts parts = parts.flatMap written := by
  induction parts with
  | nil => rfl
  | cons p parts ih => rw [writtenParts, ih, List.flatMap_cons]

theorem writtenBranches_eq (branches : List Pattern) :
    writtenBranches branches = branches.flatMap writtenBranch := by
  induction branches with
  | nil => rfl
  | cons p branches ih => rw [writtenBranches, ih, List.flatMap_cons, writtenBranch]

/-- No branch of a normal choice is one of the two ranges of a letter. -/
theorem areLetters_eq_false {branches : List Pattern} (h : ∀ p ∈ branches, Normal p) :
    areLetters branches = false := by
  unfold areLetters
  split
  case h_2 => rfl
  case h_1 =>
    have hrange := h _ (.head _)
    generalize heq : Pattern.range 'a' 'z' = p at hrange
    cases hrange <;> simp [letter, digit, printable] at heq

theorem Normal.reads {p : Pattern} (h : Normal p) {opened : Stack}
    (hopened : opened.isBracket = false ∨ isModified p = false) (items : List Pattern) :
    Machine.Reads { items, opened } (written p) { items := p :: items, opened } := by
  induction h generalizing opened items with
  | char c => exact reads_escaped items opened c
  | letter => exact reads_class items opened (.head _)
  | digit => exact reads_class items opened (.tail _ (.head _))
  | printable => exact reads_class items opened (.tail _ (.tail _ (.head _)))
  | @choice branches hcount hbranches ih =>
    have hinside : Machine.Reads { opened := .bracket items opened } (branches.flatMap writtenBranch)
        { items := branches.reverse ++ [], opened := .bracket items opened } :=
      reads_flatMap (fun p hp items' ↦ reads_writtenBranch (ih p hp) items' _) []
    rw [List.append_nil] at hinside
    rw [written, areLetters_eq_false hbranches, writtenBranches_eq, ← ofBranches_of_length_ne hcount]
    exact reads_bracket hinside
  | @sequence parts hcount hparts ih =>
    have hinside : Machine.Reads { opened := .group items opened } (parts.flatMap written)
        { items := parts.reverse ++ [], opened := .group items opened } :=
      reads_flatMap (fun p hp ↦ ih p hp (.inl rfl)) []
    rw [List.append_nil] at hinside
    rw [written, writtenParts_eq, ← ofParts_of_length_ne hcount]
    exact reads_group hinside
  | many hbody ih =>
    have hsequence := hopened.resolve_right Bool.noConfusion
    exact reads_modifier hsequence (.inl rfl) (ih (.inl hsequence) items)
  | optional hbody ih =>
    have hsequence := hopened.resolve_right Bool.noConfusion
    exact reads_modifier hsequence (.inr rfl) (ih (.inl hsequence) items)

/-- The text of a normal pattern compiles to it. -/
theorem Normal.compile_written {p : Pattern} (h : Normal p) : compile (written p) = .ok p :=
  (h.reads (.inl rfl) []).compile rfl

/-! ### Writing a string -/

/-- A string in which every character is escaped. -/
def escapeAll (s : List Char) : List Char :=
  s.flatMap fun c ↦ ['\\', c]

theorem compile_escapeAll (s : List Char) : compile (escapeAll s) = .ok (ofParts (s.map .char)) := by
  have hreads : Machine.Reads {} ((s.map Pattern.char).flatMap written)
      { items := (s.map Pattern.char).reverse ++ [] } := by
    refine reads_flatMap (fun p hp items ↦ ?_) []
    obtain ⟨c, -, rfl⟩ := List.mem_map.1 hp
    exact reads_escaped items .empty c
  rw [List.append_nil, List.flatMap_map] at hreads
  rw [escapeAll]
  exact (hreads.compile rfl).trans (by rw [Stack.close, List.reverse_reverse])

theorem throughRest?_map_char (s cs : List Char) :
    throughRest? (s.map .char) cs = Matcher.dropPrefix? s cs := by
  induction s generalizing cs with
  | nil => rfl
  | cons c s ih =>
    cases cs with
    | nil => rfl
    | cons c' cs =>
      rw [List.map_cons, throughRest?, rest?, Matcher.dropPrefix?]
      by_cases h : c' = c
      · rw [if_pos h, if_pos h.symm]
        exact ih cs
      · rw [if_neg h, if_neg (Ne.symm h)]

/-- The characters of a string recognise the string. -/
theorem rest?_ofParts_map_char (s cs : List Char) :
    (ofParts (s.map .char)).rest? cs = Matcher.dropPrefix? s cs := by
  have hsequence : (Pattern.sequence (s.map .char)).rest? cs = Matcher.dropPrefix? s cs := by
    rw [rest?, throughRest?_map_char]
  by_cases hcount : (s.map Pattern.char).length = 1
  · obtain ⟨c, rfl⟩ := List.length_eq_one_iff.1 ((List.length_map _).symm.trans hcount)
    rw [← hsequence, rest?]
    cases hrest : (Pattern.char c).rest? cs <;> simp [ofParts, throughRest?, hrest]
  · rw [ofParts_of_length_ne hcount, hsequence]

theorem matchAt_ofParts_map_char (s : List Char) {text : List Char} {start stop : Nat}
    (hstart : Text.Boundary text start) :
    (Matcher.pattern (ofParts (s.map .char))).matchAt text start = some stop ↔
      Text.slice? text start stop = some s := by
  constructor
  · intro h
    obtain ⟨before, cs, rfl, rfl⟩ := hstart
    obtain ⟨piece, rest, rfl, hrest, -, hslice⟩ := Matcher.slice?_of_matchAt h
    rw [Matcher.rest?, rest?_ofParts_map_char, Matcher.dropPrefix?_eq_some_iff] at hrest
    obtain rfl := List.append_cancel_right hrest
    exact hslice
  · intro h
    obtain ⟨before, behind, rfl, rfl, rfl⟩ := Text.slice?_eq_some_iff.1 h
    rw [Matcher.matchAt_byteLength, Matcher.rest?, rest?_ofParts_map_char,
      Matcher.dropPrefix?_eq_some_iff.2 rfl, Option.map_some, Text.byteLength_append, Nat.add_sub_cancel]

/-- The normal patterns are those that some text compiles to, and the text that is written for one does. The
text of a string with every character escaped compiles to a pattern that recognises the string and no other
text. -/
theorem compiled_iff_normal :
    (∀ p, Normal p ↔ ∃ cs, compile cs = .ok p) ∧
    (∀ p, Normal p → compile (written p) = .ok p) ∧
    ∀ s, ∃ p, compile (escapeAll s) = .ok p ∧ ∀ text start stop, Text.Boundary text start →
      ((Matcher.pattern p).matchAt text start = some stop ↔ Text.slice? text start stop = some s) :=
  ⟨fun p ↦ ⟨fun h ↦ ⟨written p, h.compile_written⟩, fun ⟨_, h⟩ ↦ normal_of_compile h⟩,
    fun _ h ↦ h.compile_written,
    fun s ↦ ⟨_, compile_escapeAll s, fun _ _ _ hstart ↦ matchAt_ofParts_map_char s hstart⟩⟩

/-- Modifiers on modifiers in a branch, an empty choice at the end of a sequence, and a string of two characters
that mean something else when they are not escaped. -/
theorem compiled_iff_normal_of_nested :
    let p : Pattern := .choice [.optional (.many (.char ']')), .sequence [letter, .choice []], digit]
    (Normal p ∧ written p = "[(\\]*?)(@[])#]".toList ∧ compile (written p) = .ok p) ∧
      ∃ p, compile (escapeAll ['*', '[']) = .ok p ∧
        (Matcher.pattern p).matchAt ['é', '*', '[', 'x'] 2 = some 4 := by
  intro p
  obtain ⟨hnormal, hwritten, hstring⟩ := compiled_iff_normal
  have hp : Normal p := by
    refine .choice (by decide) fun q hq ↦ ?_
    simp only [List.mem_cons, List.not_mem_nil, or_false] at hq
    rcases hq with rfl | rfl | rfl
    · exact .optional (.many (.char ']'))
    · exact (hnormal _).2 ⟨"@[]".toList, by rw [compile_eq]; rfl⟩
    · exact .digit
  obtain ⟨q, hq, hmatch⟩ := hstring ['*', '[']
  exact ⟨⟨hp, rfl, hwritten p hp⟩, q, hq, (hmatch _ _ _ ⟨['é'], ['*', '[', 'x'], rfl, rfl⟩).2 rfl⟩

end Rebuild.Pattern
