import Rebuild.Proofs.Lexing.Running

/-!
# What every matcher keeps

`Matcher.Runs` is a matcher that reads a text with a cursor. A pattern runs by its own rules
(`Pattern.Runs`); each of the other three looks at what follows the cursor and counts the bytes that it passes:
those of a word, those before a line feed, those up to a closing quote.

However a matcher comes to its end, it keeps what a lexer relies on. A failure leaves the cursor where it was
(`Matcher.Runs.stays`), a success leaves it at a good offset that is not before it (`Matcher.Runs.boundary`),
and what stands before the cursor never matters (`Matcher.runs_iff_of_suffixAt`). At an offset that is not good
nothing can be read: the cursor stays, and only a pattern can succeed, one that could do so without reading
(`Pattern.Idle`).
-/

namespace Rebuild

open Text (Boundary byteLength suffixAt ahead offsetOf)

variable {text cs rest piece : List Char} {start stop : Nat} {ok : Bool}

/-! ### Counting bytes -/

/-- The byte offset of the first such character. -/
def Text.find? (c : Char) : List Char → Option Nat
  | [] => none
  | c' :: cs => if c' = c then some 0 else (find? c cs).map (c'.utf8Size + ·)

/-- Up to the first such character, or to the end, there is none of it. -/
theorem Text.getD_find? (c : Char) (cs : List Char) :
    (find? c cs).getD (byteLength cs) = byteLength (cs.takeWhile (· ≠ c)) := by
  induction cs with
  | nil => rfl
  | cons c' cs ih =>
    by_cases h : c' = c
    · rw [find?, if_pos h, List.takeWhile_cons_of_neg (by simpa using h)]
      rfl
    · rw [find?, if_neg h, List.takeWhile_cons_of_pos (by simpa using h), byteLength_cons, byteLength_cons,
        ← ih]
      cases find? c cs <;> rfl

namespace Matcher

/-- The byte offset of the closing quote, where `n` bytes have been passed already. -/
def closingQuote? : Nat → List Char → Option Nat
  | _, [] => none
  | _, '\\' :: [] => none
  | n, '\\' :: c :: cs => closingQuote? (n + ('\\'.utf8Size + c.utf8Size)) cs
  | n, c :: cs => if c = '"' then some n else closingQuote? (n + c.utf8Size) cs

theorem closingQuote?_eq (n : Nat) (cs : List Char) : closingQuote? n cs =
    (behindQuote? cs).map fun rest ↦ n + (byteLength cs - byteLength ('"' :: rest)) := by
  fun_induction closingQuote? n cs with
  | case1 | case2 => rfl
  | case3 n c cs ih =>
    rw [behindQuote?, ih]
    refine Option.map_congr fun rest hrest ↦ ?_
    obtain ⟨inside, rfl⟩ := Language.Literal.exists_of_behindQuote? hrest
    simp only [Text.byteLength_cons, Text.byteLength_append]
    omega
  | case4 n cs => simp [behindQuote?]
  | case5 n c cs hlast hescape hquote ih =>
    rw [behindQuote?, if_neg hquote, ih]
    · refine Option.map_congr fun rest hrest ↦ ?_
      obtain ⟨inside, rfl⟩ := Language.Literal.exists_of_behindQuote? hrest
      simp only [Text.byteLength_cons, Text.byteLength_append]
      omega
    · exact hlast
    · exact hescape

/-! ### Runs -/

/-- A word stands at the beginning of a text, and does not go on there. -/
def Stands (word cs : List Char) : Prop :=
  ∃ after, cs = word ++ after ∧ ∀ c ∈ after.head?, isWordChar c = false

theorem stands_iff {word : List Char} : Stands word cs ↔ ∃ after, wordRest? word cs = some after := by
  simp only [Stands, wordRest?_eq_some_iff]

theorem wordRest?_eq_none_iff {word : List Char} : wordRest? word cs = none ↔ ¬ Stands word cs := by
  rw [stands_iff, Option.eq_none_iff_forall_ne_some, not_exists]

/-- A matcher is run from an offset: it succeeds or fails, and leaves the cursor at an offset. -/
inductive Runs (text : List Char) : Matcher → Nat → Bool → Nat → Prop
  /-- A pattern runs by its own rules. -/
  | pattern {p : Pattern} {start stop : Nat} {ok : Bool} (h : p.Runs text start ok stop) :
    Runs text (.pattern p) start ok stop
  /-- The first of the words that stands here is passed. -/
  | word {earlier later : List (List Char)} {word cs : List Char} {start : Nat}
    (hcs : suffixAt text start = some cs) (hearlier : ∀ other ∈ earlier, ¬ Stands other cs)
    (h : Stands word cs) :
    Runs text (.keyword (earlier ++ word :: later)) start true (start + byteLength word)
  /-- None of the words stands here. -/
  | noWord {words : List (List Char)} {start : Nat}
    (h : ∀ cs, suffixAt text start = some cs → ∀ word ∈ words, ¬ Stands word cs) :
    Runs text (.keyword words) start false start
  /-- A comment goes up to the next line feed, or to the end of the text. -/
  | comment {opening cs : List Char} {start : Nat} (hcs : suffixAt text start = some cs)
    (h : opening <+: cs) :
    Runs text (.lineComment opening) start true (start + (Text.find? '\n' cs).getD (byteLength cs))
  /-- No comment opens here. -/
  | noComment {opening : List Char} {start : Nat}
    (h : ∀ cs, suffixAt text start = some cs → ¬ opening <+: cs) :
    Runs text (.lineComment opening) start false start
  /-- A literal goes up to its closing quote and over it. -/
  | literal {cs : List Char} {start offset : Nat} (hcs : suffixAt text start = some ('"' :: cs))
    (h : closingQuote? 1 cs = some offset) :
    Runs text .stringLiteral start true (start + (offset + 1))
  /-- No literal opens here, or it does not close. -/
  | noLiteral {start : Nat}
    (h : ∀ cs, suffixAt text start = some ('"' :: cs) → closingQuote? 1 cs = none) :
    Runs text .stringLiteral start false start

theorem move_eq_true_iff {matcher : Matcher} :
    matcher.move text start = (true, stop) ↔ matcher.matchAt text start = some stop := by
  rw [move]
  cases matcher.matchAt text start <;> simp

theorem move_of_rest? {matcher : Matcher} (hcs : suffixAt text start = some cs)
    (h : matcher.rest? cs = some rest) (hpiece : cs = piece ++ rest) :
    matcher.move text start = (true, start + byteLength piece) := by
  obtain ⟨before, rfl, rfl⟩ := Text.suffixAt_eq_some_iff.1 hcs
  rw [move_eq_true_iff, matchAt_byteLength, h, Option.map_some, hpiece, Text.byteLength_append,
    Nat.add_sub_cancel]

/-- A matcher that is not a pattern fails where no character begins. -/
theorem move_of_rest?_eq_none {matcher : Matcher} (hmatcher : ∀ p, matcher ≠ .pattern p)
    (h : ∀ cs, suffixAt text start = some cs → matcher.rest? cs = none) :
    matcher.move text start = (false, start) := by
  have hnone : matcher.matchAt text start = none := by
    cases hcs : suffixAt text start with
    | none =>
      cases matcher with
      | pattern p => exact absurd rfl (hmatcher p)
      | keyword | lineComment | stringLiteral => simp only [matchAt, hcs]
    | some cs => simp only [matchAt, hcs, h cs hcs, Option.map_none]
  rw [move, hnone]

/-- A run ends with the answer at the offset. -/
theorem Runs.move_eq {matcher : Matcher} (h : matcher.Runs text start ok stop) :
    matcher.move text start = (ok, stop) := by
  cases h with
  | pattern h => exact Pattern.runs_iff_move.1 h
  | @word earlier later word _ _ hcs hearlier h =>
    obtain ⟨after, rfl, hafter⟩ := h
    refine move_of_rest? hcs ?_ rfl
    exact List.findSome?_eq_some_iff.2 ⟨earlier, word, later, rfl, wordRest?_eq_some_iff.2 ⟨rfl, hafter⟩,
      fun other hother ↦ wordRest?_eq_none_iff.2 (hearlier other hother)⟩
  | noWord h =>
    exact move_of_rest?_eq_none (fun _ heq ↦ by cases heq) fun cs hcs ↦
      List.findSome?_eq_none_iff.2 fun word hword ↦ wordRest?_eq_none_iff.2 (h cs hcs word hword)
  | comment hcs h =>
    rw [Text.getD_find?]
    exact move_of_rest? hcs (if_pos (List.isPrefixOf_iff_prefix.2 h)) List.takeWhile_append_dropWhile.symm
  | noComment h =>
    exact move_of_rest?_eq_none (fun _ heq ↦ by cases heq) fun cs hcs ↦
      if_neg fun hopening ↦ h cs hcs (List.isPrefixOf_iff_prefix.1 hopening)
  | literal hcs h =>
    rw [closingQuote?_eq] at h
    obtain ⟨rest, hrest, rfl⟩ := Option.map_eq_some_iff.1 h
    obtain ⟨inside, rfl⟩ := Language.Literal.exists_of_behindQuote? hrest
    have hlength : 1 + (byteLength (inside ++ '"' :: rest) - byteLength ('"' :: rest)) + 1 =
        byteLength ('"' :: inside ++ ['"']) := by
      rw [Text.byteLength_append, Nat.add_sub_cancel, Text.byteLength_append, Text.byteLength_cons]
      rfl
    rw [hlength]
    exact move_of_rest? hcs (by rw [rest?, if_pos rfl, hrest]) (by simp)
  | noLiteral h =>
    refine move_of_rest?_eq_none (fun _ heq ↦ by cases heq) fun cs hcs ↦ ?_
    cases cs with
    | nil => rfl
    | cons c cs =>
      by_cases hquote : c = '"'
      · subst hquote
        have hclosing := h cs hcs
        rw [closingQuote?_eq, Option.map_eq_none_iff] at hclosing
        rw [rest?, if_pos rfl, hclosing]
      · exact if_neg hquote

/-- Every matcher runs to an end from every offset. -/
theorem exists_runs (matcher : Matcher) (text : List Char) (start : Nat) :
    ∃ ok stop, matcher.Runs text start ok stop := by
  cases matcher with
  | pattern p =>
    obtain ⟨ok, stop, h⟩ := p.exists_runs text start
    exact ⟨ok, stop, .pattern h⟩
  | keyword words =>
    -- the rule asks for the first word that stands, which is what the search through the words finds
    by_cases h : ∃ cs rest, suffixAt text start = some cs ∧ words.findSome? (wordRest? · cs) = some rest
    · obtain ⟨cs, rest, hcs, hfirst⟩ := h
      obtain ⟨earlier, word, later, rfl, hword, hearlier⟩ := List.findSome?_eq_some_iff.1 hfirst
      exact ⟨true, _, .word hcs (fun other hother ↦ wordRest?_eq_none_iff.1 (hearlier other hother))
        (stands_iff.2 ⟨rest, hword⟩)⟩
    · refine ⟨false, start, .noWord fun cs hcs word hword ↦ wordRest?_eq_none_iff.1 ?_⟩
      have hnone : words.findSome? (wordRest? · cs) = none :=
        Option.eq_none_iff_forall_ne_some.2 fun rest hrest ↦ h ⟨cs, rest, hcs, hrest⟩
      exact List.findSome?_eq_none_iff.1 hnone word hword
  | lineComment opening =>
    by_cases h : ∃ cs, suffixAt text start = some cs ∧ opening <+: cs
    · obtain ⟨cs, hcs, hopening⟩ := h
      exact ⟨true, _, .comment hcs hopening⟩
    · exact ⟨false, start, .noComment fun cs hcs hopening ↦ h ⟨cs, hcs, hopening⟩⟩
  | stringLiteral =>
    by_cases h : ∃ cs offset, suffixAt text start = some ('"' :: cs) ∧ closingQuote? 1 cs = some offset
    · obtain ⟨cs, offset, hcs, hoffset⟩ := h
      exact ⟨true, _, .literal hcs hoffset⟩
    · exact ⟨false, start, .noLiteral fun cs hcs ↦
        Option.eq_none_iff_forall_ne_some.2 fun offset hoffset ↦ h ⟨cs, offset, hcs, hoffset⟩⟩

/-- A matcher runs to the answer at the offset, and to nothing else. -/
theorem runs_iff_move {matcher : Matcher} :
    matcher.Runs text start ok stop ↔ matcher.move text start = (ok, stop) := by
  refine ⟨Runs.move_eq, fun h ↦ ?_⟩
  -- there is a run, and it has the same end
  obtain ⟨ok', stop', hruns⟩ := matcher.exists_runs text start
  cases hruns.move_eq.symm.trans h
  exact hruns

end Matcher

/-! ### Success without reading -/

namespace Pattern

mutual

/-- What a pattern can do without reading where something is ahead, it does where nothing is. -/
theorem rest?_nil_of_rest? (p : Pattern) {cs : List Char} (h : p.rest? cs = some cs) :
    p.rest? [] = some [] := by
  match p with
  | .char expected =>
    cases cs with
    | nil => exact h
    | cons c cs =>
      obtain ⟨-, heq⟩ := Option.ite_none_right_eq_some.1 (by rwa [rest?] at h)
      exact absurd (Option.some.inj heq).symm (List.cons_ne_self c cs)
  | .range least greatest =>
    cases cs with
    | nil => exact h
    | cons c cs =>
      obtain ⟨-, heq⟩ := Option.ite_none_right_eq_some.1 (by rwa [rest?] at h)
      exact absurd (Option.some.inj heq).symm (List.cons_ne_self c cs)
  | .choice branches =>
    rw [rest?] at h ⊢
    exact firstRest?_nil_of_firstRest? branches h
  | .sequence parts =>
    rw [rest?] at h ⊢
    exact throughRest?_nil_of_throughRest? parts h
  | .many body =>
    rw [rest?, exhaust_of_ge fun rest _ ↦ Nat.not_lt_zero _]
  | .optional body =>
    rw [rest?]
    cases hbody : body.rest? [] with
    | none => rfl
    | some rest =>
      rw [List.suffix_nil.1 (body.suffix_of_rest? hbody)]
      rfl

theorem firstRest?_nil_of_firstRest? (branches : List Pattern) {cs : List Char}
    (h : firstRest? branches cs = some cs) : firstRest? branches [] = some [] := by
  match branches with
  | [] => cases h
  | branch :: branches =>
    rw [firstRest?] at h ⊢
    cases hnil : branch.rest? [] with
    | some rest =>
      -- also a branch that fails on the text ahead may be the one that succeeds on nothing
      rw [List.suffix_nil.1 (branch.suffix_of_rest? hnil)]
    | none =>
      split at h
      case h_1 hbranch =>
        cases h
        rw [rest?_nil_of_rest? branch hbranch] at hnil
        cases hnil
      case h_2 => exact firstRest?_nil_of_firstRest? branches h

theorem throughRest?_nil_of_throughRest? (parts : List Pattern) {cs : List Char}
    (h : throughRest? parts cs = some cs) : throughRest? parts [] = some [] := by
  match parts with
  | [] => rfl
  | part :: parts =>
    rw [throughRest?] at h ⊢
    split at h
    case h_1 rest hpart =>
      -- neither the part nor the others can have read anything
      obtain ⟨piece, -, hrest⟩ := begins_of_throughRest? parts h
      have hsuffix := part.suffix_of_rest? hpart
      have hle : cs.length ≤ rest.length := by
        rw [hrest, List.length_append]
        exact Nat.le_add_left _ _
      obtain rfl : rest = cs := hsuffix.eq_of_length_le hle
      rw [rest?_nil_of_rest? part hpart]
      exact throughRest?_nil_of_throughRest? parts h
    case h_2 => cases h

end

/-- A pattern can succeed at a good offset without reading anything. -/
def Idle (p : Pattern) : Prop :=
  ∃ text start, Boundary text start ∧ p.Runs text start true start

theorem idle_iff {p : Pattern} : p.Idle ↔ p.rest? [] = some [] := by
  constructor
  · rintro ⟨text, start, -, h⟩
    obtain ⟨rest, hrest, hsuffix, hstart⟩ := h.ends.exists_rest
    rw [(Text.offsetOf_eq_iff hsuffix).1 hstart.symm] at hrest
    exact p.rest?_nil_of_rest? hrest
  · intro h
    refine ⟨[], 0, ⟨[], [], rfl, rfl⟩, runs_iff_move.2 ?_⟩
    have hahead : ahead [] 0 = [] := rfl
    rw [Matcher.move_eq_true_iff, matchAt_eq, hahead, h]
    rfl

/-- Where no character begins a pattern stays, and succeeds if it can do so without reading. -/
theorem Runs.of_not_boundary {p : Pattern} (hbad : ¬ Boundary text start) (h : p.Runs text start ok stop) :
    stop = start ∧ (ok = true ↔ p.Idle) := by
  have hends := h.ends
  rw [Text.ahead_of_not_boundary hbad] at hends
  rw [idle_iff]
  cases ok with
  | false => exact ⟨h.stays rfl, by simp [hends.eq_none]⟩
  | true =>
    obtain ⟨rest, hrest, hsuffix, rfl⟩ := hends.exists_rest
    -- nothing is ahead, so that nothing is left of it
    have hnil : rest = ahead text start := by
      rw [Text.ahead_of_not_boundary hbad] at hsuffix ⊢
      exact List.suffix_nil.1 hsuffix
    refine ⟨(Text.offsetOf_eq_iff hsuffix).2 hnil, iff_of_true rfl ?_⟩
    rw [hrest, hnil, Text.ahead_of_not_boundary hbad]

end Pattern

/-! ### The contract -/

namespace Matcher

variable {matcher : Matcher}

theorem Runs.stays (h : matcher.Runs text start false stop) : stop = start := by
  cases h with
  | pattern h => exact h.stays rfl
  | noWord | noComment | noLiteral => rfl

theorem Runs.boundary (hboundary : Boundary text start) (h : matcher.Runs text start true stop) :
    start ≤ stop ∧ stop ≤ byteLength text ∧ Boundary text stop := by
  obtain ⟨before, behind, rfl, rfl⟩ := hboundary
  obtain ⟨piece, rest, rfl, -, rfl, -⟩ := slice?_of_matchAt (move_eq_true_iff.1 h.move_eq)
  refine ⟨Nat.le_add_right _ _, ?_, before ++ piece, rest, by simp, by simp⟩
  rw [Text.byteLength_append, Text.byteLength_append]
  omega

/-- What stands before the cursor does not matter. -/
theorem move_of_suffixAt (matcher : Matcher) (h : suffixAt text start = some rest) :
    matcher.move text start = (matcher.move rest 0).map id (start + ·) := by
  obtain ⟨before, rfl, rfl⟩ := Text.suffixAt_eq_some_iff.1 h
  have hrest := matcher.matchAt_byteLength [] rest
  rw [List.nil_append, Text.byteLength_nil] at hrest
  rw [move, move, hrest, matchAt_byteLength]
  cases matcher.rest? rest <;> simp

/-- A run is a run on what follows the cursor, shifted to where the cursor was. -/
theorem runs_iff_of_suffixAt (h : suffixAt text start = some rest) :
    matcher.Runs text start ok stop ↔ ∃ shift, stop = start + shift ∧ matcher.Runs rest 0 ok shift := by
  simp only [runs_iff_move, move_of_suffixAt matcher h]
  obtain ⟨ok', shift'⟩ := matcher.move rest 0
  constructor
  · intro heq
    cases heq
    exact ⟨shift', rfl, rfl⟩
  · rintro ⟨shift, rfl, heq⟩
    cases heq
    rfl

theorem Runs.of_not_boundary (hbad : ¬ Boundary text start) (h : matcher.Runs text start ok stop) :
    stop = start ∧ (ok = true ↔ ∃ p, matcher = .pattern p ∧ p.Idle) := by
  cases h with
  | pattern h =>
    obtain ⟨hstop, hok⟩ := h.of_not_boundary hbad
    exact ⟨hstop, by simp [hok]⟩
  | word hcs | comment hcs | literal hcs => exact absurd (Text.boundary_iff.2 ⟨_, hcs⟩) hbad
  | noWord | noComment | noLiteral => exact ⟨rfl, by simp⟩

/-- Every matcher, run from any offset, ends with its answer there and with nothing else. A failure leaves
the cursor where it was. A success at a good offset leaves it at a good offset, not before and not past the
end. What stands before the cursor does not matter. At an offset that is not good the cursor stays, and the
matchers that succeed are the patterns that can succeed without reading. -/
theorem runs_contract (matcher : Matcher) (text : List Char) (start : Nat) :
    (∀ ok stop, matcher.Runs text start ok stop ↔ matcher.move text start = (ok, stop)) ∧
    (∀ stop, matcher.Runs text start false stop → stop = start) ∧
    (Boundary text start → ∀ stop, matcher.Runs text start true stop →
      start ≤ stop ∧ stop ≤ byteLength text ∧ Boundary text stop) ∧
    (∀ rest, suffixAt text start = some rest → ∀ ok stop, matcher.Runs text start ok stop ↔
      ∃ shift, stop = start + shift ∧ matcher.Runs rest 0 ok shift) ∧
    (¬ Boundary text start → ∀ ok stop, matcher.Runs text start ok stop →
      stop = start ∧ (ok = true ↔ ∃ p, matcher = .pattern p ∧ p.Idle)) :=
  ⟨fun _ _ ↦ runs_iff_move, fun _ ↦ Runs.stays, fun hboundary _ ↦ Runs.boundary hboundary,
    fun _ hrest _ _ ↦ runs_iff_of_suffixAt hrest, fun hbad _ _ ↦ Runs.of_not_boundary hbad⟩

/-- A literal with an escaped quote and characters of two bytes goes over its closing quote, wherever it
stands. Inside a character no literal is found, and an option succeeds. -/
theorem runs_contract_of_literal :
    let text := ['é', '"', 'ü', '\\', '"', '"', 'z']
    (stringLiteral.Runs text 2 true 8 ∧ Boundary text 8 ∧ stringLiteral.Runs (text.drop 1) 0 true 6) ∧
      ¬ stringLiteral.Runs text 1 true 1 ∧ (pattern (.optional (.char 'a'))).Runs text 1 true 1 := by
  intro text
  have hsuffix : suffixAt text 2 = some (text.drop 1) := by decide +kernel
  have hinside : ¬ Boundary text 1 := by
    rw [Text.boundary_iff, show suffixAt text 1 = none by decide +kernel]
    simp
  obtain ⟨hmove, -, hboundary, hshift, -⟩ := runs_contract stringLiteral text 2
  have hruns : stringLiteral.Runs text 2 true 8 := (hmove true 8).2 (by decide +kernel)
  obtain ⟨-, -, hgood⟩ := hboundary (Text.boundary_iff.2 ⟨_, hsuffix⟩) 8 hruns
  obtain ⟨shift, hstop, hrest⟩ := (hshift _ hsuffix true 8).1 hruns
  obtain rfl : shift = 6 := by omega
  obtain ⟨-, -, -, -, hliteral⟩ := runs_contract stringLiteral text 1
  obtain ⟨hoption, -⟩ := runs_contract (pattern (.optional (.char 'a'))) text 1
  refine ⟨⟨hruns, hgood, hrest⟩, fun h ↦ ?_, (hoption true 1).2 (by decide +kernel)⟩
  obtain ⟨p, heq, -⟩ := (hliteral hinside true 1 h).2.1 rfl
  cases heq

end Matcher

end Rebuild
