import Rebuild.Proofs.Lexing.Remainder

/-!
# Patterns with a cursor

`Pattern.rest?` says what is left of a text and knows no offsets. `Pattern.Runs` is a pattern that reads a text
with a cursor: one rule for each way in which a pattern can end, with the offset where it leaves the cursor.
Some of the rules put the cursor back and some leave it where another pattern has left it, and a repetition
goes on for as long as its body succeeds and moves the cursor.

The rules leave nothing open. Every pattern runs to an end from every offset (`Pattern.exists_runs`), because
a body that moves the cursor has less ahead; and whatever it runs to is what `Pattern.rest?` leaves of the
text ahead (`Pattern.Runs.ends`).
-/

namespace Rebuild

open Text (ahead charAt? offsetOf)

variable {text rest : List Char} {start stop : Nat} {ok : Bool}

namespace Pattern

mutual

/-- A pattern is run from an offset: it succeeds or fails, and leaves the cursor at an offset. -/
inductive Runs (text : List Char) : Pattern → Nat → Bool → Nat → Prop
  /-- The character is there. -/
  | char {c : Char} {start : Nat} (hc : charAt? text start = some c) :
    Runs text (.char c) start true (start + c.utf8Size)
  /-- Another character is there, or none. -/
  | noChar {c : Char} {start : Nat} (hc : charAt? text start ≠ some c) :
    Runs text (.char c) start false start
  /-- A character of the range is there. -/
  | range {least greatest c : Char} {start : Nat} (hc : charAt? text start = some c)
    (hfits : least ≤ c ∧ c ≤ greatest) :
    Runs text (.range least greatest) start true (start + c.utf8Size)
  /-- No character of the range is there. -/
  | noRange {least greatest : Char} {start : Nat}
    (hc : ∀ c, charAt? text start = some c → ¬ (least ≤ c ∧ c ≤ greatest)) :
    Runs text (.range least greatest) start false start
  /-- A choice is its branches, one after the other. -/
  | choice {branches : List Pattern} {start stop : Nat} {ok : Bool}
    (h : RunsFirst text branches start ok stop) : Runs text (.choice branches) start ok stop
  /-- A sequence is its parts, all of them. -/
  | sequence {parts : List Pattern} {start stop : Nat} (h : RunsThrough text parts start true stop) :
    Runs text (.sequence parts) start true stop
  /-- Where a part fails, the cursor goes back to where the sequence began. -/
  | broken {parts : List Pattern} {start stop : Nat} (h : RunsThrough text parts start false stop) :
    Runs text (.sequence parts) start false start
  /-- A repetition ends when its body fails or stays where it is. -/
  | enough {body : Pattern} {start stop : Nat} {ok : Bool} (h : Runs text body start ok stop)
    (hends : ok = false ∨ stop = start) : Runs text (.many body) start true stop
  /-- Otherwise it goes on from where its body has left the cursor. -/
  | more {body : Pattern} {start next stop : Nat} (h : Runs text body start true next)
    (hmoves : next ≠ start) (hrest : Runs text (.many body) next true stop) :
    Runs text (.many body) start true stop
  /-- An option succeeds, whatever its body does. -/
  | optional {body : Pattern} {start stop : Nat} {ok : Bool} (h : Runs text body start ok stop) :
    Runs text (.optional body) start true stop

/-- Branches are run from an offset, up to the first one that succeeds. -/
inductive RunsFirst (text : List Char) : List Pattern → Nat → Bool → Nat → Prop
  /-- There are none. -/
  | none {start : Nat} : RunsFirst text [] start false start
  /-- The next branch succeeds. -/
  | taken {branch : Pattern} {branches : List Pattern} {start stop : Nat}
    (h : Runs text branch start true stop) : RunsFirst text (branch :: branches) start true stop
  /-- The next branch fails, and the others are run from where it was run. -/
  | passed {branch : Pattern} {branches : List Pattern} {start next stop : Nat} {ok : Bool}
    (h : Runs text branch start false next) (hrest : RunsFirst text branches start ok stop) :
    RunsFirst text (branch :: branches) start ok stop

/-- Parts are run one after the other, up to the first one that fails. -/
inductive RunsThrough (text : List Char) : List Pattern → Nat → Bool → Nat → Prop
  /-- There are none. -/
  | done {start : Nat} : RunsThrough text [] start true start
  /-- The next part fails. -/
  | fails {part : Pattern} {parts : List Pattern} {start stop : Nat}
    (h : Runs text part start false stop) : RunsThrough text (part :: parts) start false stop
  /-- The next part succeeds, and the others are run from where it has left the cursor. -/
  | next {part : Pattern} {parts : List Pattern} {start next stop : Nat} {ok : Bool}
    (h : Runs text part start true next) (hrest : RunsThrough text parts next ok stop) :
    RunsThrough text (part :: parts) start ok stop

end

/-! ### What a run ends with -/

mutual

/-- A pattern that fails leaves the cursor where it was. -/
theorem Runs.stays {p : Pattern} {start : Nat} {ok : Bool} {stop : Nat} :
    Runs text p start ok stop → ok = false → stop = start
  | .noChar _, _ => rfl
  | .noRange _, _ => rfl
  | .choice h, hfails => h.stays hfails
  | .broken _, _ => rfl

/-- Branches that all fail leave the cursor where it was. -/
theorem RunsFirst.stays {branches : List Pattern} {start : Nat} {ok : Bool} {stop : Nat} :
    RunsFirst text branches start ok stop → ok = false → stop = start
  | .none, _ => rfl
  | .passed _ hrest, hfails => hrest.stays hfails

end

/-- A run ends as an answer says: it succeeds if there is an answer, and leaves the cursor where the rest of
the text begins. -/
def Ends (text : List Char) (start : Nat) (answer : Option (List Char)) (ok : Bool) (stop : Nat) : Prop :=
  match answer with
  | none => ok = false
  | some rest => ok = true ∧ rest <:+ ahead text start ∧ stop = offsetOf text start rest

section Ends

variable {answer : Option (List Char)}

theorem Ends.eq_none (h : Ends text start answer false stop) : answer = none := by
  cases answer with
  | none => rfl
  | some rest => cases h.1

theorem Ends.exists_rest (h : Ends text start answer true stop) :
    ∃ rest, answer = some rest ∧ rest <:+ ahead text start ∧ stop = offsetOf text start rest := by
  cases answer with
  | none => cases h
  | some rest => exact ⟨rest, rfl, h.2⟩

/-- What is run behind a beginning of the text that has been read ends as if all were run at once. -/
theorem Ends.behind (h : Ends text (offsetOf text start rest) answer ok stop)
    (hrest : rest <:+ ahead text start) : Ends text start answer ok stop := by
  cases answer with
  | none => exact h
  | some later =>
    obtain ⟨hok, hlater, hstop⟩ := h
    rw [Text.ahead_offsetOf hrest] at hlater
    exact ⟨hok, hlater.trans hrest, hstop.trans (Text.offsetOf_offsetOf hrest hlater)⟩

theorem ends_ahead (text : List Char) (start : Nat) : Ends text start (some (ahead text start)) true start :=
  ⟨rfl, List.suffix_rfl, (Text.offsetOf_ahead text start).symm⟩

theorem ends_cons {c : Char} {cs : List Char} (h : ahead text start = c :: cs) :
    Ends text start (some cs) true (start + c.utf8Size) := by
  have hpiece : ahead text start = [c] ++ cs := h
  refine ⟨rfl, ⟨[c], hpiece.symm⟩, ?_⟩
  rw [Text.offsetOf_append hpiece, Text.byteLength_cons, Text.byteLength_nil, Nat.add_zero]

end Ends

theorem exists_cons_of_charAt? {c : Char} (h : charAt? text start = some c) :
    ∃ cs, ahead text start = c :: cs := by
  rw [← Text.head?_ahead] at h
  exact ⟨_, List.eq_cons_of_mem_head? h⟩

theorem rest?_char_eq_none {c : Char} (h : charAt? text start ≠ some c) :
    (Pattern.char c).rest? (ahead text start) = none := by
  rw [← Text.head?_ahead] at h
  cases hcs : ahead text start with
  | nil => rfl
  | cons c' cs =>
    rw [hcs] at h
    exact if_neg fun heq ↦ h (congrArg some heq)

theorem rest?_range_eq_none {least greatest : Char}
    (h : ∀ c, charAt? text start = some c → ¬ (least ≤ c ∧ c ≤ greatest)) :
    (Pattern.range least greatest).rest? (ahead text start) = none := by
  cases hcs : ahead text start with
  | nil => rfl
  | cons c cs => exact if_neg (h c (by rw [← Text.head?_ahead, hcs]; rfl))

theorem length_lt_of_offsetOf_ne (h : rest <:+ ahead text start) (hne : offsetOf text start rest ≠ start) :
    rest.length < (ahead text start).length :=
  Nat.lt_of_le_of_ne h.length_le fun heq ↦ hne ((Text.offsetOf_eq_iff h).2 (h.eq_of_length heq))

theorem exhaust_of_ge {step : List Char → Option (List Char)} {cs : List Char}
    (h : ∀ rest, step cs = some rest → ¬ rest.length < cs.length) : exhaust step cs = cs := by
  rw [exhaust]
  cases hstep : step cs with
  | none => rfl
  | some rest => exact if_neg (h rest hstep)

theorem exhaust_of_lt {step : List Char → Option (List Char)} {cs : List Char}
    (hstep : step cs = some rest) (h : rest.length < cs.length) : exhaust step cs = exhaust step rest := by
  rw [exhaust, hstep]
  exact if_pos h

mutual

/-- What a pattern runs to is what it leaves of the text ahead. -/
theorem Runs.ends {p : Pattern} {start : Nat} {ok : Bool} {stop : Nat} :
    Runs text p start ok stop → Ends text start (p.rest? (ahead text start)) ok stop
  | .char hc => by
    obtain ⟨cs, hcs⟩ := exists_cons_of_charAt? hc
    rw [hcs, rest?, if_pos rfl]
    exact ends_cons hcs
  | .noChar hc => by
    rw [rest?_char_eq_none hc]
    rfl
  | .range hc hfits => by
    obtain ⟨cs, hcs⟩ := exists_cons_of_charAt? hc
    rw [hcs, rest?, if_pos hfits]
    exact ends_cons hcs
  | .noRange hc => by
    rw [rest?_range_eq_none hc]
    rfl
  | .choice h => by
    rw [rest?]
    exact h.ends
  | .sequence h => by
    rw [rest?]
    exact h.ends
  | .broken h => by
    rw [rest?, h.ends.eq_none]
    rfl
  | @Runs.enough _ body start stop ok h hends => by
    have hexhaust : exhaust body.rest? (ahead text start) = ahead text start := by
      refine exhaust_of_ge fun rest hrest hlt ↦ ?_
      have hbody := h.ends
      rw [hrest] at hbody
      obtain ⟨rfl, hsuffix, rfl⟩ := hbody
      rcases hends with hok | hstop
      · cases hok
      · rw [(Text.offsetOf_eq_iff hsuffix).1 hstop] at hlt
        exact Nat.lt_irrefl _ hlt
    have hstop : stop = start := hends.elim h.stays id
    rw [rest?, hexhaust, hstop]
    exact ends_ahead text start
  | .more h hmoves hrest => by
    have hlater := hrest.ends
    obtain ⟨rest, hbody, hsuffix, rfl⟩ := h.ends.exists_rest
    rw [rest?, Text.ahead_offsetOf hsuffix,
      ← exhaust_of_lt hbody (length_lt_of_offsetOf_ne hsuffix hmoves)] at hlater
    exact hlater.behind hsuffix
  | @Runs.optional _ body start stop ok h => by
    have hbody := h.ends
    rw [rest?]
    cases ok with
    | false =>
      rw [hbody.eq_none, h.stays rfl]
      exact ends_ahead text start
    | true =>
      obtain ⟨rest, hrest, -⟩ := hbody.exists_rest
      rw [hrest] at hbody ⊢
      exact hbody

theorem RunsFirst.ends {branches : List Pattern} {start : Nat} {ok : Bool} {stop : Nat} :
    RunsFirst text branches start ok stop →
      Ends text start (firstRest? branches (ahead text start)) ok stop
  | .none => rfl
  | .taken h => by
    obtain ⟨rest, hrest, hends⟩ := h.ends.exists_rest
    rw [firstRest?, hrest]
    exact ⟨rfl, hends⟩
  | .passed h hrest => by
    rw [firstRest?, h.ends.eq_none]
    exact hrest.ends

theorem RunsThrough.ends {parts : List Pattern} {start : Nat} {ok : Bool} {stop : Nat} :
    RunsThrough text parts start ok stop →
      Ends text start (throughRest? parts (ahead text start)) ok stop
  | .done => ends_ahead text _
  | .fails h => by
    rw [throughRest?, h.ends.eq_none]
    rfl
  | .next h hrest => by
    have hlater := hrest.ends
    obtain ⟨rest, hpart, hsuffix, rfl⟩ := h.ends.exists_rest
    rw [Text.ahead_offsetOf hsuffix] at hlater
    rw [throughRest?, hpart]
    exact hlater.behind hsuffix

end

/-! ### Every run comes to an end -/

/-- A repetition comes to an end when its body always does. -/
theorem exists_runs_many {body : Pattern} (h : ∀ start, ∃ ok stop, Runs text body start ok stop)
    (start : Nat) : ∃ stop, Runs text (.many body) start true stop := by
  -- the induction is on how much is ahead
  induction hlength : (ahead text start).length using Nat.strong_induction_on generalizing start with
  | h length ih =>
    obtain ⟨ok, next, hbody⟩ := h start
    by_cases hends : ok = false ∨ next = start
    · exact ⟨next, .enough hbody hends⟩
    · rw [not_or, Bool.not_eq_false] at hends
      obtain ⟨rfl, hmoves⟩ := hends
      obtain ⟨rest, -, hsuffix, rfl⟩ := hbody.ends.exists_rest
      have hless := length_lt_of_offsetOf_ne hsuffix hmoves
      rw [hlength, ← Text.ahead_offsetOf hsuffix] at hless
      obtain ⟨stop, hrest⟩ := ih _ hless _ rfl
      exact ⟨stop, .more hbody hmoves hrest⟩

mutual

/-- Every pattern runs to an end from every offset. -/
theorem exists_runs (text : List Char) : ∀ (p : Pattern) (start : Nat), ∃ ok stop, Runs text p start ok stop
  | .char c, start => by
    by_cases hc : charAt? text start = some c
    · exact ⟨_, _, .char hc⟩
    · exact ⟨_, _, .noChar hc⟩
  | .range least greatest, start => by
    by_cases hc : ∃ c, charAt? text start = some c ∧ least ≤ c ∧ c ≤ greatest
    · obtain ⟨c, hc, hfits⟩ := hc
      exact ⟨_, _, .range hc hfits⟩
    · exact ⟨_, _, .noRange fun c hat hfits ↦ hc ⟨c, hat, hfits⟩⟩
  | .choice branches, start => by
    obtain ⟨ok, stop, h⟩ := exists_runsFirst text branches start
    exact ⟨ok, stop, .choice h⟩
  | .sequence parts, start => by
    obtain ⟨ok, stop, h⟩ := exists_runsThrough text parts start
    cases ok with
    | true => exact ⟨true, stop, .sequence h⟩
    | false => exact ⟨false, start, .broken h⟩
  | .many body, start => ⟨true, exists_runs_many (exists_runs text body) start⟩
  | .optional body, start => by
    obtain ⟨ok, stop, h⟩ := exists_runs text body start
    exact ⟨true, stop, .optional h⟩

theorem exists_runsFirst (text : List Char) :
    ∀ (branches : List Pattern) (start : Nat), ∃ ok stop, RunsFirst text branches start ok stop
  | [], start => ⟨false, start, .none⟩
  | branch :: branches, start => by
    obtain ⟨ok, stop, h⟩ := exists_runs text branch start
    cases ok with
    | true => exact ⟨true, stop, .taken h⟩
    | false =>
      obtain ⟨ok, stop, hrest⟩ := exists_runsFirst text branches start
      exact ⟨ok, stop, .passed h hrest⟩

theorem exists_runsThrough (text : List Char) :
    ∀ (parts : List Pattern) (start : Nat), ∃ ok stop, RunsThrough text parts start ok stop
  | [], start => ⟨true, start, .done⟩
  | part :: parts, start => by
    obtain ⟨ok, next, h⟩ := exists_runs text part start
    cases ok with
    | false => exact ⟨false, next, .fails h⟩
    | true =>
      obtain ⟨ok, stop, hrest⟩ := exists_runsThrough text parts next
      exact ⟨ok, stop, .next h hrest⟩

end

end Pattern

/-! ### The answer at an offset -/

/-- Whether a matcher succeeds at an offset, and where it leaves the cursor. -/
def Matcher.move (matcher : Matcher) (text : List Char) (start : Nat) : Bool × Nat :=
  match matcher.matchAt text start with
  | some stop => (true, stop)
  | none => (false, start)

namespace Pattern

theorem matchAt_eq (p : Pattern) (text : List Char) (start : Nat) :
    (Matcher.pattern p).matchAt text start = (p.rest? (ahead text start)).map (offsetOf text start) := by
  cases hsuffix : Text.suffixAt text start with
  | none =>
    -- nothing is ahead, and the offset of any rest is the offset itself
    have hoffset : offsetOf text start = fun _ ↦ start := by
      funext rest
      simp [offsetOf, ahead, hsuffix]
    rw [hoffset]
    simp only [Matcher.matchAt, ahead, hsuffix, Option.getD_none]
  | some cs =>
    have hoffset : offsetOf text start =
        fun rest ↦ start + (Text.byteLength cs - Text.byteLength rest) := by
      funext rest
      rw [offsetOf, Text.ahead_of_suffixAt hsuffix]
    rw [hoffset, Text.ahead_of_suffixAt hsuffix]
    simp only [Matcher.matchAt, Matcher.rest?, hsuffix]

/-- A pattern runs to the answer at the offset, and to nothing else. -/
theorem runs_iff_move {p : Pattern} :
    p.Runs text start ok stop ↔ (Matcher.pattern p).move text start = (ok, stop) := by
  have hmove {ok : Bool} {stop : Nat} (h : p.Runs text start ok stop) :
      (Matcher.pattern p).move text start = (ok, stop) := by
    have hends := h.ends
    rw [Matcher.move, matchAt_eq]
    cases ok with
    | false => rw [hends.eq_none, h.stays rfl, Option.map_none]
    | true =>
      obtain ⟨rest, hrest, -, rfl⟩ := hends.exists_rest
      rw [hrest, Option.map_some]
  refine ⟨hmove, fun h ↦ ?_⟩
  -- there is a run, and it has the same end
  obtain ⟨ok', stop', hruns⟩ := exists_runs text p start
  cases (hmove hruns).symm.trans h
  exact hruns

/-- From every offset a pattern runs to one end, which is its answer there. What it has recognised when it
succeeds is cut out of the text and belongs to the language of the pattern; where no character begins that is
nothing. -/
theorem existsUnique_runs (p : Pattern) (text : List Char) (start : Nat) :
    (∃! ending : Bool × Nat, p.Runs text start ending.1 ending.2) ∧
    (∀ ok stop, p.Runs text start ok stop ↔ (Matcher.pattern p).move text start = (ok, stop)) ∧
    ∀ stop, p.Runs text start true stop → ∃ piece ∈ p.regular.matches',
      stop = start + Text.byteLength piece ∧
      (Text.Boundary text start → Text.slice? text start stop = some piece) ∧
      (¬ Text.Boundary text start → piece = []) := by
  refine ⟨⟨(Matcher.pattern p).move text start, runs_iff_move.2 rfl, fun ending h ↦ ?_⟩,
    fun ok stop ↦ runs_iff_move, fun stop h ↦ ?_⟩
  · exact (runs_iff_move.1 h).symm
  · obtain ⟨rest, hrest, -, rfl⟩ := h.ends.exists_rest
    obtain ⟨piece, hpiece, hahead⟩ := p.begins_of_rest? hrest
    rw [Text.offsetOf_append hahead]
    refine ⟨piece, hpiece, rfl, fun hboundary ↦ ?_, fun hbad ↦ ?_⟩
    · obtain ⟨cs, hcs⟩ := Text.boundary_iff.1 hboundary
      rw [Text.ahead_of_suffixAt hcs] at hahead
      obtain ⟨before, rfl, rfl⟩ := Text.suffixAt_eq_some_iff.1 hcs
      exact Text.slice?_eq_some_iff.2 ⟨before, rest, by rw [hahead], rfl, rfl⟩
    · rw [Text.ahead_of_not_boundary hbad] at hahead
      exact (List.append_eq_nil_iff.1 hahead.symm).1

/-- A repetition of repetitions reads two characters of two bytes each, and then stops although its body
could succeed for ever without reading anything. -/
theorem existsUnique_runs_of_nested :
    let p : Pattern := .many (.many (.optional (.char 'é')))
    p.Runs ['x', 'é', 'é', 'y'] 1 true 5 ∧ ∃ piece ∈ p.regular.matches',
      5 = 1 + Text.byteLength piece ∧ Text.slice? ['x', 'é', 'é', 'y'] 1 5 = some piece := by
  intro p
  obtain ⟨-, hmove, hlanguage⟩ := existsUnique_runs p ['x', 'é', 'é', 'y'] 1
  have hruns : p.Runs ['x', 'é', 'é', 'y'] 1 true 5 := (hmove true 5).2 (by decide +kernel)
  obtain ⟨piece, hpiece, hstop, hslice, -⟩ := hlanguage 5 hruns
  exact ⟨hruns, piece, hpiece, hstop, hslice ⟨['x'], ['é', 'é', 'y'], rfl, rfl⟩⟩

end Pattern

end Rebuild
