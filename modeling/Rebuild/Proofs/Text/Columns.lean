import Mathlib.Algebra.GroupWithZero.Nat
import Rebuild.Text.Style
import Rebuild.Text.Width

/-!
# Texts of single columns

How wide a text is depends on what its characters are written together with, so the widths of two texts do
not say how wide they are one after the other. They do for texts that are made of characters of which each
takes a column wherever it stands, and of whole control codes: `Spans` builds such a text up and counts its
columns. Such a text is as wide as it was counted (`Spans.displayWidth_eq`), and cut to a width it takes no
more than that (`Spans.exists_truncate`).
-/

namespace Rebuild.Text

variable {before cs others code rest tail : List Char} {c : Char} {n m room : Nat}

/-! ### Segments -/

namespace Ansi

theorem go_code (h : code? cs = some (code, rest)) (before : List Char) :
    segments.go before cs = segments.flush before (.code code :: segments.go [] rest) := by
  rw [segments.go]
  split
  · next heq =>
    obtain ⟨rfl, rfl⟩ := Prod.mk.inj (Option.some.inj (h.symm.trans heq))
    rfl
  · next heq => cases h.symm.trans heq

theorem go_nil (before : List Char) : segments.go before [] = segments.flush before [] := by
  rw [segments.go]
  rfl

theorem go_cons (h : code? (c :: cs) = none) (before : List Char) :
    segments.go before (c :: cs) = segments.go (c :: before) cs := by
  rw [segments.go]
  split
  · next heq => cases h.symm.trans heq
  · rfl

/-- The characters of a segment. -/
def Segment.characters : Segment → List Char
  | .plain cs => cs
  | .code cs => cs

theorem mem_of_mem_flush {parts : List Segment} {part : Segment} (h : part ∈ segments.flush before parts) :
    part = .plain before.reverse ∨ part ∈ parts := by
  rw [segments.flush] at h
  split at h
  · exact Or.inr h
  · exact List.mem_cons.1 h

/-- The segments of a text hold no other characters. -/
theorem mem_of_mem_segments {part : Segment} (h : part ∈ segments.go before cs) (hc : c ∈ part.characters) :
    c ∈ before ∨ c ∈ cs := by
  fun_induction segments.go before cs with
  | case1 before cs code rest hcode ih =>
    rw [code?_append hcode, List.mem_append]
    rcases mem_of_mem_flush h with rfl | h
    · exact Or.inl (List.mem_reverse.1 hc)
    · rcases List.mem_cons.1 h with rfl | h
      · exact Or.inr (Or.inl hc)
      · exact Or.inr (Or.inr ((ih h).resolve_left List.not_mem_nil))
  | case2 before hnone =>
    rcases mem_of_mem_flush h with rfl | h
    · exact Or.inl (List.mem_reverse.1 hc)
    · cases h
  | case3 before d cs hnone ih =>
    rw [List.mem_cons] at ih ⊢
    rcases ih h with (hd | hbefore) | hcs
    · exact Or.inr (Or.inl hd)
    · exact Or.inl hbefore
    · exact Or.inr (Or.inr hcs)

end Ansi

/-! ### Cutting -/

theorem truncate_of_fits (h : displayWidth cs ≤ room) : truncate cs room tail = cs :=
  if_pos h

theorem mem_of_mem_fitting (h : c ∈ fitting room cs) : c ∈ cs := by
  fun_induction fitting room cs with
  | case1 => exact h
  | case2 => exact List.mem_cons.2 (Or.inl (List.mem_singleton.1 h))
  | case3 => cases h
  | case4 room d cs _ _ ih => exact List.mem_cons.2 ((List.mem_cons.1 h).imp_right ih)

theorem mem_of_mem_codes {parts : List Ansi.Segment} (h : c ∈ truncate.codes parts) :
    ∃ part ∈ parts, c ∈ part.characters := by
  fun_induction truncate.codes parts with
  | case1 => cases h
  | case2 code rest ih =>
    rcases List.mem_append.1 h with hc | h
    · exact ⟨.code code, List.mem_cons_self, hc⟩
    · obtain ⟨part, hpart, hc⟩ := ih h
      exact ⟨part, List.mem_cons_of_mem _ hpart, hc⟩
  | case3 rest cs ih =>
    obtain ⟨part, hpart, hc⟩ := ih h
    exact ⟨part, List.mem_cons_of_mem _ hpart, hc⟩

theorem mem_of_mem_cut {parts : List Ansi.Segment} (h : c ∈ truncate.cut tail room parts) :
    (∃ part ∈ parts, c ∈ part.characters) ∨ c ∈ tail := by
  have hlater {part : Ansi.Segment} {rest : List Ansi.Segment}
      (h : (∃ part ∈ rest, c ∈ part.characters) ∨ c ∈ tail) :
      (∃ other ∈ part :: rest, c ∈ other.characters) ∨ c ∈ tail :=
    h.imp_left fun ⟨other, hother, hc⟩ ↦ ⟨other, List.mem_cons_of_mem _ hother, hc⟩
  fun_induction truncate.cut tail room parts with
  | case1 => cases h
  | case2 room code rest ih =>
    rcases List.mem_append.1 h with hc | h
    · exact Or.inl ⟨.code code, List.mem_cons_self, hc⟩
    · exact hlater (ih h)
  | case3 room cs rest hwide =>
    rcases List.mem_append.1 h with h | hcodes
    · rcases List.mem_append.1 h with hc | htail
      · exact Or.inl ⟨.plain cs, List.mem_cons_self, mem_of_mem_fitting hc⟩
      · exact Or.inr htail
    · exact hlater (Or.inl (mem_of_mem_codes hcodes))
  | case4 room cs rest hfits ih =>
    rcases List.mem_append.1 h with hc | h
    · exact Or.inl ⟨.plain cs, List.mem_cons_self, hc⟩
    · exact hlater (ih h)

/-- What is left of a text that is cut holds no other characters, but for the mark of the cut. -/
theorem mem_of_mem_truncate (h : c ∈ truncate cs room tail) : c ∈ cs ∨ c ∈ tail := by
  rw [truncate] at h
  split at h
  · exact Or.inl h
  · refine (mem_of_mem_cut h).imp_left fun ⟨part, hpart, hc⟩ ↦ ?_
    exact (Ansi.mem_of_mem_segments hpart hc).resolve_left List.not_mem_nil

/-! ### Single columns -/

/-- A character that takes one column wherever it stands. -/
structure Single (c : Char) : Prop where
  /-- It begins no code. -/
  not_escape : Ansi.isEscape c = false
  /-- It takes one column. -/
  charWidth_eq : charWidth c = 1
  /-- It takes no other before a text to which it is nothing special, and it is nothing special itself. -/
  step_eq : ({} : Context).step c = (1, {})

/-- Texts of characters that take single columns, and of whole codes, with the columns that they take. -/
inductive Spans : List Char → Nat → Prop
  /-- The empty text takes none. -/
  | nil : Spans [] 0
  /-- A character takes one more. -/
  | char {c : Char} {cs : List Char} {n : Nat} (hc : Single c) (h : Spans cs n) : Spans (c :: cs) (n + 1)
  /-- A code takes none, and is a code whatever follows. -/
  | code {code cs : List Char} {n : Nat} (hcode : ∀ rest, Ansi.code? (code ++ rest) = some (code, rest))
    (h : Spans cs n) : Spans (code ++ cs) n

theorem spans_of_single (h : ∀ c ∈ cs, Single c) : Spans cs cs.length := by
  induction cs with
  | nil => exact .nil
  | cons c cs ih =>
    obtain ⟨hc, hrest⟩ := List.forall_mem_cons.1 h
    exact .char hc (ih hrest)

theorem Spans.append (h : Spans cs n) (h' : Spans others m) : Spans (cs ++ others) (n + m) := by
  induction h with
  | nil => rwa [Nat.zero_add, List.nil_append]
  | char hc _ ih =>
    rw [Nat.add_right_comm]
    exact .char hc ih
  | code hcode _ ih =>
    rw [List.append_assoc]
    exact .code hcode ih

theorem measure_of_single (h : ∀ c ∈ cs, Single c) : measure cs = ((cs.length : Int), {}) := by
  induction cs with
  | nil => rfl
  | cons c cs ih =>
    obtain ⟨hc, hrest⟩ := List.forall_mem_cons.1 h
    rw [measure, ih hrest]
    simp only [hc.step_eq, List.length_cons, Int.natCast_add, Int.natCast_one]

theorem plainWidth_of_single (h : ∀ c ∈ cs, Single c) : plainWidth cs = cs.length := by
  rw [plainWidth, measure_of_single h, Int.toNat_natCast]

theorem fitting_of_single (h : ∀ c ∈ cs, Single c) (room : Nat) : fitting room cs = cs.take room := by
  induction cs generalizing room with
  | nil => simp [fitting]
  | cons c cs ih =>
    obtain ⟨hc, hrest⟩ := List.forall_mem_cons.1 h
    rw [fitting, hc.charWidth_eq]
    match room with
    | 0 => rfl
    | 1 => simp
    | room + 2 => simp [ih hrest]

theorem code?_of_single (h : Single c) : Ansi.code? (c :: cs) = none := by
  rw [Ansi.code?, h.not_escape]
  rfl

/-- The columns of segments. -/
def widthOf (parts : List Ansi.Segment) : Nat :=
  parts.foldr (fun part n ↦ displayWidth.columns part + n) 0

theorem widthOf_flush (h : ∀ c ∈ before, Single c) (parts : List Ansi.Segment) :
    widthOf (Ansi.segments.flush before parts) = before.length + widthOf parts := by
  rw [Ansi.segments.flush]
  split
  · next hempty => rw [List.isEmpty_iff.1 hempty, List.length_nil, Nat.zero_add]
  · have hwidth : plainWidth before.reverse = before.length := by
      rw [plainWidth_of_single fun c hc ↦ h c (List.mem_reverse.1 hc), List.length_reverse]
    exact congrArg (· + widthOf parts) hwidth

/-- The segments of a text are as wide as the text and what has been read before it. -/
theorem Spans.widthOf_go (h : Spans cs n) (hbefore : ∀ c ∈ before, Single c) :
    widthOf (Ansi.segments.go before cs) = before.length + n := by
  induction h generalizing before with
  | nil =>
    rw [Ansi.go_nil]
    exact widthOf_flush hbefore []
  | char hc _ ih =>
    rw [Ansi.go_cons (code?_of_single hc), ih (List.forall_mem_cons.2 ⟨hc, hbefore⟩), List.length_cons]
    omega
  | code hcode _ ih =>
    rw [Ansi.go_code (hcode _), widthOf_flush hbefore]
    change before.length + (0 + widthOf (Ansi.segments.go [] _)) = _
    rw [ih (List.forall_mem_nil _), List.length_nil, Nat.zero_add, Nat.zero_add]

/-- A text is as wide as it was counted. -/
theorem Spans.displayWidth_eq (h : Spans cs n) : displayWidth cs = n :=
  (h.widthOf_go (List.forall_mem_nil _)).trans (Nat.zero_add n)

/-- Such texts are as wide one after the other as they are together. -/
theorem spans_flatten {parts : List (List Char)} (h : ∀ part ∈ parts, ∃ n, Spans part n) :
    Spans parts.flatten (parts.map displayWidth).sum := by
  induction parts with
  | nil => exact .nil
  | cons part parts ih =>
    obtain ⟨⟨n, hpart⟩, hrest⟩ := List.forall_mem_cons.1 h
    rw [List.flatten_cons, List.map_cons, List.sum_cons, hpart.displayWidth_eq]
    exact hpart.append (ih hrest)

/-! ### Cutting texts of single columns -/

theorem codes_flush (before : List Char) (parts : List Ansi.Segment) :
    truncate.codes (Ansi.segments.flush before parts) = truncate.codes parts := by
  rw [Ansi.segments.flush]
  split <;> rfl

/-- The codes of a text take no columns. -/
theorem Spans.codes (h : Spans cs n) (before : List Char) :
    Spans (truncate.codes (Ansi.segments.go before cs)) 0 := by
  induction h generalizing before with
  | nil =>
    rw [Ansi.go_nil, codes_flush]
    exact .nil
  | char hc _ ih =>
    rw [Ansi.go_cons (code?_of_single hc)]
    exact ih _
  | code hcode _ ih =>
    rw [Ansi.go_code (hcode _), codes_flush]
    exact .code hcode (ih [])

/-- Where the segments behind some characters are cut to what is left of the room, the characters and the
segments are cut to the room. -/
theorem exists_cut_flush (hbefore : ∀ c ∈ before, Single c) (htail : ∀ c ∈ tail, Single c)
    (parts : List Ansi.Segment) (hcodes : Spans (truncate.codes parts) 0)
    (hcut : ∀ room, ∃ m ≤ room + tail.length, Spans (truncate.cut tail room parts) m) (room : Nat) :
    ∃ m ≤ room + tail.length, Spans (truncate.cut tail room (Ansi.segments.flush before parts)) m := by
  rw [Ansi.segments.flush]
  split
  · exact hcut room
  · have hreverse : ∀ c ∈ before.reverse, Single c := fun c hc ↦ hbefore c (List.mem_reverse.1 hc)
    rw [truncate.cut, plainWidth_of_single hreverse]
    split
    · have hfirst : Spans (fitting room before.reverse) (before.reverse.take room).length := by
        rw [fitting_of_single hreverse]
        exact spans_of_single fun c hc ↦ hreverse c (List.mem_of_mem_take hc)
      refine ⟨_, ?_, (hfirst.append (spans_of_single htail)).append hcodes⟩
      rw [List.length_take]
      omega
    · obtain ⟨m, hm, hrest⟩ := hcut (room - before.reverse.length)
      exact ⟨_, by omega, (spans_of_single hreverse).append hrest⟩

theorem Spans.exists_cut (h : Spans cs n) (hbefore : ∀ c ∈ before, Single c) (htail : ∀ c ∈ tail, Single c)
    (room : Nat) : ∃ m ≤ room + tail.length, Spans (truncate.cut tail room (Ansi.segments.go before cs)) m := by
  induction h generalizing before room with
  | nil =>
    rw [Ansi.go_nil]
    exact exists_cut_flush hbefore htail [] .nil (fun _ ↦ ⟨0, Nat.zero_le _, .nil⟩) room
  | char hc _ ih =>
    rw [Ansi.go_cons (code?_of_single hc)]
    exact ih (List.forall_mem_cons.2 ⟨hc, hbefore⟩) room
  | code hcode hrest ih =>
    rw [Ansi.go_code (hcode _)]
    refine exists_cut_flush hbefore htail (.code _ :: _) (.code hcode (hrest.codes [])) (fun room ↦ ?_) room
    obtain ⟨m, hm, hspans⟩ := ih (List.forall_mem_nil _) room
    exact ⟨m, hm, .code hcode hspans⟩

/-- What is left of a text that is cut takes no more than the room, if there is room for the mark. -/
theorem Spans.exists_truncate (h : Spans cs n) (htail : ∀ c ∈ tail, Single c) (hroom : tail.length ≤ room) :
    ∃ m ≤ room, Spans (truncate cs room tail) m := by
  rw [truncate, h.displayWidth_eq]
  split
  · next hfits => exact ⟨n, hfits, h⟩
  · obtain ⟨m, hm, hcut⟩ := h.exists_cut (List.forall_mem_nil _) htail (room - tail.length)
    rw [plainWidth_of_single htail]
    exact ⟨m, by omega, hcut⟩

/-! ### Bold text -/

/-- What switches bold text on or off. -/
def strongCodes : List Char :=
  Style.strong.opening.toList ++ Style.reset.toList

theorem mem_of_mem_reopen {opening : List Char} (h : c ∈ Style.reopen opening cs) :
    c ∈ cs ∨ c ∈ opening ++ Style.reset.toList := by
  fun_induction Style.reopen opening cs with
  | case1 => exact Or.inl h
  | case2 d cs hreset ih =>
    rw [List.mem_append, List.mem_append] at h
    rw [List.mem_append]
    rcases h with (h | h) | h
    · exact Or.inr (Or.inr h)
    · exact Or.inr (Or.inl h)
    · exact (ih h).imp (fun h ↦ List.mem_cons_of_mem _ (List.mem_of_mem_drop h)) List.mem_append.1
  | case3 d cs _ ih =>
    rw [List.mem_cons] at h ⊢
    rcases h with h | h
    · exact Or.inl (Or.inl h)
    · exact (ih h).imp_left Or.inr

theorem mem_of_mem_strong {coloured : Bool} {s : String} (h : c ∈ (Style.strong.apply coloured s).toList) :
    c ∈ s.toList ∨ c ∈ strongCodes := by
  rw [Style.apply] at h
  split at h
  · rw [String.toList_append, String.toList_append, String.toList_ofList, List.mem_append, List.mem_append] at h
    rw [strongCodes, List.mem_append]
    rcases h with (h | h) | h
    · exact Or.inr (Or.inl h)
    · exact (mem_of_mem_reopen h).imp_right List.mem_append.1
    · exact Or.inr (Or.inr h)
  · exact Or.inl h

theorem reopen_of_no_escape {opening : List Char} (h : '\x1b' ∉ cs) : Style.reopen opening cs = cs := by
  fun_induction Style.reopen opening cs with
  | case1 => rfl
  | case2 d cs hreset ih =>
    have hbegins : Style.reset.toList <+: d :: cs := List.isPrefixOf_iff_prefix.1 hreset
    exact absurd (hbegins.subset (by decide)) h
  | case3 d cs _ ih => rw [ih fun hcs ↦ h (List.mem_cons_of_mem _ hcs)]

theorem complete?_ended (cs : List Char) : Ansi.complete? .ended cs = none := by
  cases cs <;> rfl

/-- What switches bold text on, and what resets it, is a code whatever follows. -/
theorem code?_strong (rest : List Char) :
    Ansi.code? (Style.strong.opening.toList ++ rest) = some (Style.strong.opening.toList, rest) ∧
      Ansi.code? (Style.reset.toList ++ rest) = some (Style.reset.toList, rest) := by
  have hopening : Style.strong.opening.toList = ['\x1b', '[', '1', 'm'] := by decide
  have hreset : Style.reset.toList = ['\x1b', '[', '0', 'm'] := by decide
  rw [hopening, hreset]
  simp [Ansi.code?, Ansi.complete?, Ansi.isEscape, Ansi.Phase.next?, Ansi.isIntroducer, Ansi.isFinal,
    complete?_ended, Ansi.Phase.accepts]

/-- Bold text takes as many columns as bare text of single columns. -/
theorem spans_strong {s : String} (coloured : Bool) (h : ∀ c ∈ s.toList, Single c) :
    Spans (Style.strong.apply coloured s).toList s.toList.length := by
  have hbare := spans_of_single h
  rw [Style.apply]
  split
  · have hescape : '\x1b' ∉ s.toList := fun hc ↦ absurd (h _ hc).not_escape (by decide)
    rw [String.toList_append, String.toList_append, String.toList_ofList, reopen_of_no_escape hescape,
      List.append_assoc]
    refine .code (fun rest ↦ (code?_strong rest).1) (hbare.append (m := 0) ?_)
    exact List.append_nil Style.reset.toList ▸ .code (fun rest ↦ (code?_strong rest).2) .nil
  · exact hbare

theorem covers_eq_false {ranges : List (Nat × Nat)} (hranges : ∀ range ∈ ranges, 0x7F ≤ range.1)
    (hc : c.toNat < 0x7F) : WidthTable.covers ranges c = false := by
  refine List.any_eq_false.2 fun range hrange ↦ ?_
  have hfirst := hranges range hrange
  simp only [Bool.and_eq_true, decide_eq_true_eq]
  omega

/-- Printable characters of ASCII take single columns. -/
theorem single_of_printable (h : 0x20 ≤ c.toNat) (h' : c.toNat < 0x7F) : Single c := by
  have hne {d : Char} (hd : d.toNat < 0x20 ∨ 0x7F ≤ d.toNat) : c ≠ d := by
    rintro rfl
    omega
  have hcontrol : isControl c = false := by
    rw [isControl, Bool.or_eq_false_iff, Bool.and_eq_false_iff]
    simp only [decide_eq_false_iff_not]
    omega
  have htone : isSkinTone c = false := by
    rw [isSkinTone, Bool.and_eq_false_iff]
    simp only [decide_eq_false_iff_not]
    omega
  refine ⟨?_, ?_, ?_⟩
  · rw [Ansi.isEscape, Bool.or_eq_false_iff, beq_eq_false_iff_ne, beq_eq_false_iff_ne]
    exact ⟨hne (by decide), hne (by decide)⟩
  · rw [charWidth, hcontrol, covers_eq_false (by decide +kernel) h', covers_eq_false (by decide +kernel) h',
      covers_eq_false (by decide +kernel) h', htone, if_neg (hne (by decide))]
    rfl
  · have hfeed : c ≠ '\n' := hne (by decide)
    have hreturn : c ≠ '\r' := hne (by decide)
    have hlow : c.toNat ≤ 0xA0 := by omega
    simp [Context.step, Context.stepPlain, hfeed, hreturn, hlow]

end Rebuild.Text
