/-!
# Terminal control codes inside text

A text meant for a terminal may hold codes that style it and take no room. `segments` splits a
text into codes and what stands between them. A code is recognised by a small automaton, and is
the longest beginning at its escape that the automaton accepts; an escape that begins no code is
text like any other. Codes that hold a string of their own, such as the target of a link, go on to
the end of the text if the string is not ended.
-/

namespace Rebuild.Text.Ansi

/-- How much of a code has been read. -/
inductive Phase where
  /-- The escape character, and whether it is one that begins codes with strings. -/
  | escape (strings : Bool)
  /-- A parenthesis directly after the escape, which selects a character set. -/
  | charset
  /-- The digit that names a character set. -/
  | charsetNamed
  /-- Brackets and other introducers. -/
  | introducer
  /-- The given number of digits of a parameter, at most four and one that ends the code. -/
  | digits (n : Nat)
  /-- The semicolon between two parameters. -/
  | separator
  /-- A string that the code holds, and whether a bell ends it. -/
  | string (bell : Bool)
  /-- An escape in such a string. -/
  | stringEscape (bell : Bool)
  /-- The last character of a code. -/
  | ended
deriving DecidableEq, Repr

/-- Characters that begin a code. -/
def isEscape (c : Char) : Bool :=
  c == '\x1b' || c == '\u009b'

/-- Characters that end a code. -/
def isFinal (c : Char) : Bool :=
  ('A' ≤ c && c ≤ 'P') || c == 'R' || c == 'Z' || c == 'c' || ('f' ≤ c && c ≤ 'n') || c == 'q' ||
    c == 'r' || c == 'y' || c == '=' || c == '>' || c == '<'

/-- The character that ends a string in a code. -/
def isStringEnd (c : Char) : Bool :=
  c == '\u009c'

/-- Characters that stand between the escape and the parameters. -/
def isIntroducer (c : Char) : Bool :=
  c == '[' || c == '#' || c == '?'

namespace Phase

/-- Whether what has been read so far is a whole code. -/
def accepts : Phase → Bool
  | charsetNamed | digits _ | string _ | stringEscape _ | ended => true
  | escape _ | charset | introducer | separator => false

/-- Reads one more character, if a code can go on with it. -/
def next? (phase : Phase) (c : Char) : Option Phase :=
  match phase with
  | escape strings =>
    if c == '(' || c == ')' then some charset
    else if strings && (c == ']' || c == 'P') then some (string (c == ']'))
    else if isIntroducer c || c == ';' then some introducer
    else if c.isDigit then some (digits 1)
    else if isFinal c then some ended
    else none
  | charset =>
    if c == '(' || c == ')' || isIntroducer c || c == ';' then some introducer
    else if '0' ≤ c && c ≤ '2' then some charsetNamed
    else if c.isDigit then some (digits 1)
    else if isFinal c then some ended
    else none
  | introducer =>
    if c == '(' || c == ')' || isIntroducer c || c == ';' then some introducer
    else if c.isDigit then some (digits 1)
    else if isFinal c then some ended
    else none
  | digits n =>
    if 5 ≤ n then none
    else if c == ';' then some separator
    else if c.isDigit then some (digits (n + 1))
    else if isFinal c then some ended
    else none
  | separator =>
    if c == ';' then some separator
    else if c.isDigit then some (digits 1)
    else if isFinal c then some ended
    else none
  | string bell =>
    if isStringEnd c || (bell && c == '\x07') then some ended
    else if c == '\x1b' then some (stringEscape bell)
    else some (string bell)
  | stringEscape bell => if c == '\\' then some ended else some (string bell)
  | charsetNamed | ended => none

end Phase

/-- Splits off the longest part of the text that completes a code, from a phase on. -/
def complete? (phase : Phase) : List Char → Option (List Char × List Char)
  | [] => none
  | c :: cs =>
    match phase.next? c with
    | none => none
    | some next =>
      match complete? next cs with
      | some (code, rest) => some (c :: code, rest)
      | none => if next.accepts then some ([c], cs) else none

/-- Splits off the code at the start of the text. -/
def code? : List Char → Option (List Char × List Char)
  | [] => none
  | c :: cs =>
    if isEscape c then
      (complete? (.escape (c == '\x1b')) cs).map fun (code, rest) ↦ (c :: code, rest)
    else none

theorem complete?_append {phase : Phase} {cs code rest : List Char}
    (h : complete? phase cs = some (code, rest)) : cs = code ++ rest := by
  induction cs generalizing phase code with
  | nil => simp [complete?] at h
  | cons c cs ih =>
    simp only [complete?] at h
    split at h
    · simp at h
    · split at h
      · rename_i hc
        simp only [Option.some.injEq, Prod.mk.injEq] at h
        obtain ⟨rfl, rfl⟩ := h
        simp [ih hc]
      · split at h <;> simp at h
        obtain ⟨rfl, rfl⟩ := h
        rfl

/-- A code and what follows it make up the text. -/
theorem code?_append {cs code rest : List Char} (h : code? cs = some (code, rest)) :
    cs = code ++ rest := by
  cases cs with
  | nil => simp [code?] at h
  | cons c cs =>
    simp only [code?] at h
    split at h
    · obtain ⟨⟨code', rest'⟩, h', heq⟩ := Option.map_eq_some_iff.1 h
      simp only [Prod.mk.injEq] at heq
      obtain ⟨rfl, rfl⟩ := heq
      simp [complete?_append h']
    · simp at h

theorem code?_ne_nil {cs code rest : List Char} (h : code? cs = some (code, rest)) :
    code ≠ [] := by
  cases cs with
  | nil => simp [code?] at h
  | cons c cs =>
    simp only [code?] at h
    split at h
    · obtain ⟨_, _, heq⟩ := Option.map_eq_some_iff.1 h
      simp only [Prod.mk.injEq] at heq
      simp [← heq.1]
    · simp at h

/-- A part of a text. -/
inductive Segment where
  /-- Characters that are shown. -/
  | plain (cs : List Char)
  /-- A control code. -/
  | code (cs : List Char)
deriving DecidableEq, Repr

/-- The codes of a text and the non-empty texts between them, in order. -/
def segments (cs : List Char) : List Segment :=
  go [] cs
where
  /-- Goes on after `before`, the characters shown since the last code, last one first. -/
  go (before : List Char) (cs : List Char) : List Segment :=
    match _hcode : code? cs with
    | some (code, rest) => flush before (.code code :: go [] rest)
    | none =>
      match cs with
      | [] => flush before []
      | c :: cs => go (c :: before) cs
  termination_by cs.length
  decreasing_by
    · have happ := code?_append _hcode
      have hne := List.length_pos_iff.2 (code?_ne_nil _hcode)
      simp only [happ, List.length_append]
      omega
    · simp
  /-- Puts the shown characters, if any, before the segments. -/
  flush (before : List Char) (segments : List Segment) : List Segment :=
    if before.isEmpty then segments else .plain before.reverse :: segments

end Rebuild.Text.Ansi
