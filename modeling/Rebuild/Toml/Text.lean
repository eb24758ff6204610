import Rebuild.Text.Rest

/-!
# Texts of TOML

The parts of a TOML text that are not structure: blanks, comments, line ends, keys and strings. A
reader returns what it read with a rest that is shorter than what it was given, so that the readers
of larger parts end.
-/

namespace Rebuild.Toml

open Text (RestOf PartOf)

/-- What a reader has read, and the rest, or nothing if the text is malformed. -/
abbrev Reading (α : Type) (cs : List Char) := Option (α × RestOf cs)

/-- The same answer for a text that a shorter one is a rest of. -/
def Reading.widen {α : Type} {inner outer : List Char} (h : inner.length ≤ outer.length) :
    Reading α inner → Reading α outer
  | none => none
  | some (x, rest) => some (x, rest.widen h)

/-- `Reading.widen` for a text that is shorter by at least one character. -/
def Reading.within {α : Type} {inner outer : List Char} (h : inner.length < outer.length)
    (reading : Reading α inner) : Reading α outer :=
  reading.widen (Nat.le_of_lt h)

/-! ### Between the parts -/

/-- Blanks on a line. -/
def isSpace (c : Char) : Bool :=
  c == ' ' || c == '\t'

/-- Drops blanks. -/
def skipSpace (cs : List Char) : List Char :=
  cs.dropWhile isSpace

theorem length_skipSpace_le (cs : List Char) : (skipSpace cs).length ≤ cs.length := by
  simpa [skipSpace] using (List.dropWhile_sublist isSpace).length_le

/-- Characters that may stand in comments and literal strings: all but the controls, of which only
the tab may. -/
def isText (c : Char) : Bool :=
  c == '\t' || (0x20 ≤ c.toNat && c.toNat ≠ 0x7F)

/-- Drops a line end. -/
def lineEnd? : (cs : List Char) → Option (RestOf cs)
  | '\n' :: cs => some (.behind '\n' cs)
  | '\r' :: '\n' :: cs => some (.cons '\r' (.behind '\n' cs))
  | _ => none

/-- Drops a comment up to its line end. A text that begins no comment stays as it is. -/
def skipComment (cs : List Char) : List Char :=
  match cs with
  | '#' :: rest => rest.dropWhile isText
  | _ => cs

theorem length_skipComment_le (cs : List Char) : (skipComment cs).length ≤ cs.length := by
  unfold skipComment
  split
  · have := (List.dropWhile_sublist isText (l := ‹List Char›)).length_le
    simp only [List.length_cons]
    omega
  · exact Nat.le_refl _

/-- Drops blanks, comments and line ends. -/
def skipLines (cs : List Char) : List Char :=
  match lineEnd? (skipComment (skipSpace cs)) with
  | some ⟨next, _⟩ => skipLines next
  | none => skipComment (skipSpace cs)
termination_by cs.length
decreasing_by
  have := length_skipComment_le (skipSpace cs)
  have := length_skipSpace_le cs
  omega

theorem length_skipLines_le (cs : List Char) : (skipLines cs).length ≤ cs.length := by
  have hcomment := length_skipComment_le (skipSpace cs)
  have hspace := length_skipSpace_le cs
  unfold skipLines
  split
  · rename_i next hnext _
    have := length_skipLines_le next
    omega
  · omega
termination_by cs.length
decreasing_by omega

/-! ### Strings -/

/-- The value of a digit in base sixteen. -/
def hexValue? (c : Char) : Option Nat :=
  if c.isDigit then some (c.toNat - '0'.toNat)
  else if 'a' ≤ c ∧ c ≤ 'f' then some (c.toNat - 'a'.toNat + 10)
  else if 'A' ≤ c ∧ c ≤ 'F' then some (c.toNat - 'A'.toNat + 10)
  else none

/-- The number that `n` digits in base sixteen denote, added to the digits before them. -/
def hexNumber? : Nat → Nat → (cs : List Char) → Option (Nat × PartOf cs)
  | 0, value, cs => some (value, .all cs)
  | _ + 1, _, [] => none
  | n + 1, value, c :: cs =>
    match hexValue? c with
    | none => none
    | some digit =>
      match hexNumber? n (16 * value + digit) cs with
      | none => none
      | some (number, rest) => some (number, rest.cons c)

/-- The character with a number, if there is one. -/
def charOf? (n : Nat) : Option Char :=
  if n.isValidChar then some (Char.ofNat n) else none

/-- Reads an escape behind its backslash. -/
def escape? : (cs : List Char) → Reading Char cs
  | [] => none
  | c :: cs =>
    let plain (x : Char) : Reading Char (c :: cs) := some (x, .behind c cs)
    let coded (digits : Nat) : Reading Char (c :: cs) :=
      match hexNumber? digits 0 cs with
      | none => none
      | some (n, rest) => (charOf? n).map (·, rest.consRest c)
    match c with
    | 'b' => plain '\x08'
    | 't' => plain '\t'
    | 'n' => plain '\n'
    | 'f' => plain '\x0c'
    | 'r' => plain '\r'
    | 'e' => plain '\x1b'
    | '"' => plain '"'
    | '\\' => plain '\\'
    | 'x' => coded 2
    | 'u' => coded 4
    | 'U' => coded 8
    | _ => none

/-- Reads a string in double quotes behind its opening quote; `before` has been read, last
character first. -/
def basicString? (before : List Char) (cs : List Char) : Reading String cs :=
  match cs with
  | [] => none
  | c :: cs =>
    if c = '"' then some (String.ofList before.reverse, .behind c cs)
    else if c = '\\' then
      match escape? cs with
      | none => none
      | some (x, ⟨rest, h⟩) =>
        (basicString? (x :: before) rest).widen (by simp only [List.length_cons]; omega)
    else if isText c then (basicString? (c :: before) cs).widen (by simp)
    else none
termination_by cs.length

/-- Reads a string in single quotes behind its opening quote. -/
def literalString? (cs : List Char) : Reading String cs :=
  let content := cs.takeWhile fun c ↦ isText c && c ≠ '\''
  match hrest : cs.drop content.length with
  | '\'' :: rest =>
    some (String.ofList content, ⟨rest, by
      have := congrArg List.length hrest
      simp only [List.length_drop, List.length_cons] at this
      omega⟩)
  | _ => none

/-- Reads the end of a string over several lines: three quotes, before which one or two more
belong to the string. -/
def tripleEnd? (quote : Char) : (cs : List Char) → Reading (List Char) cs
  | a :: b :: c :: cs =>
    if a = quote ∧ b = quote ∧ c = quote then
      match cs with
      | d :: e :: cs =>
        if d = quote ∧ e = quote then
          some ([quote, quote], ⟨cs, by simp only [List.length_cons]; omega⟩)
        else if d = quote then
          some ([quote], ⟨e :: cs, by simp only [List.length_cons]; omega⟩)
        else some ([], ⟨d :: e :: cs, by simp only [List.length_cons]; omega⟩)
      | [d] =>
        if d = quote then some ([quote], ⟨[], by simp⟩) else some ([], ⟨[d], by simp⟩)
      | [] => some ([], ⟨[], by simp⟩)
    else none
  | _ => none

/-- Drops blanks and line ends. -/
def skipBlank (cs : List Char) : List Char :=
  cs.dropWhile fun c ↦ isSpace c || c == '\n' || c == '\r'

theorem length_skipBlank_le (cs : List Char) : (skipBlank cs).length ≤ cs.length :=
  (List.dropWhile_sublist _).length_le

/-- Reads a string over several lines behind its opening quotes; `before` has been read, last
character first. Where `escapes` are read, a backslash at the end of a line drops the line end and
the blanks behind it. -/
def multilineString? (quote : Char) (escapes : Bool) (before : List Char) (cs : List Char) :
    Reading String cs :=
  match tripleEnd? quote cs with
  | some (more, rest) => some (String.ofList (before.reverse ++ more), rest)
  | none =>
    match cs with
    | [] => none
    | c :: cs =>
      if c = '\\' ∧ escapes then
        match lineEnd? (skipSpace cs) with
        | some ⟨rest, h⟩ =>
          (multilineString? quote escapes before (skipBlank rest)).widen (by
            have := length_skipBlank_le rest
            have := length_skipSpace_le cs
            simp only [List.length_cons]
            omega)
        | none =>
          match escape? cs with
          | none => none
          | some (x, ⟨rest, h⟩) =>
            (multilineString? quote escapes (x :: before) rest).widen
              (by simp only [List.length_cons]; omega)
      else if c = '\r' then
        match cs with
        | '\n' :: cs =>
          (multilineString? quote escapes ('\n' :: '\r' :: before) cs).widen
            (by simp only [List.length_cons]; omega)
        | _ => none
      else if isText c ∨ c = '\n' then
        (multilineString? quote escapes (c :: before) cs).widen (by simp)
      else none
termination_by cs.length
decreasing_by
  · have := length_skipBlank_le rest
    have := length_skipSpace_le cs
    simp only [List.length_cons]
    omega
  all_goals simp only [List.length_cons]; omega

/-- Drops the line end that may stand directly behind three opening quotes. -/
def dropLineEnd (cs : List Char) : List Char :=
  match lineEnd? cs with
  | some ⟨rest, _⟩ => rest
  | none => cs

theorem length_dropLineEnd_le (cs : List Char) : (dropLineEnd cs).length ≤ cs.length := by
  unfold dropLineEnd
  split
  · omega
  · exact Nat.le_refl _

/-- Reads a string of any form. -/
def string? : (cs : List Char) → Reading String cs
  | '"' :: '"' :: '"' :: cs =>
    (multilineString? '"' true [] (dropLineEnd cs)).widen (by
      have := length_dropLineEnd_le cs
      simp only [List.length_cons]
      omega)
  | '\'' :: '\'' :: '\'' :: cs =>
    (multilineString? '\'' false [] (dropLineEnd cs)).widen (by
      have := length_dropLineEnd_le cs
      simp only [List.length_cons]
      omega)
  | '"' :: cs => (basicString? [] cs).widen (by simp)
  | '\'' :: cs => (literalString? cs).widen (by simp)
  | _ => none

/-! ### Keys -/

/-- Characters of keys without quotes. -/
def isBare (c : Char) : Bool :=
  c.isAlphanum || c == '_' || c == '-'

private theorem length_drop_takeWhile_lt {p : Char → Bool} {cs : List Char}
    (h : cs.takeWhile p ≠ []) : (cs.drop (cs.takeWhile p).length).length < cs.length := by
  have hle := (List.takeWhile_sublist p : (cs.takeWhile p).Sublist cs).length_le
  have hpos := List.length_pos_iff.2 h
  rw [List.length_drop]
  omega

/-- Reads one part of a key. -/
def simpleKey? (cs : List Char) : Reading String cs :=
  match cs with
  | '"' :: cs => (basicString? [] cs).widen (by simp)
  | '\'' :: cs => (literalString? cs).widen (by simp)
  | cs =>
    let bare := cs.takeWhile isBare
    if h : bare ≠ [] then
      some (String.ofList bare, ⟨cs.drop bare.length, length_drop_takeWhile_lt h⟩)
    else none

/-- The number of parts that a key may have. -/
def maxKeyParts : Nat := 80

/-- Reads a key: one part, or several with dots between them, but at most `parts`. -/
def keyParts? (parts : Nat) (cs : List Char) : Reading (List String) cs :=
  match parts with
  | 0 => none
  | parts + 1 =>
    match simpleKey? cs with
    | none => none
    | some (first, ⟨rest, h⟩) =>
      match hdot : skipSpace rest with
      | '.' :: behindDot =>
        have hlt : (skipSpace behindDot).length < cs.length := by
          have := length_skipSpace_le behindDot
          have := length_skipSpace_le rest
          simp only [hdot, List.length_cons] at this
          omega
        match keyParts? parts (skipSpace behindDot) with
        | none => none
        | some (more, after) => some (first :: more, after.ofLt hlt)
      | _ => some ([first], ⟨rest, h⟩)

/-- Reads a key. -/
def key? (cs : List Char) : Reading (List String) cs :=
  keyParts? maxKeyParts cs

end Rebuild.Toml
