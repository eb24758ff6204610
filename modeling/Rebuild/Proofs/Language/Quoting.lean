import Rebuild.Proofs.Language.Tokens

/-!
# The inside of a literal

The lexer looks for the end of a literal and never at what it stands for; `Literal.unquote` resolves the escapes
of a text that it takes to be a literal. Both go through the text by the same parts: characters that are neither a
quote nor a backslash, and backslashes with one character behind each. A text has parts up to a quote in at most
one way (`eq_of_inner_append`). The lexer ends a literal where they end (`behindQuote?_eq_some_iff`), and a literal
stands for their values (`unquote_ofParts`).

`Literal.unquote` also has an answer for a text that is no literal. `Literal.unquote?` has none, and on the
literals that the lexer finds the two are the same.
-/

namespace Rebuild.Language.Literal

/-! ### Parts -/

/-- A part of the inside of a literal. -/
inductive Part where
  /-- A character that is neither a quote nor a backslash. -/
  | plain (c : Char) (hquote : c ≠ '"') (hescape : c ≠ '\\')
  /-- A backslash and the character behind it. -/
  | escape (c : Char)

/-- The character that a part stands for. -/
def Part.value : Part → Char
  | plain c _ _ => c
  | escape c => if c = 'n' then '\n' else if c = 't' then '\t' else c

/-- The text of parts. -/
def inner : List Part → List Char
  | [] => []
  | .plain c _ _ :: parts => c :: inner parts
  | .escape c :: parts => '\\' :: c :: inner parts

/-- The literal that is made of parts. -/
def ofParts (parts : List Part) : List Char :=
  '"' :: (inner parts ++ ['"'])

variable {cs rest : List Char} {parts others : List Part} {c : Char}

/-- A text has parts up to a quote, up to a backslash with nothing behind it, or up to its end. -/
theorem exists_parts (cs : List Char) : ∃ parts tail, cs = inner parts ++ tail ∧
    (tail = [] ∨ tail = ['\\'] ∨ ∃ rest, tail = '"' :: rest) := by
  -- on the length, since an escape takes two characters at once
  induction hlength : cs.length using Nat.strongRecOn generalizing cs with
  | ind length ih =>
  subst hlength
  cases cs with
  | nil => exact ⟨[], [], rfl, .inl rfl⟩
  | cons c cs =>
    by_cases hquote : c = '"'
    · subst hquote
      exact ⟨[], '"' :: cs, rfl, .inr (.inr ⟨cs, rfl⟩)⟩
    by_cases hescape : c = '\\'
    · subst hescape
      cases cs with
      | nil => exact ⟨[], ['\\'], rfl, .inr (.inl rfl)⟩
      | cons c cs =>
        obtain ⟨parts, tail, rfl, htail⟩ := ih _ (Nat.lt_succ_of_lt (Nat.lt_succ_self _)) cs rfl
        exact ⟨.escape c :: parts, tail, rfl, htail⟩
    · obtain ⟨parts, tail, rfl, htail⟩ := ih _ (Nat.lt_succ_self _) cs rfl
      exact ⟨.plain c hquote hescape :: parts, tail, rfl, htail⟩

/-- Up to a quote a text has parts in one way only. -/
theorem eq_of_inner_append {rest' : List Char}
    (h : inner parts ++ '"' :: rest = inner others ++ '"' :: rest') : parts = others := by
  induction parts generalizing others with
  | nil =>
    match others with
    | [] => rfl
    | .plain c hquote _ :: others => exact absurd (List.cons.inj h).1.symm hquote
    | .escape c :: others => exact absurd (List.cons.inj h).1 (by decide)
  | cons part parts ih =>
    match part, others with
    -- an unlike part on the other side would begin with a quote or a backslash
    | .plain c hquote _, [] => exact absurd (List.cons.inj h).1 hquote
    | .escape c, [] => exact absurd (List.cons.inj h).1 (by decide)
    | .plain c _ hescape, .escape c' :: others => exact absurd (List.cons.inj h).1 hescape
    | .escape c, .plain c' _ hescape :: others => exact absurd (List.cons.inj h).1.symm hescape
    | .plain c _ _, .plain c' _ _ :: others =>
      obtain ⟨rfl, htail⟩ := List.cons.inj h
      rw [ih htail]
    | .escape c, .escape c' :: others =>
      obtain ⟨rfl, htail⟩ := List.cons.inj (List.cons.inj h).2
      rw [ih htail]

/-- A literal is made of parts in one way only. -/
theorem ofParts_injective (h : ofParts parts = ofParts others) : parts = others :=
  eq_of_inner_append (List.cons.inj h).2

/-! ### Finding the end -/

theorem behindQuote?_cons (hquote : c ≠ '"') (hescape : c ≠ '\\') (cs : List Char) :
    Matcher.behindQuote? (c :: cs) = Matcher.behindQuote? cs := by
  rw [Matcher.behindQuote?, if_neg hquote]
  · exact fun hc _ ↦ hescape hc
  · exact fun _ _ hc _ ↦ hescape hc

/-- Parts are passed. -/
theorem behindQuote?_inner_append (parts : List Part) (cs : List Char) :
    Matcher.behindQuote? (inner parts ++ cs) = Matcher.behindQuote? cs := by
  induction parts with
  | nil => rfl
  | cons part parts ih =>
    cases part with
    | plain c hquote hescape => exact (behindQuote?_cons hquote hescape _).trans ih
    | escape c => exact ih

/-- A literal is closed where its parts end. -/
theorem behindQuote?_eq_some_iff :
    Matcher.behindQuote? cs = some rest ↔ ∃ parts, cs = inner parts ++ '"' :: rest := by
  constructor
  · intro h
    obtain ⟨parts, tail, rfl, htail⟩ := exists_parts cs
    rw [behindQuote?_inner_append] at h
    rcases htail with rfl | rfl | ⟨rest', rfl⟩
    · cases h
    · cases h
    · cases h
      exact ⟨parts, rfl⟩
  · rintro ⟨parts, rfl⟩
    exact behindQuote?_inner_append parts _

theorem rest?_ofParts_append (parts : List Part) (rest : List Char) :
    Matcher.stringLiteral.rest? (ofParts parts ++ rest) = some rest := by
  have hsplit : ofParts parts ++ rest = '"' :: (inner parts ++ '"' :: rest) := by simp [ofParts]
  rw [hsplit]
  exact behindQuote?_eq_some_iff.2 ⟨parts, rfl⟩

/-- A literal is found from its opening quote up to its closing one. -/
theorem rest?_stringLiteral_eq_some_iff :
    Matcher.stringLiteral.rest? cs = some rest ↔ ∃ parts, cs = ofParts parts ++ rest := by
  constructor
  · intro h
    cases cs with
    | nil => cases h
    | cons c cs =>
      obtain ⟨rfl, hquote⟩ := Option.ite_none_right_eq_some.1 h
      obtain ⟨parts, rfl⟩ := behindQuote?_eq_some_iff.1 hquote
      exact ⟨parts, by simp [ofParts]⟩
  · rintro ⟨parts, rfl⟩
    exact rest?_ofParts_append parts rest

/-! ### Resolving escapes -/

theorem unescape_cons (h : c ≠ '\\') (cs : List Char) : unescape (c :: cs) = c :: unescape cs := by
  rw [unescape]
  · exact fun hc _ ↦ h hc
  · exact fun _ _ hc _ ↦ h hc

/-- Each part is replaced by its value. -/
theorem unescape_inner (parts : List Part) : unescape (inner parts) = parts.map Part.value := by
  induction parts with
  | nil => rfl
  | cons part parts ih =>
    cases part with
    | plain c _ hescape => rw [inner, unescape_cons hescape, ih, List.map_cons, Part.value]
    | escape c => rw [inner, unescape, ih, List.map_cons, Part.value]

theorem inside_ofParts (parts : List Part) : inside (ofParts parts) = inner parts := by
  simp [inside, ofParts]

theorem unquote_ofParts (parts : List Part) : unquote (ofParts parts) = parts.map Part.value := by
  rw [unquote, inside_ofParts, unescape_inner]

/-- The text that the inside of a literal stands for, if it does not end within an escape. -/
def unescape? : List Char → Option (List Char)
  | [] => some []
  | ['\\'] => none
  | '\\' :: c :: cs => (unescape? cs).map ((if c = 'n' then '\n' else if c = 't' then '\t' else c) :: ·)
  | c :: cs => (unescape? cs).map (c :: ·)

/-- What is between quotes. -/
def inside? (literal : List Char) : Option (List Char) :=
  match literal with
  | '"' :: cs => if cs.getLast? = some '"' then some cs.dropLast else none
  | _ => none

/-- The text that a literal stands for, if it is one. -/
def unquote? (literal : List Char) : Option (List Char) :=
  (inside? literal).bind unescape?

theorem unescape?_inner (parts : List Part) : unescape? (inner parts) = some (parts.map Part.value) := by
  induction parts with
  | nil => rfl
  | cons part parts ih =>
    cases part with
    | plain c _ hescape =>
      rw [inner, unescape?, ih, Option.map_some, List.map_cons, Part.value]
      · exact fun hc _ ↦ hescape hc
      · exact fun _ _ hc _ ↦ hescape hc
    | escape c => rw [inner, unescape?, ih, Option.map_some, List.map_cons, Part.value]

/-- A literal needs no answer for what is none. -/
theorem unquote?_ofParts (parts : List Part) :
    unquote? (ofParts parts) = some (unquote (ofParts parts)) := by
  have hinside : inside? (ofParts parts) = some (inner parts) := by simp [inside?, ofParts]
  rw [unquote?, hinside, Option.bind_some, unescape?_inner, unquote_ofParts]

/-! ### Writing a literal -/

/-- A text is written with a backslash before every quote and backslash; line feeds and tabs can be written by
their escapes or as they are. -/
inductive Spells : List Char → List Char → Prop
  /-- Nothing. -/
  | nil : Spells [] []
  /-- Any other character stands for itself. -/
  | plain {c : Char} {value text : List Char} (hquote : c ≠ '"') (hescape : c ≠ '\\')
    (h : Spells value text) : Spells (c :: value) (c :: text)
  /-- Quotes and backslashes are escaped. -/
  | escape {c : Char} {value text : List Char} (hc : c = '"' ∨ c = '\\') (h : Spells value text) :
    Spells (c :: value) ('\\' :: c :: text)
  /-- A line feed can be written by its escape. -/
  | newline {value text : List Char} (h : Spells value text) : Spells ('\n' :: value) ('\\' :: 'n' :: text)
  /-- A tab can be written by its escape. -/
  | tab {value text : List Char} (h : Spells value text) : Spells ('\t' :: value) ('\\' :: 't' :: text)

/-- As `escape`, but with the escapes of line feeds and tabs. -/
def escapeOnOneLine : List Char → List Char
  | [] => []
  | c :: cs =>
    if c = '\n' then '\\' :: 'n' :: escapeOnOneLine cs
    else if c = '\t' then '\\' :: 't' :: escapeOnOneLine cs
    else if c = '"' ∨ c = '\\' then '\\' :: c :: escapeOnOneLine cs
    else c :: escapeOnOneLine cs

theorem spells_escape (value : List Char) : Spells value (escape value) := by
  induction value with
  | nil => exact .nil
  | cons c value ih =>
    by_cases hc : c = '"' ∨ c = '\\'
    · rw [escape, if_pos hc]
      exact .escape hc ih
    · rw [escape, if_neg hc]
      exact .plain (fun h ↦ hc (.inl h)) (fun h ↦ hc (.inr h)) ih

theorem spells_escapeOnOneLine (value : List Char) : Spells value (escapeOnOneLine value) := by
  induction value with
  | nil => exact .nil
  | cons c value ih =>
    rw [escapeOnOneLine]
    split
    case isTrue hc => exact hc ▸ .newline ih
    case isFalse =>
      split
      case isTrue hc => exact hc ▸ .tab ih
      case isFalse =>
        split
        case isTrue hc => exact .escape hc ih
        case isFalse hc => exact .plain (fun h ↦ hc (.inl h)) (fun h ↦ hc (.inr h)) ih

/-- What is written has parts that stand for the characters one by one. -/
theorem Spells.exists_parts {value text : List Char} (h : Spells value text) :
    ∃ parts, text = inner parts ∧ parts.map Part.value = value := by
  induction h with
  | nil => exact ⟨[], rfl, rfl⟩
  | plain hquote hescape _ ih =>
    obtain ⟨parts, rfl, rfl⟩ := ih
    exact ⟨.plain _ hquote hescape :: parts, rfl, rfl⟩
  | @escape c _ _ hc _ ih =>
    obtain ⟨parts, rfl, rfl⟩ := ih
    refine ⟨.escape c :: parts, rfl, ?_⟩
    rcases hc with rfl | rfl <;> rfl
  | newline _ ih =>
    obtain ⟨parts, rfl, rfl⟩ := ih
    exact ⟨.escape 'n' :: parts, rfl, rfl⟩
  | tab _ ih =>
    obtain ⟨parts, rfl, rfl⟩ := ih
    exact ⟨.escape 't' :: parts, rfl, rfl⟩

/-! ### The lexer and the decoder -/

open Text (byteLength slice?)

/-- Behind any text a literal is found up to its closing quote. -/
theorem matchAt_ofParts (before : List Char) (parts : List Part) (rest : List Char) :
    Matcher.stringLiteral.matchAt (before ++ (ofParts parts ++ rest)) (byteLength before) =
      some (byteLength before + byteLength (ofParts parts)) := by
  rw [Matcher.matchAt_byteLength, rest?_ofParts_append, Option.map_some, Text.byteLength_append,
    Nat.add_sub_cancel]

/-- What is found is a literal. -/
theorem exists_slice?_of_matchAt {text : List Char} {start stop : Nat}
    (h : Matcher.stringLiteral.matchAt text start = some stop) :
    ∃ parts, slice? text start stop = some (ofParts parts) := by
  cases hsuffix : Text.suffixAt text start with
  | none =>
    simp [Matcher.matchAt, hsuffix] at h
  | some cs =>
    obtain ⟨before, rfl, rfl⟩ := Text.suffixAt_eq_some_iff.1 hsuffix
    obtain ⟨piece, rest, rfl, hrest, -, hslice⟩ := Matcher.slice?_of_matchAt h
    obtain ⟨parts, heq⟩ := rest?_stringLiteral_eq_some_iff.1 hrest
    obtain rfl := List.append_cancel_right heq
    exact ⟨parts, hslice⟩

/-- The literals among the tokens of a text are made of parts. -/
theorem exists_ofParts_of_mem_lex {token : Token TokenKind} (h : token ∈ lex cs) (hkind : token.kind = .string) :
    ∃ parts, token.text = ofParts parts := by
  obtain ⟨-, rest, -, -, hnext⟩ := nextPiece?_of_mem_lex h
  rw [hkind] at hnext
  obtain ⟨-, hrest⟩ := find?_hits_of_firstMatch (firstMatch_of_nextPiece? hnext) []
  obtain ⟨parts, heq⟩ := rest?_stringLiteral_eq_some_iff.1 hrest
  exact ⟨parts, List.append_cancel_right heq⟩

/-- However a text is written between quotes, the lexer finds the literal up to its closing quote, whatever
follows, and the literal stands for the text. Whatever the lexer finds as a literal is made of parts in exactly
one way, and stands for their values; so on a token of the lexer nothing is resolved that is no literal. -/
theorem literal_agree :
    (∀ value text, Spells value text → ∀ before rest,
      Matcher.stringLiteral.matchAt (before ++ ('"' :: text ++ ['"'] ++ rest)) (byteLength before) =
        some (byteLength before + byteLength ('"' :: text ++ ['"'])) ∧ unquote ('"' :: text ++ ['"']) = value) ∧
    (∀ value, Spells value (escape value) ∧ Spells value (escapeOnOneLine value)) ∧
    (∀ text start stop, Matcher.stringLiteral.matchAt text start = some stop →
      ∃! parts, slice? text start stop = some (ofParts parts)) ∧
    (∀ parts, unquote (ofParts parts) = parts.map Part.value) ∧
    ∀ cs, ∀ token ∈ lex cs, token.kind = .string → unquote? token.text = some (unquote token.text) := by
  refine ⟨fun value text hspells before rest ↦ ?_, fun value ↦ ⟨spells_escape value, spells_escapeOnOneLine value⟩,
    fun text start stop hmatch ↦ ?_, unquote_ofParts, fun cs token htoken hkind ↦ ?_⟩
  · obtain ⟨parts, rfl, rfl⟩ := hspells.exists_parts
    exact ⟨matchAt_ofParts before parts rest, unquote_ofParts parts⟩
  · obtain ⟨parts, hparts⟩ := exists_slice?_of_matchAt hmatch
    exact ⟨parts, hparts, fun others hothers ↦ ofParts_injective (Option.some.inj (hothers.symm.trans hparts))⟩
  · obtain ⟨parts, hparts⟩ := exists_ofParts_of_mem_lex htoken hkind
    rw [hparts]
    exact unquote?_ofParts parts

/-- A literal that holds a quote, a backslash and a line feed, behind a character of two bytes and before one more
quote. -/
theorem literal_agree_of_lines :
    let value := ['a', '"', '\\', '\n']
    let text := ['a', '\\', '"', '\\', '\\', '\\', 'n']
    let cs := 'é' :: '"' :: text ++ ['"', '"']
    let token : Token TokenKind := ⟨.string, ⟨2, 1, 3⟩, '"' :: text ++ ['"']⟩
    (Spells value text ∧ Matcher.stringLiteral.matchAt cs 2 = some 11 ∧ unquote token.text = value) ∧
    (∃! parts, slice? cs 2 11 = some (ofParts parts)) ∧
    token ∈ lex cs ∧ unquote? token.text = some value := by
  intro value text cs token
  obtain ⟨hwritten, -, hparts, -, htoken⟩ := literal_agree
  have hspells : Spells value text :=
    .plain (by decide) (by decide) <| .escape (.inl rfl) <| .escape (.inr rfl) <| .newline .nil
  obtain ⟨hmatch, hvalue⟩ := hwritten value text hspells ['é'] ['"']
  have hmem : token ∈ lex cs := by decide +kernel
  exact ⟨⟨hspells, hmatch, hvalue⟩, hparts cs 2 11 hmatch, hmem, (htoken cs token hmem rfl).trans (by rw [hvalue])⟩

end Rebuild.Language.Literal
