import Rebuild.Lexing.Matcher

/-!
# Tokens

A lexer is an ordered list of rules. It cuts a text into pieces: at each place the first rule
that recognises at least one character says how far the piece goes, and where no rule does, the
piece is one character. `pieces` is that cut, in which nothing is lost; `tokens` are the pieces of
the rules that are not ignored, with their places.
-/

namespace Rebuild

/-! ### Places -/

/-- A place in a text. -/
structure Position where
  /-- The bytes before the place. -/
  offset : Nat := 0
  /-- The line, counted from one. -/
  line : Nat := 1
  /-- The byte on its line, counted from one. -/
  column : Nat := 1
deriving DecidableEq, Repr

/-- The place behind a character. -/
def Position.next (p : Position) (c : Char) : Position :=
  if c = '\n' then { offset := p.offset + c.utf8Size, line := p.line + 1, column := 1 }
  else { p with offset := p.offset + c.utf8Size, column := p.column + c.utf8Size }

/-- The place behind a text. -/
def Position.advance (p : Position) (cs : List Char) : Position :=
  cs.foldl Position.next p

/-! ### Rules and pieces -/

/-- A rule of a lexer; `κ` is the type of what it tells apart. -/
structure Rule (κ : Type) where
  /-- The kind of the tokens. -/
  kind : κ
  /-- What is looked for. -/
  matcher : Matcher
  /-- Whether what is found gives no token. -/
  ignored : Bool := false
deriving Repr

variable {κ : Type}

/-- What a rule leaves of the text, if it recognises at least one character. -/
def Rule.progress? (rule : Rule κ) (cs : List Char) : Option (List Char) :=
  (rule.matcher.rest? cs).filter fun rest ↦ rest.length < cs.length

/-- The first rule that recognises at least one character, and what it leaves. -/
def firstMatch (rules : List (Rule κ)) (cs : List Char) : Option (Rule κ × List Char) :=
  rules.findSome? fun rule ↦ (rule.progress? cs).map fun rest ↦ (rule, rest)

theorem length_lt_of_firstMatch {rules : List (Rule κ)} {cs rest : List Char} {rule : Rule κ}
    (h : firstMatch rules cs = some (rule, rest)) : rest.length < cs.length := by
  obtain ⟨r, -, hr⟩ := List.exists_of_findSome?_eq_some h
  obtain ⟨rest', hrest, heq⟩ := Option.map_eq_some_iff.1 hr
  simp only [Prod.mk.injEq] at heq
  obtain ⟨-, rfl⟩ := heq
  simpa using (Option.filter_eq_some_iff.1 hrest).2

/-- A piece of a text and the rule that cut it, if one did. -/
structure Piece (κ : Type) where
  /-- The rule that determined the piece. -/
  rule : Option (Rule κ)
  /-- The text of the piece. -/
  text : List Char

/-- The pieces of a text, in order. -/
def pieces (rules : List (Rule κ)) : List Char → List (Piece κ)
  | [] => []
  | c :: cs =>
    match _hmatch : firstMatch rules (c :: cs) with
    | some (rule, rest) =>
      { rule, text := (c :: cs).take ((c :: cs).length - rest.length) } :: pieces rules rest
    | none => { rule := none, text := [c] } :: pieces rules cs
termination_by cs => cs.length
decreasing_by
  · exact length_lt_of_firstMatch _hmatch
  · simp

/-! ### Tokens -/

/-- A piece of text that matters, with its kind and its place. -/
structure Token (κ : Type) where
  /-- What the token is. -/
  kind : κ
  /-- Where it begins. -/
  start : Position
  /-- Its text. -/
  text : List Char
deriving DecidableEq, Repr

/-- Whether a token is of a kind and has a text. -/
def Token.isText [DecidableEq κ] (token : Token κ) (kind : κ) (text : List Char) : Bool :=
  token.kind = kind && token.text = text

theorem Token.isText_iff [DecidableEq κ] {token : Token κ} {kind : κ} {text : List Char} :
    token.isText kind text = true ↔ token.kind = kind ∧ token.text = text := by
  simp [isText]

theorem Token.isText_eq_false [DecidableEq κ] {token : Token κ} {kind : κ}
    (h : token.kind ≠ kind) (text : List Char) : token.isText kind text = false := by
  simp [isText, h]

/-- The tokens among the pieces of a text that begins at the given place. -/
def tokensFrom (start : Position) : List (Piece κ) → List (Token κ)
  | [] => []
  | piece :: rest =>
    let later := tokensFrom (start.advance piece.text) rest
    match piece.rule with
    | some rule =>
      if rule.ignored then later else { kind := rule.kind, start, text := piece.text } :: later
    | none => later

/-- The tokens of a text. -/
def tokens (rules : List (Rule κ)) (cs : List Char) : List (Token κ) :=
  tokensFrom {} (pieces rules cs)

end Rebuild
