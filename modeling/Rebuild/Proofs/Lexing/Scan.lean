import Rebuild.Proofs.Lexing.Pieces
import Rebuild.Proofs.Lexing.Remainder

/-!
# Scanning a text by byte offsets

A scan cuts a text into pieces from left to right. At the byte offset where a piece begins, the first rule
that recognises at least one byte says where the piece ends, and if there is no such rule the piece is one
character (`Cut`). That leaves nothing open: every text has one scan, which is its pieces (`scan_iff`). All
offsets that a scan comes by are good ones, so that the pieces can be sliced out of the text.

The tokens are the pieces of the rules that are not ignored, each at the place that is told by the text
before it (`Position.behind`); from the tokens and the gaps between them the text is rebuilt.
-/

namespace Rebuild

variable {κ : Type} {rules : List (Rule κ)} {rule : Rule κ} {piece : Piece κ} {found : List (Piece κ)}
variable {text cs rest before : List Char} {c : Char}

/-! ### Places -/

/-- What a text has behind its last line feed. -/
def Text.lastLine (cs : List Char) : List Char :=
  (cs.reverse.takeWhile (· ≠ '\n')).reverse

namespace Position

/-- The place behind a text: its bytes are before the place, its line feeds are the ends of lines before the
place, and the bytes behind its last line feed are before the place on the same line. -/
def behind (before : List Char) : Position where
  offset := Text.byteLength before
  line := 1 + before.count '\n'
  column := 1 + Text.byteLength (Text.lastLine before)

theorem next_behind (before : List Char) (c : Char) : (behind before).next c = behind (before ++ [c]) := by
  rw [next, behind, behind]
  split
  case isTrue h =>
    subst h
    simp [Text.lastLine, Nat.add_assoc]
  case isFalse h => simp [Text.lastLine, h, Nat.add_assoc]

theorem advance_behind (before cs : List Char) : (behind before).advance cs = behind (before ++ cs) := by
  induction cs generalizing before with
  | nil => rw [List.append_nil]; rfl
  | cons c cs ih =>
    show ((behind before).next c).advance cs = _
    rw [next_behind, ih, List.append_assoc, List.singleton_append]

end Position

/-! ### Scans -/

/-- The text that pieces make up. -/
def textOf (found : List (Piece κ)) : List Char :=
  found.flatMap Piece.text

@[simp]
theorem textOf_nil : textOf ([] : List (Piece κ)) = [] :=
  rfl

@[simp]
theorem textOf_cons (piece : Piece κ) (found : List (Piece κ)) :
    textOf (piece :: found) = piece.text ++ textOf found :=
  rfl

/-- What the rules make of a text at the offset where a piece begins. -/
structure Cut (rules : List (Rule κ)) (text : List Char) (start : Nat) (piece : Piece κ) : Prop where
  /-- The piece is not empty. -/
  nonempty : piece.text ≠ []
  /-- It can be sliced out of the text. -/
  slice : Text.slice? text start (start + Text.byteLength piece.text) = some piece.text
  /-- Its rule is the first one that recognises at least one byte. -/
  first : rules.find? (·.hits text start) = piece.rule
  /-- The rule ends it, and without a rule it is one character. -/
  stop : match piece.rule with
    | some rule => rule.matcher.matchAt text start = some (start + Text.byteLength piece.text)
    | none => piece.text.length = 1
  /-- Whatever another rule recognises could be sliced out of the text as well. -/
  safe : ∀ rule ∈ rules, ∀ stop, rule.matcher.matchAt text start = some stop →
    (Text.slice? text start stop).isSome

/-- The pieces make up the text, and each is what the rules make of the text where it begins. -/
structure Scan (rules : List (Rule κ)) (text : List Char) (found : List (Piece κ)) : Prop where
  /-- Nothing is left out, and nothing is there twice. -/
  whole : textOf found = text
  /-- Every piece is cut behind those before it. -/
  cut : ∀ earlier piece later, found = earlier ++ piece :: later →
    Cut rules text (Text.byteLength (textOf earlier)) piece

/-! ### One piece -/

/-- Behind a good offset all matchers stop at good offsets. -/
theorem isSome_slice?_of_matchAt (before cs : List Char) (matcher : Matcher) {stop : Nat}
    (h : matcher.matchAt (before ++ cs) (Text.byteLength before) = some stop) :
    (Text.slice? (before ++ cs) (Text.byteLength before) stop).isSome := by
  obtain ⟨piece, rest, -, -, -, hslice⟩ := Matcher.slice?_of_matchAt h
  rw [hslice, Option.isSome_some]

theorem cut_of_firstMatch (h : firstMatch rules (text ++ rest) = some (rule, rest))
    (before : List Char) :
    Cut rules (before ++ (text ++ rest)) (Text.byteLength before) { rule, text } := by
  obtain ⟨hfirst, hrest⟩ := find?_hits_of_firstMatch h before
  constructor
  case nonempty =>
    rintro rfl
    exact absurd (length_lt_of_firstMatch h) (Nat.lt_irrefl _)
  case slice => exact Text.slice?_eq_some_iff.2 ⟨before, rest, rfl, rfl, rfl⟩
  case first => exact hfirst
  case stop =>
    show rule.matcher.matchAt _ _ = _
    rw [Matcher.matchAt_byteLength, hrest, Option.map_some, Text.byteLength_append, Nat.add_sub_cancel]
  case safe => exact fun rule _ _ ↦ isSome_slice?_of_matchAt before _ rule.matcher

theorem cut_of_firstMatch_eq_none (h : firstMatch rules (c :: cs) = none) (before : List Char) :
    Cut rules (before ++ c :: cs) (Text.byteLength before) { rule := none, text := [c] } := by
  constructor
  case nonempty => exact List.cons_ne_nil c []
  case slice => exact Text.slice?_eq_some_iff.2 ⟨before, cs, rfl, rfl, rfl⟩
  case first => exact find?_hits_of_firstMatch_eq_none h before
  case stop => rfl
  case safe => exact fun rule _ _ ↦ isSome_slice?_of_matchAt before _ rule.matcher

/-- The first of the pieces is what the rules make of the text. -/
theorem Cut.pieces_eq (h : Cut rules (before ++ (piece.text ++ rest)) (Text.byteLength before) piece) :
    pieces rules (piece.text ++ rest) = piece :: pieces rules rest := by
  obtain ⟨rule?, text⟩ := piece
  have hfirst := h.first
  have hstop := h.stop
  cases rule? with
  | some rule =>
    obtain ⟨text', rest', hsplit, hrest', hlength, -⟩ := Matcher.slice?_of_matchAt hstop
    -- the rule stops where the piece ends, so that it leaves what is behind the piece
    have hprefix : Text.prefixAt (text ++ rest) (Text.byteLength text) = some text' :=
      Text.prefixAt_eq_some_iff.2 ⟨rest', hsplit, (Nat.add_left_cancel hlength).symm⟩
    rw [Text.prefixAt_byteLength] at hprefix
    obtain rfl := Option.some.inj hprefix
    obtain rfl := List.append_cancel_left hsplit
    refine pieces_append ?_
    rw [firstMatch_eq rules before, hfirst, Option.bind_some, hrest', Option.map_some]
  | none =>
    obtain ⟨c, rfl⟩ := List.length_eq_one_iff.1 hstop
    refine pieces_cons ?_
    rw [firstMatch_eq rules before]
    exact congrArg (Option.bind · _) hfirst

/-! ### All pieces -/

/-- A text that is not empty begins with what the rules make of it. -/
theorem exists_cut (rules : List (Rule κ)) (hne : cs ≠ []) : ∃ piece rest,
    cs = piece.text ++ rest ∧ pieces rules cs = piece :: pieces rules rest ∧
      ∀ before, Cut rules (before ++ cs) (Text.byteLength before) piece := by
  obtain ⟨c, cs, rfl⟩ := List.exists_cons_of_ne_nil hne
  cases hmatch : firstMatch rules (c :: cs) with
  | none =>
    exact ⟨{ rule := none, text := [c] }, cs, rfl, pieces_cons hmatch,
      cut_of_firstMatch_eq_none hmatch⟩
  | some matched =>
    obtain ⟨rule, rest⟩ := matched
    obtain ⟨-, hrest⟩ := find?_hits_of_firstMatch hmatch []
    obtain ⟨text, htext⟩ := rule.matcher.suffix_of_rest? hrest
    rw [← htext] at hmatch ⊢
    exact ⟨{ rule, text }, rest, rfl, pieces_append hmatch, cut_of_firstMatch hmatch⟩

/-- The first piece is what the rules make of the text, and the others are the pieces behind it. -/
theorem exists_of_pieces (h : pieces rules cs = piece :: found) : ∃ rest,
    cs = piece.text ++ rest ∧ pieces rules rest = found ∧
      ∀ before, Cut rules (before ++ cs) (Text.byteLength before) piece := by
  have hne : cs ≠ [] := by
    rintro rfl
    rw [pieces] at h
    cases h
  obtain ⟨first, rest, hsplit, hpieces, hcut⟩ := exists_cut rules hne
  cases h.symm.trans hpieces
  exact ⟨rest, hsplit, rfl, hcut⟩

theorem textOf_pieces (rules : List (Rule κ)) (cs : List Char) : textOf (pieces rules cs) = cs := by
  induction hfound : pieces rules cs generalizing cs with
  | nil =>
    by_contra hne
    obtain ⟨piece, rest, -, hpieces, -⟩ := exists_cut rules (Ne.symm hne)
    cases hfound.symm.trans hpieces
  | cons piece found ih =>
    obtain ⟨rest, rfl, hrest, -⟩ := exists_of_pieces hfound
    rw [textOf_cons, ih rest hrest]

/-- The pieces of the end of a text are what the rules make of the text. -/
theorem cut_of_pieces (before : List Char) {earlier later : List (Piece κ)}
    (h : pieces rules cs = earlier ++ piece :: later) :
    Cut rules (before ++ cs) (Text.byteLength (before ++ textOf earlier)) piece := by
  induction earlier generalizing before cs with
  | nil =>
    obtain ⟨-, -, -, hcut⟩ := exists_of_pieces h
    rw [textOf_nil, List.append_nil]
    exact hcut before
  | cons first earlier ih =>
    obtain ⟨rest, rfl, hrest, -⟩ := exists_of_pieces h
    have hlater := ih (before ++ first.text) hrest
    rwa [List.append_assoc, List.append_assoc] at hlater

/-- Pieces each of which is what the rules make of the text are the pieces of the text. -/
theorem eq_pieces_of_cut (before : List Char) (h : ∀ earlier piece later,
    found = earlier ++ piece :: later → Cut rules (before ++ textOf found)
      (Text.byteLength (before ++ textOf earlier)) piece) :
    found = pieces rules (textOf found) := by
  induction found generalizing before with
  | nil => rw [textOf_nil, pieces]
  | cons piece found ih =>
    have hfirst := h [] piece found rfl
    rw [textOf_nil, List.append_nil, textOf_cons] at hfirst
    have hlater : found = pieces rules (textOf found) := by
      refine ih (before ++ piece.text) fun earlier piece' later hsplit ↦ ?_
      have hcut := h (piece :: earlier) piece' later (by rw [hsplit]; rfl)
      rwa [textOf_cons, textOf_cons, ← List.append_assoc, ← List.append_assoc] at hcut
    rw [textOf_cons, hfirst.pieces_eq, ← hlater]

/-- A text has one scan, which is its pieces. -/
theorem scan_iff : Scan rules text found ↔ found = pieces rules text := by
  constructor
  · rintro ⟨rfl, hcut⟩
    exact eq_pieces_of_cut [] hcut
  · rintro rfl
    refine ⟨textOf_pieces rules text, fun earlier piece later h ↦ ?_⟩
    have hcut := cut_of_pieces [] h
    rwa [List.nil_append, List.nil_append] at hcut

/-! ### Tokens -/

/-- The token that a piece gives behind a text, if its rule gives tokens. -/
def Piece.tokenBehind? (before : List Char) (piece : Piece κ) : Option (Token κ) :=
  piece.word?.map fun (kind, text) ↦ { kind, start := .behind before, text }

/-- The tokens of pieces, each behind the text of the pieces before it. -/
def tokensOf (found : List (Piece κ)) : List (Token κ) :=
  (List.range found.length).filterMap fun i ↦
    found[i]?.bind (·.tokenBehind? (textOf (found.take i)))

theorem Piece.of_tokenBehind? {token : Token κ} (h : piece.tokenBehind? before = some token) :
    token.start = .behind before ∧ token.text = piece.text := by
  obtain ⟨⟨kind, text⟩, hword, rfl⟩ := Option.map_eq_some_iff.1 h
  obtain ⟨rule?, text'⟩ := piece
  refine ⟨rfl, ?_⟩
  cases rule? with
  | none => cases hword
  | some rule =>
    obtain ⟨-, heq⟩ := Option.ite_none_left_eq_some.1 hword
    cases heq
    rfl

theorem tokensFrom_behind (before : List Char) (piece : Piece κ) (found : List (Piece κ)) :
    tokensFrom (.behind before) (piece :: found) =
      (piece.tokenBehind? before).toList ++ tokensFrom (.behind (before ++ piece.text)) found := by
  obtain ⟨rule?, text⟩ := piece
  rw [tokensFrom, Position.advance_behind]
  cases rule? with
  | none => rfl
  | some rule => cases hignored : rule.ignored <;> simp [Piece.tokenBehind?, Piece.word?, hignored]

theorem tokensFrom_behind_eq (before : List Char) (found : List (Piece κ)) :
    tokensFrom (.behind before) found = (List.range found.length).filterMap fun i ↦
      found[i]?.bind (·.tokenBehind? (before ++ textOf (found.take i))) := by
  induction found generalizing before with
  | nil => rfl
  | cons piece found ih =>
    rw [tokensFrom_behind, ih, List.length_cons, List.range_succ_eq_map, List.filterMap_cons,
      List.filterMap_map]
    have hlater : (fun i ↦ found[i]?.bind
          (·.tokenBehind? (before ++ piece.text ++ textOf (found.take i)))) =
        (fun i ↦ (piece :: found)[i]?.bind
          (·.tokenBehind? (before ++ textOf ((piece :: found).take i)))) ∘ Nat.succ := by
      funext i
      simp [List.append_assoc]
    rw [hlater]
    cases hpiece : piece.tokenBehind? before <;> simp [hpiece]

theorem tokens_eq (rules : List (Rule κ)) (text : List Char) :
    tokens rules text = tokensOf (pieces rules text) := by
  show tokensFrom (.behind []) _ = _
  simp only [tokensFrom_behind_eq, List.nil_append, tokensOf]

/-! ### Rebuilding the text -/

/-- The text from an offset on, put together from tokens and from the gaps before, between and behind
them. -/
def rebuild? (text : List Char) (start : Nat) : List (Token κ) → Option (List Char)
  | [] => Text.suffixAt text start
  | token :: later => do
    let gap ← Text.slice? text start token.start.offset
    let rebuilt ← rebuild? text (token.start.offset + Text.byteLength token.text) later
    return gap ++ (token.text ++ rebuilt)

theorem rebuild?_tokensFrom (before gap : List Char) (found : List (Piece κ)) :
    rebuild? (before ++ (gap ++ textOf found)) (Text.byteLength before)
      (tokensFrom (.behind (before ++ gap)) found) = some (gap ++ textOf found) := by
  induction found generalizing before gap with
  | nil => rw [tokensFrom, rebuild?, Text.suffixAt_byteLength]
  | cons piece found ih =>
    rw [tokensFrom_behind, textOf_cons]
    cases hpiece : piece.tokenBehind? (before ++ gap) with
    | none =>
      -- the piece becomes part of the gap
      have hgap := ih before (gap ++ piece.text)
      rw [Option.toList_none, List.nil_append, List.append_assoc before]
      rwa [List.append_assoc gap] at hgap
    | some token =>
      obtain ⟨hstart, htext⟩ := Piece.of_tokenBehind? hpiece
      have hslice : Text.slice? (before ++ (gap ++ (piece.text ++ textOf found)))
          (Text.byteLength before) (Text.byteLength before + Text.byteLength gap) = some gap :=
        Text.slice?_eq_some_iff.2 ⟨before, piece.text ++ textOf found, rfl, rfl, rfl⟩
      have hlater := ih (before ++ (gap ++ piece.text)) []
      rw [List.append_nil, List.nil_append, Text.byteLength_append, Text.byteLength_append] at hlater
      rw [Option.toList_some, List.singleton_append, rebuild?, hstart, htext, Position.behind]
      simp only [Text.byteLength_append, List.append_assoc] at hlater ⊢
      rw [hslice, Option.bind_eq_bind, Option.bind_some, Nat.add_assoc, hlater]
      rfl

/-- The tokens of a text are the pieces of its one scan that belong to rules which are not ignored, each at
its place, and with the gaps between them they make up the text. -/
theorem tokens_of_scan (rules : List (Rule κ)) (text : List Char) :
    (∀ found, Scan rules text found ↔ found = pieces rules text) ∧
      tokens rules text = tokensOf (pieces rules text) ∧
      rebuild? text 0 (tokens rules text) = some text := by
  refine ⟨fun found ↦ scan_iff, tokens_eq rules text, ?_⟩
  have hrebuilt := rebuild?_tokensFrom [] [] (pieces rules text)
  rwa [List.append_nil, List.nil_append, List.nil_append, textOf_pieces] at hrebuilt

end Rebuild
