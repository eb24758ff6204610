import Rebuild.Lexing.Token

/-!
# Pieces of a text

How the pieces of a text are found one after the other, and which of them are words. A word is what is left
of a token when its place is forgotten.
-/

namespace Rebuild

variable {κ : Type} {rules : List (Rule κ)} {rule : Rule κ} {text rest cs : List Char} {c : Char}

theorem pieces_append (h : firstMatch rules (text ++ rest) = some (rule, rest)) :
    pieces rules (text ++ rest) = { rule, text } :: pieces rules rest := by
  cases text with
  | nil => exact absurd (length_lt_of_firstMatch h) (Nat.lt_irrefl _)
  | cons c text =>
    rw [List.cons_append] at h ⊢
    rw [pieces]
    split
    next rule' rest' hmatch =>
      obtain ⟨rfl, rfl⟩ := Prod.mk.inj (Option.some.inj (hmatch.symm.trans h))
      have hlength : (c :: (text ++ rest')).length - rest'.length = (c :: text).length := by
        simp only [List.length_cons, List.length_append]
        omega
      rw [hlength, ← List.cons_append, List.take_left]
    next hmatch => cases hmatch.symm.trans h

theorem pieces_cons (h : firstMatch rules (c :: cs) = none) :
    pieces rules (c :: cs) = { rule := none, text := [c] } :: pieces rules cs := by
  rw [pieces]
  split
  next hmatch => cases h.symm.trans hmatch
  next => rfl

/-- A token without its place. -/
def Token.word (token : Token κ) : κ × List Char :=
  (token.kind, token.text)

/-- The word that a piece is, if its rule gives tokens. -/
def Piece.word? (piece : Piece κ) : Option (κ × List Char) :=
  match piece.rule with
  | some rule => if rule.ignored then none else some (rule.kind, piece.text)
  | none => none

theorem map_word_tokensFrom (start : Position) (found : List (Piece κ)) :
    (tokensFrom start found).map Token.word = found.filterMap Piece.word? := by
  induction found generalizing start with
  | nil => rfl
  | cons piece found ih =>
    obtain ⟨rule, text⟩ := piece
    rw [List.filterMap_cons]
    cases rule with
    | none => simpa [tokensFrom, Piece.word?] using ih _
    | some rule => cases h : rule.ignored <;> simp [tokensFrom, Piece.word?, Token.word, h, ih]

end Rebuild
