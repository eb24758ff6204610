import Rebuild.Proofs.Language.Scan
import Rebuild.Proofs.Lexing.Scan

/-!
# The tokens of a text

What `nextPiece?` finds at the beginning of a text is the first of its pieces. So the tokens of a text are found
one after the other, each behind the text before it (`tokensFrom_of_nextPiece?`), and a token is what
`nextPiece?` finds at its place (`nextPiece?_of_mem_lex`).
-/

namespace Rebuild.Language

open Matcher (isWordChar)

variable {cs text rest : List Char} {c : Char} {kind : TokenKind}

/-! ### Tokens one after the other -/

theorem firstMatch_of_nextPiece? (h : nextPiece? cs = some (kind, rest)) :
    firstMatch rules cs = some (ruleFor kind, rest) := by
  rw [firstMatch_rules, h, Option.map_some]

/-- A piece gives its token, unless it is a comment, and the other tokens are behind it. -/
theorem tokensFrom_of_nextPiece? (h : nextPiece? (text ++ rest) = some (kind, rest)) (before : List Char) :
    tokensFrom (.behind before) (pieces rules (text ++ rest)) =
      (if kind = .comment then [] else [{ kind, start := .behind before, text }]) ++
        tokensFrom (.behind (before ++ text)) (pieces rules rest) := by
  rw [pieces_append (firstMatch_of_nextPiece? h), tokensFrom_behind]
  cases kind <;> rfl

/-- Where nothing begins, one character is passed. -/
theorem tokensFrom_of_nextPiece?_eq_none (h : nextPiece? (c :: cs) = none) (before : List Char) :
    tokensFrom (.behind before) (pieces rules (c :: cs)) =
      tokensFrom (.behind (before ++ [c])) (pieces rules cs) := by
  have hmatch : firstMatch rules (c :: cs) = none := by rw [firstMatch_rules, h, Option.map_none]
  rw [pieces_cons hmatch, tokensFrom_behind]
  rfl

/-! ### One token -/

theorem nextPiece?_of_mem_tokensFrom {token : Token TokenKind} (before cs : List Char)
    (h : token ∈ tokensFrom (.behind before) (pieces rules cs)) : ∃ earlier rest,
      cs = earlier ++ (token.text ++ rest) ∧ token.start = .behind (before ++ earlier) ∧
        nextPiece? (token.text ++ rest) = some (token.kind, rest) := by
  induction hlength : cs.length using Nat.strongRecOn generalizing before cs with
  | ind length ih =>
  subst hlength
  cases hnext : nextPiece? cs with
  | none =>
    cases cs with
    | nil =>
      rw [pieces] at h
      cases h
    | cons c cs =>
      rw [tokensFrom_of_nextPiece?_eq_none hnext] at h
      obtain ⟨earlier, rest, rfl, hstart, hpiece⟩ := ih _ (Nat.lt_succ_self _) _ _ h rfl
      exact ⟨c :: earlier, rest, rfl, by rw [hstart, List.append_assoc, List.singleton_append], hpiece⟩
  | some piece =>
    obtain ⟨kind, rest⟩ := piece
    obtain ⟨text, rfl, -⟩ := exists_of_nextPiece? hnext
    have hless := length_lt_of_firstMatch (firstMatch_of_nextPiece? hnext)
    rw [tokensFrom_of_nextPiece? hnext, List.mem_append] at h
    rcases h with h | h
    · split at h
      · cases h
      · obtain rfl := List.mem_singleton.1 h
        exact ⟨[], rest, rfl, by rw [List.append_nil], hnext⟩
    · obtain ⟨earlier, rest, rfl, hstart, hpiece⟩ := ih _ hless _ _ h rfl
      exact ⟨text ++ earlier, rest, (List.append_assoc _ _ _).symm, by rw [hstart, List.append_assoc], hpiece⟩

/-- A token is what the text behind its place begins with. -/
theorem nextPiece?_of_mem_lex {token : Token TokenKind} {cs : List Char} (h : token ∈ lex cs) :
    ∃ before rest, cs = before ++ (token.text ++ rest) ∧ token.start = .behind before ∧
      nextPiece? (token.text ++ rest) = some (token.kind, rest) :=
  nextPiece?_of_mem_tokensFrom [] cs h

/-- Behind a run of word characters there is none. -/
theorem isWordChar_of_nextPiece? (h : nextPiece? cs = some (kind, rest))
    (hkind : kind = .name ∨ kind = .keyword) : ∀ c ∈ rest.head?, isWordChar c = false := by
  cases cs with
  | nil => cases h
  | cons c cs =>
    rw [nextPiece?] at h
    split at h
    case isTrue hstart =>
      cases h
      intro c hc
      have hhead := List.head?_dropWhile_not isWordChar cs
      rwa [hc] at hhead
    case isFalse hstart =>
      -- what does not begin a run is no name and no keyword
      rcases hkind with rfl | rfl <;> split_ifs at h <;> simp at h

end Rebuild.Language
