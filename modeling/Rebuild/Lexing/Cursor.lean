import Rebuild.Lexing.Token

/-!
# Cursors

A cursor walks through tokens, forward only. At the end there is nothing to look at, and moving
on stays there.
-/

namespace Rebuild

/-- The tokens that are still ahead. -/
structure Cursor (κ : Type) where
  /-- The tokens not yet passed, the next one first. -/
  ahead : List (Token κ)
deriving Repr

namespace Cursor

variable {κ : Type}

/-- The next token. -/
def peek (cursor : Cursor κ) : Option (Token κ) :=
  cursor.ahead.head?

/-- Whether no token is ahead. -/
def atEnd (cursor : Cursor κ) : Bool :=
  cursor.ahead.isEmpty

/-- Passes the next token. -/
def advance (cursor : Cursor κ) : Cursor κ :=
  { ahead := cursor.ahead.tail }

end Cursor

end Rebuild
