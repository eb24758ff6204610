/-!
# Rests of lists

A reader of a text, or of the words of a text, answers with what it has not read. That this is
shorter than what the reader was given is kept with it, so that readers of larger parts end.
-/

namespace Rebuild.Text

variable {α : Type}

/-- A rest of a list, which is shorter than the list. -/
abbrev RestOf (xs : List α) := { rest : List α // rest.length < xs.length }

/-- A rest of a list, which may be all of it. -/
abbrev PartOf (xs : List α) := { rest : List α // rest.length ≤ xs.length }

theorem length_lt_length_cons (x : α) (xs : List α) : xs.length < (x :: xs).length :=
  Nat.lt_succ_self _

theorem length_lt_length_cons_of_le {xs ys : List α} (h : xs.length ≤ ys.length) (x : α) :
    xs.length < (x :: ys).length :=
  Nat.lt_succ_of_le h

theorem length_lt_length_cons_of_lt {xs ys : List α} (h : xs.length < ys.length) (x : α) :
    xs.length < (x :: ys).length :=
  Nat.lt_succ_of_lt h

theorem length_le_length_cons_of_le {xs ys : List α} (h : xs.length ≤ ys.length) (x : α) :
    xs.length ≤ (x :: ys).length :=
  Nat.le_succ_of_le h

namespace RestOf

/-- What is behind a first element. -/
def behind (x : α) (xs : List α) : RestOf (x :: xs) :=
  ⟨xs, length_lt_length_cons x xs⟩

/-- The rest of a list is one of a longer list. -/
def widen {xs ys : List α} (h : xs.length ≤ ys.length) (rest : RestOf xs) : RestOf ys :=
  ⟨rest.1, Nat.lt_of_lt_of_le rest.2 h⟩

/-- A rest of a shorter list is one of the list. -/
def ofLt {xs ys : List α} (h : xs.length < ys.length) (rest : RestOf xs) : RestOf ys :=
  ⟨rest.1, Nat.lt_trans rest.2 h⟩

/-- The rest of a list is one of the list with an element before it. -/
def cons {xs : List α} (x : α) (rest : RestOf xs) : RestOf (x :: xs) :=
  ⟨rest.1, length_lt_length_cons_of_lt rest.2 x⟩

end RestOf

namespace PartOf

/-- All of a list. -/
def all (xs : List α) : PartOf xs :=
  ⟨xs, Nat.le_refl _⟩

/-- What is behind so many elements. -/
def drop (n : Nat) (xs : List α) : PartOf xs :=
  ⟨xs.drop n, (List.drop_sublist n xs).length_le⟩

/-- A shorter list that is known to be a rest. -/
def ofLt {xs rest : List α} (h : rest.length < xs.length) : PartOf xs :=
  ⟨rest, Nat.le_of_lt h⟩

/-- A rest of a list, with an element before the list. -/
def cons {xs : List α} (x : α) (rest : PartOf xs) : PartOf (x :: xs) :=
  ⟨rest.1, length_le_length_cons_of_le rest.2 x⟩

/-- A rest of a list is shorter than the list with an element before it. -/
def consRest {xs : List α} (x : α) (rest : PartOf xs) : RestOf (x :: xs) :=
  ⟨rest.1, length_lt_length_cons_of_le rest.2 x⟩

/-- A rest of a rest. -/
def trans {xs : List α} (rest : PartOf xs) (more : PartOf rest.1) : PartOf xs :=
  ⟨more.1, Nat.le_trans more.2 rest.2⟩

end PartOf

end Rebuild.Text
