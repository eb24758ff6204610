import Rebuild.Toml.Value

/-!
# TOML documents

A document is a list of statements, one on a line: an assignment to a key, the header of a table,
or the header of one more element of a list of tables. Together they make a tree, in which no key
is assigned twice and no table is begun twice.

A table can come about in three ways: because a header begins it, because a header of a table
inside it passes through it, or because a key with dots does. Only the second kind can still be
begun. Other keys with dots can pass through the second and the third kind, and through the last
table of a list, but only the third kind can be filled by them.
-/

namespace Rebuild.Toml

/-! ### Statements -/

/-- A statement of a document. -/
inductive Statement where
  /-- Gives a key a value. -/
  | assign (key : List String) (value : Value)
  /-- Begins a table. -/
  | table (key : List String)
  /-- Begins the next table of a list. -/
  | element (key : List String)
deriving Repr

theorem length_drop_skipSpace_lt {cs behind : List Char}
    (h : behind.length < (skipSpace cs).length) (n : Nat) :
    ((skipSpace behind).drop n).length < cs.length := by
  have := length_skipSpace_le cs
  have := length_skipSpace_le behind
  simp only [List.length_drop]
  omega

/-- Reads a key and the closing of its header. -/
def header? (closing : List Char) (cs : List Char) : Reading (List String) cs :=
  match key? (skipSpace cs) with
  | none => none
  | some (key, ⟨behind, h⟩) =>
    if closing.isPrefixOf (skipSpace behind) then
      some (key, ⟨(skipSpace behind).drop closing.length, length_drop_skipSpace_lt h _⟩)
    else none

/-- Reads an assignment. -/
def assignment? (cs : List Char) : Reading Statement cs :=
  match key? cs with
  | none => none
  | some (key, ⟨behindKey, hkey⟩) =>
    match hsign : skipSpace behindKey with
    | '=' :: behindSign =>
      have hlt : (skipSpace behindSign).length < cs.length := by
        have := hsign ▸ length_skipSpace_le behindKey
        have := length_skipSpace_le behindSign
        simp only [List.length_cons] at *
        omega
      match value? maxDepth (skipSpace behindSign) with
      | none => none
      | some (value, rest) => some (.assign key value, rest.ofLt hlt)
    | _ => none

/-- Reads a statement. -/
def statement? (cs : List Char) : Reading Statement cs :=
  match cs with
  | '[' :: '[' :: cs =>
    match header? [']', ']'] cs with
    | none => none
    | some (key, ⟨rest, h⟩) =>
      some (.element key, ⟨rest, by simp only [List.length_cons]; omega⟩)
  | '[' :: cs =>
    match header? [']'] cs with
    | none => none
    | some (key, ⟨rest, h⟩) => some (.table key, ⟨rest, by simp only [List.length_cons]; omega⟩)
  | cs => assignment? cs

/-- Reads all statements. -/
def statements? (cs : List Char) : Option (List Statement) :=
  match hlines : skipLines cs with
  | [] => some []
  | c :: text =>
    match statement? (c :: text) with
    | none => none
    | some (statement, ⟨behind, hbehind⟩) =>
      match hcomment : skipComment (skipSpace behind) with
      | [] => some [statement]
      | d :: more =>
        match lineEnd? (d :: more) with
        | none => none
        | some ⟨rest, hrest⟩ =>
          have : rest.length < cs.length := by
            have := hlines ▸ length_skipLines_le cs
            have := hcomment ▸ length_skipComment_le (skipSpace behind)
            have := length_skipSpace_le behind
            omega
          (statements? rest).map (statement :: ·)
termination_by cs.length

/-! ### The tree -/

/-- How a table came about. -/
inductive Origin where
  /-- A header begins it. -/
  | header
  /-- A header passes through it. -/
  | passed
  /-- A key with dots passes through it. -/
  | dotted
deriving DecidableEq, Repr

/-- What a key stands for. -/
inductive Node where
  /-- A value, with its text if it is a string. -/
  | leaf (text : Option String)
  /-- A table. -/
  | table (origin : Origin) (members : List (String × Node))
  /-- A list of tables, of which the last can still be filled. -/
  | tables (earlier : List (List (String × Node))) (last : List (String × Node))
deriving Repr, Inhabited

/-- The members of a table. -/
abbrev Members := List (String × Node)

/-- Puts a node in the place of another. -/
def replace (members : Members) (key : String) (node : Node) : Members :=
  members.map fun (k, old) ↦ if k = key then (k, node) else (k, old)

/-- Adds a value under a key. `direct` says whether the table was reached as keys reach their
tables: a key without dots fills the table of its header, and one with dots a table that keys with
dots brought about. -/
def insert (leaf : Node) (direct : Bool) : List String → Members → Option Members
  | [], _ => none
  | [key], members =>
    if !direct || (members.lookup key).isSome then none else some (members ++ [(key, leaf)])
  | key :: rest, members =>
    match members.lookup key with
    | none => (insert leaf true rest []).map fun inner ↦ members ++ [(key, .table .dotted inner)]
    | some (.table .header _) | some (.leaf _) => none
    | some (.table origin inner) =>
      (insert leaf (origin = .dotted) rest inner).map fun inner ↦
        replace members key (.table origin inner)
    | some (.tables earlier last) =>
      (insert leaf false rest last).map fun last ↦ replace members key (.tables earlier last)

/-- Changes the table that headers lead to. -/
def within (change : Members → Option Members) : List String → Members → Option Members
  | [], members => change members
  | key :: rest, members =>
    match members.lookup key with
    | none => (within change rest []).map fun inner ↦ members ++ [(key, .table .passed inner)]
    | some (.table origin inner) =>
      (within change rest inner).map fun inner ↦ replace members key (.table origin inner)
    | some (.tables earlier last) =>
      (within change rest last).map fun last ↦ replace members key (.tables earlier last)
    | some (.leaf _) => none

/-- Begins a table. -/
def beginTable (key : String) (members : Members) : Option Members :=
  match members.lookup key with
  | none => some (members ++ [(key, .table .header [])])
  | some (.table .passed inner) => some (replace members key (.table .header inner))
  | some _ => none

/-- Begins the next table of a list. -/
def beginElement (key : String) (members : Members) : Option Members :=
  match members.lookup key with
  | none => some (members ++ [(key, .tables [] [])])
  | some (.tables earlier last) => some (replace members key (.tables (earlier ++ [last]) []))
  | some _ => none

mutual

/-- Whether no table on a line has a key twice. -/
def Value.isValid : Value → Bool
  | .string _ => true
  | .scalar => true
  | .list values => allValid values
  | .inline members =>
    (members.foldlM (fun inner member ↦ insert (.leaf none) true member.1 inner) []).isSome &&
      allValidMembers members

/-- Whether values are valid. -/
def allValid : List Value → Bool
  | [] => true
  | value :: rest => value.isValid && allValid rest

/-- Whether the values of members are valid. -/
def allValidMembers : List (List String × Value) → Bool
  | [] => true
  | (_, value) :: rest => value.isValid && allValidMembers rest

end

/-- The node of a value. -/
def Value.node : Value → Node
  | .string s => .leaf (some s)
  | _ => .leaf none

/-- Adds statements to a tree, where assignments go into the table that `here` leads to. -/
def addStatements (here : List String) (tree : Members) : List Statement → Option Members
  | [] => some tree
  | .assign key value :: rest =>
    if value.isValid then
      match within (insert value.node true key) here tree with
      | some tree => addStatements here tree rest
      | none => none
    else none
  | .table key :: rest =>
    match within (beginTable (key.getLast?.getD "")) key.dropLast tree with
    | some tree => addStatements key tree rest
    | none => none
  | .element key :: rest =>
    match within (beginElement (key.getLast?.getD "")) key.dropLast tree with
    | some tree => addStatements key tree rest
    | none => none

/-- The tree of a document. A byte order mark at its beginning does not belong to it. -/
def ofString? (s : String) : Option Members :=
  let cs := match s.toList with
    | '\uFEFF' :: cs => cs
    | cs => cs
  (statements? cs).bind (addStatements [] [])

end Rebuild.Toml
