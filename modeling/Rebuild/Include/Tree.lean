import Rebuild.Include.Graph

/-!
# The include tree

A file and below it everything it includes, one line each, with the lines that lead from a file to
what it includes. A file that has been shown before is marked and not shown again with what it
includes.
-/

namespace Rebuild.Include.Graph

/-- A line that is still to be written. -/
structure Branch where
  /-- The lines that lead past the entry on the left. -/
  indent : String
  /-- Whether no other entry follows below the same file. -/
  last : Bool
  /-- The entry. -/
  location : Location

/-- The branches to what a file includes. -/
def branches (indent : String) : List Location → List Branch
  | [] => []
  | [l] => [{ indent, last := true, location := l }]
  | l :: next :: rest => { indent, last := false, location := l } :: branches indent (next :: rest)

theorem length_branches (indent : String) (found : List Location) :
    (branches indent found).length = found.length := by
  fun_induction branches <;> simp_all

/-- The mark of an entry that has been shown before. -/
def seenMark : String := " (seen)"

/-- The line of a branch. -/
def Branch.line (branch : Branch) (fresh : Bool) : String :=
  branch.indent ++ (if branch.last then "└── " else "├── ") ++ branch.location.path.text ++
    (if fresh then "" else seenMark) ++ "\n"

/-- The lines that lead past what a branch's entry includes. -/
def Branch.indentBelow (branch : Branch) : String :=
  branch.indent ++ (if branch.last then "    " else "│   ")

/-- The lines of the pending branches and of what is below them, the first one first. -/
def treeLines (g : Graph) (seen : List Location) (pending : List Branch) : List String :=
  match pending with
  | [] => []
  | branch :: rest =>
    if _hseen : seen.contains branch.location then
      branch.line false :: treeLines g seen rest
    else
      match _hfound : g.includes? branch.location with
      | none => branch.line true :: treeLines g (branch.location :: seen) rest
      | some found =>
        branch.line true ::
          treeLines g (branch.location :: seen) (branches branch.indentBelow found ++ rest)
termination_by weightMissing g.degree seen g.locations + pending.length
decreasing_by
  · simp
  · have := weightMissing_cons_le g.degree seen g.locations branch.location
    simp only [List.length_cons]
    omega
  · have := weightMissing_cons_lt g.degree (mem_locations_of_includes? _hfound)
      (by simpa using _hseen)
    rw [degree_of_includes? _hfound] at this
    simp only [List.length_append, length_branches, List.length_cons]
    omega

/-- The include tree of a file. -/
def tree (g : Graph) (s : FileStore) (p : Path) : String :=
  let top := ((s.canonical? p).map Location.path).getD p
  let below :=
    match key? s p with
    | none => []
    | some l => treeLines g [l] (branches "" ((g.includes? l).getD []))
  top.text ++ "\n" ++ String.join below

end Rebuild.Include.Graph
