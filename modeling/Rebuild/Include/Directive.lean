import Rebuild.FileStore.Operations

/-!
# Include directives

A line is an include directive if blanks, `#include`, spaces, and then a name in double quotes or
in angle brackets stand at its beginning; the name is not empty and ends at the first closing
mark. What follows does not matter, and neither do comments and conditions around the line.

A name is looked for in the folder of the file that includes it, and then in the given folders.
-/

namespace Rebuild.Include

/-- What an include directive begins with. -/
def opening : List Char := "#include".toList

/-- The text up to the first closing mark, if there is one and the text is not empty. -/
def delimited? (close : Char) (cs : List Char) : Option (List Char) :=
  let name := cs.takeWhile (· ≠ close)
  if name ≠ [] ∧ name.length < cs.length then some name else none

/-- The name that a line includes, if it is an include directive. -/
def parse? (line : List Char) : Option (List Char) :=
  let behindBlanks := line.dropWhile Text.isBlank
  if opening.isPrefixOf behindBlanks then
    match (behindBlanks.drop opening.length).dropWhile (· = ' ') with
    | '"' :: cs => delimited? '"' cs
    | '<' :: cs => delimited? '>' cs
    | _ => none
  else none

/-- The names that a text includes, in the order of its lines. -/
def namesIn (text : String) : List Path :=
  (Text.lines text.toList).filterMap fun line ↦
    (parse? line).map fun name ↦ ⟨String.ofList name⟩

/-- The first of the paths that leads to something. -/
def firstExisting? (s : FileStore) (paths : List Path) : Option Path :=
  paths.find? s.pathExists

/-- The location of an included name: the folder of the including file comes before the other
folders, and those come in order. -/
def resolve? (s : FileStore) (folder : Path) (folders : List Path) (name : Path) :
    Option Location :=
  (firstExisting? s ((folder :: folders).map (·.join name))).bind s.canonical?

/-- The locations that a file includes, in the order of its lines and with repetitions. Names that
are found nowhere are left out. A file that is not text includes nothing. -/
def scan (s : FileStore) (folders : List Path) (l : Location) : List Location :=
  match s.readText l.path with
  | .ok text => (namesIn text).filterMap (resolve? s l.parent.path folders)
  | .error _ => []

end Rebuild.Include
