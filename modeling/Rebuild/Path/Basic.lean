import Rebuild.Text.Basic

/-!
# Paths

A path is a text; its slashes cut it into segments. Segments that are empty or a single dot do
not matter, except that a dot at the very beginning of a relative path is kept. What matters are
the *components*: the root, a leading dot, double dots, and ordinary names. Comparing and
descending go by components, while joining and cutting keep the rest of the text as it was
written.

Nothing here looks at files; in particular a double dot is a component like any other.
-/

namespace Rebuild

/-- A path as it is written. -/
structure Path where
  /-- The text of the path. -/
  text : String
deriving DecidableEq, Repr, Inhabited

/-- A part of a path that matters. -/
inductive Component where
  /-- The slash before an absolute path. -/
  | root
  /-- A dot at the beginning of a relative path. -/
  | current
  /-- A double dot. -/
  | parent
  /-- An ordinary name. -/
  | name (s : String)
deriving DecidableEq, Repr

/-- The text of a component. -/
def Component.text : Component → String
  | root => "/"
  | current => "."
  | parent => ".."
  | name s => s

/-- Whether a component is an ordinary name. -/
def Component.isName : Component → Bool
  | name _ => true
  | _ => false

namespace Path

/-! ### Segments -/

/-- Whether the path begins at the root. -/
def isAbsolute (p : Path) : Bool :=
  p.text.toList.head? = some '/'

/-- The segments behind the root, or all of them where the path is relative. -/
def body (p : Path) : List String :=
  let cs := if p.isAbsolute then p.text.toList.tail else p.text.toList
  (Text.split (· == '/') cs).map String.ofList

/-- The path with a root, or without, and the given segments behind it. -/
def ofBody (absolute : Bool) (segments : List String) : Path :=
  ⟨(if absolute then "/" else "") ++ String.intercalate "/" segments⟩

/-- Whether a segment behind the first matters. -/
def matters (segment : String) : Bool :=
  segment ≠ "" && segment ≠ "."

/-- Whether a segment matters; `first` says that nothing stands before it. -/
def mattersAt (first : Bool) (segment : String) : Bool :=
  segment ≠ "" && (first || segment ≠ ".")

/-- The component of a segment that matters. -/
def componentOf (segment : String) : Component :=
  if segment = "." then .current else if segment = ".." then .parent else .name segment

/-- The components of segments; `first` says that nothing stands before them. -/
def componentsOf (first : Bool) : List String → List Component
  | [] => []
  | segment :: rest =>
    let later := (rest.filter matters).map componentOf
    if mattersAt first segment then componentOf segment :: later else later

/-- The components of the path. -/
def components (p : Path) : List Component :=
  if p.isAbsolute then .root :: componentsOf false p.body else componentsOf true p.body

/-- The segments without those at the end that do not matter; `first` says that nothing stands
before them. -/
def dropEnd (first : Bool) : List String → List String
  | [] => []
  | segment :: rest =>
    match dropEnd false rest with
    | [] => if mattersAt first segment then [segment] else []
    | kept => segment :: kept

/-! ### Joining -/

/-- The path `q` as seen from `p`: an absolute path stays as it is. -/
def join (p q : Path) : Path :=
  if q.isAbsolute then q
  else if p.text.isEmpty || p.text.toList.getLast? = some '/' then ⟨p.text ++ q.text⟩
  else ⟨p.text ++ "/" ++ q.text⟩

/-- `join` with a name. -/
def joinName (p : Path) (name : String) : Path :=
  p.join ⟨name⟩

/-- Joins names to the path, one after the other. -/
def joinNames (p : Path) (names : List String) : Path :=
  names.foldl joinName p

/-- The path made of components. -/
def ofComponents (components : List Component) : Path :=
  components.foldl (fun p c ↦ p.join ⟨c.text⟩) ⟨""⟩

/-- The ordinary names among the components. -/
def names (p : Path) : List String :=
  p.components.filterMap fun
    | .name s => some s
    | _ => none

/-! ### Cutting -/

/-- The path without its last component, if it has one and that is not the root. -/
def parent? (p : Path) : Option Path :=
  match dropEnd (!p.isAbsolute) p.body with
  | [] => none
  | kept => some (ofBody p.isAbsolute (dropEnd (!p.isAbsolute) kept.dropLast))

theorem length_dropEnd_le (first : Bool) (segments : List String) :
    (dropEnd first segments).length ≤ segments.length := by
  induction segments generalizing first with
  | nil => simp [dropEnd]
  | cons segment rest ih =>
    simp only [dropEnd]
    split
    · split <;> simp
    · rename_i hkept
      have := ih false
      simp only [List.length_cons]
      omega

/-- The path of segments and those of the folders around it, the innermost first. The last one is
the root, or the empty path. -/
def ancestorsOf (absolute : Bool) (segments : List String) : List Path :=
  match _hkept : dropEnd (!absolute) segments with
  | [] => [ofBody absolute []]
  | first :: rest =>
    ofBody absolute (first :: rest) :: ancestorsOf absolute (first :: rest).dropLast
termination_by segments.length
decreasing_by
  have := length_dropEnd_le (!absolute) segments
  simp only [_hkept, List.length_cons] at this
  simp only [List.length_dropLast, List.length_cons]
  omega

/-- The path itself and the folders around it, the innermost first. -/
def ancestors (p : Path) : List Path :=
  p :: (ancestorsOf p.isAbsolute p.body).tail

/-- The last component, if it is an ordinary name. -/
def fileName? (p : Path) : Option String :=
  match p.components.getLast? with
  | some (.name s) => some s
  | _ => none

/-- A file name cut at its last dot. A dot at the beginning does not count. -/
def splitName (name : String) : String × Option String :=
  let cs := name.toList.reverse
  let after := cs.takeWhile (· ≠ '.')
  match cs.drop after.length with
  | _ :: before =>
    if before.isEmpty then (name, none)
    else (String.ofList before.reverse, some (String.ofList after.reverse))
  | [] => (name, none)

/-- The file name without its extension. -/
def fileStem? (p : Path) : Option String :=
  p.fileName?.map fun name ↦ (splitName name).1

/-- What follows the last dot of the file name. -/
def extension? (p : Path) : Option String :=
  p.fileName?.bind fun name ↦ (splitName name).2

/-- The path with `extension` behind the stem of its file name, where it has a file name. -/
def setExtension (p : Path) (extension : String) : Path :=
  match p.fileStem? with
  | none => p
  | some stem =>
    let kept := (dropEnd (!p.isAbsolute) p.body).dropLast
    let name := if extension.isEmpty then stem else stem ++ "." ++ extension
    ofBody p.isAbsolute (kept ++ [name])

/-- The path with another extension. The present extension is cut from the end of the text, up to
its dot, before the new one is put behind what is then the stem. -/
def withExtension (p : Path) (extension : String) : Path :=
  match p.extension? with
  | none => p.setExtension extension
  | some present =>
    let cs := p.text.toList
    setExtension ⟨String.ofList (cs.take (cs.length - present.length))⟩ extension

/-- Whether the components of `base` are the first components of the path. -/
def startsWith (p base : Path) : Bool :=
  base.components.isPrefixOf p.components

/-- Drops the first `n` segments that matter and those before them; `first` says that nothing
stands before the segments. -/
def dropMattering (first : Bool) : Nat → List String → List String
  | 0, segments => segments
  | _, [] => []
  | n + 1, segment :: rest =>
    if mattersAt first segment then dropMattering false n rest
    else dropMattering false (n + 1) rest

/-- What follows `base`, if the path starts with it. -/
def stripPrefix? (p base : Path) : Option Path :=
  if p.startsWith base then
    match base.components with
    | [] => some (ofBody p.isAbsolute (dropEnd (!p.isAbsolute) p.body))
    | .root :: rest => some (below (dropMattering false rest.length p.body))
    | all => some (below (dropMattering true all.length p.body))
  else none
where
  /-- The relative path of segments that stood behind others. -/
  below (segments : List String) : Path :=
    ofBody false (dropEnd false (segments.dropWhile fun segment ↦ !matters segment))

end Path

end Rebuild
