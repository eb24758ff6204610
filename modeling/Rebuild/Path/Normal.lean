import Rebuild.Path.Basic

/-!
# Normal paths

A path is normal when it holds no dot and when double dots stand only where no name is before
them. `Path.normalize` folds a path into its normal form without looking at files: a double dot
takes the name before it away.
-/

namespace Rebuild.Path

/-- Adds a component to the normal components before it, last one first. -/
def foldComponent (before : List Component) (c : Component) : List Component :=
  match c with
  | .current => before
  | .parent =>
    match before with
    | .name _ :: rest => rest
    | _ => .parent :: before
  | c => c :: before

/-- The components of the normal form. -/
def normalComponents (components : List Component) : List Component :=
  (components.foldl foldComponent []).reverse

/-- The normal form of the path. -/
def normalize (p : Path) : Path :=
  ofComponents (normalComponents p.components)

/-- The folder of files that lie outside a project. -/
def externalFolder : String := "_ext"

/-- Where a path sits below a root. A path outside the root, one that climbs out of it included,
is given a place of its own below `externalFolder`. -/
def relativeTo (root p : Path) : Path :=
  let normal := p.normalize
  match normal.stripPrefix? root.normalize with
  | some below => if below.components.all Component.isName then below else external normal
  | none => external normal
where
  /-- The ordinary names of a path below the external folder. -/
  external (normal : Path) : Path :=
    (⟨externalFolder⟩ : Path).joinNames normal.names

end Rebuild.Path
