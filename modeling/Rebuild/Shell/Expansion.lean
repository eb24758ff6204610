import Rebuild.Shell.Arithmetic
import Rebuild.Shell.State
import Rebuild.Shell.Wildcard

/-!
# The expansion of words

What words give: parameters, the output of scripts and the values of expressions are put in their
places, the result is split into fields, and fields that are patterns give the paths that fit. How
a script inside a word is run is given from outside.
-/

namespace Rebuild.Shell

/-- What runs a script inside a word: the answer is what it prints, without line ends behind it. -/
abbrev Capture := Script → Action (List Char)

/-! ### Tildes -/

/-- Where a tilde stands for the home folder. -/
inductive TildeRule where
  /-- At the beginning of the word. -/
  | first
  /-- Also behind colons. -/
  | parts
deriving DecidableEq, Repr

/-- Puts the home folder in the place of tildes; `here` says whether one can stand at the
beginning. What follows a tilde up to a slash would name somebody, whose home is not known. -/
def expandTildes (home : String) (rule : TildeRule) (here : Bool) : Word Script → Word Script
  | .literal cs false :: rest =>
    let endsName (c : Char) : Bool := c = '/' || (rule = .parts && c = ':')
    let parts := if rule = .parts then Text.split (· == ':') cs else [cs]
    let expanded := parts.zipIdx.flatMap fun (part, i) ↦
      let colon : Word Script := if i = 0 then [] else [.literal [':'] false]
      let alone :=
        match part with
        | '~' :: behind =>
          if behind.isEmpty then i + 1 < parts.length || rest.isEmpty
          else behind.head?.any endsName
        | _ => false
      colon ++
        if alone && (here || i ≠ 0) then [.literal home.toList true, .literal part.tail false]
        else [.literal part false]
    expanded ++ if rule = .parts then expandTildes home rule false rest else rest
  | piece :: rest => piece :: if rule = .parts then expandTildes home rule false rest else rest
  | [] => []

/-- A word with its tildes expanded, if there is a home. -/
def withHome (st : State) (rule : TildeRule) (word : Word Script) : Word Script :=
  match st.valueOf? "HOME" with
  | some home => expandTildes home rule true word
  | none => word

/-! ### Pieces -/

namespace Action

/-- What is said of a parameter without a value. -/
def notSet (name : String) : String :=
  name ++ ": parameter not set"

/-- The value of a parameter, which has to be set if an option says so. -/
def valueOf (name : String) : Action String := do
  let st ← get
  match st.parameter? name with
  | some value => return value
  | none => if st.isOn 'u' then fail (notSet name) else return ""

/-- Whether a parameter gives a field for each argument, if fields are asked for. -/
def givesFields (splits : Bool) (name : String) (isQuoted : Bool) : Bool :=
  splits && (name = "@" || (name = "*" && !isQuoted))

/-- The glyphs of fields. -/
def ofFields (isQuoted : Bool) (fields : List (List Char)) : List Glyph :=
  if isQuoted then
    List.intercalate [.boundary] (fields.map fun cs ↦ .mark :: Glyph.ofValue cs true)
  else List.intercalate [.value '\x00'] (fields.map (Glyph.ofValue · false))

/-- What a parameter gives. -/
def glyphsOf (splits : Bool) (name : String) (isQuoted : Bool) : Action (List Glyph) := do
  if givesFields splits name isQuoted then
    return ofFields isQuoted ((← get).args.map String.toList)
  else return Glyph.ofValue (← valueOf name).toList isQuoted

/-- What is left of a parameter when a part that fits is cut off. The arguments are taken together,
and what is cut off one of them goes with all behind or before it. -/
def cutGlyphs (splits : Bool) (name : String) (isQuoted : Bool) (cut : List Char → List Char) :
    Action (List Glyph) := do
  if givesFields splits name isQuoted then
    let args := (← get).args.map String.toList
    if args.isEmpty then return []
    else
      let left := cut (List.intercalate ['\x00'] args)
      return ofFields isQuoted (Text.split (· == '\x00') left)
  else return Glyph.ofValue (cut (← valueOf name).toList) isQuoted

/-- The variables of expressions. -/
def shellVariables : Expression.Variables State where
  value st name :=
    let value := (st.parameter? name).getD ""
    if value.toList.all isNumberBlank then .ok 0
    else
      match leadingInteger? value.toList with
      | some (n, rest) =>
        let isNumber :=
          rest.all isNumberBlank && Int64.minValue.toInt ≤ n && n ≤ Int64.maxValue.toInt
        if isNumber then .ok (Int64.ofInt n) else .error (.illegalNumber value)
      | none => .error (.illegalNumber value)
  assign st name n :=
    match st.assign? name (toString n.toInt) with
    | some st => .ok st
    | none => .error (.readOnly name)

/-- The value of an expression. -/
def calculate (text : List Char) : Action Int64 := do
  let fault {α : Type} (f : ArithmeticFault) : Action α :=
    fail ("arithmetic expression: " ++ f.message ++ ": \"" ++ String.ofList text ++ "\"")
  match (Expression.ofText text).eval shellVariables (← get) with
  | .ok (n, st) =>
    set st
    return n
  | .error (.fault f) => fault f
  | .error (.illegalNumber value) => fail ("Illegal number: " ++ value)
  | .error (.readOnly name) => fail (name ++ ": is read only")

mutual

/-- What a piece gives. -/
def ofPiece (capture : Capture) (splits : Bool) : Piece Script → Action (List Glyph)
  | .literal cs isQuoted => return Glyph.ofLiteral cs isQuoted
  | .value name isQuoted => glyphsOf splits name isQuoted
  | .length name isQuoted => do
    return Glyph.ofValue (toString (← valueOf name).length).toList isQuoted
  | .output script isQuoted => do return Glyph.ofValue (← capture script) isQuoted
  | .arithmetic expression isQuoted => do
    let text := Glyph.text (← ofPieces capture false expression)
    return Glyph.ofValue (toString (← calculate text).toInt).toList isQuoted
  | .malformed => fail "Bad substitution"
  | .modified name modifier word isQuoted => do
    let tilde (gs : List Glyph) : Action (List Glyph) := do
      match gs, (← get).valueOf? "HOME" with
      | .plain '~' :: rest, some home =>
        if !isQuoted && (rest.isEmpty || rest.head? = some (.plain '/')) then
          return Glyph.ofValue home.toList true ++ rest
        else return gs
      | gs, _ => return gs
    let isDefault := word.isEmpty
    let word : Action (List Glyph) := do tilde (← ofPieces capture splits word)
    let value? := (← get).parameter? name
    let isMissing (orEmpty : Bool) : Bool :=
      value?.isNone || (orEmpty && value? = some "")
    let substitute : Action (List Glyph) := do
      let gs ← word
      return if isQuoted then gs else gs.map Glyph.asValue
    match modifier with
    | .default orEmpty =>
      if isMissing orEmpty then substitute else glyphsOf splits name isQuoted
    | .alternative orEmpty => if isMissing orEmpty then return [] else substitute
    | .assign orEmpty =>
      if isMissing orEmpty then
        let value := String.ofList (Glyph.text (← word))
        assign name value
      glyphsOf splits name isQuoted
    | .require orEmpty =>
      if isMissing orEmpty then
        if isDefault then fail (notSet name ++ if orEmpty then " or null" else "")
        else fail (name ++ ": " ++ String.ofList (Glyph.text (← word)))
      else glyphsOf splits name isQuoted
    | .cut atStart longest =>
      let _ ← valueOf name
      if value?.isNone then return []
      else cutGlyphs splits name isQuoted (Wildcard.cut (← word) atStart longest)

/-- What pieces give, one after the other. -/
def ofPieces (capture : Capture) (splits : Bool) : List (Piece Script) → Action (List Glyph)
  | [] => return []
  | piece :: rest => do
    let gs ← ofPiece capture splits piece
    return gs ++ (← ofPieces capture splits rest)

end

end Action

/-! ### Paths -/

/-- Parts between slashes. -/
def pathParts : List Glyph → List (List Glyph)
  | [] => [[]]
  | g :: gs =>
    if g.char? = some '/' then [] :: pathParts gs
    else (pathParts gs).modifyHead (g :: ·)

/-- The paths that fit a pattern, of which `before` is spelled already. -/
def pathsBehind (files : FileStore) (before : List Char) : List (List Glyph) → List (List Char)
  | [] => [before]
  | part :: rest =>
    let slash := if rest.isEmpty then [] else ['/']
    if Wildcard.hasSigns part then
      let folder : Path := ⟨if before.isEmpty then "." else textOf before⟩
      match files.locate true folder with
      | .ok (l, .folder _) =>
        let names := ['.'] :: ['.', '.'] :: (files.childNames l).map fun name ↦
          (bytesOf name).toList
        let showsHidden := (Glyph.text part).head? = some '.'
        let fitting := names.filter fun name ↦
          (showsHidden || name.head? ≠ some '.') && Wildcard.fit part name
        fitting.flatMap fun name ↦
          let there := before ++ name
          if rest.isEmpty then [there]
          else if files.isFolder ⟨textOf there⟩ then pathsBehind files (there ++ slash) rest
          else []
      | _ => []
    else
      let there := before ++ Glyph.text part
      if rest.isEmpty then
        if (files.locate false ⟨textOf there⟩).toOption.isSome then [there] else []
      else pathsBehind files (there ++ slash) rest

/-- What a field gives: the paths that fit it, or its text. -/
def pathsOf (st : State) (field : List Glyph) : List String :=
  let text := String.ofList (Glyph.text field)
  if st.isOn 'f' || !Wildcard.hasSigns field then [text]
  else
    let paths := pathsBehind st.files [] (pathParts (field.filter fun g ↦ g.char?.isSome))
    if paths.isEmpty then [text] else (paths.map String.ofList).mergeSort fun a b ↦ a ≤ b

/-! ### Words -/

namespace Action

/-- The fields that a word gives. -/
def fieldsOf (capture : Capture) (word : Word Script) : Action (List String) := do
  let gs ← ofPieces capture true (withHome (← get) .first word)
  let st ← get
  return (splitFields st.separators [] none gs).flatMap (pathsOf st)

/-- The fields that words give. -/
def allFieldsOf (capture : Capture) : List (Word Script) → Action (List String)
  | [] => return []
  | word :: rest => do
    let fields ← fieldsOf capture word
    return fields ++ (← allFieldsOf capture rest)

/-- What a word gives where it is not split. -/
def glyphsOfWord (capture : Capture) (rule : TildeRule) (word : Word Script) :
    Action (List Glyph) := do
  ofPieces capture false (withHome (← get) rule word)

/-- The text of a word where it is not split. -/
def textOfWord (capture : Capture) (rule : TildeRule) (word : Word Script) : Action String := do
  return String.ofList (Glyph.text (← glyphsOfWord capture rule word))

end Action

end Rebuild.Shell
