import Rebuild.Shell.Expansion

/-!
# Opening streams

A redirection is done in two steps: its operand is expanded, which gives an `Opening`, and the
stream is opened. Only what goes wrong in the second step can be caught; a text that is read is
expanded then. A stream that goes where another one goes shares its place with it.
-/

namespace Rebuild.Shell

/-- A redirection with its operand in place. -/
structure Opening where
  /-- The number of the stream. -/
  stream : Nat
  /-- What is done with the operand. -/
  kind : RedirectionKind
  /-- The file or the other stream. -/
  operand : String := ""
  /-- The text that is read. -/
  text : Word Script := []

/-- What stands behind files that are none: nothing, or the stream with a number. -/
def specialFile? : String → Option (Option Nat)
  | "/dev/null" => some none
  | "/dev/stdin" | "/dev/fd/0" => some (some 0)
  | "/dev/stdout" | "/dev/fd/1" => some (some 1)
  | "/dev/stderr" | "/dev/fd/2" => some (some 2)
  | _ => none

/-- The state in which the streams of openings go where they went before. -/
def State.close (openings : List Opening) (before st : State) : State :=
  openings.foldl (fun st o ↦ st.setDescriptor o.stream (before.descriptors.lookup o.stream)) st

namespace Action

/-- The openings that redirections ask for. -/
def openingsOf (capture : Capture) : List (Redirection Script) → Action (List Opening)
  | [] => return []
  | r :: rest => do
    let opening : Opening ←
      if r.kind = .document then
        pure { stream := r.stream, kind := r.kind, text := r.operand }
      else do
        let operand ← textOfWord capture .first r.operand
        pure { stream := r.stream, kind := r.kind, operand }
    let operand := opening.operand
    let isStream := operand = "-" || (operand.length = 1 && operand.toList.all Char.isDigit)
    if r.kind = .duplicate && !isStream then fail "Syntax error: Bad fd number"
    return opening :: (← openingsOf capture rest)

/-- Lets a stream go where another one goes. If that goes nowhere, a stream that is put back later
is put aside before anything is said. -/
def duplicate (returns : Bool) (stream other : Nat) : Action Unit := do
  let place? := (← get).descriptors.lookup other
  if returns || place?.isSome then modify (·.setDescriptor stream place?)
  if place?.isNone then fail (toString other ++ ": Bad file descriptor")

/-- Opens a file for reading. -/
def openInput (stream : Nat) (operand : String) : Action Unit := do
  let st ← get
  match st.files.locate true ⟨pathText operand⟩ with
  | .ok (l, .file ..) => set (st.openAs stream (.file l 0 false))
  | .ok _ => set (st.openAs stream .nothing)
  | .error e =>
    let reason := if e = .notFound || e = .notAFolder then "No such file" else e.reason
    fail ("cannot open " ++ operand ++ ": " ++ reason)

/-- Opens a file for writing. A file that is there is emptied if `empties` says so, and refused if
`spares` does. -/
def openOutput (stream : Nat) (operand : String) (empties spares appends : Bool) :
    Action Unit := do
  let st ← get
  let path : Path := ⟨pathText operand⟩
  let refuse (reason : String) : Action Unit :=
    fail ("cannot create " ++ operand ++ ": " ++ reason)
  let isThere := (st.files.stat path).toOption.any Entry.isFile
  if isThere && spares then refuse FileError.alreadyExists.reason
  else
    match if isThere && !empties then .ok st.files else st.files.writeBytes path .empty with
    | .error e =>
      let isMissing := e = .notFound || e = .notAFolder
      refuse (if isMissing then "Directory nonexistent" else e.reason)
    | .ok files =>
      match files.canonical? path with
      | some l => set ({ st with files }.openAs stream (.file l 0 appends))
      | none => set { st with files }

/-- Opens the stream that an opening asks for. -/
def openOne (capture : Capture) (returns : Bool) (o : Opening) : Action Unit := do
  match o.kind with
  | .document =>
    let text := Glyph.text (← ofPieces capture false o.text)
    modify (·.openAs o.stream (.unread text))
  | .duplicate =>
    match decimal? o.operand with
    | some other => duplicate returns o.stream other
    | none => modify (·.setDescriptor o.stream none)
  | kind =>
    match specialFile? o.operand with
    | some none => modify (·.openAs o.stream .nothing)
    | some (some other) => duplicate returns o.stream other
    | none =>
      match kind with
      | .input => openInput o.stream o.operand
      | .append => openOutput o.stream o.operand false false true
      | .update => openOutput o.stream o.operand false false false
      | .overwrite => openOutput o.stream o.operand true false false
      | _ => openOutput o.stream o.operand true ((← get).isOn 'C') false

/-- Opens the streams that openings ask for; `returns` says that they are put back later. -/
def openAll (capture : Capture) (returns : Bool) : List Opening → Action Unit
  | [] => return ()
  | o :: rest => do
    openOne capture returns o
    openAll capture returns rest

end Action

end Rebuild.Shell
