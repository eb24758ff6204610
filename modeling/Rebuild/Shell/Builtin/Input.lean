import Rebuild.Shell.Builtin.Variable
import Rebuild.Shell.Format

/-!
# Commands that read and print

Printing by a format, reading a line into variables, and looking for options among arguments.
-/

namespace Rebuild.Shell

namespace Action

/-! ### Reading and printing -/

/-- Prints what a format asks for. -/
def printFormat (args : List String) : Action Nat := do
  match ← withoutSwitches args with
  | [] => fail "usage: printf format [arg ...]"
  | text :: args =>
    let f := Formatting.ofFormat text.toList args
    f.complaints.reverse.forM fun complaint ↦ modify (·.complain complaint)
    match f.fault? with
    | some fault =>
      modify (·.complain fault)
      print f.text
      return 2
    | none =>
      print f.text
      return if f.complaints.isEmpty then 0 else 1

/-- Reads characters up to the end of a line. A backslash takes the meaning from the next character,
and joins lines, unless `raw` says that it does not. The answer also says whether the line had an
end. -/
def readLine (raw : Bool) : (limit : Nat) → Action (List Glyph × Bool)
  | 0 => return ([], false)
  | limit + 1 => do
    match (← get).read? 0 with
    | none => return ([], false)
    | some (c, st) =>
      set st
      if c = '\n' then return ([], true)
      else if c = '\x00' then readLine raw limit
      else if c = '\\' && !raw then
        match st.read? 0 with
        | none => return ([], false)
        | some (d, st) =>
          set st
          if d = '\n' then readLine raw limit
          else
            let (rest, ended) ← readLine raw limit
            return (.quoted d :: rest, ended)
      else
        let (rest, ended) ← readLine raw limit
        return (.value c :: rest, ended)

/-- The number of characters that can be read. -/
def unreadSize : Action Nat := do
  let st ← get
  match (st.descriptors.lookup 0).bind fun place ↦ st.streams[place]? with
  | some (.unread cs) => return cs.length
  | some (.file l ..) => return (st.contentAt l).size
  | _ => return 0

/-- Gives variables the fields of a line. -/
def readFields (args : List String) : Action Nat := do
  let (found, names) ← switches ['r'] ['p'] args
  if names.isEmpty then fail "arg count"
  let (line, ended) ← readLine (found.any (·.1 = 'r')) ((← unreadSize) + 1)
  let fields := splitLine (← get).separators names.length line
  (names.zip fields).forM fun (name, field) ↦
    assign (nameAndValue name).1 (String.ofList (Glyph.text field))
  return if ended then 0 else 1

/-! ### Options of scripts -/

/-- Says which variable gets what an option is, and the value that belongs to it. -/
def foundOption (target : String) (letter : Char) (value? : Option String)
    (index : Nat) (offset? : Option Nat) : Action Nat := do
  match value? with
  | some value => assign "OPTARG" value
  | none => unsetVariable "OPTARG"
  assign "OPTIND" (toString index)
  assign target letter.toString
  modify fun st ↦ { st with optionIndex := index, optionOffset? := offset? }
  return 0

/-- Looks at the letter of an option; `behind` is what follows it in its argument, and `next` the
argument with the number `index`. -/
def optionLetter (spec : List Char) (target : String) (c : Char) (offset : Nat)
    (behind : List Char) (next : Option String) (index : Nat) : Action Nat := do
  let quiet := spec.head? = some ':'
  let here? : Option Nat := if behind.isEmpty then none else some offset
  let missing (text : String) (letter : Char) : Action Nat := do
    if quiet then foundOption target letter (some c.toString) index here?
    else
      modify fun st ↦ st.write 2 (text ++ "\n").toList
      foundOption target '?' none index here?
  let specBehind := (if quiet then spec.tail else spec).dropWhile (· ≠ c)
  match specBehind with
  | [] => missing ("Illegal option -" ++ c.toString) '?'
  | _ :: ':' :: _ =>
    if !behind.isEmpty then foundOption target c (some (String.ofList behind)) index none
    else
      match next with
      | some value => foundOption target c (some value) (index + 1) none
      | none => missing ("No arg for -" ++ c.toString ++ " option") ':'
  | _ => foundOption target c (some "") index here?

/-- Looks for the next option among arguments. -/
def nextOption (args : List String) : Action Nat := do
  match args with
  | spec :: target :: rest =>
    let st ← get
    let candidates := if rest.isEmpty then st.args else rest
    let (start, offset?) :=
      if candidates.length + 1 < st.optionIndex then (1, none)
      else (st.optionIndex, st.optionOffset?)
    let ended (index : Nat) : Action Nat := do
      assign "OPTIND" (toString index)
      assign target "?"
      return 1
    let behind := (offset?.bind fun offset ↦
      if start < 2 then none
      else candidates[start - 2]?.map fun arg ↦ (offset, arg.toList.drop offset)).filter
        fun (_, cs) ↦ !cs.isEmpty
    match behind with
    | some (offset, c :: cs) =>
      optionLetter spec.toList target c (offset + 1) cs candidates[start - 1]? start
    | _ =>
      match (candidates[start - 1]?.getD "").toList with
      | ['-', '-'] => ended (start + 1)
      | '-' :: c :: cs =>
        optionLetter spec.toList target c 2 cs candidates[start]? (start + 1)
      | _ => ended start
  | _ => fail "Usage: getopts optstring var [arg...]"

end Action

end Rebuild.Shell
