import Rebuild.FileStore.Resolve
import Rebuild.Shell.Bytes

/-!
# Conditions

What `test` decides about texts, numbers and files. A condition is read from left to right, where
an argument is an operator only if what follows lets it be one. Readers answer with the arguments
from the last one on that they have used.
-/

namespace Rebuild.Shell

/-- What an argument of a condition is. -/
inductive ConditionToken where
  /-- The condition has ended. -/
  | ending
  /-- A text. -/
  | operand
  /-- A test of one text. -/
  | unary
  /-- A test of two texts. -/
  | binary
  /-- The opposite. -/
  | not
  /-- Both. -/
  | and
  /-- One of both. -/
  | or
  /-- `(` -/
  | openParen
  /-- `)` -/
  | closeParen
deriving DecidableEq, Repr

/-- Why a condition cannot be decided. -/
inductive ConditionFault where
  /-- An operator has nothing behind it. -/
  | argumentExpected (operator : String)
  /-- A parenthesis is not closed. -/
  | closingParenExpected
  /-- Something stands behind the condition. -/
  | unexpectedOperator (last : String)
  /-- A text is no number. -/
  | illegalNumber (text : String)
  /-- The closing bracket is missing. -/
  | missingBracket
deriving DecidableEq, Repr

/-- The wording of a fault. -/
def ConditionFault.message : ConditionFault → String
  | argumentExpected operator => operator ++ ": argument expected"
  | closingParenExpected => "closing paren expected"
  | unexpectedOperator last => last ++ ": unexpected operator"
  | illegalNumber text => "Illegal number: " ++ text
  | missingBracket => "missing ]"

namespace Condition

/-- The operators on one text. -/
def unaryOperators : List String :=
  ["-r", "-w", "-x", "-e", "-f", "-d", "-c", "-b", "-p", "-u", "-g", "-k", "-s", "-t", "-z", "-n",
    "-h", "-L", "-O", "-G", "-S"]

/-- The operators on two texts. -/
def binaryOperators : List String :=
  ["=", "!=", "<", ">", "-eq", "-ne", "-ge", "-gt", "-le", "-lt", "-nt", "-ot", "-ef"]

/-- What an argument is, in view of those behind it. -/
def lex : List String → ConditionToken
  | [] => .ending
  | s :: rest =>
    if s = "!" then .not
    else if s = "-a" then .and
    else if s = "-o" then .or
    else if s = "(" then if rest.isEmpty then .operand else .openParen
    else if s = ")" then .closeParen
    else if binaryOperators.contains s then .binary
    else if unaryOperators.contains s then
      match rest with
      | [] => .operand
      | [_] => .unary
      | operator :: _ => if binaryOperators.contains operator then .operand else .unary
    else .operand

/-- The number that a text is, if it is one of 64 bits. -/
def number (s : String) : Except ConditionFault Int :=
  let cs := s.toList.dropWhile isNumberBlank
  let (negative, digits) :=
    match cs with
    | '-' :: cs => (true, cs)
    | '+' :: cs => (false, cs)
    | cs => (false, cs)
  match digits? 10 digits with
  | some (magnitude, rest) =>
    let n : Int := if negative then -(magnitude : Int) else magnitude
    let isNumber := rest.all isNumberBlank && Int64.minValue.toInt ≤ n && n ≤ Int64.maxValue.toInt
    if isNumber then .ok n else .error (.illegalNumber s)
  | none => .error (.illegalNumber s)

/-- Decides a condition on one text. -/
def decideOne (files : FileStore) (operator operand : String) : Except ConditionFault Bool :=
  let path : Path := ⟨pathText operand⟩
  let found? := (files.stat path).toOption
  match operator with
  | "-n" => .ok (operand ≠ "")
  | "-z" => .ok (operand = "")
  | "-e" | "-r" | "-w" | "-O" | "-G" => .ok found?.isSome
  | "-f" => .ok (found?.any Entry.isFile)
  | "-d" => .ok (found?.any Entry.isFolder)
  | "-x" =>
    .ok (found?.any fun
      | .file _ executable _ => executable
      | _ => true)
  | "-s" =>
    .ok (found?.any fun
      | .file content .. => content.size ≠ 0
      | _ => true)
  | "-L" | "-h" =>
    .ok ((files.locate false path).toOption.any fun
      | (_, .link _) => true
      | _ => false)
  | "-t" => (number operand).map fun _ ↦ false
  | _ => .ok false

/-- Decides a condition on two texts. -/
def decideTwo (files : FileStore) (left operator right : String) : Except ConditionFault Bool :=
  let compare (test : Int → Int → Bool) : Except ConditionFault Bool := do
    return test (← number left) (← number right)
  let modified? (s : String) : Option Time := files.modified? ⟨pathText s⟩
  match operator with
  | "=" => .ok (left = right)
  | "!=" => .ok (left ≠ right)
  | "<" => .ok (left < right)
  | ">" => .ok (right < left)
  | "-eq" => compare (· = ·)
  | "-ne" => compare (· ≠ ·)
  | "-lt" => compare (· < ·)
  | "-le" => compare (· ≤ ·)
  | "-gt" => compare (· > ·)
  | "-ge" => compare (· ≥ ·)
  | "-nt" =>
    .ok (match modified? left, modified? right with
      | some a, some b => b < a
      | _, _ => false)
  | "-ot" =>
    .ok (match modified? left, modified? right with
      | some a, some b => a < b
      | _, _ => false)
  | _ =>
    let place? (s : String) : Option Location := files.canonical? ⟨pathText s⟩
    .ok ((place? left).isSome && place? left = place? right)

/-- What has been decided, and the arguments from the last one on that was used. -/
abbrev Decision := Except ConditionFault (Bool × List String)

mutual

/-- Decides conditions with `-o` between them. -/
def either (files : FileStore) : (fuel : Nat) → List String → Decision
  | 0, args => .ok (false, args)
  | fuel + 1, args => do
    let (left, used) ← both files fuel args
    if lex used.tail = .or then
      let (right, used) ← either files fuel (used.drop 2)
      return (left || right, used)
    else return (left, used)

/-- Decides conditions with `-a` between them. -/
def both (files : FileStore) : (fuel : Nat) → List String → Decision
  | 0, args => .ok (false, args)
  | fuel + 1, args => do
    let (left, used) ← opposite files fuel args
    if lex used.tail = .and then
      let (right, used) ← both files fuel (used.drop 2)
      return (left && right, used)
    else return (left, used)

/-- Decides a condition behind exclamation marks. -/
def opposite (files : FileStore) : (fuel : Nat) → List String → Decision
  | 0, args => .ok (false, args)
  | fuel + 1, args => do
    if lex args = .not then
      if args.tail.isEmpty then return (true, args)
      let (decided, used) ← opposite files fuel args.tail
      return (!decided, used)
    else primary files fuel args

/-- Decides a condition on one or two texts, or one in parentheses. -/
def primary (files : FileStore) : (fuel : Nat) → List String → Decision
  | 0, args => .ok (false, args)
  | fuel + 1, args =>
    match args, lex args with
    | _ :: rest, .openParen =>
      if lex rest = .closeParen then .ok (false, rest)
      else do
        let (decided, used) ← either files fuel rest
        if lex used.tail = .closeParen then return (decided, used.tail)
        else .error .closingParenExpected
    | operator :: rest, .unary =>
      match rest with
      | [] => .error (.argumentExpected operator)
      | operand :: _ => do return (← decideOne files operator operand, rest)
    | left :: rest, _ =>
      if lex rest = .binary then
        match rest with
        | operator :: right :: more => do
          return (← decideTwo files left operator right, right :: more)
        | operator :: [] => .error (.argumentExpected operator)
        | [] => .ok (left ≠ "", args)
      else .ok (left ≠ "", args)
    | [], _ => .ok (false, [])

end

/-- Decides a condition of which all arguments are read. -/
def whole (files : FileStore) (args : List String) : Except ConditionFault Bool := do
  let (decided, used) ← either files (4 * args.length + 4) args
  match used with
  | last :: _ :: _ => .error (.unexpectedOperator last)
  | _ => return decided

/-- Whether a condition holds. With three or four arguments, an operator in the middle, parentheses
around the others and an exclamation mark before them come first. -/
def holds (files : FileStore) (args : List String) : Except ConditionFault Bool :=
  match args with
  | [] => .ok false
  | [left, operator, right] =>
    if binaryOperators.contains operator then decideTwo files left operator right
    else if left = "(" ∧ right = ")" then whole files [operator]
    else if left = "!" then (whole files [operator, right]).map not
    else whole files args
  | ["!", left, operator, right] =>
    if binaryOperators.contains operator then (decideTwo files left operator right).map not
    else if left = "(" ∧ right = ")" then (whole files [operator]).map not
    else if left = "!" then whole files [operator, right]
    else (whole files [left, operator, right]).map not
  | ["(", left, right, ")"] => whole files [left, right]
  | args => whole files args

end Condition

end Rebuild.Shell
