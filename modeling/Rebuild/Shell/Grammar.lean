import Rebuild.Shell.Token

/-!
# Reading scripts

The grammar of commands. A script is read and run one line of commands at a time, so that what
stands before a fault is run: `Program` is the commands up to the end or to the first fault.

The readers call one another as commands stand in one another. Each call takes one from a number
that is given from outside; `fuelFor` gives more than there can be calls.
-/

namespace Rebuild.Shell

/-- Commands that are part of the shell language: a mistake in them ends the script, and no
function can have their names. -/
def specialCommands : List String :=
  [".", ":", "break", "continue", "eval", "exec", "exit", "export", "local", "readonly", "return",
    "set", "shift", "times", "trap", "unset"]

/-- What a list of commands is. -/
inductive ListRule where
  /-- The commands of one line. -/
  | line
  /-- The commands of a body, of which there is at least one. -/
  | body
  /-- The commands of a body that can be empty. -/
  | optional
deriving DecidableEq, Repr

namespace Reader

/-- The next token, which stays. -/
def peek (nested : NestedReader) : Reader Token := do
  match (← get).ahead? with
  | some t => return t
  | none =>
    let t ← token nested
    modify fun source ↦ { source with ahead? := some t }
    return t

/-- Drops the token that was looked at. -/
def drop : Reader Unit :=
  modify fun source ↦ { source with ahead? := none }

/-- Gives up because of a token. -/
def unexpected {α : Type} (t : Token) (expected : Option String := none) : Reader α :=
  fail (.unexpected t.describe expected)

/-- Drops line ends. -/
def skipNewlines (nested : NestedReader) : Nat → Reader Unit
  | 0 => return ()
  | n + 1 => do
    match ← peek nested with
    | .operator .newline =>
      drop
      skipNewlines nested n
    | _ => return ()

/-- Drops a reserved word. -/
def expectReserved (nested : NestedReader) (text : String) : Reader Unit := do
  let t ← peek nested
  if t.reserved? = some text then drop
  else unexpected t (Token.describeReserved text)

/-- Drops an operator. -/
def expectOperator (nested : NestedReader) (o : Operator) : Reader Unit := do
  match ← peek nested with
  | .operator o' => if o' = o then drop else unexpected (.operator o') o.describe
  | t => unexpected t o.describe

/-- Drops an operator if it is next. -/
def skipOperator (nested : NestedReader) (o : Operator) : Reader Bool := do
  match ← peek nested with
  | .operator o' =>
    if o' = o then
      drop
      return true
    else return false
  | _ => return false

/-- Reads words. -/
def wordsAhead (nested : NestedReader) : Nat → Reader (List (Word Script))
  | 0 => return []
  | n + 1 => do
    match ← peek nested with
    | .word w =>
      drop
      return w :: (← wordsAhead nested n)
    | _ => return []

/-- Reads the patterns of a branch, with bars between them. -/
def patterns (nested : NestedReader) : Nat → Reader (List (Word Script))
  | 0 => return []
  | n + 1 => do
    let pattern :=
      match ← peek nested with
      | .word w => w
      | _ => []
    drop
    if ← skipOperator nested .bar then return pattern :: (← patterns nested n)
    else return [pattern]

/-- Reads the operand of a redirection. -/
def operand (nested : NestedReader) : Reader (Word Script) := do
  match ← peek nested with
  | .word w =>
    drop
    return w
  | t => unexpected t

/-- Reads a redirection, if one is next. -/
def redirection? (nested : NestedReader) : Reader (Option (Redirection Script)) := do
  match ← peek nested with
  | .redirection stream kind =>
    drop
    return some { stream, kind, operand := ← operand nested }
  | .document stream stripsTabs =>
    drop
    let (delimiter, quoted) := (← operand nested).fixedText
    let source ← get
    let text : AwaitedText := { number := source.asked, delimiter, stripsTabs, expands := !quoted }
    set { source with asked := source.asked + 1, awaited := source.awaited ++ [text] }
    return some { stream, kind := .document, operand := (source.known.lookup text.number).getD [] }
  | _ => return none

/-- Reads redirections. -/
def redirections (nested : NestedReader) : Nat → Reader (List (Redirection Script))
  | 0 => return []
  | n + 1 => do
    match ← redirection? nested with
    | some r => return r :: (← redirections nested n)
    | none => return []

/-- Lets the next word be one without a meaning of its own. -/
def makePlain (nested : NestedReader) : Reader Unit := do
  match ← peek nested with
  | .word w => modify fun source ↦ { source with ahead? := some (.word (.literal [] true :: w)) }
  | _ => return ()

/-- Reads commands that can have texts behind them. The texts are known only when the commands have
been read, and then they are read a second time. -/
def withTexts (reader : Reader Script) : Reader Script := do
  let start ← get
  set { start with asked := 0, reached := [], known := [] }
  let script ← reader
  let texts := (← get).reached
  let script ←
    if texts.isEmpty then pure script
    else
      set { start with asked := 0, reached := [], known := texts }
      reader
  modify fun source ↦
    { source with asked := start.asked, reached := start.reached, known := start.known }
  return script

mutual

/-- Reads a script inside a word. -/
def nested : (fuel : Nat) → NestedReader
  | 0, _ => fail .missingBrace
  | fuel + 1, none => do
    let awaited := (← get).awaited
    modify fun source ↦ { source with awaited := [] }
    let script ← withTexts (list fuel .optional)
    expectOperator (nested fuel) .closeParen
    modify fun source ↦ { source with awaited }
    return script
  | fuel + 1, some text => within text 1 (withTexts (list fuel .optional))

/-- Reads a list of commands. -/
def list : (fuel : Nat) → ListRule → Reader Script
  | 0, _ => fail .missingBrace
  | fuel + 1, rule => do
    unless rule = .line do skipNewlines (nested fuel) fuel
    match ← peek (nested fuel) with
    | .operator .newline =>
      drop
      return .empty
    | .operator .ending => return .empty
    | t =>
      if rule = .optional && t.endsList then return .empty
      let next := if rule = .line then ListRule.line else .optional
      let command ← andOr fuel
      match ← peek (nested fuel) with
      | .operator .background =>
        drop
        return Script.followedBy (.background command) (← list fuel next)
      | .operator .semicolon =>
        drop
        return command.followedBy (← list fuel next)
      | .operator .newline => return command.followedBy (← list fuel next)
      | .operator .ending => return command
      | t => if rule = .line then unexpected t else return command

/-- Reads commands with `&&` and `||` between them. -/
def andOr : (fuel : Nat) → Reader Script
  | 0 => fail .missingBrace
  | fuel + 1 => do
    let first ← pipeline fuel
    andOrBehind fuel first

/-- Reads what follows a command behind `&&` and `||`. -/
def andOrBehind : (fuel : Nat) → Script → Reader Script
  | 0, _ => fail .missingBrace
  | fuel + 1, first => do
    if ← skipOperator (nested fuel) .andIf then
      skipNewlines (nested fuel) fuel
      let second ← pipeline fuel
      andOrBehind fuel (.andThen first second)
    else if ← skipOperator (nested fuel) .orIf then
      skipNewlines (nested fuel) fuel
      let second ← pipeline fuel
      andOrBehind fuel (.orElse first second)
    else return first

/-- Reads commands with bars between them, behind an exclamation mark or not. -/
def pipeline : (fuel : Nat) → Reader Script
  | 0 => fail .missingBrace
  | fuel + 1 => do
    if (← peek (nested fuel)).reserved? = some "!" then
      drop
      return .negated (← piped fuel)
    else piped fuel

/-- Reads commands with bars between them. -/
def piped : (fuel : Nat) → Reader Script
  | 0 => fail .missingBrace
  | fuel + 1 => do
    let first ← command fuel
    if ← skipOperator (nested fuel) .bar then
      skipNewlines (nested fuel) fuel
      return .piped first (← piped fuel)
    else return first

/-- Reads one command. -/
def command : (fuel : Nat) → Reader Script
  | 0 => fail .missingBrace
  | fuel + 1 => do
    let t ← peek (nested fuel)
    let line := (← get).line
    let compound? : Option (List (Redirection Script) → Script) ←
      match t.reserved?, t with
      | some "if", _ =>
        drop
        pure (some ((← conditional fuel).redirectedTo line))
      | some "while", _ =>
        drop
        pure (some ((← loop fuel true).redirectedTo line))
      | some "until", _ =>
        drop
        pure (some ((← loop fuel false).redirectedTo line))
      | some "for", _ =>
        drop
        pure (some ((← forEach fuel line).redirectedTo line))
      | some "case", _ =>
        drop
        let word ←
          match ← peek (nested fuel) with
          | .word w => pure w
          | t => unexpected t "word"
        drop
        skipNewlines (nested fuel) fuel
        expectReserved (nested fuel) "in"
        pure (some ((Script.select line word (← branches fuel)).redirectedTo line))
      | some "\x7b", _ =>
        drop
        let body ← list fuel .body
        expectReserved (nested fuel) "\x7d"
        pure (some (body.redirectedTo line))
      | some _, t => unexpected t
      | none, .operator .openParen =>
        drop
        let body ← list fuel .body
        expectOperator (nested fuel) .closeParen
        pure (some (.subshell line body))
      | none, .operator o => unexpected (.operator o)
      | none, _ => pure none
    match compound? with
    | none => simple fuel line [] [] []
    | some compound =>
      let rs ← redirections (nested fuel) fuel
      unless rs.isEmpty do makePlain (nested fuel)
      return compound rs

/-- Reads a conditional behind its `if` or `elif`. -/
def conditional : (fuel : Nat) → Reader Script
  | 0 => fail .missingBrace
  | fuel + 1 => do
    let condition ← list fuel .body
    expectReserved (nested fuel) "then"
    let thenBody ← list fuel .body
    match (← peek (nested fuel)).reserved? with
    | some "elif" =>
      drop
      return .conditional condition thenBody (← conditional fuel)
    | some "else" =>
      drop
      let elseBody ← list fuel .body
      expectReserved (nested fuel) "fi"
      return .conditional condition thenBody elseBody
    | _ =>
      expectReserved (nested fuel) "fi"
      return .conditional condition thenBody .empty

/-- Reads a loop behind its `while` or `until`. -/
def loop : (fuel : Nat) → Bool → Reader Script
  | 0, _ => fail .missingBrace
  | fuel + 1, whileSuccess => do
    let condition ← list fuel .body
    expectReserved (nested fuel) "do"
    let body ← list fuel .body
    expectReserved (nested fuel) "done"
    return .loop condition body whileSuccess

/-- Reads a loop behind its `for`. -/
def forEach : (fuel : Nat) → (line : Nat) → Reader Script
  | 0, _ => fail .missingBrace
  | fuel + 1, line => do
    let name ←
      match ← peek (nested fuel) with
      | .word w =>
        match w.bare?.filter isName with
        | some name => pure (String.ofList name)
        | none => fail .badLoopVariable
      | _ => fail .badLoopVariable
    drop
    skipNewlines (nested fuel) fuel
    let words ←
      if (← peek (nested fuel)).reserved? = some "in" then
        drop
        let words ← wordsAhead (nested fuel) fuel
        match ← peek (nested fuel) with
        | .operator .newline | .operator .semicolon => drop
        | t => unexpected t
        pure words
      else
        let _ ← skipOperator (nested fuel) .semicolon
        pure [[Piece.value "@" true]]
    skipNewlines (nested fuel) fuel
    expectReserved (nested fuel) "do"
    let body ← list fuel .body
    expectReserved (nested fuel) "done"
    return .forEach line name words body

/-- Reads the branches of a selection and the `esac` behind them. -/
def branches : (fuel : Nat) → Reader (List (List (Word Script) × Script))
  | 0 => fail .missingBrace
  | fuel + 1 => do
    skipNewlines (nested fuel) fuel
    if (← peek (nested fuel)).reserved? = some "esac" then
      drop
      return []
    else
      let _ ← skipOperator (nested fuel) .openParen
      let patterns ← patterns (nested fuel) fuel
      expectOperator (nested fuel) .closeParen
      let body ← list fuel .optional
      skipNewlines (nested fuel) fuel
      if (← peek (nested fuel)).reserved? = some "esac" then
        drop
        return [(patterns, body)]
      else
        expectOperator (nested fuel) .doubleSemicolon
        return (patterns, body) :: (← branches fuel)

/-- Reads a simple command, of which some has been read before in reverse. A name and an empty pair
of parentheses define a function. -/
def simple : (fuel : Nat) → (line : Nat) → List (String × Word Script) → List (Word Script) →
    List (Redirection Script) → Reader Script
  | 0, _, _, _, _ => fail .missingBrace
  | fuel + 1, line, assignments, words, rs => do
    match ← redirection? (nested fuel) with
    | some r => simple fuel line assignments words (r :: rs)
    | none =>
      match ← peek (nested fuel), assignments, words, rs with
      | .word w, _, _, _ =>
        drop
        match w.assignment?, words with
        | some a, [] => simple fuel line (a :: assignments) words rs
        | _, _ => simple fuel line assignments (w :: words) rs
      | .operator .openParen, [], [name], [] =>
        drop
        makePlain (nested fuel)
        expectOperator (nested fuel) .closeParen
        match name.bare?.filter isName with
        | some name =>
          let name := String.ofList name
          if specialCommands.contains name then fail .badFunctionName
          skipNewlines (nested fuel) fuel
          return .function name (← command fuel)
        | none => fail .badFunctionName
      | _, _, _, _ => return .simple line assignments.reverse words.reverse rs.reverse

end

/-- A number that is greater than that of the calls in which readers of a text of so many
characters can be at a time. -/
def fuelFor (size : Nat) : Nat :=
  8 * size + 16

/-- Reads one line of commands. -/
def line : Reader Script := do
  let fuel := fuelFor (← size)
  withTexts (list fuel .line)

end Reader

/-- What a text means: commands, and what is wrong behind them. -/
structure Program where
  /-- The commands. -/
  commands : List Script
  /-- The first fault. -/
  error? : Option SyntaxError := none

namespace Program

/-- Reads lines of commands, at most `n`. -/
def ofSource : Nat → Source → Program
  | 0, _ => { commands := [] }
  | n + 1, source =>
    match Reader.line source with
    | .error e => { commands := [], error? := some e }
    | .ok (command, behind) =>
      match behind.ahead? with
      | some _ => { commands := [command] }
      | none =>
        let more := ofSource n behind
        { more with commands := command :: more.commands }

/-- Reads a text. -/
def ofText (text : List Char) : Program :=
  ofSource (text.length + 1) { rest := text }

end Program

end Rebuild.Shell
