import Rebuild.Shell.Source

/-!
# Reading words

A word is read piece by piece; what a piece can be depends on the quotes and braces around it. The
scripts inside words are read by a reader that is given: it reads up to a closing parenthesis, or
all of a text that stood in backquotes.
-/

namespace Rebuild.Shell

/-- What pieces stand in, which decides where they end. -/
inductive Surroundings where
  /-- Nothing: a blank or an operator ends the word. -/
  | word
  /-- Double quotes. -/
  | quotes
  /-- The braces of a parameter, inside double quotes or not. -/
  | braces (quoted : Bool)
  /-- A text that a redirection reads. -/
  | document
  /-- An arithmetic expression, with this many open parentheses. -/
  | arithmetic (depth : Nat)
deriving DecidableEq, Repr

namespace Surroundings

/-- Whether what stands in the surroundings is quoted. -/
def isQuoted : Surroundings → Bool
  | word | braces false => false
  | _ => true

/-- The characters that a backslash keeps from having a meaning. -/
def escapable : Surroundings → List Char
  | document => ['\\', '\x60', '$']
  | braces _ => ['\\', '\x60', '$', '"', '\x7d']
  | _ => ['\\', '\x60', '$', '"']

/-- What is missing where the text ends. -/
def fault? : Surroundings → Option Fault
  | word | document => none
  | quotes | braces true => some .unterminatedQuote
  | braces false => some .missingBrace
  | arithmetic _ => some .missingParens

end Surroundings

/-- Characters that end a word unless they are quoted. -/
def endsWord (c : Char) : Bool :=
  [' ', '\t', '\n', ';', '&', '|', '<', '>', '(', ')'].contains c

/-- The parameters with a sign for a name. -/
def specialParameters : List Char := ['@', '*', '#', '?', '$', '!', '-']

/-- A reader of the scripts inside words. -/
abbrev NestedReader := Option (List Char) → Reader Script

namespace Reader

/-- Reads single quotes behind the first. -/
def singleQuoted : Nat → Reader (List Char)
  | 0 => fail .unterminatedQuote
  | n + 1 => do
    match ← takeRaw? with
    | none => fail .unterminatedQuote
    | some '\'' => return []
    | some c => return c :: (← singleQuoted n)

/-- Reads backquotes behind the first; a backslash is dropped before the given characters. -/
def backquoted (escapable : List Char) : Nat → Reader (List Char)
  | 0 => fail .unterminatedBackquote
  | n + 1 => do
    match ← peek? with
    | none => fail .unterminatedBackquote
    | some '\x60' =>
      skip
      return []
    | some '\\' =>
      skip
      match ← takeRaw? with
      | none => fail .unterminatedBackquote
      | some c =>
        let rest ← backquoted escapable n
        return if escapable.contains c then c :: rest else '\\' :: c :: rest
    | some c =>
      skip
      return c :: (← backquoted escapable n)

/-- Reads the name of a parameter behind a brace; nothing if there is none. -/
def parameterName? : Reader (Option String) := do
  match ← peek? with
  | none => return none
  | some c =>
    if isNameStart c then return some (String.ofList (← takeWhile isNameChar (← size)))
    else if c.isDigit then return some (String.ofList (← takeWhile Char.isDigit (← size)))
    else if specialParameters.contains c then
      skip
      return some c.toString
    else return none

/-- What stands between a brace and what is done with the parameter: its name, and whether its
length is asked for. The number of arguments takes no modifier without a word. -/
def parameterHead? : Reader (Option (String × Bool)) := do
  match ← parameterName? with
  | some "#" =>
    let behindSign ← get
    match ← parameterName? with
    | none =>
      let c ← peek?
      skip
      let isAlone := c ≠ some '\x7d' && (← peek?) = some '\x7d'
      set behindSign
      return if isAlone then none else some ("#", false)
    | some name =>
      if isName name.toList || name.toList.all Char.isDigit then return some (name, true)
      else if (← peek?) = some '\x7d' then return some (name, true)
      else
        set behindSign
        return some ("#", false)
  | name => return name.map (·, false)

/-- The modifier that a sign stands for. -/
def modifierOf? (orEmpty : Bool) : Char → Option Modifier
  | '-' => some (.default orEmpty)
  | '=' => some (.assign orEmpty)
  | '?' => some (.require orEmpty)
  | '+' => some (.alternative orEmpty)
  | _ => none

/-- Reads a modifier; nothing if there is none. -/
def modifier? : Reader (Option Modifier) := do
  match ← peek? with
  | some ':' =>
    skip
    match (← peek?).bind (modifierOf? true) with
    | some modifier =>
      skip
      return some modifier
    | none => return none
  | some '%' =>
    skip
    return some (.cut false (← skipIf '%'))
  | some '#' =>
    skip
    return some (.cut true (← skipIf '#'))
  | some c =>
    match modifierOf? false c with
    | some modifier =>
      skip
      return some modifier
    | none => return none
  | none => return none

/-- The pieces of double quotes. All arguments alone, which may be none, make no word. -/
def ofQuotes (inside : Word Script) (rest : Word Script) : Word Script :=
  match inside with
  | [.value "@" true] => inside ++ rest
  | .literal cs true :: more => .literal cs true :: (more ++ rest)
  | inside => .literal [] true :: (inside ++ rest)

/-- Reads pieces up to the end of what they stand in; `fuel` is more than the number of characters
that are left. -/
def pieces (nested : NestedReader) : (fuel : Nat) → Surroundings → Reader (Word Script)
  | 0, _ => fail .unterminatedQuote
  | fuel + 1, surroundings => do
    let quoted := surroundings.isQuoted
    match ← peek? with
    | none =>
      match surroundings.fault? with
      | some fault => fail fault
      | none => return []
    | some c =>
      if surroundings = .word && endsWord c then return []
      else
        skip
        match c with
        | '\x7d' =>
          match surroundings with
          | .braces _ => return []
          | _ => return Word.cons [c] quoted (← pieces nested fuel surroundings)
        | '"' =>
          match surroundings with
          | .quotes => return []
          | .document | .arithmetic _ =>
            return Word.cons [c] true (← pieces nested fuel surroundings)
          | .word | .braces _ =>
            let inside ← pieces nested fuel .quotes
            return ofQuotes inside (← pieces nested fuel surroundings)
        | '\'' =>
          if quoted then return Word.cons [c] true (← pieces nested fuel surroundings)
          else
            let inside ← singleQuoted ((← size) + 1)
            return Word.cons inside true (← pieces nested fuel surroundings)
        | '\\' =>
          match ← takeRaw? with
          | none => return Word.cons [c] true (← pieces nested fuel surroundings)
          | some d =>
            let kept := quoted && !surroundings.escapable.contains d
            return Word.cons (if kept then [c, d] else [d]) true (← pieces nested fuel surroundings)
        | '(' =>
          match surroundings with
          | .arithmetic depth =>
            return Word.cons [c] true (← pieces nested fuel (.arithmetic (depth + 1)))
          | _ => return Word.cons [c] quoted (← pieces nested fuel surroundings)
        | ')' =>
          match surroundings with
          | .arithmetic (depth + 1) =>
            return Word.cons [c] true (← pieces nested fuel (.arithmetic depth))
          | .arithmetic 0 =>
            if ← skipIf ')' then return []
            else return Word.cons [c] true (← pieces nested fuel surroundings)
          | _ => return Word.cons [c] quoted (← pieces nested fuel surroundings)
        | '\x60' =>
          let escapable := if quoted then ['\\', '\x60', '$', '"'] else ['\\', '\x60', '$']
          let text ← backquoted escapable ((← size) + 1)
          let script ← nested (some text)
          return .output script quoted :: (← pieces nested fuel surroundings)
        | '$' =>
          match ← peek? with
          | some '(' =>
            skip
            let piece ←
              if ← skipIf '(' then
                pure (Piece.arithmetic (← pieces nested fuel (.arithmetic 0)) quoted)
              else pure (Piece.output (← nested none) quoted)
            return piece :: (← pieces nested fuel surroundings)
          | some '\x7b' =>
            skip
            let head ← parameterHead?
            let closed ← skipIf '\x7d'
            let piece ←
              match head, closed with
              | some (name, true), true => pure (Piece.length name quoted)
              | some (name, false), true => pure (Piece.value name quoted)
              | some (name, false), false =>
                match ← modifier? with
                | some (.cut atStart longest) =>
                  let word ← pieces nested fuel (.braces false)
                  pure (Piece.modified name (.cut atStart longest) word quoted)
                | some modifier =>
                  let word ← pieces nested fuel (.braces quoted)
                  pure (Piece.modified name modifier word quoted)
                | none =>
                  let _ ← pieces nested fuel (.braces quoted)
                  pure Piece.malformed
              | _, true => pure Piece.malformed
              | _, false =>
                let _ ← pieces nested fuel (.braces quoted)
                pure Piece.malformed
            return piece :: (← pieces nested fuel surroundings)
          | some d =>
            if isNameStart d then
              let name ← takeWhile isNameChar (← size)
              return .value (String.ofList name) quoted :: (← pieces nested fuel surroundings)
            else if d.isDigit || specialParameters.contains d then
              skip
              return .value d.toString quoted :: (← pieces nested fuel surroundings)
            else return Word.cons [c] quoted (← pieces nested fuel surroundings)
          | none => return Word.cons [c] quoted (← pieces nested fuel surroundings)
        | c => return Word.cons [c] quoted (← pieces nested fuel surroundings)

/-! ### Awaited texts -/

/-- Whether a line ends in a backslash that joins it with the next. -/
def isJoined (line : List Char) : Bool :=
  (line.reverse.takeWhile (· = '\\')).length % 2 = 1

/-- The lines up to the one that ends a text, and those behind it if there is one. -/
def linesUpTo (text : AwaitedText) (behindJoin : Bool) :
    List (List Char) → List (List Char) × Option (List (List Char))
  | [] => ([], none)
  | line :: rest =>
    let line := if text.stripsTabs then line.dropWhile (· = '\t') else line
    if !behindJoin && line = text.delimiter then ([], some rest)
    else
      let (inside, behind?) := linesUpTo text (text.expands && isJoined line) rest
      (line :: inside, behind?)

/-- Reads the texts that are awaited, where a line has ended. A text that nothing ends goes to the
end of the script. -/
def awaitedTexts (nested : NestedReader) : List AwaitedText → Reader Unit
  | [] => modify fun source ↦ { source with awaited := [] }
  | text :: more => do
    let source ← get
    let (inside, behind?) := linesUpTo text false (Text.split (· == '\n') source.rest)
    let body :=
      match behind? with
      | some _ => inside.flatMap (· ++ ['\n'])
      | none => List.intercalate ['\n'] inside
    set { source with
      rest := List.intercalate ['\n'] (behind?.getD [])
      line := source.line + inside.length + (if behind?.isSome then 1 else 0) }
    let word ←
      if text.expands then within body source.line (pieces nested (body.length + 1) .document)
      else pure [Piece.literal body true]
    modify fun source ↦ { source with reached := (text.number, word) :: source.reached }
    awaitedTexts nested more

/-! ### Tokens -/

/-- Drops blanks, joined line ends and a comment. -/
def dropBlanks : List Char → Nat → List Char × Nat
  | '\\' :: '\n' :: cs, line => dropBlanks cs (line + 1)
  | ' ' :: cs, line | '\t' :: cs, line => dropBlanks cs line
  | '#' :: cs, line => (cs.dropWhile (· ≠ '\n'), line)
  | cs, line => (cs, line)

/-- The token of a redirection sign. -/
def redirectionToken (stream? : Option Nat) (sign : Char) : Reader Token := do
  let output := stream?.getD 1
  let input := stream?.getD 0
  if sign = '>' then
    if ← skipIf '>' then return .redirection output .append
    else if ← skipIf '|' then return .redirection output .overwrite
    else if ← skipIf '&' then return .redirection output .duplicate
    else return .redirection output .output
  else if ← skipIf '<' then return .document input (← skipIf '-')
  else if ← skipIf '&' then return .redirection input .duplicate
  else if ← skipIf '>' then return .redirection input .update
  else return .redirection input .input

/-- Reads a token. -/
def token (nested : NestedReader) : Reader Token := do
  modify fun source ↦
    let (rest, line) := dropBlanks source.rest source.line
    { source with rest, line }
  match ← peek? with
  | none => return .operator .ending
  | some '\n' =>
    skip
    awaitedTexts nested (← get).awaited
    return .operator .newline
  | some '&' =>
    skip
    return .operator (if ← skipIf '&' then .andIf else .background)
  | some '|' =>
    skip
    return .operator (if ← skipIf '|' then .orIf else .bar)
  | some ';' =>
    skip
    return .operator (if ← skipIf ';' then .doubleSemicolon else .semicolon)
  | some '(' =>
    skip
    return .operator .openParen
  | some ')' =>
    skip
    return .operator .closeParen
  | some c =>
    if c = '<' ∨ c = '>' then
      skip
      redirectionToken none c
    else
      let word ← pieces nested ((← size) + 1) .word
      match word.bare?, ← peek? with
      | some [d], some sign =>
        if d.isDigit && (sign = '<' || sign = '>') then
          skip
          redirectionToken (some (d.toNat - '0'.toNat)) sign
        else return .word word
      | _, _ => return .word word

end Reader

end Rebuild.Shell
