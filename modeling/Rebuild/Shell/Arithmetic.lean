import Rebuild.Shell.Word

/-!
# Arithmetic of the shell

Expressions over whole numbers of 64 bits, which wrap, and over variables, which can be given
values. `Expression.ofText` reads an expression, `Expression.eval` gives its value and the
variables as they are afterwards.

An expression is evaluated as it is read, so that what goes wrong first counts. Where a text is no
expression, what is read has a `malformed` part, which has no value, even where none is needed.
-/

namespace Rebuild.Shell

/-! ### Expressions -/

/-- An operation on two numbers. -/
inductive BinaryOperation where
  | multiply | divide | remainder | add | subtract | shiftLeft | shiftRight
  | less | lessOrEqual | greater | greaterOrEqual | equal | notEqual
  | bitAnd | bitXor | bitOr
deriving DecidableEq, Repr

/-- An operation on one number. -/
inductive UnaryOperation where
  | negate | not | complement
deriving DecidableEq, Repr

/-- What is wrong with an expression. -/
inductive ArithmeticFault where
  /-- There is no operand where one should be. -/
  | expectingPrimary
  /-- Something stands behind the expression. -/
  | expectingEnd
  /-- A parenthesis is not closed. -/
  | expectingParen
  /-- A choice has one value only. -/
  | expectingColon
  /-- Something is divided by zero. -/
  | divisionByZero
deriving DecidableEq, Repr

/-- The wording of a fault. -/
def ArithmeticFault.message : ArithmeticFault → String
  | expectingPrimary => "expecting primary"
  | expectingEnd => "expecting EOF"
  | expectingParen => "expecting ')'"
  | expectingColon => "expecting ':'"
  | divisionByZero => "division by zero"

/-- An arithmetic expression. -/
inductive Expression where
  /-- A number. -/
  | number (n : Int64)
  /-- A variable. -/
  | named (name : String)
  /-- An operation on one value. -/
  | unary (operation : UnaryOperation) (operand : Expression)
  /-- An operation on two values. -/
  | binary (operation : BinaryOperation) (left right : Expression)
  /-- Whether both values are other than zero; the second is needed if the first is. -/
  | and (left right : Expression)
  /-- Whether a value is other than zero; the second is needed if the first is zero. -/
  | or (left right : Expression)
  /-- One of two values. -/
  | choose (condition thenValue elseValue : Expression)
  /-- Gives a variable a value, perhaps one that an operation makes of its present value. -/
  | assign (name : String) (operation : Option BinaryOperation) (value : Expression)
  /-- What is no expression. -/
  | malformed (f : ArithmeticFault)
  /-- An expression behind which something is wrong. -/
  | before (e : Expression) (f : ArithmeticFault)
deriving Repr, Inhabited

/-! ### Tokens -/

/-- A token of an expression. -/
inductive ArithmeticToken where
  | number (n : Int64)
  | name (s : String)
  | sign (s : String)
deriving DecidableEq, Repr

/-- The signs of expressions, those that begin with others first. -/
def arithmeticSigns : List String :=
  ["<<=", ">>=", "<<", ">>", "<=", ">=", "==", "!=", "&&", "||", "+=", "-=", "*=", "/=", "%=", "&=",
    "^=", "|=", "<", ">", "=", "!", "&", "|", "^", "~", "+", "-", "*", "/", "%", "(", ")", "?", ":"]

/-- The number that digits denote, at most the greatest one. -/
def saturated (n : Nat) : Int64 :=
  Int64.ofNat (min n 0x7FFFFFFFFFFFFFFF)

/-- The tokens of an expression; what is none is a sign that has no meaning. `fuel` is more than
the number of characters. -/
def arithmeticTokens : (fuel : Nat) → List Char → List ArithmeticToken
  | 0, _ | _, [] => []
  | fuel + 1, c :: cs =>
    if defaultBlank c then arithmeticTokens fuel cs
    else if c.isDigit then
      match leadingInteger? (c :: cs) with
      | some (n, rest) => .number (saturated n.toNat) :: arithmeticTokens fuel rest
      | none => [.sign ""]
    else if isNameStart c then
      let name := (c :: cs).takeWhile isNameChar
      .name (String.ofList name) :: arithmeticTokens fuel ((c :: cs).drop name.length)
    else
      match arithmeticSigns.find? fun s ↦ s.toList.isPrefixOf (c :: cs) with
      | some s => .sign s :: arithmeticTokens fuel ((c :: cs).drop s.length)
      | none => [.sign ""]
where
  /-- Blanks of expressions. -/
  defaultBlank (c : Char) : Bool :=
    c == ' ' || c == '\t' || c == '\n'

/-! ### Reading -/

/-- The operation of a sign and how weakly it binds. -/
def binaryOperation? : String → Option (BinaryOperation × Nat)
  | "*" => some (.multiply, 0)
  | "/" => some (.divide, 0)
  | "%" => some (.remainder, 0)
  | "+" => some (.add, 1)
  | "-" => some (.subtract, 1)
  | "<<" => some (.shiftLeft, 2)
  | ">>" => some (.shiftRight, 2)
  | "<" => some (.less, 3)
  | "<=" => some (.lessOrEqual, 3)
  | ">" => some (.greater, 3)
  | ">=" => some (.greaterOrEqual, 3)
  | "==" => some (.equal, 4)
  | "!=" => some (.notEqual, 4)
  | "&" => some (.bitAnd, 5)
  | "^" => some (.bitXor, 6)
  | "|" => some (.bitOr, 7)
  | _ => none

/-- The operation of a sign that gives a variable a value. -/
def assignOperation? : String → Option (Option BinaryOperation)
  | "=" => some none
  | "+=" => some (some .add)
  | "-=" => some (some .subtract)
  | "*=" => some (some .multiply)
  | "/=" => some (some .divide)
  | "%=" => some (some .remainder)
  | "<<=" => some (some .shiftLeft)
  | ">>=" => some (some .shiftRight)
  | "&=" => some (some .bitAnd)
  | "^=" => some (some .bitXor)
  | "|=" => some (some .bitOr)
  | _ => none

namespace Expression

/-- What is read of an expression, with the tokens behind it. -/
abbrev Reading := Expression × List ArithmeticToken

mutual

/-- Reads an assignment, or what is none. -/
def assignment : (fuel : Nat) → List ArithmeticToken → Reading
  | 0, _ => (.malformed .expectingPrimary, [])
  | fuel + 1, ts =>
    match ts with
    | .name name :: .sign s :: rest =>
      match assignOperation? s with
      | some operation =>
        let (value, rest) := assignment fuel rest
        (.assign name operation value, rest)
      | none => conditional fuel ts
    | ts => conditional fuel ts

/-- Reads a choice, or what is none. -/
def conditional : (fuel : Nat) → List ArithmeticToken → Reading
  | 0, _ => (.malformed .expectingPrimary, [])
  | fuel + 1, ts =>
    let (condition, rest) := disjunction fuel ts
    match rest with
    | .sign "?" :: rest =>
      let (thenValue, rest) := assignment fuel rest
      match rest with
      | .sign ":" :: rest =>
        let (elseValue, rest) := conditional fuel rest
        (.choose condition thenValue elseValue, rest)
      | rest => (.choose condition thenValue (.malformed .expectingColon), rest)
    | rest => (condition, rest)

/-- Reads values with `||` between them. -/
def disjunction : (fuel : Nat) → List ArithmeticToken → Reading
  | 0, _ => (.malformed .expectingPrimary, [])
  | fuel + 1, ts =>
    let (left, rest) := conjunction fuel ts
    match rest with
    | .sign "||" :: rest =>
      let (right, rest) := disjunction fuel rest
      (.or left right, rest)
    | rest => (left, rest)

/-- Reads values with `&&` between them. -/
def conjunction : (fuel : Nat) → List ArithmeticToken → Reading
  | 0, _ => (.malformed .expectingPrimary, [])
  | fuel + 1, ts =>
    let (left, rest) := primary fuel ts
    let (left, rest) := operations fuel 8 left rest
    match rest with
    | .sign "&&" :: rest =>
      let (right, rest) := conjunction fuel rest
      (.and left right, rest)
    | rest => (left, rest)

/-- Reads the operations behind a value that bind more strongly than `bound`. -/
def operations : (fuel : Nat) → (bound : Nat) → Expression → List ArithmeticToken → Reading
  | 0, _, left, ts => (left, ts)
  | fuel + 1, bound, left, ts =>
    match ts with
    | .sign s :: rest =>
      match binaryOperation? s with
      | some (operation, weakness) =>
        if weakness < bound then
          let (right, rest) := primary fuel rest
          let (right, rest) := operations fuel weakness right rest
          operations fuel bound (.binary operation left right) rest
        else (left, ts)
      | none => (left, ts)
    | ts => (left, ts)

/-- Reads a value without operations on two values. -/
def primary : (fuel : Nat) → List ArithmeticToken → Reading
  | 0, _ => (.malformed .expectingPrimary, [])
  | fuel + 1, ts =>
    match ts with
    | .number n :: rest => (.number n, rest)
    | .name name :: rest => (.named name, rest)
    | .sign "(" :: rest =>
      let (value, rest) := assignment fuel rest
      match rest with
      | .sign ")" :: rest => (value, rest)
      | rest => (.before value .expectingParen, rest)
    | .sign "+" :: rest => primary fuel rest
    | .sign "-" :: rest =>
      let (value, rest) := primary fuel rest
      (.unary .negate value, rest)
    | .sign "!" :: rest =>
      let (value, rest) := primary fuel rest
      (.unary .not value, rest)
    | .sign "~" :: rest =>
      let (value, rest) := primary fuel rest
      (.unary .complement value, rest)
    | _ => (.malformed .expectingPrimary, [])

end

/-- The expression that a text is. -/
def ofText (text : List Char) : Expression :=
  let (value, rest) := assignment (8 * text.length + 8) (arithmeticTokens (text.length + 1) text)
  if rest.isEmpty then value else .before value .expectingEnd

/-- What is wrong first with a text that was read as an expression. -/
def fault? : Expression → Option ArithmeticFault
  | number _ | named _ => none
  | unary _ e | assign _ _ e => e.fault?
  | binary _ left right | and left right | or left right => left.fault?.or right.fault?
  | choose condition thenValue elseValue =>
    condition.fault?.or (thenValue.fault?.or elseValue.fault?)
  | malformed f => some f
  | before e f => e.fault?.or (some f)

/-! ### Values -/

/-- The number that says whether something holds. -/
def ofBool (b : Bool) : Int64 :=
  if b then 1 else 0

/-- The value of an operation on one number. -/
def applyUnary : UnaryOperation → Int64 → Int64
  | .negate, n => -n
  | .not, n => ofBool (n = 0)
  | .complement, n => ~~~n

/-- The value of an operation on two numbers. -/
def applyBinary (operation : BinaryOperation) (a b : Int64) : Except ArithmeticFault Int64 :=
  match operation with
  | .multiply => .ok (a * b)
  | .divide => if b = 0 then .error .divisionByZero else .ok (a / b)
  | .remainder => if b = 0 then .error .divisionByZero else .ok (a % b)
  | .add => .ok (a + b)
  | .subtract => .ok (a - b)
  | .shiftLeft => .ok (a <<< b)
  | .shiftRight => .ok (a >>> b)
  | .less => .ok (ofBool (a < b))
  | .lessOrEqual => .ok (ofBool (a ≤ b))
  | .greater => .ok (ofBool (b < a))
  | .greaterOrEqual => .ok (ofBool (b ≤ a))
  | .equal => .ok (ofBool (a = b))
  | .notEqual => .ok (ofBool (a ≠ b))
  | .bitAnd => .ok (a &&& b)
  | .bitXor => .ok (a ^^^ b)
  | .bitOr => .ok (a ||| b)

/-- Why an expression has no value. -/
inductive Failure where
  /-- The expression is at fault. -/
  | fault (f : ArithmeticFault)
  /-- The value of a variable is no number. -/
  | illegalNumber (text : String)
  /-- A variable cannot be given a value. -/
  | readOnly (name : String)
deriving DecidableEq, Repr

/-- What an expression knows of variables. -/
structure Variables (σ : Type) where
  /-- The number that a variable has. -/
  value : σ → String → Except Failure Int64
  /-- Gives a variable a number. -/
  assign : σ → String → Int64 → Except Failure σ

/-- Makes sure that an expression whose value is not needed is one. -/
def check (e : Expression) : Except Failure Unit :=
  match e.fault? with
  | some f => .error (.fault f)
  | none => .ok ()

/-- The value of an expression, and the variables behind it. -/
def eval {σ : Type} (vars : Variables σ) : Expression → σ → Except Failure (Int64 × σ)
  | number n, st => .ok (n, st)
  | named name, st => do return (← vars.value st name, st)
  | unary operation e, st => do
    let (n, st) ← e.eval vars st
    return (applyUnary operation n, st)
  | binary operation left right, st => do
    let (a, st) ← left.eval vars st
    let (b, st) ← right.eval vars st
    return (← (applyBinary operation a b).mapError .fault, st)
  | and left right, st => do
    let (a, st) ← left.eval vars st
    if a = 0 then
      right.check
      return (0, st)
    else
      let (b, st) ← right.eval vars st
      return (ofBool (b ≠ 0), st)
  | or left right, st => do
    let (a, st) ← left.eval vars st
    if a ≠ 0 then
      right.check
      return (1, st)
    else
      let (b, st) ← right.eval vars st
      return (ofBool (b ≠ 0), st)
  | choose condition thenValue elseValue, st => do
    let (c, st) ← condition.eval vars st
    if c ≠ 0 then
      let (n, st) ← thenValue.eval vars st
      elseValue.check
      return (n, st)
    else
      thenValue.check
      elseValue.eval vars st
  | assign name operation e, st => do
    let (n, st) ← e.eval vars st
    let n ←
      match operation with
      | none => pure n
      | some operation => (applyBinary operation (← vars.value st name) n).mapError .fault
    return (n, ← vars.assign st name n)
  | malformed f, _ => .error (.fault f)
  | before e f, st => do
    let _ ← e.eval vars st
    .error (.fault f)

end Expression

end Rebuild.Shell
