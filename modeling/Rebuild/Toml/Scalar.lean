import Rebuild.Text.Basic

/-!
# Scalars of TOML

Values that are written without quotes: truth values, numbers, dates and times. `isScalar` says
which texts are such values; what they denote is of no interest here.
-/

namespace Rebuild.Toml

/-! ### Numbers -/

/-- Digits with single underscores between them. -/
def isDigits (digit : Char → Bool) (cs : List Char) : Bool :=
  (Text.split (· == '_') cs).all fun part ↦ !part.isEmpty && part.all digit

/-- Digits of base ten without a zero before others. -/
def isDecimal (cs : List Char) : Bool :=
  isDigits Char.isDigit cs && (cs.head? ≠ some '0' || cs.length = 1)

/-- The text without a sign before it. -/
def dropSign : List Char → List Char
  | '+' :: cs => cs
  | '-' :: cs => cs
  | cs => cs

/-- The value of digits, between which underscores can stand. -/
def digitsValue (base : Nat) (cs : List Char) : Nat :=
  (cs.filterMap digitValue?).foldl (fun value digit ↦ base * value + digit) 0
where
  /-- The value of a digit; letters go on where the digits end. -/
  digitValue? (c : Char) : Option Nat :=
    if c.isDigit then some (c.toNat - '0'.toNat)
    else if c.isAlpha then some (c.toLower.toNat - 'a'.toNat + 10)
    else none

/-- Whole numbers are less than this. -/
def integerBound : Nat := 0x100000000000000000000000000000000

/-- A whole number of up to 128 bits, with a sign or without. -/
def isInteger (cs : List Char) : Bool :=
  let inBase (base : Nat) (digit : Char → Bool) (cs : List Char) : Bool :=
    isDigits digit cs && digitsValue base cs < integerBound
  match cs with
  | '0' :: 'x' :: cs => inBase 16 (fun c ↦ c.isDigit || ('a' ≤ c.toLower && c.toLower ≤ 'f')) cs
  | '0' :: 'o' :: cs => inBase 8 (fun c ↦ '0' ≤ c && c ≤ '7') cs
  | '0' :: 'b' :: cs => inBase 2 (fun c ↦ c == '0' || c == '1') cs
  | '-' :: cs => isDecimal cs && digitsValue 10 cs ≤ integerBound / 2
  | cs => isDecimal (dropSign cs) && digitsValue 10 (dropSign cs) < integerBound

/-- Numbers with a fraction are less than this: half a unit above the largest of 64 bits. -/
def floatBound : Nat := Nat.pow 2 1024 - Nat.pow 2 970

/-- Whether `digits`, as a whole number, times a power of ten is a number of 64 bits. -/
def isFinite (digits : List Char) (power : Int) : Bool :=
  let size := ((digits.filter Char.isDigit).dropWhile (· = '0')).length
  if size = 0 then true
  else if 310 < size + power then false
  else if size + power < 300 then true
  else
    let value := digitsValue 10 digits
    if 0 ≤ power then value * Nat.pow 10 power.toNat < floatBound
    else value < floatBound * Nat.pow 10 (-power).toNat

/-- A number with a fraction or an exponent, or one that is not finite. -/
def isFloat (cs : List Char) : Bool :=
  let magnitude := dropSign cs
  if magnitude = "inf".toList ∨ magnitude = "nan".toList then true
  else
    let mantissa := magnitude.takeWhile fun c ↦ c ≠ 'e' && c ≠ 'E'
    let exponent := magnitude.drop mantissa.length
    let whole := mantissa.takeWhile (· ≠ '.')
    let fraction := mantissa.drop whole.length
    let shift : Int := digitsValue 10 exponent.tail
    let power := if exponent.tail.head? = some '-' then -shift else shift
    isDecimal whole && (!fraction.isEmpty || !exponent.isEmpty) &&
      (fraction.isEmpty || isDigits Char.isDigit fraction.tail) &&
      (exponent.isEmpty || isDigits Char.isDigit (dropSign exponent.tail)) &&
      isFinite (whole ++ fraction) (power - (fraction.filter Char.isDigit).length)

/-! ### Dates and times -/

/-- The number that exactly `n` digits denote. -/
def number? (n : Nat) (cs : List Char) : Option Nat :=
  if cs.length = n ∧ cs.all Char.isDigit then
    some (cs.foldl (fun value c ↦ 10 * value + (c.toNat - '0'.toNat)) 0)
  else none

/-- The number of days of a month. -/
def daysIn (year month : Nat) : Nat :=
  if month = 2 then
    if year % 4 = 0 && (year % 100 ≠ 0 || year % 400 = 0) then 29 else 28
  else if [4, 6, 9, 11].contains month then 30
  else 31

/-- A day. -/
def isDate (cs : List Char) : Bool :=
  match Text.split (· == '-') cs with
  | [year, month, day] =>
    match number? 4 year, number? 2 month, number? 2 day with
    | some year, some month, some day =>
      1 ≤ month && month ≤ 12 && 1 ≤ day && day ≤ daysIn year month
    | _, _, _ => false
  | _ => false

/-- Seconds, whole or with a fraction. -/
def isSeconds (cs : List Char) : Bool :=
  let whole := cs.takeWhile (· ≠ '.')
  let fraction := cs.drop whole.length
  (number? 2 whole).any (· ≤ 60) &&
    (fraction.isEmpty || (!fraction.tail.isEmpty && fraction.tail.all Char.isDigit))

/-- A time of day; the seconds may be left out. -/
def isTime (cs : List Char) : Bool :=
  let hourAndMinute (hour minute : List Char) : Bool :=
    (number? 2 hour).any (· ≤ 23) && (number? 2 minute).any (· ≤ 59)
  match Text.split (· == ':') cs with
  | [hour, minute] => hourAndMinute hour minute
  | [hour, minute, seconds] => hourAndMinute hour minute && isSeconds seconds
  | _ => false

/-- The distance from universal time. -/
def isOffset (cs : List Char) : Bool :=
  match cs with
  | [] | ['Z'] | ['z'] => true
  | '+' :: cs | '-' :: cs =>
    match Text.split (· == ':') cs with
    | [hour, minute] => (number? 2 hour).any (· ≤ 23) && (number? 2 minute).any (· ≤ 59)
    | _ => false
  | _ => false

/-- A day, a time of day, or both, with a distance from universal time or without. -/
def isMoment (cs : List Char) : Bool :=
  let behindDate := cs.drop 10
  match behindDate with
  | [] => isDate cs || isTime cs
  | c :: clock =>
    if isTime cs then true
    else
      let time := clock.takeWhile fun c ↦ c.isDigit || c == ':' || c == '.'
      (c == 'T' || c == 't' || c == ' ') && isDate (cs.take 10) && isTime time &&
        isOffset (clock.drop time.length)

/-- A truth value, a number, a date or a time. -/
def isScalar (cs : List Char) : Bool :=
  cs = "true".toList || cs = "false".toList || isInteger cs || isFloat cs || isMoment cs

end Rebuild.Toml
