import Rebuild.Shell.Bytes

/-!
# Printed texts

What `echo` and `printf` print. A format is used again for as long as it takes arguments and some
are left; numbers are written as the directives of a format ask for, and what is wrong with the
arguments is reported beside what is printed.
-/

namespace Rebuild.Shell

/-! ### Escapes -/

/-- The character that a letter behind a backslash stands for. -/
def escapeChar? (c : Char) : Option Char :=
  match c with
  | 'a' => some '\x07'
  | 'b' => some '\x08'
  | 'e' => some '\x1b'
  | 't' => some '\t'
  | 'n' => some '\n'
  | 'v' => some '\x0b'
  | 'f' => some '\x0c'
  | 'r' => some '\r'
  | '\\' => some '\\'
  | _ => none

/-- Whether a character is an octal digit. -/
def isOctal (c : Char) : Bool :=
  '0' ≤ c && c ≤ '7'

/-- The character that an escape behind its backslash stands for, and what is behind it. What is
no escape leaves a backslash. -/
def escape (cs : List Char) : Char × List Char :=
  match cs with
  | [] => ('\\', [])
  | c :: rest =>
    if isOctal c then
      let digits := (cs.take 3).takeWhile isOctal
      let value := (digits.filterMap (digitValue? 8)).foldl (fun n digit ↦ 8 * n + digit) 0
      (Char.ofNat (value % 256), cs.drop digits.length)
    else
      match escapeChar? c with
      | some x => (x, rest)
      | none => ('\\', cs)

/-- A text with its escapes replaced, and whether an escape ends all printing. Octal digits can
stand behind a zero. `fuel` is more than the number of characters. -/
def escaped : (fuel : Nat) → List Char → List Char × Bool
  | 0, _ | _, [] => ([], false)
  | fuel + 1, '\\' :: cs =>
    match cs with
    | 'c' :: _ => ([], true)
    | '0' :: d :: rest =>
      let (c, rest) := escape (if isOctal d then d :: rest else '0' :: d :: rest)
      let (more, ended) := escaped fuel rest
      (c :: more, ended)
    | cs =>
      let (c, rest) := escape cs
      let (more, ended) := escaped fuel rest
      (c :: more, ended)
  | fuel + 1, c :: cs =>
    let (more, ended) := escaped fuel cs
    (c :: more, ended)

/-- What `echo` prints. -/
def echo (args : List String) : List Char :=
  let (args, lineEnd) :=
    match args with
    | "-n" :: rest => (rest, false)
    | args => (args, true)
  let cs := (String.intercalate " " args).toList
  let (text, ended) := escaped (cs.length + 1) cs
  if lineEnd && !ended then text ++ ['\n'] else text

/-! ### Directives -/

/-- How a directive asks for an argument to be written. -/
structure Directive where
  /-- The flags. -/
  flags : List Char := []
  /-- The least number of characters. -/
  width : Nat := 0
  /-- The number of digits, or the greatest number of characters. -/
  precision : Option Nat := none

namespace Directive

/-- Whether a flag is given. -/
def has (d : Directive) (flag : Char) : Bool :=
  d.flags.contains flag

/-- A text with blanks up to the width. -/
def pad (d : Directive) (cs : List Char) : List Char :=
  let blanks := List.replicate (d.width - cs.length) ' '
  if d.has '-' then cs ++ blanks else blanks ++ cs

/-- Digits with a sign before them, and with zeros in between where a flag asks for them. -/
def padNumber (d : Directive) (zeros : Bool) (sign digits : List Char) : List Char :=
  let missing := d.width - (sign.length + digits.length)
  if zeros && d.has '0' && !d.has '-' then sign ++ List.replicate missing '0' ++ digits
  else d.pad (sign ++ digits)

/-- A text. -/
def string (d : Directive) (cs : List Char) : List Char :=
  d.pad (d.precision.elim cs cs.take)

/-- The sign before a number. -/
def sign (d : Directive) (negative : Bool) : List Char :=
  if negative then ['-'] else if d.has '+' then ['+'] else if d.has ' ' then [' '] else []

/-- Digits, with zeros before them up to the precision. -/
def digits (d : Directive) (base n : Nat) : List Char :=
  let digits := if n = 0 && d.precision = some 0 then [] else Nat.toDigits base n
  List.replicate ((d.precision.getD 0) - digits.length) '0' ++ digits

/-- A number with a sign. -/
def signed (d : Directive) (n : Int) : List Char :=
  d.padNumber d.precision.isNone (d.sign (n < 0)) (d.digits 10 n.natAbs)

/-- A number without a sign, as a letter asks for it. -/
def unsigned (d : Directive) (letter : Char) (n : Nat) : List Char :=
  let zeros := d.precision.isNone
  match letter with
  | 'o' =>
    let digits := d.digits 8 n
    let before := if d.has '#' && digits.head? ≠ some '0' then ['0'] else []
    d.padNumber zeros [] (before ++ digits)
  | 'x' => d.padNumber zeros (if d.has '#' && n ≠ 0 then ['0', 'x'] else []) (d.digits 16 n)
  | 'X' =>
    d.padNumber zeros (if d.has '#' && n ≠ 0 then ['0', 'X'] else [])
      ((d.digits 16 n).map Char.toUpper)
  | _ => d.padNumber zeros [] (d.digits 10 n)

end Directive

/-! ### Numbers with a fraction -/

/-- A quotient, rounded to the nearest whole number, and a half to the even one. -/
def roundedQuotient (n d : Nat) : Nat :=
  let q := n / d
  let twice := 2 * (n % d)
  if twice < d then q else if d < twice then q + 1 else q + q % 2

/-- A number that is not negative, as a fraction. -/
structure Ratio where
  /-- The numerator. -/
  num : Nat
  /-- The denominator, which is not zero. -/
  den : Nat

namespace Ratio

/-- The number times a power of ten, rounded. -/
def scaled (r : Ratio) (power : Int) : Nat :=
  if 0 ≤ power then roundedQuotient (r.num * Nat.pow 10 power.toNat) r.den
  else roundedQuotient r.num (r.den * Nat.pow 10 (-power).toNat)

/-- The place of the first digit: the number is less than ten to one more than it. It is looked
for upwards from below. -/
def firstPlace (r : Ratio) : Int :=
  let digits (n : Nat) : Int := (Nat.toDigits 10 n).length
  let guess := digits r.num - digits r.den - 1
  let reaches (place : Int) : Bool :=
    if 0 ≤ place then r.den * Nat.pow 10 place.toNat ≤ r.num
    else r.den ≤ r.num * Nat.pow 10 (-place).toNat
  if reaches (guess + 1) then guess + 1 else guess

/-- Digits with a point before the last `places`. -/
def withPoint (n places : Nat) (keepsPoint : Bool) : List Char :=
  let digits := Nat.toDigits 10 n
  let digits := List.replicate (places + 1 - digits.length) '0' ++ digits
  let whole := digits.take (digits.length - places)
  if places = 0 then if keepsPoint then whole ++ ['.'] else whole
  else whole ++ '.' :: digits.drop (digits.length - places)

/-- The number with so many places behind the point. -/
def fixed (r : Ratio) (places : Nat) (keepsPoint : Bool) : List Char :=
  withPoint (r.scaled places) places keepsPoint

/-- The digits of the number with one before the point and `places` behind it, and the power of ten
that belongs to them. -/
def leadingDigits (r : Ratio) (places : Nat) : Nat × Int :=
  if r.num = 0 then (0, 0)
  else
    let place := r.firstPlace
    let n := r.scaled (places - place)
    if n < Nat.pow 10 (places + 1) then (n, place) else (n / 10, place + 1)

/-- The text of a power of ten. -/
def exponentText (letter : Char) (e : Int) : List Char :=
  let digits := Nat.toDigits 10 e.natAbs
  letter :: (if e < 0 then '-' else '+') :: (List.replicate (2 - digits.length) '0' ++ digits)

/-- The number with one digit before the point and a power of ten. -/
def scientific (r : Ratio) (places : Nat) (keepsPoint : Bool) (letter : Char) : List Char :=
  let (n, e) := r.leadingDigits places
  withPoint n places keepsPoint ++ exponentText letter e

/-- Without zeros at the end of what is behind the point, and without the point if nothing is. -/
def dropZeros (cs : List Char) : List Char :=
  if cs.contains '.' then
    let cs := (cs.reverse.dropWhile (· = '0')).reverse
    if cs.getLast? = some '.' then cs.dropLast else cs
  else cs

/-- The number in the shorter of both forms, with so many digits. -/
def general (r : Ratio) (digits : Nat) (keepsZeros : Bool) (letter : Char) : List Char :=
  let digits := max digits 1
  let (n, e) := r.leadingDigits (digits - 1)
  let clean := if keepsZeros then id else dropZeros
  if -4 ≤ e && e < digits then clean (r.fixed (digits - 1 - e).toNat keepsZeros)
  else clean (withPoint n (digits - 1) keepsZeros) ++ exponentText letter e

end Ratio

/-- A number of 64 bits with a fraction. -/
inductive Magnitude where
  | finite (r : Ratio)
  | infinite
  | notANumber

/-- The number that bits denote, without its sign. -/
def Magnitude.ofBits (bits : UInt64) : Magnitude :=
  let n := bits.toNat % 0x8000000000000000
  let exponent := n / 0x10000000000000
  let fraction := n % 0x10000000000000
  if exponent = 0x7FF then if fraction = 0 then infinite else notANumber
  else
    let m := if exponent = 0 then fraction else fraction + 0x10000000000000
    let e : Int := max exponent 1 - 1075
    if 0 ≤ e then finite ⟨m * Nat.pow 2 e.toNat, 1⟩ else finite ⟨m, Nat.pow 2 (-e).toNat⟩

/-- The nearest number of 64 bits to a decimal one. -/
def Magnitude.ofDecimal (digits : List Char) (power : Int) : Magnitude :=
  let significant := digits.dropWhile (· = '0')
  let n := (significant.filterMap (digitValue? 10)).foldl (fun n digit ↦ 10 * n + digit) 0
  let size : Int := significant.length + power
  if n = 0 || size < -400 then finite ⟨0, 1⟩
  else if 400 < size then infinite
  else ofBits (Float.ofScientific n (power < 0) power.natAbs).toBits

/-- The least number that is written with all its digits. -/
def Magnitude.least : Nat := Nat.pow 2 1022

/-- Whether a number that is not zero is too great, or too close to zero. -/
def Magnitude.isOutOfRange : Magnitude → Bool
  | .finite r => r.num * least < r.den
  | _ => true

/-- A number with a fraction at the beginning of a text. -/
structure LeadingNumber where
  /-- Whether it is negative. -/
  negative : Bool
  /-- The number without its sign. -/
  magnitude : Magnitude
  /-- Whether its digits denote a number that is out of range. -/
  isOutOfRange : Bool := false
  /-- What is behind it. -/
  rest : List Char

/-- The number that a text begins with. -/
def leadingNumber? (cs : List Char) : Option LeadingNumber :=
  let cs := cs.dropWhile isNumberBlank
  let (negative, cs) :=
    match cs with
    | '-' :: cs => (true, cs)
    | '+' :: cs => (false, cs)
    | cs => (false, cs)
  let word := (cs.takeWhile Char.isAlpha).map Char.toLower
  if "infinity".toList.isPrefixOf word then
    some { negative, magnitude := .infinite, rest := cs.drop 8 }
  else if "inf".toList.isPrefixOf word then
    some { negative, magnitude := .infinite, rest := cs.drop 3 }
  else if "nan".toList.isPrefixOf word then
    some { negative, magnitude := .notANumber, rest := cs.drop 3 }
  else
    let whole := cs.takeWhile Char.isDigit
    let rest := cs.drop whole.length
    let (fraction, rest) :=
      match rest with
      | '.' :: behind =>
        let fraction := behind.takeWhile Char.isDigit
        if whole.isEmpty && fraction.isEmpty then ([], rest)
        else (fraction, behind.drop fraction.length)
      | rest => ([], rest)
    if whole.isEmpty && fraction.isEmpty then none
    else
      let (power, rest) : Int × List Char :=
        match rest with
        | e :: behind =>
          if e = 'e' ∨ e = 'E' then
            match behind with
            | '-' :: more => (digits? 10 more).elim (0, rest) fun (n, left) ↦ (-(n : Int), left)
            | '+' :: more => (digits? 10 more).elim (0, rest) fun (n, left) ↦ ((n : Int), left)
            | more => (digits? 10 more).elim (0, rest) fun (n, left) ↦ ((n : Int), left)
          else (0, rest)
        | [] => (0, [])
      let digits := whole ++ fraction
      let magnitude := Magnitude.ofDecimal digits (power - fraction.length)
      let isOutOfRange := digits.any (· ≠ '0') && magnitude.isOutOfRange
      some { negative, magnitude, isOutOfRange, rest }

/-- A number with a fraction, as a letter asks for it. -/
def Directive.float (d : Directive) (letter : Char) (negative : Bool) (m : Magnitude) :
    List Char :=
  let sign := d.sign negative
  let places := d.precision.getD 6
  match m with
  | .infinite => d.padNumber false sign (if letter.isUpper then "INF" else "inf").toList
  | .notANumber => d.padNumber false sign (if letter.isUpper then "NAN" else "nan").toList
  | .finite r =>
    d.padNumber true sign <|
      match letter with
      | 'e' | 'E' => r.scientific places (d.has '#') letter
      | 'g' => r.general places (d.has '#') 'e'
      | 'G' => r.general places (d.has '#') 'E'
      | _ => r.fixed places (d.has '#')

/-! ### Formats -/

/-- What a format has printed, and what it has still to print. -/
structure Formatting where
  /-- The arguments that are left. -/
  args : List String
  /-- What is printed, the last first. -/
  printed : List (List Char) := []
  /-- What is wrong with arguments, the last first. -/
  complaints : List String := []
  /-- What is wrong with the format. -/
  fault? : Option String := none
  /-- Whether an escape has ended all printing. -/
  ended : Bool := false

namespace Formatting

/-- Prints. -/
def print (f : Formatting) (cs : List Char) : Formatting :=
  { f with printed := cs :: f.printed }

/-- Takes an argument. -/
def take (f : Formatting) : Option String × Formatting :=
  match f.args with
  | [] => (none, f)
  | arg :: args => (some arg, { f with args })

/-- Takes down what is wrong with an argument of which `rest` is not a number. -/
def check (f : Formatting) (arg : String) (rest : List Char) : Formatting :=
  if rest.isEmpty then f
  else
    let text :=
      if rest = arg.toList then ": expected numeric value" else ": not completely converted"
    { f with complaints := (arg ++ text) :: f.complaints }

/-- Takes down that an argument is a number out of range. -/
def outOfRange (f : Formatting) (arg : String) : Formatting :=
  { f with complaints := (arg ++ ": Numerical result out of range") :: f.complaints }

/-- Takes an argument as a whole number between bounds; a quoted character counts as its number. -/
def takeInteger (f : Formatting) (least greatest : Int) : Int × Formatting :=
  match f.take with
  | (none, f) => (0, f)
  | (some arg, f) =>
    match arg.toList with
    | '"' :: rest | '\'' :: rest => ((rest.head?.map fun c ↦ (c.toNat : Int)).getD 0, f)
    | cs =>
      match leadingInteger? cs with
      | some (n, rest) =>
        let f := f.check arg rest
        if n < least ∨ greatest < n then
          (max least (min n greatest), if rest.isEmpty then f.outOfRange arg else f)
        else (n, f)
      | none => (0, f.check arg cs)

/-- The bound of whole numbers with a sign. -/
def signedBound : Int := 0x8000000000000000

/-- The bound of whole numbers without a sign. -/
def unsignedBound : Int := 0x10000000000000000

/-- Takes an argument as a number with a fraction. -/
def takeFloat (f : Formatting) : Bool × Magnitude × Formatting :=
  match f.take with
  | (none, f) => (false, .finite ⟨0, 1⟩, f)
  | (some arg, f) =>
    match arg.toList with
    | '"' :: rest | '\'' :: rest =>
      (false, .finite ⟨(rest.head?.map Char.toNat).getD 0, 1⟩, f)
    | cs =>
      match leadingNumber? cs with
      | some n =>
        let f := f.check arg n.rest
        (n.negative, n.magnitude, if n.isOutOfRange && n.rest.isEmpty then f.outOfRange arg else f)
      | none => (false, .finite ⟨0, 1⟩, f.check arg cs)

/-- Reads a number in a directive, or takes it from the arguments. -/
def number (f : Formatting) (cs : List Char) : Int × List Char × Formatting :=
  match cs with
  | '*' :: cs =>
    let (n, f) := f.takeInteger (-signedBound) (signedBound - 1)
    (n, cs, f)
  | cs =>
    match digits? 10 cs with
    | some (n, rest) => (n, rest, f)
    | none => (0, cs, f)

/-- Prints what a directive asks for; `text` is the directive for messages. -/
def direct (f : Formatting) (d : Directive) (letter : Char) (text : List Char) : Formatting :=
  match letter with
  | 's' =>
    let (arg, f) := f.take
    f.print (d.string (arg.getD "").toList)
  | 'b' =>
    let (arg, f) := f.take
    let cs := (arg.getD "").toList
    let (cs, ended) := escaped (cs.length + 1) cs
    { f.print (d.string cs) with ended }
  | 'c' =>
    let (arg, f) := f.take
    f.print (d.pad [(arg.bind fun s ↦ s.toList.head?).getD '\x00'])
  | 'd' | 'i' =>
    let (n, f) := f.takeInteger (-signedBound) (signedBound - 1)
    f.print (d.signed n)
  | 'o' | 'u' | 'x' | 'X' =>
    let (n, f) := f.takeInteger (1 - unsignedBound) (unsignedBound - 1)
    f.print (d.unsigned letter (n % unsignedBound).toNat)
  | 'e' | 'E' | 'f' | 'F' | 'g' | 'G' =>
    let (negative, m, f) := f.takeFloat
    f.print (d.float letter negative m)
  | _ => { f with fault? := some (String.ofList text ++ ": invalid directive") }

/-- One pass over a format; `fuel` is more than the number of its characters. -/
def pass : (fuel : Nat) → List Char → Formatting → Formatting
  | 0, _, f | _, [], f => f
  | fuel + 1, '\\' :: cs, f =>
    let (c, rest) := escape cs
    pass fuel rest (f.print [c])
  | fuel + 1, '%' :: '%' :: cs, f => pass fuel cs (f.print ['%'])
  | fuel + 1, '%' :: cs, f =>
    let flags := cs.takeWhile ['#', '-', '+', ' ', '0'].contains
    let (width, behindWidth, f) := f.number (cs.drop flags.length)
    let flags := if width < 0 then '-' :: flags else flags
    let (precision, behind, f) : Option Nat × List Char × Formatting :=
      match behindWidth with
      | '.' :: more =>
        let (n, behind, f) := f.number more
        (if n < 0 then none else some n.toNat, behind, f)
      | behind => (none, behind, f)
    match behind with
    | [] => { f with fault? := some "missing format character" }
    | letter :: rest =>
      let text := '%' :: cs.take (cs.length - rest.length)
      let f := f.direct { flags, width := width.natAbs, precision } letter text
      if f.ended || f.fault?.isSome then f else pass fuel rest f
  | fuel + 1, c :: cs, f => pass fuel cs (f.print [c])

/-- Uses a format for all arguments, in at most `n` more passes. -/
def passes (text : List Char) : (n : Nat) → Formatting → Formatting
  | 0, f => f
  | n + 1, f =>
    let next := pass (text.length + 1) text f
    let isLast :=
      next.args.isEmpty || next.args.length = f.args.length || next.ended || next.fault?.isSome
    if isLast then next
    else passes text n next

/-- What a format prints of arguments. -/
def ofFormat (text : List Char) (args : List String) : Formatting :=
  passes text (args.length + 1) { args }

/-- All that is printed. -/
def text (f : Formatting) : List Char :=
  f.printed.reverse.flatten

end Formatting

end Rebuild.Shell
