import Rebuild.Text.Ansi
import Rebuild.Text.WidthTable

/-!
# Display width

How many columns a text takes on a terminal. Most characters take one column, those of
`WidthTable.wide` and `WidthTable.emoji` two and those of `WidthTable.zero` none; control codes
take none. What is written as one takes the columns of one: an emoji that is put together from
several characters, or a ligature of a script that demands it.

Since a character is written together with what follows it, a text is measured from its end: a
`Context` says what follows a place, as far as it matters, and `Context.step` what the character
before it adds.
-/

namespace Rebuild.Text

/-! ### Characters -/

/-- The control characters of ASCII and of Latin-1. -/
def isControl (c : Char) : Bool :=
  c.toNat < 0x20 || (0x7F ≤ c.toNat && c.toNat < 0xA0)

/-- The five skin tones. -/
def isSkinTone (c : Char) : Bool :=
  0x1F3FB ≤ c.toNat && c.toNat ≤ 0x1F3FF

/-- The letters of which two make a flag. -/
def isIndicator (c : Char) : Bool :=
  0x1F1E6 ≤ c.toNat && c.toNat ≤ 0x1F1FF

/-- The sign that stands for a whole word of three letters. -/
def khmerBeyyal : Char := '\u17D8'

/-- The columns that a character takes alone. -/
def charWidth (c : Char) : Nat :=
  if isControl c || WidthTable.covers WidthTable.zero c then 0
  else if c = khmerBeyyal then 3
  else if WidthTable.covers WidthTable.wide c || WidthTable.covers WidthTable.emoji c ||
    isSkinTone c then 2
  else 1

/-- The selector after which a character is shown as an emoji. -/
def emojiSelector : Char := '\uFE0F'

/-- The selector after which a character is shown as text. -/
def textSelector : Char := '\uFE0E'

/-- The selector after which a quotation mark is shown wide. -/
def wideSelector : Char := '\uFE01'

/-- The joiner that makes one of two. -/
def joiner : Char := '\u200D'

/-- The mark that makes a key of the character before it. -/
def keycap : Char := '\u20E3'

/-- Whether a character is narrow before a selector for text. Wide signs in boxes stay wide. -/
def hasTextStyle (c : Char) : Bool :=
  WidthTable.covers WidthTable.changeable c && WidthTable.covers WidthTable.emoji c &&
    !(0x1F200 ≤ c.toNat && c.toNat ≤ 0x1F2FF)

/-- The quotation marks that can be shown wide. -/
def isQuote (c : Char) : Bool :=
  c == '\u2018' || c == '\u2019' || c == '\u201C' || c == '\u201D'

/-! ### Contexts -/

/-- The end of a ligature; where it can be, it is known whether a joiner stands before it. -/
inductive Ligature where
  /-- An Arabic alef, before which a lam can stand. -/
  | alef
  /-- A Hebrew lamed, which can be joined to an alef. -/
  | lamed (joined : Bool)
  /-- A Buginese ya, which can be joined to a vowel sign. -/
  | ya (joined : Bool)
  /-- A Buginese ya that is joined to a vowel sign. -/
  | vowelYa
  /-- A consonant of Tifinagh, which can be joined to another one. -/
  | consonant (joined : Bool)
  /-- A consonant of Tifinagh with the sign before it that joins consonants. -/
  | signedConsonant
  /-- A second tone letter of Lisu. -/
  | tone
  /-- An i of Old Turkic, which can be joined to a consonant. -/
  | orkhonI (joined : Bool)
  /-- A Khmer letter that can be written below another one. -/
  | subscript
deriving DecidableEq, Repr

/-- What stands directly behind a place. -/
inductive Follower where
  /-- Nothing that matters. -/
  | nothing
  /-- A line feed. -/
  | lineFeed
  /-- A skin tone. -/
  | skinTone
  /-- A letter of a flag. -/
  | indicator
  /-- Several letters of flags. -/
  | indicators
  /-- An emoji. -/
  | emoji
  /-- A joiner and an emoji; perhaps a keycap mark before them. -/
  | joined (keycap : Bool)
  /-- A letter of a flag that is joined to an emoji. -/
  | joinedIndicator
  /-- Several letters of flags, an even number or not, that are joined to an emoji. -/
  | joinedIndicators (even : Bool)
  /-- The end of tags that are joined to an emoji, and the number of digits or of letters before
  that have been seen. -/
  | tags (digits letters : Nat)
  /-- A vowel sign e of Kirat Rai. -/
  | vowelE
  /-- A vowel sign ai of Kirat Rai. -/
  | vowelAi
  /-- The end of a ligature. -/
  | ligature (l : Ligature)
deriving DecidableEq, Repr

namespace Follower

/-- What a character is to those before it. -/
def ofChar (c : Char) : Follower :=
  if c = '\u05DC' then .ligature (.lamed false)
  else if WidthTable.covers WidthTable.alef c then .ligature .alef
  else if WidthTable.covers WidthTable.subscriptLetter c then .ligature .subscript
  else if c = '\u1A10' then .ligature (.ya false)
  else if WidthTable.covers WidthTable.tifinagh c then .ligature (.consonant false)
  else if c = '\uA4FC' ∨ c = '\uA4FD' then .ligature .tone
  else if c.toNat = 0x10C03 then .ligature (.orkhonI false)
  else if c.toNat = 0x16D67 then .vowelE
  else if c.toNat = 0x16D68 then .vowelAi
  else if isIndicator c then .indicator
  else if isSkinTone c then .skinTone
  else if WidthTable.covers WidthTable.emoji c then .emoji
  else .nothing

end Follower

namespace Ligature

/-- The ligature with a joiner before it. -/
def join : Ligature → Ligature
  | lamed _ => lamed true
  | ya _ => ya true
  | consonant _ => consonant true
  | orkhonI _ => orkhonI true
  | l => l

/-- Whether a character does not come between the end of a ligature and what stands before. -/
def isIgnored (l : Ligature) (c : Char) : Bool :=
  match l with
  | alef =>
    WidthTable.covers WidthTable.zero c && !WidthTable.covers WidthTable.separating c
  | _ => WidthTable.covers WidthTable.ignorableMark c

/-- What a character adds to the ligature that it belongs to, and what the ligature then is to the
characters before it. -/
def before? (l : Ligature) (c : Char) : Option (Int × Follower) :=
  match l with
  | alef => if WidthTable.covers WidthTable.lam c then some (0, .nothing) else none
  | lamed true => if c = '\u05D0' then some (0, .nothing) else none
  | ya true => if c = '\u1A17' then some (0, .ligature vowelYa) else none
  | vowelYa => if c = '\u1A15' then some (0, .nothing) else none
  | consonant joined =>
    if c = '\u2D7F' then some (1, .ligature signedConsonant)
    else if joined && WidthTable.covers WidthTable.tifinagh c then some (0, .nothing)
    else none
  | signedConsonant =>
    if WidthTable.covers WidthTable.tifinagh c then some (-1, .nothing) else none
  | tone => if 0xA4F8 ≤ c.toNat ∧ c.toNat ≤ 0xA4FB then some (0, .nothing) else none
  | orkhonI true => if c.toNat = 0x10C32 then some (0, .nothing) else none
  | subscript => if c = '\u17D2' then some (-1, .nothing) else none
  | lamed false | ya false | orkhonI false => none

end Ligature

namespace Follower

/-- The columns that a character adds by itself, and what it is to the characters before it. -/
def alone (c : Char) : Int × Follower :=
  (charWidth c, ofChar c)

/-- Letters of tags. -/
def isTagLetter (c : Char) : Bool :=
  0xE0061 ≤ c.toNat && c.toNat ≤ 0xE007A

/-- Digits of tags. -/
def isTagDigit (c : Char) : Bool :=
  0xE0030 ≤ c.toNat && c.toNat ≤ 0xE0039

/-- The character that ends tags. -/
def isTagEnd (c : Char) : Bool :=
  c.toNat = 0xE007F

/-- The flag that tags can follow. -/
def isTagBase (c : Char) : Bool :=
  c.toNat = 0x1F3F4

/-- What a character adds before tags. There are up to six letters, or up to four and before them
three digits; a flag is one with them if they are at least three letters, or the three digits. -/
def beforeTags (digits letters : Nat) (c : Char) : Int × Follower :=
  if isTagLetter c && digits = 0 && letters < 6 then (0, .tags 0 (letters + 1))
  else if isTagDigit c && (if digits = 0 then letters ≤ 4 else digits < 3) then
    (0, .tags (digits + 1) 0)
  else if isTagBase c && (digits = 3 || 3 ≤ letters) then (0, .emoji)
  else alone c

/-- The columns that a character adds, and what it is to the characters before it. -/
def step (follower : Follower) (c : Char) : Int × Follower :=
  match follower with
  | nothing | lineFeed => alone c
  | skinTone =>
    if WidthTable.covers WidthTable.modifierBase c then (0, emoji)
    else if c = joiner then (0, joined false)
    else alone c
  | indicator => if isIndicator c then (1, indicators) else alone c
  | indicators =>
    if isIndicator c then (1, indicators)
    else if c = joiner then (0, joined false)
    else alone c
  | emoji => if c = joiner then (0, joined false) else alone c
  | joined false =>
    if c = keycap then (0, joined true)
    else if isIndicator c then (1, joinedIndicator)
    else if isSkinTone c then (0, skinTone)
    else if isTagEnd c then (0, tags 0 0)
    else if WidthTable.covers WidthTable.emoji c then (0, emoji)
    else alone c
  | joined true => alone c
  | joinedIndicator => if isIndicator c then (-1, joinedIndicators true) else alone c
  | joinedIndicators even =>
    if isIndicator c then (if even then 3 else -1, joinedIndicators !even)
    else if c = joiner then (0, joined false)
    else alone c
  | tags digits letters => beforeTags digits letters c
  | vowelE =>
    if c.toNat = 0x16D63 ∨ c.toNat = 0x16D69 then (0, nothing)
    else if c.toNat = 0x16D67 then (0, vowelAi)
    else if c.toNat = 0x16D68 then (1, vowelE)
    else alone c
  | vowelAi => if c.toNat = 0x16D63 then (0, nothing) else alone c
  | ligature l =>
    if c = joiner ∧ l ≠ .alef then (0, ligature l.join)
    else if l.isIgnored c then (0, ligature l)
    else (l.before? c).getD (alone c)

/-- Whether a selector can stand between the follower and what it is written together with. -/
def passesSelectors : Follower → Bool
  | ligature _ => true
  | _ => false

/-- Whether the follower is joined to an emoji. -/
def isJoined : Follower → Bool
  | joined _ => true
  | _ => false

end Follower

/-- What stands behind a place: the selectors that stand there, and what follows them. -/
structure Context where
  /-- What follows. -/
  follower : Follower := .nothing
  /-- Whether a selector for emoji stands before it. -/
  emojiStyle : Bool := false
  /-- Whether a selector for text stands before it. -/
  textStyle : Bool := false
  /-- Whether a selector for wide quotation marks stands before it. -/
  wideStyle : Bool := false
deriving DecidableEq, Repr

namespace Context

/-- The context in which a selector stands before another context. Only ligatures are not broken
by it. -/
def select (context : Context) : Context :=
  if context.follower.passesSelectors then context else {}

/-- What a character adds that no selector for emoji follows. -/
def stepPlain (context : Context) (c : Char) : Int × Context :=
  if c.toNat ≤ 0xA0 then
    if c = '\n' then (1, { follower := .lineFeed })
    else if c = '\r' ∧ context = { follower := .lineFeed } then (0, {})
    else (1, {})
  else if c = emojiSelector then
    (0, { (if context.follower.isJoined then context else context.select) with emojiStyle := true })
  else if c = textSelector then (0, { context.select with textStyle := true })
  else if context.textStyle && hasTextStyle c then (1, {})
  else if c = wideSelector then
    (0, { context.select with textStyle := false, wideStyle := true })
  else if context.wideStyle && isQuote c then (2, {})
  else
    let (columns, follower) := context.follower.step c
    (columns, { follower })

/-- The columns that a character adds before a context, and the context before the character. -/
def step (context : Context) (c : Char) : Int × Context :=
  if context.emojiStyle then
    if WidthTable.covers WidthTable.changeable c then
      (if context.follower.isJoined then 0 else 2, { follower := .emoji })
    else stepPlain { context.select with emojiStyle := false } c
  else stepPlain context c

end Context

/-! ### Texts -/

/-- The columns that a text without control codes takes, and the context before it. -/
def measure : List Char → Int × Context
  | [] => (0, {})
  | c :: cs =>
    let (columns, context) := measure cs
    let (more, before) := context.step c
    (columns + more, before)

/-- The columns that a text without control codes takes. -/
def plainWidth (cs : List Char) : Nat :=
  (measure cs).1.toNat

/-- The columns that a text takes. -/
def displayWidth (cs : List Char) : Nat :=
  (Ansi.segments cs).foldr (fun segment n ↦ columns segment + n) 0
where
  /-- The columns of one segment. -/
  columns : Ansi.Segment → Nat
    | .plain cs => plainWidth cs
    | .code _ => 0

/-! ### Cutting -/

/-- The longest beginning that fits when each character takes its own columns; characters without
width after the last column that fits exactly are left out. -/
def fitting : Nat → List Char → List Char
  | _, [] => []
  | room, c :: cs =>
    if charWidth c = room then [c]
    else if charWidth c > room then []
    else c :: fitting (room - charWidth c) cs

/-- The text cut to `room` columns, of which `tail` marks the cut and takes some. A text that fits
stays as it is. The codes after the cut are kept, so that what was switched on is switched off. -/
def truncate (cs : List Char) (room : Nat) (tail : List Char) : List Char :=
  if displayWidth cs ≤ room then cs
  else cut (room - plainWidth tail) (Ansi.segments cs)
where
  /-- Cuts at the first segment that does not fit. -/
  cut (room : Nat) : List Ansi.Segment → List Char
    | [] => []
    | .code code :: rest => code ++ cut room rest
    | .plain cs :: rest =>
      if plainWidth cs > room then fitting room cs ++ tail ++ codes rest
      else cs ++ cut (room - plainWidth cs) rest
  /-- The codes alone. -/
  codes : List Ansi.Segment → List Char
    | [] => []
    | .code code :: rest => code ++ codes rest
    | .plain _ :: rest => codes rest

end Rebuild.Text
