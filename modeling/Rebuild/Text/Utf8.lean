/-!
# Reading bytes as UTF-8

Bytes that came from outside need not be text. `decode?` accepts only well-formed UTF-8;
`decodeReplacing` reads anything, and puts one U+FFFD in place of each maximal part that begins a
character but does not end one. Both accept the same sequences, those of the Unicode standard:
no overlong forms, no surrogates, nothing above U+10FFFF.
-/

namespace Rebuild.Text.Utf8

/-- What a leading byte promises: how many bytes follow, and the bounds of the first of them. The
bounds are narrower than those of other continuation bytes where an overlong form, a surrogate or
a value out of range would begin. -/
structure Lead where
  /-- The number of bytes that follow. -/
  following : Nat
  /-- The least first continuation byte. -/
  least : UInt8 := 0x80
  /-- The greatest first continuation byte. -/
  greatest : UInt8 := 0xBF

/-- The promise of a byte, if it can begin a character. -/
def lead? (b : UInt8) : Option Lead :=
  if b < 0x80 then some { following := 0 }
  else if b < 0xC2 then none
  else if b < 0xE0 then some { following := 1 }
  else if b == 0xE0 then some { following := 2, least := 0xA0 }
  else if b == 0xED then some { following := 2, greatest := 0x9F }
  else if b < 0xF0 then some { following := 2 }
  else if b == 0xF0 then some { following := 3, least := 0x90 }
  else if b < 0xF4 then some { following := 3 }
  else if b == 0xF4 then some { following := 3, greatest := 0x8F }
  else none

/-- How many of the next `n` bytes continue a character, the first of them between the bounds. -/
def continuing : Nat → UInt8 → UInt8 → List UInt8 → Nat
  | 0, _, _, _ => 0
  | _, _, _, [] => 0
  | n + 1, least, greatest, b :: bs =>
    if least ≤ b && b ≤ greatest then continuing n 0x80 0xBF bs + 1 else 0

/-- The code point spelled by a leading byte and the bytes that follow it. -/
def codePoint (b : UInt8) (following : List UInt8) : Nat :=
  let head :=
    match following.length with
    | 0 => b.toNat
    | 1 => b.toNat % 0x20
    | 2 => b.toNat % 0x10
    | _ => b.toNat % 0x08
  following.foldl (fun value c ↦ value * 0x40 + c.toNat % 0x40) head

/-- The character that stands for bytes that are not text. -/
def replacement : Char := '\uFFFD'

/-- Reads the bytes as UTF-8, with one `replacement` for each maximal malformed part. -/
def decodeReplacing : List UInt8 → List Char
  | [] => []
  | b :: bs =>
    match lead? b with
    | none => replacement :: decodeReplacing bs
    | some lead =>
      let n := continuing lead.following lead.least lead.greatest bs
      let c := if n = lead.following then Char.ofNat (codePoint b (bs.take n)) else replacement
      c :: decodeReplacing (bs.drop n)
termination_by bytes => bytes.length
decreasing_by all_goals simp only [List.length_cons, List.length_drop]; omega

/-- The text that the bytes spell, if they are well-formed. -/
def decode? (bytes : ByteArray) : Option String :=
  String.fromUTF8? bytes

/-- The bytes of a text. -/
def encode (s : String) : ByteArray :=
  s.toUTF8

end Rebuild.Text.Utf8
