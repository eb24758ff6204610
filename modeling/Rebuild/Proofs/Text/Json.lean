import Mathlib.Data.List.Basic
import Rebuild.Text.Json

/-!
# Reading JSON text back

A reader for lists of objects whose values are texts. It knows nothing of how such a text is laid out: it
takes a text apart into *marks*, skipping white space between them, and then goes by the marks. A list of
objects is read back as it was written (`read?_list`), so that two lists are never written alike.

That a text makes some marks, whatever comes behind it, is all that has to be known about each of its parts
(`Makes`).
-/

namespace Rebuild.Text.Json

/-! ### Marks -/

/-- What a JSON text consists of, white space aside. -/
inductive Mark where
  /-- A list begins. -/
  | openList
  /-- A list ends. -/
  | closeList
  /-- An object begins. -/
  | openObject
  /-- An object ends. -/
  | closeObject
  /-- The name of a member ends. -/
  | colon
  /-- Another member or object follows. -/
  | comma
  /-- A text, as it was before it was escaped. -/
  | text (cs : List Char)
deriving DecidableEq, Repr

/-- The characters that may stand between marks. -/
def isSpace (c : Char) : Bool :=
  c = ' ' || c = '\t' || c = '\n' || c = '\r'

/-- The mark that is one character. -/
def mark? : Char → Option Mark
  | '[' => some .openList
  | ']' => some .closeList
  | '\x7b' => some .openObject
  | '\x7d' => some .closeObject
  | ':' => some .colon
  | ',' => some .comma
  | _ => none

/-- What a character behind a backslash stands for. -/
def unescape? : Char → Option Char
  | '"' => some '"'
  | '\\' => some '\\'
  | '/' => some '/'
  | 'b' => some '\x08'
  | 'f' => some '\x0c'
  | 'n' => some '\n'
  | 'r' => some '\r'
  | 't' => some '\t'
  | _ => none

/-- The value of a digit of a number in base sixteen. -/
def hexValue? (c : Char) : Option Nat :=
  if '0' ≤ c ∧ c ≤ '9' then some (c.toNat - '0'.toNat)
  else if 'a' ≤ c ∧ c ≤ 'f' then some (c.toNat - 'a'.toNat + 10)
  else if 'A' ≤ c ∧ c ≤ 'F' then some (c.toNat - 'A'.toNat + 10)
  else none

/-- The character with the code that digits give. Halves of a code are not read. -/
def coded? (digits : List Char) : Option Char := do
  let values ← digits.mapM hexValue?
  let code := values.foldl (fun value digit ↦ 16 * value + digit) 0
  if code.isValidChar then some (Char.ofNat code) else none

mutual

/-- The marks of a text. -/
def marks? : List Char → Option (List Mark)
  | [] => some []
  | c :: cs =>
    if c = '"' then textFrom? [] cs
    else if isSpace c then marks? cs
    else do
      let mark ← mark? c
      let later ← marks? cs
      return mark :: later

/-- The marks of a text that begins inside quotes, of which some has been read. -/
def textFrom? (read : List Char) : List Char → Option (List Mark)
  | [] => none
  | '"' :: cs => do
    let later ← marks? cs
    return .text read :: later
  | '\\' :: 'u' :: a :: b :: c :: d :: cs => do
    let coded ← coded? [a, b, c, d]
    textFrom? (read ++ [coded]) cs
  | '\\' :: c :: cs => do
    let escaped ← unescape? c
    textFrom? (read ++ [escaped]) cs
  | c :: cs => if c = '\\' ∨ c.toNat < 0x20 then none else textFrom? (read ++ [c]) cs

end

/-! ### Objects -/

mutual

/-- The objects of a list that begins inside an object, of which some members have been read. -/
def objectsFrom? (read : List (String × String)) : List Mark → Option (List (List (String × String)))
  | .text name :: .colon :: .text value :: .comma :: marks =>
    objectsFrom? (read ++ [(String.ofList name, String.ofList value)]) marks
  | .text name :: .colon :: .text value :: .closeObject :: marks => do
    let later ← objectsBehind? marks
    return (read ++ [(String.ofList name, String.ofList value)]) :: later
  | _ => none

/-- The objects behind one that has ended. -/
def objectsBehind? : List Mark → Option (List (List (String × String)))
  | [.closeList] => some []
  | .comma :: .openObject :: marks => objectsFrom? [] marks
  | _ => none

end

/-- The objects of a list. -/
def objects? : List Mark → Option (List (List (String × String)))
  | [.openList, .closeList] => some []
  | .openList :: .openObject :: marks => objectsFrom? [] marks
  | _ => none

/-- The list of objects that a text spells. -/
def read? (text : String) : Option (List (List (String × String))) :=
  (marks? text.toList).bind objects?

/-! ### Texts -/

theorem hexValue?_hexDigit : ∀ n < 16, hexValue? (hexDigit n) = some n := by
  decide

/-- A control character is read from its code. -/
theorem coded?_of_lt {c : Char} (h : c.toNat < 0x20) :
    coded? ['0', '0', hexDigit (c.toNat / 16), hexDigit (c.toNat % 16)] = some c := by
  have hzero : hexValue? '0' = some 0 := hexValue?_hexDigit 0 (by decide)
  have hhigh := hexValue?_hexDigit (c.toNat / 16) (by omega)
  have hlow := hexValue?_hexDigit (c.toNat % 16) (by omega)
  have hcode : 16 * (c.toNat / 16) + c.toNat % 16 = c.toNat := Nat.div_add_mod ..
  have hvalid : c.toNat.isValidChar := c.valid
  simp [coded?, hzero, hhigh, hlow, hcode, hvalid, Char.ofNat_toNat]

/-- An escaped character is read back. -/
theorem textFrom?_escapeChar (read : List Char) (c : Char) (cs : List Char) :
    textFrom? read (escapeChar c ++ cs) = textFrom? (read ++ [c]) cs := by
  unfold escapeChar
  split
  case h_8 hquote hbackslash _ _ _ _ _ =>
    split
    case isTrue hcontrol =>
      show (coded? [_, _, _, _] >>= fun coded ↦ textFrom? (read ++ [coded]) cs) = _
      rw [coded?_of_lt hcontrol]
      rfl
    case isFalse hplain =>
      rw [List.singleton_append, textFrom?, if_neg]
      · rintro (rfl | hcontrol)
        · exact hbackslash rfl
        · exact hplain hcontrol
      · exact hquote
      · rintro _ _ _ _ _ rfl
        exact absurd rfl hbackslash
      · rintro _ _ rfl
        exact absurd rfl hbackslash
  all_goals rfl

theorem textFrom?_flatMap (read text cs : List Char) :
    textFrom? read (text.flatMap escapeChar ++ '"' :: cs) =
      (marks? cs).map (.text (read ++ text) :: ·) := by
  induction text generalizing read with
  | nil =>
    rw [List.flatMap_nil, List.nil_append, List.append_nil, textFrom?]
    cases marks? cs <;> rfl
  | cons c text ih =>
    rw [List.flatMap_cons, List.append_assoc, textFrom?_escapeChar, ih, List.append_assoc]
    rfl

/-! ### What makes marks -/

/-- The text makes the marks, whatever comes behind it. -/
def Makes (text : String) (made : List Mark) : Prop :=
  ∀ cs, marks? (text.toList ++ cs) = (marks? cs).map (made ++ ·)

namespace Makes

variable {text text' : String} {made made' : List Mark}

theorem marks?_eq (h : Makes text made) : marks? text.toList = some made := by
  have hall := h []
  rwa [List.append_nil, marks?, Option.map_some, List.append_nil] at hall

theorem append (h : Makes text made) (h' : Makes text' made') :
    Makes (text ++ text') (made ++ made') := by
  intro cs
  rw [String.toList_append, List.append_assoc, h, h', Option.map_map]
  exact congrArg (Option.map · _) (funext fun later ↦ (List.append_assoc ..).symm)

theorem quote (s : String) : Makes (quote s) [.text s.toList] := by
  intro cs
  show marks? ((String.ofList _).toList ++ cs) = _
  rw [String.toList_ofList, List.cons_append, List.cons_append, List.append_assoc, marks?, if_pos rfl]
  exact textFrom?_flatMap [] s.toList cs

/-- Pieces with something between them make what they make, with what that makes between. -/
theorem intercalate {separator : String} {between : List Mark} (hbetween : Makes separator between)
    {α : Type} {write : α → String} {marks : α → List Mark} (items : List α)
    (h : ∀ item ∈ items, Makes (write item) (marks item)) :
    Makes (String.intercalate separator (items.map write)) (between.intercalate (items.map marks)) := by
  induction items with
  | nil => exact fun cs ↦ (Option.map_id' ..).symm
  | cons item items ih =>
    have hitem := h item List.mem_cons_self
    have hitems := ih fun other hother ↦ h other (List.mem_cons_of_mem _ hother)
    cases items with
    | nil => simpa using hitem
    | cons other items =>
      rw [List.map_cons, List.map_cons, String.intercalate_cons_cons, List.map_cons, List.map_cons,
        List.intercalate_cons_cons]
      exact (hitem.append hbetween).append hitems

theorem of_space {c : Char} (h : isSpace c = true) : Makes (String.singleton c) [] := by
  intro cs
  have hquote : c ≠ '"' := by
    rintro rfl
    cases h
  rw [String.toList_singleton, List.singleton_append, marks?, if_neg hquote, if_pos h]
  exact Option.map_id'.symm

theorem of_mark? {c : Char} {mark : Mark} (h : mark? c = some mark) :
    Makes (String.singleton c) [mark] := by
  intro cs
  have hquote : c ≠ '"' := by
    rintro rfl
    cases h
  have hspace : ¬isSpace c = true := by
    intro hspace
    unfold mark? at h
    split at h <;> first | cases hspace | cases h
  rw [String.toList_singleton, List.singleton_append, marks?, if_neg hquote, if_neg hspace, h]
  cases marks? cs <;> rfl

end Makes

/-! ### What is written -/

/-- The marks of a member. -/
def memberMarks (member : String × String) : List Mark :=
  [.text member.1.toList, .colon, .text member.2.toList]

/-- The marks of an object. -/
def objectMarks (members : List (String × String)) : List Mark :=
  .openObject :: [Mark.comma].intercalate (members.map memberMarks) ++ [.closeObject]

theorem makes_member {indent : String} (hindent : Makes indent []) (member : String × String) :
    Makes (Json.member indent member.1 member.2) (memberMarks member) := by
  have hcolon : Makes ": " [.colon] := .append (.of_mark? (c := ':') rfl) (.of_space (c := ' ') rfl)
  exact ((hindent.append (.quote member.1)).append hcolon).append (.quote member.2)

theorem makes_newline : Makes "\n" [] :=
  .of_space (c := '\n') rfl

theorem makes_comma : Makes ",\n" [.comma] :=
  .append (.of_mark? (c := ',') rfl) makes_newline

theorem makes_object {indent : String} (hindent : Makes indent []) (members : List (String × String)) :
    Makes (object indent members) (objectMarks members) := by
  have hinner : Makes (indent ++ "  ") [] :=
    hindent.append (.append (.of_space (c := ' ') rfl) (.of_space (c := ' ') rfl))
  have hopen : Makes "\x7b\n" [.openObject] := .append (.of_mark? (c := '\x7b') rfl) makes_newline
  have hclose : Makes "\x7d" [.closeObject] := .of_mark? (c := '\x7d') rfl
  have hmembers := Makes.intercalate makes_comma members fun member _ ↦ makes_member hinner member
  have hall := ((((hindent.append hopen).append hmembers).append makes_newline).append hindent).append
    hclose
  rwa [List.append_nil, List.append_nil] at hall

theorem makes_list (objects : List (List (String × String))) :
    Makes (list objects) (.openList :: [Mark.comma].intercalate (objects.map objectMarks) ++
      [.closeList]) := by
  have hopen : Makes "[" [.openList] := .of_mark? (c := '[') rfl
  have hclose : Makes "]" [.closeList] := .of_mark? (c := ']') rfl
  unfold list
  split
  case isTrue h =>
    rw [List.isEmpty_iff.1 h]
    exact hopen.append hclose
  case isFalse h =>
    have hindent : Makes "  " [] := .append (.of_space (c := ' ') rfl) (.of_space (c := ' ') rfl)
    have hobjects := Makes.intercalate makes_comma objects fun object _ ↦ makes_object hindent object
    exact ((hopen.append makes_newline).append hobjects).append (makes_newline.append hclose)

/-! ### What is read -/

/-- The members of an object are read back, and then what is behind it. -/
theorem objectsFrom?_members {members : List (String × String)} (hne : members ≠ [])
    (read : List (String × String)) (behind : List Mark) :
    objectsFrom? read ([Mark.comma].intercalate (members.map memberMarks) ++ .closeObject :: behind) =
      (objectsBehind? behind).map ((read ++ members) :: ·) := by
  induction members generalizing read with
  | nil => exact absurd rfl hne
  | cons member members ih =>
    obtain ⟨name, value⟩ := member
    cases members with
    | nil =>
      show objectsFrom? read (.text name.toList :: .colon :: .text value.toList :: .closeObject ::
        behind) = _
      rw [objectsFrom?, String.ofList_toList, String.ofList_toList]
      cases objectsBehind? behind <;> rfl
    | cons other members =>
      show objectsFrom? read (.text name.toList :: .colon :: .text value.toList :: .comma ::
        ([Mark.comma].intercalate ((other :: members).map memberMarks) ++ .closeObject :: behind)) = _
      rw [objectsFrom?, ih (List.cons_ne_nil _ _), String.ofList_toList, String.ofList_toList,
        List.append_assoc, List.singleton_append]

/-- Objects are read back one after the other. -/
theorem objectsFrom?_objects {members : List (String × String)}
    {objects : List (List (String × String))} (hne : ∀ object ∈ members :: objects, object ≠ []) :
    objectsFrom? [] ([Mark.comma].intercalate (members.map memberMarks) ++ .closeObject ::
      (objects.flatMap (fun object ↦ .comma :: objectMarks object) ++ [.closeList])) =
        some (members :: objects) := by
  induction objects generalizing members with
  | nil =>
    rw [objectsFrom?_members (hne members List.mem_cons_self)]
    rfl
  | cons object objects ih =>
    have hlater := ih fun other hother ↦ hne other (List.mem_cons_of_mem _ hother)
    rw [objectsFrom?_members (hne members List.mem_cons_self), List.flatMap_cons, objectMarks]
    simp only [List.cons_append, List.append_assoc, List.nil_append, objectsBehind?, hlater,
      Option.map_some]

theorem intercalate_eq_flatMap {α : Type} (separator item : List α) (items : List (List α)) :
    separator.intercalate (item :: items) = item ++ items.flatMap (separator ++ ·) := by
  induction items generalizing item with
  | nil => simp
  | cons other items ih =>
    rw [List.intercalate_cons_cons, ih, List.flatMap_cons, List.append_assoc, List.append_assoc]

/-- A list of objects that have members is read back as it was written. -/
theorem read?_list {objects : List (List (String × String))} (hne : ∀ object ∈ objects, object ≠ []) :
    read? (list objects) = some objects := by
  rw [read?, (makes_list objects).marks?_eq, Option.bind_some]
  cases objects with
  | nil => rfl
  | cons members objects =>
    rw [List.map_cons, intercalate_eq_flatMap, List.flatMap_map, objectMarks]
    simp only [List.cons_append, List.append_assoc, List.nil_append, objects?]
    exact objectsFrom?_objects hne

end Rebuild.Text.Json
