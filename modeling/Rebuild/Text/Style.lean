import Rebuild.Text.Basic

/-!
# Styled text

A style is written as control codes around a text: the code that switches it on, the text, and the
code that resets every style. Where the text holds a reset of its own, the style is switched on
again behind it. A terminal without colours gets the bare text.
-/

namespace Rebuild.Text

/-- The colours in use. -/
inductive Colour where
  | red
  | green
  | yellow
  | cyan
  | white
deriving DecidableEq, Repr

/-- The number by which a terminal knows a foreground colour. -/
def Colour.number : Colour → String
  | red => "31"
  | green => "32"
  | yellow => "33"
  | cyan => "36"
  | white => "37"

/-- How a text is shown. -/
structure Style where
  /-- Whether the text is bold. -/
  bold : Bool := false
  /-- The colour of the text, where it is not the terminal's own. -/
  colour : Option Colour := none
deriving DecidableEq, Repr

namespace Style

/-- The code that switches the style on. -/
def opening (style : Style) : String :=
  let numbers := (if style.bold then ["1"] else []) ++ (style.colour.map Colour.number).toList
  "\x1b[" ++ String.intercalate ";" numbers ++ "m"

/-- The code that resets every style. -/
def reset : String := "\x1b[0m"

/-- Writes `opening` behind every reset inside a text. -/
def reopen (opening : List Char) : List Char → List Char
  | [] => []
  | c :: cs =>
    if reset.toList.isPrefixOf (c :: cs) then
      reset.toList ++ opening ++ reopen opening (cs.drop 3)
    else c :: reopen opening cs
termination_by cs => cs.length
decreasing_by all_goals simp only [List.length_drop, List.length_cons]; omega

/-- The text in a style, if the terminal shows colours. -/
def apply (style : Style) (coloured : Bool) (s : String) : String :=
  if coloured && (style.bold || style.colour.isSome) then
    style.opening ++ String.ofList (reopen style.opening.toList s.toList) ++ reset
  else s

/-- Bold text in the terminal's own colour. -/
def strong : Style := { bold := true }

/-- Text in a colour. -/
def inColour (colour : Colour) : Style := { colour := some colour }

/-- Bold text in a colour. -/
def strongIn (colour : Colour) : Style := { bold := true, colour := some colour }

end Style

end Rebuild.Text
