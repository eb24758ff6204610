/-!
# Durations

The text of a duration: a number with two decimal places in the largest unit of which there is at
least one.
-/

namespace Rebuild.Text

/-- The units of durations, the largest one first, and how many nanoseconds each is. -/
def durationUnits : List (String × Nat) :=
  [("s", 1000000000), ("ms", 1000000), ("µs", 1000), ("ns", 1)]

/-- The nearest whole number to a quotient; of two, the even one. -/
def nearestQuotient (dividend divisor : Nat) : Nat :=
  let below := dividend / divisor
  let twice := 2 * (dividend % divisor)
  if divisor < twice ∨ (twice = divisor ∧ below % 2 = 1) then below + 1 else below

/-- A number of hundredths, with two decimal places. -/
def hundredths (n : Nat) : String :=
  toString (n / 100) ++ "." ++ toString (n % 100 / 10) ++ toString (n % 10)

/-- The text of a number of nanoseconds. -/
def duration (nanoseconds : Nat) : String :=
  match durationUnits.find? fun (_, size) ↦ size ≤ nanoseconds with
  | some (unit, size) => hundredths (nearestQuotient (100 * nanoseconds) size) ++ unit
  | none => hundredths 0 ++ "ns"

end Rebuild.Text
