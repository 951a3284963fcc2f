/-
# Decimal text of integers

Integers are written in decimal, up to a limit on the number of digits.
-/

import AikenForge.Number.Power

namespace AikenForge.Number

/-- The greatest number of decimal digits that is read or written. -/
def digitLimit : Nat := 4300

/-- The least number with more digits than the limit. -/
def digitBound : Nat := powerOfTen digitLimit

/-- The decimal text of a number, if it keeps to the limit. -/
def decimalText? (n : Nat) : Option String :=
  if n < digitBound then some (.ofList (Nat.toDigits 10 n)) else none

/-- The number that a list of decimal digits writes. -/
def ofDigits (cs : List Char) : Nat :=
  cs.foldl (fun n c => n * 10 + (c.toNat - '0'.toNat)) 0

end AikenForge.Number
