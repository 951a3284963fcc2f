/-
# Binary floating point in exact arithmetic

A number literal with a point or an exponent denotes the nearest binary64 number. It is kept as an
integer times a power of two, so that reading, truncation and the shortest decimal are integer
computations.
-/

import AikenForge.Number.Power

namespace AikenForge.Number

/-- The size of a binary64 number: `significand * 2 ^ exponent`, or beyond the largest finite
one. -/
inductive Magnitude
  | finite (significand : Nat) (exponent : Int)
  | infinite
  deriving DecidableEq

/-- The quotient of two numbers rounded to the nearest integer, a tie to the even one. -/
def roundDiv (numerator denominator : Nat) : Nat :=
  let quotient := numerator / denominator
  let twice := 2 * (numerator % denominator)
  if twice < denominator then quotient
  else if denominator < twice then quotient + 1
  else if quotient % 2 = 0 then quotient else quotient + 1

/-- The quotient `numerator / (denominator * 2 ^ exponent)` as a numerator and a denominator. -/
def scaleDown (numerator denominator : Nat) (exponent : Int) : Nat × Nat :=
  (numerator * powerOfTwo (-exponent), denominator * powerOfTwo exponent)

/-- The least significand of a binary64 number with an exponent above the least one. -/
def leastFull : Nat := powerOfTwo 52

/-- The least exponent of a binary64 number. -/
def leastExponent : Int := -1074

/-- The greatest exponent of a binary64 number with a full significand. -/
def greatestExponent : Int := 971

/-- The nearest binary64 number to a positive quotient, a tie to the even significand. -/
def Magnitude.ofQuotient (numerator denominator : Nat) : Magnitude :=
  let guess : Int := (numerator.log2 : Int) - (denominator.log2 : Int) - 52
  let (n, d) := scaleDown numerator denominator guess
  let exponent := max (if n / d < leastFull then guess - 1 else guess) leastExponent
  let (n, d) := scaleDown numerator denominator exponent
  let significand := roundDiv n d
  let (significand, exponent) :=
    if significand = 2 * leastFull then (leastFull, exponent + 1) else (significand, exponent)
  if greatestExponent < exponent then .infinite else .finite significand exponent

/-- The number of decimal digits of `n`; zero has one. -/
def digitCount (n : Nat) : Nat :=
  (Nat.toDigits 10 n).length

/-- The nearest binary64 number to `digits * 10 ^ exponent`. -/
def Magnitude.ofDecimal (digits : Nat) (exponent : Int) : Magnitude :=
  if digits = 0 then .finite 0 0
  else
    let size := exponent + digitCount digits
    if 310 < size then .infinite
    else if size < -330 then .finite 0 0
    else .ofQuotient (digits * powerOfTen exponent) (powerOfTen (-exponent))

/-- The integer part of a finite number. -/
def Magnitude.truncate? : Magnitude → Option Nat
  | .finite significand exponent =>
    some (significand * powerOfTwo exponent / powerOfTwo (-exponent))
  | .infinite => none

/-- Whether a number is an integer. -/
def Magnitude.isIntegral : Magnitude → Bool
  | .finite significand exponent =>
    significand * powerOfTwo exponent % powerOfTwo (-exponent) == 0
  | .infinite => false

end AikenForge.Number
