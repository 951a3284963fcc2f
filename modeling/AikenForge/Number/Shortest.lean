/-
# Shortest decimals

The decimal with the fewest digits that reads back as a given binary64 number, and its layout in
positional or scientific form.
-/

import AikenForge.Number.Binary64

namespace AikenForge.Number

/-- The decimal `digits * 10 ^ exponent`. -/
structure Decimal where
  digits : Nat
  exponent : Int

/-- The two factors that bring `c * 10 ^ t` and `x * 2 ^ e` to one scale: `c * p` and `x * q`
compare as they do. -/
def commonScale (t e : Int) : Nat × Nat :=
  (powerOfTen t * powerOfTwo (-e), powerOfTwo e * powerOfTen (-t))

/-- The number of places before the point of `significand * 2 ^ exponent`: the `k` with
`10 ^ (k - 1) ≤ value < 10 ^ k`. `fuel` bounds the search among fractions. -/
def pointPlace (significand : Nat) (exponent : Int) : Int :=
  let whole := significand * powerOfTwo exponent / powerOfTwo (-exponent)
  if whole = 0 then fraction 400 1 else digitCount whole
where
  fraction : Nat → Nat → Int
    | 0, places => 1 - (places : Int)
    | fuel + 1, places =>
      if significand * powerOfTen places / powerOfTwo (-exponent) = 0 then
        fraction fuel (places + 1)
      else 1 - (places : Int)

/-- The nearer of the two neighbours of `m * 2 ^ exponent` among decimals of `count`
digits that reads back as it, if one does; of two at the same distance, the even one. -/
def neighbour? (m : Nat) (exponent place : Int) (count : Nat) : Option Decimal :=
  let t := place - count
  let (p, q) := commonScale t (exponent - 2)
  let low := if m = leastFull ∧ leastExponent < exponent then 4 * m - 1 else 4 * m - 2
  let inside := fun c : Nat =>
    if m % 2 = 0 then decide (low * q ≤ c * p ∧ c * p ≤ (4 * m + 2) * q)
    else decide (low * q < c * p ∧ c * p < (4 * m + 2) * q)
  let below := 4 * m * q / p
  let above := below + 1
  let gapBelow := 4 * m * q - below * p
  let gapAbove := above * p - 4 * m * q
  let belowIsNearer := gapBelow < gapAbove || (gapBelow = gapAbove && below % 2 = 0)
  if inside below && (belowIsNearer || !inside above) then some ⟨below, t⟩
  else if inside above then some ⟨above, t⟩
  else none

/-- Try ever more digits; seventeen always suffice. -/
def shortestFrom (significand : Nat) (exponent place : Int) : (fuel count : Nat) → Decimal
  | 0, _ => ⟨significand, 0⟩
  | fuel + 1, count =>
    (neighbour? significand exponent place count).getD
      (shortestFrom significand exponent place fuel (count + 1))

/-- Move zeros at the end of the digits into the exponent. -/
def Decimal.normalize : (fuel : Nat) → Decimal → Decimal
  | 0, d => d
  | fuel + 1, d =>
    if d.digits ≠ 0 ∧ d.digits % 10 = 0 then normalize fuel ⟨d.digits / 10, d.exponent + 1⟩ else d

/-- The decimal with the fewest digits that reads back as `significand * 2 ^ exponent`. -/
def shortest (significand : Nat) (exponent : Int) : Decimal :=
  if significand = 0 then ⟨0, 0⟩
  else (shortestFrom significand exponent (pointPlace significand exponent) 17 1).normalize 20

/-- How decimals are laid out: the range of places before the point that are written positionally,
and whether an integer keeps a zero after its point. -/
structure Layout where
  leastPlace : Int
  greatestPlace : Int
  keepPoint : Bool

/-- Decimals from `0.0001` up to sixteen places are positional, and an integer keeps its point. -/
def Layout.real : Layout := ⟨-3, 16, true⟩

/-- As `Layout.real`, but an integer has no point. -/
def Layout.imaginary : Layout := ⟨-3, 16, false⟩

/-- Write a decimal in a layout. -/
def Decimal.render (layout : Layout) (d : Decimal) : String :=
  let digits := Nat.toDigits 10 d.digits
  let place : Int := digits.length + d.exponent
  let zeros := fun n : Int => List.replicate n.toNat '0'
  if d.digits = 0 then (if layout.keepPoint then "0.0" else "0")
  else if layout.leastPlace ≤ place ∧ place ≤ layout.greatestPlace then
    if place ≤ 0 then .ofList ('0' :: '.' :: zeros (-place) ++ digits)
    else if digits.length ≤ place then
      .ofList (digits ++ zeros (place - digits.length) ++
        (if layout.keepPoint then ['.', '0'] else []))
    else .ofList (digits.take place.toNat ++ '.' :: digits.drop place.toNat)
  else
    let power := place - 1
    let tail := digits.drop 1
    let size := Nat.toDigits 10 power.natAbs
    .ofList (digits.take 1 ++ (if tail.isEmpty then [] else '.' :: tail) ++
      'e' :: (if power < 0 then '-' else '+') :: List.replicate (2 - size.length) '0' ++ size)

/-- Write a number with the fewest digits that read back. -/
def Magnitude.render (layout : Layout) : Magnitude → String
  | .finite significand exponent => (shortest significand exponent).render layout
  | .infinite => "inf"

end AikenForge.Number
