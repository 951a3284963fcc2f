/-
# Powers

Powers of two and of ten. An exponent below zero counts as zero, so that the quotient of the powers
with an exponent and with its opposite is the power with that exponent, of either sign.
-/

namespace AikenForge.Number

/-- Two to the power of an exponent, one for an exponent below zero. -/
def powerOfTwo (exponent : Int) : Nat :=
  Nat.pow 2 exponent.toNat

/-- Ten to the power of an exponent, one for an exponent below zero. -/
def powerOfTen (exponent : Int) : Nat :=
  Nat.pow 10 exponent.toNat

end AikenForge.Number
