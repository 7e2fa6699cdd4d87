/-!
# Finite binary numbers

A finite number of the 64-bit binary format is a sign, a mantissa and an exponent, all exact
integers. Arithmetic computes the exact ratio and rounds once to the nearest number, a tie to the
even mantissa, so every result is the one the format prescribes.
-/
namespace DomainFactory.Decimal

/-- A magnitude of the format: the mantissa times two to the exponent. Rounding keeps the mantissa
below `2 ^ 53` and the exponent between `-1074` and `971`. -/
structure Magnitude where
  /-- The integer that is scaled. -/
  mantissa : Nat
  /-- The power of two it is scaled by. -/
  exponent : Int
deriving DecidableEq, Repr, Inhabited

/-- A finite number: a sign and a magnitude. Zero has both signs. -/
structure Binary64 where
  /-- Whether the number carries the minus sign. -/
  negative : Bool
  /-- The size of the number. -/
  magnitude : Magnitude
deriving DecidableEq, Repr, Inhabited

namespace Magnitude

/-- The magnitude nought. -/
def zero : Magnitude := ⟨0, -1074⟩

/-- Whether the magnitude is nought. -/
def isZero (value : Magnitude) : Bool := value.mantissa == 0

/-- The quotient of two naturals rounded to the nearest, a tie to the even quotient. -/
def divideToEven (numerator denominator : Nat) : Nat :=
  let quotient := numerator / denominator
  let doubled := 2 * (numerator % denominator)
  if doubled < denominator then quotient
  else if denominator < doubled then quotient + 1
  else quotient + quotient % 2

/-- A ratio with a power of two taken out, rounded. -/
def divideScaled (numerator denominator : Nat) (exponent : Int) : Nat :=
  divideToEven (numerator * Nat.pow 2 (-exponent).toNat) (denominator * Nat.pow 2 exponent.toNat)

/-- The power of two that leaves a ratio with 53 binary digits, or the least power of the
format. -/
def exponentOf (numerator denominator : Nat) : Int :=
  let guess : Int := (numerator.log2 : Int) - denominator.log2 - 53
  let wide := Nat.pow 2 53 ≤
    (numerator * Nat.pow 2 (-guess).toNat) / (denominator * Nat.pow 2 guess.toNat)
  max (-1074) (if wide then guess + 1 else guess)

/-- The magnitude nearest to a ratio, unless it lies beyond the format. -/
def ofRatio? (numerator denominator : Nat) : Option Magnitude :=
  if numerator == 0 then some zero
  else
    let exponent := exponentOf numerator denominator
    let mantissa := divideScaled numerator denominator exponent
    let rounded : Magnitude :=
      if mantissa == Nat.pow 2 53 then ⟨Nat.pow 2 52, exponent + 1⟩ else ⟨mantissa, exponent⟩
    if 971 < rounded.exponent then none else some rounded

/-- The magnitude nearest to a ratio that is no larger than the largest magnitude. -/
def ofRatio (numerator denominator : Nat) : Magnitude :=
  (ofRatio? numerator denominator).getD zero

/-- The magnitude nearest to a natural number below two to the 1023. -/
def ofNat (value : Nat) : Magnitude := ofRatio value 1

/-- The product of two magnitudes, unless it lies beyond the format. -/
def multiply? (left right : Magnitude) : Option Magnitude :=
  let exponent := left.exponent + right.exponent
  ofRatio? (left.mantissa * right.mantissa * Nat.pow 2 exponent.toNat) (Nat.pow 2 (-exponent).toNat)

/-- The quotient of a magnitude by another that is at least one. -/
def divide (left right : Magnitude) : Magnitude :=
  let exponent := left.exponent - right.exponent
  ofRatio (left.mantissa * Nat.pow 2 exponent.toNat) (right.mantissa * Nat.pow 2 (-exponent).toNat)

/-- Divides by a power of ten in steps of at most 308 places, the largest power that the format
holds; each step rounds. -/
def scaleDown (value : Magnitude) (places : Nat) : Magnitude :=
  if value.isZero then value
  else if places ≤ 308 then divide value (ofNat (Nat.pow 10 places))
  else scaleDown (divide value (ofNat (Nat.pow 10 308))) (places - 308)
termination_by places

/-- Scales a significand by a power of ten: one rounding for the significand, one for the power,
one for the result. Nothing is answered beyond the format. -/
def ofDecimal? (significand : Nat) (exponent : Int) : Option Magnitude :=
  let value := ofNat significand
  if exponent < 0 then some (scaleDown value (-exponent).toNat)
  else if value.isZero then some value
  else if exponent ≤ 308 then multiply? value (ofNat (Nat.pow 10 exponent.toNat))
  else none

end Magnitude

namespace Binary64

/-- The number nearest to an integer below two to the 1023 in size. -/
def ofInt (value : Int) : Binary64 := ⟨value < 0, .ofNat value.natAbs⟩

/-- Numeric equality: the two zeros are equal. -/
def sameNumber (left right : Binary64) : Bool :=
  left.magnitude == right.magnitude &&
    (left.negative == right.negative || left.magnitude.isZero)

end Binary64

end DomainFactory.Decimal
