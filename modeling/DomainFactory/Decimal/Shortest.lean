import DomainFactory.Decimal.Binary64

/-!
# Shortest decimals

The reals that round to a binary number form an interval, with its ends when the mantissa is even.
The shortest decimal is the point of the coarsest power-of-ten grid that meets the interval; of
two such points the nearer, of two equally near the even one.
-/
namespace DomainFactory.Decimal

/-- A decimal magnitude: the digits as an integer times ten to the exponent. -/
structure Scientific where
  /-- The digits as an integer. -/
  digits : Nat
  /-- The power of ten it is scaled by. -/
  exponent : Int
deriving DecidableEq, Repr

namespace Scientific

/-- The interval of a magnitude in quarters of its last binary place: the lower end, the value and
the upper end. Below a power of two the neighbour is half as far. -/
def interval (value : Magnitude) : Nat × Nat × Nat :=
  let centre := 4 * value.mantissa
  let low := if value.mantissa == Nat.pow 2 52 && -1074 < value.exponent then centre - 1
    else centre - 2
  (low, centre, centre + 2)

/-- The point of the grid of one power of ten that lies in the interval of a magnitude and is
nearest to it. -/
def pointOn? (value : Magnitude) (exponent : Int) : Option Nat :=
  let binary := value.exponent - 2
  let unit := Nat.pow 10 exponent.toNat * Nat.pow 2 (-binary).toNat
  let scale := Nat.pow 10 (-exponent).toNat * Nat.pow 2 binary.toNat
  let (low, centre, high) := interval value
  let closed := value.mantissa % 2 == 0
  let meets (point : Nat) : Bool :=
    if closed then low * scale ≤ point * unit && point * unit ≤ high * scale
    else low * scale < point * unit && point * unit < high * scale
  let below := centre * scale / unit
  let above := below + 1
  match meets below, meets above with
  | false, false => none
  | true, false => some below
  | false, true => some above
  | true, true =>
    let short := centre * scale - below * unit
    let excess := above * unit - centre * scale
    if short < excess then some below
    else if excess < short then some above
    else some (below + below % 2)

/-- The first grid with a point in the interval, going down from a power of ten. -/
def search (value : Magnitude) : Nat → Int → Scientific
  | 0, exponent => ⟨value.mantissa, exponent⟩
  | fuel + 1, exponent =>
    match pointOn? value exponent with
    | some digits => ⟨digits, exponent⟩
    | none => search value fuel (exponent - 1)

/-- The shortest decimal that reads back as a magnitude. The search starts above the number of
places of the value; seventeen digits always suffice. -/
def ofMagnitude (value : Magnitude) : Scientific :=
  if value.isZero then ⟨0, 0⟩
  else
    let places : Int := ((value.mantissa.log2 : Int) + value.exponent + 1) * 30103 / 100000 + 1
    search value 24 places

end Scientific

end DomainFactory.Decimal
