/-!
# Sets of code points

A set of code points is stored as the lengths of the stretches outside and inside it, in turn,
starting outside at zero. Membership walks the lengths, so it is total and reduces in proofs.
-/
namespace DomainFactory.Text

/-- A set of code points by the lengths of its alternating stretches. -/
structure Stretches where
  /-- Lengths of the stretches: the first lies outside the set, the second inside, and so on. -/
  lengths : List Nat

namespace Stretches

/-- Whether a position lies in an inner stretch, counted from the start of the list. -/
def inside : List Nat → Nat → Bool
  | outer :: inner :: rest, position =>
    if position < outer then false
    else if position < outer + inner then true
    else inside rest (position - (outer + inner))
  | _, _ => false

/-- Whether the set holds a character. -/
def contains (set : Stretches) (c : Char) : Bool := inside set.lengths c.toNat

end Stretches

/-- Whether a code point is a member of a run: `count` members from `first`, `step` apart. -/
def inRun (first count step codePoint : Nat) : Bool :=
  first ≤ codePoint && codePoint < first + count * step && (codePoint - first) % step == 0

end DomainFactory.Text
