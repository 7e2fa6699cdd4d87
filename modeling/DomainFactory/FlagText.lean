import DomainFactory.Text.Affix
import DomainFactory.Text.Quoted

/-!
# Flag sets as text

A set of flags is written as the names of its flags in declaration order, parted by bars, and the
bits that no name covers as one hexadecimal number at the end. The empty set is the empty text.
Reading takes names and numbers in any order and number.
-/
namespace DomainFactory

open Text

/-- The named flags of a kind of flag set, each one bit, and the number of bits it has. -/
structure FlagNames where
  /-- The names with the positions of their bits, in declaration order. -/
  names : List (String × Nat)
  /-- The number of bits of a set. -/
  width : Nat

namespace FlagNames

/-- The names of the flags in a set. -/
def present (flags : FlagNames) (bits : Nat) : List String :=
  (flags.names.filter fun flag => bits.testBit flag.2).map (·.1)

/-- The bits of a set that no name covers. -/
def rest (flags : FlagNames) (bits : Nat) : Nat :=
  flags.names.foldl
    (fun rest flag => if rest.testBit flag.2 then rest - Nat.pow 2 flag.2 else rest) bits

/-- A set as text. -/
def write (flags : FlagNames) (bits : Nat) : String :=
  let unnamed := flags.rest bits
  let number := if unnamed == 0 then [] else ["0x" ++ String.ofList (hexDigits unnamed)]
  " | ".intercalate (flags.present bits ++ number)

/-- The value of a hexadecimal number of at least one digit, with an optional plus sign. -/
def hexNumber? (text : List Char) : Option Nat :=
  let digits :=
    match text with
    | '+' :: digits => digits
    | digits => digits
  if digits.isEmpty then none
  else digits.foldlM (fun value c => (hexValue? c).map (value * 16 + ·)) 0

/-- The bits of one part of a text: a hexadecimal number that fits the set, or a name. -/
def readPart? (flags : FlagNames) (part : List Char) : Option Nat :=
  match after? ['0', 'x'] part with
  | some digits =>
    (hexNumber? digits).bind fun bits => if bits < Nat.pow 2 flags.width then some bits else none
  | none => (flags.names.find? fun flag => flag.1.toList == part).map fun flag => Nat.pow 2 flag.2

/-- The bits of a set from its text. Blank text is the empty set; an empty part is refused. -/
def read? (flags : FlagNames) (text : String) : Option Nat :=
  let chars := text.toList
  if (trimChars chars).isEmpty then some 0
  else
    (splitAt '|' chars).foldlM
      (fun bits part => (flags.readPart? (trimChars part)).map (bits ||| ·)) 0

end FlagNames

end DomainFactory
