import DomainFactory.FlagText
import DomainFactory.Kind

/-!
# Masks of governed operations

A check governs a set of operations, given by a mask: a flag for each kind and a flag for each
family. The mask governs an operation when it holds the flag of its kind or of its family.
-/
namespace DomainFactory

open Json Text

/-- A set of governed operations as the bits of a word. -/
structure Mask where
  /-- The flags; bits without a name are kept. -/
  bits : UInt32
deriving DecidableEq, Repr, Inhabited

namespace Mask

/-- The named flags of a mask. -/
def names : FlagNames where
  names := [("CREATE", 0), ("FETCH", 1), ("INSERT", 2), ("UPDATE", 3), ("DELETE", 4),
    ("EXECUTE", 5), ("READ", 6), ("WRITE", 7)]
  width := 32

/-- The mask that governs nothing. -/
def empty : Mask := ⟨0⟩

/-- The flag of a kind. -/
def ofKind : Kind → Mask
  | .create => ⟨1⟩
  | .fetch => ⟨2⟩
  | .insert => ⟨4⟩
  | .update => ⟨8⟩
  | .delete => ⟨16⟩
  | .execute => ⟨32⟩

/-- The flag of a family. -/
def ofFamily : Family → Mask
  | .read => ⟨64⟩
  | .write => ⟨128⟩

/-- The flags of either mask. -/
def union (left right : Mask) : Mask := ⟨left.bits ||| right.bits⟩

/-- Whether two masks share a flag. -/
def meets (left right : Mask) : Bool := left.bits &&& right.bits != 0

/-- Whether no flag is set. -/
def isEmpty (mask : Mask) : Bool := mask.bits == 0

/-- The flags that govern operations of a kind: its own and that of its family. -/
def governing (kind : Kind) : Mask := (ofKind kind).union (ofFamily kind.family)

/-- Whether a mask governs operations of a kind. -/
def governs (mask : Mask) (kind : Kind) : Bool := mask.meets (governing kind)

/-- The flag that a marker names: a family or a kind, in any case of letters. -/
def ofMarker? (marker : String) : Option Mask :=
  if sameIgnoringAsciiCase "read" marker then some (ofFamily .read)
  else if sameIgnoringAsciiCase "write" marker then some (ofFamily .write)
  else (Kind.ofMarker? marker).map ofKind

/-- A mask as text. -/
def text (mask : Mask) : String := names.write mask.bits.toNat

instance : Form Mask where
  encode mask := .string mask.text
  decode
    | .string text => (names.read? text).map fun bits => ⟨.ofNat bits⟩
    | _ => none

end Mask

end DomainFactory
