import DomainFactory.FlagText
import DomainFactory.Json.Form

/-!
# Call paths

The ways in which a method of a factory can be called, as a set of flags.
-/
namespace DomainFactory

open Json

/-- A set of call paths as the bits of a byte. -/
structure Paths where
  /-- The flags; bits without a name are kept. -/
  bits : UInt8
deriving DecidableEq, Repr, Inhabited

namespace Paths

/-- The named flags of a set of paths. -/
def names : FlagNames where
  names := [("PUBLIC", 0), ("TRY", 1), ("LOCAL", 2), ("REMOTE", 3), ("PROBE", 4)]
  width := 8

/-- The entry that raises denial. -/
def entry : Paths := ⟨1⟩

/-- The save that reports denial. -/
def attempt : Paths := ⟨2⟩

/-- Execution on the side of the caller. -/
def here : Paths := ⟨4⟩

/-- Execution on another side. -/
def remote : Paths := ⟨8⟩

/-- The question whether a method is allowed. -/
def probe : Paths := ⟨16⟩

/-- The paths of either set. -/
def union (left right : Paths) : Paths := ⟨left.bits ||| right.bits⟩

/-- The set with some paths when a condition holds. -/
def addWhen (paths : Paths) (condition : Bool) (added : Paths) : Paths :=
  if condition then paths.union added else paths

/-- Whether a set holds all paths of another. -/
def includes (paths wanted : Paths) : Bool := paths.bits &&& wanted.bits == wanted.bits

/-- A set as text. -/
def text (paths : Paths) : String := names.write paths.bits.toNat

instance : Form Paths where
  encode paths := .string paths.text
  decode
    | .string text => (names.read? text).map fun bits => ⟨.ofNat bits⟩
    | _ => none

end Paths

end DomainFactory
