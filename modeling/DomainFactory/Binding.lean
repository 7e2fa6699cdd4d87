import DomainFactory.Operation
import DomainFactory.TypeText

/-!
# Binding checks to operations

A check gates an operation when its mask governs the kind of the operation and its parameters line
up with those of the operation, left to right. The binding records where each argument of the check
comes from, so a call can assemble it without looking at types again.
-/
namespace DomainFactory

open Json

/-- Where an argument of a check comes from. -/
inductive ArgumentSource where
  /-- The target of a write. -/
  | target
  /-- The parameter of the operation at a position. -/
  | parameter (position : Nat)
deriving DecidableEq, Repr

namespace ArgumentSource

instance : Form ArgumentSource where
  encode
    | .target => .string "Target"
    | .parameter position => alternative "Param" (encode position)
  decode json :=
    match alternative? json with
    | some ("Param", some position) => (decode position).map .parameter
    | some ("Target", none) => some .target
    | some ("Target", some .null) => some .target
    | _ => none

end ArgumentSource

/-- A check bound to an operation. -/
structure Binding where
  /-- The position of the check in the list of checks. -/
  check : Nat
  /-- Where its arguments come from, one for each of its parameters. -/
  sources : List ArgumentSource
deriving DecidableEq, Repr

namespace Binding

/-- Whether the check needs the target. -/
def needsTarget (binding : Binding) : Bool := binding.sources.contains .target

instance : Form Binding where
  encode binding :=
    record [("authorization", encode binding.check), ("args", encode binding.sources)]
  decode json := do
    match ← slots? ["authorization", "args"] json with
    | [check, sources] => return ⟨← required check, ← required sources⟩
    | _ => none

end Binding

/-- An operation with the checks that gate it. -/
structure BoundOperation where
  /-- The operation. -/
  operation : Operation
  /-- The bindings of its checks, in the order of the checks. -/
  bindings : List Binding
deriving DecidableEq, Repr

namespace BoundOperation

/-- Whether any check gates the operation. -/
def isGated (bound : BoundOperation) : Bool := !bound.bindings.isEmpty

instance : Form BoundOperation where
  encode bound :=
    record [("operation", encode bound.operation), ("bindings", encode bound.bindings)]
  decode json := do
    match ← slots? ["operation", "bindings"] json with
    | [operation, bindings] => return ⟨← required operation, ← required bindings⟩
    | _ => none

end BoundOperation

namespace Binding

/-- Whether the mask of a check governs an operation. -/
def governs (operation : Operation) (check : Check) : Bool := check.mask.governs operation.kind

/-- Whether two parameters have one type, up to reference marks. -/
def sameType (left right : Parameter) : Bool :=
  TypeText.stripReferences left.type == TypeText.stripReferences right.type

/-- The sources of the arguments of a check, given the parameters of the operation from a position.
References to the type itself are passed over, save that on a write such a parameter of the check
takes the next one; every other parameter of the check takes the next parameter, which must have
its type. -/
def sourcesFrom? (isWrite : Bool) : (position : Nat) → (operation check : List Parameter) →
    Option (List ArgumentSource)
  | _, _, [] => some []
  | _, [], _ :: _ => none
  | position, parameter :: parameters, wanted :: more =>
    if parameter.isSelfReference then
      if isWrite && wanted.isSelfReference then
        let source := if position = 0 then ArgumentSource.target else .parameter position
        (sourcesFrom? isWrite (position + 1) parameters more).map (source :: ·)
      else sourcesFrom? isWrite (position + 1) parameters (wanted :: more)
    else if sameType parameter wanted then
      (sourcesFrom? isWrite (position + 1) parameters more).map (.parameter position :: ·)
    else none

/-- The sources of the arguments of a check, when its parameters line up with those of an
operation. -/
def sources? (operation : Operation) (check : Check) : Option (List ArgumentSource) :=
  sourcesFrom? operation.isWrite 0 operation.parameters check.parameters

/-- The bindings of an operation to checks counted from a position. -/
def bindFrom (operation : Operation) : Nat → List Check → List Binding
  | _, [] => []
  | position, check :: checks =>
    let more := bindFrom operation (position + 1) checks
    if governs operation check then
      match sources? operation check with
      | some sources => ⟨position, sources⟩ :: more
      | none => more
    else more

/-- An operation with the checks that gate it. -/
def bind (checks : List Check) (operation : Operation) : BoundOperation :=
  ⟨operation, bindFrom operation 0 checks⟩

end Binding

end DomainFactory
