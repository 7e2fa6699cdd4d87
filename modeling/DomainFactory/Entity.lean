import DomainFactory.Value

/-!
# Entities

An entity is an instance of a domain type: its type's name, whether it is new and whether it is
marked for deletion, and its fields in key order.
-/
namespace DomainFactory

open Json

/-- What the next save of an instance has to do. -/
structure SaveState where
  /-- Whether the instance was never stored. -/
  isNew : Bool
  /-- Whether the next save removes the instance. -/
  isDeleted : Bool
deriving DecidableEq, Repr

namespace SaveState

/-- The state of a fresh instance. -/
def fresh : SaveState := ⟨true, false⟩

/-- The state of a stored instance. -/
def existing : SaveState := ⟨false, false⟩

instance : Form SaveState where
  encode state :=
    record [("is_new", encode state.isNew), ("is_deleted", encode state.isDeleted)]
  decode json := do
    match ← slots? ["is_new", "is_deleted"] json with
    | [isNew, isDeleted] => return ⟨← required isNew, ← required isDeleted⟩
    | _ => none

end SaveState

/-- An instance of a domain type. -/
structure Entity where
  /-- The name of its type. -/
  typeName : String
  /-- What its next save has to do. -/
  state : SaveState
  /-- Its fields. -/
  fields : Keyed Value
deriving Repr

namespace Entity

/-- A fresh instance without fields. -/
def new (typeName : String) : Entity := ⟨typeName, .fresh, .empty⟩

/-- The value of a field. -/
def get? (entity : Entity) (field : String) : Option Value := entity.fields.get? field

/-- The instance with a field set. -/
def set (entity : Entity) (field : String) (value : Value) : Entity :=
  { entity with fields := entity.fields.insert field value }

/-- The instance as stored and not deleted. -/
def markOld (entity : Entity) : Entity := { entity with state := .existing }

/-- The instance marked for deletion at its next save. -/
def markDeleted (entity : Entity) : Entity :=
  { entity with state := { entity.state with isDeleted := true } }

/-- The instance as fresh. -/
def markNew (entity : Entity) : Entity := { entity with state := .fresh }

instance : Form Entity where
  encode entity :=
    record [("type_name", encode entity.typeName), ("state", encode entity.state),
      ("fields", encode entity.fields)]
  decode json := do
    match ← slots? ["type_name", "state", "fields"] json with
    | [typeName, state, fields] =>
      return ⟨← required typeName, ← required state, ← required fields⟩
    | _ => none

end Entity

end DomainFactory
