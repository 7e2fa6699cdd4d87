import DomainFactory.Binding
import DomainFactory.Diagnostic
import DomainFactory.Entity

/-!
# Methods of a factory

Each operation gives a read or a write. Writes that share the types of their parameters join to a
save, which chooses among them by the state of its target. A gated read or write that some check can
judge without the target has a probe. Saves and probes refer to reads and writes by position.
-/
namespace DomainFactory

open Json

/-- The write that a save resolves to. -/
inductive SaveBranch where
  /-- The instance is new. -/
  | insert
  /-- The instance is stored. -/
  | update
  /-- The instance is stored and marked for deletion. -/
  | delete
deriving DecidableEq, Repr

namespace SaveBranch

/-- The branch for a state; none for an instance that is new and marked for deletion. -/
def route? (state : SaveState) : Option SaveBranch :=
  match state.isNew, state.isDeleted with
  | true, true => none
  | true, false => some .insert
  | false, true => some .delete
  | false, false => some .update

/-- The kind of the writes of a branch. -/
def kind : SaveBranch → Kind
  | .insert => .insert
  | .update => .update
  | .delete => .delete

/-- The branch of the writes of a kind. -/
def ofKind? : Kind → Option SaveBranch
  | .insert => some .insert
  | .update => some .update
  | .delete => some .delete
  | _ => none

/-- Of a value for each branch, the one for a branch. -/
def choose {α : Type} (insert update delete : α) : SaveBranch → α
  | .insert => insert
  | .update => update
  | .delete => delete

end SaveBranch

/-- A save: the positions of its writes. -/
structure SaveSpec where
  /-- Its name; empty until methods are named. -/
  name : String := ""
  /-- The name of the save that reports denial; only a gated save has one. -/
  tryName : Option String := none
  /-- The position of the write of new instances. -/
  insert : Option Nat := none
  /-- The position of the write of stored instances. -/
  update : Option Nat := none
  /-- The position of the removal. -/
  delete : Option Nat := none
  /-- The parameters behind the target, those of the first write that has any. -/
  parameters : List Parameter := []
  /-- Whether a check gates any of its writes. -/
  gated : Bool := false
  /-- Its place in the order of naming. -/
  order : Nat
deriving DecidableEq, Repr

/-- A probe of a read or a write. -/
structure ProbeSpec where
  /-- Its name; empty until methods are named. -/
  name : String := ""
  /-- The position of the method it asks about. -/
  wraps : Nat
  /-- The operation of that method. -/
  operation : Operation
  /-- The bindings that do not need the target. -/
  bindings : List Binding
  /-- Whether it runs on another side than its caller. -/
  remote : Bool
deriving DecidableEq, Repr

/-- A method of a factory. -/
inductive MethodSpec where
  /-- An operation that needs no instance. -/
  | read (name : String) (bound : BoundOperation)
  /-- An operation on a target. -/
  | write (name : String) (bound : BoundOperation)
  /-- A choice among writes by the state of the target. -/
  | save (spec : SaveSpec)
  /-- A question whether a method is allowed. -/
  | probe (spec : ProbeSpec)
deriving DecidableEq, Repr

namespace SaveSpec

/-- The position of the write of a branch. -/
def branch (spec : SaveSpec) : SaveBranch → Option Nat :=
  SaveBranch.choose spec.insert spec.update spec.delete

/-- The save with the write of a branch. -/
def setBranch (spec : SaveSpec) (position : Nat) : SaveBranch → SaveSpec
  | .insert => { spec with insert := some position }
  | .update => { spec with update := some position }
  | .delete => { spec with delete := some position }

instance : Form SaveSpec where
  encode spec :=
    record [("name", encode spec.name), ("try_name", encode spec.tryName),
      ("insert", encode spec.insert), ("update", encode spec.update),
      ("delete", encode spec.delete), ("params", encode spec.parameters),
      ("gated", encode spec.gated), ("order", encode spec.order)]
  decode json := do
    match ← slots? ["name", "try_name", "insert", "update", "delete", "params", "gated",
        "order"] json with
    | [name, tryName, insert, update, delete, parameters, gated, order] =>
      return {
        name := ← required name
        tryName := ← nullable tryName
        insert := ← nullable insert
        update := ← nullable update
        delete := ← nullable delete
        parameters := ← required parameters
        gated := ← required gated
        order := ← required order }
    | _ => none

end SaveSpec

namespace ProbeSpec

instance : Form ProbeSpec where
  encode spec :=
    record [("name", encode spec.name), ("wraps", encode spec.wraps),
      ("operation", encode spec.operation), ("bindings", encode spec.bindings),
      ("remote", encode spec.remote)]
  decode json := do
    match ← slots? ["name", "wraps", "operation", "bindings", "remote"] json with
    | [name, wraps, operation, bindings, remote] =>
      return {
        name := ← required name
        wraps := ← required wraps
        operation := ← required operation
        bindings := ← required bindings
        remote := ← required remote }
    | _ => none

end ProbeSpec

namespace MethodSpec

/-- The name of a method; empty until methods are named. -/
def name : MethodSpec → String
  | .read name _ => name
  | .write name _ => name
  | .save spec => spec.name
  | .probe spec => spec.name

/-- The method with a name. -/
def named (name : String) : MethodSpec → MethodSpec
  | .read _ bound => .read name bound
  | .write _ bound => .write name bound
  | .save spec => .save { spec with name }
  | .probe spec => .probe { spec with name }

/-- The operation of a read or a write with its checks. -/
def bound? : MethodSpec → Option BoundOperation
  | .read _ bound => some bound
  | .write _ bound => some bound
  | _ => none

/-- The name that a method asks for: that of its operation, or the one it has. -/
def baseName (spec : MethodSpec) : String :=
  (spec.bound?.map (·.operation.publicName)).getD spec.name

/-- The number of arguments that callers give, the target among them. -/
def argumentCount : MethodSpec → Nat
  | .read _ bound => bound.operation.publicParameters.length
  | .write _ bound => bound.operation.publicParameters.length + 1
  | .save spec => spec.parameters.length + 1
  | .probe _ => 0

/-- The place of a method in the order of naming. -/
def order : MethodSpec → Nat
  | .read _ bound => bound.operation.index
  | .write _ bound => bound.operation.index
  | .save spec => spec.order
  | .probe spec => spec.wraps

/-- Whether a method is a save. -/
def isSave : MethodSpec → Bool
  | .save _ => true
  | _ => false

/-- Whether a method is a probe. -/
def isProbe : MethodSpec → Bool
  | .probe _ => true
  | _ => false

/-- A read or a write as JSON. -/
def operationRecord (name : String) (bound : BoundOperation) : Json :=
  record [("name", encode name), ("bound", encode bound)]

/-- Reads the name and the operation of a read or a write. -/
def operationRecord? (json : Json) : Option (String × BoundOperation) := do
  match ← slots? ["name", "bound"] json with
  | [name, bound] => return (← required name, ← required bound)
  | _ => none

instance : Form MethodSpec where
  encode
    | .read name bound => alternative "Read" (operationRecord name bound)
    | .write name bound => alternative "Write" (operationRecord name bound)
    | .save spec => alternative "Save" (encode spec)
    | .probe spec => alternative "Can" (encode spec)
  decode json :=
    match alternative? json with
    | some ("Read", some payload) =>
      (operationRecord? payload).map fun (name, bound) => .read name bound
    | some ("Write", some payload) =>
      (operationRecord? payload).map fun (name, bound) => .write name bound
    | some ("Save", some payload) => (decode payload).map .save
    | some ("Can", some payload) => (decode payload).map .probe
    | _ => none

end MethodSpec

end DomainFactory
