import DomainFactory.Mask
import DomainFactory.ReturnShape

/-!
# Operations and checks

An operation is one kind of one declared method of a domain type; a check is one declared method
of a policy type. Both have parameters with roles: what callers give, what is injected where the
method runs, and references to the type itself. The first parameter of a write is its target.
-/
namespace DomainFactory

open Json

/-- How a parameter gets its argument. -/
inductive Role where
  /-- From the caller. -/
  | business
  /-- From the services of the side that runs the method. -/
  | injected
  /-- A reference to an instance of the type itself. -/
  | selfReference
deriving DecidableEq, Repr, Inhabited

namespace Role

/-- The name of a role in JSON. -/
def name : Role → String
  | .business => "Business"
  | .injected => "Injected"
  | .selfReference => "SelfReference"

instance : Form Role where
  encode role := .string role.name
  decode := named? name [.business, .injected, .selfReference]

end Role

/-- A parameter of an operation or a check. -/
structure Parameter where
  /-- Its name. -/
  name : String
  /-- The canonical text of its type. -/
  type : String
  /-- How it gets its argument. -/
  role : Role
deriving DecidableEq, Repr, Inhabited

namespace Parameter

/-- Whether the argument is injected. -/
def isInjected (parameter : Parameter) : Bool := parameter.role == .injected

/-- Whether the parameter refers to an instance of the type itself. -/
def isSelfReference (parameter : Parameter) : Bool := parameter.role == .selfReference

instance : Form Parameter where
  encode parameter :=
    record [("name", encode parameter.name), ("ty", encode parameter.type),
      ("role", encode parameter.role)]
  decode json := do
    match ← slots? ["name", "ty", "role"] json with
    | [name, type, role] => return ⟨← required name, ← required type, ← required role⟩
    | _ => none

end Parameter

namespace ReturnShape

/-- The name of a shape in JSON. -/
def name : ReturnShape → String
  | .value => "Value"
  | .success => "Success"
  | .awaitable => "Awaitable"
  | .awaitableSuccess => "AwaitableSuccess"

instance : Form ReturnShape where
  encode shape := .string shape.name
  decode := named? name [.value, .success, .awaitable, .awaitableSuccess]

end ReturnShape

/-- One kind of one declared method of a domain type. -/
structure Operation where
  /-- What the operation does. -/
  kind : Kind
  /-- The type that declares the method: the type itself or one of its bases. -/
  declaringType : String
  /-- The declared name. -/
  method : String
  /-- The key under which its handler is registered. -/
  handler : String
  /-- The name its factory method asks for. -/
  publicName : String
  /-- What it returns. -/
  shape : ReturnShape
  /-- Whether it runs on another side than its caller. -/
  remote : Bool
  /-- Its parameters in declaration order; those of a write begin with its target. -/
  parameters : List Parameter
  /-- The position of its method in the order of discovery. -/
  index : Nat
deriving DecidableEq, Repr, Inhabited

namespace Operation

/-- Whether the operation works on an instance. -/
def isWrite (operation : Operation) : Bool := operation.kind.isWrite

/-- How many parameters in front stand for the target. -/
def targetCount (operation : Operation) : Nat := if operation.isWrite then 1 else 0

/-- The parameters that callers see: all but the target of a write and what is injected. -/
def publicParameters (operation : Operation) : List Parameter :=
  (operation.parameters.drop operation.targetCount).filter (!·.isInjected)

/-- The parameters that are injected. -/
def injectedParameters (operation : Operation) : List Parameter :=
  operation.parameters.filter (·.isInjected)

/-- The types of the parameters that callers see. -/
def publicTypes (operation : Operation) : List String := operation.publicParameters.map (·.type)

instance : Form Operation where
  encode operation :=
    record [("kind", encode operation.kind), ("declaring_type", encode operation.declaringType),
      ("method", encode operation.method), ("handler", encode operation.handler),
      ("public_name", encode operation.publicName), ("shape", encode operation.shape),
      ("remote", encode operation.remote), ("params", encode operation.parameters),
      ("index", encode operation.index)]
  decode json := do
    match ← slots? ["kind", "declaring_type", "method", "handler", "public_name", "shape",
        "remote", "params", "index"] json with
    | [kind, declaringType, method, handler, publicName, shape, remote, parameters, index] =>
      return {
        kind := ← required kind
        declaringType := ← required declaringType
        method := ← required method
        handler := ← required handler
        publicName := ← required publicName
        shape := ← required shape
        remote := ← required remote
        parameters := ← required parameters
        index := ← required index }
    | _ => none

end Operation

/-- One declared method of a policy type. -/
structure Check where
  /-- The operations it governs. -/
  mask : Mask
  /-- The type that declares the method: the policy or one of its bases. -/
  declaringType : String
  /-- The declared name. -/
  method : String
  /-- Its parameters in declaration order. -/
  parameters : List Parameter
  /-- Whether it runs on another side than its caller. -/
  remote : Bool
  /-- Whether its verdict comes after waiting. -/
  awaitable : Bool
deriving DecidableEq, Repr, Inhabited

namespace Check

/-- The key under which the check is registered. -/
def key (check : Check) : String := check.declaringType ++ "::" ++ check.method

instance : Form Check where
  encode check :=
    record [("operations", encode check.mask), ("declaring_type", encode check.declaringType),
      ("method", encode check.method), ("params", encode check.parameters),
      ("remote", encode check.remote), ("awaitable", encode check.awaitable)]
  decode json := do
    match ← slots? ["operations", "declaring_type", "method", "params", "remote",
        "awaitable"] json with
    | [mask, declaringType, method, parameters, remote, awaitable] =>
      return {
        mask := ← required mask
        declaringType := ← required declaringType
        method := ← required method
        parameters := ← required parameters
        remote := ← required remote
        awaitable := ← required awaitable }
    | _ => none

end Check

end DomainFactory
