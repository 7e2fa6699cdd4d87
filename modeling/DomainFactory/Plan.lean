import DomainFactory.Method.Spec
import DomainFactory.Paths
import DomainFactory.Text.Snake

/-!
# Plans

A plan is all that a factory of one type offers: its methods with their names, parameters and call
paths, the checks they are bound to, and the identities under which methods are called from another
side. A plan stands alone: methods refer to each other by name.
-/
namespace DomainFactory

open Json

/-- The role of a planned method. -/
inductive MethodRole where
  /-- An operation that needs no instance. -/
  | read
  /-- An operation on a target. -/
  | write
  /-- A choice among writes. -/
  | save
  /-- A question whether a method is allowed. -/
  | probe
deriving DecidableEq, Repr, Inhabited

namespace MethodRole

/-- The name of a role in JSON. -/
def name : MethodRole → String
  | .read => "Read"
  | .write => "Write"
  | .save => "Save"
  | .probe => "Probe"

instance : Form MethodRole where
  encode role := .string role.name
  decode := named? name [.read, .write, .save, .probe]

end MethodRole

/-- What a planned method does. -/
inductive MethodBody where
  /-- Runs an operation behind its checks. -/
  | run (operation : Operation) (bindings : List Binding)
  /-- Calls the write that the state of the target asks for, by name. -/
  | save (insert update delete tryName : Option String)
  /-- Asks the checks of a method that do not need the target. -/
  | probe (wraps : String) (operation : Operation) (bindings : List Binding)
deriving DecidableEq, Repr

namespace MethodBody

instance : Form MethodBody where
  encode
    | .run operation bindings =>
      alternative "Operation"
        (record [("operation", encode operation), ("bindings", encode bindings)])
    | .save insert update delete tryName =>
      alternative "Save"
        (record [("insert", encode insert), ("update", encode update),
          ("delete", encode delete), ("try_name", encode tryName)])
    | .probe wraps operation bindings =>
      alternative "Probe"
        (record [("wraps", encode wraps), ("operation", encode operation),
          ("bindings", encode bindings)])
  decode json :=
    match alternative? json with
    | some ("Operation", some payload) => do
      match ← slots? ["operation", "bindings"] payload with
      | [operation, bindings] => return .run (← required operation) (← required bindings)
      | _ => none
    | some ("Save", some payload) => do
      match ← slots? ["insert", "update", "delete", "try_name"] payload with
      | [insert, update, delete, tryName] =>
        return .save (← nullable insert) (← nullable update) (← nullable delete)
          (← nullable tryName)
      | _ => none
    | some ("Probe", some payload) => do
      match ← slots? ["wraps", "operation", "bindings"] payload with
      | [wraps, operation, bindings] =>
        return .probe (← required wraps) (← required operation) (← required bindings)
      | _ => none
    | _ => none

end MethodBody

/-- A method of a planned factory. -/
structure PlannedMethod where
  /-- Its name. -/
  name : String
  /-- Its role. -/
  role : MethodRole
  /-- The ways to call it. -/
  paths : Paths
  /-- The parameters that callers see behind the target. -/
  parameters : List Parameter
  /-- What a call from another side carries: the target of a write or a save, then the
  parameters. -/
  payload : List Parameter
  /-- What it does. -/
  body : MethodBody
deriving DecidableEq, Repr

namespace PlannedMethod

/-- Whether the method runs on another side than its caller. -/
def isRemote (method : PlannedMethod) : Bool := method.paths.includes .remote

/-- Whether callers give a target first. -/
def takesTarget (method : PlannedMethod) : Bool :=
  method.role == .write || method.role == .save

/-- The operation of a read, a write or a probe. -/
def operation? (method : PlannedMethod) : Option Operation :=
  match method.body with
  | .run operation _ => some operation
  | .probe _ operation _ => some operation
  | .save .. => none

/-- The bindings of a read, a write or a probe. -/
def bindings (method : PlannedMethod) : List Binding :=
  match method.body with
  | .run _ bindings => bindings
  | .probe _ _ bindings => bindings
  | .save .. => []

instance : Form PlannedMethod where
  encode method :=
    record [("name", encode method.name), ("role", encode method.role),
      ("paths", encode method.paths), ("params", encode method.parameters),
      ("remote_payload", encode method.payload), ("body", encode method.body)]
  decode json := do
    match ← slots? ["name", "role", "paths", "params", "remote_payload", "body"] json with
    | [name, role, paths, parameters, payload, body] =>
      return {
        name := ← required name
        role := ← required role
        paths := ← required paths
        parameters := ← required parameters
        payload := ← required payload
        body := ← required body }
    | _ => none

end PlannedMethod

/-- A method that can be called from another side. -/
structure DispatchEntry where
  /-- The identity under which it is called. -/
  id : String
  /-- Its name. -/
  method : String
deriving DecidableEq, Repr

namespace DispatchEntry

instance : Form DispatchEntry where
  encode entry := record [("id", encode entry.id), ("method", encode entry.method)]
  decode json := do
    match ← slots? ["id", "method"] json with
    | [id, method] => return ⟨← required id, ← required method⟩
    | _ => none

end DispatchEntry

/-- A way to build a factory. -/
inductive Construction where
  /-- Every method runs on the side of the caller. -/
  | here
  /-- Remote methods are called on another side. -/
  | remote
deriving DecidableEq, Repr

namespace Construction

/-- The name of a construction in JSON. -/
def name : Construction → String
  | .here => "Local"
  | .remote => "Remote"

instance : Form Construction where
  encode construction := .string construction.name
  decode := named? name [.here, .remote]

end Construction

/-- The factory of one type. -/
structure Plan where
  /-- The type. -/
  typeName : String
  /-- The name of the factory. -/
  factoryName : String
  /-- Whether instances track their save state. -/
  saveState : Bool
  /-- The methods in order. -/
  methods : List PlannedMethod
  /-- The checks that bindings refer to by position. -/
  checks : List Check
  /-- The methods that can be called from another side. -/
  dispatch : List DispatchEntry
  /-- The ways to build the factory. -/
  constructions : List Construction
  /-- The name of the function that registers the factory. -/
  registrationHook : String
  /-- The problems met on the way. -/
  diagnostics : List Diagnostic
deriving DecidableEq, Repr

namespace Plan

/-- The identity of a method of a type. -/
def operationId (typeName method : String) : String := typeName ++ "::" ++ method

/-- A read or a write, planned. -/
def operationMethod (name : String) (role : MethodRole) (bound : BoundOperation) :
    PlannedMethod :=
  let operation := bound.operation
  { name
    role
    paths := (Paths.entry.union .here).addWhen operation.remote .remote
    parameters := operation.publicParameters
    payload := operation.parameters.take operation.targetCount ++ operation.publicParameters
    body := .run operation bound.bindings }

/-- The name of the method at a position, when there is a position. -/
def nameAt (specs : List MethodSpec) (position : Option Nat) : Option String :=
  position.map fun position => (specs[position]?.map MethodSpec.name).getD ""

/-- Whether the operation of the method at a position is remote. -/
def isRemoteAt (specs : List MethodSpec) (position : Nat) : Bool :=
  ((specs[position]?).bind MethodSpec.bound?).any (·.operation.remote)

/-- A method, planned among the methods of its factory. -/
def methodOf (typeName : String) (specs : List MethodSpec) : MethodSpec → PlannedMethod
  | .read name bound => operationMethod name .read bound
  | .write name bound => operationMethod name .write bound
  | .save save =>
    let remote :=
      ([save.insert, save.update, save.delete].filterMap id).any (isRemoteAt specs)
    { name := save.name
      role := .save
      paths := ((Paths.entry.union .here).addWhen save.tryName.isSome .attempt).addWhen
        remote .remote
      parameters := save.parameters
      payload := ⟨"target", typeName, .selfReference⟩ :: save.parameters
      body := .save (nameAt specs save.insert) (nameAt specs save.update)
        (nameAt specs save.delete) save.tryName }
  | .probe probe =>
    let parameters := probe.operation.publicParameters
    { name := probe.name
      role := .probe
      paths := Paths.probe.addWhen probe.remote .remote
      parameters
      payload := parameters
      body := .probe ((nameAt specs (some probe.wraps)).getD "") probe.operation
        probe.bindings }

/-- Lays out the named methods of a type. -/
def build (typeName : String) (saveState : Bool) (specs : List MethodSpec)
    (checks : List Check) (diagnostics : List Diagnostic) : Plan :=
  let methods := specs.map (methodOf typeName specs)
  let called := methods.filter fun method => method.isRemote && method.role != .save
  let dispatch : List DispatchEntry := called.map fun method =>
    ⟨operationId typeName method.name, method.name⟩
  { typeName
    factoryName := typeName ++ "Factory"
    saveState
    methods
    checks
    dispatch
    constructions := if dispatch.isEmpty then [.here] else [.here, .remote]
    registrationHook := "register_" ++ Text.snakeCase typeName ++ "_factory"
    diagnostics }

/-- The method with a name. -/
def method? (plan : Plan) (name : String) : Option PlannedMethod :=
  plan.methods.find? (·.name == name)

/-- Whether a factory can be built in a way. -/
def supports (plan : Plan) (construction : Construction) : Bool :=
  plan.constructions.contains construction

instance : Form Plan where
  encode plan :=
    record [("type_name", encode plan.typeName), ("factory_name", encode plan.factoryName),
      ("save_state", encode plan.saveState), ("methods", encode plan.methods),
      ("authorizations", encode plan.checks), ("dispatch", encode plan.dispatch),
      ("constructions", encode plan.constructions),
      ("registration_hook", encode plan.registrationHook),
      ("diagnostics", encode plan.diagnostics)]
  decode json := do
    match ← slots? ["type_name", "factory_name", "save_state", "methods", "authorizations",
        "dispatch", "constructions", "registration_hook", "diagnostics"] json with
    | [typeName, factoryName, saveState, methods, checks, dispatch, constructions,
        registrationHook, diagnostics] =>
      return {
        typeName := ← required typeName
        factoryName := ← required factoryName
        saveState := ← required saveState
        methods := ← required methods
        checks := ← required checks
        dispatch := ← required dispatch
        constructions := ← required constructions
        registrationHook := ← required registrationHook
        diagnostics := ← required diagnostics }
    | _ => none

end Plan

end DomainFactory
