import DomainFactory.Plan

/-!
# Failures

A factory refuses calls that break its contract, and passes on what the code it runs raises. Such
code raises faults: a text of its own, or a failure of another factory. A fault that a factory meets
while running code counts as that code's failure; a fault that comes back from another side is
taken for what it is.
-/
namespace DomainFactory

namespace MethodRole

/-- The word for a role in messages. -/
def text : MethodRole → String
  | .read => "read"
  | .write => "write"
  | .save => "save"
  | .probe => "probe"

end MethodRole

/-- Why a call gives no result. -/
inductive Failure where
  /-- A check denied the call. -/
  | notAuthorized (operation : String) (message : Option String)
  /-- A save has no write for the state of its target. -/
  | notImplemented (operation : String) (branch : SaveBranch)
  /-- No planned method has the name. -/
  | unknownMethod (typeName method : String)
  /-- The method has another role than the call; a method without an operation cannot be run when
  no role is expected. -/
  | wrongKind (method : String) (expected : Option MethodRole) (actual : MethodRole)
  /-- The number of arguments is not the planned one. -/
  | arity (method : String) (expected actual : Nat)
  /-- An operation has no handler. -/
  | missingHandler (key : String)
  /-- A bound check is not registered. -/
  | missingCheck (key : String)
  /-- Remote methods have nothing to carry their calls. -/
  | noDispatcher (typeName : String)
  /-- The serving side does not know the identity of an operation. -/
  | unknownOperation (id : String)
  /-- A reply does not fit the call. -/
  | shapeMismatch (method : String)
  /-- A call from another side took too long. -/
  | timeout (milliseconds : Nat)
  /-- Code run by the factory raised an error of its own. -/
  | raised (message : String)
  /-- Code run by the factory raised the failure of another call. -/
  | wrapped (cause : Failure)
deriving DecidableEq, Repr

namespace Failure

/-- The explanation of a failure. -/
def message : Failure → String
  | .notAuthorized operation none => operation ++ " is not authorized"
  | .notAuthorized operation (some reason) => operation ++ " is not authorized: " ++ reason
  | .notImplemented operation branch =>
    operation ++ " has no " ++ branch.kind.text ++ " operation to route to"
  | .unknownMethod typeName method => "factory for " ++ typeName ++ " has no method " ++ method
  | .wrongKind method expected actual =>
    method ++ " is a " ++ actual.text ++ " method, not a " ++
      (expected.map MethodRole.text).getD "operation" ++ " method"
  | .arity method expected actual =>
    method ++ " takes " ++ toString expected ++ " arguments, got " ++ toString actual
  | .missingHandler key => "no handler registered for " ++ key
  | .missingCheck key => "no authorization check registered for " ++ key
  | .noDispatcher typeName => typeName ++ " has cross-process operations but no remote dispatcher"
  | .unknownOperation id => "unknown operation: " ++ id
  | .shapeMismatch method => method ++ " received a reply of the wrong shape"
  | .timeout milliseconds => "dispatch timed out after " ++ toString milliseconds ++ "ms"
  | .raised message => message
  | .wrapped cause => cause.message

end Failure

/-- What code run by a factory raises. -/
inductive Fault where
  /-- An error of its own. -/
  | plain (message : String)
  /-- The failure of another call. -/
  | carried (failure : Failure)
deriving DecidableEq, Repr

namespace Fault

/-- A fault met while running code: the failure of that code. -/
def asFailure : Fault → Failure
  | .plain message => .raised message
  | .carried failure => .wrapped failure

/-- A fault that came back from another side: a failure is recovered as it was. -/
def recovered : Fault → Failure
  | .plain message => .raised message
  | .carried failure => failure

end Fault

end DomainFactory
