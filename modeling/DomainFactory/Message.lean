import DomainFactory.Entity

/-!
# Messages between sides

What a call carries to the side that runs a method, and what comes back: the outcome of the
operation, a denial, or the verdict of a probe. Requests and responses belong together by number.
-/
namespace DomainFactory

open Json

/-- The outcome of a check. -/
structure Verdict where
  /-- Whether the call may go on. -/
  allowed : Bool
  /-- The reason, usually of a denial. -/
  message : Option String
deriving DecidableEq, Repr

namespace Verdict

/-- Leave without a reason. -/
def allow : Verdict := ⟨true, none⟩

instance : Form Verdict where
  encode verdict :=
    record [("allowed", encode verdict.allowed), ("message", encode verdict.message)]
  decode json := do
    match ← slots? ["allowed", "message"] json with
    | [allowed, message] => return ⟨← required allowed, ← nullable message⟩
    | _ => none

end Verdict

/-- What a completed operation hands back. -/
inductive Output where
  /-- An instance: created, fetched or written. -/
  | produced (entity : Entity)
  /-- The result of a computation. -/
  | computed (value : Value)
deriving Repr

namespace Output

/-- The instance, when it is one. -/
def instance? : Output → Option Entity
  | .produced entity => some entity
  | .computed _ => none

/-- The value, when it is one. -/
def value? : Output → Option Value
  | .computed value => some value
  | .produced _ => none

instance : Form Output where
  encode
    | .produced entity => alternative "Instance" (encode entity)
    | .computed value => alternative "Value" (encode value)
  decode json :=
    match alternative? json with
    | some ("Instance", some payload) => (decode payload).map .produced
    | some ("Value", some payload) => (decode payload).map .computed
    | _ => none

end Output

/-- The result of running a method. -/
inductive Reply where
  /-- The operation ran; without an output nothing was found or nothing was to do. -/
  | completed (output : Option Output)
  /-- A check denied the call, and the operation did not run. -/
  | denied (verdict : Verdict)
  /-- The verdict of a probe. -/
  | probed (verdict : Verdict)
deriving Repr

namespace Reply

instance : Form Reply where
  encode
    | .completed output => alternative "Completed" (encode output)
    | .denied verdict => alternative "Denied" (encode verdict)
    | .probed verdict => alternative "Probed" (encode verdict)
  decode json :=
    match alternative? json with
    | some ("Completed", some payload) => (decode payload).map .completed
    | some ("Denied", some payload) => (decode payload).map .denied
    | some ("Probed", some payload) => (decode payload).map .probed
    | _ => none

end Reply

/-- The input of a method on the side that runs it. -/
structure Call where
  /-- The target of a write. -/
  target : Option Entity
  /-- The arguments of callers, without those that are injected. -/
  arguments : List Value
deriving Repr

namespace Call

instance : Form Call where
  encode call :=
    record [("target", encode call.target), ("args", encode call.arguments)]
  decode json := do
    match ← slots? ["target", "args"] json with
    | [target, arguments] => return ⟨← nullable target, ← required arguments⟩
    | _ => none

end Call

/-- A call of a method on another side. -/
structure Request where
  /-- The number by which its response is known. -/
  number : UInt64
  /-- The identity of the method. -/
  operation : String
  /-- The target of a write. -/
  target : Option Entity
  /-- The arguments of the caller. -/
  arguments : List Value
deriving Repr

namespace Request

/-- The call that a request carries. -/
def call (request : Request) : Call := ⟨request.target, request.arguments⟩

instance : Form Request where
  encode request :=
    record [("call_id", encode request.number), ("operation", encode request.operation),
      ("target", encode request.target), ("args", encode request.arguments)]
  decode json := do
    match ← slots? ["call_id", "operation", "target", "args"] json with
    | [number, operation, target, arguments] =>
      return {
        number := ← required number
        operation := ← required operation
        target := ← nullable target
        arguments := ← required arguments }
    | _ => none

end Request

/-- The answer to a request. -/
structure Response where
  /-- The number of the request. -/
  number : UInt64
  /-- The result of the method. -/
  reply : Reply
deriving Repr

namespace Response

instance : Form Response where
  encode response :=
    record [("call_id", encode response.number), ("reply", encode response.reply)]
  decode json := do
    match ← slots? ["call_id", "reply"] json with
    | [number, reply] => return ⟨← required number, ← required reply⟩
    | _ => none

end Response

end DomainFactory
