import DomainFactory.Gate

/-!
# Paths

A path is a way to run one method: on the side of a host behind its gate, as a probe of that gate,
or by a request to another side. Callers do not see which one they take.
-/
namespace DomainFactory

variable {σ : Type}

namespace Operation

/-- The instance that the handler works on: a fresh one for a create or a fetch, the target for a
write. -/
def receiver (operation : Operation) (typeName : String) (target : Option Entity) :
    Except Failure (Option Entity) :=
  match operation.kind with
  | .create | .fetch => .ok (some (.new typeName))
  | .execute => .ok none
  | .insert | .update | .delete =>
    match target with
    | some target => .ok (some target)
    | none => .error (.arity operation.publicName 1 0)

/-- The instance after the operation, when instances track their save state: stored after a fetch
or a write, and new again after a removal. -/
def settle (operation : Operation) (entity : Entity) : Entity :=
  match operation.kind with
  | .fetch | .insert | .update => entity.markOld
  | .delete => entity.markNew
  | .create | .execute => entity

/-- What the operation hands back. An operation that reports success and returns false found
nothing. -/
def output? (operation : Operation) (saveState : Bool) (completion : Completion) :
    Option Output :=
  if operation.shape.isSuccess && completion.value.asBool? == some false then none
  else if operation.kind == .execute then some (.computed completion.value)
  else
    match completion.target with
    | none => some (.computed completion.value)
    | some target => some (.produced (if saveState then operation.settle target else target))

end Operation

/-- A way to run a method. -/
abbrev Path (σ : Type) := Call → Run σ Failure Reply

namespace Run

/-- The run of code whose faults are the failure of the call. -/
def running {α : Type} (run : Run σ Fault α) : Run σ Failure α := run.mapError Fault.asFailure

end Run

namespace Path

/-- Runs an operation on the side of a host: finds its services, passes its gate, and runs the
handler between the hooks. -/
def execute (host : Host σ) (typeName : String) (saveState : Bool) (operation : Operation)
    (handler : Handler σ) (gate : Gate σ) : Path σ := fun call => do
  let services ← (host.resolveAll operation.injectedParameters).running
  let verdict ← (gate.evaluate call services).running
  if !verdict.allowed then return .denied verdict
  let target ← .ofExcept (operation.receiver typeName call.target)
  (host.before operation target).running
  let completion ← (host.handle operation.handler handler
    ⟨target, call.arguments, services⟩).running
  let output := operation.output? saveState completion
  (host.after operation output).running
  return .completed output

/-- Asks the gate of an operation and leaves it at that. -/
def probe (host : Host σ) (operation : Operation) (gate : Gate σ) : Path σ := fun call => do
  let services ← (host.resolveAll operation.injectedParameters).running
  let verdict ← (gate.evaluate ⟨none, call.arguments⟩ services).running
  return .probed verdict

/-- Sends the call to another side. Requests for an operation are numbered from one by those that
the side has sent before; that is how a factory numbers its own as long as no other factory of the
side sends requests for the operation. A failure that comes back is the failure of the call. -/
def remote (side : Side) (id : String) (dispatcher : Dispatcher σ) : Path σ := fun call => do
  let past ← Run.journal
  let request : Request := {
    number := .ofNat (past.countP (Entry.sends side id) + 1)
    operation := id
    target := call.target
    arguments := call.arguments }
  let response ← Run.mapError Fault.recovered
    (.enclose side (.dispatch request) (fun _ => true) (dispatcher request))
  return response.reply

end Path

end DomainFactory
