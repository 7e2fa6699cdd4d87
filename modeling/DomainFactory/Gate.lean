import DomainFactory.Binding
import DomainFactory.Host

/-!
# Gates

The gate of an operation asks the bound checks in order and stops at the first denial. Where each
argument of a check comes from is settled when the gate is built.
-/
namespace DomainFactory

variable {σ : Type}

/-- Where an argument of a check is found at a call. -/
inductive Slot where
  /-- It is the target, which travels apart. -/
  | target
  /-- It is the argument of the caller at a position. -/
  | caller (position : Nat)
  /-- It is injected, and travels with the services. -/
  | injected
deriving DecidableEq, Repr

namespace Slot

/-- The position among the arguments of the caller of the parameter of an operation at a position;
none for the target and for what is injected. -/
def callerPosition? (operation : Operation) (position : Nat) : Option Nat :=
  match operation.parameters[position]? with
  | none => none
  | some parameter =>
    if position < operation.targetCount || parameter.isInjected then none
    else
      some (((operation.parameters.take position).drop operation.targetCount).countP
        (!·.isInjected))

/-- The slot of a source. -/
def ofSource (operation : Operation) : ArgumentSource → Slot
  | .target => .target
  | .parameter position =>
    match callerPosition? operation position with
    | some position => .caller position
    | none => .injected

/-- The argument for a slot, given the arguments of the caller. -/
def argument (arguments : List Value) : Slot → Value
  | .caller position => .ofOption arguments[position]?
  | .target | .injected => .null

end Slot

/-- A check that gates an operation. -/
structure GateCheck (σ : Type) where
  /-- The key under which it is registered. -/
  key : String
  /-- Where its arguments are found. -/
  slots : List Slot
  /-- Its code. -/
  checker : Checker σ

namespace GateCheck

/-- Finds the check that a binding refers to among the checks of a plan. -/
def ofBinding (host : Host σ) (checks : List Check) (operation : Operation)
    (binding : Binding) : Except Failure (GateCheck σ) :=
  match checks[binding.check]? with
  | none => .error (.missingCheck ("#" ++ toString binding.check))
  | some check =>
    match host.checker? check.key with
    | none => .error (.missingCheck check.key)
    | some checker => .ok ⟨check.key, binding.sources.map (Slot.ofSource operation), checker⟩

/-- What a check is asked at a call. -/
def question (check : GateCheck σ) (kind : Kind) (call : Call) (services : Keyed σ) :
    Question σ where
  key := check.key
  kind := kind
  target := if check.slots.contains .target then call.target else none
  arguments := check.slots.map (Slot.argument call.arguments)
  services := services

/-- Asks a check. -/
def ask (check : GateCheck σ) (side : Side) (question : Question σ) : Run σ Fault Verdict :=
  .consult side (.check question) (·.allowed) fun past => check.checker past question

end GateCheck

/-- The checks of an operation. -/
structure Gate (σ : Type) where
  /-- The side on which they run. -/
  side : Side
  /-- The kind of the operation. -/
  kind : Kind
  /-- The checks in order. -/
  checks : List (GateCheck σ)

namespace Gate

/-- The gate of an operation with its bindings to the checks of a plan. -/
def build (host : Host σ) (checks : List Check) (operation : Operation)
    (bindings : List Binding) : Except Failure (Gate σ) := do
  let checks ← bindings.mapM (GateCheck.ofBinding host checks operation)
  return ⟨host.side, operation.kind, checks⟩

/-- Asks checks in order, up to the first denial. -/
def askAll (side : Side) (kind : Kind) (call : Call) (services : Keyed σ) :
    List (GateCheck σ) → Run σ Fault Verdict
  | [] => return .allow
  | check :: checks => do
    let verdict ← check.ask side (check.question kind call services)
    if verdict.allowed then askAll side kind call services checks else return verdict

/-- The verdict of a gate: leave when every check gives it, or the first denial. -/
def evaluate (gate : Gate σ) (call : Call) (services : Keyed σ) : Run σ Fault Verdict :=
  askAll gate.side gate.kind call services gate.checks

end Gate

end DomainFactory
