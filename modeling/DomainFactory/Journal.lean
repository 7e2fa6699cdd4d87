import DomainFactory.Message
import DomainFactory.Operation

/-!
# Journals

A factory runs code it does not own: providers of services, checks, hooks, handlers, and the code
that carries requests to another side. A journal lists, oldest first, each such callback with its
input when it begins and whether the run may go on when it ends, and what the code notes in between.
The type of services is a parameter: a factory hands services on and never looks into them.
-/
namespace DomainFactory

/-- Where code runs. -/
inductive Side where
  /-- Where calls come from. -/
  | client
  /-- Where requests are served. -/
  | server
deriving DecidableEq, Repr

/-- The input of a handler. -/
structure Invocation (σ : Type) where
  /-- The instance to work on: fresh for a create or a fetch, the target for a write. -/
  target : Option Entity
  /-- The arguments of the caller. -/
  arguments : List Value
  /-- The injected services by parameter name. -/
  services : Keyed σ

namespace Invocation

variable {σ : Type}

/-- The argument at a position; null when there is none. -/
def argument (invocation : Invocation σ) (position : Nat) : Value :=
  .ofOption invocation.arguments[position]?

end Invocation

/-- The result of a handler. -/
structure Completion where
  /-- The instance after the work. -/
  target : Option Entity
  /-- What the handler returns; false means that nothing was found when success is reported. -/
  value : Value
deriving Repr

/-- The input of a check. -/
structure Question (σ : Type) where
  /-- The key under which the check is registered. -/
  key : String
  /-- The kind of the gated operation. -/
  kind : Kind
  /-- The target, when the check asks for it. -/
  target : Option Entity
  /-- An argument for each parameter of the check; null stands for the target and for what is
  injected. -/
  arguments : List Value
  /-- The services injected into the gated operation. -/
  services : Keyed σ

/-- A call of code that a factory runs, with its input. -/
inductive Callback (σ : Type) where
  /-- Looks up the service for a type. -/
  | resolve (type : String)
  /-- Asks a check. -/
  | check (question : Question σ)
  /-- Runs the hook before a handler. -/
  | before (operation : Operation) (target : Option Entity)
  /-- Runs the handler with a key. -/
  | handler (key : String) (invocation : Invocation σ)
  /-- Runs the hook after a handler. -/
  | after (operation : Operation) (output : Option Output)
  /-- Hands a request to the dispatcher. -/
  | dispatch (request : Request)

/-- A thing that happens during a run. -/
inductive Event (σ : Type) where
  /-- A callback begins. -/
  | began (callback : Callback σ)
  /-- A callback ends, and the run may go on: no fault was raised, and no check denied. -/
  | passed (callback : Callback σ)
  /-- A callback ends, and the run stops. -/
  | stopped (callback : Callback σ)
  /-- Running code notes a text. -/
  | noted (text : String)

/-- An event with the side on which it happens. -/
structure Entry (σ : Type) where
  /-- Where it happens. -/
  side : Side
  /-- What happens. -/
  event : Event σ

/-- What has happened, oldest first. -/
abbrev Journal (σ : Type) := List (Entry σ)

namespace Entry

variable {σ : Type}

/-- Whether a side hands a request for an operation to its dispatcher. -/
def sends (side : Side) (operation : String) (entry : Entry σ) : Bool :=
  match entry.event with
  | .began (.dispatch request) => entry.side == side && request.operation == operation
  | _ => false

end Entry

end DomainFactory
