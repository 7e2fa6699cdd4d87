import DomainFactory.Run

/-!
# Hosts

A host is one side with the code that a factory runs there: handlers and checks by key, a provider
of services by type, and hooks around every handler. What the code does may depend on everything
that has happened before.
-/
namespace DomainFactory

variable {σ : Type}

/-- The code behind an operation. -/
abbrev Handler (σ : Type) := Journal σ → Invocation σ → Answer Completion

/-- The code behind a check. -/
abbrev Checker (σ : Type) := Journal σ → Question σ → Answer Verdict

/-- The code that finds the service for a type. -/
abbrev Provider (σ : Type) := Journal σ → String → Except Fault σ

/-- The code that carries a request to another side and brings the response. -/
abbrev Dispatcher (σ : Type) := Request → Run σ Fault Response

/-- The code around every handler. -/
structure Hooks (σ : Type) where
  /-- Runs before the handler. -/
  before : Journal σ → Operation → Option Entity → Answer Unit
  /-- Runs after the handler. -/
  after : Journal σ → Operation → Option Output → Answer Unit

namespace Hooks

/-- The hooks that do nothing. -/
def idle : Hooks σ where
  before _ _ _ := .ofResult (.ok ())
  after _ _ _ := .ofResult (.ok ())

end Hooks

/-- A side with the code that runs there. -/
structure Host (σ : Type) where
  /-- The side. -/
  side : Side
  /-- The handlers by key. -/
  handler? : String → Option (Handler σ)
  /-- The checks by key. -/
  checker? : String → Option (Checker σ)
  /-- The provider of services. -/
  provider : Provider σ
  /-- The hooks. -/
  hooks : Hooks σ

namespace Host

/-- Looks up the service for a type. -/
def resolve (host : Host σ) (type : String) : Run σ Fault σ :=
  .consult host.side (.resolve type) (fun _ => true) fun past =>
    .ofResult (host.provider past type)

/-- The services for some parameters, by name. -/
def resolveAll (host : Host σ) (parameters : List Parameter) : Run σ Fault (Keyed σ) :=
  parameters.foldlM (fun services parameter => do
    let service ← host.resolve parameter.type
    return services.insert parameter.name service) .empty

/-- Runs the hook before a handler. -/
def before (host : Host σ) (operation : Operation) (target : Option Entity) :
    Run σ Fault Unit :=
  .consult host.side (.before operation target) (fun _ => true) fun past =>
    host.hooks.before past operation target

/-- Runs a handler. -/
def handle (host : Host σ) (key : String) (handler : Handler σ) (invocation : Invocation σ) :
    Run σ Fault Completion :=
  .consult host.side (.handler key invocation) (fun _ => true) fun past => handler past invocation

/-- Runs the hook after a handler. -/
def after (host : Host σ) (operation : Operation) (output : Option Output) :
    Run σ Fault Unit :=
  .consult host.side (.after operation output) (fun _ => true) fun past =>
    host.hooks.after past operation output

end Host

end DomainFactory
