import DomainFactory.DispatchTable
import DomainFactory.ServiceRegistry
import DomainFactory.Text.Quoted

/-!
# Factories

A factory binds every method of a plan to a path when it is built. A local factory runs all of them
on the side of its host; a remote factory sends the calls of remote methods to a dispatcher. Saves
have no path of their own: they call one of the writes by the state of their target.
-/
namespace DomainFactory

variable {σ : Type}

/-- A plan whose methods can be called. -/
structure Factory (σ : Type) where
  /-- The plan. -/
  plan : Plan
  /-- The way in which it was built. -/
  construction : Construction
  /-- The paths of methods that run on the side of the host: what it can serve to others. -/
  served : Keyed (Path σ)
  /-- The paths that callers take. -/
  paths : Keyed (Path σ)

/-- The result of a save that reports denial. -/
inductive SaveAttempt where
  /-- The write ran, or there was nothing to do. -/
  | completed (output : Option Output)
  /-- A check denied the write. -/
  | denied (verdict : Verdict)
deriving Repr

namespace SaveAttempt

/-- The reply that says as much. -/
def reply : SaveAttempt → Reply
  | .completed output => .completed output
  | .denied verdict => .denied verdict

/-- What the write handed back, if it ran. -/
def output? : SaveAttempt → Option Output
  | .completed output => output
  | .denied _ => none

end SaveAttempt

namespace Factory

/-- The path of a method on the side of a host. -/
def localPath (host : Host σ) (plan : Plan) (method : PlannedMethod) :
    Except Failure (Path σ) :=
  match method.body with
  | .run operation bindings =>
    match host.handler? operation.handler with
    | none => .error (.missingHandler operation.handler)
    | some handler => do
      let gate ← Gate.build host plan.checks operation bindings
      return .execute host plan.typeName plan.saveState operation handler gate
  | .probe _ operation bindings => do
    let gate ← Gate.build host plan.checks operation bindings
    return .probe host operation gate
  | .save .. => .error (.wrongKind method.name none method.role)

/-- The factory with a path for one more method. -/
def addMethod (host : Host σ) (dispatcher : Option (Dispatcher σ)) (factory : Factory σ)
    (method : PlannedMethod) : Except Failure (Factory σ) :=
  if method.role == .save then .ok factory
  else
    match dispatcher, method.isRemote with
    | some dispatcher, true =>
      let id := Plan.operationId factory.plan.typeName method.name
      .ok { factory with
        paths := factory.paths.insert method.name (.remote host.side id dispatcher) }
    | _, _ => do
      let path ← localPath host factory.plan method
      return { factory with
        served := factory.served.insert method.name path
        paths := factory.paths.insert method.name path }

/-- Binds the methods of a plan, remote ones to a dispatcher if there is one. -/
def assemble (construction : Construction) (host : Host σ) (plan : Plan)
    (dispatcher : Option (Dispatcher σ)) : Except Failure (Factory σ) :=
  plan.methods.foldlM (addMethod host dispatcher) ⟨plan, construction, .empty, .empty⟩

/-- Builds a local factory: every method runs on the side of the host. -/
def build (host : Host σ) (plan : Plan) : Except Failure (Factory σ) :=
  assemble .here host plan none

/-- Builds a remote factory: remote methods need no code on the side of the host. -/
def buildRemote (host : Host σ) (plan : Plan) (dispatcher : Option (Dispatcher σ)) :
    Except Failure (Factory σ) :=
  if dispatcher.isNone && plan.supports .remote then .error (.noDispatcher plan.typeName)
  else assemble .remote host plan dispatcher

/-- The method with a name, when its role and its number of parameters fit a call. -/
def lookup (factory : Factory σ) (name : String) (role : MethodRole) (arguments : List Value) :
    Except Failure PlannedMethod :=
  match factory.plan.method? name with
  | none => .error (.unknownMethod factory.plan.typeName name)
  | some method =>
    if method.role != role then .error (.wrongKind name (some role) method.role)
    else if method.parameters.length != arguments.length then
      .error (.arity name method.parameters.length arguments.length)
    else .ok method

/-- Runs a method on the path it is bound to. -/
def run (factory : Factory σ) (method : PlannedMethod) (call : Call) : Run σ Failure Reply :=
  match factory.paths.get? method.name with
  | some path => path call
  | none => .raise (.unknownMethod factory.plan.typeName method.name)

/-- Calls a read. Denial gives what a search without a result gives. -/
def read (factory : Factory σ) (name : String) (arguments : List Value) :
    Run σ Failure (Option Output) := do
  let method ← .ofExcept (factory.lookup name .read arguments)
  match ← factory.run method ⟨none, arguments⟩ with
  | .completed output => return output
  | .denied _ => return none
  | .probed _ => Run.raise (.shapeMismatch name)

/-- Calls a write on a target. -/
def write (factory : Factory σ) (name : String) (target : Entity) (arguments : List Value) :
    Run σ Failure (Option Output) := do
  let method ← .ofExcept (factory.lookup name .write arguments)
  match ← factory.run method ⟨some target, arguments⟩ with
  | .completed output => return output
  | .denied verdict => Run.raise (.notAuthorized name verdict.message)
  | .probed _ => Run.raise (.shapeMismatch name)

/-- Calls the write that the state of the target asks for, and reports denial. A target that is new
and marked for deletion needs no write. -/
def trySave (factory : Factory σ) (name : String) (target : Entity) (arguments : List Value) :
    Run σ Failure SaveAttempt := do
  let method ← .ofExcept (factory.lookup name .save arguments)
  match method.body with
  | .run .. | .probe .. => Run.raise (.shapeMismatch name)
  | .save insert update delete _ =>
    match SaveBranch.route? target.state with
    | none => return .completed none
    | some branch =>
      match branch.choose insert update delete with
      | none => Run.raise (.notImplemented name branch)
      | some chosen =>
        let method ← .ofExcept (factory.lookup chosen .write arguments)
        match ← factory.run method ⟨some target, arguments⟩ with
        | .completed output => return .completed output
        | .denied verdict => return .denied verdict
        | .probed _ => Run.raise (.shapeMismatch chosen)

/-- Calls the write that the state of the target asks for. -/
def save (factory : Factory σ) (name : String) (target : Entity) (arguments : List Value) :
    Run σ Failure (Option Output) := do
  match ← factory.trySave name target arguments with
  | .completed output => return output
  | .denied verdict => Run.raise (.notAuthorized name verdict.message)

/-- Asks a probe. -/
def can (factory : Factory σ) (name : String) (arguments : List Value) :
    Run σ Failure Verdict := do
  let method ← .ofExcept (factory.lookup name .probe arguments)
  match ← factory.run method ⟨none, arguments⟩ with
  | .probed verdict => return verdict
  | .completed _ | .denied _ => Run.raise (.shapeMismatch name)

/-- The table of what the factory can serve to other sides. -/
def dispatchTable (factory : Factory σ) : DispatchTable σ :=
  factory.plan.dispatch.foldl (fun table entry =>
    match factory.served.get? entry.method with
    | some path => table.insert entry.id path
    | none => table) .empty

/-- The types of what a registry of services and factories holds. -/
abbrev family (σ : Type) {τ : Type} (services : τ → Type) : Option τ → Type
  | none => Factory σ
  | some type => services type

/-- The registry with the factory under its name. -/
def register {τ : Type} {services : τ → Type} [DecidableEq τ] (factory : Factory σ)
    (registry : ServiceRegistry (family σ services)) : ServiceRegistry (family σ services) :=
  registry.register factory.plan.factoryName ⟨none, factory⟩

/-- A factory in one line. -/
def summary (factory : Factory σ) : String :=
  "Factory \x7b type_name: " ++ Text.displayed factory.plan.typeName ++ ", construction: " ++
    factory.construction.name ++ ", methods: " ++ toString factory.plan.methods.length ++
    ", .. \x7d"

end Factory

end DomainFactory
