import DomainFactory.Factory
import DomainFactory.Rehearsal.Script

/-!
# Sessions

A session is a rehearsal of one plan: a client factory, perhaps a server factory that serves it, and
an instance that calls work on. It answers one call after the other and tells what happened during
each.
-/
namespace DomainFactory

/-- What a rehearsal plays on one side. -/
structure Cast where
  /-- The scripts of handlers by key. -/
  handlers : Keyed HandlerScript := .empty
  /-- The scripts of checks by key. -/
  checks : Keyed CheckScript := .empty
  /-- Whether handlers and checks of the plan that have no script get an empty one. -/
  complete : Bool := false
  /-- The services by type; without a list there is no provider that could be heard. -/
  services : Option (List (String × String)) := none
  /-- The texts of the faults that hooks raise, before and after the handlers with some keys;
  without them there are no hooks that could be heard. -/
  hooks : Option (Keyed String × Keyed String) := none

namespace Cast

/-- The map with an empty list under every key that it lacks. -/
def completed {α : Type} (keys : List String) (scripts : Keyed (List α)) : Keyed (List α) :=
  keys.foldl (fun scripts key =>
    if scripts.contains key then scripts else scripts.insert key []) scripts

/-- The keys of the handlers of a plan. -/
def handlerKeys (plan : Plan) : List String :=
  plan.methods.filterMap fun method =>
    match method.body with
    | .run operation _ => some operation.handler
    | .save .. | .probe .. => none

/-- The registry of the services. -/
def registry (cast : Cast) : ServiceRegistry fun (_ : Unit) => String :=
  (cast.services.getD []).foldl (fun registry service =>
    registry.register service.1 ⟨(), service.2⟩) .empty

/-- What a hook with some faults does around an operation. -/
def hook (faults : Keyed String) (operation : Operation) : Answer Unit :=
  .ofResult (match faults.get? operation.handler with
    | some message => .error (.plain message)
    | none => .ok ())

/-- The host that plays on a side. -/
def host (cast : Cast) (side : Side) (plan : Plan) : Host String :=
  let handlers := if cast.complete then completed (handlerKeys plan) cast.handlers
    else cast.handlers
  let checks := if cast.complete then completed (plan.checks.map (·.key)) cast.checks
    else cast.checks
  let (before, after) := cast.hooks.getD (.empty, .empty)
  { side
    handler? := fun key => (handlers.get? key).map HandlerScript.handler
    checker? := fun key => (checks.get? key).map CheckScript.checker
    provider := fun _ type => (cast.registry.resolve type).map (·.2)
    hooks := ⟨fun _ operation _ => hook before operation, fun _ operation _ =>
      hook after operation⟩ }

/-- Whether an event on the side is heard. -/
def hears (cast : Cast) : Event String → Bool
  | .began (.resolve _) => cast.services.isSome
  | .began (.before _ _) | .began (.after _ _) => cast.hooks.isSome
  | .began _ => true
  | .noted _ => true
  | .passed _ | .stopped _ => false

end Cast

/-- What carries the requests of a rehearsed client. -/
inductive Carrier where
  /-- The server of the session serves them. -/
  | loopback
  /-- Every request raises a fault. -/
  | broken (fault : Fault)
  /-- Every request gets one reply. -/
  | fixed (reply : Reply)

/-- A rehearsal of one plan. -/
structure Session where
  /-- What is played on the side of the client. -/
  clientCast : Cast
  /-- What is played on the side of the server. -/
  serverCast : Cast
  /-- The client. -/
  client : Factory String
  /-- The server. -/
  server : Option (Factory String)
  /-- The time limit of the server in milliseconds. -/
  limit : Nat
  /-- The instance that calls work on. -/
  current : Entity
  /-- What has happened, and the time. -/
  world : World String := {}

namespace Session

/-- The table from which requests are served. -/
def tableOf (server : Option (Factory String)) : DispatchTable String :=
  (server.map (·.dispatchTable)).getD .empty

/-- The dispatcher of a carrier. -/
def dispatcherOf (server : Option (Factory String)) (limit : Nat) :
    Carrier → Dispatcher String
  | .loopback => .loopback limit (tableOf server)
  | .broken fault => fun _ => .raise fault
  | .fixed reply => fun request => .pure ⟨request.number, reply⟩

/-- Builds the server of a session, if it has one, and then its client. -/
def open? (plan : Plan) (clientCast : Cast) (construction : Construction)
    (carrier : Option Carrier) (serverCast : Option Cast) (limit : Nat) :
    Except Failure Session := do
  let server ← serverCast.mapM fun cast => Factory.build (cast.host .server plan) plan
  let host := clientCast.host .client plan
  let client ← match construction with
    | .here => Factory.build host plan
    | .remote => Factory.buildRemote host plan (carrier.map (dispatcherOf server limit))
  return {
    clientCast
    serverCast := serverCast.getD {}
    client
    server
    limit
    current := .new plan.typeName }

/-- What a run in a session gives, with what was heard of it, and the session behind it. Without
a deadline a run is never overdue. -/
def perform {α : Type} (session : Session) (run : Run String Failure α) :
    Except Failure α × Journal String × Session :=
  let (result, world) := run none session.world
  let news := world.journal.drop session.world.journal.length
  let heard := news.filter fun entry =>
    match entry.side with
    | .client => session.clientCast.hears entry.event
    | .server => session.serverCast.hears entry.event
  let result := result.mapError fun
    | .raised failure => failure
    | .overdue => .timeout 0
  (result, heard, { session with world })

/-- The session that works on the instance of an output, when it is one. -/
def keep (session : Session) (output : Option Output) : Session :=
  match output.bind (·.instance?) with
  | some current => { session with current }
  | none => session

/-- Calls a method that gives an output, and keeps the instance that it gives. -/
def callKeeping {α : Type} (output : α → Option Output) (session : Session)
    (run : Factory String → Run String Failure α) :
    Except Failure α × Journal String × Session :=
  match session.perform (run session.client) with
  | (.ok result, heard, session) => (.ok result, heard, session.keep (output result))
  | failed => failed

/-- Calls a read. -/
def read (session : Session) (method : String) (arguments : List Value) :
    Except Failure (Option Output) × Journal String × Session :=
  session.callKeeping id fun factory => factory.read method arguments

/-- Calls a write, on the instance of the session unless a target is given. -/
def write (session : Session) (method : String) (target : Option Entity)
    (arguments : List Value) : Except Failure (Option Output) × Journal String × Session :=
  session.callKeeping id fun factory =>
    factory.write method (target.getD session.current) arguments

/-- Calls a save, on the instance of the session unless a target is given. -/
def save (session : Session) (method : String) (target : Option Entity)
    (arguments : List Value) : Except Failure (Option Output) × Journal String × Session :=
  session.callKeeping id fun factory =>
    factory.save method (target.getD session.current) arguments

/-- Calls a save that reports denial, on the instance of the session unless a target is given. -/
def trySave (session : Session) (method : String) (target : Option Entity)
    (arguments : List Value) : Except Failure SaveAttempt × Journal String × Session :=
  session.callKeeping SaveAttempt.output? fun factory =>
    factory.trySave method (target.getD session.current) arguments

/-- Asks a probe. -/
def can (session : Session) (method : String) (arguments : List Value) :
    Except Failure Verdict × Journal String × Session :=
  session.perform (session.client.can method arguments)

/-- Serves a request from the table of the server, or else of the client. -/
def serve (session : Session) (request : Request) :
    Except Failure Response × Journal String × Session :=
  let factory := session.server.getD session.client
  session.perform (factory.dispatchTable.serveWithin session.limit request)

/-- The names in a fresh registry in which the client was registered twice, and whether looking up
the type of factories finds a factory of the plan. -/
def registered (session : Session) : List String × Bool :=
  let fresh : ServiceRegistry (Factory.family String fun (_ : Unit) => String) := .empty
  let registry := session.client.register (session.client.register fresh)
  let found : Option (Factory String) := registry.byType? none
  (registry.names, found.any (·.plan == session.client.plan))

end Session

end DomainFactory
