import DomainFactory.Path

/-!
# Dispatch tables

The serving side keeps a table from identities to paths. A request is served by the path of its
operation within a time limit, and the response carries the number of the request.
-/
namespace DomainFactory

variable {σ : Type}

/-- The paths of the serving side by identity. -/
structure DispatchTable (σ : Type) where
  /-- The paths in the order of their identities. -/
  paths : Keyed (Path σ)

namespace DispatchTable

/-- The table without paths. -/
def empty : DispatchTable σ := ⟨.empty⟩

instance : Inhabited (DispatchTable σ) := ⟨empty⟩

/-- The table with a path under an identity, in place of any path it had. -/
def insert (table : DispatchTable σ) (id : String) (path : Path σ) : DispatchTable σ :=
  ⟨table.paths.insert id path⟩

/-- The table with every path of another one; of two paths for an identity that of the other table
counts. -/
def merge (table other : DispatchTable σ) : DispatchTable σ :=
  other.paths.entries.foldl (fun table entry => table.insert entry.1 entry.2) table

/-- Whether an identity has a path. -/
def contains (table : DispatchTable σ) (id : String) : Bool := table.paths.contains id

/-- The number of identities. -/
def size (table : DispatchTable σ) : Nat := table.paths.size

/-- Whether no identity has a path. -/
def isEmpty (table : DispatchTable σ) : Bool := table.paths.isEmpty

/-- The identities in order. -/
def operations (table : DispatchTable σ) : List String := table.paths.keys

/-- Serves a request by the path of its operation. -/
def serve (table : DispatchTable σ) (request : Request) : Run σ Failure Response :=
  match table.paths.get? request.operation with
  | none => .raise (.unknownOperation request.operation)
  | some path => do
    let reply ← path request.call
    return ⟨request.number, reply⟩

/-- Serves a request within a time limit in milliseconds. -/
def serveWithin (limit : Nat) (table : DispatchTable σ) (request : Request) :
    Run σ Failure Response := (table.serve request).within limit

/-- The time limit where none is given. -/
def defaultLimit : Nat := 30000

end DispatchTable

namespace Dispatcher

/-- The dispatcher that serves requests from a table within a time limit. -/
def loopback (limit : Nat) (table : DispatchTable σ) : Dispatcher σ := fun request =>
  (table.serveWithin limit request).mapError Fault.carried

end Dispatcher

end DomainFactory
