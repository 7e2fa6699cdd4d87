import DomainFactory.Failure
import DomainFactory.Keyed

/-!
# Service registries

A registry holds shared services of several types. A service is found by the name it was registered
under, or by its type. A later registration takes the place of an earlier one under the same name,
and of the earlier one of its type; names are listed in the order of their first registration.
-/
namespace DomainFactory

/-- A service together with its type, one of a family of types. -/
abbrev Service {τ : Type} (family : τ → Type) := (type : τ) × family type

namespace Service

variable {τ : Type} {family : τ → Type} [DecidableEq τ]

/-- The service, when it has a type. -/
def as? (type : τ) (service : Service family) : Option (family type) :=
  if same : service.1 = type then some (same ▸ service.2) else none

end Service

/-- Services by name and by type. -/
structure ServiceRegistry {τ : Type} (family : τ → Type) where
  /-- The services by name. -/
  named : Keyed (Service family) := .empty
  /-- The services by type. -/
  typed : (type : τ) → Option (family type) := fun _ => none
  /-- The names in the order of their first registration. -/
  order : List String := []

namespace ServiceRegistry

variable {τ : Type} {family : τ → Type}

/-- The registry without services. -/
def empty : ServiceRegistry family := {}

instance : Inhabited (ServiceRegistry family) := ⟨empty⟩

/-- The registry with a service under a name and under its type. A new name is listed behind the
others. -/
def register [DecidableEq τ] (registry : ServiceRegistry family) (name : String)
    (service : Service family) : ServiceRegistry family where
  named := registry.named.insert name service
  typed := fun type => (service.as? type).or (registry.typed type)
  order := if registry.named.contains name then registry.order else registry.order ++ [name]

/-- The names in the order of their first registration. -/
def names (registry : ServiceRegistry family) : List String := registry.order

/-- The service registered last under a name. -/
def byName? (registry : ServiceRegistry family) (name : String) : Option (Service family) :=
  registry.named.get? name

/-- The service of a type registered last. -/
def byType? (registry : ServiceRegistry family) (type : τ) : Option (family type) :=
  registry.typed type

/-- The service under a name; a fault when there is none. -/
def resolve (registry : ServiceRegistry family) (name : String) : Except Fault (Service family) :=
  match registry.byName? name with
  | some service => .ok service
  | none => .error (.plain ("no service registered for \x60" ++ name ++ "\x60"))

end ServiceRegistry

end DomainFactory
