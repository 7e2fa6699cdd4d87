import DomainFactory.Json.Form

/-!
# Surfaces

A surface is what a domain or policy type declares: its name, its base type, the policies it is
associated with, whether it has a factory and tracks the save state of its instances, and the
texts of its methods. Method texts are read later, so a malformed one costs only itself.
-/
namespace DomainFactory

open Json

/-- What a type declares. -/
structure Surface where
  /-- The name of the type. -/
  name : String := ""
  /-- The name of its base type. -/
  base : Option String := none
  /-- The names of the policies it is associated with. -/
  policies : List String := []
  /-- Whether it has a factory. -/
  factory : Bool := false
  /-- Whether its instances track their save state. -/
  saveState : Bool := false
  /-- The texts of its methods. -/
  methods : List String := []
deriving DecidableEq, Repr, Inhabited

namespace Surface

/-- The surface of a type that declares nothing. -/
def ofName (name : String) : Surface := { name }

/-- The surface with a factory. -/
def withFactory (surface : Surface) : Surface := { surface with factory := true }

/-- The surface with a base type. -/
def extending (surface : Surface) (base : String) : Surface := { surface with base := some base }

/-- The surface with one more policy. -/
def authorizedBy (surface : Surface) (policy : String) : Surface :=
  { surface with policies := surface.policies ++ [policy] }

/-- The surface with save states tracked. -/
def trackingSaveState (surface : Surface) : Surface := { surface with saveState := true }

/-- The surface with one more method text. -/
def withMethod (surface : Surface) (text : String) : Surface :=
  { surface with methods := surface.methods ++ [text] }

instance : Form Surface where
  encode surface :=
    record [("name", encode surface.name), ("base", encode surface.base),
      ("authorize", encode surface.policies), ("factory", encode surface.factory),
      ("save_state", encode surface.saveState), ("methods", encode surface.methods)]
  decode json := do
    match ← defaultedSlots? ["name", "base", "authorize", "factory", "save_state",
        "methods"] json with
    | [name, base, policies, factory, saveState, methods] =>
      return {
        name := ← withDefault "" name
        base := ← nullable base
        policies := ← withDefault [] policies
        factory := ← withDefault false factory
        saveState := ← withDefault false saveState
        methods := ← withDefault [] methods }
    | _ => none

end Surface

end DomainFactory
