import DomainFactory.Json.Form

/-!
# Configuration

The names of the markers that declarations carry, and the conventions by which methods of a
factory are named. Every entry has a default, so a configuration may be given in part.
-/
namespace DomainFactory

open Json

/-- Marker names and naming conventions. -/
structure Config where
  /-- The marker of operations, and of types that have a factory. -/
  factoryMarker : String := "factory"
  /-- The marker of checks, and of the association of a type with its policy. -/
  authorizeMarker : String := "authorize"
  /-- The marker of injected parameters. -/
  serviceMarker : String := "service"
  /-- The marker of types whose instances track their save state. -/
  saveStateMarker : String := "save_state"
  /-- The types whose parameters are injected without a marker. -/
  injectedTypes : List String := ["CancellationToken"]
  /-- The base name of save methods. -/
  saveName : String := "save"
  /-- What the name of a probe begins with. -/
  probePrefix : String := "can_"
  /-- What the name of a save that reports denial begins with. -/
  tryPrefix : String := "try_"
deriving DecidableEq, Repr, Inhabited

namespace Config

/-- The configuration of defaults. -/
def default : Config := {}

instance : Form Config where
  encode config :=
    record [("factory_marker", encode config.factoryMarker),
      ("authorize_marker", encode config.authorizeMarker),
      ("service_marker", encode config.serviceMarker),
      ("save_state_marker", encode config.saveStateMarker),
      ("passthrough_types", encode config.injectedTypes),
      ("save_name", encode config.saveName),
      ("probe_prefix", encode config.probePrefix),
      ("try_prefix", encode config.tryPrefix)]
  decode json := do
    match ← defaultedSlots? ["factory_marker", "authorize_marker", "service_marker",
        "save_state_marker", "passthrough_types", "save_name", "probe_prefix",
        "try_prefix"] json with
    | [factory, authorize, service, saveState, injected, save, probe, attempt] =>
      return {
        factoryMarker := ← withDefault default.factoryMarker factory
        authorizeMarker := ← withDefault default.authorizeMarker authorize
        serviceMarker := ← withDefault default.serviceMarker service
        saveStateMarker := ← withDefault default.saveStateMarker saveState
        injectedTypes := ← withDefault default.injectedTypes injected
        saveName := ← withDefault default.saveName save
        probePrefix := ← withDefault default.probePrefix probe
        tryPrefix := ← withDefault default.tryPrefix attempt }
    | _ => none

end Config

end DomainFactory
