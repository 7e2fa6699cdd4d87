import Mathlib.Data.List.Induction
import DomainFactory.Proofs.Joining
import DomainFactory.Proofs.Requests

/-!
# Supplying services

Before an operation runs, the service of each injected parameter is looked up by its type and kept
under its name; checks and handlers get them all. Of parameters of one name only the last keeps its
service, so there are as many services as injected parameters exactly when their names are distinct.
-/
namespace DomainFactory

variable {σ ε α β : Type}

namespace Keyed

variable {entries : List (String × α)} {key : String}

/-- A list with one more entry gives the map with that entry put into it. -/
theorem ofList_append (entries : List (String × α)) (entry : String × α) :
    ofList (entries ++ [entry]) = (ofList entries).insert entry.1 entry.2 := by
  unfold ofList
  rw [List.foldl_append, List.foldl_cons, List.foldl_nil]

/-- Under a key is the value of the last entry with it. -/
theorem get_ofList (entries : List (String × α)) (key : String) :
    (ofList entries).get? key = (entries.reverse.find? (·.1 == key)).map Prod.snd := by
  induction entries using List.reverseRecOn with
  | nil => exact get_empty key
  | append_singleton entries entry ih =>
    rw [ofList_append, get_insert, ih, List.reverse_append, List.reverse_singleton,
      List.singleton_append, List.find?_cons]
    by_cases same : entry.1 = key
    · rw [if_pos same, beq_iff_eq.mpr same]
      rfl
    · rw [if_neg same, beq_eq_false_iff_ne.mpr same]

/-- The keys of a map are those of its list. -/
theorem mem_keys_ofList : key ∈ (ofList entries).keys ↔ key ∈ entries.map Prod.fst := by
  rw [← contains_iff, contains, get_ofList, Option.isSome_map, List.find?_isSome, List.mem_map]
  simp only [List.mem_reverse, beq_iff_eq]

/-- A map has as many entries as its list exactly when no two of these have one key. -/
theorem size_ofList_eq_iff :
    (ofList entries).size = entries.length ↔ (entries.map Prod.fst).Nodup := by
  have distinct : (ofList entries).keys.Nodup := keys_nodup _
  have size : (ofList entries).size = (ofList entries).keys.length := (List.length_map _).symm
  have length : entries.length = (entries.map Prod.fst).length := (List.length_map _).symm
  rw [size, length]
  constructor
  · intro same
    have within : (ofList entries).keys.Subperm (entries.map Prod.fst) :=
      List.subperm_of_subset distinct fun key => mem_keys_ofList.mp
    exact (within.perm_of_length_le (Nat.le_of_eq same.symm)).nodup_iff.mp distinct
  · intro apart
    refine List.Perm.length_eq ?_
    exact (List.perm_ext_iff_of_nodup distinct apart).mpr fun key => mem_keys_ofList

/-- Each entry of a list is found when no two have one key. -/
theorem get_ofList_of_nodup (apart : (entries.map Prod.fst).Nodup) {entry : String × α}
    (member : entry ∈ entries) : (ofList entries).get? entry.1 = some entry.2 := by
  have reversed : (entries.reverse.map Prod.fst).Nodup := by
    rw [List.map_reverse]
    exact List.nodup_reverse.mpr apart
  have found := (find_keyed_iff reversed).mpr ⟨List.mem_reverse.mpr member, rfl⟩
  rw [get_ofList, found, Option.map_some]

end Keyed

namespace Run

variable {holds : Callback σ → Prop}

/-- What begins in two runs one after another begins in the first, or in the second behind a value
of the first. -/
theorem Begins.bind_of_ok {run : Run σ ε α} {next : α → Run σ ε β} (first : Begins holds run)
    (behind : ∀ {value deadline world later}, run deadline world = (.ok value, later) →
      Begins holds (next value)) : Begins holds (run >>= next) := by
  intro deadline world
  rcases ended : run deadline world with ⟨stop | value, later⟩
  · have begun := first deadline world
    rw [ended] at begun
    rw [bind_error ended]
    exact begun
  · have same : (run >>= next) deadline world = (run >>= fun _ => next value) deadline world := by
      rw [bind_ok ended, bind_ok ended]
    rw [same]
    exact first.bind (fun _ => behind ended) deadline world

/-- Callbacks with a property have any property that follows from it. -/
theorem Begins.imp {other : Callback σ → Prop} {run : Run σ ε α} (begins : Begins holds run)
    (follows : ∀ callback, holds callback → other callback) : Begins other run := by
  intro deadline world
  obtain ⟨news, journal, held⟩ := begins deadline world
  exact ⟨news, journal, fun callback member => follows callback (held callback member)⟩

end Run

/-- The services that a callback gets. -/
def Callback.services? : Callback σ → Option (Keyed σ)
  | .check question => some question.services
  | .handler _ invocation => some invocation.services
  | _ => none

namespace Host

/-- The service of each parameter was found by the provider of a host for its type, and is kept
under its name. -/
structure Supplies (host : Host σ) (parameters : List Parameter) (found : List σ)
    (services : Keyed σ) : Prop where
  /-- Each was found by the provider for the type of its parameter. -/
  provided : List.Forall₂
    (fun parameter service => ∃ past, host.provider past parameter.type = .ok service)
    parameters found
  /-- Under a name is the service of the last parameter with it. -/
  last : ∀ name, services.get? name =
    (((parameters.map Parameter.name).zip found).reverse.find? (·.1 == name)).map Prod.snd
  /-- When names are distinct, each parameter has its own service. -/
  own : (parameters.map Parameter.name).Nodup →
    ∀ entry ∈ (parameters.map Parameter.name).zip found, services.get? entry.1 = some entry.2
  /-- There are as many services as parameters exactly then. -/
  size : services.size = parameters.length ↔ (parameters.map Parameter.name).Nodup

variable {host : Host σ} {parameters : List Parameter} {deadline : Option Nat}
  {world later : World σ} {services : Keyed σ}

/-- What is found for a type is what the provider gives for it. -/
theorem resolve_ok {type : String} {service : σ}
    (found : host.resolve type deadline world = (.ok service, later)) :
    ∃ past, host.provider past type = .ok service :=
  ⟨world.journal, (Run.consult_ok found).1⟩

/-- Services are found for parameters one after another and put under their names. -/
theorem resolveAll_ok (found : host.resolveAll parameters deadline world = (.ok services, later)) :
    ∃ given : List σ,
      List.Forall₂ (fun parameter service =>
        ∃ past, host.provider past parameter.type = .ok service) parameters given ∧
      services = Keyed.ofList ((parameters.map Parameter.name).zip given) := by
  unfold resolveAll at found
  unfold Keyed.ofList
  generalize (Keyed.empty : Keyed σ) = start at found ⊢
  induction parameters generalizing start world with
  | nil =>
    cases found
    exact ⟨[], .nil, rfl⟩
  | cons parameter parameters ih =>
    rw [List.foldlM_cons] at found
    obtain ⟨inserted, middle, stepped, rest⟩ := Run.bind_eq_ok found
    obtain ⟨service, between, resolved, put⟩ := Run.bind_eq_ok stepped
    cases put
    obtain ⟨given, provided, kept⟩ := ih _ rest
    exact ⟨service :: given, .cons (resolve_ok resolved) provided, kept⟩

/-- The services found for parameters are kept under their names. -/
theorem resolveAll_supplies
    (found : host.resolveAll parameters deadline world = (.ok services, later)) :
    ∃ given, host.Supplies parameters given services := by
  obtain ⟨given, provided, rfl⟩ := resolveAll_ok found
  have length : (parameters.map Parameter.name).length = given.length :=
    (List.length_map _).trans provided.length_eq
  have names : ((parameters.map Parameter.name).zip given).map Prod.fst =
      parameters.map Parameter.name := List.map_fst_zip (Nat.le_of_eq length)
  refine ⟨given, provided, Keyed.get_ofList _, fun apart entry member => ?_, ?_⟩
  · exact Keyed.get_ofList_of_nodup (names.symm ▸ apart) member
  · have size : (Keyed.ofList ((parameters.map Parameter.name).zip given)).size =
        ((parameters.map Parameter.name).zip given).length ↔ _ := Keyed.size_ofList_eq_iff
    rwa [names, List.length_zip, ← length, Nat.min_self, List.length_map] at size

/-- What gets services during a run gets those of some parameters. -/
def Feeds (host : Host σ) (parameters : List Parameter) (run : Run σ ε α) : Prop :=
  run.Begins fun callback => ∀ services ∈ callback.services?,
    ∃ found, host.Supplies parameters found services

end Host

namespace Path

variable {host : Host σ} {operation : Operation}

/-- A run feeds the services of an operation when it hands on those that were found. -/
theorem feeds_of_hands {next : Keyed σ → Run σ Failure β}
    (hands : ∀ services, (next services).Begins fun callback =>
      ∀ given ∈ callback.services?, given = services) :
    host.Feeds operation.injectedParameters
      ((host.resolveAll operation.injectedParameters).running >>= next) := by
  have looksUp : host.Feeds operation.injectedParameters
      (host.resolveAll operation.injectedParameters) :=
    Host.begins_resolveAll _ fun type services none => by cases none
  refine (looksUp.mapError Fault.asFailure).bind_of_ok
    fun {services deadline world later} found => ?_
  obtain ⟨given, supplies⟩ := Host.resolveAll_supplies (Run.mapError_ok found)
  refine (hands services).imp fun callback same other gets => ?_
  exact ⟨given, same other gets ▸ supplies⟩

/-- Checks get the services that a gate is asked with. -/
theorem begins_evaluate (gate : Gate σ) (call : Call) (services : Keyed σ) :
    (gate.evaluate call services).running.Begins fun callback =>
      ∀ given ∈ callback.services?, given = services := by
  have asked : (gate.evaluate call services).Begins fun callback =>
      ∀ given ∈ callback.services?, given = services :=
    Gate.begins_askAll fun check _ given gets => (Option.some.inj gets).symm
  exact asked.mapError Fault.asFailure

/-- Running an operation feeds its checks and its handler with the services of its injected
parameters. -/
theorem feeds_execute (host : Host σ) (typeName : String) (saveState : Bool)
    (operation : Operation) (handler : Handler σ) (gate : Gate σ) (call : Call) :
    host.Feeds operation.injectedParameters
      (execute host typeName saveState operation handler gate call) := by
  refine feeds_of_hands fun services => ?_
  refine (begins_evaluate gate call services).bind fun verdict => ?_
  split
  · exact Run.begins_pure _
  refine (Run.begins_ofExcept _).bind fun target => ?_
  refine ((Run.begins_consult fun given gets => ?_).mapError Fault.asFailure).bind fun _ => ?_
  · cases gets
  refine ((Run.begins_consult fun given gets => ?_).mapError Fault.asFailure).bind fun _ => ?_
  · exact (Option.some.inj gets).symm
  refine ((Run.begins_consult fun given gets => ?_).mapError Fault.asFailure).bind fun _ => ?_
  · cases gets
  exact Run.begins_pure _

/-- Asking a probe feeds its checks with the services of the injected parameters of its
operation. -/
theorem feeds_probe (host : Host σ) (operation : Operation) (gate : Gate σ) (call : Call) :
    host.Feeds operation.injectedParameters (probe host operation gate call) :=
  feeds_of_hands fun services =>
    (begins_evaluate gate _ services).bind fun _ => Run.begins_pure _

end Path

end DomainFactory
