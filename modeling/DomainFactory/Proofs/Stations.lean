import DomainFactory.Proofs.Itinerary

/-!
# Stations of methods

Where a method calls code of its host follows from its plan: services first, then the checks that it
is bound to, and, unless it is a probe, its handler between the hooks.
-/
namespace DomainFactory

/-- Whether a handler or a hook runs at a station. -/
def Station.acts : Station → Bool
  | .before _ | .handler _ | .after _ => true
  | .resolve _ | .check _ | .dispatch _ => false

/-- Whether a handler runs at a station. -/
def Station.isHandler : Station → Bool
  | .handler _ => true
  | _ => false

/-- Whether the hook behind a handler runs at a station. -/
def Station.isAfter : Station → Bool
  | .after _ => true
  | _ => false

/-- The stations at which the services for some parameters are found. -/
def Host.serviceStations (parameters : List Parameter) : List Station :=
  parameters.map fun parameter => .resolve parameter.type

namespace Plan

/-- The key of the check that a binding of a plan refers to. -/
def checkKey (plan : Plan) (binding : Binding) : String :=
  (plan.checks[binding.check]?.map Check.key).getD ""

/-- The key of a check that is there. -/
theorem checkKey_eq {plan : Plan} {binding : Binding} {declared : Check}
    (found : plan.checks[binding.check]? = some declared) :
    plan.checkKey binding = declared.key := by
  unfold checkKey
  rw [found]
  rfl

/-- The stations of the checks that bindings of a plan refer to, in their order. -/
def checkStations (plan : Plan) (bindings : List Binding) : List Station :=
  bindings.map fun binding => .check (plan.checkKey binding)

/-- The stations of the gate of an operation: its services, then its checks. -/
def gateStations (plan : Plan) (operation : Operation) (bindings : List Binding) : List Station :=
  Host.serviceStations operation.injectedParameters ++ plan.checkStations bindings

/-- The stations of a method: its gate, and, unless it is a probe, its handler between the hooks. -/
def stations (plan : Plan) (method : PlannedMethod) : List Station :=
  match method.body with
  | .run operation bindings => plan.gateStations operation bindings ++
      [.before operation, .handler operation.handler, .after operation]
  | .probe _ operation bindings => plan.gateStations operation bindings
  | .save .. => []

/-- The stations of a method with an operation. -/
theorem stations_run {plan : Plan} {method : PlannedMethod} {operation : Operation}
    {bindings : List Binding} (body : method.body = .run operation bindings) :
    plan.stations method = plan.gateStations operation bindings ++
      [.before operation, .handler operation.handler, .after operation] := by
  unfold stations
  rw [body]

/-- The stations of a probe. -/
theorem stations_probe {plan : Plan} {method : PlannedMethod} {wraps : String}
    {operation : Operation} {bindings : List Binding}
    (body : method.body = .probe wraps operation bindings) :
    plan.stations method = plan.gateStations operation bindings := by
  unfold stations
  rw [body]

/-- Neither a handler nor a hook runs at a gate. -/
theorem gateStations_rest {plan : Plan} {operation : Operation} {bindings : List Binding}
    {station : Station} (member : station ∈ plan.gateStations operation bindings) :
    station.acts = false := by
  rcases List.mem_append.mp member with service | check
  · obtain ⟨parameter, _, rfl⟩ := List.mem_map.mp service
    rfl
  · obtain ⟨binding, _, rfl⟩ := List.mem_map.mp check
    rfl

/-- Only methods with an operation run a handler or a hook. -/
theorem run_of_acts {plan : Plan} {method : PlannedMethod} {station : Station}
    (member : station ∈ plan.stations method) (acts : station.acts = true) :
    ∃ operation bindings, method.body = .run operation bindings := by
  unfold stations at member
  cases body : method.body with
  | run operation bindings => exact ⟨operation, bindings, rfl⟩
  | probe wraps operation bindings =>
    rw [body] at member
    rw [gateStations_rest member] at acts
    cases acts
  | save insert update delete tryName =>
    rw [body] at member
    cases member

/-- No handler runs at a gate, nor at its end. -/
theorem gateStations_handler {plan : Plan} {operation : Operation} {bindings : List Binding} :
    ∀ station ∈ plan.gateStations operation bindings ++ [.before operation],
      station.isHandler = false := by
  intro station member
  rcases List.mem_append.mp member with gate | before
  · have rests := gateStations_rest gate
    cases station <;> first | rfl | cases rests
  · rw [List.mem_singleton.mp before]
    rfl

/-- The second hook does not run at a gate, nor up to the handler. -/
theorem gateStations_after {plan : Plan} {operation : Operation} {bindings : List Binding} :
    ∀ station ∈ plan.gateStations operation bindings ++
      [.before operation, .handler operation.handler], station.isAfter = false := by
  intro station member
  rcases List.mem_append.mp member with gate | ahead
  · have rests := gateStations_rest gate
    cases station <;> first | rfl | cases rests
  · rcases List.mem_cons.mp ahead with rfl | handler
    · rfl
    · rw [List.mem_singleton.mp handler]
      rfl

/-- At most one handler runs at the stations of a method. -/
theorem stations_handlers (plan : Plan) (method : PlannedMethod) :
    (plan.stations method).countP Station.isHandler ≤ 1 := by
  by_cases acts : ∃ station ∈ plan.stations method, station.isHandler = true
  · obtain ⟨station, member, handles⟩ := acts
    have acts : station.acts = true := by
      cases station <;> first | rfl | cases handles
    obtain ⟨operation, bindings, body⟩ := run_of_acts member acts
    have gate : (plan.gateStations operation bindings ++ [Station.before operation]).countP
        Station.isHandler = 0 := by
      refine List.countP_eq_zero.mpr fun other present => ?_
      rw [gateStations_handler other present]
      exact Bool.false_ne_true
    rw [List.countP_append] at gate
    rw [stations_run body, List.countP_append, ← List.singleton_append, List.countP_append]
    simp only [List.countP_cons, List.countP_nil, Station.isHandler, Bool.false_eq_true,
      ↓reduceIte] at gate ⊢
    omega
  · rw [List.countP_eq_zero.mpr fun station member handles => acts ⟨station, member, handles⟩]
    exact Nat.zero_le 1

end Plan

end DomainFactory
