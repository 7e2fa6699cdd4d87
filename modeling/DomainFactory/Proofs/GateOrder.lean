import DomainFactory.Proofs.Assembly
import DomainFactory.Proofs.Calls
import DomainFactory.Proofs.Following
import DomainFactory.Proofs.Gating

/-!
# Gates come first

Whatever the code of a host does, and whichever way a call comes in, the handler of a method runs at
most once, behind all checks that the method is bound to, in their order, each of them answered with
leave, and behind the first hook. The second hook runs behind the handler, and probes run neither.
-/
namespace DomainFactory

variable {σ : Type}

/-- A gate that is built asks the checks of the bindings, and asks the code that the host has for
them. -/
theorem Gate.stations_eq {host : Host σ} {plan : Plan} {operation : Operation}
    {bindings : List Binding} {gate : Gate σ}
    (built : Gate.build host plan.checks operation bindings = .ok gate) :
    Gate.stations gate.checks = plan.checkStations bindings ∧
      ∀ check ∈ gate.checks, host.checker? check.key = some check.checker := by
  obtain ⟨_, _, pairs⟩ := Gate.build_eq_ok built
  generalize gate.checks = list at pairs
  clear built
  induction pairs with
  | nil => exact ⟨rfl, fun check member => absurd member List.not_mem_nil⟩
  | @cons binding check bindings list made _ ih =>
    obtain ⟨declared, checker, found, registered, rfl⟩ := GateCheck.ofBinding_eq_ok.mp made
    refine ⟨?_, ?_⟩
    · unfold Gate.stations Plan.checkStations
      rw [List.map_cons, List.map_cons, Plan.checkKey_eq found]
      exact congrArg _ ih.1
    · intro other member
      rcases List.mem_cons.mp member with rfl | member
      · exact registered
      · exact ih.2 other member

/-- A path on the side of a host follows the stations of its method. -/
theorem Factory.localPath_follows {host : Host σ} {plan : Plan} {method : PlannedMethod}
    {path : Path σ} (found : localPath host plan method = .ok path) (call : Call) :
    Run.Follows host (plan.stations method) Reply.Passes (path call) := by
  cases localPath_runsHere found with
  | run body handled built =>
    obtain ⟨stations, registered⟩ := Gate.stations_eq built
    rw [Plan.stations_run body, Plan.gateStations, List.append_assoc, ← stations]
    exact Path.follows_execute call handled registered
  | probe body built =>
    obtain ⟨stations, registered⟩ := Gate.stations_eq built
    rw [Plan.stations_probe body, Plan.gateStations, ← stations]
    exact Path.follows_probe call registered

/-- What may happen on the side of a host that runs a method, after all that has happened before. -/
structure Gated (host : Host σ) (plan : Plan) (method : PlannedMethod) (past news : Journal σ) :
    Prop where
  /-- Callbacks begin in the planned order, and none behind one that raises a fault or denies. -/
  orderly : Orderly host past (plan.stations method) news
  /-- At most one handler begins. -/
  once : (visited news).countP Station.isHandler ≤ 1
  /-- When a handler begins, services, all checks in order and the first hook have been cleared. -/
  handled : ∀ early entry late key invocation, news = early ++ entry :: late →
    entry.begun? = some (.handler key invocation) →
      ∃ operation bindings, method.body = .run operation bindings ∧ key = operation.handler ∧
        Completes host past (plan.gateStations operation bindings ++ [.before operation]) early
  /-- When the second hook begins, the handler has been cleared too. -/
  followed : ∀ early entry late hooked output, news = early ++ entry :: late →
    entry.begun? = some (.after hooked output) →
      ∃ operation bindings, method.body = .run operation bindings ∧ hooked = operation ∧
        Completes host past (plan.gateStations operation bindings ++
          [.before operation, .handler operation.handler]) early
  /-- A probe runs neither a handler nor a hook. -/
  rests : method.role = .probe → ∀ station ∈ visited news, station.acts = false

/-- A list begins with a marked member behind others; where only one member of the list has the
mark, it is that one. -/
theorem prefix_marked {α : Type} (marked : α → Bool) {first rest before behind : List α}
    {here there : α} (ahead : first ++ here :: rest <+: before ++ there :: behind)
    (mark : marked here = true) (unmarkedBefore : ∀ other ∈ before, marked other = false)
    (unmarkedBehind : ∀ other ∈ behind, marked other = false) : first = before ∧ here = there := by
  obtain ⟨tail, split⟩ := ahead
  rw [List.append_assoc, List.cons_append] at split
  have unlike {list : List α} (unmarked : ∀ other ∈ list, marked other = false) : here ∉ list := by
    intro member
    rw [unmarked here member] at mark
    cases mark
  obtain ⟨firsts, heres, _⟩ := (List.append_cons_inj_of_notMem (unlike unmarkedBefore)
    (unlike unmarkedBehind)).mp split.symm
  exact ⟨firsts.symm, heres.symm⟩

/-- What is orderly at the stations of a method is gated. -/
theorem Orderly.gated {host : Host σ} {plan : Plan} {method : PlannedMethod}
    {past news : Journal σ} (orderly : Orderly host past (plan.stations method) news)
    (fits : method.Fits) : Gated host plan method past news := by
  -- A callback begins at one of the stations, and all that began before it are cleared.
  have begins {early late : Journal σ} {entry : Entry σ} {callback : Callback σ}
      (split : news = early ++ entry :: late) (begun : entry.begun? = some callback) :
      visited early ++ callback.station :: visited late <+: plan.stations method ∧
        Completes host past (visited early) early := by
    rw [split] at orderly
    refine ⟨?_, orderly.completes_before begun⟩
    have order := orderly.order
    rw [visited_append, visited_cons late begun] at order
    exact order
  refine ⟨orderly, ?_, ?_, ?_, ?_⟩
  · exact Nat.le_trans orderly.order.sublist.countP_le (plan.stations_handlers method)
  · intro early entry late key invocation split begun
    obtain ⟨order, complete⟩ := begins split begun
    obtain ⟨operation, bindings, body⟩ := Plan.run_of_acts
      (order.subset (List.mem_append_right _ List.mem_cons_self)) rfl
    have stations : plan.stations method = (plan.gateStations operation bindings ++
        [.before operation]) ++ .handler operation.handler :: [.after operation] := by
      rw [Plan.stations_run body, List.append_assoc]
      rfl
    rw [stations] at order
    obtain ⟨ahead, same⟩ := prefix_marked Station.isHandler order rfl Plan.gateStations_handler
      fun other after => by rw [List.mem_singleton.mp after]; rfl
    rw [ahead] at complete
    exact ⟨operation, bindings, body, Station.handler.inj same, complete⟩
  · intro early entry late hooked output split begun
    obtain ⟨order, complete⟩ := begins split begun
    obtain ⟨operation, bindings, body⟩ := Plan.run_of_acts
      (order.subset (List.mem_append_right _ List.mem_cons_self)) rfl
    have stations : plan.stations method = (plan.gateStations operation bindings ++
        [.before operation, .handler operation.handler]) ++ .after operation :: [] := by
      rw [Plan.stations_run body, List.append_assoc]
      rfl
    rw [stations] at order
    obtain ⟨ahead, same⟩ := prefix_marked Station.isAfter order rfl Plan.gateStations_after
      fun other member => absurd member List.not_mem_nil
    rw [ahead] at complete
    exact ⟨operation, bindings, body, Station.after.inj same, complete⟩
  · intro probes station member
    cases acts : station.acts with
    | false => rfl
    | true =>
      obtain ⟨operation, bindings, body⟩ := Plan.run_of_acts (orderly.order.subset member) acts
      unfold PlannedMethod.Fits at fits
      rw [body, probes] at fits
      dsimp only at fits
      split at fits <;> cases fits

/-- What is left behind on the side that sends a call of a method: the dispatcher runs behind the
entry with which its request begins, and no callback begins behind it. -/
inductive Relayed (host : Host σ) (plan : Plan) (carrier : Dispatcher σ) (method : PlannedMethod)
    (call : Call) (deadline : Option Nat) (world later : World σ) : Prop
  /-- A request for the method carries the call. -/
  | relay (request : Request) (carried : World σ) (ending : Journal σ)
      (operation : request.operation = Plan.operationId plan.typeName method.name)
      (called : request.call = call)
      (dispatched : carried =
        (carrier request deadline (world.noting host.side (.began (.dispatch request)))).2)
      (quiet : visited ending = [])
      (left : later = ⟨carried.journal ++ ending, carried.clock⟩)

/-- The path to a dispatcher relays. -/
theorem Path.remote_relays (host : Host σ) (plan : Plan) (carrier : Dispatcher σ)
    (method : PlannedMethod) (call : Call) (deadline : Option Nat) (world : World σ) :
    Relayed host plan carrier method call deadline world
      (Path.remote host.side (Plan.operationId plan.typeName method.name) carrier call
        deadline world).2 := by
  obtain ⟨request, operation, same, sent⟩ := Path.remote_apply host.side
    (Plan.operationId plan.typeName method.name) carrier call deadline world
  rw [sent, Run.conclude_world, Run.mapError_world, Run.enclose_apply]
  cases ended : carrier request deadline (world.noting host.side (.began (.dispatch request))) with
  | mk result later =>
    have carried : later =
        (carrier request deadline (world.noting host.side (.began (.dispatch request)))).2 := by
      rw [ended]
    match result with
    | .ok response =>
      exact .relay request later [⟨host.side, .passed (.dispatch request)⟩] operation same carried
        rfl rfl
    | .error (.raised fault) =>
      exact .relay request later [⟨host.side, .stopped (.dispatch request)⟩] operation same carried
        rfl rfl
    | .error .overdue =>
      refine .relay request later [] operation same carried rfl ?_
      rw [List.append_nil]

/-- What a factory leaves behind for a call that is routed to a method: a method on the side of the
host is gated, and a method on another side is relayed. -/
theorem Factory.run_gated {host : Host σ} {plan : Plan} {dispatcher : Option (Dispatcher σ)}
    {factory : Factory σ} {method : PlannedMethod} (built : Built host plan dispatcher factory)
    (laidOut : plan.LaidOut) (member : method ∈ plan.methods) (role : method.role ≠ .save)
    (call : Call) (deadline : Option Nat) (world : World σ) :
    (∃ news, (factory.run method call deadline world).2.journal = world.journal ++ news ∧
      Gated host plan method world.journal news) ∨
    ∃ carrier, dispatcher = some carrier ∧ method.isRemote = true ∧
      Relayed host plan carrier method call deadline world
        (factory.run method call deadline world).2 := by
  have same := built.plan_eq laidOut
  cases built.placed laidOut member with
  | save saves => exact absurd saves role
  | sent _ carrier carried remote taken =>
    rw [same] at taken
    rw [run_eq taken]
    exact Or.inr ⟨carrier, carried, remote,
      Path.remote_relays host plan carrier method call deadline world⟩
  | here _ path stays found taken offered =>
    rw [same] at found
    rw [run_eq taken]
    obtain ⟨news, journal, orderly, _⟩ := localPath_follows found call deadline world
    exact Or.inl ⟨news, journal, orderly.gated (laidOut.fits method member)⟩

/-- What a run may leave behind that serves a request for an identity: nothing new, or what the
method with that identity may. -/
def Run.Serves (host : Host σ) (plan : Plan) (id : String) (run : Run σ Failure Response) : Prop :=
  ∀ deadline world, (run deadline world).2 = world ∨
    ∃ method ∈ plan.methods, Plan.operationId plan.typeName method.name = id ∧
      ∃ news, (run deadline world).2.journal = world.journal ++ news ∧
        Gated host plan method world.journal news

/-- The dispatch table of a factory serves requests. -/
theorem Factory.serve_serves {host : Host σ} {plan : Plan} {dispatcher : Option (Dispatcher σ)}
    {factory : Factory σ} (built : Built host plan dispatcher factory) (laidOut : plan.LaidOut)
    (request : Request) :
    Run.Serves host plan request.operation (factory.dispatchTable.serve request) := by
  intro deadline world
  unfold DispatchTable.serve
  cases offered : factory.dispatchTable.paths.get? request.operation with
  | none => exact Or.inl rfl
  | some path =>
    obtain ⟨method, member, _, _, identity, found⟩ := built.of_dispatchTable_get laidOut offered
    obtain ⟨news, journal, orderly, _⟩ := localPath_follows found request.call deadline world
    have left : ((path request.call >>= fun reply =>
        Run.ofExcept (.ok (⟨request.number, reply⟩ : Response))) deadline world).2 =
          (path request.call deadline world).2 :=
      Run.conclude_world fun reply => .ok (⟨request.number, reply⟩ : Response)
    refine Or.inr ⟨method, member, identity, news, ?_, orderly.gated (laidOut.fits method member)⟩
    exact (congrArg World.journal left).trans journal

/-- What a factory of a plan may leave behind, whatever the code of its host and its dispatcher
does. A call that is routed to a method has the role that it asks for, and the method is gated on
the side of the host or, when it is remote and there is a dispatcher, relayed; any other call leaves
nothing behind. A request that is served, with a time limit or without one, is gated as well. -/
structure Factory.GatesFirst (host : Host σ) (plan : Plan) (dispatcher : Option (Dispatcher σ))
    (factory : Factory σ) : Prop where
  answers : ∀ (ask : Ask) (deadline : Option Nat) (world : World σ),
    match ask.route plan with
    | .ok (some (method, call)) => method ∈ plan.methods ∧ method.role = ask.role ∧
      ((∃ news, (factory.answer ask deadline world).2.journal = world.journal ++ news ∧
        Gated host plan method world.journal news) ∨
      ∃ carrier, dispatcher = some carrier ∧ method.isRemote = true ∧
        Relayed host plan carrier method call deadline world (factory.answer ask deadline world).2)
    | _ => (factory.answer ask deadline world).2 = world
  serves : ∀ request,
    Run.Serves host plan request.operation (factory.dispatchTable.serve request)
  servesWithin : ∀ limit request,
    Run.Serves host plan request.operation (factory.dispatchTable.serveWithin limit request)

namespace Generation

/-- Gates come first in every factory that is built from a generated plan. -/
theorem generate_gates_first {config : Config} {catalog : Catalog} {typeName : String} {plan : Plan}
    (made : generate config catalog typeName = .ready plan) {host : Host σ}
    {dispatcher : Option (Dispatcher σ)} {factory : Factory σ}
    (built : Factory.Built host plan dispatcher factory) :
    factory.GatesFirst host plan dispatcher := by
  have laidOut := generate_laidOut made
  refine ⟨?_, fun request => Factory.serve_serves built laidOut request, ?_⟩
  · intro ask deadline world
    rw [Factory.answer_eq_follow, built.plan_eq laidOut]
    cases routed : ask.route plan with
    | error failure => rfl
    | ok found =>
      cases found with
      | none =>
        change ((Run.ofExcept _ : Run σ Failure ask.Result) deadline world).2 = world
        cases ask.conclude ask.name (.completed none) <;> rfl
      | some found =>
        obtain ⟨method, call⟩ := found
        obtain ⟨named, role⟩ := Ask.of_route routed
        have member := (laidOut.method_eq_some.mp named).1
        have left : ((Run.ofExcept (.ok (some (method, call))) >>= factory.follow ask)
            deadline world).2 = (factory.run method call deadline world).2 :=
          Run.conclude_world fun reply => ask.conclude method.name reply
        refine ⟨member, role, ?_⟩
        rw [left]
        refine Factory.run_gated built laidOut member ?_ call deadline world
        rw [role]
        exact ask.role_ne_save
  · intro limit request deadline world
    have left : (factory.dispatchTable.serveWithin limit request deadline world).2 =
        (factory.dispatchTable.serve request (some (Run.sooner limit deadline world)) world).2 :=
      Run.within_world limit
    rw [left]
    exact Factory.serve_serves built laidOut request _ world

/-- A side with code for everything, which lets everything pass. -/
def sampleHost (side : Side) : Host String where
  side := side
  handler? _ := some fun _ invocation => .ofResult (.ok ⟨invocation.target, .null⟩)
  checker? _ := some fun _ _ => .ofResult (.ok .allow)
  provider _ type := .ok type
  hooks := .idle

/-- Both kinds of factories are built of the sample plan, a remote one on the side of the client
with any dispatcher. -/
theorem sample_built : (∃ server, Factory.build (sampleHost .server) samplePlan = .ok server) ∧
    ∀ carrier, ∃ client,
      Factory.buildRemote (sampleHost .client) samplePlan (some carrier) = .ok client := by
  refine ⟨?_, fun carrier => ?_⟩
  · have builds : (Factory.build (sampleHost .server) samplePlan).isOk = true := rfl
    cases built : Factory.build (sampleHost .server) samplePlan with
    | ok server => exact ⟨server, rfl⟩
    | error failure =>
      rw [built] at builds
      cases builds
  · have builds :
        (Factory.buildRemote (sampleHost .client) samplePlan (some carrier)).isOk = true := rfl
    cases built : Factory.buildRemote (sampleHost .client) samplePlan (some carrier) with
    | ok client => exact ⟨client, rfl⟩
    | error failure =>
      rw [built] at builds
      cases builds

/-- Gates come first in a local factory of the sample plan and in a remote one that it serves. -/
theorem sample_gates_first :
    ∃ server client, Factory.build (sampleHost .server) samplePlan = .ok server ∧
      Factory.buildRemote (sampleHost .client) samplePlan
        (some (.loopback 100 server.dispatchTable)) = .ok client ∧
      server.GatesFirst (sampleHost .server) samplePlan none ∧
      client.GatesFirst (sampleHost .client) samplePlan
        (some (.loopback 100 server.dispatchTable)) := by
  obtain ⟨server, builtHere⟩ := sample_built.1
  obtain ⟨client, builtThere⟩ := sample_built.2 (.loopback 100 server.dispatchTable)
  exact ⟨server, client, builtHere, builtThere,
    generate_gates_first sample_generated (.here builtHere),
    generate_gates_first sample_generated (.remote builtThere)⟩

end Generation

end DomainFactory
