import DomainFactory.Proofs.Crossing
import DomainFactory.Proofs.Joining
import DomainFactory.Proofs.Words

/-!
# Identities across sides

A method that other sides can call has an identity, made of its type and its name. The plan, the
side that sends and the side that serves derive it separately: what a plan lists, what a remote
factory sends and what the table of a local one holds are the same identities. Identities of types
with plain names never meet, so the tables of several factories join in any order.
-/
namespace DomainFactory

variable {σ : Type}

namespace Plan

/-- The identities under which methods of a plan are called from other sides. -/
def identities (plan : Plan) : List String := plan.dispatch.map DispatchEntry.id

/-- What a plan lists for other sides. -/
structure ListsRemote (plan : Plan) : Prop where
  /-- Listed are the remote reads, writes and probes, in the order of the plan. -/
  listed : plan.dispatch = (plan.methods.filter fun method =>
    method.isRemote && [.read, .write, .probe].contains method.role).map fun method =>
      ⟨operationId plan.typeName method.name, method.name⟩
  /-- Reads, writes and probes are remote when their operations are. -/
  remote : ∀ method ∈ plan.methods, ∀ operation, method.operation? = some operation →
    method.isRemote = operation.remote
  /-- No identity is listed twice. -/
  distinct : plan.identities.Nodup
  /-- A remote factory can be built exactly when some operation is remote. -/
  constructions : plan.supports .remote = true ↔
    ∃ method ∈ plan.methods, ∃ operation bindings,
      method.body = .run operation bindings ∧ operation.remote = true

end Plan

/-- A set of paths with one side holds the other side when it is added. -/
@[simp] theorem Paths.includes_remote (added : Bool) :
    ((entry.union here).addWhen added remote).includes remote = added ∧
      (probe.addWhen added remote).includes remote = added := by
  cases added <;> decide

namespace Generation

variable {config : Config} {typeName : String} {findings : Findings} {method : PlannedMethod}

/-- Probes are remote when their operations are. -/
theorem resolved_probe_remote {probe : ProbeSpec}
    (member : .probe probe ∈ resolved config typeName findings) :
    probe.remote = probe.operation.remote := by
  obtain ⟨position, found⟩ := List.mem_iff_getElem?.mp member
  have same := resolved_unnamed_at config typeName findings position
  rw [found, Option.map_some] at same
  obtain ⟨plain, there, unnamed⟩ := Option.map_eq_some_iff.mp same.symm
  cases plain with
  | read name bound | write name bound | save spec => cases unnamed
  | probe plain =>
    have made : plain ∈ (Synthesis.synthesize typeName findings.bound).result.filterMap
        MethodSpec.probe? := List.mem_filterMap.mpr ⟨_, List.mem_of_getElem? there, rfl⟩
    rw [Synthesis.synthesize_probes] at made
    obtain ⟨_, _, probed⟩ := List.mem_filterMap.mp made
    have equal := MethodSpec.probe.inj unnamed
    have remote : plain.remote = probe.remote := (congrArg ProbeSpec.remote equal :)
    have operation : plain.operation = probe.operation := (congrArg ProbeSpec.operation equal :)
    rw [← remote, ← operation, (Synthesis.probeOf_eq_some.mp probed).2]

/-- Reads, writes and probes of a plan are remote when their operations are. -/
theorem planOf_isRemote (member : method ∈ (planOf config typeName findings).methods)
    {operation : Operation} (has : method.operation? = some operation) :
    method.isRemote = operation.remote := by
  rw [planOf_methods] at member
  obtain ⟨spec, present, rfl⟩ := List.mem_map.mp member
  cases spec with
  | read name bound | write name bound =>
    cases has
    exact (Paths.includes_remote _).1
  | save spec => cases has
  | probe probe =>
    cases has
    exact (Paths.includes_remote _).2.trans (resolved_probe_remote present)

/-- The operation of a method of a plan is that of a read or a write of the plan. -/
theorem planOf_run (member : method ∈ (planOf config typeName findings).methods)
    {operation : Operation} (has : method.operation? = some operation) :
    ∃ runs ∈ (planOf config typeName findings).methods, ∃ bindings,
      runs.body = .run operation bindings := by
  unfold PlannedMethod.operation? at has
  cases body : method.body with
  | save insert update delete tryName =>
    rw [body] at has
    cases has
  | run ran bindings =>
    rw [body] at has
    cases has
    exact ⟨method, member, bindings, body⟩
  | probe wraps asked bindings =>
    rw [body] at has
    cases has
    have listed := List.mem_filterMap.mpr ⟨method, member, PlannedMethod.asked_eq_some.mpr body⟩
    obtain ⟨position, bound, found, _, equal⟩ := (planOf_asked config typeName findings).mp listed
    cases equal
    obtain ⟨_, runs, there, bounds, _⟩ := planOf_method_at config typeName findings found
    exact ⟨runs, there, bound.bindings, PlannedMethod.bound_eq_some.mp bounds⟩

/-- A plan supports remote factories exactly when it lists something. -/
theorem planOf_supports_remote :
    (planOf config typeName findings).supports .remote = true ↔
      (planOf config typeName findings).dispatch ≠ [] := by
  unfold Plan.supports planOf Plan.build
  dsimp only
  generalize List.map _ (List.filter _ _) = dispatch
  cases dispatch with
  | nil => simp
  | cons entry entries => simp

/-- Generated plans list their remote methods. -/
theorem generate_lists_remote {catalog : Catalog} {plan : Plan}
    (made : generate config catalog typeName = .ready plan) : plan.ListsRemote := by
  have laidOut := generate_laidOut made
  obtain ⟨chain, _, rfl⟩ := of_generate_ready made
  refine ⟨?_, fun method member operation has => planOf_isRemote member has,
    laidOut.identities_nodup, ?_⟩
  · have apart : (fun method : PlannedMethod => method.isRemote && method.role != .save) =
        fun method => method.isRemote && [.read, .write, .probe].contains method.role := by
      funext method
      cases method.role <;> rfl
    rw [laidOut.offered, apart]
  · rw [planOf_supports_remote]
    constructor
    · intro some
      obtain ⟨entry, listed⟩ := List.exists_mem_of_ne_nil _ some
      obtain ⟨method, member, remote, role, _⟩ := laidOut.mem_dispatch.mp listed
      cases has : method.operation? with
      | none => exact absurd ((laidOut.fits method member).save has) role
      | some operation =>
        obtain ⟨runs, there, bindings, body⟩ := planOf_run member has
        exact ⟨runs, there, operation, bindings, body, planOf_isRemote member has ▸ remote⟩
    · rintro ⟨method, member, operation, bindings, body, remote⟩
      have has : method.operation? = some operation := by rw [PlannedMethod.operation?, body]
      refine List.ne_nil_of_mem (laidOut.mem_dispatch.mpr ⟨method, member, ?_, ?_, rfl⟩)
      · rw [planOf_isRemote member has, remote]
      · rw [(laidOut.fits method member).run body]
        split <;> simp only [ne_eq, reduceCtorEq, not_false_eq_true]

end Generation

namespace Factory

variable {host : Host σ} {plan : Plan} {carrier : Dispatcher σ} {factory : Factory σ}

/-- What the table of a local factory holds. -/
structure ServesListed (host : Host σ) (plan : Plan) (factory : Factory σ) : Prop where
  /-- It has the identities that the plan lists. -/
  identities : factory.dispatchTable.operations.Perm plan.identities
  /-- Each is served by the path that callers of the method with the listed name take, and that is
  the path on the side of the host. -/
  served : ∀ entry ∈ plan.dispatch, ∃ method path, plan.method? entry.method = some method ∧
    localPath host plan method = .ok path ∧ factory.paths.get? entry.method = some path ∧
    factory.dispatchTable.paths.get? entry.id = some path

/-- A local factory serves what its plan lists. -/
theorem build_serves_listed (built : build host plan = .ok factory) (laidOut : plan.LaidOut) :
    factory.ServesListed host plan := by
  have here : Built host plan none factory := .here built
  have served : ∀ entry ∈ plan.dispatch, ∃ method path, plan.method? entry.method = some method ∧
      localPath host plan method = .ok path ∧ factory.paths.get? entry.method = some path ∧
      factory.dispatchTable.paths.get? entry.id = some path := by
    intro entry listed
    obtain ⟨method, member, remote, role, rfl⟩ := laidOut.mem_dispatch.mp listed
    obtain ⟨path, found, taken, offered⟩ := here.taken_here laidOut member role
    exact ⟨method, path, laidOut.method_eq_some.mpr ⟨member, rfl⟩, found, taken, offered remote⟩
  refine ⟨?_, served⟩
  refine (List.perm_ext_iff_of_nodup (Keyed.keys_nodup _) laidOut.identities_nodup).mpr ?_
  intro id
  have contained : id ∈ factory.dispatchTable.operations ↔
      ∃ path, factory.dispatchTable.paths.get? id = some path :=
    Keyed.contains_iff.symm.trans Option.isSome_iff_exists
  refine contained.trans ?_
  constructor
  · rintro ⟨path, found⟩
    obtain ⟨method, member, remote, role, rfl, _⟩ := here.of_dispatchTable_get laidOut found
    exact List.mem_map_of_mem
      (laidOut.mem_dispatch.mpr ⟨method, member, remote, role, rfl⟩)
  · intro listed
    obtain ⟨entry, member, rfl⟩ := List.mem_map.mp listed
    obtain ⟨_, path, _, _, _, found⟩ := served entry member
    exact ⟨path, found⟩

/-- Where there is a dispatcher, nothing is served under a name that only remote methods have. -/
theorem foldlM_unserved {methods : List PlannedMethod} {name : String} {later : Factory σ}
    (remote : ∀ method ∈ methods, method.name = name → method.isRemote = true)
    (bound : methods.foldlM (addMethod host (some carrier)) factory = .ok later) :
    later.served.get? name = factory.served.get? name := by
  induction methods generalizing factory with
  | nil =>
    cases bound
    rfl
  | cons method methods ih =>
    rw [List.foldlM_cons] at bound
    obtain ⟨middle, added, bound⟩ := Except.bind_eq_ok bound
    rw [ih (fun other member => remote other (List.mem_cons_of_mem _ member)) bound]
    cases addMethod_adds added with
    | save role => rfl
    | sent role carrier carried sends => rfl
    | here role path stays found =>
      refine Keyed.get_insert_other _ _ fun same => ?_
      have sends := remote method List.mem_cons_self same
      rcases stays with none | here
      · cases none
      · exact absurd sends (Bool.eq_false_iff.mp here)

/-- A remote factory with a dispatcher serves nothing. -/
theorem buildRemote_serves_nothing
    (built : buildRemote host plan (some carrier) = .ok factory) (laidOut : plan.LaidOut) :
    factory.dispatchTable = .empty := by
  have same : factory.plan = plan := (Built.remote built).plan_eq laidOut
  have assembled : plan.methods.foldlM (addMethod host (some carrier))
      ⟨plan, .remote, .empty, .empty⟩ = .ok factory := built
  have nothing : factory.dispatchTable.paths = .empty := by
    refine Keyed.ext_get fun id => ?_
    rw [dispatchTable_get (by rw [same]; exact laidOut.identities_nodup), same]
    refine Option.bind_eq_none_iff.mpr fun entry found => ?_
    obtain ⟨method, member, remote, _, rfl⟩ := laidOut.mem_dispatch.mp (find_keyed found).1
    refine foldlM_unserved (fun other present equal => ?_) assembled
    rw [List.inj_on_of_nodup_map laidOut.distinct present member equal]
    exact remote
  exact congrArg DispatchTable.mk nothing

/-- A remote factory sends requests only under the identities of a table. -/
structure SendsServed (host : Host σ) (plan : Plan) (carrier : Dispatcher σ) (factory : Factory σ)
    (table : DispatchTable σ) : Prop where
  /-- A call of a remote method is one request, under an identity of the table. -/
  carried : ∀ {ask : Ask} {method : PlannedMethod} {call : Call},
    ask.route plan = .ok (some (method, call)) → method.isRemote = true →
      table.contains (Plan.operationId plan.typeName method.name) = true ∧
      ∀ deadline world, factory.answer ask deadline world =
        (Dispatcher.carried host.side carrier (ask.request host.side
            (Plan.operationId plan.typeName method.name) world.journal) >>= fun reply =>
          Run.ofExcept (ask.conclude method.name reply)) deadline world
  /-- What becomes of requests under other identities does not matter to any call. -/
  only : ∀ {other : Dispatcher σ} {sender : Factory σ},
    buildRemote host plan (some other) = .ok sender →
    (∀ request, table.contains request.operation = true → other request = carrier request) →
      ∀ ask : Ask, sender.answer ask = factory.answer ask

/-- What a remote factory answers does not depend on what its dispatcher does with requests under
identities that the plan does not list: it sends none of them. -/
theorem answer_sends_listed {other : Dispatcher σ} {sender : Factory σ}
    (built : buildRemote host plan (some carrier) = .ok factory)
    (again : buildRemote host plan (some other) = .ok sender) (laidOut : plan.LaidOut)
    (alike : ∀ request, request.operation ∈ plan.identities → other request = carrier request)
    (ask : Ask) : sender.answer ask = factory.answer ask := by
  by_cases remote : ask.IsRemote plan
  · obtain ⟨method, call, routed, remote⟩ := remote
    obtain ⟨named, role⟩ := Ask.of_route routed
    have listed : Plan.operationId plan.typeName method.name ∈ plan.identities :=
      List.mem_map_of_mem (laidOut.mem_dispatch.mpr ⟨method,
        (laidOut.method_eq_some.mp named).1, remote, role ▸ ask.role_ne_save, rfl⟩)
    funext deadline world
    rw [answer_carried again laidOut routed remote, answer_carried built laidOut routed remote]
    have request := alike (ask.request host.side (Plan.operationId plan.typeName method.name)
      world.journal) listed
    unfold Dispatcher.carried
    rw [request]
  · exact (sends_public built laidOut).stays again ask remote

/-- A table that has the identities that a plan lists contains nothing else. -/
theorem ServesListed.contains_iff (serves : factory.ServesListed host plan) {id : String} :
    factory.dispatchTable.contains id = true ↔ id ∈ plan.identities :=
  Keyed.contains_iff.trans serves.identities.mem_iff

/-- A remote factory sends what a local factory of the same plan serves. -/
theorem buildRemote_sends_served {side : Host σ} {server : Factory σ}
    (built : buildRemote host plan (some carrier) = .ok factory)
    (serves : server.ServesListed side plan) (laidOut : plan.LaidOut) :
    factory.SendsServed host plan carrier server.dispatchTable := by
  refine ⟨?_, ?_⟩
  · intro ask method call routed remote
    obtain ⟨named, role⟩ := Ask.of_route routed
    refine ⟨serves.contains_iff.mpr ?_, answer_carried built laidOut routed remote⟩
    exact List.mem_map_of_mem (laidOut.mem_dispatch.mpr ⟨method,
      (laidOut.method_eq_some.mp named).1, remote, role ▸ ask.role_ne_save, rfl⟩)
  · intro other sender again alike
    exact answer_sends_listed built again laidOut fun request listed =>
      alike request (serves.contains_iff.mpr listed)

end Factory

/-- A local factory of a generated plan, with the code of the side that it serves. -/
structure Server (σ : Type) where
  /-- The plan. -/
  plan : Plan
  /-- The code. -/
  host : Host σ
  /-- The factory. -/
  factory : Factory σ
  /-- The plan is generated. -/
  generated : ∃ config catalog, Generation.generate config catalog plan.typeName = .ready plan
  /-- The factory is built from it. -/
  built : Factory.build host plan = .ok factory

namespace Server

/-- What the server serves. -/
def table (server : Server σ) : DispatchTable σ := server.factory.dispatchTable

/-- The plan of a server is laid out. -/
theorem laidOut (server : Server σ) : server.plan.LaidOut := by
  obtain ⟨config, catalog, made⟩ := server.generated
  exact Generation.generate_laidOut made

/-- What a server serves is what its plan lists. -/
theorem serves (server : Server σ) : server.factory.ServesListed server.host server.plan :=
  Factory.build_serves_listed server.built server.laidOut

end Server

/-- The type of an identity can be read off it when the name of the type has no colon. -/
theorem Plan.operationId_typeName {left right leftMethod rightMethod : String}
    (leftPlain : Syntax.IsPlainWord left) (rightPlain : Syntax.IsPlainWord right)
    (same : operationId left leftMethod = operationId right rightMethod) : left = right := by
  have before {type method : String} (plain : Syntax.IsPlainWord type) :
      (operationId type method).toList.takeWhile (· != ':') = type.toList := by
    have separated : (operationId type method).toList =
        type.toList ++ ':' :: ':' :: method.toList := by
      simp [operationId]
    rw [separated, List.takeWhile_append_of_pos]
    · simp
    · intro c member
      rw [bne_iff_ne]
      rintro rfl
      exact plain.colon_notMem member
  rw [← String.toList_inj, ← before leftPlain, same, before rightPlain]

/-- The identities of laid out plans of different types with plain names are different. -/
theorem Plan.LaidOut.identities_disjoint {left right : Plan} (leftLaidOut : left.LaidOut)
    (rightLaidOut : right.LaidOut) (leftPlain : Syntax.IsPlainWord left.typeName)
    (rightPlain : Syntax.IsPlainWord right.typeName) (different : left.typeName ≠ right.typeName) :
    left.identities.Disjoint right.identities := by
  intro id here there
  obtain ⟨entry, listed, rfl⟩ := List.mem_map.mp here
  obtain ⟨_, _, _, _, rfl⟩ := leftLaidOut.mem_dispatch.mp listed
  obtain ⟨entry, listed, same⟩ := List.mem_map.mp there
  obtain ⟨_, _, _, _, rfl⟩ := rightLaidOut.mem_dispatch.mp listed
  exact different (operationId_typeName leftPlain rightPlain same.symm)

namespace Server

/-- The table of several servers together. -/
def joined (servers : List (Server σ)) : DispatchTable σ := .joined (servers.map table)

/-- The tables of several servers can be joined. -/
structure Joins (servers : List (Server σ)) : Prop where
  /-- The plans of any two of them list different identities. -/
  apart : servers.Pairwise fun left right => left.plan.identities.Disjoint right.plan.identities
  /-- The order in which they are joined does not matter. -/
  order : ∀ others : List (Server σ), others.Perm servers → joined others = joined servers
  /-- Every path of every server is found under its identity, and nothing else is found. -/
  kept : ∀ id path, (joined servers).paths.get? id = some path ↔
    ∃ server ∈ servers, server.table.paths.get? id = some path

/-- Servers of different types with plain names can be joined. -/
theorem joins {servers : List (Server σ)}
    (plain : ∀ server ∈ servers, Syntax.IsPlainWord server.plan.typeName)
    (different : (servers.map (·.plan.typeName)).Nodup) : Joins servers := by
  have apart : servers.Pairwise fun left right =>
      left.plan.identities.Disjoint right.plan.identities := by
    refine (List.pairwise_map.mp different).imp_of_mem fun {left right} here there unequal => ?_
    exact left.laidOut.identities_disjoint right.laidOut (plain left here) (plain right there)
      unequal
  have tables : (servers.map table).Pairwise DispatchTable.Apart := by
    refine List.pairwise_map.mpr (apart.imp fun {left right} disjoint id here => ?_)
    refine Bool.eq_false_iff.mpr fun there => ?_
    exact disjoint (left.serves.contains_iff.mp here) (right.serves.contains_iff.mp there)
  refine ⟨apart, fun others order => DispatchTable.joined_perm tables (order.map table), ?_⟩
  intro id path
  rw [joined, DispatchTable.joined_get tables]
  simp only [List.mem_map, exists_exists_and_eq_and]

end Server

namespace Generation

variable {config : Config} {catalog : Catalog} {typeName : String} {plan : Plan}

/-- Identities agree on all sides. What a generated plan lists for other sides are its remote reads,
writes and probes; that is what every local factory of it serves and all that a remote factory
sends, while a remote factory with a dispatcher serves nothing. The tables of servers of different
types with plain names can be joined in any order, and nothing is lost. -/
theorem generate_identities (made : generate config catalog typeName = .ready plan) :
    plan.ListsRemote ∧
    (∀ (host : Host σ) server, Factory.build host plan = .ok server →
      server.ServesListed host plan ∧
      ∀ (side : Host σ) carrier client, Factory.buildRemote side plan (some carrier) = .ok client →
        client.SendsServed side plan carrier server.dispatchTable) ∧
    (∀ (host : Host σ) carrier client, Factory.buildRemote host plan (some carrier) = .ok client →
      client.dispatchTable = .empty) ∧
    ∀ servers : List (Server σ),
      (∀ server ∈ servers, Syntax.IsPlainWord server.plan.typeName) →
      (servers.map (·.plan.typeName)).Nodup → Server.Joins servers := by
  have laidOut := generate_laidOut made
  refine ⟨generate_lists_remote made, ?_, ?_, fun servers => Server.joins⟩
  · intro host server built
    have serves := Factory.build_serves_listed built laidOut
    exact ⟨serves, fun side carrier client sends =>
      Factory.buildRemote_sends_served sends serves laidOut⟩
  · intro host carrier client built
    exact Factory.buildRemote_serves_nothing built laidOut

/-- A type with a remote function. -/
def sampleRobot : Surface where
  name := "Robot"
  factory := true
  methods := ["#[factory(execute, remote)] fn greet(name: String) -> String"]

/-- The function of the robot. -/
def sampleGreet : Operation where
  kind := .execute
  declaringType := "Robot"
  method := "greet"
  handler := "Robot::greet"
  publicName := "greet"
  shape := .value
  remote := true
  parameters := [⟨"name", "String", .business⟩]
  index := 0

/-- The plan of the robot. -/
def sampleRobotPlan : Plan where
  typeName := "Robot"
  factoryName := "RobotFactory"
  saveState := false
  methods := [{ name := "greet", role := .read, paths := ⟨13⟩
                parameters := [⟨"name", "String", .business⟩]
                payload := [⟨"name", "String", .business⟩], body := .run sampleGreet [] }]
  checks := []
  dispatch := [⟨"Robot::greet", "greet"⟩]
  constructions := [.here, .remote]
  registrationHook := "register_robot_factory"
  diagnostics := []

/-- The plan of the robot is generated. -/
theorem sampleRobot_generated :
    generate {} (Catalog.empty.insertAll [sampleRobot]) "Robot" = .ready sampleRobotPlan := by
  have chained : (Catalog.empty.insertAll [sampleRobot]).chain "Robot" =
      .ok ⟨[sampleRobot], none⟩ := by decide +kernel
  have found : findings (Catalog.empty.insertAll [sampleRobot]) {} ⟨[sampleRobot], none⟩ =
      ⟨[⟨sampleGreet, []⟩], [], false, []⟩ := by decide +kernel
  have ordered : ((Naming.positioned (Synthesis.synthesize "Robot"
      [⟨sampleGreet, []⟩]).result).filter (!·.2.isProbe)).Pairwise fun left right =>
        Naming.namedBefore left right = true := by decide +kernel
  have laid : planOf {} "Robot" ⟨[⟨sampleGreet, []⟩], [], false, []⟩ = sampleRobotPlan := by
    simp only [planOf, Naming.resolve, Naming.namePrimary_ordered {} ordered]
    decide +kernel
  rw [generate, chained, ← laid, ← found]

/-- The robot has a local factory. -/
theorem sampleRobot_built :
    ∃ server, Factory.build (sampleHost .server) sampleRobotPlan = .ok server := by
  have builds : (Factory.build (sampleHost .server) sampleRobotPlan).isOk = true := rfl
  cases built : Factory.build (sampleHost .server) sampleRobotPlan with
  | ok server => exact ⟨server, rfl⟩
  | error failure =>
    rw [built] at builds
    cases builds

/-- Identities of the sample agree on all sides, and its server and that of the robot join. -/
theorem sample_identities : samplePlan.ListsRemote ∧
    ∃ server client : Factory String, server.ServesListed (sampleHost .server) samplePlan ∧
      client.SendsServed (sampleHost .client) samplePlan sampleCarrier server.dispatchTable ∧
      client.dispatchTable = .empty ∧
      ∃ servers : List (Server String),
        servers.map (·.plan.typeName) = ["Person", "Robot"] ∧ Server.Joins servers := by
  obtain ⟨lists, serves, nothing, joins⟩ := generate_identities (σ := String) sample_generated
  obtain ⟨server, built⟩ := sample_built.1
  obtain ⟨client, sends⟩ := sample_built.2 sampleCarrier
  obtain ⟨robot, robotBuilt⟩ := sampleRobot_built
  refine ⟨lists, server, client, (serves _ _ built).1, (serves _ _ built).2 _ _ _ sends,
    nothing _ _ _ sends, [
      ⟨samplePlan, sampleHost .server, server, ⟨_, _, sample_generated⟩, built⟩,
      ⟨sampleRobotPlan, sampleHost .server, robot, ⟨_, _, sampleRobot_generated⟩, robotBuilt⟩],
    rfl, joins _ ?_ (show ["Person", "Robot"].Nodup by decide)⟩
  intro server member
  rcases List.mem_cons.mp member with rfl | member
  · exact (by decide : Syntax.IsPlainWord "Person")
  · rw [List.mem_singleton.mp member]
    exact (by decide : Syntax.IsPlainWord "Robot")

end Generation

end DomainFactory
