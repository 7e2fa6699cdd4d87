import DomainFactory.Proofs.GateOrder
import DomainFactory.Proofs.Mirroring

/-!
# Parity of local and remote factories

A remote factory whose dispatcher serves its requests from the table of a local factory gives what
the local one gives, and the same code runs in the same order, as long as the calls that it sends
end in time. Code counts as the same when it answers alike after all that sounds alike.
-/
namespace DomainFactory

variable {σ : Type}

namespace Host

/-- Whether the code of two hosts at a station is the same. -/
def SameAt (left right : Host σ) : Station → Prop
  | .resolve type => ∀ leftPast rightPast, heard leftPast = heard rightPast →
      left.provider leftPast type = right.provider rightPast type
  | .check key => ∀ leftChecker rightChecker, left.checker? key = some leftChecker →
      right.checker? key = some rightChecker → ∀ leftPast rightPast,
        heard leftPast = heard rightPast → leftChecker leftPast = rightChecker rightPast
  | .before operation => ∀ leftPast rightPast, heard leftPast = heard rightPast →
      left.hooks.before leftPast operation = right.hooks.before rightPast operation
  | .handler key => ∀ leftHandler rightHandler, left.handler? key = some leftHandler →
      right.handler? key = some rightHandler → ∀ leftPast rightPast,
        heard leftPast = heard rightPast → leftHandler leftPast = rightHandler rightPast
  | .after operation => ∀ leftPast rightPast, heard leftPast = heard rightPast →
      left.hooks.after leftPast operation = right.hooks.after rightPast operation
  | .dispatch _ => True

/-- Whether the code of two hosts is the same wherever a method calls it. -/
def SameFor (left right : Host σ) (plan : Plan) (method : PlannedMethod) : Prop :=
  ∀ station ∈ plan.stations method, left.SameAt right station

variable {left right : Host σ}

/-- Services are found alike by the same code. -/
theorem mirrors_resolve {type : String} (same : left.SameAt right (.resolve type)) :
    Run.Mirrors (left.resolve type) (right.resolve type) :=
  Run.mirrors_consult _ _ _ _ fun leftPast rightPast alike =>
    congrArg Answer.ofResult (same leftPast rightPast alike)

/-- Services are found alike, one after another, by the same code. -/
theorem mirrors_resolveAll {parameters : List Parameter}
    (same : ∀ station ∈ serviceStations parameters, left.SameAt right station) :
    Run.Mirrors (left.resolveAll parameters) (right.resolveAll parameters) := by
  unfold resolveAll
  generalize (Keyed.empty : Keyed σ) = services
  induction parameters generalizing services with
  | nil => exact Run.mirrors_ofExcept (.ok services)
  | cons parameter parameters ih =>
    rw [List.foldlM_cons, List.foldlM_cons]
    have first : Run.Mirrors
        (left.resolve parameter.type >>= fun service =>
          Run.pure (services.insert parameter.name service))
        (right.resolve parameter.type >>= fun service =>
          Run.pure (services.insert parameter.name service)) :=
      (mirrors_resolve (same _ List.mem_cons_self)).bind fun service =>
        Run.mirrors_ofExcept (.ok (services.insert parameter.name service))
    exact first.bind fun services =>
      ih (fun station member => same station (List.mem_cons_of_mem _ member)) services

/-- Hooks before a handler run alike when they are the same code. -/
theorem mirrors_before {operation : Operation} (same : left.SameAt right (.before operation))
    (target : Option Entity) :
    Run.Mirrors (left.before operation target) (right.before operation target) :=
  Run.mirrors_consult _ _ _ _ fun leftPast rightPast alike =>
    congrFun (same leftPast rightPast alike) target

/-- Handlers run alike when they are the same code. -/
theorem mirrors_handle {key : String} {leftHandler rightHandler : Handler σ}
    (same : left.SameAt right (.handler key)) (here : left.handler? key = some leftHandler)
    (there : right.handler? key = some rightHandler) (invocation : Invocation σ) :
    Run.Mirrors (left.handle key leftHandler invocation)
      (right.handle key rightHandler invocation) :=
  Run.mirrors_consult _ _ _ _ fun leftPast rightPast alike =>
    congrFun (same leftHandler rightHandler here there leftPast rightPast alike) invocation

/-- Hooks after a handler run alike when they are the same code. -/
theorem mirrors_after {operation : Operation} (same : left.SameAt right (.after operation))
    (output : Option Output) :
    Run.Mirrors (left.after operation output) (right.after operation output) :=
  Run.mirrors_consult _ _ _ _ fun leftPast rightPast alike =>
    congrFun (same leftPast rightPast alike) output

end Host

/-- Two checks of gates are asked the same and answer alike. -/
structure GateCheck.Alike (left right : GateCheck σ) : Prop where
  key : left.key = right.key
  slots : left.slots = right.slots
  code : ∀ leftPast rightPast, heard leftPast = heard rightPast →
    left.checker leftPast = right.checker rightPast

namespace Gate

/-- Gates of the same bindings have checks that are alike, when the code of the hosts for them is
the same. -/
theorem build_alike {left right : Host σ} {plan : Plan} {operation : Operation}
    {bindings : List Binding} {leftGate rightGate : Gate σ}
    (here : build left plan.checks operation bindings = .ok leftGate)
    (there : build right plan.checks operation bindings = .ok rightGate)
    (same : ∀ station ∈ plan.checkStations bindings, left.SameAt right station) :
    List.Forall₂ GateCheck.Alike leftGate.checks rightGate.checks := by
  obtain ⟨_, _, leftPairs⟩ := build_eq_ok here
  obtain ⟨_, _, rightPairs⟩ := build_eq_ok there
  generalize leftGate.checks = leftChecks at leftPairs ⊢
  generalize rightGate.checks = rightChecks at rightPairs ⊢
  clear here there
  induction leftPairs generalizing rightChecks with
  | nil =>
    cases rightPairs
    exact .nil
  | @cons binding leftCheck bindings leftChecks leftMade _ ih =>
    cases rightPairs with
    | @cons _ rightCheck _ rightChecks rightMade rightPairs =>
      obtain ⟨declared, leftChecker, found, leftCode, rfl⟩ := GateCheck.ofBinding_eq_ok.mp leftMade
      obtain ⟨other, rightChecker, again, rightCode, rfl⟩ := GateCheck.ofBinding_eq_ok.mp rightMade
      cases found.symm.trans again
      have agree : left.SameAt right (.check (plan.checkKey binding)) :=
        same _ List.mem_cons_self
      rw [Plan.checkKey_eq found] at agree
      refine .cons ⟨rfl, rfl, agree leftChecker rightChecker leftCode rightCode⟩ ?_
      exact ih (fun station member => same station (List.mem_cons_of_mem _ member)) rightChecks
        rightPairs

/-- Checks that are alike are asked alike, up to the first denial. -/
theorem mirrors_askAll (here there : Side) (kind : Kind) (call : Call) (services : Keyed σ)
    {left right : List (GateCheck σ)} (alike : List.Forall₂ GateCheck.Alike left right) :
    Run.Mirrors (askAll here kind call services left) (askAll there kind call services right) := by
  induction alike with
  | nil => exact Run.mirrors_ofExcept (.ok Verdict.allow)
  | @cons leftCheck rightCheck left right first _ ih =>
    have question : rightCheck.question kind call services =
        leftCheck.question kind call services := by
      unfold GateCheck.question
      rw [first.key, first.slots]
    have asked : Run.Mirrors (leftCheck.ask here (leftCheck.question kind call services))
        (rightCheck.ask there (rightCheck.question kind call services)) := by
      rw [question]
      exact Run.mirrors_consult _ _ _ _ fun leftPast rightPast heard =>
        congrFun (first.code leftPast rightPast heard) _
    refine asked.bind fun verdict => ?_
    cases verdict.allowed with
    | true => exact ih
    | false => exact Run.mirrors_ofExcept (.ok verdict)

end Gate

namespace Path

variable {left right : Host σ} {plan : Plan} {operation : Operation} {bindings : List Binding}
  {leftGate rightGate : Gate σ}

/-- The gates of an operation are passed alike when the code of the hosts for it is the same. -/
theorem mirrors_gate
    (here : Gate.build left plan.checks operation bindings = .ok leftGate)
    (there : Gate.build right plan.checks operation bindings = .ok rightGate)
    (same : ∀ station ∈ plan.gateStations operation bindings, left.SameAt right station)
    (call : Call) :
    Run.Mirrors (left.resolveAll operation.injectedParameters)
      (right.resolveAll operation.injectedParameters) ∧ ∀ services,
        Run.Mirrors (leftGate.evaluate call services) (rightGate.evaluate call services) := by
  have services : ∀ station ∈ Host.serviceStations operation.injectedParameters,
      left.SameAt right station := fun station member =>
    same station (List.mem_append_left _ member)
  have checks : ∀ station ∈ plan.checkStations bindings, left.SameAt right station :=
    fun station member => same station (List.mem_append_right _ member)
  refine ⟨Host.mirrors_resolveAll services, fun given => ?_⟩
  unfold Gate.evaluate
  rw [(Gate.build_eq_ok here).2.1, (Gate.build_eq_ok there).2.1]
  exact Gate.mirrors_askAll _ _ _ _ _ (Gate.build_alike here there checks)

/-- An operation runs alike on two hosts whose code for it is the same. -/
theorem mirrors_execute {typeName : String} {saveState : Bool}
    {leftHandler rightHandler : Handler σ}
    (here : Gate.build left plan.checks operation bindings = .ok leftGate)
    (there : Gate.build right plan.checks operation bindings = .ok rightGate)
    (handledHere : left.handler? operation.handler = some leftHandler)
    (handledThere : right.handler? operation.handler = some rightHandler)
    (same : ∀ station ∈ plan.gateStations operation bindings ++
      [.before operation, .handler operation.handler, .after operation],
        left.SameAt right station) (call : Call) :
    Run.Mirrors (execute left typeName saveState operation leftHandler leftGate call)
      (execute right typeName saveState operation rightHandler rightGate call) := by
  obtain ⟨found, asked⟩ := mirrors_gate here there
    (fun station member => same station (List.mem_append_left _ member)) call
  have before : left.SameAt right (.before operation) := same _ (by simp)
  have handler : left.SameAt right (.handler operation.handler) := same _ (by simp)
  have after : left.SameAt right (.after operation) := same _ (by simp)
  unfold execute
  refine (found.mapError _).bind fun services => ?_
  refine ((asked services).mapError _).bind fun verdict => ?_
  cases verdict.allowed with
  | false => exact Run.mirrors_ofExcept (.ok (Reply.denied verdict))
  | true =>
    refine (Run.mirrors_ofExcept (operation.receiver typeName call.target)).bind fun target => ?_
    refine ((Host.mirrors_before before target).mapError _).bind fun _ => ?_
    refine ((Host.mirrors_handle handler handledHere handledThere _).mapError _).bind
      fun completion => ?_
    refine ((Host.mirrors_after after _).mapError _).bind fun _ => ?_
    exact Run.mirrors_ofExcept (.ok (Reply.completed (operation.output? saveState completion)))

/-- An operation is probed alike on two hosts whose code for its gate is the same. -/
theorem mirrors_probe
    (here : Gate.build left plan.checks operation bindings = .ok leftGate)
    (there : Gate.build right plan.checks operation bindings = .ok rightGate)
    (same : ∀ station ∈ plan.gateStations operation bindings, left.SameAt right station)
    (call : Call) :
    Run.Mirrors (probe left operation leftGate call) (probe right operation rightGate call) := by
  obtain ⟨found, asked⟩ := mirrors_gate here there same ⟨none, call.arguments⟩
  unfold probe
  refine (found.mapError _).bind fun services => ?_
  refine ((asked services).mapError _).bind fun verdict => ?_
  exact Run.mirrors_ofExcept (.ok (Reply.probed verdict))

end Path

namespace Factory

/-- A method runs alike on two hosts whose code for it is the same. -/
theorem localPath_mirrors {left right : Host σ} {plan : Plan} {method : PlannedMethod}
    {leftPath rightPath : Path σ} (here : localPath left plan method = .ok leftPath)
    (there : localPath right plan method = .ok rightPath) (same : left.SameFor right plan method)
    (call : Call) : Run.Mirrors (leftPath call) (rightPath call) := by
  cases localPath_runsHere here with
  | run body handledHere builtHere =>
    cases localPath_runsHere there with
    | run again handledThere builtThere =>
      cases body.symm.trans again
      unfold Host.SameFor at same
      rw [Plan.stations_run body] at same
      exact Path.mirrors_execute builtHere builtThere handledHere handledThere same call
    | probe again _ => cases body.symm.trans again
  | probe body builtHere =>
    cases localPath_runsHere there with
    | run again _ _ => cases body.symm.trans again
    | probe again builtThere =>
      cases body.symm.trans again
      unfold Host.SameFor at same
      rw [Plan.stations_probe body] at same
      exact Path.mirrors_probe builtHere builtThere same call

end Factory

/-- A table answers a request with the reply of its path, under the number of the request. -/
theorem DispatchTable.serve_apply {table : DispatchTable σ} {request : Request} {path : Path σ}
    (offered : table.paths.get? request.operation = some path) {deadline : Option Nat}
    {world later : World σ} {result : Except (Stop Failure) Reply}
    (ended : path request.call deadline world = (result, later)) :
    table.serve request deadline world = (result.map (Response.mk request.number), later) := by
  unfold serve
  rw [offered]
  change (path request.call >>= _) deadline world = _
  cases result with
  | ok reply =>
    rw [Run.bind_ok ended]
    rfl
  | error stop =>
    rw [Run.bind_error ended]
    rfl

/-- How a request comes back from a side that serves it within a time limit, by how its path ended
there. -/
inductive Returned (side : Side) (request : Request) (limit : Nat) (deadline : Option Nat)
    (start : World σ) : Except (Stop Failure) Reply × World σ →
      Except (Stop Failure) Reply × World σ → Prop
  /-- It gave a reply. -/
  | replied {reply : Reply} {later : World σ} : Returned side request limit deadline start
      (.ok reply, later) (.ok reply, later.noting side (.passed (.dispatch request)))
  /-- It failed, and the failure is recovered. -/
  | failed {failure : Failure} {later : World σ} : Returned side request limit deadline start
      (.error (.raised failure), later)
      (.error (.raised failure), later.noting side (.stopped (.dispatch request)))
  /-- It was overdue at the limit. -/
  | late {later : World σ} (limited : Run.sooner limit deadline start = start.clock + limit) :
      Returned side request limit deadline start (.error .overdue, later)
        (.error (.raised (.timeout limit)), later.noting side (.stopped (.dispatch request)))
  /-- It was overdue at an earlier deadline. -/
  | overdue {later : World σ} (earlier : Run.sooner limit deadline start ≠ start.clock + limit) :
      Returned side request limit deadline start (.error .overdue, later) (.error .overdue, later)

/-- What comes back to the side that sent a request, from what the other side served. -/
def Request.answered (side : Side) (request : Request) :
    Except (Stop Failure) Response × World σ → Except (Stop Failure) Reply × World σ
  | (.ok response, later) => (.ok response.reply, later.noting side (.passed (.dispatch request)))
  | (.error (.raised failure), later) =>
    (.error (.raised failure), later.noting side (.stopped (.dispatch request)))
  | (.error .overdue, later) => (.error .overdue, later)

/-- A request to a table is answered with what the table serves within a time limit. -/
theorem Path.remote_eq {table : DispatchTable σ} (side : Side) {limit : Nat} {request : Request}
    {deadline : Option Nat} {world : World σ} :
    (Run.mapError Fault.recovered (.enclose side (.dispatch request) (fun _ => true)
        (Dispatcher.loopback limit table request)) >>= fun response =>
      Run.ofExcept (.ok response.reply)) deadline world =
        request.answered side (table.serveWithin limit request deadline
          (world.noting side (.began (.dispatch request)))) := by
  have enclosed := Run.enclose_apply side (.dispatch request) (fun _ : Response => true)
    (Dispatcher.loopback limit table request) deadline world
  cases served : table.serveWithin limit request deadline
      (world.noting side (.began (.dispatch request))) with
  | mk result later =>
    have carried : Dispatcher.loopback limit table request deadline
        (world.noting side (.began (.dispatch request))) =
          (result.mapError (Stop.map Fault.carried), later) := by
      unfold Dispatcher.loopback Run.mapError
      rw [served]
      cases result <;> rfl
    rw [carried] at enclosed
    have received : Run.mapError Fault.recovered (.enclose side (.dispatch request) (fun _ => true)
        (Dispatcher.loopback limit table request)) deadline world =
          (result, (request.answered side (result, later)).2) := by
      unfold Run.mapError
      rw [enclosed]
      match result with
      | .ok response => rfl
      | .error (.raised failure) => rfl
      | .error .overdue => rfl
    match result with
    | .ok response => exact Run.bind_ok received
    | .error (.raised failure) => exact Run.bind_error received
    | .error .overdue => exact Run.bind_error received

/-- A call that is sent to a table comes back from the path that serves it. -/
theorem Path.remote_returned {path : Path σ} {table : DispatchTable σ} {id : String} (side : Side)
    {limit : Nat} {call : Call} (offered : table.paths.get? id = some path) (deadline : Option Nat)
    (world : World σ) : ∃ request : Request,
      Returned side request limit deadline (world.noting side (.began (.dispatch request)))
        (path call (some (Run.sooner limit deadline (world.noting side
          (.began (.dispatch request))))) (world.noting side (.began (.dispatch request))))
        (remote side id (.loopback limit table) call deadline world) := by
  obtain ⟨request, rfl, rfl, sent⟩ :=
    remote_apply side id (.loopback limit table) call deadline world
  refine ⟨request, ?_⟩
  rw [sent, remote_eq]
  cases ended : path request.call (some (Run.sooner limit deadline (world.noting side
      (.began (.dispatch request))))) (world.noting side (.began (.dispatch request))) with
  | mk result later =>
    have served := DispatchTable.serve_apply offered ended
    have inTime (timely : (table.serve request (some (Run.sooner limit deadline (world.noting side
        (.began (.dispatch request))))) (world.noting side (.began (.dispatch request)))).1 ≠
          .error .overdue) : table.serveWithin limit request deadline
            (world.noting side (.began (.dispatch request))) =
              (result.map (Response.mk request.number), later) :=
      (Run.within_punctual timely).trans served
    match result with
    | .ok reply =>
      rw [inTime (by rw [served]; exact nofun)]
      exact .replied
    | .error (.raised failure) =>
      rw [inTime (by rw [served]; exact nofun)]
      exact .failed
    | .error .overdue =>
      have overdue : table.serveWithin limit request deadline _ = _ := Run.within_overdue served
      rw [overdue]
      by_cases limited :
          Run.sooner limit deadline (world.noting side (.began (.dispatch request))) =
            (world.noting side (.began (.dispatch request))).clock + limit
      · rw [if_pos limited]
        exact .late limited
      · rw [if_neg limited]
        exact .overdue limited

/-- A call that ends within the time limit ends alike when it is sent to a table with its path. -/
theorem Path.remote_same {path : Path σ} {table : DispatchTable σ} {id : String} (side : Side)
    {limit : Nat} {call : Call} (offered : table.paths.get? id = some path)
    (steady : Run.Mirrors (path call) (path call)) {deadline : Option Nat} {left right : World σ}
    (alike : left.Alike right) (ends : Run.EndsWithin limit (path call) deadline left) :
    (path call deadline left).1 =
        (remote side id (.loopback limit table) call deadline right).1 ∧
      (path call deadline left).2.Alike
        (remote side id (.loopback limit table) call deadline right).2 := by
  obtain ⟨request, returned⟩ := remote_returned side offered deadline right
  have silent : left.Alike (right.noting side (.began (.dispatch request))) :=
    alike.silent side rfl
  obtain ⟨results, worlds⟩ := steady.same deadline _ left _ silent (ends.inTime silent.clock)
  have punctual := ends.1
  rw [results] at punctual ⊢
  cases ended : path call
      (some (Run.sooner limit deadline (right.noting side (.began (.dispatch request)))))
      (right.noting side (.began (.dispatch request))) with
  | mk result later =>
    rw [ended] at returned punctual worlds
    generalize remote side id (.loopback limit table) call deadline right = back at returned ⊢
    cases returned with
    | replied => exact ⟨rfl, worlds.silent side rfl⟩
    | failed => exact ⟨rfl, worlds.silent side rfl⟩
    | late => exact absurd rfl punctual
    | overdue => exact absurd rfl punctual

namespace Factory

variable {here there : Host σ} {plan : Plan} {limit : Nat} {server client : Factory σ}

/-- A method runs alike on a local factory and on a remote one that the local one serves. -/
theorem run_same {method : PlannedMethod} (builtHere : build here plan = .ok server)
    (builtThere : buildRemote there plan (some (.loopback limit server.dispatchTable)) = .ok client)
    (laidOut : plan.LaidOut) (member : method ∈ plan.methods) (role : method.role ≠ .save)
    (steady : method.isRemote = true → here.SameFor here plan method)
    (same : method.isRemote = false → here.SameFor there plan method) {call : Call}
    {deadline : Option Nat} {left right : World σ} (alike : left.Alike right)
    (ends : method.isRemote = true →
      Run.EndsWithin limit (server.run method call) deadline left) :
    (server.run method call deadline left).1 = (client.run method call deadline right).1 ∧
      (server.run method call deadline left).2.Alike (client.run method call deadline right).2 := by
  have sends := Built.remote builtThere
  obtain ⟨path, found, taken, offered⟩ := (Built.here builtHere).taken_here laidOut member role
  rw [run_eq taken] at ends ⊢
  cases sends.placed laidOut member with
  | save saves => exact absurd saves role
  | sent _ carrier carried remote sent =>
    cases carried
    rw [sends.plan_eq laidOut] at sent
    rw [run_eq sent]
    exact Path.remote_same there.side (offered remote)
      (localPath_mirrors found found (steady remote) call) alike (ends remote)
  | here _ other stays foundThere takenThere _ =>
    rw [sends.plan_eq laidOut] at foundThere
    rw [run_eq takenThere]
    have stays : method.isRemote = false := stays.resolve_left nofun
    exact (localPath_mirrors found foundThere (same stays) call).same deadline deadline left right
      alike (Or.inl rfl)

end Factory

/-- Whether a call runs a remote method. -/
def Ask.IsRemote (plan : Plan) (ask : Ask) : Prop :=
  ∃ method call, ask.route plan = .ok (some (method, call)) ∧ method.isRemote = true

namespace Generation

/-- A remote factory that is served by a local one of the same plan gives what the local one gives,
and the same is heard of both. The code for remote methods answers alike after all that sounds
alike; the code for other methods is the same on both sides; and a call of a remote method ends
within the time limit. -/
theorem generate_parity {config : Config} {catalog : Catalog} {typeName : String} {plan : Plan}
    (made : generate config catalog typeName = .ready plan) {here there : Host σ} {limit : Nat}
    {server client : Factory σ} (builtHere : Factory.build here plan = .ok server)
    (builtThere : Factory.buildRemote there plan
      (some (.loopback limit server.dispatchTable)) = .ok client)
    (steady : ∀ method ∈ plan.methods, method.isRemote = true → here.SameFor here plan method)
    (same : ∀ method ∈ plan.methods, method.isRemote = false → here.SameFor there plan method)
    (ask : Ask) (deadline : Option Nat) {left right : World σ} (alike : left.Alike right)
    (ends : ask.IsRemote plan → Run.EndsWithin limit (server.answer ask) deadline left) :
    (server.answer ask deadline left).1 = (client.answer ask deadline right).1 ∧
      (server.answer ask deadline left).2.Alike (client.answer ask deadline right).2 := by
  have laidOut := generate_laidOut made
  have serverPlan := (Factory.Built.here builtHere).plan_eq laidOut
  have clientPlan := (Factory.Built.remote builtThere).plan_eq laidOut
  rw [Factory.answer_eq_follow, serverPlan] at ends ⊢
  rw [Factory.answer_eq_follow, clientPlan]
  cases routed : ask.route plan with
  | error failure => exact ⟨rfl, alike⟩
  | ok found =>
    cases found with
    | none =>
      exact (Run.mirrors_ofExcept (ask.conclude ask.name (.completed none))).same deadline deadline
        left right alike (Or.inl rfl)
    | some found =>
      obtain ⟨method, call⟩ := found
      obtain ⟨named, role⟩ := Ask.of_route routed
      have member := (laidOut.method_eq_some.mp named).1
      have concluded (factory : Factory σ) :
          (Run.ofExcept (.ok (some (method, call))) >>= factory.follow ask) =
            factory.run method call >>= fun reply =>
              Run.ofExcept (ask.conclude method.name reply) := rfl
      rw [routed, concluded] at ends
      rw [concluded, concluded, Run.conclude_result, Run.conclude_result, Run.conclude_world,
        Run.conclude_world]
      have runs : method.role ≠ .save := by
        rw [role]
        exact ask.role_ne_save
      obtain ⟨results, worlds⟩ := Factory.run_same builtHere builtThere laidOut member runs
        (steady method member) (same method member) alike
        fun remote => (ends ⟨method, call, routed, remote⟩).of_conclude
      exact ⟨by rw [results], worlds⟩

/-- The code of the sample is the same on all sides. -/
theorem sampleHost_same (here there : Side) (station : Station) :
    (sampleHost here).SameAt (sampleHost there) station := by
  cases station with
  | resolve type => exact fun _ _ _ => rfl
  | check key =>
    intro leftChecker rightChecker left right _ _ _
    rw [← Option.some.inj left, ← Option.some.inj right]
  | before operation => exact fun _ _ _ => rfl
  | handler key =>
    intro leftHandler rightHandler left right _ _ _
    rw [← Option.some.inj left, ← Option.some.inj right]
  | after operation => exact fun _ _ _ => rfl
  | dispatch operation => trivial

/-- A remote read of the sample gives what the local one gives. -/
theorem sample_parity :
    ∃ server client, Factory.build (sampleHost .server) samplePlan = .ok server ∧
      Factory.buildRemote (sampleHost .client) samplePlan
        (some (.loopback 100 server.dispatchTable)) = .ok client ∧
      (Ask.read "fetch" [.null]).IsRemote samplePlan ∧
      (server.read "fetch" [.null] none {}).1 = (client.read "fetch" [.null] none {}).1 ∧
      (server.read "fetch" [.null] none {}).2.Alike (client.read "fetch" [.null] none {}).2 := by
  obtain ⟨server, builtHere⟩ := sample_built.1
  obtain ⟨client, builtThere⟩ := sample_built.2 (.loopback 100 server.dispatchTable)
  refine ⟨server, client, builtHere, builtThere, ⟨_, _, rfl, rfl⟩, ?_⟩
  refine generate_parity sample_generated builtHere builtThere
    (fun _ _ _ _ _ => sampleHost_same _ _ _) (fun _ _ _ _ _ => sampleHost_same _ _ _)
    (.read "fetch" [.null]) none ⟨rfl, rfl⟩ fun _ => ?_
  have ended : (Factory.build (sampleHost .server) samplePlan).map (fun server =>
      ((server.read "fetch" [.null] none {}).1.isOk,
        (server.read "fetch" [.null] none {}).2.clock)) = .ok (true, 0) := rfl
  rw [builtHere] at ended
  have given : (server.read "fetch" [.null] none {}).1.isOk = true :=
    (Prod.mk.inj (Except.ok.inj ended)).1
  have clock : (server.read "fetch" [.null] none {}).2.clock = 0 :=
    (Prod.mk.inj (Except.ok.inj ended)).2
  refine ⟨fun late => ?_, Nat.le_trans (Nat.le_of_eq clock) (Nat.zero_le _)⟩
  change (server.read "fetch" [.null] none {}).1 = .error .overdue at late
  rw [late] at given
  cases given

end Generation

end DomainFactory
