import DomainFactory.Proofs.Endings

/-!
# Denied reads look like missing ones

A read gives nothing when a check denies it, and also when its handler reports that there is nothing
to find. Behind everything else that a handler can give stands a result, so a caller who gets
nothing learns no more than that; two reads that miss give the same, whatever made them miss.
-/
namespace DomainFactory

variable {σ : Type}

/-- An operation that ran hands nothing back exactly when it reports success and failed. -/
theorem Operation.output_eq_none {operation : Operation} {saveState : Bool}
    {completion : Completion} : operation.output? saveState completion = none ↔
      operation.shape.isSuccess = true ∧ completion.value = .bool false := by
  have failed : completion.value.asBool? = some false ↔ completion.value = .bool false := by
    cases completion.value with
    | bool value => simp only [Value.asBool?, Option.some.injEq, Value.bool.injEq]
    | _ => simp only [Value.asBool?, reduceCtorEq]
  rw [← failed]
  unfold output?
  by_cases missing : operation.shape.isSuccess = true ∧ completion.value.asBool? = some false
  · simp only [missing, beq_self_eq_true, Bool.and_self, ↓reduceIte, and_self]
  · have given : (operation.shape.isSuccess && completion.value.asBool? == some false) = false := by
      rw [Bool.eq_false_iff, ne_eq, Bool.and_eq_true, beq_iff_eq]
      exact missing
    rw [given, if_neg Bool.false_ne_true]
    refine iff_of_false ?_ missing
    by_cases computes : (operation.kind == .execute) = true
    · rw [if_pos computes]
      exact nofun
    · rw [if_neg computes]
      cases completion.target <;> exact nofun

/-- Between two worlds an operation that a host ran had nothing for its caller: a check to which it
is bound denied, or its handler reported that it failed. -/
def Host.Misses (host : Host σ) (plan : Plan) (operation : Operation) (bindings : List Binding)
    (world later : World σ) : Prop :=
  (∃ binding ∈ bindings, ∃ verdict, host.Refused (plan.checkKey binding) verdict world later) ∨
    operation.shape.isSuccess = true ∧ ∃ invocation completion,
      host.Ran operation.handler invocation completion world later ∧
        completion.value = .bool false

/-- What completes or is denied gives the caller of a read nothing exactly when the operation had
nothing for the caller. -/
theorem Replied.misses_iff {host : Host σ} {plan : Plan} {method : PlannedMethod}
    {world later : World σ} {reply : Reply} (replied : Replied host plan method world later reply)
    {operation : Operation} {bindings : List Binding}
    (body : method.body = .run operation bindings) {name : String} {arguments : List Value}
    {output : Option Output}
    (concluded : Ask.conclude method.name reply (.read name arguments) = .ok output) :
    output = none ↔ host.Misses plan operation bindings world later := by
  cases replied with
  | denied other member refused =>
    cases body.symm.trans other
    cases concluded
    exact iff_of_true rfl (Or.inl ⟨_, member, _, refused⟩)
  | completed other allowed ran once =>
    cases body.symm.trans other
    cases concluded
    rw [Operation.output_eq_none]
    constructor
    · rintro ⟨flag, failed⟩
      exact Or.inr ⟨flag, _, _, ran, failed⟩
    · rintro (⟨binding, _, verdict, refused⟩ | ⟨flag, other, again, ranAgain, failed⟩)
      · exact absurd refused (allowed _ verdict)
      · rw [once other again ranAgain] at failed
        exact ⟨flag, failed⟩
  | probed other => cases body.symm.trans other

/-- What the caller of a read learns. The read is one whose operation a host runs; a limit of time
counts for remote methods of factories that send requests. -/
structure Factory.HidesDenial (factory : Factory σ) (plan : Plan) (host : Host σ)
    (limit? : Option Nat) (method : PlannedMethod) (operation : Operation)
    (bindings : List Binding) : Prop where
  /-- When no code raises a fault, the read returns, unless it would wait beyond its deadline or the
  limit of time has passed. -/
  returns : ∀ {arguments : List Value} {deadline : Option Nat} {world later : World σ}
    {result : Except (Stop Failure) (Option Output)},
    arguments.length = method.parameters.length →
    factory.read method.name arguments deadline world = (result, later) →
    (∀ fault, ¬ host.Raised fault world later) →
      (∃ output, result = .ok output) ∨
      (result = .error .overdue ∧ deadline = some later.clock) ∨
      ∃ limit, result = .error (.raised (.timeout limit)) ∧ limit? = some limit ∧
        method.isRemote = true ∧ later.clock = world.clock + limit
  /-- It returns nothing exactly when a check denied or the handler reported that it failed. -/
  nothing_iff : ∀ {arguments : List Value} {deadline : Option Nat} {world later : World σ}
    {output : Option Output}, arguments.length = method.parameters.length →
    factory.read method.name arguments deadline world = (.ok output, later) →
      (output = none ↔ host.Misses plan operation bindings world later)

namespace Factory

variable {factory : Factory σ} {plan : Plan} {host : Host σ} {limit? : Option Nat}
  {method : PlannedMethod} {operation : Operation} {bindings : List Binding}

/-- A read hides denial where its method ends as it does on the side of a host. -/
theorem hides_denial (laidOut : plan.LaidOut) (same : factory.plan = plan)
    (member : method ∈ plan.methods) (role : method.role = .read)
    (body : method.body = .run operation bindings)
    (ends : ∀ (call : Call) (deadline : Option Nat) (world : World σ),
      Ending host plan method limit? deadline world (factory.run method call deadline world).2
        (factory.run method call deadline world).1) :
    factory.HidesDenial plan host limit? method operation bindings := by
  -- A read with fitting arguments runs its method and concludes from the reply.
  have reads {arguments : List Value} (length : arguments.length = method.parameters.length)
      {deadline : Option Nat} {world later : World σ}
      {result : Except (Stop Failure) (Option Output)}
      (given : factory.read method.name arguments deadline world = (result, later)) :
      ∃ ran, Ending host plan method limit? deadline world later ran ∧
        (ran >>= fun reply => (Ask.conclude method.name reply
          (.read method.name arguments)).mapError Stop.raised) = result := by
    have fits := laidOut.fitting_eq_ok member length
    rw [role] at fits
    have routed : (Ask.read method.name arguments).route factory.plan =
        .ok (some (method, ⟨none, arguments⟩)) := by
      rw [same, Ask.route, fits]
      rfl
    have followed := congrFun (congrFun (answer_routed routed) deadline) world
    have left := congrArg Prod.snd (followed.symm.trans given)
    have ended := congrArg Prod.fst (followed.symm.trans given)
    rw [Run.conclude_world] at left
    rw [Run.conclude_result] at ended
    have ending := ends ⟨none, arguments⟩ deadline world
    rw [show _ = later from left] at ending
    exact ⟨_, ending, ended⟩
  refine ⟨?_, ?_⟩
  · intro arguments deadline world later result length given calm
    obtain ⟨ran, ending, concluded⟩ := reads length given
    cases ending with
    | late limited remote elapsed =>
      exact Or.inr (Or.inr ⟨_, concluded.symm, limited, remote, elapsed⟩)
    | timely outcome =>
      cases outcome with
      | raised raised => exact absurd raised (calm _)
      | overdue expired => exact Or.inr (Or.inl ⟨concluded.symm, expired⟩)
      | gave replied =>
        cases replied with
        | denied _ _ _ | completed _ _ _ _ => exact Or.inl ⟨_, concluded.symm⟩
        | probed other => cases body.symm.trans other
  · intro arguments deadline world later output length given
    obtain ⟨ran, ending, concluded⟩ := reads length given
    cases ending with
    | late => cases concluded
    | timely outcome =>
      cases outcome with
      | raised raised => cases concluded
      | overdue expired => cases concluded
      | @gave reply replied =>
        cases answered : Ask.conclude method.name reply (.read method.name arguments) with
        | ok value =>
          change (Ask.conclude _ reply _).mapError Stop.raised = _ at concluded
          rw [answered] at concluded
          cases concluded
          exact replied.misses_iff body answered
        | error failure =>
          change (Ask.conclude _ reply _).mapError Stop.raised = _ at concluded
          rw [answered] at concluded
          cases concluded

end Factory

namespace Generation

/-- A read of a generated plan hides denial from its callers, in every local factory and in every
remote one that a local one serves; and two reads that both miss give the same, however each of them
is arranged and whatever made it miss. -/
theorem generate_hides_denial {config : Config} {catalog : Catalog} {typeName : String}
    {plan : Plan} (made : generate config catalog typeName = .ready plan) {method : PlannedMethod}
    (member : method ∈ plan.methods) (role : method.role = .read) :
    ∃ operation bindings, method.body = .run operation bindings ∧
      (∀ {host : Host σ} {factory : Factory σ}, Factory.build host plan = .ok factory →
        factory.HidesDenial plan host none method operation bindings) ∧
      (∀ {near far : Host σ} {limit : Nat} {server client : Factory σ},
        Factory.build far plan = .ok server →
        Factory.buildRemote near plan (some (.loopback limit server.dispatchTable)) = .ok client →
        client.HidesDenial plan (if method.isRemote then far else near) (some limit) method
          operation bindings) ∧
      ∀ {hostOf other : PlannedMethod → Host σ} {left right : Factory σ},
        Factory.Arranged plan hostOf left → Factory.Arranged plan other right →
        ∀ {here there : List Value} {deadline limit : Option Nat} {world start later last : World σ}
          {found missing : Option Output}, here.length = method.parameters.length →
          there.length = method.parameters.length →
          left.read method.name here deadline world = (.ok found, later) →
          right.read method.name there limit start = (.ok missing, last) →
          (hostOf method).Misses plan operation bindings world later →
          (other method).Misses plan operation bindings start last →
            (left.read method.name here deadline world).1 =
              (right.read method.name there limit start).1 := by
  have laidOut := generate_laidOut made
  obtain ⟨operation, bindings, body⟩ : ∃ operation bindings,
      method.body = .run operation bindings := by
    have fits := laidOut.fits method member
    unfold PlannedMethod.Fits at fits
    cases body : method.body with
    | run operation bindings => exact ⟨operation, bindings, rfl⟩
    | save insert update delete tryName =>
      rw [body, role] at fits
      cases fits
    | probe wraps operation bindings =>
      rw [body, role] at fits
      cases fits
  have unsaved : method.role ≠ .save := by
    rw [role]
    exact nofun
  have needless {call : Call} : method.role = .write → call.target.isSome = true := by
    rw [role]
    exact nofun
  have here {host : Host σ} {factory : Factory σ} (built : Factory.build host plan = .ok factory) :
      factory.HidesDenial plan host none method operation bindings :=
    Factory.hides_denial laidOut ((Factory.Built.here built).plan_eq laidOut) member role body
      fun _ => Factory.run_ends_here built laidOut member unsaved needless
  have apart {near far : Host σ} {limit : Nat} {server client : Factory σ}
      (serves : Factory.build far plan = .ok server) (sends : Factory.buildRemote near plan
        (some (.loopback limit server.dispatchTable)) = .ok client) :
      client.HidesDenial plan (if method.isRemote then far else near) (some limit) method operation
        bindings :=
    Factory.hides_denial laidOut ((Factory.Built.remote sends).plan_eq laidOut) member role body
      fun _ => Factory.run_ends_apart serves sends laidOut member unsaved needless
  have arranged {hostOf : PlannedMethod → Host σ} {factory : Factory σ}
      (arranged : Factory.Arranged plan hostOf factory) :
      ∃ limit?, factory.HidesDenial plan (hostOf method) limit? method operation bindings := by
    cases arranged with
    | here built => exact ⟨none, here built⟩
    | apart serves sends => exact ⟨_, apart serves sends⟩
  refine ⟨operation, bindings, body, here, apart, ?_⟩
  intro hostOf other left right first second here there deadline limit world start later last found
    missing count length given again misses missesToo
  obtain ⟨_, hides⟩ := arranged first
  obtain ⟨_, hidesToo⟩ := arranged second
  rw [given, again, (hides.nothing_iff count given).mpr misses,
    (hidesToo.nothing_iff length again).mpr missesToo]

/-- A side on which every check denies, with a reason. -/
def denyingHost (side : Side) : Host String :=
  { sampleHost side with
    checker? := fun key => some fun _ _ => .ofResult (.ok ⟨false, some key⟩) }

/-- A side on which nothing is ever found. -/
def emptyHost (side : Side) : Host String :=
  { sampleHost side with
    handler? := fun _ => some fun _ invocation => .ofResult (.ok ⟨invocation.target, .bool false⟩) }

/-- A read of the sample that a check denies gives what one gives that finds nothing on another
side. -/
theorem sample_hides_denial : ∃ left server right : Factory String,
    Factory.build (denyingHost .server) samplePlan = .ok left ∧
    Factory.build (emptyHost .server) samplePlan = .ok server ∧
    Factory.buildRemote (sampleHost .client) samplePlan
      (some (.loopback 100 server.dispatchTable)) = .ok right ∧
    (∃ verdict, (denyingHost .server).Refused "PersonAuth::can_read" verdict {}
      (left.read "fetch" [.null] none {}).2) ∧
    (∃ invocation completion, (emptyHost .server).Ran "Person::fetch" invocation completion {}
      (right.read "fetch" [.null] none {}).2 ∧ completion.value = .bool false) ∧
    (left.read "fetch" [.null] none {}).1 = (right.read "fetch" [.null] none {}).1 := by
  obtain ⟨left, server, right, builds, serves, sends, denied, missing⟩ :
      ∃ left server right : Factory String,
        Factory.build (denyingHost .server) samplePlan = .ok left ∧
        Factory.build (emptyHost .server) samplePlan = .ok server ∧
        Factory.buildRemote (sampleHost .client) samplePlan
          (some (.loopback 100 server.dispatchTable)) = .ok right ∧
        (left.read "fetch" [.null] none {}).1 = .ok none ∧
        (right.read "fetch" [.null] none {}).1 = .ok none := ⟨_, _, _, rfl, rfl, rfl, rfl, rfl⟩
  have member := List.getElem_mem (l := samplePlan.methods) (n := 0) (by decide)
  obtain ⟨operation, bindings, body, here, apart, same⟩ :=
    @generate_hides_denial String _ _ _ _ sample_generated _ member rfl
  cases body
  have reads {factory : Factory String}
      (given : (factory.read "fetch" [.null] none {}).1 = .ok none) :
      factory.read "fetch" [.null] none {} = (.ok none, (factory.read "fetch" [.null] none {}).2) :=
    Prod.ext given rfl
  have misses : (denyingHost .server).Misses samplePlan sampleFetch [⟨0, [.parameter 0]⟩] {}
      (left.read "fetch" [.null] none {}).2 :=
    ((here builds).nothing_iff rfl (reads denied)).mp rfl
  have missesToo : (emptyHost .server).Misses samplePlan sampleFetch [⟨0, [.parameter 0]⟩] {}
      (right.read "fetch" [.null] none {}).2 :=
    ((apart serves sends).nothing_iff rfl (reads missing)).mp rfl
  refine ⟨left, server, right, builds, serves, sends, ?_, ?_, ?_⟩
  · rcases misses with ⟨binding, among, verdict, refused⟩ | ⟨_, _, completion, ran, failed⟩
    · cases List.mem_singleton.mp among
      exact ⟨verdict, refused⟩
    · obtain ⟨handler, past, handled, gave, _⟩ := ran
      cases handled
      cases gave
      cases failed
  · rcases missesToo with ⟨binding, _, verdict, refused⟩ | ⟨_, invocation, completion, ran, failed⟩
    · obtain ⟨question, checker, past, _, registered, answered, refuses, _⟩ := refused
      cases registered
      cases answered
      cases refuses
    · exact ⟨invocation, completion, ran, failed⟩
  · exact same (.here builds) (.apart serves sends) rfl rfl (reads denied) (reads missing) misses
      missesToo

end Generation

end DomainFactory
