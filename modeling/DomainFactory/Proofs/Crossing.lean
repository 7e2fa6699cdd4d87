import DomainFactory.Proofs.Inheritance
import DomainFactory.Proofs.Parity
import DomainFactory.Proofs.Probing
import DomainFactory.Proofs.Routing

/-!
# What crosses to another side

Callers of a method give what its operation takes from them: neither the target of a write, which
they give apart, nor what is injected where the method runs. A request for a remote method carries
just that, as the caller gave it. It does not depend on the code of the side that sends it, and a
method that is not remote does not depend on the code that carries requests.
-/
namespace DomainFactory

variable {σ : Type}

namespace Operation

/-- The first parameter of a write is its target. -/
def Aimed (operation : Operation) : Prop :=
  operation.isWrite = true →
    ∃ type rest, operation.parameters = ⟨"target", type, .selfReference⟩ :: rest

/-- Nothing that callers of an operation give is injected. -/
theorem publicParameters_uninjected {operation : Operation} {parameter : Parameter}
    (given : parameter ∈ operation.publicParameters) : parameter.isInjected = false := by
  have kept := (List.mem_filter.mp given).2
  simpa only [Bool.not_eq_eq_eq_not, Bool.not_true] using kept

end Operation

/-- The operations of a base chain are aimed at their targets. -/
theorem Extraction.operations_aimed {config : Config} {chain : Chain} {operation : Operation}
    (member : operation ∈ (operations config chain).result) : operation.Aimed := by
  intro writes
  obtain ⟨owning, declaring, index, _, signature, markers, kind, handler, _, _, made⟩ :=
    operations_made member
  unfold operationOf at made
  by_cases receives : ((kind != .execute) != signature.hasReceiver) = true
  · simp only [receives, ↓reduceIte, reduceCtorEq] at made
  · simp only [receives, Bool.false_eq_true, ↓reduceIte, Except.ok.injEq] at made
    have kinds : kind = operation.kind := congrArg Operation.kind made
    have given := congrArg Operation.parameters made
    have aims : kind.isWrite = true := by
      rw [kinds]
      exact writes
    refine ⟨owning, signature.parameters.map (parameterOf owning declaring), ?_⟩
    rw [← given]
    simp only [aims, ↓reduceIte, List.singleton_append]

/-- A method without an operation of its own is a save. -/
theorem PlannedMethod.Fits.save {method : PlannedMethod} (fits : method.Fits)
    (without : method.operation? = none) : method.role = .save := by
  unfold Fits at fits
  unfold operation? at without
  cases body : method.body with
  | save insert update delete tryName =>
    rw [body] at fits
    exact fits
  | run operation bindings =>
    rw [body] at without
    cases without
  | probe wraps operation bindings =>
    rw [body] at without
    cases without

/-- What callers of a method of a plan give, and what a request for it carries. -/
structure PlannedMethod.CarriesPublic (plan : Plan) (method : PlannedMethod) : Prop where
  /-- Callers of a read, a write or a probe give what its operation takes behind the target and
  does not get injected. -/
  operates : ∀ operation, method.operation? = some operation → method.parameters =
    (operation.parameters.drop operation.targetCount).filter (!·.isInjected)
  /-- Callers of a save give what callers of one of its writes give. -/
  saves : method.role = .save → ∃ branch, ∃ write ∈ plan.methods,
    method.chosen? branch = some write.name ∧ write.Serves branch method ∧
      write.parameters = method.parameters
  /-- A request for a write or a save carries the target in front. -/
  aimed : method.takesTarget = true → ∃ type,
    method.payload = ⟨"target", type, .selfReference⟩ :: method.parameters
  /-- Any other request carries what the caller gives. -/
  bare : method.takesTarget = false → method.payload = method.parameters
  /-- Nothing that is injected is given or carried. -/
  uninjected : ∀ parameter ∈ method.parameters ++ method.payload, parameter.isInjected = false

namespace Generation

variable {config : Config} {typeName : String} {findings : Findings} {method : PlannedMethod}

/-- Nothing that callers of a method of a plan give is injected. -/
theorem planOf_uninjected (member : method ∈ (planOf config typeName findings).methods)
    {parameter : Parameter} (given : parameter ∈ method.parameters) :
    parameter.isInjected = false := by
  have operates {method : PlannedMethod}
      (member : method ∈ (planOf config typeName findings).methods) {operation : Operation}
      (has : method.operation? = some operation) (given : parameter ∈ method.parameters) :
      parameter.isInjected = false := by
    rw [planOf_parameters member has] at given
    exact Operation.publicParameters_uninjected given
  cases has : method.operation? with
  | some operation => exact operates member has given
  | none =>
    have role := (planOf_fits config typeName findings member).save has
    obtain ⟨_, write, present, _, serves, same⟩ :=
      planOf_save_takes config typeName findings member role
    obtain ⟨operation, bindings, body, _⟩ := serves.kind
    rw [← same] at given
    have has : write.operation? = some operation := by rw [PlannedMethod.operation?, body]
    exact operates present has given

/-- A request for a method of a plan carries the target of a write or a save, then what the caller
gives. -/
theorem planOf_payload (aimed : ∀ bound ∈ findings.bound, bound.operation.Aimed)
    (member : method ∈ (planOf config typeName findings).methods) :
    (method.takesTarget = true → ∃ type,
        method.payload = ⟨"target", type, .selfReference⟩ :: method.parameters) ∧
      (method.takesTarget = false → method.payload = method.parameters) := by
  have fits := planOf_fits config typeName findings member
  have bounds {bound : BoundOperation} (bounds : method.bound? = some bound) :
      bound ∈ findings.bound := by
    obtain ⟨position, found, _⟩ := planOf_position config typeName findings member bounds
    exact List.mem_of_getElem? found
  rw [planOf_methods] at member
  obtain ⟨spec, _, rfl⟩ := List.mem_map.mp member
  cases spec with
  | read name bound =>
    refine ⟨fun takes => absurd takes Bool.false_ne_true, fun _ => ?_⟩
    have reads : bound.operation.isWrite = false := by
      have role := fits.run rfl
      by_contra writes
      rw [Bool.not_eq_false] at writes
      rw [if_pos writes] at role
      cases role
    show bound.operation.parameters.take bound.operation.targetCount ++ _ = _
    rw [Operation.targetCount, reads]
    rfl
  | write name bound =>
    refine ⟨fun _ => ?_, fun bare => absurd bare.symm Bool.false_ne_true⟩
    have writes : bound.operation.isWrite = true := by
      have role := fits.run rfl
      by_contra reads
      rw [if_neg reads] at role
      cases role
    obtain ⟨type, rest, parameters⟩ := aimed bound (bounds rfl) writes
    refine ⟨type, ?_⟩
    show bound.operation.parameters.take bound.operation.targetCount ++ _ = _
    rw [Operation.targetCount, if_pos writes, parameters]
    rfl
  | save save => exact ⟨fun _ => ⟨typeName, rfl⟩, fun bare => absurd bare.symm Bool.false_ne_true⟩
  | probe probe => exact ⟨fun takes => absurd takes Bool.false_ne_true, fun _ => rfl⟩

/-- Methods of a generated plan carry what callers give. -/
theorem generate_carries {catalog : Catalog} {plan : Plan}
    (made : generate config catalog typeName = .ready plan) (member : method ∈ plan.methods) :
    method.CarriesPublic plan := by
  obtain ⟨chain, _, rfl⟩ := of_generate_ready made
  have aimed : ∀ bound ∈ (findings catalog config chain).bound, bound.operation.Aimed := by
    intro bound listed
    obtain ⟨operation, found, rfl⟩ := List.mem_map.mp listed
    exact Extraction.operations_aimed found
  obtain ⟨target, bare⟩ := planOf_payload aimed member
  refine ⟨fun operation has => planOf_parameters member has,
    planOf_save_takes config typeName _ member, target, bare, ?_⟩
  intro parameter carried
  rcases List.mem_append.mp carried with given | carried
  · exact planOf_uninjected member given
  · cases takes : method.takesTarget with
    | false =>
      rw [bare takes] at carried
      exact planOf_uninjected member carried
    | true =>
      obtain ⟨type, payload⟩ := target takes
      rw [payload] at carried
      rcases List.mem_cons.mp carried with rfl | given
      · rfl
      · exact planOf_uninjected member given

end Generation

/-- The request for what a caller asks, under the identity of the method that runs. -/
def Ask.request (side : Side) (id : String) (past : Journal σ) (ask : Ask) : Request where
  number := .ofNat (past.countP (Entry.sends side id) + 1)
  operation := id
  target := ask.target?
  arguments := ask.arguments

/-- Hands a request to a dispatcher and waits for the reply. -/
def Dispatcher.carried (side : Side) (carrier : Dispatcher σ) (request : Request) :
    Run σ Failure Reply :=
  Run.mapError Fault.recovered
      (.enclose side (.dispatch request) (fun _ => true) (carrier request)) >>=
    fun response => Run.ofExcept (.ok response.reply)

namespace Factory

variable {host : Host σ} {plan : Plan} {carrier : Dispatcher σ} {factory : Factory σ}

/-- A call of a remote method is one request. -/
theorem answer_carried (built : buildRemote host plan (some carrier) = .ok factory)
    (laidOut : plan.LaidOut) {ask : Ask} {method : PlannedMethod} {call : Call}
    (routed : ask.route plan = .ok (some (method, call))) (remote : method.isRemote = true)
    (deadline : Option Nat) (world : World σ) :
    factory.answer ask deadline world =
      (Dispatcher.carried host.side carrier (ask.request host.side
          (Plan.operationId plan.typeName method.name) world.journal) >>= fun reply =>
        Run.ofExcept (ask.conclude method.name reply)) deadline world := by
  have sends := Built.remote built
  obtain ⟨named, role⟩ := Ask.of_route routed
  obtain ⟨_, rfl⟩ := Ask.fitting_of_route routed
  rw [answer_routed (by rw [sends.plan_eq laidOut]; exact routed)]
  cases sends.placed laidOut (laidOut.method_eq_some.mp named).1 with
  | save saves => exact absurd (role.symm.trans saves) ask.role_ne_save
  | sent _ other carried _ taken =>
    cases carried
    rw [funext (run_eq taken), sends.plan_eq laidOut]
    rfl
  | here _ _ stays => exact absurd remote (by simpa using stays)

/-- What a remote factory with a dispatcher sends, and what it depends on. -/
structure SendsPublic (host : Host σ) (plan : Plan) (carrier : Dispatcher σ)
    (factory : Factory σ) : Prop where
  /-- A call of a remote method is one request with the arguments of the caller, as many as the
  method has parameters, and with the target of the caller exactly when the method is a write. -/
  sent : ∀ {ask : Ask} {method : PlannedMethod} {call : Call},
    ask.route plan = .ok (some (method, call)) → method.isRemote = true →
      ask.arguments.length = method.parameters.length ∧
      (ask.target?.isSome = true ↔ method.role = .write) ∧
      ∀ deadline world, factory.answer ask deadline world =
        (Dispatcher.carried host.side carrier (ask.request host.side
            (Plan.operationId plan.typeName method.name) world.journal) >>= fun reply =>
          Run.ofExcept (ask.conclude method.name reply)) deadline world
  /-- The code of the side that sends does not matter to it. -/
  independent : ∀ {other : Host σ} {sender : Factory σ}, other.side = host.side →
    buildRemote other plan (some carrier) = .ok sender →
      ∀ ask : Ask, ask.IsRemote plan → sender.answer ask = factory.answer ask
  /-- Other calls send nothing: the code that carries requests does not matter to them. -/
  stays : ∀ {other : Dispatcher σ} {sender : Factory σ},
    buildRemote host plan (some other) = .ok sender →
      ∀ ask : Ask, ¬ ask.IsRemote plan → sender.answer ask = factory.answer ask

/-- A method that is not remote runs alike with every dispatcher. -/
theorem run_stays {other : Dispatcher σ} {sender : Factory σ} {method : PlannedMethod}
    (built : buildRemote host plan (some carrier) = .ok factory)
    (again : buildRemote host plan (some other) = .ok sender) (laidOut : plan.LaidOut)
    (member : method ∈ plan.methods) (role : method.role ≠ .save)
    (stays : method.isRemote = false) : sender.run method = factory.run method := by
  have path {carrier : Dispatcher σ} {factory : Factory σ}
      (built : buildRemote host plan (some carrier) = .ok factory) :
      ∃ path, localPath host plan method = .ok path ∧ factory.run method = path := by
    have sends := Built.remote built
    cases sends.placed laidOut member with
    | save saves => exact absurd saves role
    | sent _ _ _ remote => exact absurd remote (by rw [stays]; exact Bool.false_ne_true)
    | here _ path _ found taken =>
      rw [sends.plan_eq laidOut] at found
      exact ⟨path, found, funext (run_eq taken)⟩
  obtain ⟨mine, found, runs⟩ := path built
  obtain ⟨yours, same, alike⟩ := path again
  rw [runs, alike]
  exact Except.ok.inj (same.symm.trans found)

/-- A remote factory sends what callers give and nothing else. -/
theorem sends_public (built : buildRemote host plan (some carrier) = .ok factory)
    (laidOut : plan.LaidOut) : factory.SendsPublic host plan carrier := by
  refine ⟨?_, ?_, ?_⟩
  · intro ask method call routed remote
    obtain ⟨fits, _⟩ := Ask.fitting_of_route routed
    obtain ⟨_, role, length⟩ := Plan.of_fitting fits
    refine ⟨length.symm, ?_, answer_carried built laidOut routed remote⟩
    rw [role]
    exact ask.target_isSome_iff
  · rintro other sender side again ask ⟨method, call, routed, remote⟩
    funext deadline world
    rw [answer_carried built laidOut routed remote, answer_carried again laidOut routed remote,
      side]
  · intro other sender again ask stays
    rw [answer_eq_follow, answer_eq_follow, (Built.remote again).plan_eq laidOut,
      (Built.remote built).plan_eq laidOut]
    cases routed : ask.route plan with
    | error failure => rfl
    | ok found =>
      cases found with
      | none => rfl
      | some found =>
        obtain ⟨method, call⟩ := found
        obtain ⟨named, role⟩ := Ask.of_route routed
        have here : method.isRemote = false :=
          Bool.eq_false_iff.mpr fun remote => stays ⟨method, call, routed, remote⟩
        have runs := run_stays built again laidOut (laidOut.method_eq_some.mp named).1
          (role ▸ ask.role_ne_save) here
        show (sender.run method call >>= _) = (factory.run method call >>= _)
        rw [runs]

end Factory

namespace Generation

/-- Only the target and the arguments of callers cross to another side: every method of a generated
plan takes and carries no more than that, and every remote factory of it sends just that. -/
theorem generate_sends_public {config : Config} {catalog : Catalog} {typeName : String}
    {plan : Plan} (made : generate config catalog typeName = .ready plan) :
    (∀ method ∈ plan.methods, method.CarriesPublic plan) ∧
    ∀ (host : Host σ) (carrier : Dispatcher σ) (factory : Factory σ),
      Factory.buildRemote host plan (some carrier) = .ok factory →
        factory.SendsPublic host plan carrier :=
  ⟨fun _ member => generate_carries made member,
    fun _ _ _ built => Factory.sends_public built (generate_laidOut made)⟩

/-- A dispatcher that answers every request with nothing. -/
def sampleCarrier : Dispatcher String := fun request =>
  Run.ofExcept (.ok ⟨request.number, .completed none⟩)

/-- The remote read of the sample sends one request with its arguments and without a target. -/
theorem sample_sends_public : (∀ method ∈ samplePlan.methods, method.CarriesPublic samplePlan) ∧
    ∃ client, Factory.buildRemote (sampleHost .client) samplePlan (some sampleCarrier) =
        .ok client ∧
      client.SendsPublic (sampleHost .client) samplePlan sampleCarrier ∧
      client.answer (.read "fetch" [.null]) none {} =
        (Dispatcher.carried .client sampleCarrier ⟨1, "Person::fetch", none, [.null]⟩ >>=
          fun reply => Run.ofExcept (Ask.conclude "fetch" reply (.read "fetch" [.null])))
            none {} := by
  obtain ⟨carries, sends⟩ := @generate_sends_public String _ _ _ _ sample_generated
  obtain ⟨client, built⟩ := sample_built.2 sampleCarrier
  have sent := sends _ _ _ built
  have read := @sent.sent (.read "fetch" [.null]) _ _ rfl rfl
  exact ⟨carries, client, built, sent, read.2.2 none {}⟩

end Generation

end DomainFactory
