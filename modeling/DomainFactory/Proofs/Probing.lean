import DomainFactory.Proofs.GateOrder
import DomainFactory.Proofs.Steadiness

/-!
# Probes tell what their methods do

A method and its probe find the same services and ask the same checks the same questions, but for
the checks that need the target, which only the method asks. On a steady host a probe therefore
allows whatever the method completes; and when no check needs the target, a probe is denied or
fails exactly when the method is denied or fails before it acts.
-/
namespace DomainFactory

variable {σ : Type}

namespace Gate

/-- Finds the services of an operation and asks its gate. -/
def guard (host : Host σ) (operation : Operation) (gate : Gate σ) (call : Call) :
    Run σ Failure (Keyed σ × Verdict) := do
  let services ← (host.resolveAll operation.injectedParameters).running
  let verdict ← (gate.evaluate call services).running
  return (services, verdict)

/-- The services of an operation and the verdict of its gate at the start of a journal. -/
def ruling (host : Host σ) (operation : Operation) (gate : Gate σ) (call : Call) :
    Except Failure (Keyed σ × Verdict) := do
  let services ← (host.services operation.injectedParameters).mapError Fault.asFailure
  let verdict ← (judge gate.kind call services gate.checks).mapError Fault.asFailure
  return (services, verdict)

variable {host : Host σ} {operation : Operation} {gate : Gate σ} {call : Call}

/-- What a gate rules is settled on a steady host. -/
theorem settles_guard (steady : host.Steady)
    (registered : ∀ check ∈ gate.checks, host.checker? check.key = some check.checker) :
    Run.Settles (ruling host operation gate call) (guard host operation gate call) := by
  have found := (steady.settles_resolveAll operation.injectedParameters).mapError Fault.asFailure
  refine found.bind fun services _ => ?_
  have judged := (steady.settles_askAll gate.side gate.kind call services registered).mapError
    Fault.asFailure
  exact judged.bind fun verdict _ => Run.settles_ofExcept (.ok (services, verdict))

/-- A gate follows the stations of its services and its checks, and completes them when it rules
that an operation is allowed. -/
theorem follows_guard
    (registered : ∀ check ∈ gate.checks, host.checker? check.key = some check.checker) :
    Run.Follows host (Host.serviceStations operation.injectedParameters ++ stations gate.checks)
      (fun ruled => ruled.2.allowed = true) (guard host operation gate call) := by
  rw [← List.append_nil (stations gate.checks)]
  refine ((host.follows_resolveAll _).mapError Fault.asFailure).then fun services => ?_
  have asked := (follows_askAll gate.side gate.kind call services registered).mapError
    Fault.asFailure
  exact asked.bind (fun verdict _ => Run.follows_pure _) fun verdict denied =>
    Run.ends_pure denied

/-- Neither a handler nor a hook runs at a gate. -/
theorem guard_rests
    (registered : ∀ check ∈ gate.checks, host.checker? check.key = some check.checker)
    (deadline : Option Nat) (world : World σ) :
    ∃ news, (guard host operation gate call deadline world).2.journal = world.journal ++ news ∧
      ∀ station ∈ visited news, station.acts = false := by
  obtain ⟨news, journal, orderly, _⟩ := follows_guard registered deadline world
  refine ⟨news, journal, ?_⟩
  intro station visits
  rcases List.mem_append.mp (orderly.order.subset visits) with service | check
  · obtain ⟨parameter, _, rfl⟩ := List.mem_map.mp service
    rfl
  · obtain ⟨check, _, rfl⟩ := List.mem_map.mp check
    rfl

/-- A check that does not ask for the target is asked the same with and without one. -/
theorem question_untargeted {check : GateCheck σ} (untargeted : Slot.target ∉ check.slots)
    (kind : Kind) (call : Call) (services : Keyed σ) :
    check.question kind call services = check.question kind ⟨none, call.arguments⟩ services := by
  have contained : check.slots.contains Slot.target = false := by
    rw [List.contains_eq_mem, decide_eq_false untargeted]
  unfold GateCheck.question
  rw [contained]
  rfl

/-- A check whose binding does not need the target does not ask for it. -/
theorem untargeted_of_binding {checks : List Check} {binding : Binding} {check : GateCheck σ}
    (untargeted : binding.needsTarget = false)
    (made : GateCheck.ofBinding host checks operation binding = .ok check) :
    Slot.target ∉ check.slots := by
  obtain ⟨declared, checker, _, _, rfl⟩ := GateCheck.ofBinding_eq_ok.mp made
  intro member
  obtain ⟨source, present, slot⟩ := List.mem_map.mp member
  cases source with
  | target =>
    rw [Binding.needsTarget, List.contains_eq_mem, decide_eq_false_iff_not] at untargeted
    exact untargeted present
  | parameter position =>
    unfold Slot.ofSource at slot
    dsimp only at slot
    split at slot <;> cases slot

/-- When all checks allow, so do those of them that do not need the target, without one. -/
theorem judge_kept {checks : List Check} {bindings : List Binding} {full kept : List (GateCheck σ)}
    (asked : List.Forall₂ (fun binding check =>
      GateCheck.ofBinding host checks operation binding = .ok check) bindings full)
    (probed : List.Forall₂ (fun binding check =>
      GateCheck.ofBinding host checks operation binding = .ok check)
        (bindings.filter (!·.needsTarget)) kept)
    {kind : Kind} {services : Keyed σ} {verdict : Verdict}
    (judged : judge kind call services full = .ok verdict) (allowed : verdict.allowed = true) :
    judge kind ⟨none, call.arguments⟩ services kept = .ok .allow := by
  induction asked generalizing kept with
  | nil =>
    cases probed
    rfl
  | @cons binding check bindings full made asked ih =>
    obtain ⟨first, answered, rest⟩ := Except.bind_eq_ok judged
    have passes : first.allowed = true := by
      by_cases passes : first.allowed = true
      · exact passes
      · rw [if_neg passes] at rest
        cases rest
        exact absurd allowed passes
    rw [if_pos passes] at rest
    cases needs : binding.needsTarget with
    | true =>
      rw [List.filter_cons_of_neg (by rw [needs]; decide)] at probed
      exact ih probed rest
    | false =>
      rw [List.filter_cons_of_pos (by rw [needs]; decide)] at probed
      cases probed with
      | @cons _ same _ kept madeAgain probed =>
        cases made.symm.trans madeAgain
        rw [question_untargeted (untargeted_of_binding needs made)] at answered
        rw [judge, answered]
        change (if first.allowed = true then _ else _) = _
        rw [if_pos passes]
        exact ih probed rest

/-- When no check needs the target, all of them are kept and judge the same without one. -/
theorem judge_untargeted {checks : List Check} {bindings : List Binding}
    {full kept : List (GateCheck σ)}
    (asked : List.Forall₂ (fun binding check =>
      GateCheck.ofBinding host checks operation binding = .ok check) bindings full)
    (probed : List.Forall₂ (fun binding check =>
      GateCheck.ofBinding host checks operation binding = .ok check)
        (bindings.filter (!·.needsTarget)) kept)
    (untargeted : ∀ binding ∈ bindings, binding.needsTarget = false) (kind : Kind)
    (services : Keyed σ) :
    judge kind ⟨none, call.arguments⟩ services kept = judge kind call services full := by
  induction asked generalizing kept with
  | nil =>
    cases probed
    rfl
  | @cons binding check bindings full made asked ih =>
    have needs := untargeted binding List.mem_cons_self
    rw [List.filter_cons_of_pos (by rw [needs]; decide)] at probed
    cases probed with
    | @cons _ same _ kept madeAgain probed =>
      cases made.symm.trans madeAgain
      have rest := ih probed fun other member => untargeted other (List.mem_cons_of_mem _ member)
      rw [judge, judge, rest,
        ← question_untargeted (untargeted_of_binding needs made) kind call services]

section Built

variable {checks : List Check} {bindings : List Binding} {kept : Gate σ}

/-- When a gate rules that an operation is allowed, so does the gate of its probe, with the same
services. -/
theorem ruling_kept (gated : build host checks operation bindings = .ok gate)
    (probed : build host checks operation (bindings.filter (!·.needsTarget)) = .ok kept)
    {ruled : Keyed σ × Verdict} (ruling_eq : gate.ruling host operation call = .ok ruled)
    (allowed : ruled.2.allowed = true) :
    kept.ruling host operation ⟨none, call.arguments⟩ = .ok (ruled.1, .allow) := by
  obtain ⟨_, kind, asked⟩ := build_eq_ok gated
  obtain ⟨_, keptKind, keptAsked⟩ := build_eq_ok probed
  obtain ⟨services, found, rest⟩ := Except.bind_eq_ok ruling_eq
  obtain ⟨verdict, judged, rest⟩ := Except.bind_eq_ok rest
  cases rest
  have verdicts : judge gate.kind call services gate.checks = .ok verdict := by
    cases judging : judge gate.kind call services gate.checks with
    | error fault =>
      rw [judging] at judged
      cases judged
    | ok given =>
      rw [judging] at judged
      cases judged
      rfl
  rw [kind] at verdicts
  unfold ruling
  rw [found, keptKind]
  change (judge operation.kind ⟨none, call.arguments⟩ services kept.checks).mapError _ >>= _ = _
  rw [judge_kept asked keptAsked verdicts allowed]
  rfl

/-- When no binding needs the target, the gate of the probe rules what the gate rules. -/
theorem ruling_untargeted (gated : build host checks operation bindings = .ok gate)
    (probed : build host checks operation (bindings.filter (!·.needsTarget)) = .ok kept)
    (untargeted : ∀ binding ∈ bindings, binding.needsTarget = false) :
    kept.ruling host operation ⟨none, call.arguments⟩ = gate.ruling host operation call := by
  obtain ⟨_, kind, asked⟩ := build_eq_ok gated
  obtain ⟨_, keptKind, keptAsked⟩ := build_eq_ok probed
  unfold ruling
  rw [kind, keptKind]
  congr 1
  funext services
  rw [judge_untargeted asked keptAsked untargeted]

end Built

end Gate

namespace Path

variable {host : Host σ} {operation : Operation} {handler : Handler σ} {call : Call}

/-- Runs a handler and the hook after it. -/
def finish (host : Host σ) (saveState : Bool) (operation : Operation) (handler : Handler σ)
    (invocation : Invocation σ) : Run σ Failure Reply := do
  let completion ← (host.handle operation.handler handler invocation).running
  let output := operation.output? saveState completion
  (host.after operation output).running
  return .completed output

/-- Runs a handler between the hooks, behind the gate. -/
def act (host : Host σ) (typeName : String) (saveState : Bool) (operation : Operation)
    (handler : Handler σ) (call : Call) (services : Keyed σ) : Run σ Failure Reply := do
  let target ← .ofExcept (operation.receiver typeName call.target)
  (host.before operation target).running
  finish host saveState operation handler ⟨target, call.arguments, services⟩

/-- Running an operation is passing its gate and acting behind it. -/
theorem execute_eq (host : Host σ) (typeName : String) (saveState : Bool) (operation : Operation)
    (handler : Handler σ) (gate : Gate σ) (call : Call) :
    execute host typeName saveState operation handler gate call =
      gate.guard host operation call >>= fun ruled =>
        if ruled.2.allowed then act host typeName saveState operation handler call ruled.1
        else Run.pure (.denied ruled.2) := by
  unfold execute Gate.guard
  rw [Run.bind_assoc]
  congr 1
  funext services
  rw [Run.bind_assoc]
  congr 1
  funext verdict
  change (if (!verdict.allowed) = true then _ else _) = if verdict.allowed = true then _ else _
  cases verdict.allowed <;> rfl

/-- A probe asks the gate without a target. -/
theorem probe_eq (host : Host σ) (operation : Operation) (gate : Gate σ) (call : Call) :
    probe host operation gate call =
      gate.guard host operation ⟨none, call.arguments⟩ >>= fun ruled =>
        Run.pure (.probed ruled.2) := by
  unfold probe Gate.guard
  rw [Run.bind_assoc]
  congr 1
  funext services
  rw [Run.bind_assoc]
  rfl

/-- A handler and the hook after it are stations. -/
theorem follows_finish {saveState : Bool} (handled : host.handler? operation.handler = some handler)
    (invocation : Invocation σ) :
    Run.Follows host ([.handler operation.handler] ++ ([.after operation] ++ [])) (fun _ => True)
      (finish host saveState operation handler invocation) := by
  refine ((Host.follows_handle _ handled).mapError Fault.asFailure).then fun completion => ?_
  refine ((host.follows_after operation _).mapError Fault.asFailure).then fun _ => ?_
  exact Run.follows_pure _

/-- Acting completes when it gives a reply at all. -/
theorem act_completes {typeName : String} {saveState : Bool} {services : Keyed σ}
    {deadline : Option Nat} {world : World σ} {reply : Reply}
    (given : (act host typeName saveState operation handler call services deadline world).1 =
      .ok reply) : ∃ output, reply = .completed output := by
  obtain ⟨target, _, _, given⟩ := Run.of_bind_ok given
  obtain ⟨_, _, _, given⟩ := Run.of_bind_ok given
  obtain ⟨completion, _, _, given⟩ := Run.of_bind_ok given
  obtain ⟨_, _, _, given⟩ := Run.of_bind_ok given
  cases given
  exact ⟨_, rfl⟩

/-- Acting is punctual. -/
theorem act_punctual {typeName : String} {saveState : Bool} {services : Keyed σ} :
    Run.Punctual (act host typeName saveState operation handler call services) := by
  refine (Run.settles_ofExcept _).punctual.bind fun target => ?_
  refine ((Run.punctual_consult _ _ _ _).mapError Fault.asFailure).bind fun _ => ?_
  refine ((Run.punctual_consult _ _ _ _).mapError Fault.asFailure).bind fun completion => ?_
  refine ((Run.punctual_consult _ _ _ _).mapError Fault.asFailure).bind fun _ => ?_
  exact (Run.settles_ofExcept (.ok _)).punctual

/-- An operation finds its receiver when it has a target or needs none. -/
theorem receiver_eq_ok {operation : Operation} {target : Option Entity} (typeName : String)
    (given : operation.isWrite = true → target.isSome = true) :
    ∃ receiver, operation.receiver typeName target = .ok receiver := by
  unfold Operation.isWrite at given
  unfold Operation.receiver
  cases kind : operation.kind with
  | create | fetch => exact ⟨some (.new typeName), rfl⟩
  | execute => exact ⟨none, rfl⟩
  | insert | update | delete =>
    obtain ⟨entity, rfl⟩ := Option.isSome_iff_exists.mp (given (by rw [kind]; rfl))
    exact ⟨some entity, rfl⟩

/-- The hook before the handler begins when an operation acts that finds its receiver. -/
theorem act_visits {typeName : String} {saveState : Bool} {services : Keyed σ}
    (handled : host.handler? operation.handler = some handler)
    (given : operation.isWrite = true → call.target.isSome = true) :
    Run.Visits (.before operation)
      (act host typeName saveState operation handler call services) := by
  obtain ⟨receiver, received⟩ := receiver_eq_ok typeName given
  have acts : act host typeName saveState operation handler call services =
      (host.before operation receiver).running >>= fun _ =>
        finish host saveState operation handler ⟨receiver, call.arguments, services⟩ := by
    unfold act
    rw [received]
    rfl
  rw [acts]
  refine ((Run.visits_consult _ _ _ _).mapError Fault.asFailure).bind fun _ => ?_
  exact (follows_finish handled _).grows

end Path

/-- Neither a handler nor a hook began between two worlds. -/
def World.Rested (world later : World σ) : Prop :=
  ∃ news, later.journal = world.journal ++ news ∧ ∀ station ∈ visited news, station.acts = false

/-- What a run of an operation comes to from the ruling of its gate, unless it is overdue. -/
inductive Ruled (world : World σ) : Except Failure (Keyed σ × Verdict) →
    Except (Stop Failure) Reply × World σ → Prop
  /-- A service is not found or a check fails, and nothing acts. -/
  | failed {failure : Failure} {later : World σ} (rested : world.Rested later) :
      Ruled world (.error failure) (.error (.raised failure), later)
  /-- A check denies. -/
  | denied {ruled : Keyed σ × Verdict} {later : World σ} (stops : ruled.2.allowed = false) :
      Ruled world (.ok ruled) (.ok (.denied ruled.2), later)
  /-- All checks allow, and the operation acts. -/
  | acted {ruled : Keyed σ × Verdict} {ran : Except (Stop Failure) Reply × World σ}
      (passes : ruled.2.allowed = true)
      (completes : ∀ reply, ran.1 = .ok reply → ∃ output, reply = .completed output)
      (begins : ¬ world.Rested ran.2) : Ruled world (.ok ruled) ran

namespace Ruled

variable {world : World σ} {ruling : Except Failure (Keyed σ × Verdict)}
  {ran : Except (Stop Failure) Reply × World σ}

/-- What completes was allowed. -/
theorem allowed_of_completed (comes : Ruled world ruling ran) {output : Option Output}
    (completes : ran.1 = .ok (.completed output)) :
    ∃ ruled, ruling = .ok ruled ∧ ruled.2.allowed = true := by
  cases comes with
  | failed rested => cases completes
  | denied stops => cases completes
  | @acted ruled _ passes => exact ⟨ruled, rfl, passes⟩

/-- What is denied is what the gate denies, with its verdict. -/
theorem denied_iff (comes : Ruled world ruling ran) (verdict : Verdict) :
    (ruling.map Prod.snd).mapError Stop.raised = .ok verdict ∧ verdict.allowed = false ↔
      ran.1 = .ok (.denied verdict) := by
  cases comes with
  | failed rested =>
    constructor
    · rintro ⟨given, _⟩
      cases given
    · intro given
      cases given
  | denied stops =>
    constructor
    · rintro ⟨given, _⟩
      cases given
      rfl
    · intro given
      cases given
      exact ⟨rfl, stops⟩
  | acted passes completes begins =>
    constructor
    · rintro ⟨given, stops⟩
      cases given
      cases passes.symm.trans stops
    · intro given
      obtain ⟨output, completed⟩ := completes _ given
      cases completed

/-- What fails before it acts is what fails at the gate, with its failure. -/
theorem failed_iff (comes : Ruled world ruling ran) (failure : Failure) :
    (ruling.map Prod.snd).mapError Stop.raised = .error (.raised failure) ↔
      ran.1 = .error (.raised failure) ∧ world.Rested ran.2 := by
  cases comes with
  | failed rested =>
    constructor
    · intro given
      cases given
      exact ⟨rfl, rested⟩
    · rintro ⟨given, _⟩
      cases given
      rfl
  | denied stops =>
    constructor
    · intro given
      cases given
    · rintro ⟨given, _⟩
      cases given
  | acted passes completes begins =>
    constructor
    · intro given
      cases given
    · rintro ⟨_, rested⟩
      exact absurd rested begins

end Ruled

/-- The hook before a handler is not at rest. -/
theorem World.not_rested {world later : World σ} {operation : Operation} {news : Journal σ}
    (journal : later.journal = world.journal ++ news)
    (begins : .before operation ∈ visited news) : ¬ world.Rested later := by
  rintro ⟨other, same, rests⟩
  have equal : other = news := List.append_cancel_left (same.symm.trans journal)
  have acts := rests (.before operation) (equal ▸ begins)
  cases acts

namespace Path

variable {host : Host σ} {operation : Operation} {handler : Handler σ} {gate : Gate σ} {call : Call}

/-- On a steady host an operation comes to what its gate rules. -/
theorem execute_ruled (steady : host.Steady) {typeName : String} {saveState : Bool}
    (handled : host.handler? operation.handler = some handler)
    (registered : ∀ check ∈ gate.checks, host.checker? check.key = some check.checker)
    (given : operation.isWrite = true → call.target.isSome = true) {deadline : Option Nat}
    {world : World σ}
    (timely : (execute host typeName saveState operation handler gate call deadline world).1 ≠
      .error .overdue) :
    Ruled world (gate.ruling host operation call)
      (execute host typeName saveState operation handler gate call deadline world) := by
  have settled : Run.Settles (gate.ruling host operation call) (gate.guard host operation call) :=
    Gate.settles_guard steady registered
  have settled := settled deadline world
  obtain ⟨early, journal, rests⟩ : ∃ news,
      (gate.guard host operation call deadline world).2.journal = world.journal ++ news ∧
        ∀ station ∈ visited news, station.acts = false :=
    Gate.guard_rests registered deadline world
  rw [execute_eq] at timely ⊢
  cases guarded : gate.guard host operation call deadline world with
  | mk outcome later =>
    rw [guarded] at settled journal
    rcases settled with ruled | ⟨_, overdue⟩
    · change outcome = _ at ruled
      subst ruled
      cases ruling : gate.ruling host operation call with
      | error failure =>
        rw [ruling] at guarded
        rw [Run.bind_error guarded]
        exact .failed ⟨early, journal, rests⟩
      | ok ruled =>
        rw [ruling] at guarded
        rw [Run.bind_ok guarded]
        cases passes : ruled.2.allowed with
        | false => exact .denied passes
        | true =>
          refine .acted passes (fun reply given => act_completes given) ?_
          have visits : Run.Visits (.before operation)
              (act host typeName saveState operation handler call ruled.1) :=
            act_visits handled given
          obtain ⟨late, journals, begins⟩ := visits deadline later
          have whole : (act host typeName saveState operation handler call ruled.1 deadline
              later).2.journal = world.journal ++ (early ++ late) := by
            rw [journals, ← List.append_assoc, ← journal]
          have member : .before operation ∈ visited (early ++ late) := by
            rw [visited_append]
            exact List.mem_append_right _ begins
          exact World.not_rested whole member
    · change outcome = _ at overdue
      subst overdue
      rw [Run.bind_error guarded] at timely
      exact absurd rfl timely

/-- An operation of a steady host is punctual. -/
theorem execute_punctual (steady : host.Steady) {typeName : String} {saveState : Bool}
    (registered : ∀ check ∈ gate.checks, host.checker? check.key = some check.checker) :
    Run.Punctual (execute host typeName saveState operation handler gate call) := by
  rw [execute_eq]
  refine (Gate.settles_guard steady registered).punctual.bind fun ruled => ?_
  split
  · exact act_punctual
  · exact (Run.settles_ofExcept (.ok _)).punctual

end Path

namespace Generation

variable {config : Config} {typeName : String} {findings : Findings}

/-- A probe of a plan under the name of a method keeps the bindings of the method that need no
target. -/
theorem planOf_probe_kept {method probe : PlannedMethod}
    (member : method ∈ (planOf config typeName findings).methods)
    (asked : probe ∈ (planOf config typeName findings).methods) {operation : Operation}
    {kept : List Binding} (body : probe.body = .probe method.name operation kept) :
    ∃ bindings, method.body = .run operation bindings ∧
      kept = bindings.filter (!·.needsTarget) := by
  have listed : (method.name, operation, kept) ∈
      (planOf config typeName findings).methods.filterMap PlannedMethod.asked? :=
    List.mem_filterMap.mpr ⟨probe, asked, PlannedMethod.asked_eq_some.mpr body⟩
  obtain ⟨position, bound, found, _, equal⟩ := (planOf_asked config typeName findings).mp listed
  simp only [Prod.mk.injEq] at equal
  obtain ⟨names, rfl, rfl⟩ := equal
  obtain ⟨_, other, present, bounds, name⟩ := planOf_method_at config typeName findings found
  -- Names are distinct, so the method with this name is the one at the position.
  have same : other = method := List.inj_on_of_nodup_map
    (planOf_names_nodup config typeName findings) present member (name.trans names.symm)
  subst same
  exact ⟨bound.bindings, PlannedMethod.bound_eq_some.mp bounds, rfl⟩

/-- Callers of a read, a write or a probe give what its operation takes from them. -/
theorem planOf_parameters {method : PlannedMethod}
    (member : method ∈ (planOf config typeName findings).methods) {operation : Operation}
    (has : method.operation? = some operation) :
    method.parameters = operation.publicParameters := by
  rw [planOf_methods] at member
  obtain ⟨spec, _, rfl⟩ := List.mem_map.mp member
  cases spec with
  | save save => cases has
  | _ => cases has; rfl

/-- A probe of a generated plan keeps the bindings of its method that need no target, and takes the
same arguments. -/
theorem generate_probe_kept {catalog : Catalog} {plan : Plan}
    (made : generate config catalog typeName = .ready plan) {method probe : PlannedMethod}
    (member : method ∈ plan.methods) (asked : probe ∈ plan.methods) {operation : Operation}
    {kept : List Binding} (body : probe.body = .probe method.name operation kept) :
    ∃ bindings, method.body = .run operation bindings ∧
      kept = bindings.filter (!·.needsTarget) ∧ probe.parameters = method.parameters := by
  obtain ⟨chain, _, rfl⟩ := of_generate_ready made
  obtain ⟨bindings, runs, equal⟩ := planOf_probe_kept member asked body
  have operates : method.operation? = some operation := by
    rw [PlannedMethod.operation?, runs]
  have probes : probe.operation? = some operation := by
    rw [PlannedMethod.operation?, body]
  exact ⟨bindings, runs, equal,
    (planOf_parameters asked probes).trans (planOf_parameters member operates).symm⟩

end Generation

/-- A call that is routed to a method that writes has a target. -/
theorem Plan.LaidOut.target_of_route {plan : Plan} (laidOut : plan.LaidOut)
    {method : PlannedMethod} (member : method ∈ plan.methods) {operation : Operation}
    {bindings : List Binding} (body : method.body = .run operation bindings) {ask : Ask}
    {call : Call} (routed : ask.route plan = .ok (some (method, call)))
    (writes : operation.isWrite = true) : call.target.isSome = true := by
  have role := (laidOut.fits method member).run body
  rw [if_pos writes, (Ask.of_route routed).2] at role
  exact (Ask.input_of_route routed).2 role

/-- A method and its probe agree. Calls are those that a caller can route to the method: the method
with its input runs for the caller, who then reads the reply. -/
structure Factory.ProbeAgrees (factory : Factory σ) (method probe : PlannedMethod) : Prop where
  /-- Whatever the method completes its probe allows. -/
  allows : ∀ {ask : Ask} {call : Call}, ask.route factory.plan = .ok (some (method, call)) →
    ∀ {deadline world other later output},
      (factory.can probe.name call.arguments other later).1 ≠ .error .overdue →
      (factory.run method call deadline world).1 = .ok (.completed output) →
      (factory.can probe.name call.arguments other later).1 = .ok .allow
  /-- When no binding of the method needs the target, its probe is denied exactly when the method
  is, with the same verdict. -/
  denies : (∀ binding ∈ method.bindings, ArgumentSource.target ∉ binding.sources) →
    ∀ {ask : Ask} {call : Call}, ask.route factory.plan = .ok (some (method, call)) →
    ∀ {deadline world other later},
      (factory.can probe.name call.arguments other later).1 ≠ .error .overdue →
      (factory.run method call deadline world).1 ≠ .error .overdue → ∀ verdict,
      ((factory.can probe.name call.arguments other later).1 = .ok verdict ∧
          verdict.allowed = false ↔
        (factory.run method call deadline world).1 = .ok (.denied verdict))
  /-- When no binding of the method needs the target, its probe fails exactly when the method fails
  before its first hook, with the same failure. -/
  fails : (∀ binding ∈ method.bindings, ArgumentSource.target ∉ binding.sources) →
    ∀ {ask : Ask} {call : Call}, ask.route factory.plan = .ok (some (method, call)) →
    ∀ {deadline world other later},
      (factory.can probe.name call.arguments other later).1 ≠ .error .overdue →
      (factory.run method call deadline world).1 ≠ .error .overdue → ∀ failure,
      ((factory.can probe.name call.arguments other later).1 = .error (.raised failure) ↔
        (factory.run method call deadline world).1 = .error (.raised failure) ∧
          world.Rested (factory.run method call deadline world).2)
  /-- Without a deadline neither is overdue. -/
  punctual : ∀ {ask : Ask} {call : Call}, ask.route factory.plan = .ok (some (method, call)) →
    Run.Punctual (factory.run method call) ∧
      Run.Punctual (factory.can probe.name call.arguments)
  /-- With another number of arguments than the method takes each of them fails under its own name,
  and nothing runs. -/
  misfits : ∀ arguments : List Value, arguments.length ≠ method.parameters.length →
    ∀ deadline world,
      factory.can probe.name arguments deadline world = (.error (.raised
        (.arity probe.name method.parameters.length arguments.length)), world) ∧
      (method.role = .read → factory.read method.name arguments deadline world = (.error (.raised
        (.arity method.name method.parameters.length arguments.length)), world)) ∧
      (method.role = .write → ∀ target, factory.write method.name target arguments deadline world =
        (.error (.raised (.arity method.name method.parameters.length arguments.length)), world))

namespace Factory

variable {host : Host σ} {plan : Plan} {factory : Factory σ} {method : PlannedMethod}
  {operation : Operation} {bindings : List Binding}

/-- A factory without a dispatcher runs a method on the side of its host. -/
theorem Built.runs_here (built : Built host plan none factory) (laidOut : plan.LaidOut)
    (member : method ∈ plan.methods) (role : method.role ≠ .save) :
    ∃ path, RunsHere host plan method path ∧ ∀ call, factory.run method call = path call := by
  obtain ⟨path, found, taken, _⟩ := built.taken_here laidOut member role
  exact ⟨path, localPath_runsHere found, run_eq taken⟩

/-- A factory without a dispatcher executes the operation of a read or a write. -/
theorem Built.executes (built : Built host plan none factory) (laidOut : plan.LaidOut)
    (member : method ∈ plan.methods) (body : method.body = .run operation bindings) :
    ∃ handler gate, host.handler? operation.handler = some handler ∧
      Gate.build host plan.checks operation bindings = .ok gate ∧ ∀ call, factory.run method call =
        Path.execute host plan.typeName plan.saveState operation handler gate call := by
  have role : method.role ≠ .save := by
    rw [(laidOut.fits method member).run body]
    cases operation.isWrite <;> exact nofun
  obtain ⟨path, here, runs⟩ := built.runs_here laidOut member role
  cases here with
  | run other handled gated =>
    cases body.symm.trans other
    exact ⟨_, _, handled, gated, runs⟩
  | probe other gated => cases body.symm.trans other

/-- A factory without a dispatcher asks the gate of a probe. -/
theorem Built.probes (built : Built host plan none factory) (laidOut : plan.LaidOut)
    (member : method ∈ plan.methods) {wraps : String}
    (body : method.body = .probe wraps operation bindings) :
    ∃ gate, Gate.build host plan.checks operation bindings = .ok gate ∧
      ∀ call, factory.run method call = Path.probe host operation gate call := by
  have role : method.role ≠ .save := by
    rw [(laidOut.fits method member).probe body]
    exact nofun
  obtain ⟨path, here, runs⟩ := built.runs_here laidOut member role
  cases here with
  | run other handled gated => cases body.symm.trans other
  | probe other gated =>
    cases body.symm.trans other
    exact ⟨_, gated, runs⟩

/-- A probe that is asked with fitting arguments gives the verdict that its gate rules. -/
theorem settles_can (laidOut : plan.LaidOut) (same : factory.plan = plan) (steady : host.Steady)
    (member : method ∈ plan.methods) (role : method.role = .probe) {gate : Gate σ}
    (registered : ∀ check ∈ gate.checks, host.checker? check.key = some check.checker)
    (asks : ∀ call, factory.run method call = Path.probe host operation gate call)
    {arguments : List Value} (length : arguments.length = method.parameters.length) :
    Run.Settles ((gate.ruling host operation ⟨none, arguments⟩).map Prod.snd)
      (factory.can method.name arguments) := by
  have fits := laidOut.fitting_eq_ok member length
  rw [role] at fits
  have guards : factory.can method.name arguments =
      gate.guard host operation ⟨none, arguments⟩ >>= fun ruled => Run.pure ruled.2 := by
    rw [can_eq_follow, same, Ask.route, fits]
    change factory.run method ⟨none, arguments⟩ >>= _ = _
    rw [asks, Path.probe_eq, Run.bind_assoc]
    rfl
  have ruled : Run.Settles (gate.ruling host operation ⟨none, arguments⟩)
      (gate.guard host operation ⟨none, arguments⟩) := Gate.settles_guard steady registered
  rw [guards]
  exact ruled.map Prod.snd

end Factory

namespace Generation

/-- A method of a generated plan and its probe agree in every local factory on a steady host. -/
theorem generate_probe_agrees {config : Config} {catalog : Catalog} {typeName : String}
    {plan : Plan} (made : generate config catalog typeName = .ready plan) {host : Host σ}
    (steady : host.Steady) {factory : Factory σ} (built : Factory.build host plan = .ok factory)
    {method probe : PlannedMethod} (member : method ∈ plan.methods) (asked : probe ∈ plan.methods)
    {operation : Operation} {kept : List Binding}
    (body : probe.body = .probe method.name operation kept) :
    factory.ProbeAgrees method probe := by
  have laidOut := generate_laidOut made
  have localBuilt : Factory.Built host plan none factory := .here built
  have same := localBuilt.plan_eq laidOut
  obtain ⟨bindings, runs, rfl, parameters⟩ := generate_probe_kept made member asked body
  have role := (laidOut.fits probe asked).probe body
  obtain ⟨handler, gate, handled, gated, executes⟩ := localBuilt.executes laidOut member runs
  obtain ⟨keptGate, probed, asks⟩ := localBuilt.probes laidOut asked body
  have registered := (Gate.stations_eq gated).2
  have settles {arguments : List Value} (length : arguments.length = method.parameters.length) :
      Run.Settles ((keptGate.ruling host operation ⟨none, arguments⟩).map Prod.snd)
        (factory.can probe.name arguments) :=
    Factory.settles_can laidOut same steady asked role (Gate.stations_eq probed).2 asks
      (by rw [parameters, length])
  have comes {ask : Ask} {call : Call}
      (routed : ask.route factory.plan = .ok (some (method, call))) {deadline : Option Nat}
      {world : World σ} (timely : (factory.run method call deadline world).1 ≠ .error .overdue) :
      Ruled world (gate.ruling host operation call) (factory.run method call deadline world) := by
    rw [same] at routed
    rw [executes] at timely ⊢
    exact Path.execute_ruled steady handled registered
      (laidOut.target_of_route member runs routed) timely
  have untargeted (needless : ∀ binding ∈ method.bindings,
      ArgumentSource.target ∉ binding.sources) : ∀ binding ∈ bindings,
        binding.needsTarget = false := by
    intro binding among
    rw [PlannedMethod.bindings, runs] at needless
    rw [Binding.needsTarget, List.contains_eq_mem, decide_eq_false_iff_not]
    exact needless binding among
  refine ⟨?_, ?_, ?_, ?_, ?_⟩
  · intro ask call routed deadline world other later output timely completes
    have inTime : (factory.run method call deadline world).1 ≠ .error .overdue := by
      intro overdue
      cases completes.symm.trans overdue
    obtain ⟨ruled, ruling, allowed⟩ := (comes routed inTime).allowed_of_completed completes
    rw [(settles (Ask.input_of_route routed).1).eq timely,
      Gate.ruling_kept gated probed ruling allowed]
    rfl
  · intro needless ask call routed deadline world other later timely inTime verdict
    rw [(settles (Ask.input_of_route routed).1).eq timely,
      Gate.ruling_untargeted gated probed (untargeted needless)]
    exact (comes routed inTime).denied_iff verdict
  · intro needless ask call routed deadline world other later timely inTime failure
    rw [(settles (Ask.input_of_route routed).1).eq timely,
      Gate.ruling_untargeted gated probed (untargeted needless)]
    exact (comes routed inTime).failed_iff failure
  · intro ask call routed
    refine ⟨?_, (settles (Ask.input_of_route routed).1).punctual⟩
    rw [executes]
    exact Path.execute_punctual steady registered
  · intro arguments length deadline world
    have misfit := laidOut.fitting_eq asked arguments
    have misfits := laidOut.fitting_eq member arguments
    rw [if_neg length] at misfits
    rw [parameters, if_neg length, role] at misfit
    refine ⟨?_, ?_, ?_⟩
    · rw [Factory.can_eq_follow, same, Ask.route, misfit]
      rfl
    · intro reads
      rw [reads] at misfits
      rw [Factory.read_eq_follow, same, Ask.route, misfits]
      rfl
    · intro writes target
      rw [writes] at misfits
      rw [Factory.write_eq_follow, same, Ask.route, misfits]
      rfl

/-- A host on which everything is allowed is steady. -/
theorem sampleHost_steady (side : Side) : (sampleHost side).Steady := by
  refine ⟨fun _ _ _ => rfl, ?_⟩
  intro key checker registered past other question
  cases registered
  rfl

/-- The read of the sample plan and its probe agree, and callers can call them. -/
theorem sample_probe_agrees : ∃ factory,
    Factory.build (sampleHost .server) samplePlan = .ok factory ∧
      ∃ method ∈ samplePlan.methods, ∃ probe ∈ samplePlan.methods, method.name = "fetch" ∧
        probe.name = "can_fetch" ∧ (∀ argument, (Ask.read "fetch" [argument]).route factory.plan =
          .ok (some (method, ⟨none, [argument]⟩))) ∧ factory.ProbeAgrees method probe := by
  obtain ⟨factory, built⟩ := sample_built.1
  have same := (Factory.Built.here built).plan_eq (generate_laidOut sample_generated)
  have member := List.getElem_mem (l := samplePlan.methods) (n := 0) (by decide)
  have asked := List.getElem_mem (l := samplePlan.methods) (n := 3) (by decide)
  refine ⟨factory, built, _, member, _, asked, rfl, rfl, ?_,
    generate_probe_agrees sample_generated (sampleHost_steady .server) built member asked rfl⟩
  intro argument
  rw [same]
  rfl

end Generation

end DomainFactory
