import DomainFactory.Proofs.Handling
import DomainFactory.Proofs.Positions

/-!
# Requests as they come

A table runs the method of a request with whatever the request carries. Nobody counts the arguments:
the gate takes null for those that are missing, and a write notices that it has no target only
behind its gate. A request that fits its method, in the way in which a factory lets its own callers
call, leaves no check without what it declares.
-/
namespace DomainFactory

variable {σ ε φ α β : Type}

namespace Run

/-- A run has ended with the complaint that a number of arguments is wrong. -/
def Miscounts (result : Except (Stop Failure) α) : Prop :=
  ∃ method expected actual, result = .error (.raised (.arity method expected actual))

/-- The run never ends with that complaint. -/
def Counts (run : Run σ Failure α) : Prop := ∀ deadline world, ¬ Miscounts (run deadline world).1

/-- What code raises is never taken for that complaint. -/
theorem counts_running (run : Run σ Fault α) : Counts run.running := by
  rintro deadline world ⟨method, expected, actual, complains⟩
  unfold running mapError at complains
  rcases ended : run deadline world with ⟨stop | value, later⟩
  · rw [ended] at complains
    rcases stop with fault | _
    · cases fault <;> cases complains
    · cases complains
  · rw [ended] at complains
    cases complains

/-- A value is no complaint. -/
theorem counts_pure (value : α) : Counts (Run.pure value : Run σ Failure α) := by
  rintro deadline world ⟨method, expected, actual, complains⟩
  cases complains

/-- Two runs one after another do not complain when neither does. -/
theorem Counts.bind {run : Run σ Failure α} {next : α → Run σ Failure β} (first : Counts run)
    (behind : ∀ value, Counts (next value)) : Counts (run >>= next) := by
  intro deadline world
  rcases ended : run deadline world with ⟨stop | value, later⟩
  · have counted := first deadline world
    rw [ended] at counted
    rw [bind_error ended]
    rintro ⟨method, expected, actual, complains⟩
    cases complains
    exact counted ⟨method, expected, actual, rfl⟩
  · rw [bind_ok ended]
    exact behind value deadline later

end Run

/-- The callbacks that begin in a journal, in order. -/
def begun (news : Journal σ) : List (Callback σ) := news.filterMap Entry.begun?

/-- Callbacks of two journals begin one after the other. -/
theorem begun_append (first second : Journal σ) :
    begun (first ++ second) = begun first ++ begun second := List.filterMap_append

/-- What is visited are the stations of the callbacks that begin. -/
theorem visited_eq_begun (news : Journal σ) : visited news = (begun news).map Callback.station :=
  List.map_filterMap.symm

namespace Run

/-- Only callbacks with a property begin during the run. -/
def Begins (holds : Callback σ → Prop) (run : Run σ ε α) : Prop :=
  ∀ deadline world, ∃ news, (run deadline world).2.journal = world.journal ++ news ∧
    ∀ callback ∈ begun news, holds callback

variable {holds : Callback σ → Prop}

/-- Nothing begins in a known result. -/
theorem begins_ofExcept (result : Except ε α) : Begins holds (ofExcept result : Run σ ε α) := by
  intro deadline world
  refine ⟨[], ?_, fun callback member => absurd member List.not_mem_nil⟩
  cases result <;> exact (List.append_nil _).symm

/-- Nothing begins in a value. -/
theorem begins_pure (value : α) : Begins holds (Run.pure value : Run σ ε α) :=
  begins_ofExcept (.ok value)

/-- What begins in two runs one after another begins in either. -/
theorem Begins.bind {run : Run σ ε α} {next : α → Run σ ε β} (first : Begins holds run)
    (behind : ∀ value, Begins holds (next value)) : Begins holds (run >>= next) := by
  intro deadline world
  obtain ⟨news, journal, held⟩ := first deadline world
  rcases ended : run deadline world with ⟨stop | value, later⟩
  · rw [ended] at journal
    rw [bind_error ended]
    exact ⟨news, journal, held⟩
  · rw [ended] at journal
    rw [bind_ok ended]
    obtain ⟨rest, journals, holding⟩ := behind value deadline later
    refine ⟨news ++ rest, ?_, ?_⟩
    · rw [journals, journal, List.append_assoc]
    · intro callback member
      rw [begun_append] at member
      exact (List.mem_append.mp member).elim (held callback) (holding callback)

/-- What begins does not depend on what errors are called. -/
theorem Begins.mapError {run : Run σ ε α} (change : ε → φ) (begins : Begins holds run) :
    Begins holds (run.mapError change) := by
  intro deadline world
  rw [mapError_world]
  exact begins deadline world

/-- A callback is all that begins when it is consulted. -/
theorem begins_consult {side : Side} {callback : Callback σ} {passes : α → Bool}
    {behaviour : Journal σ → Answer α} (held : holds callback) :
    Begins holds (consult side callback passes behaviour) := by
  intro deadline world
  obtain ⟨rest, journal, quiet⟩ := consult_begins side callback passes behaviour deadline world
  refine ⟨_, journal, ?_⟩
  rw [visited_eq_begun, List.map_eq_nil_iff] at quiet
  intro other member
  have first : begun (⟨side, .began callback⟩ :: rest) = callback :: begun rest := rfl
  rw [first, quiet] at member
  exact List.mem_singleton.mp member ▸ held

end Run

namespace Host

variable {host : Host σ} {holds : Callback σ → Prop}

/-- Finding services begins nothing else. -/
theorem begins_resolveAll (parameters : List Parameter) (resolves : ∀ type, holds (.resolve type)) :
    Run.Begins holds (host.resolveAll parameters) := by
  unfold resolveAll
  generalize (Keyed.empty : Keyed σ) = services
  induction parameters generalizing services with
  | nil => exact Run.begins_pure services
  | cons parameter parameters ih =>
    rw [List.foldlM_cons]
    have first : Run.Begins holds (host.resolve parameter.type >>= fun service =>
        Run.pure (services.insert parameter.name service)) :=
      (Run.begins_consult (resolves parameter.type)).bind fun service => Run.begins_pure _
    exact first.bind fun services => ih services

end Host

namespace Gate

variable {host : Host σ} {operation : Operation} {gate : Gate σ} {call : Call}
  {holds : Callback σ → Prop}

/-- Asking checks begins nothing but the questions to them. -/
theorem begins_askAll {side : Side} {kind : Kind} {services : Keyed σ} {checks : List (GateCheck σ)}
    (asks : ∀ check ∈ checks, holds (.check (check.question kind call services))) :
    Run.Begins holds (askAll side kind call services checks) := by
  induction checks with
  | nil => exact Run.begins_pure _
  | cons check checks ih =>
    have asked : Run.Begins holds (check.ask side (check.question kind call services)) :=
      Run.begins_consult (asks check List.mem_cons_self)
    refine asked.bind fun verdict => ?_
    split
    · exact ih fun other member => asks other (List.mem_cons_of_mem _ member)
    · exact Run.begins_pure _

/-- A gate finds services and asks its checks, and begins nothing else. -/
theorem begins_guard (resolves : ∀ type, holds (.resolve type))
    (asks : ∀ check ∈ gate.checks, ∀ services,
      holds (.check (check.question gate.kind call services))) :
    Run.Begins holds (guard host operation gate call) := by
  refine ((Host.begins_resolveAll _ resolves).mapError Fault.asFailure).bind fun services => ?_
  have asked : Run.Begins holds (gate.evaluate call services) :=
    begins_askAll fun check member => asks check member services
  exact (asked.mapError Fault.asFailure).bind fun verdict => Run.begins_pure _

/-- A gate does not complain about numbers of arguments. -/
theorem counts_guard : Run.Counts (guard host operation gate call) :=
  (Run.counts_running _).bind fun _ => (Run.counts_running _).bind fun _ => Run.counts_pure _

/-- A gate without checks rules that everything is allowed, once services are found. -/
theorem guard_unchecked (free : gate.checks = []) {deadline : Option Nat} {world later : World σ}
    {services : Keyed σ}
    (found : host.resolveAll operation.injectedParameters deadline world = (.ok services, later)) :
    guard host operation gate call deadline world = (.ok (services, .allow), later) := by
  have supplied : (host.resolveAll operation.injectedParameters).running deadline world =
      (.ok services, later) := by
    unfold Run.running Run.mapError
    rw [found]
  unfold guard
  rw [Run.bind_ok supplied]
  unfold evaluate
  rw [free]
  rfl

/-- Behind a ruling services have been found. -/
theorem resolved_of_guard {deadline : Option Nat} {world later : World σ}
    {ruled : Keyed σ × Verdict}
    (ruling : guard host operation gate call deadline world = (.ok ruled, later)) :
    ∃ services middle,
      host.resolveAll operation.injectedParameters deadline world = (.ok services, middle) := by
  obtain ⟨services, middle, found, _⟩ := Run.bind_eq_ok ruling
  exact ⟨services, middle, Run.mapError_ok found⟩

end Gate

namespace Path

variable {host : Host σ} {typeName : String} {saveState : Bool} {operation : Operation}
  {handler : Handler σ} {gate : Gate σ} {call : Call} {services : Keyed σ}

/-- What acts does not complain when it has its receiver. -/
theorem counts_act (given : operation.isWrite = true → call.target.isSome = true) :
    Run.Counts (act host typeName saveState operation handler call services) := by
  obtain ⟨receiver, received⟩ := receiver_eq_ok typeName given
  unfold act
  rw [received]
  refine (Run.counts_pure receiver).bind fun target => ?_
  refine (Run.counts_running _).bind fun _ => ?_
  exact (Run.counts_running _).bind fun _ => (Run.counts_running _).bind fun _ => Run.counts_pure _

/-- A write that is to act without a target complains at once. -/
theorem act_untargeted (writes : operation.isWrite = true) (without : call.target = none) :
    act host typeName saveState operation handler call services =
      Run.raise (.arity operation.publicName 1 0) := by
  have missing : operation.receiver typeName call.target =
      .error (.arity operation.publicName 1 0) := by
    unfold Operation.isWrite at writes
    unfold Operation.receiver
    rw [without]
    cases kind : operation.kind with
    | insert | update | delete => rfl
    | create | fetch | execute =>
      rw [kind] at writes
      cases writes
  unfold act
  rw [missing]
  rfl

/-- Only the handler and the hooks begin when an operation acts. -/
theorem begins_act {holds : Callback σ → Prop}
    (befores : ∀ operation target, holds (.before operation target))
    (handles : ∀ key invocation, holds (.handler key invocation))
    (afters : ∀ operation output, holds (.after operation output)) :
    Run.Begins holds (act host typeName saveState operation handler call services) := by
  refine (Run.begins_ofExcept _).bind fun target => ?_
  refine ((Run.begins_consult (befores _ _)).mapError Fault.asFailure).bind fun _ => ?_
  refine ((Run.begins_consult (handles _ _)).mapError Fault.asFailure).bind fun completion => ?_
  refine ((Run.begins_consult (afters _ _)).mapError Fault.asFailure).bind fun _ => ?_
  exact Run.begins_pure _

/-- An operation complains about the number of arguments exactly when it is a write without a target
whose gate allows. -/
theorem execute_miscounts {deadline : Option Nat} {world : World σ} :
    Run.Miscounts (execute host typeName saveState operation handler gate call deadline world).1 ↔
      operation.isWrite = true ∧ call.target = none ∧
        ∃ ruled later, gate.guard host operation call deadline world = (.ok ruled, later) ∧
          ruled.2.allowed = true := by
  rw [execute_eq]
  by_cases given : operation.isWrite = true → call.target.isSome = true
  · have counts : Run.Counts (gate.guard host operation call >>= fun ruled =>
        if ruled.2.allowed then act host typeName saveState operation handler call ruled.1
        else Run.pure (.denied ruled.2)) := by
      refine Gate.counts_guard.bind fun ruled => ?_
      split
      · exact counts_act given
      · exact Run.counts_pure _
    refine ⟨fun miscounts => absurd miscounts (counts deadline world), ?_⟩
    rintro ⟨writes, without, _⟩
    have some := given writes
    rw [without] at some
    cases some
  · obtain ⟨writes, without⟩ := Classical.not_imp.mp given
    have without : call.target = none := Option.not_isSome_iff_eq_none.mp without
    simp only [act_untargeted writes without, writes, without, true_and]
    constructor
    · rintro ⟨method, expected, actual, complains⟩
      rcases ended : gate.guard host operation call deadline world with ⟨stop | ruled, later⟩
      · rw [Run.bind_error ended] at complains
        cases complains
        have counts : Run.Counts (gate.guard host operation call) := Gate.counts_guard
        refine absurd ⟨method, expected, actual, ?_⟩ (counts deadline world)
        rw [ended]
      · refine ⟨ruled, later, rfl, ?_⟩
        rw [Run.bind_ok ended] at complains
        by_contra denied
        rw [if_neg denied] at complains
        cases complains
    · rintro ⟨ruled, later, ended, allowed⟩
      rw [Run.bind_ok ended, if_pos allowed]
      exact ⟨_, _, _, rfl⟩

/-- A write without a target leaves behind what its gate leaves behind. -/
theorem execute_untargeted_world (writes : operation.isWrite = true) (without : call.target = none)
    (deadline : Option Nat) (world : World σ) :
    (execute host typeName saveState operation handler gate call deadline world).2 =
      (gate.guard host operation call deadline world).2 := by
  rw [execute_eq]
  simp only [act_untargeted writes without]
  rcases ended : gate.guard host operation call deadline world with ⟨stop | ruled, later⟩
  · rw [Run.bind_error ended]
  · rw [Run.bind_ok ended]
    split <;> rfl

end Path

/-- Whether a check is asked at a station. -/
def Station.isCheck : Station → Bool
  | .check _ => true
  | _ => false

/-- Whether a request gives what callers of a method have to give: as many arguments as it has
parameters, and a target when it is a write. -/
def Request.Fits (request : Request) (method : PlannedMethod) : Prop :=
  request.arguments.length = method.parameters.length ∧
    (method.role = .write → request.target.isSome = true)

/-- Whether a call gives what a slot of a check asks for. -/
def Slot.Given (call : Call) : Slot → Prop
  | .target => call.target.isSome = true
  | .caller position => position < call.arguments.length
  | .injected => True

/-- Whether a question asks the check of a binding what a call gives for its parameters. -/
structure Question.Carries (plan : Plan) (operation : Operation) (binding : Binding) (call : Call)
    (question : Question σ) : Prop where
  key : question.key = plan.checkKey binding
  target : question.target = if binding.needsTarget then call.target else none
  arguments : question.arguments = binding.sources.map fun source =>
    (Slot.ofSource operation source).argument call.arguments

/-- A run refuses to serve: it complains about the number of arguments, and neither a check nor a
handler has begun. -/
def Run.Refuses (run : Run σ Failure α) (deadline : Option Nat) (world : World σ) : Prop :=
  Run.Miscounts (run deadline world).1 ∧
    ∃ news, (run deadline world).2.journal = world.journal ++ news ∧
      ∀ station ∈ visited news, station.isCheck = false ∧ station.isHandler = false

namespace PlannedMethod

/-- The services of the operation of a method are found. -/
def Supplied (host : Host σ) (method : PlannedMethod) (deadline : Option Nat) (world : World σ) :
    Prop :=
  ∃ operation services later, method.operation? = some operation ∧
    host.resolveAll operation.injectedParameters deadline world = (.ok services, later)

/-- The gate of a method allows a call. -/
def Allowed (host : Host σ) (plan : Plan) (method : PlannedMethod) (call : Call)
    (deadline : Option Nat) (world : World σ) : Prop :=
  ∃ operation gate ruled later, method.operation? = some operation ∧
    Gate.build host plan.checks operation method.bindings = .ok gate ∧
    gate.guard host operation call deadline world = (.ok ruled, later) ∧ ruled.2.allowed = true

/-- What becomes of a request that is served by a method, whatever it carries. -/
structure Receives (host : Host σ) (plan : Plan) (method : PlannedMethod) (request : Request)
    (run : Run σ Failure α) : Prop where
  /-- The only complaint about a number of arguments is that a write has no target, and it comes
  when the gate has allowed the write. -/
  complains : ∀ deadline world, Run.Miscounts (run deadline world).1 ↔
    method.role = .write ∧ request.target = none ∧
      method.Allowed host plan request.call deadline world
  /-- A write without a target runs neither its handler nor a hook. -/
  rests : method.role = .write → request.target = none →
    run.Begins fun callback => callback.station.acts = false
  /-- A request is refused exactly when it has no target for a write without checks, whose services
  are found. -/
  refuses : ∀ deadline world, run.Refuses deadline world ↔
    method.role = .write ∧ request.target = none ∧ method.bindings = [] ∧
      method.Supplied host deadline world
  /-- Checks are asked what the request carries. -/
  asks : run.Begins fun callback => ∀ question, callback = .check question →
    ∃ operation, method.operation? = some operation ∧
      ∃ binding ∈ method.bindings, question.Carries plan operation binding request.call
  /-- A request that fits carries all that the checks ask for. -/
  filled : request.Fits method → ∀ operation, method.operation? = some operation →
    ∀ binding ∈ method.bindings, ∀ source ∈ binding.sources,
      (Slot.ofSource operation source).Given request.call

/-- What a method receives does not depend on what is made of its reply. -/
theorem Receives.of_map {host : Host σ} {plan : Plan} {method : PlannedMethod} {request : Request}
    {run : Run σ Failure α} {served : Run σ Failure β} (change : α → β)
    (receives : method.Receives host plan request run)
    (serves : ∀ deadline world, served deadline world =
      ((run deadline world).1.map change, (run deadline world).2)) :
    method.Receives host plan request served := by
  have miscounts (deadline : Option Nat) (world : World σ) :
      Run.Miscounts (served deadline world).1 ↔ Run.Miscounts (run deadline world).1 := by
    rw [serves]
    unfold Run.Miscounts
    cases (run deadline world).1 with
    | ok reply => simp only [Except.map, reduceCtorEq, exists_const]
    | error stop => simp only [Except.map, Except.error.injEq]
  have left (deadline : Option Nat) (world : World σ) :
      (served deadline world).2 = (run deadline world).2 := by rw [serves]
  refine ⟨?_, ?_, ?_, ?_, receives.filled⟩
  · intro deadline world
    rw [miscounts]
    exact receives.complains deadline world
  · intro writes without deadline world
    rw [left]
    exact receives.rests writes without deadline world
  · intro deadline world
    rw [Run.Refuses, miscounts, left]
    exact receives.refuses deadline world
  · intro deadline world
    rw [left]
    exact receives.asks deadline world

end PlannedMethod

/-- A caller's argument that a check asks for is one of those that callers give. -/
theorem Slot.callerPosition_lt {operation : Operation} {position index : Nat}
    (found : callerPosition? operation position = some index) :
    index < operation.publicParameters.length := (operation.numbered.agrees position index found).1

/-- Only checks of writes ask for the target. -/
theorem Binding.isWrite_of_needsTarget {checks : List Check} {operation : Operation}
    {binding : Binding} (member : binding ∈ (bind checks operation).bindings)
    (needs : binding.needsTarget = true) : operation.isWrite = true := by
  obtain ⟨check, _, _, _, lined⟩ := mem_bindFrom.mp member
  obtain ⟨positions, lines, sources⟩ := sources_eq_some_iff.mp lined
  rw [needsTarget, List.contains_iff_mem, sources] at needs
  obtain ⟨position, present, target⟩ := List.mem_map.mp needs
  unfold sourceAt at target
  split at target
  next first =>
    obtain ⟨front, refers⟩ := first
    obtain rfl : position = 0 := by omega
    obtain ⟨index, found⟩ := List.mem_iff_getElem?.mp present
    have bound : index < check.parameters.length := by
      rw [← lines.each]
      exact (List.getElem?_eq_some_iff.mp found).1
    obtain ⟨parameter, head, gives⟩ := lines.given index 0 _ found (List.getElem?_eq_getElem bound)
    rw [List.head?_eq_getElem?, head, Option.any_some] at refers
    rw [Binding.gives, if_pos refers, Bool.and_eq_true] at gives
    exact gives.1
  next => cases target

/-- A check asks for the target when its binding does. -/
theorem Binding.targets_slots (operation : Operation) (binding : Binding) :
    (binding.sources.map (Slot.ofSource operation)).contains .target = binding.needsTarget := by
  have same (source : ArgumentSource) : Slot.ofSource operation source = .target ↔
      source = .target := by
    cases source with
    | target => exact ⟨fun _ => rfl, fun _ => rfl⟩
    | parameter position =>
      unfold Slot.ofSource
      dsimp only
      split <;> simp only [reduceCtorEq]
  rw [Bool.eq_iff_iff, needsTarget, List.contains_iff_mem, List.contains_iff_mem, List.mem_map]
  constructor
  · rintro ⟨source, member, target⟩
    rwa [(same source).mp target] at member
  · intro member
    exact ⟨.target, member, rfl⟩

/-- Questions of a check that is found for a binding carry what the call gives. -/
theorem GateCheck.question_carries {host : Host σ} {plan : Plan} {operation : Operation}
    {binding : Binding} {check : GateCheck σ}
    (made : ofBinding host plan.checks operation binding = .ok check) (kind : Kind) (call : Call)
    (services : Keyed σ) :
    (check.question kind call services).Carries plan operation binding call := by
  obtain ⟨declared, checker, found, _, rfl⟩ := ofBinding_eq_ok.mp made
  refine ⟨(Plan.checkKey_eq found).symm, ?_, ?_⟩
  · unfold question
    dsimp only
    rw [binding.targets_slots]
  · unfold question
    dsimp only
    rw [List.map_map]
    rfl

/-- Questions of a gate that is built carry what its call gives. -/
theorem Gate.question_carries {host : Host σ} {plan : Plan} {operation : Operation}
    {bindings : List Binding} {gate : Gate σ}
    (built : build host plan.checks operation bindings = .ok gate) {check : GateCheck σ}
    (member : check ∈ gate.checks) (kind : Kind) (call : Call) (services : Keyed σ) :
    ∃ binding ∈ bindings,
      (check.question kind call services).Carries plan operation binding call := by
  obtain ⟨_, _, pairs⟩ := build_eq_ok built
  obtain ⟨binding, present, made⟩ : ∃ binding ∈ bindings,
      GateCheck.ofBinding host plan.checks operation binding = .ok check := by
    generalize gate.checks = checks at pairs member
    clear built
    induction pairs with
    | nil => cases member
    | @cons binding first bindings checks made _ ih =>
      rcases List.mem_cons.mp member with rfl | member
      · exact ⟨binding, List.mem_cons_self, made⟩
      · obtain ⟨other, present, made⟩ := ih member
        exact ⟨other, List.mem_cons_of_mem _ present, made⟩
  exact ⟨binding, present, GateCheck.question_carries made kind call services⟩

namespace PlannedMethod

variable {host : Host σ} {plan : Plan} {method : PlannedMethod} {operation : Operation}
  {bindings : List Binding} {gate : Gate σ} {request : Request}

/-- A write without a target is refused exactly when it has no checks and its services are found.
-/
theorem refuses_iff {handler : Handler σ} (body : method.body = .run operation bindings)
    (built : Gate.build host plan.checks operation bindings = .ok gate)
    (writes : operation.isWrite = true) (without : request.target = none)
    (deadline : Option Nat) (world : World σ) :
    Run.Refuses (Path.execute host plan.typeName plan.saveState operation handler gate request.call)
      deadline world ↔ bindings = [] ∧ method.Supplied host deadline world := by
  obtain ⟨stations, registered⟩ := Gate.stations_eq built
  have has : method.operation? = some operation := by rw [operation?, body]
  have untargeted : request.call.target = none := without
  have follows : Run.Follows host (plan.gateStations operation bindings)
      (fun ruled => ruled.2.allowed = true) (gate.guard host operation request.call) := by
    rw [Plan.gateStations, ← stations]
    exact Gate.follows_guard registered
  obtain ⟨news, journal, orderly, complete⟩ := follows deadline world
  have left : (Path.execute host plan.typeName plan.saveState operation handler gate request.call
      deadline world).2 = (gate.guard host operation request.call deadline world).2 :=
    Path.execute_untargeted_world writes untargeted deadline world
  constructor
  · rintro ⟨miscounts, others, grown, unchecked⟩
    obtain ⟨_, _, ruled, later, ruling, allowed⟩ := Path.execute_miscounts.mp miscounts
    rw [left, journal] at grown
    rw [← List.append_cancel_left grown] at unchecked
    rw [ruling] at complete
    have order := (complete ruled rfl allowed).order
    refine ⟨List.eq_nil_iff_forall_not_mem.mpr fun binding member => ?_, ?_⟩
    · have asked : Station.check (plan.checkKey binding) ∈ visited news := by
        rw [order]
        exact List.mem_append_right _ (List.mem_map_of_mem member)
      cases (unchecked _ asked).1
    · obtain ⟨services, middle, found⟩ := Gate.resolved_of_guard ruling
      exact ⟨operation, services, middle, has, found⟩
  · rintro ⟨rfl, same, services, later, equal, found⟩
    cases has.symm.trans equal
    have free : gate.checks = [] := by
      obtain ⟨_, _, pairs⟩ := Gate.build_eq_ok built
      exact List.forall₂_nil_left_iff.mp pairs
    refine ⟨Path.execute_miscounts.mpr ⟨writes, untargeted, _, _,
      Gate.guard_unchecked free found, rfl⟩, news, left ▸ journal, ?_⟩
    intro station visits
    have member := orderly.order.subset visits
    rw [Plan.gateStations, Plan.checkStations, List.map_nil, List.append_nil] at member
    obtain ⟨parameter, _, rfl⟩ := List.mem_map.mp member
    exact ⟨rfl, rfl⟩

/-- What a method receives on the side of a host. -/
theorem localPath_receives {path : Path σ} (found : Factory.localPath host plan method = .ok path)
    (fits : method.Fits)
    (public_ : ∀ operation, method.operation? = some operation →
      method.parameters = operation.publicParameters)
    (aimed : ∀ binding ∈ method.bindings, binding.needsTarget = true → method.role = .write)
    (request : Request) : method.Receives host plan request (path request.call) := by
  have filled : request.Fits method → ∀ operation, method.operation? = some operation →
      ∀ binding ∈ method.bindings, ∀ source ∈ binding.sources,
        (Slot.ofSource operation source).Given request.call := by
    rintro ⟨length, target⟩ operation has binding member source present
    cases source with
    | target =>
      exact target (aimed binding member (List.contains_iff_mem.mpr present))
    | parameter position =>
      unfold Slot.ofSource
      dsimp only
      split
      next index caller =>
        have inside := Slot.callerPosition_lt caller
        rw [← public_ operation has, ← length] at inside
        exact inside
      next => trivial
  cases Factory.localPath_runsHere found with
  | @run operation bindings handler gate body _ built =>
    have has : method.operation? = some operation := by rw [operation?, body]
    have same : method.bindings = bindings := by rw [PlannedMethod.bindings, body]
    have role : method.role = .write ↔ operation.isWrite = true := by
      rw [fits.run body]
      cases operation.isWrite <;> decide
    refine ⟨?_, ?_, ?_, ?_, filled⟩
    · intro deadline world
      rw [Path.execute_miscounts, role]
      refine and_congr_right fun _ => and_congr_right fun _ => ⟨?_, ?_⟩
      · rintro ⟨ruled, later, ruling, allowed⟩
        exact ⟨operation, gate, ruled, later, has, same ▸ built, ruling, allowed⟩
      · rintro ⟨other, again, ruled, later, equal, rebuilt, ruling, allowed⟩
        cases has.symm.trans equal
        rw [same] at rebuilt
        cases built.symm.trans rebuilt
        exact ⟨ruled, later, ruling, allowed⟩
    · intro writes without deadline world
      rw [Path.execute_untargeted_world (role.mp writes) without]
      exact Gate.begins_guard (fun _ => rfl) (fun _ _ _ => rfl) deadline world
    · intro deadline world
      by_cases writes : operation.isWrite = true ∧ request.target = none
      · rw [refuses_iff body built writes.1 writes.2, role, same]
        simp only [writes.1, writes.2, true_and]
      · constructor
        · intro refuses
          obtain ⟨writing, without, _⟩ := Path.execute_miscounts.mp refuses.1
          exact absurd ⟨writing, without⟩ writes
        · rintro ⟨writing, without, _⟩
          exact absurd ⟨role.mp writing, without⟩ writes
    · rw [Path.execute_eq]
      refine (Gate.begins_guard (fun _ _ asks => by cases asks) ?_).bind fun ruled => ?_
      · rintro check member services question ⟨⟩
        obtain ⟨binding, present, carries⟩ :=
          Gate.question_carries built member gate.kind request.call services
        exact ⟨operation, has, binding, same ▸ present, carries⟩
      · split
        · exact Path.begins_act (fun _ _ _ asks => by cases asks)
            (fun _ _ _ asks => by cases asks) (fun _ _ _ asks => by cases asks)
        · exact Run.begins_pure _
  | @probe wraps operation bindings gate body built =>
    have has : method.operation? = some operation := by rw [operation?, body]
    have same : method.bindings = bindings := by rw [PlannedMethod.bindings, body]
    have role : method.role ≠ .write := by
      rw [fits.probe body]
      decide
    have counts : Run.Counts (Path.probe host operation gate request.call) := by
      rw [Path.probe_eq]
      exact Gate.counts_guard.bind fun _ => Run.counts_pure _
    refine ⟨?_, fun writes => absurd writes role, ?_, ?_, filled⟩
    · intro deadline world
      exact ⟨fun complains => absurd complains (counts deadline world),
        fun writes => absurd writes.1 role⟩
    · intro deadline world
      exact ⟨fun refuses => absurd refuses.1 (counts deadline world),
        fun writes => absurd writes.1 role⟩
    · rw [Path.probe_eq]
      refine (Gate.begins_guard (fun _ _ asks => by cases asks) ?_).bind fun _ => Run.begins_pure _
      rintro check member services question ⟨⟩
      obtain ⟨binding, present, carries⟩ :=
        Gate.question_carries built member gate.kind ⟨none, request.call.arguments⟩ services
      have untargeted : binding.needsTarget = false :=
        Bool.eq_false_iff.mpr fun needs => role (aimed binding (same ▸ present) needs)
      refine ⟨operation, has, binding, same ▸ present, carries.key, ?_, carries.arguments⟩
      rw [carries.target, untargeted]
      rfl

end PlannedMethod

namespace Generation

/-- Only checks of writes ask for the target in a generated plan. -/
theorem planOf_needsTarget {config : Config} {catalog : Catalog} {typeName : String} {chain : Chain}
    {method : PlannedMethod}
    (member : method ∈ (planOf config typeName (findings catalog config chain)).methods)
    {binding : Binding} (present : binding ∈ method.bindings)
    (needs : binding.needsTarget = true) : method.role = .write := by
  unfold PlannedMethod.bindings at present
  cases body : method.body with
  | save insert update delete tryName =>
    rw [body] at present
    cases present
  | probe wraps operation bindings =>
    rw [body] at present
    have listed := List.mem_filterMap.mpr ⟨method, member, PlannedMethod.asked_eq_some.mpr body⟩
    obtain ⟨_, _, _, _, equal⟩ := (planOf_asked config typeName _).mp listed
    cases equal
    have kept := (List.mem_filter.mp present).2
    rw [needs] at kept
    cases kept
  | run operation bindings =>
    rw [body] at present
    have bounds : method.bound? = some ⟨operation, bindings⟩ :=
      PlannedMethod.bound_eq_some.mpr body
    obtain ⟨position, found, _⟩ := planOf_position config typeName _ member bounds
    obtain ⟨extracted, _, equal⟩ := List.mem_map.mp (List.mem_of_getElem? found)
    cases equal
    have writes := Binding.isWrite_of_needsTarget present needs
    rw [(planOf_fits config typeName _ member).run body, if_pos writes]

/-- What becomes of every request that the table of a local factory knows, whatever it carries: it
is received by the method with its identity. -/
theorem generate_receives {config : Config} {catalog : Catalog} {typeName : String} {plan : Plan}
    (made : generate config catalog typeName = .ready plan) {host : Host σ} {factory : Factory σ}
    (built : Factory.build host plan = .ok factory) {request : Request}
    (known : factory.dispatchTable.contains request.operation = true) :
    ∃ method ∈ plan.methods, Plan.operationId plan.typeName method.name = request.operation ∧
      method.Receives host plan request (factory.dispatchTable.serve request) := by
  have laidOut := generate_laidOut made
  obtain ⟨chain, _, rfl⟩ := of_generate_ready made
  obtain ⟨path, offered⟩ := Option.isSome_iff_exists.mp known
  obtain ⟨method, member, _, _, identity, found⟩ :=
    (Factory.Built.here built).of_dispatchTable_get laidOut offered
  refine ⟨method, member, identity, ?_⟩
  have receives := PlannedMethod.localPath_receives found (laidOut.fits method member)
    (fun operation has => planOf_parameters member has)
    (fun binding present => planOf_needsTarget member present) request
  exact receives.of_map (Response.mk request.number) fun deadline world =>
    DispatchTable.serve_apply offered rfl

/-- A request for the read of the sample. -/
def fitRequest : Request := ⟨1, "Person::fetch", none, [.int 7]⟩

/-- The read of the sample receives a request that fits it, and the check is asked what it carries.
-/
theorem sample_receives : ∃ server, Factory.build (sampleHost .server) samplePlan = .ok server ∧
    server.dispatchTable.contains fitRequest.operation = true ∧
    ∃ method ∈ samplePlan.methods,
      Plan.operationId samplePlan.typeName method.name = fitRequest.operation ∧
      method.Receives (sampleHost .server) samplePlan fitRequest
        (server.dispatchTable.serve fitRequest) := by
  obtain ⟨server, built⟩ := sample_built.1
  have known : server.dispatchTable.contains fitRequest.operation = true := by
    have equal : Factory.build (sampleHost .server) samplePlan = .ok _ := rfl
    cases built.symm.trans equal
    rfl
  exact ⟨server, built, known, generate_receives sample_generated built known⟩

/-- A request for the read of the sample without the argument that it takes. -/
def unfitRequest : Request := ⟨1, "Person::fetch", none, []⟩

/-- The table of the sample serves a request that does not fit: the check of the read is asked about
null, and the handler runs. -/
theorem unfit_served : ∃ server method, Factory.build (sampleHost .server) samplePlan = .ok server ∧
    samplePlan.method? "fetch" = some method ∧
    Plan.operationId samplePlan.typeName method.name = unfitRequest.operation ∧
    server.dispatchTable.contains unfitRequest.operation = true ∧
    unfitRequest.arguments.length ≠ method.parameters.length ∧
    ¬ Run.Miscounts (server.dispatchTable.serve unfitRequest none {}).1 ∧
    ∃ question invocation, (begun (server.dispatchTable.serve unfitRequest none {}).2.journal) =
        [.check question, .before sampleFetch (some (.new "Person")),
          .handler "Person::fetch" invocation, .after sampleFetch (some (.produced
            (Entity.new "Person").markOld))] ∧
      question.key = "PersonAuth::can_read" ∧ question.arguments = [.null] ∧
      invocation.arguments = [] := by
  refine ⟨_, _, rfl, rfl, rfl, rfl, by decide, ?_, _, _, rfl, rfl, rfl, rfl⟩
  rintro ⟨method, expected, actual, complains⟩
  cases complains

end Generation

end DomainFactory
