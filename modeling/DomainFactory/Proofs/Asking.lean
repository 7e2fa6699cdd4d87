import DomainFactory.Proofs.Crossing
import DomainFactory.Proofs.Pairing
import DomainFactory.Proofs.Requests

/-!
# What checks are asked

A question carries an argument for each parameter of its check. Where the argument comes from is
counted in three ways: among all parameters of the operation, behind its target, and among what
callers give. A call that reaches its method brings to every check what the caller gave.
-/
namespace DomainFactory

variable {σ ε φ α β : Type}

/-- The question with which a check begins. -/
def Callback.question? : Callback σ → Option (Question σ)
  | .check question => some question
  | _ => none

/-- The questions with which checks begin in a journal, in order. -/
def questions (news : Journal σ) : List (Question σ) := (begun news).filterMap Callback.question?

/-- Questions of two journals come one after the other. -/
theorem questions_append (first second : Journal σ) :
    questions (first ++ second) = questions first ++ questions second := by
  unfold questions
  rw [begun_append, List.filterMap_append]

namespace Run

/-- The questions of a run, in order, have a property. -/
def Asks (holds : List (Question σ) → Prop) (run : Run σ ε α) : Prop :=
  ∀ deadline world, ∃ news, (run deadline world).2.journal = world.journal ++ news ∧
    holds (questions news)

variable {holds more both : List (Question σ) → Prop}

/-- A weaker property holds of the questions as well. -/
theorem Asks.mono {run : Run σ ε α} (asks : Asks holds run)
    (implies : ∀ asked, holds asked → more asked) : Asks more run := by
  intro deadline world
  obtain ⟨news, journal, held⟩ := asks deadline world
  exact ⟨news, journal, implies _ held⟩

/-- A run in which no check begins asks nothing. -/
theorem Begins.asks {run : Run σ ε α}
    (begins : run.Begins fun callback => callback.question? = none) : Asks (· = []) run := by
  intro deadline world
  obtain ⟨news, journal, held⟩ := begins deadline world
  exact ⟨news, journal, List.filterMap_eq_nil_iff.mpr held⟩

/-- Two runs one after another ask the questions of the first, and those of the second if it comes
to it. -/
theorem Asks.bind {run : Run σ ε α} {next : α → Run σ ε β} (first : Asks holds run)
    (behind : ∀ value, Asks more (next value)) (ends : ∀ asked, holds asked → both asked)
    (joins : ∀ early late, holds early → more late → both (early ++ late)) :
    Asks both (run >>= next) := by
  intro deadline world
  obtain ⟨news, journal, held⟩ := first deadline world
  rcases ended : run deadline world with ⟨stop | value, later⟩
  · rw [ended] at journal
    rw [bind_error ended]
    exact ⟨news, journal, ends _ held⟩
  · rw [ended] at journal
    rw [bind_ok ended]
    obtain ⟨rest, journals, holding⟩ := behind value deadline later
    refine ⟨news ++ rest, ?_, ?_⟩
    · rw [journals, journal, List.append_assoc]
    · rw [questions_append]
      exact joins _ _ held holding

/-- Nothing more is asked when a run asks what it should and the next one asks nothing. -/
theorem Asks.bind_quiet {run : Run σ ε α} {next : α → Run σ ε β} (first : Asks holds run)
    (behind : ∀ value, Asks (· = []) (next value)) : Asks holds (run >>= next) :=
  first.bind behind (fun _ held => held) fun _ _ held nothing => by
    rw [nothing, List.append_nil]
    exact held

/-- What a run asks comes behind a run that asks nothing. -/
theorem Asks.quiet_bind {run : Run σ ε α} {next : α → Run σ ε β} (first : Asks (· = []) run)
    (behind : ∀ value, Asks holds (next value)) (nothing : holds []) : Asks holds (run >>= next) :=
  first.bind behind (fun _ none => none ▸ nothing) fun _ _ none held => by
    rw [none, List.nil_append]
    exact held

/-- What is asked does not depend on what errors are called. -/
theorem Asks.mapError {run : Run σ ε α} (change : ε → φ) (asks : Asks holds run) :
    Asks holds (run.mapError change) := by
  intro deadline world
  rw [mapError_world]
  exact asks deadline world

/-- A known result asks nothing. -/
theorem asks_ofExcept (result : Except ε α) : Asks (· = []) (ofExcept result : Run σ ε α) :=
  (begins_ofExcept result).asks

/-- The question of a check is asked when the check is consulted. -/
theorem asks_consult {side : Side} {question : Question σ} {passes : α → Bool}
    {behaviour : Journal σ → Answer α} :
    Asks (· = [question]) (consult side (.check question) passes behaviour) := by
  intro deadline world
  obtain ⟨rest, journal, quiet⟩ :=
    consult_begins side (.check question) passes behaviour deadline world
  rw [visited_eq_begun, List.map_eq_nil_iff] at quiet
  refine ⟨_, journal, ?_⟩
  change question :: (begun rest).filterMap Callback.question? = [question]
  rw [quiet, List.filterMap_nil]

/-- Writing an event with which no check begins asks nothing. -/
theorem asks_write {side : Side} {event : Event σ}
    (silent : (Entry.begun? ⟨side, event⟩).bind Callback.question? = none) :
    Asks (· = []) (write side event : Run σ ε Unit) := by
  refine fun deadline world => ⟨[⟨side, event⟩], rfl, ?_⟩
  unfold questions begun
  rw [List.filterMap_filterMap]
  exact List.filterMap_cons_none silent

/-- What is asked does not depend on whether an error is a value. -/
theorem Asks.attempt {run : Run σ ε α} (asks : Asks holds run) :
    Asks holds (run.attempt : Run σ φ (Except ε α)) := by
  intro deadline world
  have left : ((run.attempt : Run σ φ (Except ε α)) deadline world).2 =
      (run deadline world).2 := by
    unfold Run.attempt
    rcases run deadline world with ⟨(_ | _) | _, _⟩ <;> rfl
  rw [left]
  exact asks deadline world

/-- A callback other than a check asks what the run in it asks. -/
theorem Asks.enclose {side : Side} {callback : Callback σ} {passes : α → Bool}
    {run : Run σ Fault α} (asks : Asks holds run) (other : callback.question? = none)
    (nothing : holds []) : Asks holds (enclose side callback passes run) := by
  have opens : Asks (· = []) (write side (.began callback) : Run σ Fault Unit) := asks_write other
  refine opens.quiet_bind (fun _ => asks.attempt.bind_quiet fun ended => ?_) nothing
  cases ended with
  | ok value =>
    have closes : (Entry.begun? ⟨side, if passes value then .passed callback
        else .stopped callback⟩).bind Callback.question? = none := by
      split <;> rfl
    exact (asks_write closes).bind_quiet fun _ => asks_ofExcept (.ok value)
  | error fault => exact (asks_write rfl).bind_quiet fun _ => asks_ofExcept (.error fault)

/-- What is asked within a time limit is asked under the sooner deadline. -/
theorem Asks.within {run : Run σ Failure α} (limit : Nat) (asks : Asks holds run) :
    Asks holds (run.within limit) := by
  intro deadline world
  rw [within_world]
  exact asks _ world

end Run

/-- Questions are asked for the first of some bindings, in their order, and each suits its binding.
-/
def InTurn (suits : Binding → Question σ → Prop) (bindings : List Binding)
    (asked : List (Question σ)) : Prop :=
  ∃ first, first <+: bindings ∧ List.Forall₂ suits first asked

/-- Questions that suit their bindings in one way may suit them in another. -/
theorem InTurn.imp {suits other : Binding → Question σ → Prop} {bindings : List Binding}
    {asked : List (Question σ)} (asks : InTurn suits bindings asked)
    (implies : ∀ binding ∈ bindings, ∀ question, suits binding question → other binding question) :
    InTurn other bindings asked := by
  obtain ⟨first, ahead, suited⟩ := asks
  have listed : ∀ binding ∈ first, binding ∈ bindings := fun _ present => ahead.subset present
  have both := (List.forall₂_and_left first asked).mpr ⟨listed, suited⟩
  exact ⟨first, ahead, both.imp fun binding question held => implies binding held.1 question held.2⟩

namespace Gate

variable {host : Host σ} {operation : Operation} {gate : Gate σ} {call : Call}

/-- Checks are asked in order, as far as it comes. -/
theorem asks_askAll {side : Side} {kind : Kind} {services : Keyed σ}
    {checks : List (GateCheck σ)} :
    (askAll side kind call services checks).Asks
      (· <+: checks.map fun check => check.question kind call services) := by
  induction checks with
  | nil => exact (Run.asks_ofExcept (.ok Verdict.allow)).mono fun _ none => none ▸ List.nil_prefix
  | cons check checks ih =>
    have first : (check.ask side (check.question kind call services)).Asks
        (· = [check.question kind call services]) := Run.asks_consult
    have behind : ∀ verdict : Verdict, Run.Asks
        (· <+: checks.map fun check => check.question kind call services)
        (if verdict.allowed then askAll side kind call services checks else Run.pure verdict) := by
      intro verdict
      split
      · exact ih
      · exact (Run.asks_ofExcept (.ok verdict)).mono fun _ none => none ▸ List.nil_prefix
    refine first.bind behind ?_ ?_
    · rintro _ rfl
      exact List.prefix_append _ _
    · rintro _ late rfl ahead
      exact List.prefix_cons_iff.mpr (.inr ⟨late, rfl, ahead⟩)

/-- A gate asks its checks in order, as far as it comes, with the services it has found. -/
theorem asks_guard : (guard host operation gate call).Asks fun asked => ∃ services,
    asked <+: gate.checks.map fun check => check.question gate.kind call services := by
  have resolves : (host.resolveAll operation.injectedParameters).Asks (· = []) :=
    (Host.begins_resolveAll _ fun _ => rfl).asks
  refine (resolves.mapError Fault.asFailure).quiet_bind (fun services => ?_)
    ⟨.empty, List.nil_prefix⟩
  have evaluates : (gate.evaluate call services).Asks _ := asks_askAll
  exact ((evaluates.mapError Fault.asFailure).bind_quiet fun verdict =>
    Run.asks_ofExcept (.ok (services, verdict))).mono fun _ ahead => ⟨services, ahead⟩

/-- The questions of a gate that is built are asked for the first of its bindings, and carry what
the call gives. -/
theorem asks_bindings {plan : Plan} {bindings : List Binding}
    (built : build host plan.checks operation bindings = .ok gate) :
    (guard host operation gate call).Asks
      (InTurn (fun binding question => question.Carries plan operation binding call) bindings) := by
  refine asks_guard.mono ?_
  rintro asked ⟨services, ahead⟩
  obtain ⟨_, _, pairs⟩ := build_eq_ok built
  have carries : List.Forall₂ (fun binding (question : Question σ) =>
      question.Carries plan operation binding call) bindings
        (gate.checks.map fun check => check.question gate.kind call services) :=
    List.forall₂_map_right_iff.mpr (pairs.imp fun _ _ made =>
      GateCheck.question_carries made gate.kind call services)
  refine ⟨bindings.take asked.length, List.take_prefix _ _, ?_⟩
  have front := List.forall₂_take asked.length carries
  rwa [← List.prefix_iff_eq_take.mp ahead] at front

end Gate

namespace Factory

variable {host : Host σ} {plan : Plan} {method : PlannedMethod} {operation : Operation}
  {call : Call}

/-- A method that runs on the side of a host asks its checks what the call gives. -/
theorem localPath_asks {path : Path σ} (found : localPath host plan method = .ok path)
    (fits : method.Fits) (has : method.operation? = some operation) (call : Call)
    (untargeted : method.role = .probe → call.target = none) :
    (path call).Asks (InTurn (fun binding question => question.Carries plan operation binding call)
      method.bindings) := by
  cases localPath_runsHere found with
  | @run ran bindings handler gate body _ built =>
    obtain rfl : ran = operation := by
      rw [PlannedMethod.operation?, body] at has
      exact Option.some.inj has
    rw [PlannedMethod.bindings, body, Path.execute_eq]
    refine (Gate.asks_bindings built).bind_quiet fun ruled => ?_
    split
    · exact (Path.begins_act (fun _ _ => rfl) (fun _ _ => rfl) (fun _ _ => rfl)).asks
    · exact Run.asks_ofExcept (.ok (Reply.denied ruled.2))
  | @probe wraps asked bindings gate body built =>
    obtain rfl : asked = operation := by
      rw [PlannedMethod.operation?, body] at has
      exact Option.some.inj has
    have same : (⟨none, call.arguments⟩ : Call) = call := by
      rw [← untargeted (fits.probe body)]
    rw [PlannedMethod.bindings, body, Path.probe_eq, same]
    exact (Gate.asks_bindings built).bind_quiet fun ruled =>
      Run.asks_ofExcept (.ok (Reply.probed ruled.2))

/-- A call that is sent to a table asks what the path in the table asks. -/
theorem remote_asks {side : Side} {id : String} {limit : Nat} {table : DispatchTable σ}
    {path : Path σ} {holds : List (Question σ) → Prop} (offered : table.paths.get? id = some path)
    (asks : (path call).Asks holds) (nothing : holds []) :
    (Path.remote side id (.loopback limit table) call).Asks holds := by
  intro deadline world
  obtain ⟨request, rfl, rfl, sent⟩ :=
    Path.remote_apply side id (.loopback limit table) call deadline world
  rw [sent]
  have serves : (table.serve request).Asks holds := by
    unfold DispatchTable.serve
    rw [offered]
    exact asks.bind_quiet fun reply => Run.asks_ofExcept (.ok (Response.mk request.number reply))
  have carries : (Dispatcher.loopback limit table request).Asks holds :=
    (serves.within limit).mapError Fault.carried
  have sends : (Run.enclose side (.dispatch request) (fun _ => true)
      (Dispatcher.loopback limit table request)).Asks holds := carries.enclose rfl nothing
  have returns := (sends.mapError Fault.recovered).bind_quiet fun response =>
    (Run.asks_ofExcept (.ok response.reply) : Run.Asks (· = []) (_ : Run σ Failure Reply))
  exact returns deadline world

/-- Factories that run a method where they are built, or send it to a local factory of the same
plan. -/
inductive Reaches (plan : Plan) (method : PlannedMethod) : Factory σ → Prop where
  /-- A factory with the method on the side of its host. -/
  | here {host : Host σ} {dispatcher : Option (Dispatcher σ)} {factory : Factory σ}
    (built : Built host plan dispatcher factory)
    (stays : dispatcher = none ∨ method.isRemote = false) : Reaches plan method factory
  /-- A remote factory that a local one serves within a time limit. -/
  | apart {near far : Host σ} {limit : Nat} {server client : Factory σ}
    (serves : build far plan = .ok server)
    (sends : buildRemote near plan (some (.loopback limit server.dispatchTable)) = .ok client) :
    Reaches plan method client

/-- A factory that reaches a method of a plan has that plan. -/
theorem Reaches.plan_eq {factory : Factory σ} (reaches : Reaches plan method factory)
    (laidOut : plan.LaidOut) : factory.plan = plan := by
  cases reaches with
  | here built _ => exact built.plan_eq laidOut
  | apart _ sends => exact (Built.remote sends).plan_eq laidOut

/-- A method that is reached asks its checks what the call gives. -/
theorem Reaches.run_asks {factory : Factory σ} (reaches : Reaches plan method factory)
    (laidOut : plan.LaidOut) (member : method ∈ plan.methods)
    (role : method.role ≠ .save) (has : method.operation? = some operation) (call : Call)
    (untargeted : method.role = .probe → call.target = none) :
    (factory.run method call).Asks
      (InTurn (fun binding question => question.Carries plan operation binding call)
        method.bindings) := by
  have fits := laidOut.fits method member
  have here {host : Host σ} {path : Path σ} (found : localPath host plan method = .ok path) :=
    localPath_asks found fits has call untargeted
  cases reaches with
  | here built stays =>
    cases built.placed laidOut member with
    | save saves => exact absurd saves role
    | sent _ carrier carried remote taken =>
      rcases stays with without | near
      · cases without.symm.trans carried
      · cases near.symm.trans remote
    | here _ path _ found taken =>
      rw [built.plan_eq laidOut] at found
      rw [run_eq taken]
      exact here found
  | apart serves sends =>
    cases (Built.remote sends).placed laidOut member with
    | save saves => exact absurd saves role
    | sent _ carrier carried remote taken =>
      cases carried
      rw [run_eq taken, (Built.remote sends).plan_eq laidOut]
      obtain ⟨path, found, _, offered⟩ := (Built.here serves).taken_here laidOut member role
      exact remote_asks (offered remote) (here found) ⟨[], List.nil_prefix, .nil⟩
    | here _ path stays found taken =>
      rw [(Built.remote sends).plan_eq laidOut] at found
      rw [run_eq taken]
      exact here found

end Factory

/-- The value that a check gets from a source in a call. -/
inductive ArgumentSource.Brings (operation : Operation) (ask : Ask) : ArgumentSource → Value → Prop
  /-- The target travels apart. -/
  | target : Brings operation ask .target .null
  /-- What is injected travels with the services. -/
  | injected (position : Nat) (parameter : Parameter)
    (found : operation.parameters[position]? = some parameter)
    (injected : parameter.isInjected = true) : Brings operation ask (.parameter position) .null
  /-- The value of a parameter that callers see is what the caller gives for it. -/
  | given (position index : Nat) (parameter : Parameter) (value : Value)
    (found : operation.parameters[position]? = some parameter)
    (numbered : Slot.callerPosition? operation position = some index)
    (seen : operation.publicParameters[index]? = some parameter)
    (given : ask.arguments[index]? = some value) :
    Brings operation ask (.parameter position) value

/-- What the check of a binding is asked in a call. -/
structure Question.Hears (plan : Plan) (operation : Operation) (ask : Ask) (binding : Binding)
    (question : Question σ) : Prop where
  /-- It is asked under its key, and there is an argument for each of its parameters. -/
  each : ∃ check, plan.checks[binding.check]? = some check ∧ question.key = check.key ∧
    binding.sources.length = check.parameters.length ∧
    question.arguments.length = check.parameters.length
  /-- Each argument is what its source brings. -/
  brought : List.Forall₂ (ArgumentSource.Brings operation ask) binding.sources question.arguments
  /-- A check whose binding contains the target is asked about the target of the caller. -/
  aimed : .target ∈ binding.sources →
    ∃ target, ask.target? = some target ∧ question.target = some target
  /-- Any other check is asked about no target. -/
  untargeted : .target ∉ binding.sources → question.target = none

namespace Generation

variable {config : Config} {catalog : Catalog} {typeName : String} {findings : Findings}

/-- The operation of a method of a plan was found, and the bindings of the method are among those
of the operation. -/
theorem planOf_found {method : PlannedMethod}
    (member : method ∈ (planOf config typeName findings).methods) {operation : Operation}
    (has : method.operation? = some operation) :
    ∃ bound ∈ findings.bound, bound.operation = operation ∧
      ∀ binding ∈ method.bindings, binding ∈ bound.bindings := by
  cases body : method.body with
  | save insert update delete tryName =>
    rw [PlannedMethod.operation?, body] at has
    cases has
  | run ran bindings =>
    rw [PlannedMethod.operation?, body] at has
    cases has
    have bounds : method.bound? = some ⟨operation, bindings⟩ :=
      PlannedMethod.bound_eq_some.mpr body
    obtain ⟨position, found, _⟩ := planOf_position config typeName findings member bounds
    refine ⟨_, List.mem_of_getElem? found, rfl, fun binding present => ?_⟩
    rwa [PlannedMethod.bindings, body] at present
  | probe wraps asked bindings =>
    rw [PlannedMethod.operation?, body] at has
    cases has
    have listed := List.mem_filterMap.mpr ⟨method, member, PlannedMethod.asked_eq_some.mpr body⟩
    obtain ⟨position, bound, found, _, equal⟩ := (planOf_asked config typeName findings).mp listed
    cases equal
    refine ⟨bound, List.mem_of_getElem? found, rfl, fun binding present => ?_⟩
    rw [PlannedMethod.bindings, body] at present
    exact (List.mem_filter.mp present).1

/-- The operation of a method of a generated plan is aimed at its target, and the bindings of the
method line up with it. -/
theorem generate_lined {plan : Plan} (made : generate config catalog typeName = .ready plan)
    {method : PlannedMethod} (member : method ∈ plan.methods) {operation : Operation}
    (has : method.operation? = some operation) :
    operation.Aimed ∧ ∀ binding ∈ method.bindings, ∃ check,
      plan.checks[binding.check]? = some check ∧
        Binding.sources? operation check = some binding.sources := by
  obtain ⟨chain, _, rfl⟩ := of_generate_ready made
  obtain ⟨bound, listed, rfl, bindings⟩ := planOf_found member has
  obtain ⟨operation, extracted, rfl⟩ := List.mem_map.mp listed
  refine ⟨Extraction.operations_aimed extracted, fun binding present => ?_⟩
  obtain ⟨check, _, found, _, lined⟩ := Binding.mem_bindFrom.mp (bindings binding present)
  exact ⟨check, found, lined⟩

end Generation

/-- A source that is no target is a parameter of the operation, and on a write one behind the
target. -/
theorem Binding.of_parameter {operation : Operation} {check : Check} {sources : List ArgumentSource}
    {position : Nat} (lined : sources? operation check = some sources) (aims : operation.Aimed)
    (member : .parameter position ∈ sources) :
    operation.targetCount ≤ position ∧
      ∃ parameter, operation.parameters[position]? = some parameter := by
  obtain ⟨place, pairs, rfl⟩ := sources_paired.mp lined
  obtain ⟨index, source⟩ := List.mem_ofFn.mp member
  unfold taken at source
  split at source
  next => cases source
  next other =>
    cases source
    refine ⟨?_, _, List.getElem?_eq_getElem (place index).isLt⟩
    unfold Operation.targetCount
    split
    next writes =>
      refine Nat.one_le_iff_ne_zero.mpr fun front => other ⟨front, ?_⟩
      obtain ⟨type, rest, parameters⟩ := aims writes
      have first : operation.parameters[(place index).val]? =
          some ⟨"target", type, .selfReference⟩ := by
        rw [front, parameters]
        rfl
      obtain ⟨_, same⟩ := List.getElem?_eq_some_iff.mp first
      exact congrArg Parameter.isSelfReference same
    next => exact Nat.zero_le _

/-- The argument found for a source is what the source brings, when the caller gives an argument for
each parameter that callers see. -/
theorem Slot.argument_brings {operation : Operation} {ask : Ask} {source : ArgumentSource}
    (full : ask.arguments.length = operation.publicParameters.length)
    (known : ∀ position, source = .parameter position → operation.targetCount ≤ position ∧
      ∃ parameter, operation.parameters[position]? = some parameter) :
    source.Brings operation ask ((ofSource operation source).argument ask.arguments) := by
  cases source with
  | target => exact .target
  | parameter position =>
    obtain ⟨behind, parameter, found⟩ := known position rfl
    have numbered := operation.numbered
    cases injected : parameter.isInjected with
    | true =>
      have unnumbered : callerPosition? operation position = none := by
        rw [← Option.not_isSome_iff_eq_none, numbered.given]
        rintro ⟨other, _, there, free⟩
        cases found.symm.trans there
        rw [injected] at free
        cases free
      simp only [ofSource, unnumbered, argument]
      exact .injected position parameter found injected
    | false =>
      obtain ⟨index, number⟩ := Option.isSome_iff_exists.mp
        ((numbered.given position).mpr ⟨parameter, behind, found, injected⟩)
      obtain ⟨bound, seen⟩ := numbered.agrees position index number
      have given := List.getElem?_eq_getElem (bound.trans_eq full.symm)
      simp only [ofSource, number, argument, given]
      exact .given position index parameter _ found number (seen.trans found) given

/-- What a question carries is what its check is to hear, when the binding lines up with an
operation that is aimed at its target, and the caller gives an argument for each parameter that
callers see, and a target where one is needed. -/
theorem Question.Carries.hears {plan : Plan} {operation : Operation} {ask : Ask} {binding : Binding}
    {question : Question σ} {check : Check}
    (carries : question.Carries plan operation binding ⟨ask.target?, ask.arguments⟩)
    (found : plan.checks[binding.check]? = some check)
    (lined : Binding.sources? operation check = some binding.sources) (aims : operation.Aimed)
    (full : ask.arguments.length = operation.publicParameters.length)
    (given : binding.needsTarget = true → ask.target?.isSome = true) :
    question.Hears plan operation ask binding := by
  have length := Binding.sources_length lined
  refine ⟨⟨check, found, carries.key.trans (Plan.checkKey_eq found), length, ?_⟩, ?_, ?_, ?_⟩
  · rw [carries.arguments, List.length_map]
    exact length
  · rw [carries.arguments]
    refine List.forall₂_map_right_iff.mpr (List.forall₂_same.mpr fun source member => ?_)
    refine Slot.argument_brings full fun position equal => ?_
    exact Binding.of_parameter lined aims (equal ▸ member)
  · intro member
    have needs : binding.needsTarget = true := List.contains_iff_mem.mpr member
    obtain ⟨target, some⟩ := Option.isSome_iff_exists.mp (given needs)
    refine ⟨target, some, ?_⟩
    rw [carries.target, if_pos needs]
    exact some
  · intro without
    have free : ¬ binding.needsTarget = true := fun needs =>
      without (List.contains_iff_mem.mp needs)
    rw [carries.target, if_neg free]

namespace Generation

/-- Callers of every operation number their arguments in one way, so that every check of a generated
plan hears what the caller gave: in each call that is routed to a method, checks are asked in the
order of the bindings, and each hears what its sources bring. -/
theorem checks_hear : (∀ operation : Operation, operation.Numbered) ∧
    ∀ {config : Config} {catalog : Catalog} {typeName : String} {plan : Plan},
      generate config catalog typeName = .ready plan →
      ∀ {ask : Ask} {method : PlannedMethod} {call : Call},
        ask.route plan = .ok (some (method, call)) →
        ∃ operation, method.operation? = some operation ∧
          ∀ {factory : Factory σ}, factory.Reaches plan method →
            (factory.answer ask).Asks
              (InTurn (Question.Hears plan operation ask) method.bindings) := by
  refine ⟨Operation.numbered, ?_⟩
  intro config catalog typeName plan made ask method call routed
  have laidOut := generate_laidOut made
  obtain ⟨named, role⟩ := Ask.of_route routed
  have member := (laidOut.method_eq_some.mp named).1
  have unsaved : method.role ≠ .save := role ▸ ask.role_ne_save
  obtain ⟨fits, rfl⟩ := Ask.fitting_of_route routed
  cases has : method.operation? with
  | none => exact absurd ((laidOut.fits method member).save has) unsaved
  | some operation =>
    refine ⟨operation, rfl, fun reaches => ?_⟩
    obtain ⟨aims, lines⟩ := generate_lined made member has
    have full : ask.arguments.length = operation.publicParameters.length := by
      rw [← (Plan.of_fitting fits).2.2, (generate_carries made member).operates operation has]
      rfl
    have untargeted : method.role = .probe → ask.target? = none := by
      intro probes
      rw [← Option.not_isSome_iff_eq_none, ask.target_isSome_iff, ← role, probes]
      exact nofun
    have runs := reaches.run_asks laidOut member unsaved has
      ⟨ask.target?, ask.arguments⟩ untargeted
    rw [Factory.answer_routed (reaches.plan_eq laidOut ▸ routed)]
    refine (runs.bind_quiet fun reply =>
      Run.asks_ofExcept (ask.conclude method.name reply)).mono fun asked carried => ?_
    refine carried.imp fun binding present question carries => ?_
    obtain ⟨check, found, lined⟩ := lines binding present
    refine carries.hears found lined aims full fun needs => ?_
    rw [ask.target_isSome_iff, ← role]
    obtain ⟨chain, _, rfl⟩ := of_generate_ready made
    exact planOf_needsTarget member present needs

/-- A type with a remote write. -/
def sampleAccount : Surface where
  name := "Account"
  policies := ["AccountAuth"]
  factory := true
  methods := ["#[factory(update, remote)] fn transfer(&mut self, token: &CancellationToken, " ++
    "other: &Account, amount: i64)"]

/-- The policy of accounts. -/
def sampleAccountPolicy : Surface where
  name := "AccountAuth"
  methods := ["#[authorize(update)] fn can_transfer(&self, account: &Account, " ++
    "token: &CancellationToken, amount: i64)"]

/-- Accounts and their policy. -/
def sampleAccounts : Catalog := Catalog.empty.insertAll [sampleAccount, sampleAccountPolicy]

/-- The write of accounts, bound to its check. -/
def sampleBoundTransfer : BoundOperation :=
  ⟨Binding.sampleTransfer, [⟨0, [.target, .parameter 1, .parameter 3]⟩]⟩

/-- The plan of accounts. -/
def sampleAccountPlan : Plan where
  typeName := "Account"
  factoryName := "AccountFactory"
  saveState := false
  methods := [
    { name := "transfer", role := .write, paths := ⟨13⟩
      parameters := [⟨"other", "&Account", .selfReference⟩, ⟨"amount", "i64", .business⟩]
      payload := [⟨"target", "Account", .selfReference⟩, ⟨"other", "&Account", .selfReference⟩,
        ⟨"amount", "i64", .business⟩]
      body := .run Binding.sampleTransfer sampleBoundTransfer.bindings },
    { name := "save", role := .save, paths := ⟨15⟩
      parameters := [⟨"other", "&Account", .selfReference⟩, ⟨"amount", "i64", .business⟩]
      payload := [⟨"target", "Account", .selfReference⟩, ⟨"other", "&Account", .selfReference⟩,
        ⟨"amount", "i64", .business⟩]
      body := .save none (some "transfer") none (some "try_save") }]
  checks := [Binding.sampleTransferCheck]
  dispatch := [⟨"Account::transfer", "transfer"⟩]
  constructions := [.here, .remote]
  registrationHook := "register_account_factory"
  diagnostics := [⟨.probeRequiresTarget, "Account", some "transfer",
    "every authorization needs the target instance; no probe is generated"⟩]

/-- The plan of accounts is generated. -/
theorem sampleAccount_generated :
    generate {} sampleAccounts "Account" = .ready sampleAccountPlan := by
  have chained : sampleAccounts.chain "Account" = .ok ⟨[sampleAccount], none⟩ := by decide +kernel
  have found : findings sampleAccounts {} ⟨[sampleAccount], none⟩ =
      ⟨[sampleBoundTransfer], [Binding.sampleTransferCheck], false, []⟩ := by decide +kernel
  have ordered : ((Naming.positioned (Synthesis.synthesize "Account"
      [sampleBoundTransfer]).result).filter (!·.2.isProbe)).Pairwise fun left right =>
        Naming.namedBefore left right = true := by decide +kernel
  have laid : planOf {} "Account" ⟨[sampleBoundTransfer], [Binding.sampleTransferCheck], false,
      []⟩ = sampleAccountPlan := by
    simp only [planOf, Naming.resolve, Naming.namePrimary_ordered {} ordered]
    decide +kernel
  rw [generate, chained, ← laid, ← found]

/-- A transfer to another account. -/
def sampleAsk : Ask := .write "transfer" (.new "Account") [.null, .int 5]

/-- The check of a transfer that is sent to another side hears the amount, the last of the
arguments. -/
theorem transfer_hears : ∃ server client : Factory String,
    Factory.build (sampleHost .server) sampleAccountPlan = .ok server ∧
    Factory.buildRemote (sampleHost .client) sampleAccountPlan
      (some (.loopback 100 server.dispatchTable)) = .ok client ∧
    (questions (client.answer sampleAsk none {}).2.journal).map Question.arguments =
      [[.null, .null, .int 5]] ∧
    ∃ method call operation, sampleAsk.route sampleAccountPlan = .ok (some (method, call)) ∧
      method.operation? = some operation ∧
      (client.answer sampleAsk).Asks
        (InTurn (Question.Hears sampleAccountPlan operation sampleAsk) method.bindings) := by
  obtain ⟨server, client, serves, sends, heard⟩ : ∃ server client : Factory String,
      Factory.build (sampleHost .server) sampleAccountPlan = .ok server ∧
      Factory.buildRemote (sampleHost .client) sampleAccountPlan
        (some (.loopback 100 server.dispatchTable)) = .ok client ∧
      (questions (client.answer sampleAsk none {}).2.journal).map Question.arguments =
        [[.null, .null, .int 5]] := ⟨_, _, rfl, rfl, rfl⟩
  obtain ⟨method, call, routed⟩ : ∃ method call,
      sampleAsk.route sampleAccountPlan = .ok (some (method, call)) := ⟨_, _, rfl⟩
  obtain ⟨operation, has, hears⟩ := checks_hear.2 sampleAccount_generated routed
  exact ⟨server, client, serves, sends, heard, method, call, operation, routed, has,
    hears (.apart serves sends)⟩

end Generation

end DomainFactory
