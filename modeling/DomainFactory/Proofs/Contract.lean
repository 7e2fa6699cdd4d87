import DomainFactory.Proofs.Endings
import DomainFactory.Proofs.Routing

/-!
# The contract of calls

A call breaks the contract of a factory when no method has its name, when the method with that name
has another role, or when it takes another number of arguments. The factory says so before any code
runs, and at no other time: what it calls on the way, and what comes back, keeps to the plan.
-/
namespace DomainFactory

variable {σ : Type}

/-- The role that the method with the name in a call must have. A save is asked for as a save,
whatever write runs for it. -/
def Ask.named : Ask → MethodRole
  | .read .. => .read
  | .write .. => .write
  | .save .. | .trySave .. => .save
  | .can .. => .probe

/-- Whether a failure complains of a call, or of what was made of it on the way. -/
def Failure.complains : Failure → Bool
  | .unknownMethod .. | .wrongKind .. | .arity .. | .unknownOperation .. | .shapeMismatch .. => true
  | .notAuthorized .. | .notImplemented .. | .missingHandler .. | .missingCheck ..
  | .noDispatcher .. | .timeout .. | .raised .. | .wrapped .. => false

/-- In which way a call breaks the contract of a plan. -/
inductive Plan.Refuses (plan : Plan) (ask : Ask) : Failure → Prop
  /-- No method has the name. -/
  | unknown (missing : ∀ method ∈ plan.methods, method.name ≠ ask.name) :
      Refuses plan ask (.unknownMethod plan.typeName ask.name)
  /-- The method with the name has another role. -/
  | misused {method : PlannedMethod} (member : method ∈ plan.methods)
      (named : method.name = ask.name) (other : method.role ≠ ask.named) :
      Refuses plan ask (.wrongKind ask.name (some ask.named) method.role)
  /-- The method with the name takes another number of arguments. -/
  | miscounted {method : PlannedMethod} (member : method ∈ plan.methods)
      (named : method.name = ask.name) (role : method.role = ask.named)
      (count : ask.arguments.length ≠ method.parameters.length) :
      Refuses plan ask (.arity ask.name method.parameters.length ask.arguments.length)

namespace Plan

variable {plan : Plan} {ask : Ask} {failure : Failure}

/-- A call breaks the contract exactly when no method fits its name. -/
theorem LaidOut.fitting_error_iff (laidOut : plan.LaidOut) :
    plan.fitting ask.name ask.named ask.arguments = .error failure ↔ plan.Refuses ask failure := by
  constructor
  · intro unfit
    unfold fitting at unfit
    cases found : plan.method? ask.name with
    | none =>
      rw [found] at unfit
      cases unfit
      refine .unknown fun method member named => ?_
      rw [laidOut.method_eq_some.mpr ⟨member, named⟩] at found
      cases found
    | some method =>
      rw [found] at unfit
      obtain ⟨member, named⟩ := laidOut.method_eq_some.mp found
      by_cases role : method.role = ask.named
      · by_cases count : method.parameters.length = ask.arguments.length
        · simp only [role, count, bne_self_eq_false, Bool.false_eq_true, ↓reduceIte,
            reduceCtorEq] at unfit
        · simp only [role, bne_self_eq_false, Bool.false_eq_true, bne_iff_ne.mpr count, ↓reduceIte,
            Except.error.injEq] at unfit
          exact unfit ▸ .miscounted member named role (Ne.symm count)
      · simp only [bne_iff_ne.mpr role, ↓reduceIte, Except.error.injEq] at unfit
        exact unfit ▸ .misused member named role
  · intro refuses
    cases refuses with
    | unknown missing =>
      have unfound : plan.method? ask.name = none := by
        refine List.find?_eq_none.mpr fun method member same => ?_
        exact missing method member (beq_iff_eq.mp same)
      unfold fitting
      rw [unfound]
    | misused member named other =>
      unfold fitting
      rw [laidOut.method_eq_some.mpr ⟨member, named⟩]
      simp only [bne_iff_ne.mpr other, ↓reduceIte]
    | miscounted member named role count =>
      have unfit := laidOut.fitting_eq member ask.arguments
      rw [if_neg count, named, role] at unfit
      exact unfit

/-- A call that breaks the contract is routed nowhere. -/
theorem LaidOut.route_of_refuses (laidOut : plan.LaidOut) (refuses : plan.Refuses ask failure) :
    ask.route plan = .error failure := by
  have unfit := laidOut.fitting_error_iff.mpr refuses
  cases ask with
  | read name arguments | write name target arguments | can name arguments =>
    dsimp only [Ask.name, Ask.named, Ask.arguments] at unfit
    rw [Ask.route, unfit]
    rfl
  | save name target arguments | trySave name target arguments =>
    dsimp only [Ask.name, Ask.named, Ask.arguments] at unfit
    rw [Ask.route, saving, unfit]
    rfl

end Plan

namespace Generation

variable {config : Config} {catalog : Catalog} {typeName : String} {plan : Plan}

/-- A save of a generated plan that is asked for with fitting arguments calls a write that fits
them, has nothing to do, or lacks the branch. -/
theorem generate_saving_error (made : generate config catalog typeName = .ready plan)
    {name : String} {target : Entity} {arguments : List Value} {failure : Failure}
    {save : PlannedMethod} (fits : plan.fitting name .save arguments = .ok save)
    (failed : plan.saving name target arguments = .error failure) :
    ∃ branch, failure = .notImplemented name branch := by
  have laidOut := generate_laidOut made
  obtain ⟨found, role, length⟩ := Plan.of_fitting fits
  obtain ⟨member, rfl⟩ := laidOut.method_eq_some.mp found
  rw [laidOut.saving_eq member role length.symm,
    MethodBody.writing_eq (laidOut.fits save member) role] at failed
  cases routed : SaveBranch.route? target.state with
  | none =>
    rw [routed] at failed
    cases failed
  | some branch =>
    rw [routed] at failed
    cases declared : save.chosen? branch with
    | none =>
      simp only [declared] at failed
      cases failed
      exact ⟨branch, rfl⟩
    | some chosen =>
      simp only [declared] at failed
      obtain ⟨chain, _, rfl⟩ := of_generate_ready made
      obtain ⟨write, written, rfl, serves⟩ :=
        planOf_save_serves config typeName _ member role declared
      -- The write behind a branch is a write of the plan and takes what the save takes.
      have accepted := laidOut.fitting_eq_ok written (length.symm.trans serves.length.symm)
      rw [serves.role] at accepted
      change (Plan.fitting _ _ _ _ >>= _) = _ at failed
      rw [accepted] at failed
      cases failed

/-- A call that is routed nowhere breaks the contract, or is a save without the branch that its
target asks for. -/
theorem generate_route_error (made : generate config catalog typeName = .ready plan) {ask : Ask}
    {failure : Failure} (failed : ask.route plan = .error failure) :
    plan.Refuses ask failure ∨ ∃ branch, failure = .notImplemented ask.name branch := by
  have laidOut := generate_laidOut made
  cases fits : plan.fitting ask.name ask.named ask.arguments with
  | error unfit =>
    have refuses := laidOut.fitting_error_iff.mp fits
    rw [laidOut.route_of_refuses refuses] at failed
    cases failed
    exact Or.inl refuses
  | ok method =>
    have saves {name : String} {target : Entity} {arguments : List Value}
        (fits : plan.fitting name .save arguments = .ok method)
        (failed : (plan.saving name target arguments >>= fun found =>
          (.ok (found.map fun method => (method, (⟨some target, arguments⟩ : Call))) :
            Except Failure _)) = .error failure) :
        ∃ branch, failure = .notImplemented name branch := by
      cases saving : plan.saving name target arguments with
      | ok found =>
        rw [saving] at failed
        cases failed
      | error other =>
        rw [saving] at failed
        cases failed
        exact generate_saving_error made fits saving
    cases ask with
    | read name arguments | write name target arguments | can name arguments =>
      dsimp only [Ask.name, Ask.named, Ask.arguments] at fits
      rw [Ask.route, fits] at failed
      cases failed
    | save name target arguments | trySave name target arguments =>
      exact Or.inr (saves fits failed)

end Generation

/-- Whether a reply is one to a method of a role. -/
def Reply.Answers (role : MethodRole) : Reply → Prop
  | .completed _ | .denied _ => role ≠ .probe
  | .probed _ => role = .probe

/-- A caller who asked for the role of a reply does not complain of it. -/
theorem Ask.conclude_complains {ask : Ask} {ran : String} {reply : Reply} {failure : Failure}
    (answers : reply.Answers ask.role) (failed : ask.conclude ran reply = .error failure) :
    failure.complains = false := by
  cases ask with
  | read name arguments | trySave name target arguments =>
    cases reply with
    | probed verdict => cases answers
    | completed output | denied verdict => cases failed
  | write name target arguments | save name target arguments =>
    cases reply with
    | probed verdict => cases answers
    | completed output => cases failed
    | denied verdict =>
      cases failed
      rfl
  | can name arguments =>
    cases reply with
    | probed verdict => cases failed
    | completed output | denied verdict => exact absurd rfl answers

/-- A fault of code is never taken for a complaint. -/
theorem Fault.asFailure_complains (fault : Fault) : fault.asFailure.complains = false := by
  cases fault <;> rfl

namespace Ending

variable {host : Host σ} {plan : Plan} {method : PlannedMethod} {limit? deadline : Option Nat}
  {world later : World σ}

/-- No method ends with a complaint. -/
theorem complains {failure : Failure} (ending : Ending host plan method limit? deadline world later
    (.error (.raised failure))) : failure.complains = false := by
  cases ending with
  | timely outcome =>
    cases outcome with
    | raised raised => exact Fault.asFailure_complains _
  | late limited remote elapsed => rfl

/-- A method replies in its role. -/
theorem answers {reply : Reply} (fits : method.Fits)
    (ending : Ending host plan method limit? deadline world later (.ok reply)) :
    reply.Answers method.role := by
  have unprobed {operation : Operation} {bindings : List Binding}
      (body : method.body = .run operation bindings) : method.role ≠ .probe := by
    rw [fits.run body]
    cases operation.isWrite <;> exact nofun
  cases ending with
  | timely outcome =>
    cases outcome with
    | gave replied =>
      cases replied with
      | denied body | completed body => exact unprobed body
      | probed body => exact fits.probe body

end Ending

/-- How a factory keeps to the contract of a plan. -/
structure Factory.KeepsContract (factory : Factory σ) (plan : Plan) : Prop where
  /-- A call that breaks the contract fails for that reason, and nothing runs. -/
  refuses : ∀ {ask : Ask} {failure : Failure}, plan.Refuses ask failure → ∀ deadline world,
    factory.answer ask deadline world = (.error (.raised failure), world)
  /-- A method is unknown exactly when none has the name. -/
  unknown : ∀ (ask : Ask) (deadline : Option Nat) (world : World σ),
    (∃ type name, (factory.answer ask deadline world).1 =
        .error (.raised (.unknownMethod type name))) ↔
      ∀ method ∈ plan.methods, method.name ≠ ask.name
  /-- A method is of the wrong kind exactly when the one with the name has another role. -/
  misused : ∀ (ask : Ask) (deadline : Option Nat) (world : World σ),
    (∃ name expected actual, (factory.answer ask deadline world).1 =
        .error (.raised (.wrongKind name expected actual))) ↔
      ∃ method ∈ plan.methods, method.name = ask.name ∧ method.role ≠ ask.named
  /-- The number of arguments is wrong exactly when the method takes another one. -/
  miscounted : ∀ (ask : Ask) (deadline : Option Nat) (world : World σ),
    (∃ name expected actual, (factory.answer ask deadline world).1 =
        .error (.raised (.arity name expected actual))) ↔
      ∃ method ∈ plan.methods, method.name = ask.name ∧ method.role = ask.named ∧
        ask.arguments.length ≠ method.parameters.length
  /-- Every reply fits its call. -/
  fitting : ∀ (ask : Ask) (deadline : Option Nat) (world : World σ) (name : String),
    (factory.answer ask deadline world).1 ≠ .error (.raised (.shapeMismatch name))
  /-- Every request is known where it is served. -/
  served : ∀ (ask : Ask) (deadline : Option Nat) (world : World σ) (id : String),
    (factory.answer ask deadline world).1 ≠ .error (.raised (.unknownOperation id))

namespace Generation

variable {config : Config} {catalog : Catalog} {typeName : String} {plan : Plan}
  {factory : Factory σ} {hostOf : PlannedMethod → Host σ}

/-- A factory of a generated plan complains of a call only when it breaks the contract. -/
theorem answer_complains (made : generate config catalog typeName = .ready plan)
    (arranged : Factory.Arranged plan hostOf factory) {ask : Ask} {deadline : Option Nat}
    {world : World σ} {failure : Failure} (complains : failure.complains = true)
    (failed : (factory.answer ask deadline world).1 = .error (.raised failure)) :
    plan.Refuses ask failure := by
  have laidOut := generate_laidOut made
  have same := arranged.plan_eq laidOut
  have speaks : failure.complains ≠ false := by
    rw [complains]
    exact Bool.false_ne_true.symm
  cases routed : ask.route plan with
  | error other =>
    rw [Factory.answer_eq_follow, same, routed] at failed
    cases failed
    rcases generate_route_error made routed with refuses | ⟨branch, rfl⟩
    · exact refuses
    · cases complains
  | ok found =>
    cases found with
    | none =>
      rw [Factory.answer_eq_follow, same, routed] at failed
      cases ask with
      | read | write | save | trySave => cases failed
      | can name arguments =>
        obtain ⟨_, _, settled⟩ := Except.bind_eq_ok routed
        cases settled
    | some found =>
      obtain ⟨method, call⟩ := found
      obtain ⟨named, role⟩ := Ask.of_route routed
      have member := (laidOut.method_eq_some.mp named).1
      obtain ⟨_, given⟩ := Ask.input_of_route routed
      obtain ⟨limit?, ends⟩ := arranged.run_ends laidOut member (role ▸ ask.role_ne_save)
        (role ▸ given)
      rw [Factory.answer_routed (same ▸ routed), Run.conclude_result] at failed
      have ending := ends deadline world
      cases result : (factory.run method call deadline world).1 with
      | error stop =>
        rw [result] at failed ending
        cases failed
        exact absurd ending.complains speaks
      | ok reply =>
        rw [result] at failed ending
        have answers := ending.answers (laidOut.fits method member)
        rw [role] at answers
        change (ask.conclude method.name reply).mapError Stop.raised = _ at failed
        cases concluded : ask.conclude method.name reply with
        | ok value =>
          rw [concluded] at failed
          cases failed
        | error other =>
          rw [concluded] at failed
          cases failed
          exact absurd (Ask.conclude_complains answers concluded) speaks

/-- Every factory of a generated plan, local or served by a local one, keeps to the contract of the
plan. -/
theorem generate_keeps_contract (made : generate config catalog typeName = .ready plan)
    (arranged : Factory.Arranged plan hostOf factory) : factory.KeepsContract plan := by
  have laidOut := generate_laidOut made
  have refuses {ask : Ask} {failure : Failure} (refuses : plan.Refuses ask failure)
      (deadline : Option Nat) (world : World σ) :
      factory.answer ask deadline world = (.error (.raised failure), world) := by
    rw [Factory.answer_eq_follow, arranged.plan_eq laidOut, laidOut.route_of_refuses refuses]
    rfl
  have complains {ask : Ask} {deadline : Option Nat} {world : World σ} {failure : Failure} :=
    @answer_complains σ config catalog typeName plan factory hostOf made arranged ask deadline world
      failure
  refine ⟨refuses, ?_, ?_, ?_, ?_, ?_⟩
  · intro ask deadline world
    constructor
    · rintro ⟨type, name, failed⟩
      cases complains rfl failed with
      | unknown missing => exact missing
    · intro missing
      exact ⟨_, _, congrArg Prod.fst (refuses (.unknown missing) deadline world)⟩
  · intro ask deadline world
    constructor
    · rintro ⟨name, expected, actual, failed⟩
      cases complains rfl failed with
      | misused member named other => exact ⟨_, member, named, other⟩
    · rintro ⟨method, member, named, other⟩
      exact ⟨_, _, _, congrArg Prod.fst (refuses (.misused member named other) deadline world)⟩
  · intro ask deadline world
    constructor
    · rintro ⟨name, expected, actual, failed⟩
      cases complains rfl failed with
      | miscounted member named role count => exact ⟨_, member, named, role, count⟩
    · rintro ⟨method, member, named, role, count⟩
      exact ⟨_, _, _,
        congrArg Prod.fst (refuses (.miscounted member named role count) deadline world)⟩
  · intro ask deadline world name failed
    cases complains rfl failed
  · intro ask deadline world id failed
    cases complains rfl failed

/-- Both kinds of factories of the sample plan keep to its contract: a read without its argument is
refused by the side that sends it, and nothing runs. -/
theorem sample_keeps_contract : ∃ server client : Factory String,
    Factory.build (sampleHost .server) samplePlan = .ok server ∧
    Factory.buildRemote (sampleHost .client) samplePlan
      (some (.loopback 100 server.dispatchTable)) = .ok client ∧
    server.KeepsContract samplePlan ∧ client.KeepsContract samplePlan ∧
    client.read "fetch" [] none {} = (.error (.raised (.arity "fetch" 1 0)), {}) := by
  obtain ⟨server, serves⟩ := sample_built.1
  obtain ⟨client, sends⟩ := sample_built.2 (.loopback 100 server.dispatchTable)
  have keeps := generate_keeps_contract sample_generated (.apart serves sends)
  have member := List.getElem_mem (l := samplePlan.methods) (n := 0) (by decide)
  have refused : samplePlan.Refuses (.read "fetch" []) (.arity "fetch" 1 0) :=
    .miscounted member rfl rfl (by decide)
  exact ⟨server, client, serves, sends, generate_keeps_contract sample_generated (.here serves),
    keeps, keeps.refuses refused none {}⟩

end Generation

end DomainFactory
