import DomainFactory.Factory
import DomainFactory.Proofs.Layout
import DomainFactory.Proofs.Running

/-!
# Calls of factories

Five ways lead into a factory. Each of them settles by the plan alone which method it runs and with
what input, runs it once, and reads the reply; a save may have nothing to do.
-/
namespace DomainFactory

variable {σ : Type}

/-- What a caller asks of a factory. -/
inductive Ask where
  /-- Calls a read. -/
  | read (name : String) (arguments : List Value)
  /-- Calls a write on a target. -/
  | write (name : String) (target : Entity) (arguments : List Value)
  /-- Calls the write that the state of the target asks for. -/
  | save (name : String) (target : Entity) (arguments : List Value)
  /-- Calls the write that the state of the target asks for, and reports denial. -/
  | trySave (name : String) (target : Entity) (arguments : List Value)
  /-- Asks a probe. -/
  | can (name : String) (arguments : List Value)

/-- The method of a plan with a name, when its role and its number of parameters fit a call. -/
def Plan.fitting (plan : Plan) (name : String) (role : MethodRole) (arguments : List Value) :
    Except Failure PlannedMethod :=
  match plan.method? name with
  | none => .error (.unknownMethod plan.typeName name)
  | some method =>
    if method.role != role then .error (.wrongKind name (some role) method.role)
    else if method.parameters.length != arguments.length then
      .error (.arity name method.parameters.length arguments.length)
    else .ok method

/-- The name of the write that a save calls for a target; none when there is nothing to do. -/
def MethodBody.writing (name : String) (target : Entity) :
    MethodBody → Except Failure (Option String)
  | .run .. | .probe .. => .error (.shapeMismatch name)
  | .save insert update delete _ =>
    match SaveBranch.route? target.state with
    | none => .ok none
    | some branch =>
      match branch.choose insert update delete with
      | none => .error (.notImplemented name branch)
      | some chosen => .ok (some chosen)

/-- The write that a save calls for a target; none when there is nothing to do. -/
def Plan.saving (plan : Plan) (name : String) (target : Entity) (arguments : List Value) :
    Except Failure (Option PlannedMethod) := do
  let method ← plan.fitting name .save arguments
  match ← method.body.writing name target with
  | none => return none
  | some chosen => return some (← plan.fitting chosen .write arguments)

namespace Ask

/-- What a caller gets. -/
abbrev Result : Ask → Type
  | .read .. | .write .. | .save .. => Option Output
  | .trySave .. => SaveAttempt
  | .can .. => Verdict

/-- The name of the method that is asked for. -/
def name : Ask → String
  | .read name _ | .write name _ _ | .save name _ _ | .trySave name _ _ | .can name _ => name

/-- The arguments that the caller gives. -/
def arguments : Ask → List Value
  | .read _ arguments | .write _ _ arguments | .save _ _ arguments | .trySave _ _ arguments
  | .can _ arguments => arguments

/-- The target that the caller gives. -/
def target? : Ask → Option Entity
  | .read .. | .can .. => none
  | .write _ target _ | .save _ target _ | .trySave _ target _ => some target

/-- The role of the method that runs: a save runs a write. -/
def role : Ask → MethodRole
  | .read .. => .read
  | .write .. | .save .. | .trySave .. => .write
  | .can .. => .probe

/-- The method that runs, with its input; none for a save that has nothing to do. -/
def route (plan : Plan) : Ask → Except Failure (Option (PlannedMethod × Call))
  | .read name arguments => do
    return some (← plan.fitting name .read arguments, ⟨none, arguments⟩)
  | .write name target arguments => do
    return some (← plan.fitting name .write arguments, ⟨some target, arguments⟩)
  | .save name target arguments | .trySave name target arguments => do
    return (← plan.saving name target arguments).map fun method =>
      (method, ⟨some target, arguments⟩)
  | .can name arguments => do
    return some (← plan.fitting name .probe arguments, ⟨none, arguments⟩)

/-- What a caller makes of the reply of a method with a name. -/
def conclude (ran : String) (reply : Reply) : (ask : Ask) → Except Failure ask.Result
  | .read .. =>
    match reply with
    | .completed output => .ok output
    | .denied _ => .ok none
    | .probed _ => .error (.shapeMismatch ran)
  | .write name .. | .save name .. =>
    match reply with
    | .completed output => .ok output
    | .denied verdict => .error (.notAuthorized name verdict.message)
    | .probed _ => .error (.shapeMismatch ran)
  | .trySave .. =>
    match reply with
    | .completed output => .ok (.completed output)
    | .denied verdict => .ok (.denied verdict)
    | .probed _ => .error (.shapeMismatch ran)
  | .can .. =>
    match reply with
    | .probed verdict => .ok verdict
    | .completed _ | .denied _ => .error (.shapeMismatch ran)

end Ask

namespace Factory

/-- The answer of a factory. -/
def answer (factory : Factory σ) : (ask : Ask) → Run σ Failure ask.Result
  | .read name arguments => factory.read name arguments
  | .write name target arguments => factory.write name target arguments
  | .save name target arguments => factory.save name target arguments
  | .trySave name target arguments => factory.trySave name target arguments
  | .can name arguments => factory.can name arguments

/-- What a factory does once it is settled which method runs: it runs the method and concludes. -/
def follow (factory : Factory σ) (ask : Ask) :
    Option (PlannedMethod × Call) → Run σ Failure ask.Result
  | none => .ofExcept (ask.conclude ask.name (.completed none))
  | some (method, call) =>
    factory.run method call >>= fun reply => .ofExcept (ask.conclude method.name reply)

end Factory

/-- A fitting method has the name and the role that were asked for, and is one of the plan. -/
theorem Plan.of_fitting {plan : Plan} {name : String} {role : MethodRole} {arguments : List Value}
    {method : PlannedMethod} (fits : plan.fitting name role arguments = .ok method) :
    plan.method? name = some method ∧ method.role = role ∧
      method.parameters.length = arguments.length := by
  unfold fitting at fits
  cases found : plan.method? name with
  | none =>
    rw [found] at fits
    cases fits
  | some other =>
    rw [found] at fits
    simp only [bne_iff_ne, ne_eq, ite_not] at fits
    split at fits
    · split at fits
      · cases fits
        exact ⟨rfl, ‹_›, ‹_›⟩
      · cases fits
    · cases fits

/-- The name by which a method was found is its own. -/
theorem Plan.name_of_fitting {plan : Plan} {name : String} {role : MethodRole}
    {arguments : List Value} {method : PlannedMethod}
    (fits : plan.fitting name role arguments = .ok method) : method.name = name :=
  (find_keyed (of_fitting fits).1).2

/-- A method of a plan fits calls under its name and in its role that have as many arguments as it
has parameters; with another number of arguments they fail. -/
theorem Plan.LaidOut.fitting_eq {plan : Plan} (laidOut : plan.LaidOut) {method : PlannedMethod}
    (member : method ∈ plan.methods) (arguments : List Value) :
    plan.fitting method.name method.role arguments =
      if arguments.length = method.parameters.length then .ok method
      else .error (.arity method.name method.parameters.length arguments.length) := by
  unfold fitting
  rw [laidOut.method_eq_some.mpr ⟨member, rfl⟩]
  by_cases length : arguments.length = method.parameters.length
  · simp only [bne_self_eq_false, Bool.false_eq_true, length, ↓reduceIte]
  · have other : method.parameters.length ≠ arguments.length := fun same => length same.symm
    simp only [bne_self_eq_false, Bool.false_eq_true, bne_iff_ne.mpr other, length, ↓reduceIte]

/-- A method of a plan fits calls under its name and in its role that have as many arguments as it
has parameters. -/
theorem Plan.LaidOut.fitting_eq_ok {plan : Plan} (laidOut : plan.LaidOut) {method : PlannedMethod}
    (member : method ∈ plan.methods) {arguments : List Value}
    (length : arguments.length = method.parameters.length) :
    plan.fitting method.name method.role arguments = .ok method := by
  rw [laidOut.fitting_eq member, if_pos length]

/-- No call runs a save itself. -/
theorem Ask.role_ne_save (ask : Ask) : ask.role ≠ .save := by
  cases ask <;> exact nofun

/-- A save, whether it reports denial or not, is routed to the write that the plan finds for it. -/
theorem Ask.saving_of_route {plan : Plan} {name : String} {target : Entity}
    {arguments : List Value} {method : PlannedMethod} {call : Call}
    (routed : (Ask.save name target arguments).route plan = .ok (some (method, call))) :
    plan.saving name target arguments = .ok (some method) ∧ call = ⟨some target, arguments⟩ := by
  obtain ⟨found, saving, routed⟩ := Except.bind_eq_ok routed
  cases found with
  | none => cases routed
  | some found =>
    cases routed
    exact ⟨saving, rfl⟩

/-- The method to which a call is routed fits it in the role that the call asks for, and its input
is what the caller gives. -/
theorem Ask.fitting_of_route {plan : Plan} {ask : Ask} {method : PlannedMethod} {call : Call}
    (routed : ask.route plan = .ok (some (method, call))) :
    plan.fitting method.name ask.role ask.arguments = .ok method ∧
      call = ⟨ask.target?, ask.arguments⟩ := by
  have named {name : String} {role : MethodRole} {arguments : List Value} {found : PlannedMethod}
      (fits : plan.fitting name role arguments = .ok found) :
      plan.fitting found.name role arguments = .ok found := by
    rw [Plan.name_of_fitting fits]
    exact fits
  have saves {name : String} {target : Entity} {arguments : List Value} {found : PlannedMethod}
      (saving : plan.saving name target arguments = .ok (some found)) :
      plan.fitting found.name .write arguments = .ok found := by
    unfold Plan.saving at saving
    obtain ⟨save, _, saving⟩ := Except.bind_eq_ok saving
    obtain ⟨written, _, saving⟩ := Except.bind_eq_ok saving
    cases written with
    | none => cases saving
    | some chosen =>
      obtain ⟨write, fits, saving⟩ := Except.bind_eq_ok saving
      cases saving
      exact named fits
  cases ask with
  | read name arguments | can name arguments | write name target arguments =>
    obtain ⟨found, fits, routed⟩ := Except.bind_eq_ok routed
    cases routed
    exact ⟨named fits, rfl⟩
  | save name target arguments | trySave name target arguments =>
    obtain ⟨saving, input⟩ := saving_of_route routed
    exact ⟨saves saving, input⟩

/-- The method to which a call is routed is one of the plan and has the role that the call asks
for. -/
theorem Ask.of_route {plan : Plan} {ask : Ask} {method : PlannedMethod} {call : Call}
    (routed : ask.route plan = .ok (some (method, call))) :
    plan.method? method.name = some method ∧ method.role = ask.role := by
  obtain ⟨found, role, _⟩ := Plan.of_fitting (fitting_of_route routed).1
  exact ⟨found, role⟩

/-- A caller gives a target to writes, and only to them. -/
theorem Ask.target_isSome_iff (ask : Ask) : ask.target?.isSome = true ↔ ask.role = .write := by
  cases ask <;> simp [target?, role]

/-- The method to which a call is routed gets as many arguments as it has parameters, and a target
when the call asks for a write. -/
theorem Ask.input_of_route {plan : Plan} {ask : Ask} {method : PlannedMethod} {call : Call}
    (routed : ask.route plan = .ok (some (method, call))) :
    call.arguments.length = method.parameters.length ∧
      (ask.role = .write → call.target.isSome = true) := by
  obtain ⟨fits, rfl⟩ := fitting_of_route routed
  exact ⟨(Plan.of_fitting fits).2.2.symm, ask.target_isSome_iff.mpr⟩

namespace Factory

variable (factory : Factory σ)

/-- A call that runs the method with the name that is asked for follows its route. -/
theorem routed_eq_follow {ask : Ask} {name : String} {role : MethodRole} {arguments : List Value}
    {call : Call} {conclude : Reply → Run σ Failure ask.Result}
    (routed : ask.route factory.plan =
      (factory.plan.fitting name role arguments >>= fun method => .ok (some (method, call))))
    (concluded : ∀ reply, conclude reply = Run.ofExcept (ask.conclude name reply)) :
    (Run.ofExcept (factory.plan.fitting name role arguments) >>= fun method =>
      factory.run method call >>= conclude) =
        Run.ofExcept (ask.route factory.plan) >>= factory.follow ask := by
  rw [routed]
  cases found : factory.plan.fitting name role arguments with
  | error failure => rfl
  | ok method =>
    change (factory.run method call >>= _) = (factory.run method call >>= _)
    congr 1
    funext reply
    rw [concluded, Plan.name_of_fitting found]

/-- A read runs the method that it is routed to. -/
theorem read_eq_follow (name : String) (arguments : List Value) :
    factory.read name arguments =
      Run.ofExcept ((Ask.read name arguments).route factory.plan) >>=
        factory.follow (.read name arguments) := by
  refine @routed_eq_follow _ factory (.read name arguments) name .read arguments
    ⟨none, arguments⟩ _ rfl fun reply => ?_
  cases reply <;> rfl

/-- A write runs the method that it is routed to. -/
theorem write_eq_follow (name : String) (target : Entity) (arguments : List Value) :
    factory.write name target arguments =
      Run.ofExcept ((Ask.write name target arguments).route factory.plan) >>=
        factory.follow (.write name target arguments) := by
  refine @routed_eq_follow _ factory (.write name target arguments) name .write arguments
    ⟨some target, arguments⟩ _ rfl fun reply => ?_
  cases reply <;> rfl

/-- A probe is asked by the method that it is routed to. -/
theorem can_eq_follow (name : String) (arguments : List Value) :
    factory.can name arguments =
      Run.ofExcept ((Ask.can name arguments).route factory.plan) >>=
        factory.follow (.can name arguments) := by
  refine @routed_eq_follow _ factory (.can name arguments) name .probe arguments
    ⟨none, arguments⟩ _ rfl fun reply => ?_
  cases reply <;> rfl

/-- A save that reports denial finds the name of its write before it runs the write. -/
theorem trySave_eq_writing (name : String) (target : Entity) (arguments : List Value) :
    factory.trySave name target arguments =
      Run.ofExcept (factory.plan.fitting name .save arguments) >>= fun method =>
        Run.ofExcept (method.body.writing name target) >>= fun
          | none => return .completed none
          | some chosen => Run.ofExcept (factory.plan.fitting chosen .write arguments) >>=
            fun method => factory.run method ⟨some target, arguments⟩ >>= fun
              | .completed output => return .completed output
              | .denied verdict => return .denied verdict
              | .probed _ => Run.raise (.shapeMismatch chosen) := by
  unfold trySave
  change Run.ofExcept (factory.plan.fitting name .save arguments) >>= _ = _
  congr 1
  funext method
  cases method.body with
  | run operation bindings => rfl
  | probe wraps operation bindings => rfl
  | save insert update delete tryName =>
    unfold MethodBody.writing
    cases SaveBranch.route? target.state with
    | none => rfl
    | some branch =>
      dsimp only
      cases branch.choose insert update delete <;> rfl

/-- A save that reports denial runs the write that it is routed to. -/
theorem trySave_eq_follow (name : String) (target : Entity) (arguments : List Value) :
    factory.trySave name target arguments =
      Run.ofExcept ((Ask.trySave name target arguments).route factory.plan) >>=
        factory.follow (.trySave name target arguments) := by
  rw [trySave_eq_writing, Ask.route, Plan.saving]
  cases factory.plan.fitting name .save arguments with
  | error failure => rfl
  | ok method =>
    change (Run.ofExcept (method.body.writing name target) >>= _ : Run σ Failure SaveAttempt) =
      Run.ofExcept ((method.body.writing name target >>= _) >>= _) >>= _
    cases method.body.writing name target with
    | error failure => rfl
    | ok write =>
      cases write with
      | none => rfl
      | some chosen =>
        change (Run.ofExcept (factory.plan.fitting chosen .write arguments) >>= _ :
          Run σ Failure SaveAttempt) =
            Run.ofExcept ((factory.plan.fitting chosen .write arguments >>= _) >>= _) >>= _
        cases found : factory.plan.fitting chosen .write arguments with
        | error failure => rfl
        | ok method =>
          change (factory.run method ⟨some target, arguments⟩ >>= _) =
            (factory.run method ⟨some target, arguments⟩ >>= _)
          congr 1
          funext reply
          rw [Plan.name_of_fitting found]
          cases reply <;> rfl

/-- A save runs the write that it is routed to. -/
theorem save_eq_follow (name : String) (target : Entity) (arguments : List Value) :
    factory.save name target arguments =
      Run.ofExcept ((Ask.save name target arguments).route factory.plan) >>=
        factory.follow (.save name target arguments) := by
  unfold save
  rw [trySave_eq_follow, Run.bind_assoc]
  change Run.ofExcept ((Ask.save name target arguments).route factory.plan) >>= _ = _
  congr 1
  funext routed
  cases routed with
  | none => rfl
  | some routed =>
    unfold follow
    rw [Run.bind_assoc]
    congr 1
    funext reply
    cases reply <;> rfl

/-- Every answer of a factory is that of the method to which it is routed. -/
theorem answer_eq_follow (ask : Ask) :
    factory.answer ask = Run.ofExcept (ask.route factory.plan) >>= factory.follow ask := by
  cases ask with
  | read name arguments => exact factory.read_eq_follow name arguments
  | write name target arguments => exact factory.write_eq_follow name target arguments
  | save name target arguments => exact factory.save_eq_follow name target arguments
  | trySave name target arguments => exact factory.trySave_eq_follow name target arguments
  | can name arguments => exact factory.can_eq_follow name arguments

variable {factory}

/-- The answer to a call that is routed to a method is what is concluded from its reply. -/
theorem answer_routed {ask : Ask} {method : PlannedMethod} {call : Call}
    (routed : ask.route factory.plan = .ok (some (method, call))) :
    factory.answer ask = factory.run method call >>= fun reply =>
      Run.ofExcept (ask.conclude method.name reply) := by
  rw [answer_eq_follow, routed]
  rfl

/-- Behind an answer stands the reply of the method that the call was routed to, unless there was
nothing to do. -/
theorem answer_ok {ask : Ask} {deadline : Option Nat} {world later : World σ} {result : ask.Result}
    (given : factory.answer ask deadline world = (.ok result, later)) :
    ask.conclude ask.name (.completed none) = .ok result ∨
      ∃ method call reply, ask.route factory.plan = .ok (some (method, call)) ∧
        factory.run method call deadline world = (.ok reply, later) ∧
        ask.conclude method.name reply = .ok result := by
  rw [answer_eq_follow] at given
  obtain ⟨routed, middle, found, given⟩ := Run.bind_eq_ok given
  obtain ⟨route, same⟩ := Run.ofExcept_eq_ok found
  rw [same] at given
  cases routed with
  | none => exact Or.inl (Run.ofExcept_eq_ok given).1
  | some routed =>
    obtain ⟨method, call⟩ := routed
    obtain ⟨reply, last, ran, given⟩ := Run.bind_eq_ok given
    obtain ⟨concluded, left⟩ := Run.ofExcept_eq_ok given
    exact Or.inr ⟨method, call, reply, route, left ▸ ran, concluded⟩

end Factory

end DomainFactory
