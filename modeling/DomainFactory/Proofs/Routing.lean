import DomainFactory.Proofs.Aggregation
import DomainFactory.Proofs.GateOrder

/-!
# Saves are routed writes

A save finds its write by the state of the target and by name. In a generated plan the name stands
for a write of the kind that the state asks for, with parameters of the same types, so that a save
does what the write does; only denial is told in its own way.
-/
namespace DomainFactory

variable {σ : Type}

/-- Which branch of a save the state of a target asks for. -/
def SaveState.Asks (state : SaveState) : SaveBranch → Prop
  | .insert => state.isNew = true ∧ state.isDeleted = false
  | .update => state.isNew = false ∧ state.isDeleted = false
  | .delete => state.isNew = false ∧ state.isDeleted = true

namespace SaveBranch

/-- A save takes the branch that the state of its target asks for. -/
theorem route_eq_some {state : SaveState} {branch : SaveBranch} :
    route? state = some branch ↔ state.Asks branch := by
  obtain ⟨isNew, isDeleted⟩ := state
  cases isNew <;> cases isDeleted <;> cases branch <;> simp [route?, SaveState.Asks]

/-- A save takes no branch for a target that is new and marked for deletion. -/
theorem route_eq_none {state : SaveState} :
    route? state = none ↔ state.isNew = true ∧ state.isDeleted = true := by
  obtain ⟨isNew, isDeleted⟩ := state
  cases isNew <;> cases isDeleted <;> simp [route?]

end SaveBranch

namespace PlannedMethod

/-- The name of the write behind a branch of a save, when the branch is declared. -/
def chosen? (method : PlannedMethod) (branch : SaveBranch) : Option String :=
  match method.body with
  | .save insert update delete _ => branch.choose insert update delete
  | .run .. | .probe .. => none

/-- Whether a method is a write of the kind of a branch that takes the arguments of a save. -/
structure Serves (write : PlannedMethod) (branch : SaveBranch) (save : PlannedMethod) : Prop where
  role : write.role = .write
  kind : ∃ operation bindings, write.body = .run operation bindings ∧ operation.kind = branch.kind
  types : write.parameters.map Parameter.type = save.parameters.map Parameter.type

/-- A write takes as many arguments as the save that it serves. -/
theorem Serves.length {write save : PlannedMethod} {branch : SaveBranch}
    (serves : write.Serves branch save) : write.parameters.length = save.parameters.length := by
  simpa only [List.length_map] using congrArg List.length serves.types

end PlannedMethod

/-- What a save does instead of a write when its branch is settled. -/
theorem MethodBody.writing_eq {save : PlannedMethod} (fits : save.Fits) (role : save.role = .save)
    (target : Entity) : save.body.writing save.name target =
      match SaveBranch.route? target.state with
      | none => .ok none
      | some branch =>
        match save.chosen? branch with
        | none => .error (.notImplemented save.name branch)
        | some chosen => .ok (some chosen) := by
  unfold PlannedMethod.Fits at fits
  unfold PlannedMethod.chosen?
  cases body : save.body with
  | save insert update delete tryName => rfl
  | run operation bindings =>
    rw [body, role] at fits
    cases writes : operation.isWrite <;> simp [writes] at fits
  | probe wraps operation bindings =>
    rw [body, role] at fits
    cases fits

namespace Plan

variable {plan : Plan} {save : PlannedMethod} {arguments : List Value}

/-- A save of a plan calls what its body says. -/
theorem LaidOut.saving_eq (laidOut : plan.LaidOut) (member : save ∈ plan.methods)
    (role : save.role = .save) (length : arguments.length = save.parameters.length)
    (target : Entity) : plan.saving save.name target arguments =
      save.body.writing save.name target >>= fun
        | none => .ok none
        | some chosen =>
          plan.fitting chosen .write arguments >>= fun write => .ok (some write) := by
  have fits := laidOut.fitting_eq_ok member length
  rw [role] at fits
  unfold saving
  rw [fits]
  rfl

end Plan

namespace Generation

variable (config : Config) (typeName : String) (findings : Findings)

/-- A save of a plan stands for a synthesized one, and the writes behind the branches of that one
are writes of the plan under the names that the save calls. -/
theorem planOf_save {save : PlannedMethod}
    (member : save ∈ (planOf config typeName findings).methods) (role : save.role = .save) :
    ∃ spec : SaveSpec,
      .save spec ∈ (Synthesis.synthesize typeName findings.bound).result ∧
      save.parameters = spec.parameters ∧
      save.payload = ⟨"target", typeName, .selfReference⟩ :: spec.parameters ∧
      (∀ branch chosen, save.chosen? branch = some chosen →
        ∃ position, spec.branch branch = some position) ∧
      ∀ branch position name bound, spec.branch branch = some position →
        (Synthesis.synthesize typeName findings.bound).result[position]? =
            some (.write name bound) →
        ∃ write ∈ (planOf config typeName findings).methods,
          save.chosen? branch = some write.name ∧ write.role = .write ∧
            write.body = .run bound.operation bound.bindings ∧
            write.parameters = bound.operation.publicParameters := by
  rw [planOf_methods] at member ⊢
  obtain ⟨spec, present, rfl⟩ := List.mem_map.mp member
  cases spec with
  | read name bound => cases role
  | write name bound => cases role
  | probe probe => cases role
  | save save =>
    obtain ⟨place, found⟩ := List.mem_iff_getElem?.mp present
    have same := resolved_unnamed_at config typeName findings place
    rw [found, Option.map_some] at same
    obtain ⟨plain, there, equal⟩ := Option.map_eq_some_iff.mp same.symm
    -- Naming left the branches and the parameters of the save as they were synthesized.
    obtain ⟨first, rfl, branches, parameters⟩ : ∃ first : SaveSpec, plain = .save first ∧
        first.branch = save.branch ∧ first.parameters = save.parameters := by
      cases plain with
      | save first =>
        simp only [MethodSpec.unnamed, MethodSpec.save.injEq, SaveSpec.mk.injEq] at equal
        refine ⟨first, rfl, ?_, equal.2.2.2.2.2.1⟩
        unfold SaveSpec.branch
        rw [equal.2.2.1, equal.2.2.2.1, equal.2.2.2.2.1]
      | read name bound => cases equal
      | write name bound => cases equal
      | probe probe => cases equal
    have chosen (branch : SaveBranch) : (Plan.methodOf typeName (resolved config typeName findings)
        (.save save)).chosen? branch =
          Plan.nameAt (resolved config typeName findings) (first.branch branch) := by
      rw [branches]
      cases branch <;> rfl
    refine ⟨first, List.mem_of_getElem? there, parameters.symm, ?_, ?_, ?_⟩
    · rw [parameters]
      rfl
    · intro branch name named
      rw [chosen branch] at named
      obtain ⟨position, branched, _⟩ := Option.map_eq_some_iff.mp named
      exact ⟨position, branched⟩
    · intro branch position name bound branched placed
      have written := resolved_unnamed_at config typeName findings position
      rw [placed, Option.map_some] at written
      obtain ⟨spec, here, equal⟩ := Option.map_eq_some_iff.mp written
      cases spec with
      | write title bound =>
        cases equal
        refine ⟨_, List.mem_map.mpr ⟨_, List.mem_of_getElem? here, rfl⟩, ?_, rfl, rfl, rfl⟩
        rw [chosen branch, branched, Plan.nameAt, Option.map_some, here]
        rfl
      | read title bound => cases equal
      | save save => cases equal
      | probe probe => cases equal

/-- Each declared branch of a save of a plan names a write of the plan that serves it. -/
theorem planOf_save_serves {save : PlannedMethod}
    (member : save ∈ (planOf config typeName findings).methods) (role : save.role = .save)
    {branch : SaveBranch} {chosen : String} (declared : save.chosen? branch = some chosen) :
    ∃ write ∈ (planOf config typeName findings).methods, write.name = chosen ∧
      write.Serves branch save := by
  obtain ⟨spec, listed, parameters, _, branched, writes⟩ :=
    planOf_save config typeName findings member role
  obtain ⟨position, there⟩ := branched branch chosen declared
  obtain ⟨name, bound, placed, kind, types⟩ :=
    (Synthesis.synthesize_saves listed).2.1 branch position there
  obtain ⟨write, present, called, plain, body, given⟩ :=
    writes branch position name bound there placed
  rw [declared] at called
  refine ⟨write, present, (Option.some.inj called).symm, plain, ⟨_, _, body, kind⟩, ?_⟩
  rw [given, parameters]
  exact types

/-- A save of a plan takes the parameters of one of its writes. -/
theorem planOf_save_takes {save : PlannedMethod}
    (member : save ∈ (planOf config typeName findings).methods) (role : save.role = .save) :
    ∃ branch, ∃ write ∈ (planOf config typeName findings).methods,
      save.chosen? branch = some write.name ∧ write.Serves branch save ∧
        write.parameters = save.parameters := by
  obtain ⟨spec, listed, parameters, _, _, writes⟩ :=
    planOf_save config typeName findings member role
  obtain ⟨branch, position, name, bound, there, placed, same⟩ :=
    (Synthesis.synthesize_saves listed).2.2
  obtain ⟨write, present, called, _, _, given⟩ :=
    writes branch position name bound there placed
  obtain ⟨served, among, named, serves⟩ :=
    planOf_save_serves config typeName findings member role called
  have equal : served = write := List.inj_on_of_nodup_map
    (planOf_names_nodup config typeName findings) among present named
  subst equal
  exact ⟨branch, served, present, called, serves, by rw [given, parameters, same]⟩

end Generation

/-- How a write, a save that calls it, and a save that calls it and reports denial end alike, from
the reply of the method that runs for each of them. -/
inductive EndsAlike (save write : String) : Except (Stop Failure) Reply →
    Except (Stop Failure) (Option Output) → Except (Stop Failure) (Option Output) →
    Except (Stop Failure) SaveAttempt → Prop
  /-- The write ran to its end. -/
  | completed (output : Option Output) :
      EndsAlike save write (.ok (.completed output)) (.ok output) (.ok output)
        (.ok (.completed output))
  /-- A check denied the write: each fails under its own name, or reports the verdict. -/
  | denied (verdict : Verdict) :
      EndsAlike save write (.ok (.denied verdict))
        (.error (.raised (.notAuthorized write verdict.message)))
        (.error (.raised (.notAuthorized save verdict.message))) (.ok (.denied verdict))
  /-- Another side answered as if it were a probe. -/
  | probed (verdict : Verdict) :
      EndsAlike save write (.ok (.probed verdict)) (.error (.raised (.shapeMismatch write)))
        (.error (.raised (.shapeMismatch write))) (.error (.raised (.shapeMismatch write)))
  /-- The write failed. -/
  | failed (stop : Stop Failure) :
      EndsAlike save write (.error stop) (.error stop) (.error stop) (.error stop)

/-- What saving means for a save of a factory, for targets and arguments that fit it. -/
structure Factory.SavesByWriting (factory : Factory σ) (save : PlannedMethod) : Prop where
  /-- A target that is new and marked for deletion needs nothing. -/
  idle : ∀ (target : Entity) (arguments : List Value),
    arguments.length = save.parameters.length →
    target.state.isNew = true → target.state.isDeleted = true → ∀ deadline world,
      factory.save save.name target arguments deadline world = (.ok none, world) ∧
      factory.trySave save.name target arguments deadline world = (.ok (.completed none), world)
  /-- When the branch that the target asks for is not declared, nothing runs. -/
  missing : ∀ (target : Entity) (arguments : List Value) (branch : SaveBranch),
    arguments.length = save.parameters.length →
    target.state.Asks branch → save.chosen? branch = none → ∀ deadline world,
      factory.save save.name target arguments deadline world =
        (.error (.raised (.notImplemented save.name branch)), world) ∧
      factory.trySave save.name target arguments deadline world =
        (.error (.raised (.notImplemented save.name branch)), world)
  /-- When it is declared, its name stands for a write that serves it, and the save does what the
  write does. -/
  routed : ∀ (target : Entity) (arguments : List Value) (branch : SaveBranch) (chosen : String),
    arguments.length = save.parameters.length →
    target.state.Asks branch → save.chosen? branch = some chosen →
      ∃ write, factory.plan.method? chosen = some write ∧ write.Serves branch save ∧
        ∀ deadline world,
          let ran := factory.run write ⟨some target, arguments⟩ deadline world
          let written := factory.write chosen target arguments deadline world
          let saved := factory.save save.name target arguments deadline world
          let tried := factory.trySave save.name target arguments deadline world
          EndsAlike save.name chosen ran.1 written.1 saved.1 tried.1 ∧
            written.2 = ran.2 ∧ saved.2 = ran.2 ∧ tried.2 = ran.2

namespace Generation

/-- Every save of a generated plan is the write that the state of the target asks for, in every
factory that is built from the plan. -/
theorem generate_saves_by_writing {config : Config} {catalog : Catalog} {typeName : String}
    {plan : Plan} (made : generate config catalog typeName = .ready plan) {host : Host σ}
    {dispatcher : Option (Dispatcher σ)} {factory : Factory σ}
    (built : Factory.Built host plan dispatcher factory) {save : PlannedMethod}
    (member : save ∈ plan.methods) (role : save.role = .save) : factory.SavesByWriting save := by
  have laidOut := generate_laidOut made
  have same := built.plan_eq laidOut
  have writing := MethodBody.writing_eq (laidOut.fits save member) role
  refine ⟨?_, ?_, ?_⟩
  · intro target arguments length isNew isDeleted deadline world
    have routed : plan.saving save.name target arguments = .ok none := by
      rw [laidOut.saving_eq member role length, writing,
        SaveBranch.route_eq_none.mpr ⟨isNew, isDeleted⟩]
      rfl
    rw [Factory.save_eq_follow, Factory.trySave_eq_follow, same, Ask.route, Ask.route, routed]
    exact ⟨rfl, rfl⟩
  · intro target arguments branch length asks undeclared deadline world
    have routed : plan.saving save.name target arguments =
        .error (.notImplemented save.name branch) := by
      rw [laidOut.saving_eq member role length, writing, SaveBranch.route_eq_some.mpr asks]
      dsimp only
      rw [undeclared]
      rfl
    rw [Factory.save_eq_follow, Factory.trySave_eq_follow, same, Ask.route, Ask.route, routed]
    exact ⟨rfl, rfl⟩
  · intro target arguments branch chosen length asks declared
    obtain ⟨write, written, rfl, serves⟩ : ∃ write ∈ plan.methods, write.name = chosen ∧
        write.Serves branch save := by
      unfold generate at made
      split at made
      · cases made
        exact planOf_save_serves config typeName _ member role declared
      · cases made
    have fits : plan.fitting write.name .write arguments = .ok write := by
      rw [← serves.role]
      exact laidOut.fitting_eq_ok written (length.trans serves.length.symm)
    have routed : plan.saving save.name target arguments = .ok (some write) := by
      rw [laidOut.saving_eq member role length, writing, SaveBranch.route_eq_some.mpr asks]
      dsimp only
      rw [declared]
      change (plan.fitting write.name .write arguments >>= _) = _
      rw [fits]
      rfl
    refine ⟨write, same ▸ laidOut.method_eq_some.mpr ⟨written, rfl⟩, serves, ?_⟩
    intro deadline world
    have writes : factory.write write.name target arguments =
        factory.follow (.write write.name target arguments)
          (some (write, ⟨some target, arguments⟩)) := by
      rw [Factory.write_eq_follow, same, Ask.route, fits]
      rfl
    have saves : factory.save save.name target arguments =
        factory.follow (.save save.name target arguments)
          (some (write, ⟨some target, arguments⟩)) := by
      rw [Factory.save_eq_follow, same, Ask.route, routed]
      rfl
    have tries : factory.trySave save.name target arguments =
        factory.follow (.trySave save.name target arguments)
          (some (write, ⟨some target, arguments⟩)) := by
      rw [Factory.trySave_eq_follow, same, Ask.route, routed]
      rfl
    dsimp only
    rw [writes, saves, tries]
    unfold Factory.follow
    refine ⟨?_, Run.conclude_world _, Run.conclude_world _, Run.conclude_world _⟩
    dsimp only
    rw [Run.conclude_result, Run.conclude_result, Run.conclude_result]
    cases (factory.run write ⟨some target, arguments⟩ deadline world).1 with
    | error stop => exact .failed stop
    | ok reply =>
      cases reply with
      | completed output => exact .completed output
      | denied verdict => exact .denied verdict
      | probed verdict => exact .probed verdict

/-- The save of the sample plan. -/
def sampleSave : PlannedMethod where
  name := "save"
  role := .save
  paths := ⟨7⟩
  parameters := []
  payload := [⟨"target", "Person", .selfReference⟩]
  body := .save none none (some "delete") (some "try_save")

/-- The save of the sample plan is its removal for stored persons that are marked for deletion, in
a factory that is built from the plan. -/
theorem sample_saves_by_writing : ∃ factory,
    Factory.Built (sampleHost .server) samplePlan none factory ∧
      sampleSave.chosen? .delete = some "delete" ∧ factory.SavesByWriting sampleSave := by
  obtain ⟨factory, built⟩ := sample_built.1
  refine ⟨factory, .here built, rfl, ?_⟩
  exact generate_saves_by_writing sample_generated (.here built)
    (by simp [samplePlan, sampleSave]) rfl

end Generation

end DomainFactory
