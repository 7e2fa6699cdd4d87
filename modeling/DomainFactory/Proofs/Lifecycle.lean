import Mathlib.Data.List.Chain
import DomainFactory.Proofs.Handling
import DomainFactory.Proofs.Routing

/-!
# The life of saved instances

A save hands back the instance that the handler of a write gave, with nothing but its state
replaced: stored after an insertion or an update, fresh after a removal. So when each save works on
what the one before it handed back, perhaps marked for deletion, an insertion follows only a
removal, and an update or a removal follows only an insertion or an update.
-/
namespace DomainFactory

variable {σ : Type}

/-- The state in which a write leaves an instance that tracks its state. -/
def SaveBranch.leaves : SaveBranch → SaveState
  | .insert | .update => .existing
  | .delete => .fresh

/-- What an instance asks for that a write has left, perhaps marked for deletion since: an insertion
just after a removal. -/
theorem SaveBranch.asks_behind {branch next : SaveBranch} {state : SaveState}
    (left : state = branch.leaves ∨ state = { branch.leaves with isDeleted := true })
    (asks : state.Asks next) : next = .insert ↔ branch = .delete := by
  rcases left with rfl | rfl <;> cases branch <;> cases next <;>
    simp [leaves, SaveState.Asks, SaveState.fresh, SaveState.existing] at asks ⊢

namespace Operation

/-- An operation of the kind of a branch works on the target of its call. -/
theorem receiver_of_branch {operation : Operation} {branch : SaveBranch}
    (kind : operation.kind = branch.kind) (typeName : String) (target : Entity) :
    operation.receiver typeName (some target) = .ok (some target) := by
  unfold receiver
  rw [kind]
  cases branch <;> rfl

/-- An instance that an operation of the kind of a branch hands back is the one that the handler
gave, in the state in which the branch leaves it. -/
theorem output_of_branch {operation : Operation} {branch : SaveBranch}
    (kind : operation.kind = branch.kind) {completion : Completion} {entity : Entity}
    (output : some (.produced entity) = operation.output? true completion) :
    ∃ produced, completion.target = some produced ∧ entity.typeName = produced.typeName ∧
      entity.fields = produced.fields ∧ entity.state = branch.leaves := by
  unfold output? at output
  rw [kind] at output
  split at output
  next => cases output
  next =>
    split at output
    next => cases output
    next =>
      cases given : completion.target with
      | none =>
        rw [given] at output
        cases output
      | some produced =>
        rw [given] at output
        have same : entity = operation.settle produced := by
          simpa only [↓reduceIte, Option.some.injEq, Output.produced.injEq] using output
        refine ⟨produced, rfl, ?_⟩
        rw [same, settle, kind]
        cases branch <;> exact ⟨rfl, rfl, rfl⟩

end Operation

/-- A save of a generated plan goes to a write of the kind that the state of the target asks for. -/
theorem Generation.generate_saving {config : Config} {catalog : Catalog} {typeName : String}
    {plan : Plan} (made : generate config catalog typeName = .ready plan) {name : String}
    {target : Entity} {arguments : List Value} {write : PlannedMethod}
    (saving : plan.saving name target arguments = .ok (some write)) :
    write ∈ plan.methods ∧ ∃ branch operation bindings, target.state.Asks branch ∧
      write.body = .run operation bindings ∧ operation.kind = branch.kind := by
  have laidOut := generate_laidOut made
  unfold Plan.saving at saving
  obtain ⟨save, saves, saving⟩ := Except.bind_eq_ok saving
  obtain ⟨written, writing, saving⟩ := Except.bind_eq_ok saving
  obtain ⟨found, role, _⟩ := Plan.of_fitting saves
  have member := (laidOut.method_eq_some.mp found).1
  rw [← Plan.name_of_fitting saves,
    MethodBody.writing_eq (laidOut.fits save member) role] at writing
  cases branched : SaveBranch.route? target.state with
  | none =>
    rw [branched] at writing
    cases writing
    cases saving
  | some branch =>
    cases declared : save.chosen? branch with
    | none =>
      simp only [branched, declared] at writing
      cases writing
    | some chosen =>
      simp only [branched, declared] at writing
      cases writing
      obtain ⟨write, fits, given⟩ := Except.bind_eq_ok saving
      cases given
      obtain ⟨served, present, named, serves⟩ : ∃ served ∈ plan.methods, served.name = chosen ∧
          served.Serves branch save := by
        obtain ⟨chain, _, rfl⟩ := of_generate_ready made
        exact planOf_save_serves config typeName _ member role declared
      -- The write was found by its name, which is that of the method that serves the branch.
      have same : served = write := by
        have called := laidOut.method_eq_some.mpr ⟨present, named⟩
        exact Option.some.inj (called.symm.trans (Plan.of_fitting fits).1)
      subst same
      obtain ⟨operation, bindings, body, kind⟩ := serves.kind
      exact ⟨present, branch, operation, bindings, SaveBranch.route_eq_some.mp branched, body, kind⟩

/-- A save of a target, in a world and with a deadline. -/
structure SaveCall (σ : Type) where
  /-- The name of the save. -/
  name : String
  /-- The instance to save. -/
  target : Entity
  /-- The arguments. -/
  arguments : List Value
  /-- When it has to end. -/
  deadline : Option Nat
  /-- What was there before. -/
  world : World σ

namespace SaveCall

/-- A save hands back an instance, whether it reports denial or fails by it. -/
inductive Returns (factory : Factory σ) (call : SaveCall σ) (entity : Entity) (later : World σ) :
    Prop where
  /-- The save that fails by denial. -/
  | save (given : factory.save call.name call.target call.arguments call.deadline call.world =
      (.ok (some (.produced entity)), later)) : Returns factory call entity later
  /-- The save that reports denial. -/
  | trySave (given : factory.trySave call.name call.target call.arguments call.deadline
      call.world = (.ok (.completed (some (.produced entity))), later)) :
    Returns factory call entity later

/-- The later save works on what the earlier one handed back, perhaps marked for deletion, in
whatever world it is made. -/
def Precedes (factory : Factory σ) (earlier later : SaveCall σ) : Prop :=
  ∃ entity after, earlier.Returns factory entity after ∧
    (later.target = entity ∨ later.target = entity.markDeleted)

/-- A save went to a branch, and the instance is what the handler of a write of that branch gave for
the target, in the state in which the branch leaves it. -/
structure Wrote (plan : Plan) (hostOf : PlannedMethod → Host σ) (call : SaveCall σ)
    (branch : SaveBranch) (entity : Entity) (later : World σ) : Prop where
  asked : call.target.state.Asks branch
  gave : ∃ write ∈ plan.methods, ∃ operation bindings services produced value,
    write.body = .run operation bindings ∧ operation.kind = branch.kind ∧
    (hostOf write).Ran operation.handler ⟨some call.target, call.arguments, services⟩
      ⟨some produced, value⟩ call.world later ∧
    entity.typeName = produced.typeName ∧ entity.fields = produced.fields
  left : entity.state = branch.leaves

end SaveCall

namespace Generation

variable {config : Config} {catalog : Catalog} {typeName : String} {plan : Plan}
  {hostOf : PlannedMethod → Host σ} {factory : Factory σ}

/-- What a save hands back was written. -/
theorem generate_wrote (made : generate config catalog typeName = .ready plan)
    (tracks : plan.saveState = true) (arranged : Factory.Arranged plan hostOf factory)
    {call : SaveCall σ} {entity : Entity} {later : World σ}
    (returned : call.Returns factory entity later) :
    ∃ branch, call.Wrote plan hostOf branch entity later := by
  have laidOut := generate_laidOut made
  have same := arranged.plan_eq laidOut
  obtain ⟨write, saving, ran⟩ : ∃ write,
      plan.saving call.name call.target call.arguments = .ok (some write) ∧
      factory.run write ⟨some call.target, call.arguments⟩ call.deadline call.world =
        (.ok (.completed (some (.produced entity))), later) := by
    cases returned with
    | save given =>
      have answered : factory.answer (.save call.name call.target call.arguments) call.deadline
          call.world = (.ok (some (.produced entity)), later) := given
      rcases Factory.answer_ok answered with idle | ⟨write, input, reply, route, ran, concluded⟩
      · cases idle
      · rw [same] at route
        obtain ⟨saving, rfl⟩ := Ask.saving_of_route route
        cases reply <;> cases concluded
        exact ⟨write, saving, ran⟩
    | trySave given =>
      have answered : factory.answer (.trySave call.name call.target call.arguments) call.deadline
          call.world = (.ok (.completed (some (.produced entity))), later) := given
      rcases Factory.answer_ok answered with idle | ⟨write, input, reply, route, ran, concluded⟩
      · cases idle
      · rw [same] at route
        obtain ⟨saving, rfl⟩ := Ask.saving_of_route route
        cases reply <;> cases concluded
        exact ⟨write, saving, ran⟩
  obtain ⟨member, branch, operation, bindings, asked, body, kind⟩ := generate_saving made saving
  obtain ⟨target, services, completion, received, handled, output⟩ :=
    arranged.run_ok laidOut member body ran
  rw [Operation.receiver_of_branch kind] at received
  cases received
  rw [tracks] at output
  obtain ⟨produced, given, typeNames, fields, left⟩ := Operation.output_of_branch kind output
  obtain ⟨target, value⟩ := completion
  cases given
  exact ⟨branch, asked, ⟨write, member, operation, bindings, services, produced, value, body, kind,
    handled, typeNames, fields⟩, left⟩

/-- A save behind another one inserts just when the other one removed. -/
theorem generate_save_follows (made : generate config catalog typeName = .ready plan)
    (tracks : plan.saveState = true) (arranged : Factory.Arranged plan hostOf factory)
    {earlier later : SaveCall σ} (precedes : earlier.Precedes factory later) :
    ∃ branch, earlier.target.state.Asks branch ∧ ∀ next, later.target.state.Asks next →
      (next = .insert ↔ branch = .delete) := by
  obtain ⟨entity, after, returned, continued⟩ := precedes
  obtain ⟨branch, wrote⟩ := generate_wrote made tracks arranged returned
  refine ⟨branch, wrote.asked, fun next asks => SaveBranch.asks_behind ?_ asks⟩
  rw [← wrote.left]
  rcases continued with same | marked
  · exact Or.inl (congrArg Entity.state same)
  · exact Or.inr (congrArg Entity.state marked)

/-- The life of an instance over a run of saves: an insertion comes first or behind a removal, an
update or a removal comes first or behind an insertion or an update, and every instance that is
handed back is what the handler of the write gave, but for its state. -/
theorem generate_save_lifecycle (made : generate config catalog typeName = .ready plan)
    (tracks : plan.saveState = true) (arranged : Factory.Arranged plan hostOf factory)
    (calls : List (SaveCall σ)) (run : calls.IsChain (SaveCall.Precedes factory)) :
    (∀ before call after, calls = before ++ call :: after →
      (call.target.state.Asks .insert →
        before = [] ∨ ∃ earlier ∈ before.getLast?, earlier.target.state.Asks .delete) ∧
      (call.target.state.Asks .update ∨ call.target.state.Asks .delete →
        before = [] ∨ ∃ earlier ∈ before.getLast?,
          earlier.target.state.Asks .insert ∨ earlier.target.state.Asks .update)) ∧
    ∀ call ∈ calls, ∀ entity later, call.Returns factory entity later →
      ∃ branch, call.Wrote plan hostOf branch entity later := by
  refine ⟨?_, fun call _ entity later returned => generate_wrote made tracks arranged returned⟩
  rintro before call after rfl
  cases last : before.getLast? with
  | none =>
    have first := List.getLast?_eq_none_iff.mp last
    exact ⟨fun _ => Or.inl first, fun _ => Or.inl first⟩
  | some earlier =>
    have precedes : earlier.Precedes factory call :=
      (List.isChain_append.mp run).2.2 earlier last call rfl
    obtain ⟨branch, asked, follows⟩ := generate_save_follows made tracks arranged precedes
    refine ⟨fun inserts => Or.inr ⟨earlier, rfl, ?_⟩, fun others => Or.inr ⟨earlier, rfl, ?_⟩⟩
    · rw [(follows .insert inserts).mp rfl] at asked
      exact asked
    · have stays : branch ≠ .delete := by
        rcases others with updates | deletes
        · exact mt (follows .update updates).mpr nofun
        · exact mt (follows .delete deletes).mpr nofun
      cases branch with
      | insert => exact Or.inl asked
      | update => exact Or.inr asked
      | delete => exact absurd rfl stays

/-- The removal of a stored person. -/
def sampleRemoval : SaveCall String :=
  ⟨"save", ⟨"Person", ⟨false, true⟩, .empty⟩, [], none, {}⟩

/-- A save of the person that the removal hands back. -/
def sampleReturn : SaveCall String :=
  ⟨"save", ⟨"Person", .fresh, .empty⟩, [], none, {}⟩

/-- The removed person of the sample asks for an insertion next. -/
theorem sample_save_lifecycle : ∃ factory,
    Factory.Arranged samplePlan (fun _ => sampleHost .server) factory ∧
      [sampleRemoval, sampleReturn].IsChain (SaveCall.Precedes factory) ∧
      sampleReturn.target.state.Asks .insert ∧
      ([sampleRemoval] = [] ∨
        ∃ earlier ∈ [sampleRemoval].getLast?, earlier.target.state.Asks .delete) := by
  obtain ⟨server, built⟩ := sample_built.1
  have arranged : Factory.Arranged samplePlan (fun _ => sampleHost .server) server := .here built
  have saved : (Factory.build (sampleHost .server) samplePlan).map (fun server =>
      (server.save "save" sampleRemoval.target [] none {}).1) =
        .ok (.ok (some (.produced sampleReturn.target))) := rfl
  rw [built] at saved
  have returned : sampleRemoval.Returns server sampleReturn.target
      (server.save "save" sampleRemoval.target [] none {}).2 :=
    .save (Prod.ext (Except.ok.inj saved) rfl)
  have run : [sampleRemoval, sampleReturn].IsChain (SaveCall.Precedes server) :=
    List.isChain_pair.mpr ⟨_, _, returned, Or.inl rfl⟩
  have asks : sampleReturn.target.state.Asks .insert := ⟨rfl, rfl⟩
  have lives := generate_save_lifecycle sample_generated rfl arranged
    [sampleRemoval, sampleReturn] run
  exact ⟨server, arranged, run, asks, (lives.1 [sampleRemoval] sampleReturn [] rfl).1 asks⟩

end Generation

end DomainFactory
