import DomainFactory.Proofs.Parity
import DomainFactory.Proofs.Probing

/-!
# What handlers hand back

A method that completes has run its handler once all before it went well, so its output is made of
what the handler gave. Here a reply is followed back to that handler and its place in the journal:
behind the gate and the hooks on the side of a host, and behind the request where the method runs on
another side.
-/
namespace DomainFactory

variable {σ ε φ α : Type}

namespace Run

variable {side : Side} {callback : Callback σ} {passes : α → Bool} {deadline : Option Nat}
  {world later : World σ} {value : α}

/-- Values do not depend on what errors are called. -/
theorem mapError_ok {change : ε → φ} {run : Run σ ε α}
    (given : run.mapError change deadline world = (.ok value, later)) :
    run deadline world = (.ok value, later) := by
  have left : (run.mapError change deadline world).2 = (run deadline world).2 :=
    mapError_world change
  rw [given] at left
  exact Prod.ext (mapError_eq_ok.mp (congrArg Prod.fst given)) left.symm

/-- The value of a callback is what the code behind it answered after all that had happened, and the
callback has begun right then. -/
theorem consult_ok {behaviour : Journal σ → Answer α}
    (given : consult side callback passes behaviour deadline world = (.ok value, later)) :
    (behaviour world.journal).result = .ok value ∧
      world.journal ++ [⟨side, .began callback⟩] <+: later.journal := by
  have settled := consult_result side callback passes behaviour deadline world
  obtain ⟨rest, journal, _⟩ := consult_begins side callback passes behaviour deadline world
  rw [given] at settled journal
  refine ⟨?_, rest, ?_⟩
  · rcases settled with answered | ⟨_, overdue⟩
    · cases result : (behaviour world.journal).result with
      | error fault =>
        rw [result] at answered
        cases answered
      | ok first =>
        rw [result] at answered
        cases answered
        rfl
    · cases overdue
  · rw [journal, List.append_assoc, List.singleton_append]

end Run

/-- Between two worlds the handler with a key ran on the side of a host and gave a completion. -/
def Host.Ran (host : Host σ) (key : String) (invocation : Invocation σ) (completion : Completion)
    (world later : World σ) : Prop :=
  ∃ handler past, host.handler? key = some handler ∧
    (handler past invocation).result = .ok completion ∧ world.journal <+: past ∧
    past ++ [⟨host.side, .began (.handler key invocation)⟩] <+: later.journal

namespace Host.Ran

variable {host : Host σ} {key : String} {invocation : Invocation σ} {completion : Completion}
  {world later first last : World σ}

/-- What ran between two worlds ran between worlds around them. -/
theorem around (ran : host.Ran key invocation completion world later)
    (before : first.journal <+: world.journal) (behind : later.journal <+: last.journal) :
    host.Ran key invocation completion first last := by
  obtain ⟨handler, past, handled, gave, early, late⟩ := ran
  exact ⟨handler, past, handled, gave, before.trans early, late.trans behind⟩

end Host.Ran

namespace Path

variable {host : Host σ} {operation : Operation} {handler : Handler σ} {gate : Gate σ}
  {call : Call} {deadline : Option Nat} {world last : World σ}

/-- What is finished was made of the completion of the handler. -/
theorem finish_ok {saveState : Bool} {invocation : Invocation σ} {reply : Reply}
    (handled : host.handler? operation.handler = some handler)
    (given : finish host saveState operation handler invocation deadline world =
      (.ok reply, last)) :
    ∃ completion, host.Ran operation.handler invocation completion world last ∧
      reply = .completed (operation.output? saveState completion) := by
  obtain ⟨completion, middle, ran, given⟩ := Run.bind_eq_ok given
  obtain ⟨_, later, hooked, given⟩ := Run.bind_eq_ok given
  cases given
  obtain ⟨gave, began⟩ := Run.consult_ok (Run.mapError_ok ran)
  obtain ⟨_, after⟩ := Run.consult_ok (Run.mapError_ok hooked)
  refine ⟨completion, ⟨handler, world.journal, handled, gave, List.prefix_rfl, ?_⟩, rfl⟩
  exact began.trans ((List.prefix_append _ _).trans after)

/-- A reply of an operation that acts was made of the completion of its handler on its receiver. -/
theorem act_ok {typeName : String} {saveState : Bool} {services : Keyed σ} {reply : Reply}
    (handled : host.handler? operation.handler = some handler)
    (given : act host typeName saveState operation handler call services deadline world =
      (.ok reply, last)) :
    ∃ target completion, operation.receiver typeName call.target = .ok target ∧
      host.Ran operation.handler ⟨target, call.arguments, services⟩ completion world last ∧
      reply = .completed (operation.output? saveState completion) := by
  obtain ⟨target, middle, found, given⟩ := Run.bind_eq_ok given
  obtain ⟨received, same⟩ := Run.ofExcept_eq_ok found
  rw [same] at given
  obtain ⟨_, later, hooked, given⟩ := Run.bind_eq_ok given
  obtain ⟨_, before⟩ := Run.consult_ok (Run.mapError_ok hooked)
  obtain ⟨completion, ran, reply⟩ := finish_ok handled given
  have grows := (List.prefix_append _ _).trans before
  exact ⟨target, completion, received, ran.around grows List.prefix_rfl, reply⟩

/-- A method that completes on the side of a host has run its handler. -/
theorem execute_ok {typeName : String} {saveState : Bool} {output : Option Output}
    (handled : host.handler? operation.handler = some handler)
    (registered : ∀ check ∈ gate.checks, host.checker? check.key = some check.checker)
    (given : execute host typeName saveState operation handler gate call deadline world =
      (.ok (.completed output), last)) :
    ∃ target services completion, operation.receiver typeName call.target = .ok target ∧
      host.Ran operation.handler ⟨target, call.arguments, services⟩ completion world last ∧
      output = operation.output? saveState completion := by
  rw [execute_eq] at given
  obtain ⟨news, journal, _⟩ : ∃ news,
      (gate.guard host operation call deadline world).2.journal = world.journal ++ news ∧ _ :=
    Gate.guard_rests registered deadline world
  obtain ⟨ruled, later, guarded, given⟩ := Run.bind_eq_ok given
  rw [guarded] at journal
  by_cases allowed : ruled.2.allowed = true
  · rw [if_pos allowed] at given
    obtain ⟨target, completion, received, ran, reply⟩ := act_ok handled given
    cases reply
    have grows : world.journal <+: later.journal := ⟨news, journal.symm⟩
    exact ⟨target, ruled.1, completion, received, ran.around grows List.prefix_rfl, rfl⟩
  · rw [if_neg allowed] at given
    cases given

/-- A reply from another side was given by the path that serves the request. -/
theorem remote_ok {side : Side} {id : String} {limit : Nat} {table : DispatchTable σ}
    {path : Path σ} {reply : Reply} (offered : table.paths.get? id = some path)
    (given : remote side id (.loopback limit table) call deadline world = (.ok reply, last)) :
    ∃ sooner start later, path call sooner start = (.ok reply, later) ∧
      world.journal <+: start.journal ∧ later.journal <+: last.journal := by
  obtain ⟨request, returned⟩ := remote_returned side offered deadline world
  rw [given] at returned
  generalize ended : path call _ _ = there at returned
  cases returned with
  | replied => exact ⟨_, _, _, ended, List.prefix_append _ _, List.prefix_append _ _⟩

end Path

namespace Factory

variable {plan : Plan} {factory : Factory σ} {method : PlannedMethod}

/-- A factory that runs everything where it is built, or that sends its remote methods to such a
factory of the same plan. For each method, the host on whose side it runs. -/
inductive Arranged (plan : Plan) : (PlannedMethod → Host σ) → Factory σ → Prop where
  /-- A local factory. -/
  | here {host : Host σ} {factory : Factory σ} (built : build host plan = .ok factory) :
    Arranged plan (fun _ => host) factory
  /-- A remote factory that a local one serves within a time limit. -/
  | apart {near far : Host σ} {limit : Nat} {server client : Factory σ}
    (serves : build far plan = .ok server)
    (sends : buildRemote near plan (some (.loopback limit server.dispatchTable)) = .ok client) :
    Arranged plan (fun method => if method.isRemote then far else near) client

/-- A factory of a plan has that plan. -/
theorem Arranged.plan_eq {hostOf : PlannedMethod → Host σ}
    (arranged : Arranged plan hostOf factory) (laidOut : plan.LaidOut) : factory.plan = plan := by
  cases arranged with
  | here built => exact (Built.here built).plan_eq laidOut
  | apart serves sends => exact (Built.remote sends).plan_eq laidOut

/-- A path on the side of a host that completes has run the handler of its operation. -/
theorem localPath_ok {host : Host σ} {path : Path σ} {operation : Operation}
    {bindings : List Binding} {call : Call} {deadline : Option Nat} {world last : World σ}
    {output : Option Output} (found : localPath host plan method = .ok path)
    (body : method.body = .run operation bindings)
    (given : path call deadline world = (.ok (.completed output), last)) :
    ∃ target services completion, operation.receiver plan.typeName call.target = .ok target ∧
      host.Ran operation.handler ⟨target, call.arguments, services⟩ completion world last ∧
      output = operation.output? plan.saveState completion := by
  cases localPath_runsHere found with
  | run other handled built =>
    cases body.symm.trans other
    exact Path.execute_ok handled (Gate.stations_eq built).2 given
  | probe other built => cases body.symm.trans other

/-- A method that completes has run the handler of its operation, on the side on which it runs. -/
theorem Arranged.run_ok {hostOf : PlannedMethod → Host σ}
    (arranged : Arranged plan hostOf factory) (laidOut : plan.LaidOut)
    (member : method ∈ plan.methods) {operation : Operation} {bindings : List Binding}
    (body : method.body = .run operation bindings) {call : Call} {deadline : Option Nat}
    {world last : World σ} {output : Option Output}
    (given : factory.run method call deadline world = (.ok (.completed output), last)) :
    ∃ target services completion, operation.receiver plan.typeName call.target = .ok target ∧
      (hostOf method).Ran operation.handler ⟨target, call.arguments, services⟩ completion world
        last ∧
      output = operation.output? plan.saveState completion := by
  have role : method.role ≠ .save := by
    rw [(laidOut.fits method member).run body]
    cases operation.isWrite <;> exact nofun
  cases arranged with
  | here built =>
    obtain ⟨path, found, taken, _⟩ := (Built.here built).taken_here laidOut member role
    rw [run_eq taken] at given
    exact localPath_ok found body given
  | apart serves sends =>
    cases (Built.remote sends).placed laidOut member with
    | save saves => exact absurd saves role
    | sent _ carrier carried remote taken =>
      cases carried
      simp only [remote, ↓reduceIte]
      rw [run_eq taken, (Built.remote sends).plan_eq laidOut] at given
      obtain ⟨path, found, _, offered⟩ := (Built.here serves).taken_here laidOut member role
      obtain ⟨_, start, later, ran, before, behind⟩ := Path.remote_ok (offered remote) given
      obtain ⟨target, services, completion, received, handled, output⟩ :=
        localPath_ok found body ran
      exact ⟨target, services, completion, received, handled.around before behind, output⟩
    | here _ path stays found taken =>
      have near : method.isRemote = false := stays.resolve_left nofun
      simp only [near, Bool.false_eq_true, ↓reduceIte]
      rw [(Built.remote sends).plan_eq laidOut] at found
      rw [run_eq taken] at given
      exact localPath_ok found body given

end Factory

end DomainFactory
