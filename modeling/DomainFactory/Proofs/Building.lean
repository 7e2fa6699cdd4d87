import DomainFactory.Proofs.Asking
import DomainFactory.Proofs.Identities

/-!
# Building factories

Each method that a factory runs on the side of its host needs code there: a read or a write its
handler, and each binding its check. A factory is built exactly when the host has all of it, and
otherwise what is missing first is named. In a factory that is built every method but the saves has
a path.
-/
namespace DomainFactory

variable {σ α β : Type}

/-- Code that a method needs on the side on which it runs. -/
inductive Need where
  /-- The handler under a key. -/
  | handler (key : String)
  /-- The check under a key. -/
  | check (key : String)
deriving DecidableEq, Repr

/-- The failure that names what is missing. -/
def Need.failure : Need → Failure
  | .handler key => .missingHandler key
  | .check key => .missingCheck key

namespace PlannedMethod

/-- The checks of bindings, in order. -/
def checkNeeds (checks : List Check) (bindings : List Binding) : List Need :=
  bindings.filterMap fun binding => checks[binding.check]?.map (.check ·.key)

/-- What a method needs where it runs: its handler first, then its checks. -/
def needs (checks : List Check) (method : PlannedMethod) : List Need :=
  match method.body with
  | .run operation bindings => .handler operation.handler :: checkNeeds checks bindings
  | .probe _ _ bindings => checkNeeds checks bindings
  | .save .. => []

/-- Whether a remote factory runs a method on the side of its host: it does when the method is not
remote, and when there is no dispatcher. -/
def stays (dispatcher : Option (Dispatcher σ)) (method : PlannedMethod) : Bool :=
  dispatcher.isNone || !method.isRemote

/-- A save needs nothing of its own. -/
theorem needs_of_save {checks : List Check} {method : PlannedMethod} (fits : method.Fits)
    (saves : method.role = .save) : method.needs checks = [] := by
  unfold needs
  cases body : method.body with
  | save insert update delete tryName => rfl
  | probe wraps operation bindings => cases saves.symm.trans (fits.probe body)
  | run operation bindings =>
    have role := saves.symm.trans (fits.run body)
    split at role <;> cases role

end PlannedMethod

namespace Plan

/-- What some methods of a plan need, in order. -/
def needs (plan : Plan) (methods : List PlannedMethod) : List Need :=
  methods.flatMap (PlannedMethod.needs plan.checks)

/-- The methods of a plan that a remote factory runs on the side of its host. -/
def staying (plan : Plan) (dispatcher : Option (Dispatcher σ)) : List PlannedMethod :=
  plan.methods.filter (·.stays dispatcher)

/-- Every method stays when there is no dispatcher. -/
theorem staying_none (plan : Plan) : plan.staying (none : Option (Dispatcher σ)) = plan.methods :=
  List.filter_eq_self.mpr fun _ _ => rfl

/-- The methods that stay. -/
theorem mem_staying {plan : Plan} {dispatcher : Option (Dispatcher σ)} {method : PlannedMethod} :
    method ∈ plan.staying dispatcher ↔
      method ∈ plan.methods ∧ (dispatcher = none ∨ method.isRemote = false) := by
  simp only [staying, PlannedMethod.stays, List.mem_filter, Bool.or_eq_true,
    Option.isNone_iff_eq_none, Bool.not_eq_true']

/-- Whether a read or a write of a plan has a remote operation. -/
def Crosses (plan : Plan) : Prop :=
  ∃ method ∈ plan.methods, ∃ operation bindings,
    method.body = .run operation bindings ∧ operation.remote = true

end Plan

namespace Host

/-- Whether a host has what is needed. -/
def has (host : Host σ) : Need → Bool
  | .handler key => (host.handler? key).isSome
  | .check key => (host.checker? key).isSome

/-- The first need that a host does not meet. -/
def missing? (host : Host σ) (needs : List Need) : Option Need := needs.find? (!host.has ·)

/-- A result that a host can give: a value when it has all that is needed, and otherwise the failure
that names what is missing first. -/
def Gives (host : Host σ) (needs : List Need) (result : Except Failure α) : Prop :=
  match host.missing? needs with
  | none => ∃ value, result = .ok value
  | some need => result = .error need.failure

/-- Whether a host has the code of a method. -/
@[mk_iff] structure Equips (host : Host σ) (checks : List Check) (method : PlannedMethod) :
    Prop where
  /-- The handler of a read or a write is registered. -/
  handler : method.role = .read ∨ method.role = .write → ∃ operation,
    method.operation? = some operation ∧ (host.handler? operation.handler).isSome = true
  /-- So is the check of each binding, also for probes. -/
  bindings : ∀ binding ∈ method.bindings, ∃ check, checks[binding.check]? = some check ∧
    (host.checker? check.key).isSome = true

variable {host : Host σ} {needs : List Need} {result : Except Failure α}

/-- Nothing is missing when a host has all that is needed. -/
theorem missing_eq_none : host.missing? needs = none ↔ ∀ need ∈ needs, host.has need = true := by
  unfold missing?
  simp only [List.find?_eq_none, Bool.not_eq_true', Bool.not_eq_false]

/-- A value needs nothing. -/
theorem gives_ok (value : α) : host.Gives [] (.ok value) := ⟨value, rfl⟩

/-- The first need is missing. -/
theorem gives_missing {need : Need} (lacks : host.has need = false) :
    host.Gives (need :: needs) (.error need.failure : Except Failure α) := by
  unfold Gives missing?
  rw [List.find?_cons, lacks]
  rfl

/-- The first need is met, and the others decide. -/
theorem Gives.having {need : Need} (has : host.has need = true) (gives : host.Gives needs result) :
    host.Gives (need :: needs) result := by
  unfold Gives missing? at gives ⊢
  rwa [List.find?_cons, has]

/-- Two steps need what the first needs, then what the second needs. -/
theorem Gives.bind {more : List Need} {next : α → Except Failure β}
    (first : host.Gives needs result)
    (rest : ∀ value, result = .ok value → host.Gives more (next value)) :
    host.Gives (needs ++ more) (result >>= next) := by
  unfold Gives missing? at first ⊢
  rw [List.find?_append]
  cases missing : needs.find? (!host.has ·) with
  | none =>
    rw [missing] at first
    obtain ⟨value, rfl⟩ := first
    exact rest value rfl
  | some need =>
    rw [missing] at first
    rw [first]
    rfl

/-- A step that gives a value in any case needs nothing. -/
theorem Gives.map (first : host.Gives needs result) (next : α → β) :
    host.Gives needs (do return next (← result)) := by
  have both := first.bind fun value _ => gives_ok (next value)
  rwa [List.append_nil] at both

/-- A result is a value exactly when the host has all that is needed. -/
theorem Gives.ok_iff (gives : host.Gives needs result) :
    (∃ value, result = .ok value) ↔ ∀ need ∈ needs, host.has need = true := by
  rw [← missing_eq_none]
  unfold Gives at gives
  cases missing : host.missing? needs with
  | none =>
    rw [missing] at gives
    exact iff_of_true gives rfl
  | some need =>
    rw [missing] at gives
    rw [gives]
    simp only [reduceCtorEq, exists_false]

/-- A result is a failure exactly when the failure names what is missing first. -/
theorem Gives.error_iff (gives : host.Gives needs result) (failure : Failure) :
    result = .error failure ↔ ∃ need, host.missing? needs = some need ∧ failure = need.failure := by
  unfold Gives at gives
  cases missing : host.missing? needs with
  | none =>
    rw [missing] at gives
    obtain ⟨value, rfl⟩ := gives
    simp only [reduceCtorEq, false_and, exists_false]
  | some need =>
    rw [missing] at gives
    rw [gives]
    simp only [Except.error.injEq, Option.some.injEq, exists_eq_left', eq_comm]

end Host

/-- Bindings of a plan refer to its checks. -/
def Binding.Refers (checks : List Check) (binding : Binding) : Prop :=
  ∃ check, checks[binding.check]? = some check

/-- A gate needs the checks of its bindings. -/
theorem Gate.build_gives (host : Host σ) {checks : List Check} (operation : Operation)
    {bindings : List Binding} (refer : ∀ binding ∈ bindings, binding.Refers checks) :
    host.Gives (PlannedMethod.checkNeeds checks bindings)
      (build host checks operation bindings) := by
  have listed : host.Gives (PlannedMethod.checkNeeds checks bindings)
      (bindings.mapM (GateCheck.ofBinding host checks operation)) := by
    induction bindings with
    | nil => exact Host.gives_ok []
    | cons binding bindings ih =>
      obtain ⟨check, found⟩ := refer binding List.mem_cons_self
      have first : host.Gives [.check check.key]
          (GateCheck.ofBinding host checks operation binding) := by
        unfold GateCheck.ofBinding
        rw [found]
        dsimp only
        cases registered : host.checker? check.key with
        | none => exact Host.gives_missing (congrArg Option.isSome registered)
        | some checker => exact (Host.gives_ok _).having (congrArg Option.isSome registered)
      have needed : PlannedMethod.checkNeeds checks (binding :: bindings) =
          [.check check.key] ++ PlannedMethod.checkNeeds checks bindings := by
        unfold PlannedMethod.checkNeeds
        rw [List.filterMap_cons, found]
        rfl
      rw [needed, List.mapM_cons]
      refine first.bind fun value _ => Host.Gives.map (ih ?_) (value :: ·)
      exact fun other member => refer other (List.mem_cons_of_mem _ member)
  exact listed.map (Gate.mk host.side operation.kind)

namespace Factory

variable {host : Host σ} {plan : Plan} {dispatcher : Option (Dispatcher σ)}
  {factory later : Factory σ} {method : PlannedMethod} {methods : List PlannedMethod}

/-- The path of a method on the side of a host needs the code of the method. -/
theorem localPath_gives (host : Host σ) (fits : method.Fits) (unsaved : method.role ≠ .save)
    (refer : ∀ binding ∈ method.bindings, binding.Refers plan.checks) :
    host.Gives (method.needs plan.checks) (localPath host plan method) := by
  unfold PlannedMethod.needs localPath
  unfold PlannedMethod.bindings at refer
  unfold PlannedMethod.Fits at fits
  cases body : method.body with
  | save insert update delete tryName =>
    rw [body] at fits
    exact absurd fits unsaved
  | probe wraps operation bindings =>
    rw [body] at refer
    exact (Gate.build_gives host operation refer).map (Path.probe host operation)
  | run operation bindings =>
    rw [body] at refer
    have gated := Gate.build_gives host operation refer
    dsimp only
    cases registered : host.handler? operation.handler with
    | none => exact Host.gives_missing (congrArg Option.isSome registered)
    | some handler =>
      exact (gated.map (Path.execute host plan.typeName plan.saveState operation handler)).having
        (congrArg Option.isSome registered)

/-- Binding a method needs its code if it runs on the side of the host, and nothing otherwise. -/
theorem addMethod_gives (fits : method.Fits)
    (refer : ∀ binding ∈ method.bindings, binding.Refers factory.plan.checks) :
    host.Gives (if method.stays dispatcher then method.needs factory.plan.checks else [])
      (addMethod host dispatcher factory method) := by
  unfold addMethod
  by_cases saves : method.role = .save
  · rw [PlannedMethod.needs_of_save fits saves, ite_self, if_pos (beq_iff_eq.mpr saves)]
    exact Host.gives_ok factory
  · rw [if_neg (mt beq_iff_eq.mp saves)]
    have bound := (localPath_gives host fits saves refer).map fun path =>
      { factory with
        served := factory.served.insert method.name path
        paths := factory.paths.insert method.name path }
    unfold PlannedMethod.stays
    cases dispatcher with
    | none => exact bound
    | some carrier =>
      cases method.isRemote with
      | false => exact bound
      | true => exact Host.gives_ok _

/-- Binding some methods needs the code of those that run on the side of the host. -/
theorem foldlM_gives (factory : Factory σ) (fits : ∀ method ∈ methods, method.Fits)
    (refer : ∀ method ∈ methods, ∀ binding ∈ method.bindings,
      binding.Refers factory.plan.checks) :
    host.Gives (factory.plan.needs (methods.filter (·.stays dispatcher)))
      (methods.foldlM (addMethod host dispatcher) factory) := by
  induction methods generalizing factory with
  | nil => exact Host.gives_ok factory
  | cons method methods ih =>
    have needed : factory.plan.needs ((method :: methods).filter (·.stays dispatcher)) =
        (if method.stays dispatcher then method.needs factory.plan.checks else []) ++
          factory.plan.needs (methods.filter (·.stays dispatcher)) := by
      unfold Plan.needs
      rw [List.filter_cons]
      split
      · rw [List.flatMap_cons]
      · rw [List.nil_append]
    rw [needed, List.foldlM_cons]
    refine (addMethod_gives (fits method List.mem_cons_self)
      (refer method List.mem_cons_self)).bind fun middle added => ?_
    -- The plan is the same in every factory on the way, so the needs are those of the first one.
    have same := (addMethod_adds added).plan_eq
    rw [← same]
    refine ih middle (fun other member => fits other (List.mem_cons_of_mem _ member)) ?_
    intro other member
    rw [same]
    exact refer other (List.mem_cons_of_mem _ member)

/-- What is served is what callers take. -/
def Covers (factory : Factory σ) : Prop :=
  ∀ name path, factory.served.get? name = some path → factory.paths.get? name = some path

/-- Binding a method that is not served keeps what is served among what callers take. -/
theorem Adds.covers (adds : Adds host dispatcher factory method later) (covers : factory.Covers)
    (fresh : factory.served.get? method.name = none) : later.Covers := by
  intro name path offered
  by_cases same : method.name = name
  · cases adds with
    | save role => exact covers name path offered
    | sent role carrier carried remote =>
      rw [← same, fresh] at offered
      cases offered
    | here role bound stays found =>
      rw [← same, Keyed.get_insert_same] at offered ⊢
      exact offered
  · obtain ⟨taken, kept⟩ := adds.elsewhere same
    rw [taken]
    exact covers name path (kept ▸ offered)

/-- Binding methods with distinct names keeps what is served among what callers take. -/
theorem foldlM_covers (distinct : (methods.map (·.name)).Nodup) (covers : factory.Covers)
    (fresh : ∀ method ∈ methods, factory.served.get? method.name = none)
    (bound : methods.foldlM (addMethod host dispatcher) factory = .ok later) : later.Covers := by
  induction methods generalizing factory with
  | nil =>
    cases bound
    exact covers
  | cons method methods ih =>
    rw [List.foldlM_cons] at bound
    obtain ⟨apart, distinct⟩ := List.nodup_cons.mp distinct
    obtain ⟨middle, added, bound⟩ := Except.bind_eq_ok bound
    have adds := addMethod_adds added
    -- A method that goes to the dispatcher must not hide one that is served under its name.
    refine ih distinct (adds.covers covers (fresh method List.mem_cons_self)) ?_ bound
    intro other member
    have different : method.name ≠ other.name := fun same =>
      apart (List.mem_map.mpr ⟨other, member, same.symm⟩)
    rw [(adds.elsewhere different).2]
    exact fresh other (List.mem_cons_of_mem _ member)

/-- A remote factory is not built when there is nothing to carry the calls of remote methods. -/
theorem buildRemote_blocked (host : Host σ) (supports : plan.supports .remote = true) :
    buildRemote host plan none = .error (.noDispatcher plan.typeName) := by
  unfold buildRemote
  rw [supports]
  rfl

/-- A remote factory is assembled when there is a dispatcher or no need of one. -/
theorem buildRemote_free (free : dispatcher.isSome = true ∨ plan.supports .remote = false) :
    buildRemote host plan dispatcher = assemble .remote host plan dispatcher := by
  unfold buildRemote
  rcases free with given | unsupported
  · rw [Option.isNone_eq_false_iff.mpr given]
    rfl
  · rw [unsupported, Bool.and_false]
    rfl

/-- A factory serves nothing but what callers take when it is assembled. -/
theorem assemble_covers {construction : Construction} (laidOut : plan.LaidOut)
    (assembled : assemble construction host plan dispatcher = .ok factory) : factory.Covers := by
  refine foldlM_covers laidOut.distinct ?_ (fun _ _ => rfl) assembled
  intro name path offered
  cases offered

/-- A factory needs the code of the methods that stay on the side of its host. -/
theorem assemble_gives (construction : Construction) (host : Host σ)
    (dispatcher : Option (Dispatcher σ)) (laidOut : plan.LaidOut)
    (refer : ∀ method ∈ plan.methods, ∀ binding ∈ method.bindings, binding.Refers plan.checks) :
    host.Gives (plan.needs (plan.staying dispatcher))
      (assemble construction host plan dispatcher) :=
  foldlM_gives ⟨plan, construction, .empty, .empty⟩ laidOut.fits refer

/-- A remote factory needs the code of the methods that stay, when there is a dispatcher or no need
of one. -/
theorem buildRemote_gives (host : Host σ) (laidOut : plan.LaidOut)
    (refer : ∀ method ∈ plan.methods, ∀ binding ∈ method.bindings, binding.Refers plan.checks)
    (free : dispatcher.isSome = true ∨ plan.supports .remote = false) :
    host.Gives (plan.needs (plan.staying dispatcher)) (buildRemote host plan dispatcher) := by
  rw [buildRemote_free free]
  exact assemble_gives .remote host dispatcher laidOut refer

/-- Callers of a factory find a path for every method but the saves, and what it serves is among the
paths of callers. -/
structure Paved (factory : Factory σ) (plan : Plan) : Prop where
  taken : ∀ method ∈ plan.methods, method.role ≠ .save →
    (factory.paths.get? method.name).isSome = true
  covers : factory.Covers

/-- A placed method that is no save has a path. -/
theorem Placed.taken (placed : Placed host dispatcher factory method)
    (unsaved : method.role ≠ .save) : (factory.paths.get? method.name).isSome = true := by
  cases placed with
  | save role => exact absurd role unsaved
  | sent role carrier carried remote taken => rw [taken, Option.isSome_some]
  | here role path stays found taken => rw [taken, Option.isSome_some]

/-- A factory that is built is paved. -/
theorem Built.paved (built : Built host plan dispatcher factory) (laidOut : plan.LaidOut) :
    factory.Paved plan := by
  refine ⟨fun method member => (built.placed laidOut member).taken, ?_⟩
  cases built with
  | here built => exact assemble_covers laidOut built
  | remote built =>
    unfold buildRemote at built
    split at built
    · cases built
    · exact assemble_covers laidOut built

end Factory

/-- The key of a check is no number of a check. -/
theorem Check.key_ne_numbered (check : Check) (number : Nat) :
    check.key ≠ "#" ++ toString number := by
  intro same
  have colon : ':' ∈ check.key.toList := by
    unfold key
    simp only [String.toList_append, List.mem_append]
    exact Or.inl (Or.inr (by decide))
  rw [same, String.toList_append] at colon
  rcases List.mem_append.mp colon with sign | digit
  · exact absurd sign (by decide)
  · exact absurd (Syntax.isDigit_of_mem_toString digit) (by decide)

/-- What is needed is no check that is named by its number. -/
theorem Plan.needs_failure_ne {plan : Plan} {methods : List PlannedMethod} {need : Need}
    (needed : need ∈ plan.needs methods) (number : Nat) :
    need.failure ≠ .missingCheck ("#" ++ toString number) := by
  have checked (bindings : List Binding)
      (among : need ∈ PlannedMethod.checkNeeds plan.checks bindings) :
      need.failure ≠ .missingCheck ("#" ++ toString number) := by
    obtain ⟨binding, _, found⟩ := List.mem_filterMap.mp among
    obtain ⟨check, _, rfl⟩ := Option.map_eq_some_iff.mp found
    exact fun same => check.key_ne_numbered number (Failure.missingCheck.inj same)
  obtain ⟨method, _, needed⟩ := List.mem_flatMap.mp needed
  unfold PlannedMethod.needs at needed
  cases body : method.body with
  | save insert update delete tryName =>
    rw [body] at needed
    cases needed
  | probe wraps operation bindings =>
    rw [body] at needed
    exact checked bindings needed
  | run operation bindings =>
    rw [body] at needed
    rcases List.mem_cons.mp needed with rfl | among
    · exact fun same => nomatch same
    · exact checked bindings among

namespace Host

variable {host : Host σ} {plan : Plan} {methods : List PlannedMethod}

/-- A host has what the checks of bindings need exactly when the check of each is registered. -/
theorem has_checkNeeds (host : Host σ) {checks : List Check} {bindings : List Binding}
    (refer : ∀ binding ∈ bindings, binding.Refers checks) :
    (∀ need ∈ PlannedMethod.checkNeeds checks bindings, host.has need = true) ↔
      ∀ binding ∈ bindings, ∃ check, checks[binding.check]? = some check ∧
        (host.checker? check.key).isSome = true := by
  constructor
  · intro all binding member
    obtain ⟨check, found⟩ := refer binding member
    refine ⟨check, found, all (.check check.key) (List.mem_filterMap.mpr ⟨binding, member, ?_⟩)⟩
    rw [found, Option.map_some]
  · intro all need among
    obtain ⟨binding, member, found⟩ := List.mem_filterMap.mp among
    obtain ⟨check, there, registered⟩ := all binding member
    rw [there, Option.map_some] at found
    cases found
    exact registered

/-- A host has what a method needs exactly when it has the code of the method. -/
theorem has_methodNeeds {checks : List Check} {method : PlannedMethod} (fits : method.Fits)
    (refer : ∀ binding ∈ method.bindings, binding.Refers checks) :
    (∀ need ∈ method.needs checks, host.has need = true) ↔ host.Equips checks method := by
  rw [equips_iff, ← has_checkNeeds host refer]
  unfold PlannedMethod.needs PlannedMethod.bindings
  cases body : method.body with
  | save insert update delete tryName =>
    have role := fits.save (by rw [PlannedMethod.operation?, body])
    simp only [role, reduceCtorEq, or_self, IsEmpty.forall_iff, true_and]
    rfl
  | probe wraps operation bindings =>
    have role := fits.probe body
    simp only [role, reduceCtorEq, or_self, IsEmpty.forall_iff, true_and]
  | run operation bindings =>
    have role : method.role = .read ∨ method.role = .write := by
      rw [fits.run body]
      split
      · exact Or.inr rfl
      · exact Or.inl rfl
    have runs : method.operation? = some operation := by rw [PlannedMethod.operation?, body]
    simp only [List.forall_mem_cons, role, true_imp_iff, runs, Option.some.injEq, exists_eq_left']
    rfl

/-- A host has what some methods need exactly when it has the code of each. -/
theorem has_needs (fits : ∀ method ∈ methods, method.Fits)
    (refer : ∀ method ∈ methods, ∀ binding ∈ method.bindings, binding.Refers plan.checks) :
    (∀ need ∈ plan.needs methods, host.has need = true) ↔
      ∀ method ∈ methods, host.Equips plan.checks method := by
  unfold Plan.needs
  rw [List.forall_mem_flatMap]
  exact forall₂_congr fun method member =>
    has_methodNeeds (fits method member) (refer method member)

/-- No failure about what some methods need names a check by its number. -/
theorem Gives.named {result : Except Failure α}
    (gives : host.Gives (plan.needs methods) result) (number : Nat) :
    result ≠ .error (.missingCheck ("#" ++ toString number)) := by
  intro failed
  obtain ⟨need, missing, named⟩ := (gives.error_iff _).mp failed
  exact Plan.needs_failure_ne (List.mem_of_find?_eq_some missing) number named.symm

end Host

/-- How factories of a plan are built on a host, with a dispatcher or without one. -/
structure Plan.BuildsOn (plan : Plan) (host : Host σ) (dispatcher : Option (Dispatcher σ)) :
    Prop where
  /-- A local factory is built exactly when the host has the code of every method. -/
  built : (∃ factory, Factory.build host plan = .ok factory) ↔
    ∀ method ∈ plan.methods, host.Equips plan.checks method
  /-- Otherwise the failure names what is missing first, in the order of the plan. -/
  failed : ∀ failure, Factory.build host plan = .error failure ↔
    ∃ need, host.missing? (plan.needs plan.methods) = some need ∧ failure = need.failure
  /-- A remote factory is built exactly when there is a dispatcher or nothing is remote, and the
  host has the code of every method that does not go to the dispatcher. -/
  builtRemote : (∃ factory, Factory.buildRemote host plan dispatcher = .ok factory) ↔
    (dispatcher.isSome = true ∨ ¬ plan.Crosses) ∧
      ∀ method ∈ plan.methods, dispatcher = none ∨ method.isRemote = false →
        host.Equips plan.checks method
  /-- Otherwise the dispatcher is missing, or the failure names what is missing first among the
  needs of those methods. -/
  failedRemote : ∀ failure, Factory.buildRemote host plan dispatcher = .error failure ↔
    (dispatcher = none ∧ plan.Crosses) ∧ failure = .noDispatcher plan.typeName ∨
      (dispatcher.isSome = true ∨ ¬ plan.Crosses) ∧ ∃ need,
        host.missing? (plan.needs (plan.staying dispatcher)) = some need ∧ failure = need.failure
  /-- No failure names a check by its number. -/
  named : ∀ number : Nat,
    Factory.build host plan ≠ .error (.missingCheck ("#" ++ toString number)) ∧
    Factory.buildRemote host plan dispatcher ≠ .error (.missingCheck ("#" ++ toString number))
  /-- Callers of a factory that is built find a path for everything but saves, and what it serves is
  among these paths. -/
  paved : ∀ factory, Factory.build host plan = .ok factory ∨
    Factory.buildRemote host plan dispatcher = .ok factory → factory.Paved plan

namespace Generation

variable {config : Config} {catalog : Catalog} {typeName : String} {plan : Plan}

/-- Bindings of a generated plan refer to its checks. -/
theorem generate_refers (made : generate config catalog typeName = .ready plan) :
    ∀ method ∈ plan.methods, ∀ binding ∈ method.bindings, binding.Refers plan.checks := by
  intro method member binding present
  cases body : method.body with
  | save insert update delete tryName =>
    rw [PlannedMethod.bindings, body] at present
    cases present
  | run operation bindings | probe wraps operation bindings =>
    have has : method.operation? = some operation := by rw [PlannedMethod.operation?, body]
    obtain ⟨check, found, _⟩ := (generate_lined made member has).2 binding present
    exact ⟨check, found⟩

/-- Factories of generated plans are complete. On every host, and with every dispatcher or none, a
factory is built exactly when the code of all methods that run on the side of the host is registered
there and remote operations have a dispatcher; otherwise it fails with what is missing first. -/
theorem generate_builds_on (made : generate config catalog typeName = .ready plan) (host : Host σ)
    (dispatcher : Option (Dispatcher σ)) : plan.BuildsOn host dispatcher := by
  have laidOut := generate_laidOut made
  have refer := generate_refers made
  have crosses : plan.supports .remote = true ↔ plan.Crosses :=
    (generate_lists_remote made).constructions
  have equipped {methods : List PlannedMethod} (among : methods ⊆ plan.methods) :
      (∀ need ∈ plan.needs methods, host.has need = true) ↔
        ∀ method ∈ methods, host.Equips plan.checks method :=
    Host.has_needs (fun _ member => laidOut.fits _ (among member))
      fun _ member => refer _ (among member)
  have here : host.Gives (plan.needs plan.methods) (Factory.build host plan) := by
    have gives := Factory.assemble_gives .here host none laidOut refer
    rwa [Plan.staying_none] at gives
  have paves : ∀ factory, Factory.build host plan = .ok factory ∨
      Factory.buildRemote host plan dispatcher = .ok factory → factory.Paved plan := by
    rintro factory (built | built)
    · exact (Factory.Built.here built).paved laidOut
    · exact (Factory.Built.remote built).paved laidOut
  by_cases free : dispatcher.isSome = true ∨ ¬ plan.Crosses
  · have there := Factory.buildRemote_gives host laidOut refer
      (free.imp_right fun still => Bool.eq_false_iff.mpr (mt crosses.mp still))
    have stay : plan.staying dispatcher ⊆ plan.methods := fun _ member =>
      (Plan.mem_staying.mp member).1
    have unblocked : ¬ (dispatcher = none ∧ plan.Crosses) := by
      rintro ⟨rfl, remote⟩
      exact free.elim nofun (· remote)
    refine ⟨here.ok_iff.trans (equipped (List.Subset.refl _)), here.error_iff, ?_, ?_,
      fun number => ⟨here.named number, there.named number⟩, paves⟩
    · rw [there.ok_iff, equipped stay, and_iff_right free]
      simp only [Plan.mem_staying, and_imp]
    · intro failure
      rw [there.error_iff, and_iff_right free]
      exact (or_iff_right fun blocked => unblocked blocked.1).symm
  · obtain ⟨given, remote⟩ := not_or.mp free
    obtain rfl := Option.not_isSome_iff_eq_none.mp given
    have remote := not_not.mp remote
    have blocked := Factory.buildRemote_blocked host (crosses.mpr remote)
    refine ⟨here.ok_iff.trans (equipped (List.Subset.refl _)), here.error_iff, ?_, ?_,
      fun number => ⟨here.named number, ?_⟩, paves⟩
    · rw [blocked]
      exact iff_of_false nofun fun both => free both.1
    · intro failure
      rw [blocked, Except.error.injEq, eq_comm, and_iff_right ⟨rfl, remote⟩]
      exact (or_iff_left fun both => free both.1).symm
    · rw [blocked]
      exact nofun

/-- A side without the check of the write of the sample. -/
def sampleGap : Host String where
  side := .server
  handler? := (sampleHost .server).handler?
  checker? key :=
    if key = "PersonAuth::can_delete" then none else (sampleHost .server).checker? key
  provider _ type := .ok type
  hooks := .idle

/-- Factories of the sample are complete; the side with the gap builds none, and names it. -/
theorem sample_builds_on : samplePlan.BuildsOn sampleGap none ∧
    Factory.build sampleGap samplePlan = .error (.missingCheck "PersonAuth::can_delete") :=
  ⟨generate_builds_on sample_generated sampleGap none, rfl⟩

end Generation

end DomainFactory
