import DomainFactory.Factory
import DomainFactory.Proofs.Layout
import DomainFactory.Proofs.Running

/-!
# Assembly of factories

A factory that is built binds every method of its plan but the saves: a remote one to the
dispatcher, if there is one, and any other to the path on the side of its host. Names are distinct,
so no method takes the place of another, and an identity in the dispatch table stands for one
method.
-/
namespace DomainFactory

variable {σ : Type}

namespace Keyed

variable {α : Type}

/-- A placement is found under its key, and everything else where it was. -/
theorem find_place (key other : String) (value : α) (entries : List (String × α)) :
    (place key value entries).find? (·.1 == other) =
      if key = other then some (key, value) else entries.find? (·.1 == other) := by
  induction entries with
  | nil =>
    by_cases same : key = other
    · simp only [place, same, List.find?_cons, beq_self_eq_true, ↓reduceIte]
    · simp only [place, List.find?_cons, beq_eq_false_iff_ne.mpr same, same, ↓reduceIte]
  | cons first rest ih =>
    obtain ⟨firstKey, kept⟩ := first
    unfold place
    split
    next below =>
      rw [List.find?_cons]
      by_cases same : key = other
      · simp only [same, beq_self_eq_true, ↓reduceIte]
      · simp only [beq_eq_false_iff_ne.mpr same, same, ↓reduceIte]
    next notBelow =>
      split
      next taken =>
        subst taken
        rw [List.find?_cons]
        by_cases same : key = other
        · simp only [same, beq_self_eq_true, ↓reduceIte]
        · simp only [beq_eq_false_iff_ne.mpr same, same, ↓reduceIte, List.find?_cons]
      next different =>
        rw [List.find?_cons, List.find?_cons, ih]
        by_cases here : firstKey = other
        · have elsewhere : key ≠ other := fun same => different (same.trans here.symm)
          simp only [here, beq_self_eq_true, elsewhere, ↓reduceIte]
        · simp only [beq_eq_false_iff_ne.mpr here]

/-- The value under a key after an insertion. -/
theorem get_insert (map : Keyed α) (key other : String) (value : α) :
    (map.insert key value).get? other = if key = other then some value else map.get? other := by
  unfold get? insert
  rw [find_place]
  split <;> rfl

/-- An inserted value is found. -/
@[simp] theorem get_insert_same (map : Keyed α) (key : String) (value : α) :
    (map.insert key value).get? key = some value := by
  rw [get_insert, if_pos rfl]

/-- An insertion changes nothing under other keys. -/
theorem get_insert_other (map : Keyed α) {key other : String} (value : α)
    (different : key ≠ other) : (map.insert key value).get? other = map.get? other := by
  rw [get_insert, if_neg different]

/-- Nothing is found in the empty map. -/
@[simp] theorem get_empty (key : String) : (empty : Keyed α).get? key = none := rfl

end Keyed

/-- A check that is built has the key of the check that its binding refers to, and the code that the
host has under that key. -/
theorem GateCheck.ofBinding_eq_ok {host : Host σ} {checks : List Check} {operation : Operation}
    {binding : Binding} {check : GateCheck σ} :
    ofBinding host checks operation binding = .ok check ↔
      ∃ declared checker, checks[binding.check]? = some declared ∧
        host.checker? declared.key = some checker ∧
        check = ⟨declared.key, binding.sources.map (Slot.ofSource operation), checker⟩ := by
  unfold ofBinding
  cases checks[binding.check]? with
  | none => simp only [reduceCtorEq, false_and, exists_false]
  | some declared =>
    simp only [Option.some.injEq, exists_and_left, exists_eq_left']
    cases host.checker? declared.key with
    | none => simp only [reduceCtorEq, false_and, exists_false]
    | some checker =>
      simp only [Except.ok.injEq, Option.some.injEq, exists_eq_left']
      exact eq_comm

namespace Gate

variable {host : Host σ} {checks : List Check} {operation : Operation} {bindings : List Binding}
  {gate : Gate σ}

/-- A gate that is built has the check of each binding, in order. -/
theorem build_eq_ok (built : build host checks operation bindings = .ok gate) :
    gate.side = host.side ∧ gate.kind = operation.kind ∧
      List.Forall₂ (fun binding check =>
        GateCheck.ofBinding host checks operation binding = .ok check) bindings gate.checks := by
  unfold build at built
  obtain ⟨list, made, given⟩ := Except.bind_eq_ok built
  cases given
  exact ⟨rfl, rfl, Except.mapM_eq_ok.mp made⟩

end Gate

namespace Factory

variable {host : Host σ} {plan : Plan} {dispatcher : Option (Dispatcher σ)}
  {factory later : Factory σ} {method : PlannedMethod}

/-- What the path of a method on the side of a host can be. -/
inductive RunsHere (host : Host σ) (plan : Plan) (method : PlannedMethod) : Path σ → Prop
  /-- A method with an operation runs its handler behind the gate of its bindings. -/
  | run {operation : Operation} {bindings : List Binding} {handler : Handler σ} {gate : Gate σ}
      (body : method.body = .run operation bindings)
      (handled : host.handler? operation.handler = some handler)
      (built : Gate.build host plan.checks operation bindings = .ok gate) :
      RunsHere host plan method
        (.execute host plan.typeName plan.saveState operation handler gate)
  /-- A probe asks the gate of its bindings. -/
  | probe {wraps : String} {operation : Operation} {bindings : List Binding} {gate : Gate σ}
      (body : method.body = .probe wraps operation bindings)
      (built : Gate.build host plan.checks operation bindings = .ok gate) :
      RunsHere host plan method (.probe host operation gate)

/-- The path of a method on the side of a host is one of two things. -/
theorem localPath_runsHere {path : Path σ} (found : localPath host plan method = .ok path) :
    RunsHere host plan method path := by
  unfold localPath at found
  cases body : method.body with
  | run operation bindings =>
    rw [body] at found
    dsimp only at found
    cases handled : host.handler? operation.handler with
    | none =>
      rw [handled] at found
      cases found
    | some handler =>
      rw [handled] at found
      obtain ⟨gate, built, given⟩ := Except.bind_eq_ok found
      cases given
      exact .run body handled built
  | probe wraps operation bindings =>
    rw [body] at found
    obtain ⟨gate, built, given⟩ := Except.bind_eq_ok found
    cases given
    exact .probe body built
  | save insert update delete tryName =>
    rw [body] at found
    cases found

/-- What becomes of a factory when one more method is bound. -/
inductive Adds (host : Host σ) (dispatcher : Option (Dispatcher σ)) (factory : Factory σ)
    (method : PlannedMethod) : Factory σ → Prop
  /-- A save has no path of its own. -/
  | save (role : method.role = .save) : Adds host dispatcher factory method factory
  /-- A remote method is bound to the dispatcher. -/
  | sent (role : method.role ≠ .save) (carrier : Dispatcher σ) (carried : dispatcher = some carrier)
      (remote : method.isRemote = true) : Adds host dispatcher factory method { factory with
        paths := factory.paths.insert method.name
          (.remote host.side (Plan.operationId factory.plan.typeName method.name) carrier) }
  /-- Any other method is bound to the path on the side of the host. -/
  | here (role : method.role ≠ .save) (path : Path σ)
      (stays : dispatcher = none ∨ method.isRemote = false)
      (found : localPath host factory.plan method = .ok path) :
      Adds host dispatcher factory method { factory with
        served := factory.served.insert method.name path
        paths := factory.paths.insert method.name path }

/-- Binding a method is one of three things. -/
theorem addMethod_adds (added : addMethod host dispatcher factory method = .ok later) :
    Adds host dispatcher factory method later := by
  unfold addMethod at added
  by_cases saves : method.role = .save
  · rw [if_pos (beq_iff_eq.mpr saves)] at added
    cases added
    exact .save saves
  · rw [if_neg (by simpa only [beq_iff_eq] using saves)] at added
    have bindHere (stays : dispatcher = none ∨ method.isRemote = false)
        (bound : (do
          let path ← localPath host factory.plan method
          return { factory with
            served := factory.served.insert method.name path
            paths := factory.paths.insert method.name path } : Except Failure (Factory σ)) =
          .ok later) : Adds host dispatcher factory method later := by
      obtain ⟨path, found, bound⟩ := Except.bind_eq_ok bound
      cases bound
      exact .here saves path stays found
    cases carried : dispatcher with
    | none =>
      rw [carried] at added bindHere
      exact bindHere (Or.inl rfl) added
    | some carrier =>
      rw [carried] at added bindHere
      cases remote : method.isRemote with
      | false =>
        rw [remote] at added bindHere
        exact bindHere (Or.inr rfl) added
      | true =>
        rw [remote] at added
        cases added
        exact .sent saves carrier rfl remote

/-- What a factory holds for a method of its plan. -/
inductive Placed (host : Host σ) (dispatcher : Option (Dispatcher σ)) (factory : Factory σ)
    (method : PlannedMethod) : Prop
  /-- A save has no path of its own. -/
  | save (role : method.role = .save)
  /-- Callers of a remote method send a request. -/
  | sent (role : method.role ≠ .save) (carrier : Dispatcher σ) (carried : dispatcher = some carrier)
      (remote : method.isRemote = true) (taken : factory.paths.get? method.name = some
        (.remote host.side (Plan.operationId factory.plan.typeName method.name) carrier))
  /-- Callers of any other method take the path on the side of the host, which others can ask for.
  -/
  | here (role : method.role ≠ .save) (path : Path σ)
      (stays : dispatcher = none ∨ method.isRemote = false)
      (found : localPath host factory.plan method = .ok path)
      (taken : factory.paths.get? method.name = some path)
      (offered : factory.served.get? method.name = some path)

/-- A bound method is placed. -/
theorem Adds.placed (adds : Adds host dispatcher factory method later) :
    Placed host dispatcher later method := by
  cases adds with
  | save role => exact .save role
  | sent role carrier carried remote =>
    exact .sent role carrier carried remote (Keyed.get_insert_same _ _ _)
  | here role path stays found =>
    exact .here role path stays found (Keyed.get_insert_same _ _ _) (Keyed.get_insert_same _ _ _)

/-- Binding a method leaves the plan as it is. -/
theorem Adds.plan_eq (adds : Adds host dispatcher factory method later) :
    later.plan = factory.plan := by
  cases adds <;> rfl

/-- Binding a method changes nothing under other names. -/
theorem Adds.elsewhere (adds : Adds host dispatcher factory method later) {name : String}
    (different : method.name ≠ name) :
    later.paths.get? name = factory.paths.get? name ∧
      later.served.get? name = factory.served.get? name := by
  cases adds with
  | save role => exact ⟨rfl, rfl⟩
  | sent role carrier carried remote => exact ⟨Keyed.get_insert_other _ _ different, rfl⟩
  | here role path stays found =>
    exact ⟨Keyed.get_insert_other _ _ different, Keyed.get_insert_other _ _ different⟩

/-- What is served after a method is bound was served before or is the path of the method. -/
theorem Adds.served (adds : Adds host dispatcher factory method later) {name : String}
    {path : Path σ} (offered : later.served.get? name = some path) :
    factory.served.get? name = some path ∨
      method.name = name ∧ method.role ≠ .save ∧ localPath host factory.plan method = .ok path := by
  cases adds with
  | save role => exact Or.inl offered
  | sent role carrier carried remote => exact Or.inl offered
  | here role added stays found =>
    by_cases same : method.name = name
    · rw [← same, Keyed.get_insert_same] at offered
      cases offered
      exact Or.inr ⟨same, role, found⟩
    · rw [Keyed.get_insert_other _ _ same] at offered
      exact Or.inl offered

/-- A placed method stays so as long as nothing changes under its name. -/
theorem Placed.kept (placed : Placed host dispatcher factory method)
    (plan : later.plan = factory.plan)
    (same : later.paths.get? method.name = factory.paths.get? method.name ∧
      later.served.get? method.name = factory.served.get? method.name) :
    Placed host dispatcher later method := by
  cases placed with
  | save role => exact .save role
  | sent role carrier carried remote taken =>
    refine .sent role carrier carried remote ?_
    rw [same.1, plan]
    exact taken
  | here role path stays found taken offered =>
    refine .here role path stays ?_ (same.1.trans taken) (same.2.trans offered)
    rw [plan]
    exact found

/-- What binding some methods one after another makes of a factory. -/
structure Assembled (host : Host σ) (dispatcher : Option (Dispatcher σ)) (start : Factory σ)
    (methods : List PlannedMethod) (factory : Factory σ) : Prop where
  plan_eq : factory.plan = start.plan
  placed : ∀ method ∈ methods, Placed host dispatcher factory method
  elsewhere : ∀ name, name ∉ methods.map (·.name) →
    factory.paths.get? name = start.paths.get? name ∧
      factory.served.get? name = start.served.get? name
  served : ∀ name path, factory.served.get? name = some path →
    start.served.get? name = some path ∨ ∃ method ∈ methods, method.name = name ∧
      method.role ≠ .save ∧ localPath host start.plan method = .ok path

/-- Methods with distinct names are bound without getting in each other's way. -/
theorem foldlM_assembled {methods : List PlannedMethod}
    (distinct : (methods.map (·.name)).Nodup)
    (bound : methods.foldlM (addMethod host dispatcher) factory = .ok later) :
    Assembled host dispatcher factory methods later := by
  induction methods generalizing factory with
  | nil =>
    cases bound
    refine ⟨rfl, ?_, fun name _ => ⟨rfl, rfl⟩, fun name path offered => Or.inl offered⟩
    intro method member
    cases member
  | cons method methods ih =>
    rw [List.foldlM_cons] at bound
    obtain ⟨fresh, apart⟩ := List.nodup_cons.mp distinct
    obtain ⟨middle, added, bound⟩ := Except.bind_eq_ok bound
    have adds := addMethod_adds added
    have rest := ih apart bound
    refine ⟨rest.plan_eq.trans adds.plan_eq, ?_, ?_, ?_⟩
    · intro other member
      rcases List.mem_cons.mp member with rfl | member
      · exact adds.placed.kept rest.plan_eq (rest.elsewhere other.name fresh)
      · exact rest.placed other member
    · intro name missing
      rw [List.map_cons, List.mem_cons, not_or] at missing
      obtain ⟨taken, offered⟩ := rest.elsewhere name missing.2
      obtain ⟨takenFirst, offeredFirst⟩ := adds.elsewhere (Ne.symm missing.1)
      exact ⟨taken.trans takenFirst, offered.trans offeredFirst⟩
    · intro name path offered
      rcases rest.served name path offered with before | ⟨other, member, named, role, found⟩
      · rcases adds.served before with first | ⟨named, role, found⟩
        · exact Or.inl first
        · exact Or.inr ⟨method, List.mem_cons_self, named, role, found⟩
      · rw [adds.plan_eq] at found
        exact Or.inr ⟨other, List.mem_cons_of_mem _ member, named, role, found⟩

/-- The factories that can be built from a plan with the code of a host, with a dispatcher or
without one. -/
inductive Built (host : Host σ) (plan : Plan) : Option (Dispatcher σ) → Factory σ → Prop
  /-- A local factory. -/
  | here {factory : Factory σ} (built : build host plan = .ok factory) :
      Built host plan none factory
  /-- A remote factory. -/
  | remote {dispatcher : Option (Dispatcher σ)} {factory : Factory σ}
      (built : buildRemote host plan dispatcher = .ok factory) : Built host plan dispatcher factory

/-- A factory that is built has been assembled. -/
theorem Built.assembled (built : Built host plan dispatcher factory)
    (distinct : (plan.methods.map (·.name)).Nodup) :
    ∃ construction, Assembled host dispatcher ⟨plan, construction, .empty, .empty⟩ plan.methods
      factory := by
  cases built with
  | here built => exact ⟨.here, foldlM_assembled distinct built⟩
  | remote built =>
    unfold buildRemote at built
    split at built
    · cases built
    · exact ⟨.remote, foldlM_assembled distinct built⟩

/-- A method runs on the path that is kept under its name. -/
theorem run_eq {path : Path σ} (taken : factory.paths.get? method.name = some path) (call : Call) :
    factory.run method call = path call := by
  unfold run
  rw [taken]

/-- The table with the path of a method under its identity, if the factory serves the method. -/
def offer (factory : Factory σ) (table : DispatchTable σ) (entry : DispatchEntry) :
    DispatchTable σ :=
  match factory.served.get? entry.method with
  | some path => table.insert entry.id path
  | none => table

/-- An offer changes what is found under its identity only. -/
theorem offer_get (factory : Factory σ) (table : DispatchTable σ) (entry : DispatchEntry)
    (id : String) : (factory.offer table entry).paths.get? id =
      if entry.id = id then (factory.served.get? entry.method).or (table.paths.get? id)
      else table.paths.get? id := by
  unfold offer
  cases factory.served.get? entry.method with
  | none => simp only [Option.none_or, ite_self]
  | some path => exact Keyed.get_insert table.paths entry.id id path

/-- Under an identity the table has the path of the method that is offered under it. -/
theorem dispatchTable_get (distinct : (factory.plan.dispatch.map DispatchEntry.id).Nodup)
    (id : String) : factory.dispatchTable.paths.get? id =
      (factory.plan.dispatch.find? (·.id == id)).bind fun entry =>
        factory.served.get? entry.method := by
  have offers (entries : List DispatchEntry) (apart : (entries.map DispatchEntry.id).Nodup)
      (table : DispatchTable σ) : (entries.foldl factory.offer table).paths.get? id =
        ((entries.find? (·.id == id)).bind fun entry => factory.served.get? entry.method).or
          (table.paths.get? id) := by
    induction entries generalizing table with
    | nil => rfl
    | cons entry entries ih =>
      obtain ⟨fresh, apart⟩ := List.nodup_cons.mp apart
      rw [List.foldl_cons, ih apart, offer_get, List.find?_cons]
      by_cases same : entry.id = id
      · have missing : entries.find? (·.id == id) = none := by
          refine List.find?_eq_none.mpr fun other member taken => fresh ?_
          rw [same, ← beq_iff_eq.mp taken]
          exact List.mem_map_of_mem member
        simp only [missing, same, Option.bind_none, Option.none_or, ↓reduceIte, beq_self_eq_true,
          Option.bind_some]
      · simp only [same, ↓reduceIte, beq_eq_false_iff_ne.mpr same]
  exact (offers factory.plan.dispatch distinct .empty).trans (Option.or_none)

/-- A factory that is built holds its plan. -/
theorem Built.plan_eq (built : Built host plan dispatcher factory) (laidOut : plan.LaidOut) :
    factory.plan = plan := by
  obtain ⟨construction, assembled⟩ := built.assembled laidOut.distinct
  exact assembled.plan_eq

/-- A factory that is built has placed every method of its plan. -/
theorem Built.placed (built : Built host plan dispatcher factory) (laidOut : plan.LaidOut)
    (member : method ∈ plan.methods) : Placed host dispatcher factory method := by
  obtain ⟨construction, assembled⟩ := built.assembled laidOut.distinct
  exact assembled.placed method member

/-- What a factory that is built has under an identity is the path of the method with that identity
on the side of its host. -/
theorem Built.of_dispatchTable_get (built : Built host plan dispatcher factory)
    (laidOut : plan.LaidOut) {id : String} {path : Path σ}
    (offered : factory.dispatchTable.paths.get? id = some path) :
    ∃ method ∈ plan.methods, method.isRemote = true ∧ method.role ≠ .save ∧
      Plan.operationId plan.typeName method.name = id ∧ localPath host plan method = .ok path := by
  obtain ⟨construction, assembled⟩ := built.assembled laidOut.distinct
  have same : factory.plan = plan := assembled.plan_eq
  rw [dispatchTable_get (by rw [same]; exact laidOut.identities_nodup), same] at offered
  obtain ⟨entry, found, served⟩ := Option.bind_eq_some_iff.mp offered
  obtain ⟨listed, identity⟩ := find_keyed found
  obtain ⟨method, member, remote, role, rfl⟩ := laidOut.mem_dispatch.mp listed
  rcases assembled.served method.name path served with before | ⟨other, present, equal, _, path_eq⟩
  · rw [Keyed.get_empty] at before
    cases before
  · rw [List.inj_on_of_nodup_map laidOut.distinct present member equal] at path_eq
    exact ⟨method, member, remote, role, identity, path_eq⟩

/-- What a factory serves of its remote methods is found under their identities. -/
theorem Built.dispatchTable_get_served (built : Built host plan dispatcher factory)
    (laidOut : plan.LaidOut) (member : method ∈ plan.methods) (remote : method.isRemote = true)
    (role : method.role ≠ .save) :
    factory.dispatchTable.paths.get? (Plan.operationId plan.typeName method.name) =
      factory.served.get? method.name := by
  have same := built.plan_eq laidOut
  have distinct := laidOut.identities_nodup
  have listed : ⟨Plan.operationId plan.typeName method.name, method.name⟩ ∈ plan.dispatch :=
    laidOut.mem_dispatch.mpr ⟨method, member, remote, role, rfl⟩
  have found : plan.dispatch.find? (·.id == Plan.operationId plan.typeName method.name) =
      some ⟨Plan.operationId plan.typeName method.name, method.name⟩ :=
    (find_keyed_iff distinct).mpr ⟨listed, rfl⟩
  rw [dispatchTable_get (by rw [same]; exact distinct), same, found, Option.bind_some]

/-- Callers of a factory without a dispatcher take the path of a method on the side of its host, and
what is served under the identity of a remote method is that path. -/
theorem Built.taken_here (built : Built host plan none factory) (laidOut : plan.LaidOut)
    (member : method ∈ plan.methods) (role : method.role ≠ .save) :
    ∃ path, localPath host plan method = .ok path ∧ factory.paths.get? method.name = some path ∧
      (method.isRemote = true → factory.dispatchTable.paths.get?
        (Plan.operationId plan.typeName method.name) = some path) := by
  cases built.placed laidOut member with
  | save saves => exact absurd saves role
  | sent _ carrier carried => cases carried
  | here _ path _ found taken offered =>
    rw [built.plan_eq laidOut] at found
    exact ⟨path, found, taken, fun remote =>
      (built.dispatchTable_get_served laidOut member remote role).trans offered⟩

end Factory

end DomainFactory
