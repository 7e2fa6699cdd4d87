import DomainFactory.Generation
import DomainFactory.Proofs.Naming

/-!
# Layout of plans

A generated plan holds what was bound, neither more nor less: its reads and writes are the bound
operations in their order, at the same positions, and its probes are those of the gated operations
that some check can judge without the target. Names are distinct, so a name stands for a position.
-/
namespace DomainFactory

/-- What a save or a probe is made of, and nothing for a read or a write. -/
def MethodSpec.probe? : MethodSpec → Option ProbeSpec
  | .probe spec => some spec
  | _ => none

/-- Whether the operation of a read needs no instance and that of a write works on one. -/
def MethodSpec.Fits : MethodSpec → Prop
  | .read _ bound => bound.operation.isWrite = false
  | .write _ bound => bound.operation.isWrite = true
  | .save _ | .probe _ => True

/-- Methods keep fitting when they are named. -/
theorem MethodSpec.fits_unnamed (spec : MethodSpec) : spec.unnamed.Fits ↔ spec.Fits := by
  cases spec <;> rfl

namespace PlannedMethod

/-- The operation of a read or a write with its checks. -/
def bound? (method : PlannedMethod) : Option BoundOperation :=
  match method.body with
  | .run operation bindings => some ⟨operation, bindings⟩
  | _ => none

/-- What a probe asks: the name of a method, its operation, and the bindings it asks. -/
def asked? (method : PlannedMethod) : Option (String × Operation × List Binding) :=
  match method.body with
  | .probe wraps operation bindings => some (wraps, operation, bindings)
  | _ => none

/-- Whether the role of a method says what it does. -/
def Fits (method : PlannedMethod) : Prop :=
  match method.body with
  | .run operation _ => method.role = if operation.isWrite then .write else .read
  | .save .. => method.role = .save
  | .probe .. => method.role = .probe

/-- The body of a method with an operation. -/
theorem bound_eq_some {method : PlannedMethod} {bound : BoundOperation} :
    method.bound? = some bound ↔ method.body = .run bound.operation bound.bindings := by
  unfold bound?
  cases method.body with
  | run operation bindings =>
    simp only [Option.some.injEq, MethodBody.run.injEq]
    constructor
    · intro equal
      rw [← equal]
      exact ⟨rfl, rfl⟩
    · rintro ⟨operations, bindings⟩
      rw [operations, bindings]
  | save insert update delete tryName => simp only [reduceCtorEq]
  | probe wraps operation bindings => simp only [reduceCtorEq]

/-- The body of a probe. -/
theorem asked_eq_some {method : PlannedMethod} {wraps : String} {operation : Operation}
    {bindings : List Binding} :
    method.asked? = some (wraps, operation, bindings) ↔
      method.body = .probe wraps operation bindings := by
  unfold asked?
  cases method.body with
  | run operation bindings => simp only [reduceCtorEq]
  | save insert update delete tryName => simp only [reduceCtorEq]
  | probe wraps operation bindings =>
    simp only [Option.some.injEq, Prod.mk.injEq, MethodBody.probe.injEq]

/-- The role of a method that runs an operation. -/
theorem Fits.run {method : PlannedMethod} (fits : method.Fits) {operation : Operation}
    {bindings : List Binding} (body : method.body = .run operation bindings) :
    method.role = if operation.isWrite then .write else .read := by
  unfold Fits at fits
  rwa [body] at fits

/-- The role of a method that asks about another one. -/
theorem Fits.probe {method : PlannedMethod} (fits : method.Fits) {wraps : String}
    {operation : Operation} {bindings : List Binding}
    (body : method.body = .probe wraps operation bindings) : method.role = .probe := by
  unfold Fits at fits
  rwa [body] at fits

end PlannedMethod

namespace Plan

variable (typeName : String) (specs : List MethodSpec)

/-- A planned method keeps its name. -/
@[simp] theorem methodOf_name (spec : MethodSpec) :
    (methodOf typeName specs spec).name = spec.name := by
  cases spec <;> rfl

/-- A planned method keeps its operation and bindings. -/
@[simp] theorem methodOf_bound (spec : MethodSpec) :
    (methodOf typeName specs spec).bound? = spec.bound? := by
  cases spec <;> rfl

/-- A planned probe asks about the method at the position it was made for. -/
theorem methodOf_asked (spec : MethodSpec) :
    (methodOf typeName specs spec).asked? = spec.probe?.map fun probe =>
      (Naming.nameOf specs probe.wraps, probe.operation, probe.bindings) := by
  cases spec <;> rfl

/-- A planned method has the role of what it does. -/
theorem methodOf_fits {spec : MethodSpec} (fits : spec.Fits) :
    (methodOf typeName specs spec).Fits := by
  cases spec with
  | read name bound =>
    have reads : bound.operation.isWrite = false := fits
    simp only [methodOf, operationMethod, PlannedMethod.Fits, reads, Bool.false_eq_true,
      ↓reduceIte]
  | write name bound =>
    have writes : bound.operation.isWrite = true := fits
    simp only [methodOf, operationMethod, PlannedMethod.Fits, writes, ↓reduceIte]
  | save spec => rfl
  | probe spec => rfl

end Plan

namespace Synthesis

/-- The probe of an operation, if it is gated and some check can judge it without the target. -/
def probeOf? (position : Nat) (bound : BoundOperation) : Option ProbeSpec :=
  if (bound.bindings.filter (!·.needsTarget)).isEmpty then none
  else
    some {
      wraps := position
      operation := bound.operation
      bindings := bound.bindings.filter (!·.needsTarget)
      remote := bound.operation.remote }

/-- An operation has a probe when some of its bindings need no target, and the probe asks those. -/
theorem probeOf_eq_some {position : Nat} {bound : BoundOperation} {probe : ProbeSpec} :
    probeOf? position bound = some probe ↔
      bound.bindings.filter (!·.needsTarget) ≠ [] ∧ probe = {
        wraps := position
        operation := bound.operation
        bindings := bound.bindings.filter (!·.needsTarget)
        remote := bound.operation.remote } := by
  simp only [probeOf?, Option.ite_none_left_eq_some, List.isEmpty_iff, Option.some.injEq, ne_eq]
  exact and_congr_right fun _ => eq_comm

/-- The method of an operation has that operation. -/
@[simp] theorem methodOf_bound (bound : BoundOperation) : (methodOf bound).bound? = some bound := by
  unfold methodOf
  split <;> rfl

/-- The method of an operation fits it. -/
theorem methodOf_fits (bound : BoundOperation) : (methodOf bound).Fits := by
  unfold methodOf
  by_cases writes : bound.operation.isWrite = true
  · rw [if_pos writes]
    exact writes
  · rw [if_neg writes]
    exact Bool.eq_false_iff.mpr writes

/-- Probes are made for the operations in their order. -/
theorem probesFrom_result (typeName : String) (position : Nat) (bounds : List BoundOperation) :
    (probesFrom typeName position (bounds.map methodOf)).result =
      (bounds.zipIdx position).filterMap fun (bound, position) => probeOf? position bound := by
  induction bounds generalizing position with
  | nil => rfl
  | cons bound bounds ih =>
    rw [List.map_cons, List.zipIdx_cons, List.filterMap_cons]
    simp only [probesFrom, methodOf_bound]
    by_cases judged : (bound.bindings.filter (!·.needsTarget)).isEmpty = true
    · have none : probeOf? position bound = none := if_pos judged
      rw [none]
      by_cases gated : bound.isGated = true
      · simp only [gated, Bool.not_true, Bool.false_eq_true, ↓reduceIte, judged]
        exact ih (position + 1)
      · simp only [gated, Bool.not_false, ↓reduceIte]
        exact ih (position + 1)
    · have gated : bound.isGated = true := by
        unfold BoundOperation.isGated
        cases bindings : bound.bindings with
        | nil =>
          rw [bindings] at judged
          exact absurd rfl judged
        | cons first rest => rfl
      have some : probeOf? position bound = some {
          wraps := position
          operation := bound.operation
          bindings := bound.bindings.filter (!·.needsTarget)
          remote := bound.operation.remote } := if_neg judged
      rw [some]
      simp only [gated, Bool.not_true, Bool.false_eq_true, ↓reduceIte, judged]
      rw [ih (position + 1)]

/-- The reads and writes among the methods are those of the operations, in front. -/
theorem synthesize_bound_at (typeName : String) (bounds : List BoundOperation) (position : Nat) :
    ((synthesize typeName bounds).result[position]?).bind MethodSpec.bound? =
      bounds[position]? := by
  have behind : ∀ spec ∈ (saves typeName (bounds.map methodOf)).result.map MethodSpec.save ++
      (probesFrom typeName 0 (bounds.map methodOf)).result.map MethodSpec.probe,
      spec.bound? = none := by
    intro spec member
    rcases List.mem_append.mp member with save | probe
    · obtain ⟨_, _, rfl⟩ := List.mem_map.mp save
      rfl
    · obtain ⟨_, _, rfl⟩ := List.mem_map.mp probe
      rfl
  simp only [synthesize]
  rw [List.append_assoc]
  by_cases front : position < bounds.length
  · rw [List.getElem?_append_left (by rw [List.length_map]; exact front), List.getElem?_map,
      List.getElem?_eq_getElem front, Option.map_some, Option.bind_some, methodOf_bound]
  · have above : bounds.length ≤ position := Nat.le_of_not_lt front
    rw [List.getElem?_append_right (by rw [List.length_map]; exact above),
      List.getElem?_eq_none above, Option.bind_eq_none_iff]
    intro spec found
    exact behind spec (List.mem_of_getElem? found)

/-- The probes among the methods are those of the operations. -/
theorem synthesize_probes (typeName : String) (bounds : List BoundOperation) :
    (synthesize typeName bounds).result.filterMap MethodSpec.probe? =
      bounds.zipIdx.filterMap fun (bound, position) => probeOf? position bound := by
  have operations : (bounds.map methodOf).filterMap MethodSpec.probe? = [] := by
    rw [List.filterMap_eq_nil_iff]
    intro spec member
    obtain ⟨bound, _, rfl⟩ := List.mem_map.mp member
    unfold methodOf
    split <;> rfl
  have saved : ((saves typeName (bounds.map methodOf)).result.map MethodSpec.save).filterMap
      MethodSpec.probe? = [] := by
    rw [List.filterMap_eq_nil_iff]
    intro spec member
    obtain ⟨save, _, rfl⟩ := List.mem_map.mp member
    rfl
  simp only [synthesize]
  rw [List.filterMap_append, List.filterMap_append, operations, saved, List.filterMap_map,
    probesFrom_result, List.append_nil, List.nil_append]
  exact List.filterMap_some

/-- Every method fits its operation. -/
theorem synthesize_fits (typeName : String) (bounds : List BoundOperation) {spec : MethodSpec}
    (member : spec ∈ (synthesize typeName bounds).result) : spec.Fits := by
  simp only [synthesize, List.mem_append, List.mem_map] at member
  rcases member with (⟨bound, _, rfl⟩ | ⟨save, _, rfl⟩) | ⟨probe, _, rfl⟩
  · exact methodOf_fits bound
  · trivial
  · trivial

end Synthesis

namespace Generation

variable (config : Config) (typeName : String) (findings : Findings)

/-- The methods of a factory with their names. -/
abbrev resolved : List MethodSpec :=
  Naming.resolve config (Synthesis.synthesize typeName findings.bound).result

/-- The methods of a factory agree but for names with those that were synthesized. -/
theorem resolved_unnamed_at (position : Nat) :
    (resolved config typeName findings)[position]?.map MethodSpec.unnamed =
      (Synthesis.synthesize typeName findings.bound).result[position]?.map MethodSpec.unnamed := by
  have same := Naming.resolve_unnamed config (Synthesis.synthesize typeName findings.bound).result
  simpa only [List.getElem?_map] using congrArg (fun list => list[position]?) same

/-- What a plan offers are its named methods. -/
theorem planOf_methods : (planOf config typeName findings).methods =
    (resolved config typeName findings).map
      (Plan.methodOf typeName (resolved config typeName findings)) := rfl

/-- Methods of a plan have distinct names. -/
theorem planOf_names_nodup :
    ((planOf config typeName findings).methods.map PlannedMethod.name).Nodup := by
  have names : PlannedMethod.name ∘
      Plan.methodOf typeName (resolved config typeName findings) = MethodSpec.name :=
    funext fun spec => Plan.methodOf_name typeName _ spec
  rw [planOf_methods, List.map_map, names]
  exact Naming.resolve_names_nodup config _

/-- The reads and writes of a plan are the bound operations, at their positions. -/
theorem planOf_bound_at (position : Nat) :
    ((planOf config typeName findings).methods[position]?).bind PlannedMethod.bound? =
      findings.bound[position]? := by
  rw [← Synthesis.synthesize_bound_at typeName findings.bound position, planOf_methods,
    List.getElem?_map]
  have same := resolved_unnamed_at config typeName findings position
  have bounds := congrArg (Option.bind · MethodSpec.bound?) same
  simpa only [Option.bind_map, Function.comp_def, MethodSpec.bound_unnamed, Plan.methodOf_bound]
    using bounds

/-- Probes of a plan are those of the bound operations, under the names of their methods. -/
theorem planOf_probes :
    (planOf config typeName findings).methods.filterMap PlannedMethod.asked? =
      (findings.bound.zipIdx.filterMap fun (bound, position) =>
        Synthesis.probeOf? position bound).map fun probe =>
          (Naming.nameOf (resolved config typeName findings) probe.wraps, probe.operation,
            probe.bindings) := by
  let asked (spec : MethodSpec) := spec.probe?.map fun probe =>
    (Naming.nameOf (resolved config typeName findings) probe.wraps, probe.operation,
      probe.bindings)
  have plain : asked ∘ MethodSpec.unnamed = asked := by
    funext spec
    cases spec <;> rfl
  have planned : PlannedMethod.asked? ∘
      Plan.methodOf typeName (resolved config typeName findings) = asked :=
    funext fun spec => Plan.methodOf_asked typeName _ spec
  have same := Naming.resolve_unnamed config (Synthesis.synthesize typeName findings.bound).result
  have forgotten := congrArg (List.filterMap asked) same
  rw [List.filterMap_map, List.filterMap_map, plain] at forgotten
  rw [planOf_methods, List.filterMap_map, planned, forgotten,
    ← Synthesis.synthesize_probes typeName findings.bound, List.map_filterMap]

/-- Methods fit their operations when they are named. -/
theorem resolved_fits {spec : MethodSpec} (member : spec ∈ resolved config typeName findings) :
    spec.Fits := by
  obtain ⟨other, among, same⟩ :=
    Naming.exists_mem_unnamed (Naming.resolve_unnamed config _).symm member
  rw [← MethodSpec.fits_unnamed, ← same, MethodSpec.fits_unnamed]
  exact Synthesis.synthesize_fits typeName findings.bound among

/-- Methods of a plan have the role of what they do. -/
theorem planOf_fits {method : PlannedMethod}
    (member : method ∈ (planOf config typeName findings).methods) : method.Fits := by
  rw [planOf_methods] at member
  obtain ⟨spec, present, rfl⟩ := List.mem_map.mp member
  exact Plan.methodOf_fits _ _ (resolved_fits config typeName findings present)

/-- Names of the methods of a plan stand for their positions. -/
theorem nameOf_injective {left right : Nat}
    (leftBound : left < (resolved config typeName findings).length)
    (rightBound : right < (resolved config typeName findings).length)
    (same : Naming.nameOf (resolved config typeName findings) left =
      Naming.nameOf (resolved config typeName findings) right) : left = right := by
  have distinct := Naming.resolve_names_nodup config
    (Synthesis.synthesize typeName findings.bound).result
  rw [Naming.names_positions] at distinct
  exact List.inj_on_of_nodup_map distinct (List.mem_range.mpr leftBound)
    (List.mem_range.mpr rightBound) same

/-- Every bound operation has a method under the name of its position. -/
theorem planOf_method_at {position : Nat} {bound : BoundOperation}
    (found : findings.bound[position]? = some bound) :
    position < (resolved config typeName findings).length ∧
      ∃ method ∈ (planOf config typeName findings).methods, method.bound? = some bound ∧
        method.name = Naming.nameOf (resolved config typeName findings) position := by
  have placed := planOf_bound_at config typeName findings position
  rw [found, planOf_methods, List.getElem?_map] at placed
  obtain ⟨method, there, bounds⟩ := Option.bind_eq_some_iff.mp placed
  obtain ⟨spec, present, rfl⟩ := Option.map_eq_some_iff.mp there
  refine ⟨(List.getElem?_eq_some_iff.mp present).1, _,
    List.mem_map.mpr ⟨spec, List.mem_of_getElem? present, rfl⟩, bounds, ?_⟩
  simp only [Plan.methodOf_name, Naming.nameOf, present, Option.map_some, Option.getD_some]

/-- Every read or write of a plan stands at the position of its bound operation. -/
theorem planOf_position {method : PlannedMethod} {bound : BoundOperation}
    (member : method ∈ (planOf config typeName findings).methods)
    (bounds : method.bound? = some bound) :
    ∃ position, findings.bound[position]? = some bound ∧
      method.name = Naming.nameOf (resolved config typeName findings) position := by
  obtain ⟨position, found⟩ := List.mem_iff_getElem?.mp member
  have placed := planOf_bound_at config typeName findings position
  rw [found, Option.bind_some, bounds] at placed
  refine ⟨position, placed.symm, ?_⟩
  rw [planOf_methods, List.getElem?_map] at found
  obtain ⟨spec, present, rfl⟩ := Option.map_eq_some_iff.mp found
  simp only [Plan.methodOf_name, Naming.nameOf, present, Option.map_some, Option.getD_some]

/-- A plan has a probe for each read or write with bindings that need no target, and it asks
those. -/
theorem planOf_asked {asked : String × Operation × List Binding} :
    asked ∈ (planOf config typeName findings).methods.filterMap PlannedMethod.asked? ↔
      ∃ position bound, findings.bound[position]? = some bound ∧
        bound.bindings.filter (!·.needsTarget) ≠ [] ∧
        asked = (Naming.nameOf (resolved config typeName findings) position, bound.operation,
          bound.bindings.filter (!·.needsTarget)) := by
  rw [planOf_probes, List.mem_map]
  constructor
  · rintro ⟨probe, made, rfl⟩
    obtain ⟨⟨bound, position⟩, present, found⟩ := List.mem_filterMap.mp made
    rw [List.mem_zipIdx_iff_getElem?] at present
    obtain ⟨some, rfl⟩ := Synthesis.probeOf_eq_some.mp found
    exact ⟨position, bound, present, some, rfl⟩
  · rintro ⟨position, bound, present, some, rfl⟩
    obtain ⟨probe, made⟩ : ∃ probe, Synthesis.probeOf? position bound = Option.some probe :=
      ⟨_, Synthesis.probeOf_eq_some.mpr ⟨some, rfl⟩⟩
    have listed : (bound, position) ∈ findings.bound.zipIdx :=
      List.mem_zipIdx_iff_getElem?.mpr present
    refine ⟨probe, List.mem_filterMap.mpr ⟨(bound, position), listed, made⟩, ?_⟩
    rw [(Synthesis.probeOf_eq_some.mp made).2]

/-- A plan has at most one probe for a method. -/
theorem planOf_asked_once :
    (((planOf config typeName findings).methods.filterMap PlannedMethod.asked?).map
      Prod.fst).Nodup := by
  have ordered : findings.bound.zipIdx.Pairwise fun left right => left.2 < right.2 := by
    have positions := List.pairwise_lt_range' (s := 0) (n := findings.bound.length)
    rw [← List.zipIdx_map_snd] at positions
    exact List.pairwise_map.mp positions
  have wraps : (findings.bound.zipIdx.filterMap fun (bound, position) =>
      Synthesis.probeOf? position bound).Pairwise fun left right => left.wraps < right.wraps := by
    refine List.pairwise_filterMap.mpr (ordered.imp ?_)
    intro left right less leftProbe leftMade rightProbe rightMade
    rw [(Synthesis.probeOf_eq_some.mp leftMade).2, (Synthesis.probeOf_eq_some.mp rightMade).2]
    exact less
  have bounded : ∀ probe ∈ findings.bound.zipIdx.filterMap fun (bound, position) =>
      Synthesis.probeOf? position bound,
      probe.wraps < (resolved config typeName findings).length := by
    intro probe made
    obtain ⟨⟨bound, position⟩, present, found⟩ := List.mem_filterMap.mp made
    rw [List.mem_zipIdx_iff_getElem?] at present
    rw [(Synthesis.probeOf_eq_some.mp found).2]
    exact (planOf_method_at config typeName findings present).1
  rw [planOf_probes, List.map_map]
  refine List.pairwise_map.mpr (wraps.imp_of_mem ?_)
  intro left right leftMade rightMade less same
  have equal := nameOf_injective config typeName findings (bounded left leftMade)
    (bounded right rightMade) same
  omega

end Generation

/-- What is found by a key is listed and has the key. -/
theorem find_keyed {α : Type} {key : α → String} {list : List α} {wanted : String} {item : α}
    (found : list.find? (fun item => key item == wanted) = some item) :
    item ∈ list ∧ key item = wanted := by
  have same : (key item == wanted) = true :=
    List.find?_some (p := fun item => key item == wanted) found
  exact ⟨List.mem_of_find?_eq_some found, beq_iff_eq.mp same⟩

/-- Where keys are distinct, whatever is listed is found by its key. -/
theorem find_keyed_iff {α : Type} {key : α → String} {list : List α} {wanted : String} {item : α}
    (distinct : (list.map key).Nodup) :
    list.find? (fun item => key item == wanted) = some item ↔ item ∈ list ∧ key item = wanted := by
  refine ⟨find_keyed, ?_⟩
  rintro ⟨member, rfl⟩
  cases found : list.find? (fun other => key other == key item) with
  | none =>
    have missing := List.find?_eq_none.mp found item member
    exact absurd (beq_self_eq_true (key item)) missing
  | some other =>
    have present := find_keyed found
    rw [List.inj_on_of_nodup_map distinct present.1 member present.2]

namespace Plan

/-- The methods of a plan can be told apart, do what their roles say, and are offered to other sides
when they are remote and have a path of their own. -/
structure LaidOut (plan : Plan) : Prop where
  distinct : (plan.methods.map PlannedMethod.name).Nodup
  fits : ∀ method ∈ plan.methods, method.Fits
  offered : plan.dispatch = (plan.methods.filter fun method =>
    method.isRemote && method.role != .save).map fun method =>
      ⟨operationId plan.typeName method.name, method.name⟩

/-- Identities of methods of one type are told apart by the names of the methods. -/
theorem operationId_injective (typeName : String) : Function.Injective (operationId typeName) := by
  intro left right same
  exact String.append_right_inj _ |>.mp same

variable {plan : Plan} {method : PlannedMethod}

/-- A method is found by its name. -/
theorem LaidOut.method_eq_some (laidOut : plan.LaidOut) {name : String} :
    plan.method? name = some method ↔ method ∈ plan.methods ∧ method.name = name :=
  find_keyed_iff laidOut.distinct

/-- The identities under which methods are offered are distinct. -/
theorem LaidOut.identities_nodup (laidOut : plan.LaidOut) :
    (plan.dispatch.map DispatchEntry.id).Nodup := by
  have ids : DispatchEntry.id ∘ (fun method : PlannedMethod =>
      (⟨operationId plan.typeName method.name, method.name⟩ : DispatchEntry)) =
        operationId plan.typeName ∘ PlannedMethod.name := rfl
  rw [laidOut.offered, List.map_map, ids, ← List.map_map]
  refine List.Nodup.map (operationId_injective _) ?_
  exact laidOut.distinct.sublist (List.filter_sublist.map _)

/-- A remote method with a path of its own is offered under its identity. -/
theorem LaidOut.mem_dispatch (laidOut : plan.LaidOut) {entry : DispatchEntry} :
    entry ∈ plan.dispatch ↔ ∃ method ∈ plan.methods, method.isRemote = true ∧
      method.role ≠ .save ∧ entry = ⟨operationId plan.typeName method.name, method.name⟩ := by
  rw [laidOut.offered, List.mem_map]
  constructor
  · rintro ⟨method, member, rfl⟩
    obtain ⟨present, remote⟩ := List.mem_filter.mp member
    rw [Bool.and_eq_true, bne_iff_ne] at remote
    exact ⟨method, present, remote.1, remote.2, rfl⟩
  · rintro ⟨method, present, remote, role, rfl⟩
    refine ⟨method, List.mem_filter.mpr ⟨present, ?_⟩, rfl⟩
    rw [Bool.and_eq_true, bne_iff_ne]
    exact ⟨remote, role⟩

end Plan

/-- A type with a plan has a base chain, and the plan is that of what is found on it. -/
theorem Generation.of_generate_ready {config : Config} {catalog : Catalog} {typeName : String}
    {plan : Plan} (made : generate config catalog typeName = .ready plan) :
    ∃ chain, catalog.chain typeName = .ok chain ∧
      plan = planOf config typeName (findings catalog config chain) := by
  unfold generate at made
  cases chained : catalog.chain typeName with
  | error error =>
    rw [chained] at made
    cases made
  | ok chain =>
    rw [chained] at made
    cases made
    exact ⟨chain, rfl, rfl⟩

/-- Generated plans are laid out. -/
theorem Generation.generate_laidOut {config : Config} {catalog : Catalog} {typeName : String}
    {plan : Plan} (made : generate config catalog typeName = .ready plan) : plan.LaidOut := by
  obtain ⟨chain, _, rfl⟩ := of_generate_ready made
  exact ⟨planOf_names_nodup config typeName _, fun _ => planOf_fits config typeName _, rfl⟩

end DomainFactory
