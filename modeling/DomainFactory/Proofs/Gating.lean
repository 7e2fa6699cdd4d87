import DomainFactory.Proofs.Alignment
import DomainFactory.Proofs.Layout

/-!
# Gating of generated operations

Which checks gate an operation is settled when its plan is generated: the checks of the plan are
those of the policy that governs the base chain, an operation is bound to exactly those that govern
its kind and line up with its parameters, and its probe asks exactly those that need no target.
-/
namespace DomainFactory

namespace Mask

/-- A mask meets the flags of either of two masks when it meets those of one. -/
theorem meets_union (mask left right : Mask) :
    mask.meets (left.union right) = (mask.meets left || mask.meets right) := by
  have spread : mask.bits &&& (left.bits ||| right.bits) =
      mask.bits &&& left.bits ||| mask.bits &&& right.bits :=
    UInt32.toBitVec_inj.mp BitVec.and_or_distrib_left
  rw [Bool.eq_iff_iff, Bool.or_eq_true]
  simp only [meets, union, spread, bne_iff_ne, ne_eq, UInt32.or_eq_zero_iff]
  exact Decidable.not_and_iff_or_not

/-- A mask governs operations of a kind when it meets the flag of the kind or of its family. -/
theorem governs_iff {mask : Mask} {kind : Kind} :
    mask.governs kind = true ↔
      mask.meets (ofKind kind) = true ∨ mask.meets (ofFamily kind.family) = true := by
  rw [governs, governing, meets_union, Bool.or_eq_true]

end Mask

namespace Binding

variable {operation : Operation}

/-- Bindings hold exactly the checks that govern the operation and line up with it. -/
theorem mem_bindFrom {start : Nat} {checks : List Check} {binding : Binding} :
    binding ∈ bindFrom operation start checks ↔
      ∃ check, start ≤ binding.check ∧ checks[binding.check - start]? = some check ∧
        governs operation check = true ∧ sources? operation check = some binding.sources := by
  induction checks generalizing start with
  | nil =>
    simp only [bindFrom, List.not_mem_nil, List.getElem?_nil, reduceCtorEq, false_and, and_false,
      exists_false]
  | cons first checks ih =>
    have head : (∃ check, start ≤ binding.check ∧
        (first :: checks)[binding.check - start]? = some check ∧
        governs operation check = true ∧ sources? operation check = some binding.sources) ↔
        (binding.check = start ∧ governs operation first = true ∧
          sources? operation first = some binding.sources) ∨
        binding ∈ bindFrom operation (start + 1) checks := by
      rw [ih]
      constructor
      · rintro ⟨check, low, found, governed, lined⟩
        by_cases here : binding.check = start
        · rw [here, Nat.sub_self, List.getElem?_cons_zero] at found
          cases found
          exact Or.inl ⟨here, governed, lined⟩
        · have next : binding.check - start = binding.check - (start + 1) + 1 := by omega
          rw [next, List.getElem?_cons_succ] at found
          exact Or.inr ⟨check, by omega, found, governed, lined⟩
      · rintro (⟨here, governed, lined⟩ | ⟨check, low, found, governed, lined⟩)
        · refine ⟨first, Nat.le_of_eq here.symm, ?_, governed, lined⟩
          rw [here, Nat.sub_self, List.getElem?_cons_zero]
        · refine ⟨check, by omega, ?_, governed, lined⟩
          have next : binding.check - start = binding.check - (start + 1) + 1 := by omega
          rw [next, List.getElem?_cons_succ]
          exact found
    rw [head]
    simp only [bindFrom]
    by_cases governed : governs operation first = true
    · simp only [governed, ↓reduceIte]
      cases lined : sources? operation first with
      | none => simp only [reduceCtorEq, and_false, false_or]
      | some sources =>
        rw [List.mem_cons]
        refine or_congr ?_ Iff.rfl
        obtain ⟨position, kept⟩ := binding
        simp only [Binding.mk.injEq, Option.some.injEq, true_and]
        exact and_congr_right fun _ => eq_comm
    · simp only [governed, Bool.false_eq_true, ↓reduceIte, false_and, and_false, false_or]

/-- Bindings keep the order of checks, and a check is bound once. -/
theorem bindFrom_ascending (start : Nat) (checks : List Check) :
    (bindFrom operation start checks).Pairwise fun left right => left.check < right.check := by
  induction checks generalizing start with
  | nil => exact List.Pairwise.nil
  | cons first checks ih =>
    unfold bindFrom
    by_cases governed : governs operation first = true
    · simp only [governed, ↓reduceIte]
      cases sources? operation first with
      | none => exact ih (start + 1)
      | some sources =>
        refine List.pairwise_cons.mpr ⟨?_, ih (start + 1)⟩
        intro binding member
        obtain ⟨_, low, _⟩ := mem_bindFrom.mp member
        exact low
    · simp only [governed, Bool.false_eq_true, ↓reduceIte]
      exact ih (start + 1)

end Binding

/-- The bindings of an operation to the checks of a plan are exact: in the order of the checks, to
those whose mask has the flag of its kind or family and whose parameters line up with its own, with
one source for each parameter. -/
structure BoundExactly (checks : List Check) (operation : Operation) (bindings : List Binding) :
    Prop where
  ascending : (bindings.map Binding.check).Pairwise (· < ·)
  governed : ∀ position, position ∈ bindings.map Binding.check ↔
    ∃ check, checks[position]? = some check ∧
      (check.mask.meets (.ofKind operation.kind) = true ∨
        check.mask.meets (.ofFamily operation.kind.family) = true) ∧
      ∃ positions, Binding.LinesUp operation.isWrite operation.parameters check.parameters positions
  sourced : ∀ binding ∈ bindings, ∃ check positions, checks[binding.check]? = some check ∧
    Binding.LinesUp operation.isWrite operation.parameters check.parameters positions ∧
    binding.sources = positions.map (Binding.sourceAt 0 operation.parameters) ∧
    binding.sources.length = check.parameters.length

/-- An operation is bound exactly. -/
theorem Binding.bind_exactly (checks : List Check) (operation : Operation) :
    BoundExactly checks operation (bind checks operation).bindings := by
  refine ⟨?_, ?_, ?_⟩
  · exact List.pairwise_map.mpr (bindFrom_ascending 0 checks)
  · intro position
    rw [List.mem_map]
    constructor
    · rintro ⟨binding, member, rfl⟩
      obtain ⟨check, _, found, governed, lined⟩ := mem_bindFrom.mp member
      obtain ⟨positions, lines, _⟩ := sources_eq_some_iff.mp lined
      exact ⟨check, found, Mask.governs_iff.mp governed, positions, lines⟩
    · rintro ⟨check, found, governed, positions, lines⟩
      have lined := sources_eq_some_iff.mpr ⟨positions, lines, rfl⟩
      exact ⟨⟨position, _⟩, mem_bindFrom.mpr ⟨check, Nat.zero_le _, found,
        Mask.governs_iff.mpr governed, lined⟩, rfl⟩
  · intro binding member
    obtain ⟨check, _, found, _, lined⟩ := mem_bindFrom.mp member
    obtain ⟨positions, lines, sources⟩ := sources_eq_some_iff.mp lined
    exact ⟨check, positions, found, lines, sources, sources_length lined⟩

namespace Extraction

/-- The check that a method of a policy is: one whose marker governs some operation. -/
def checkIn? (owning declaring : String) (signature : Signature) : Option Check :=
  match signature.check with
  | none => none
  | some markers =>
    if markers.mask.isEmpty then none
    else
      some {
        mask := markers.mask
        declaringType := declaring
        method := signature.name
        parameters := signature.parameters.map (parameterOf owning owning)
        remote := markers.remote
        awaitable := signature.shape.isAwaitable }

/-- The check that a method text of a policy declares, if it can be read. -/
def declaredCheck? (config : Config) (owning declaring text : String) : Option Check :=
  (Signature.parse config text).toOption.bind (checkIn? owning declaring)

/-- The checks that the types of a policy chain declare, nearest type first. -/
def declaredChecks (config : Config) (owning : String) (chain : Chain) : List Check :=
  chain.members.flatMap fun surface =>
    surface.methods.filterMap (declaredCheck? config owning surface.name)

/-- A member of a chain is the nearest one with an association. -/
def Nearest (chain : Chain) (member : Surface) : Prop :=
  ∃ nearer farther, chain.members = nearer ++ member :: farther ∧
    (∀ other ∈ nearer, other.policies = []) ∧ member.policies ≠ []

/-- The member that a search for associations finds first is the nearest one. -/
theorem nearest_of_find {chain : Chain} {member : Surface}
    (found : chain.members.find? (!·.policies.isEmpty) = some member) : Nearest chain member := by
  obtain ⟨associated, nearer, farther, split, before⟩ := List.find?_eq_some_iff_append.mp found
  refine ⟨nearer, farther, split, ?_, ?_⟩
  · intro other present
    simpa only [Bool.not_not, List.isEmpty_iff] using before other present
  · simpa only [Bool.not_eq_eq_eq_not, Bool.not_true, List.isEmpty_eq_false_iff] using associated

/-- The checks that govern a base chain: those of the single policy of its nearest member with an
association, and none where there is no association, more than one, or a policy without a resolvable
chain. -/
inductive Governing (catalog : Catalog) (config : Config) (chain : Chain) : List Check → Prop where
  | unassociated (without : ∀ member ∈ chain.members, member.policies = []) :
    Governing catalog config chain []
  | several {member : Surface} (nearest : Nearest chain member)
    (many : 2 ≤ member.policies.length) : Governing catalog config chain []
  | unresolved {member : Surface} {policy : String} {error : GenerationError}
    (nearest : Nearest chain member) (single : member.policies = [policy])
    (broken : catalog.chain policy = .error error) : Governing catalog config chain []
  | resolved {owner member : Surface} {policy : String} {found : Chain}
    (front : chain.members.head? = some owner) (nearest : Nearest chain member)
    (single : member.policies = [policy]) (chained : catalog.chain policy = .ok found) :
    Governing catalog config chain (declaredChecks config owner.name found)

/-- A method of a policy gives the check that it is. -/
theorem checkOf_result (owning declaring : String) (signature : Signature) :
    (checkOf owning declaring signature).result = (checkIn? owning declaring signature).toList := by
  unfold checkOf checkIn?
  cases signature.check with
  | none => rfl
  | some markers =>
    by_cases free : markers.mask.isEmpty = true
    · simp only [free, ↓reduceIte, Option.toList_none]
    · simp only [free, Bool.false_eq_true, ↓reduceIte, Option.toList_some]

/-- One more method text gives the check that it declares. -/
theorem checksFrom_cons (config : Config) (owning declaring text : String)
    (texts : List (String × String)) :
    (checksFrom config owning ((declaring, text) :: texts)).result =
      (declaredCheck? config owning declaring text).toList ++
        (checksFrom config owning texts).result := by
  conv_lhs => unfold checksFrom
  unfold declaredCheck?
  generalize Signature.parse config text = parsed
  cases parsed with
  | error error => rfl
  | ok signature =>
    simp only [checkOf_result, Except.toOption, Option.bind_some]

/-- Method texts of a policy give the checks they declare, in order. -/
theorem checksFrom_result (config : Config) (owning : String) (texts : List (String × String)) :
    (checksFrom config owning texts).result =
      texts.filterMap fun text => declaredCheck? config owning text.1 text.2 := by
  induction texts with
  | nil => rfl
  | cons text texts ih =>
    rw [checksFrom_cons, ih, List.filterMap_cons]
    cases declaredCheck? config owning text.1 text.2 with
    | none => rfl
    | some check => rfl

/-- The checks of a policy chain are those its types declare. -/
theorem checksFrom_memberTexts (config : Config) (owning : String) (chain : Chain) :
    (checksFrom config owning (memberTexts chain.members)).result =
      declaredChecks config owning chain := by
  rw [checksFrom_result, memberTexts, declaredChecks, List.filterMap_flatMap]
  congr 1
  funext surface
  rw [List.filterMap_map]
  rfl

/-- The checks of a base chain are those that govern it. -/
theorem checks_governing (catalog : Catalog) (config : Config) (chain : Chain) :
    Governing catalog config chain (checks catalog config chain).result := by
  unfold checks
  cases front : chain.members.head? with
  | none =>
    have empty : chain.members = [] := List.head?_eq_none_iff.mp front
    refine .unassociated ?_
    intro member present
    rw [empty] at present
    cases present
  | some owner =>
    cases found : chain.members.find? (!·.policies.isEmpty) with
    | none =>
      refine .unassociated ?_
      intro member present
      have without := List.find?_eq_none.mp found member present
      simpa only [Bool.not_eq_eq_eq_not, Bool.not_true, Bool.not_eq_false, List.isEmpty_iff]
        using without
    | some member =>
      have nearest := nearest_of_find found
      match policies : member.policies with
      | [] =>
        obtain ⟨_, _, _, _, associated⟩ := nearest
        exact absurd policies associated
      | [policy] =>
        simp only [policies, policyChecks]
        cases chained : catalog.chain policy with
        | error error => exact .unresolved nearest policies chained
        | ok found =>
          simp only [checksFrom_memberTexts]
          exact .resolved front nearest policies chained
      | first :: second :: rest =>
        simp only [policies]
        refine .several nearest ?_
        rw [policies, List.length_cons, List.length_cons]
        omega

end Extraction

/-- The probe of a method is exact: there is one when some binding needs no target, only one, and
it asks those bindings about the operation of the method. -/
structure ProbedExactly (plan : Plan) (name : String) (operation : Operation)
    (bindings : List Binding) : Prop where
  asked : (∃ probe ∈ plan.methods, ∃ other kept, probe.body = .probe name other kept) ↔
    ∃ binding ∈ bindings, ArgumentSource.target ∉ binding.sources
  keeps : ∀ probe ∈ plan.methods, ∀ other kept, probe.body = .probe name other kept →
    probe.role = .probe ∧ other = operation ∧
      kept = bindings.filter fun binding => decide (ArgumentSource.target ∉ binding.sources)
  once : ∀ probe ∈ plan.methods, ∀ again ∈ plan.methods, ∀ other kept more still,
    probe.body = .probe name other kept → again.body = .probe name more still → probe = again

namespace Generation

variable {config : Config} {typeName : String} {findings : Findings}

/-- A probe under the name of a read or a write was made for it. -/
theorem planOf_probe_iff {method : PlannedMethod} {bound : BoundOperation}
    (member : method ∈ (planOf config typeName findings).methods)
    (bounds : method.bound? = some bound) {other : Operation} {kept : List Binding} :
    (∃ probe ∈ (planOf config typeName findings).methods,
      probe.body = .probe method.name other kept) ↔
      bound.bindings.filter (!·.needsTarget) ≠ [] ∧ other = bound.operation ∧
        kept = bound.bindings.filter (!·.needsTarget) := by
  obtain ⟨position, found, name⟩ := planOf_position config typeName findings member bounds
  have bounded := (planOf_method_at config typeName findings found).1
  have listed : (∃ probe ∈ (planOf config typeName findings).methods,
      probe.body = .probe method.name other kept) ↔ (method.name, other, kept) ∈
        (planOf config typeName findings).methods.filterMap PlannedMethod.asked? := by
    simp only [List.mem_filterMap, PlannedMethod.asked_eq_some]
  rw [listed, planOf_asked]
  constructor
  · rintro ⟨place, asked, there, some, equal⟩
    simp only [Prod.mk.injEq] at equal
    obtain ⟨names, operations, bindings⟩ := equal
    -- Names stand for positions.
    have same : position = place := by
      refine nameOf_injective config typeName findings bounded
        (planOf_method_at config typeName findings there).1 ?_
      rw [← name, names]
    rw [← same, found] at there
    cases there
    exact ⟨some, operations, bindings⟩
  · rintro ⟨some, rfl, rfl⟩
    exact ⟨position, bound, found, some, by rw [name]⟩

/-- Two probes of one method are one. -/
theorem planOf_probe_once {name : String} {probe again : PlannedMethod}
    (member : probe ∈ (planOf config typeName findings).methods)
    (more : again ∈ (planOf config typeName findings).methods)
    {asked other : Operation × List Binding} (first : probe.asked? = some (name, asked))
    (second : again.asked? = some (name, other)) : probe = again := by
  have once := planOf_asked_once config typeName findings
  rw [List.map_filterMap] at once
  have apart := List.pairwise_iff_getElem.mp (List.pairwise_filterMap.mp once)
  have firstName : probe.asked?.map Prod.fst = some name := by rw [first, Option.map_some]
  have secondName : again.asked?.map Prod.fst = some name := by rw [second, Option.map_some]
  obtain ⟨place, bound, rfl⟩ := List.mem_iff_getElem.mp member
  obtain ⟨position, within, rfl⟩ := List.mem_iff_getElem.mp more
  rcases Nat.lt_trichotomy place position with before | same | behind
  · exact absurd rfl (apart place position bound within before name firstName name secondName)
  · subst same
    rfl
  · exact absurd rfl (apart position place within bound behind name secondName name firstName)

/-- The probe of a read or a write of a plan is exact. -/
theorem planOf_probed {method : PlannedMethod} {bound : BoundOperation}
    (member : method ∈ (planOf config typeName findings).methods)
    (bounds : method.bound? = some bound) :
    ProbedExactly (planOf config typeName findings) method.name bound.operation bound.bindings := by
  have filters : (fun binding : Binding => !binding.needsTarget) =
      fun binding => decide (ArgumentSource.target ∉ binding.sources) := by
    funext binding
    rw [Binding.needsTarget, List.contains_eq_mem, decide_not]
  have own {other : Operation} {kept : List Binding} :=
    @planOf_probe_iff config typeName findings method bound member bounds other kept
  rw [filters] at own
  refine ⟨?_, ?_, ?_⟩
  · have some : bound.bindings.filter
        (fun binding => decide (ArgumentSource.target ∉ binding.sources)) ≠ [] ↔
        ∃ binding ∈ bound.bindings, ArgumentSource.target ∉ binding.sources := by
      simp only [ne_eq, List.filter_eq_nil_iff, decide_eq_true_eq, not_forall, exists_prop,
        Decidable.not_not]
    rw [← some]
    constructor
    · rintro ⟨probe, present, other, kept, body⟩
      exact (own.mp ⟨probe, present, body⟩).1
    · intro judged
      obtain ⟨probe, present, body⟩ := own.mpr ⟨judged, rfl, rfl⟩
      exact ⟨probe, present, _, _, body⟩
  · intro probe present other kept body
    obtain ⟨_, operations, bindings⟩ := own.mp ⟨probe, present, body⟩
    have fits := planOf_fits config typeName findings present
    unfold PlannedMethod.Fits at fits
    rw [body] at fits
    exact ⟨fits, operations, bindings⟩
  · intro probe present again more other kept asked still body second
    exact planOf_probe_once present more (PlannedMethod.asked_eq_some.mpr body)
      (PlannedMethod.asked_eq_some.mpr second)

/-- A generated plan gates every read and write exactly: its checks are those that govern the base
chain, each read and write is bound to exactly those that govern its kind and line up with it, and
its probe asks exactly the bindings that need no target. -/
theorem generate_gates_exactly (config : Config) (catalog : Catalog) (typeName : String)
    (plan : Plan) (made : generate config catalog typeName = .ready plan) :
    (∃ chain, catalog.chain typeName = .ok chain ∧
      Extraction.Governing catalog config chain plan.checks) ∧
    ∀ method ∈ plan.methods, method.role = .read ∨ method.role = .write →
      ∃ operation bindings, method.body = .run operation bindings ∧
        BoundExactly plan.checks operation bindings ∧
        ProbedExactly plan method.name operation bindings := by
  unfold generate at made
  cases chained : catalog.chain typeName with
  | error error =>
    rw [chained] at made
    cases made
  | ok chain =>
    rw [chained] at made
    cases made
    refine ⟨⟨chain, rfl, Extraction.checks_governing catalog config chain⟩, ?_⟩
    intro method member role
    have fits := planOf_fits config typeName (findings catalog config chain) member
    unfold PlannedMethod.Fits at fits
    cases body : method.body with
    | save insert update delete tryName =>
      rw [body] at fits
      rcases role with read | write
      · cases read.symm.trans fits
      · cases write.symm.trans fits
    | probe wraps operation bindings =>
      rw [body] at fits
      rcases role with read | write
      · cases read.symm.trans fits
      · cases write.symm.trans fits
    | run operation bindings =>
      have bounds : method.bound? = some ⟨operation, bindings⟩ :=
        PlannedMethod.bound_eq_some.mpr body
      refine ⟨operation, bindings, rfl, ?_, planOf_probed member bounds⟩
      obtain ⟨position, found, _⟩ := planOf_position config typeName _ member bounds
      obtain ⟨extracted, _, equal⟩ := List.mem_map.mp (List.mem_of_getElem? found)
      cases equal
      exact Binding.bind_exactly _ operation

/-- A type with a remote read and a write. -/
def samplePerson : Surface where
  name := "Person"
  policies := ["PersonAuth"]
  factory := true
  saveState := true
  methods := ["#[factory(fetch, remote)] fn fetch(&mut self, id: i64) -> bool",
    "#[factory(delete)] fn delete(&mut self)"]

/-- A policy with a check of each. -/
def samplePolicy : Surface where
  name := "PersonAuth"
  methods := ["#[authorize(read)] fn can_read(&self, id: i64)",
    "#[authorize(delete)] fn can_delete(&self, person: &Person)"]

/-- The type and its policy. -/
def sampleCatalog : Catalog := Catalog.empty.insertAll [samplePerson, samplePolicy]

/-- The read of the sample. -/
def sampleFetch : Operation where
  kind := .fetch
  declaringType := "Person"
  method := "fetch"
  handler := "Person::fetch"
  publicName := "fetch"
  shape := .success
  remote := true
  parameters := [⟨"id", "i64", .business⟩]
  index := 0

/-- The write of the sample. -/
def sampleDelete : Operation where
  kind := .delete
  declaringType := "Person"
  method := "delete"
  handler := "Person::delete"
  publicName := "delete"
  shape := .value
  remote := false
  parameters := [⟨"target", "Person", .selfReference⟩]
  index := 1

/-- The plan of the sample. -/
def samplePlan : Plan where
  typeName := "Person"
  factoryName := "PersonFactory"
  saveState := true
  methods := [
    { name := "fetch", role := .read, paths := ⟨13⟩, parameters := [⟨"id", "i64", .business⟩]
      payload := [⟨"id", "i64", .business⟩], body := .run sampleFetch [⟨0, [.parameter 0]⟩] },
    { name := "delete", role := .write, paths := ⟨5⟩, parameters := []
      payload := [⟨"target", "Person", .selfReference⟩]
      body := .run sampleDelete [⟨1, [.target]⟩] },
    { name := "save", role := .save, paths := ⟨7⟩, parameters := []
      payload := [⟨"target", "Person", .selfReference⟩]
      body := .save none none (some "delete") (some "try_save") },
    { name := "can_fetch", role := .probe, paths := ⟨24⟩, parameters := [⟨"id", "i64", .business⟩]
      payload := [⟨"id", "i64", .business⟩]
      body := .probe "fetch" sampleFetch [⟨0, [.parameter 0]⟩] }]
  checks := [⟨⟨64⟩, "PersonAuth", "can_read", [⟨"id", "i64", .business⟩], false, false⟩,
    ⟨⟨16⟩, "PersonAuth", "can_delete", [⟨"person", "&Person", .selfReference⟩], false, false⟩]
  dispatch := [⟨"Person::fetch", "fetch"⟩, ⟨"Person::can_fetch", "can_fetch"⟩]
  constructions := [.here, .remote]
  registrationHook := "register_person_factory"
  diagnostics := [⟨.probeRequiresTarget, "Person", some "delete",
    "every authorization needs the target instance; no probe is generated"⟩]

/-- What is known about the sample before its methods are named. -/
def sampleFindings : Findings where
  bound := [⟨sampleFetch, [⟨0, [.parameter 0]⟩]⟩, ⟨sampleDelete, [⟨1, [.target]⟩]⟩]
  checks := samplePlan.checks
  saveState := true
  problems := []

/-- The plan of the sample is generated from its catalog. -/
theorem sample_generated : generate {} sampleCatalog "Person" = .ready samplePlan := by
  have chained : sampleCatalog.chain "Person" = .ok ⟨[samplePerson], none⟩ := by decide +kernel
  have found : findings sampleCatalog {} ⟨[samplePerson], none⟩ = sampleFindings := by
    decide +kernel
  have ordered : ((Naming.positioned (Synthesis.synthesize "Person"
      sampleFindings.bound).result).filter (!·.2.isProbe)).Pairwise fun left right =>
        Naming.namedBefore left right = true := by decide +kernel
  have laid : planOf {} "Person" sampleFindings = samplePlan := by
    simp only [planOf, Naming.resolve, Naming.namePrimary_ordered {} ordered]
    decide +kernel
  rw [generate, chained, ← laid, ← found]

/-- The sample is gated exactly. -/
theorem sample_gates_exactly : generate {} sampleCatalog "Person" = .ready samplePlan ∧
    ∀ method ∈ samplePlan.methods, method.role = .read ∨ method.role = .write →
      ∃ operation bindings, method.body = .run operation bindings ∧
        BoundExactly samplePlan.checks operation bindings ∧
        ProbedExactly samplePlan method.name operation bindings :=
  ⟨sample_generated,
    (generate_gates_exactly {} sampleCatalog "Person" samplePlan sample_generated).2⟩

end Generation

end DomainFactory
