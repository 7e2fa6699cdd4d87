import DomainFactory.Proofs.Chains
import DomainFactory.Proofs.Gating

/-!
# Inherited operations

A type that declares nothing of its own has the operations and checks of its base, each with its
parameters classified for the new owner. A parameter of an operation refers to the type itself when
its type is the owner or the type that declares it, a parameter of a check only when it is the
owner. So an inherited operation keeps a check exactly when their newly classified parameters line
up.
-/
namespace DomainFactory

/-- The parameter classified for an owner and a declaring type. -/
def Parameter.ownedBy (owning declaring : String) (parameter : Parameter) : Parameter :=
  { parameter with
    role :=
      if parameter.isInjected then .injected
      else if Extraction.isOwnType parameter.type owning declaring then .selfReference
      else .business }

/-- The operation as inherited by an owner, which is the type of its target. -/
def Operation.inheritedBy (owning : String) (operation : Operation) : Operation :=
  { operation with
    parameters :=
      (operation.parameters.take operation.targetCount).map
          (fun target => { target with type := owning }) ++
        (operation.parameters.drop operation.targetCount).map
          (·.ownedBy owning operation.declaringType) }

/-- The check as it governs the operations of an owner. -/
def Check.inheritedBy (owning : String) (check : Check) : Check :=
  { check with parameters := check.parameters.map (·.ownedBy owning owning) }

namespace Catalog

variable {catalog : Catalog}

/-- Following bases goes the same way behind fewer members, in whatever number of steps it comes to
something. -/
theorem follow_behind {name other : String} {steps more : Nat} {member : Surface}
    {members : List Surface} {base : Option String} {chain : Chain}
    {there : Except GenerationError Chain}
    (followed : catalog.follow name steps (member :: members) base = some (.ok chain))
    (again : catalog.follow other more members base = some there) :
    ∃ rest, chain.members = member :: rest ∧ there = .ok ⟨rest, chain.unresolved⟩ := by
  induction steps generalizing more members base with
  | zero =>
    cases base with
    | none =>
      cases more <;>
      · cases followed
        cases again
        exact ⟨members, rfl, rfl⟩
    | some base => cases followed
  | succ steps ih =>
    cases base with
    | none =>
      cases more <;>
      · cases followed
        cases again
        exact ⟨members, rfl, rfl⟩
    | some base =>
      cases more with
      | zero => cases again
      | succ more =>
        unfold follow at followed again
        by_cases back : (member :: members).any (·.name == base) = true
        · rw [if_pos back] at followed
          cases followed
        · have forth : ¬ members.any (·.name == base) = true := by
            intro present
            exact back (by rw [List.any_cons, present, Bool.or_true])
          rw [if_neg back] at followed
          rw [if_neg forth] at again
          cases found : catalog.get? base with
          | none =>
            rw [found] at followed again
            cases followed
            cases again
            exact ⟨members, rfl, rfl⟩
          | some surface =>
            rw [found] at followed again
            exact ih followed again

/-- The base chain of a derived type is the type in front of the base chain of its base. -/
theorem chain_derived {name base : String} {surface parent : Surface} {chain : Chain}
    (declared : catalog.get? name = some surface) (extended : surface.base = some base)
    (known : catalog.get? base = some parent) (chained : catalog.chain name = .ok chain) :
    ∃ rest, chain.members = surface :: parent :: rest ∧
      catalog.chain base = .ok ⟨parent :: rest, chain.unresolved⟩ := by
  have followed := follow_eq_chain declared
  rw [chained, extended] at followed
  cases room : catalog.types.size with
  | zero =>
    rw [room] at followed
    cases followed
  | succ steps =>
    rw [room] at followed
    unfold follow at followed
    by_cases back : [surface].any (·.name == base) = true
    · rw [if_pos back] at followed
      cases followed
    · rw [if_neg back, known] at followed
      obtain ⟨rest, members, parents⟩ := follow_behind followed (follow_eq_chain known)
      have climbs := chain_climbs parents
      generalize chain.unresolved = last at climbs parents ⊢
      cases climbs with
      | undeclared missing =>
        rw [known] at missing
        cases missing
      | next found =>
        cases known.symm.trans found
        exact ⟨_, members, parents⟩

end Catalog

namespace Extraction

/-- A parameter is injected when it is declared so. -/
theorem parameterOf_isInjected (owning declaring : String) (declared : DeclaredParameter) :
    (parameterOf owning declaring declared).isInjected = declared.injected := by
  unfold parameterOf Parameter.isInjected
  generalize isOwnType declared.type owning declaring = own
  cases declared.injected with
  | true => rfl
  | false => cases own <;> rfl

/-- A parameter declared for one owner is classified for another. -/
theorem parameterOf_ownedBy (owning declaring owner declarer : String)
    (declared : DeclaredParameter) :
    (parameterOf owning declaring declared).ownedBy owner declarer =
      parameterOf owner declarer declared := by
  unfold Parameter.ownedBy
  rw [parameterOf_isInjected]
  rfl

/-- An inherited operation is the operation of the same method for the new owner. -/
theorem operationOf_inherited (base owner declaring : String) (index : Nat)
    (signature : Signature) (markers : OperationMarkers) (kind : Kind) :
    (operationOf owner declaring index signature markers kind).toOption =
      (operationOf base declaring index signature markers kind).toOption.map
        (Operation.inheritedBy owner) := by
  unfold operationOf
  by_cases receives : ((kind != .execute) != signature.hasReceiver) = true
  · simp only [receives, ↓reduceIte]
    rfl
  · simp only [receives, Bool.false_eq_true, ↓reduceIte, Except.toOption, Option.map_some,
      Operation.inheritedBy, Operation.targetCount, Operation.isWrite]
    by_cases writes : kind.isWrite = true
    · simp only [writes, ↓reduceIte, List.singleton_append, List.take_succ_cons, List.take_zero,
        List.map_cons, List.map_nil, List.drop_succ_cons, List.drop_zero, List.map_map]
      congr 4
      funext declared
      exact (parameterOf_ownedBy base declaring owner declaring declared).symm
    · simp only [writes, Bool.false_eq_true, ↓reduceIte, List.nil_append, List.take_zero,
        List.map_nil, List.drop_zero, List.map_map]
      congr 3
      funext declared
      exact (parameterOf_ownedBy base declaring owner declaring declared).symm

/-- Inherited operations of a method are its operations for the new owner. -/
theorem operationsOf_inherited (base owner declaring : String) (index : Nat)
    (signature : Signature) :
    (operationsOf owner declaring index signature).result =
      (operationsOf base declaring index signature).result.map (Operation.inheritedBy owner) := by
  unfold operationsOf
  cases signature.operation with
  | none => rfl
  | some markers =>
    simp only
    cases markers.callable.filter (!Syntax.isIdentifier ·) with
    | some callable => rfl
    | none =>
      simp only [List.filterMap_map, List.map_filterMap]
      congr 1
      funext kind
      exact operationOf_inherited base owner declaring index signature markers kind

/-- Inherited operations of method texts are their operations for the new owner. -/
theorem operationsFrom_inherited (config : Config) (base owner : String) (index : Nat)
    (texts : List (String × String)) :
    (operationsFrom config owner index texts).result =
      (operationsFrom config base index texts).result.map (Operation.inheritedBy owner) := by
  induction texts generalizing index with
  | nil => rfl
  | cons text texts ih =>
    obtain ⟨declaring, text⟩ := text
    unfold operationsFrom
    generalize Signature.parse config text = parsed
    cases parsed with
    | error error => exact ih index
    | ok signature =>
      have found := operationsOf_inherited base owner declaring index signature
      simp only [found, List.map_append, List.isEmpty_map, ih]

/-- A check that an owner inherits is the check of the same method for it. -/
theorem declaredCheck_inherited (config : Config) (base owner declaring text : String) :
    declaredCheck? config owner declaring text =
      (declaredCheck? config base declaring text).map (Check.inheritedBy owner) := by
  unfold declaredCheck?
  generalize Signature.parse config text = parsed
  cases parsed with
  | error error => rfl
  | ok signature =>
    simp only [Except.toOption, Option.bind_some]
    unfold checkIn?
    cases signature.check with
    | none => rfl
    | some markers =>
      by_cases free : markers.mask.isEmpty = true
      · simp only [free, ↓reduceIte, Option.map_none]
      · simp only [free, Bool.false_eq_true, ↓reduceIte, Option.map_some, Check.inheritedBy,
          List.map_map]
        congr 3
        funext declared
        exact (parameterOf_ownedBy base base owner owner declared).symm

/-- The checks that an owner inherits are those of the same policy chain for it. -/
theorem declaredChecks_inherited (config : Config) (base owner : String) (chain : Chain) :
    declaredChecks config owner chain =
      (declaredChecks config base chain).map (Check.inheritedBy owner) := by
  unfold declaredChecks
  rw [List.map_flatMap]
  congr 1
  funext surface
  rw [List.map_filterMap]
  congr 1
  funext text
  exact declaredCheck_inherited config base owner surface.name text

/-- Behind a changed front, a list is what it was changed to. -/
theorem drop_changed {α β : Type} (count : Nat) (list : List α) (front behind : α → β) :
    ((list.take count).map front ++ (list.drop count).map behind).drop count =
      (list.drop count).map behind := by
  by_cases long : count ≤ list.length
  · have size : ((list.take count).map front).length = count := by
      rw [List.length_map, List.length_take, Nat.min_eq_left long]
    exact List.drop_left' size
  · have short : list.length ≤ count := Nat.le_of_not_le long
    rw [List.drop_eq_nil_of_le short, List.map_nil, List.append_nil, List.drop_eq_nil_of_le]
    rw [List.length_map, List.length_take]
    exact Nat.min_le_left _ _

/-- An inherited operation declares the same types. -/
theorem declaredTypes_inherited (owner : String) (operation : Operation) :
    declaredTypes (operation.inheritedBy owner) = declaredTypes operation := by
  have count : (operation.inheritedBy owner).targetCount = operation.targetCount := rfl
  unfold declaredTypes
  rw [count, Operation.inheritedBy, drop_changed, List.map_map]
  rfl

/-- Inherited operations are overloads of each other as before. -/
theorem overloads_inherited (owner : String) (operations : List Operation)
    (operation : Operation) :
    overloads (operations.map (Operation.inheritedBy owner)) (operation.inheritedBy owner) =
      overloads operations operation := by
  unfold overloads
  rw [List.filter_map]
  simp only [List.foldl_map, declaredTypes_inherited]
  rfl

/-- An inherited operation keeps its handler. -/
theorem handlerKey_inherited (owner : String) (operations : List Operation)
    (operation : Operation) :
    handlerKey (operations.map (Operation.inheritedBy owner)) (operation.inheritedBy owner) =
      handlerKey operations operation := by
  unfold handlerKey
  rw [overloads_inherited, declaredTypes_inherited]
  rfl

variable {surface parent : Surface} {rest : List Surface} {unresolved : Option String}

/-- A type without methods has the operations of its base. -/
theorem operations_inherited (config : Config) (bare : surface.methods = []) :
    (operations config ⟨surface :: parent :: rest, unresolved⟩).result =
      (operations config ⟨parent :: rest, unresolved⟩).result.map
        (Operation.inheritedBy surface.name) := by
  have texts : memberTexts (surface :: parent :: rest) = memberTexts (parent :: rest) := by
    unfold memberTexts
    rw [List.flatMap_cons, bare, List.map_nil, List.nil_append]
  simp only [operations, texts, List.map_map,
    operationsFrom_inherited config parent.name surface.name 0 (memberTexts (parent :: rest))]
  apply List.map_congr_left
  intro operation _
  simp only [Function.comp_apply, handlerKey_inherited]
  rfl

/-- The checks of a policy are inherited. -/
theorem policyChecks_inherited (catalog : Catalog) (config : Config) (base owner policy : String) :
    (policyChecks catalog config owner policy).result =
      (policyChecks catalog config base policy).result.map (Check.inheritedBy owner) := by
  unfold policyChecks
  cases catalog.chain policy with
  | error error => rfl
  | ok found =>
    simp only [checksFrom_memberTexts]
    exact declaredChecks_inherited config base owner found

/-- A type without associations has the checks of its base. -/
theorem checks_inherited (catalog : Catalog) (config : Config) (free : surface.policies = []) :
    (checks catalog config ⟨surface :: parent :: rest, unresolved⟩).result =
      (checks catalog config ⟨parent :: rest, unresolved⟩).result.map
        (Check.inheritedBy surface.name) := by
  have behind : (surface :: parent :: rest).find? (!·.policies.isEmpty) =
      (parent :: rest).find? (!·.policies.isEmpty) := by
    rw [List.find?_cons_of_neg]
    rw [free]
    exact Bool.false_ne_true
  simp only [checks, behind, List.head?_cons]
  cases (parent :: rest).find? (!·.policies.isEmpty) with
  | none => rfl
  | some declaring =>
    simp only
    rcases declaring.policies with _ | ⟨policy, _ | ⟨second, more⟩⟩
    · rfl
    · exact policyChecks_inherited catalog config parent.name surface.name policy
    · rfl

end Extraction

/-- The target of an operation refers to an instance of the type itself. -/
def Operation.Targeted (operation : Operation) : Prop :=
  ∀ parameter ∈ operation.parameters.take operation.targetCount, parameter.isSelfReference = true

namespace Extraction

/-- The operation of a method has its target in front. -/
theorem operationOf_targeted {owning declaring : String} {index : Nat} {signature : Signature}
    {markers : OperationMarkers} {kind : Kind} {operation : Operation}
    (made : operationOf owning declaring index signature markers kind = .ok operation) :
    operation.Targeted := by
  unfold operationOf at made
  by_cases receives : ((kind != .execute) != signature.hasReceiver) = true
  · simp only [receives, ↓reduceIte, reduceCtorEq] at made
  · simp only [receives, Bool.false_eq_true, ↓reduceIte, Except.ok.injEq] at made
    rw [← made]
    unfold Operation.Targeted Operation.targetCount Operation.isWrite
    by_cases writes : kind.isWrite = true
    · simp only [writes, ↓reduceIte, List.singleton_append, List.take_succ_cons, List.take_zero,
        List.mem_singleton]
      intro parameter target
      rw [target]
      rfl
    · simp only [writes, Bool.false_eq_true, ↓reduceIte, List.take_zero, List.not_mem_nil,
        false_implies, implies_true]

/-- The operations of a method are made of its signature; a callable that they go by is an
identifier. -/
theorem operationsOf_made {owning declaring : String} {index : Nat} {signature : Signature}
    {operation : Operation}
    (member : operation ∈ (operationsOf owning declaring index signature).result) :
    ∃ markers kind, (∀ callable ∈ markers.callable, Syntax.isIdentifier callable = true) ∧
      operationOf owning declaring index signature markers kind = .ok operation := by
  unfold operationsOf at member
  cases found : signature.operation with
  | none =>
    rw [found] at member
    cases member
  | some markers =>
    simp only [found] at member
    cases callable : markers.callable.filter (!Syntax.isIdentifier ·) with
    | some callable =>
      rw [callable] at member
      cases member
    | none =>
      have identifiers : ∀ callable ∈ markers.callable, Syntax.isIdentifier callable = true := by
        intro name given
        have kept := Option.filter_eq_none_iff.mp callable name given
        simpa using kept
      simp only [callable, List.filterMap_map, List.mem_filterMap, Function.comp_apply] at member
      obtain ⟨kind, _, usable⟩ := member
      cases made : operationOf owning declaring index signature markers kind with
      | error problem =>
        rw [made] at usable
        cases usable
      | ok found =>
        rw [made] at usable
        cases usable
        exact ⟨markers, kind, identifiers, made⟩

/-- Each operation of method texts is one that the signature of one of them gives. -/
theorem operationsFrom_listed (config : Config) (owning : String) (index : Nat)
    (texts : List (String × String)) :
    ∀ operation ∈ (operationsFrom config owning index texts).result,
      ∃ declaring text index signature, (declaring, text) ∈ texts ∧
        Signature.parse config text = .ok signature ∧
        operation ∈ (operationsOf owning declaring index signature).result := by
  induction texts generalizing index with
  | nil =>
    intro operation member
    cases member
  | cons text texts ih =>
    have later (index : Nat) : ∀ operation ∈ (operationsFrom config owning index texts).result,
        ∃ declaring found index signature, (declaring, found) ∈ text :: texts ∧
          Signature.parse config found = .ok signature ∧
          operation ∈ (operationsOf owning declaring index signature).result := by
      intro operation member
      obtain ⟨declaring, found, place, signature, listed, more⟩ := ih index operation member
      exact ⟨declaring, found, place, signature, List.mem_cons_of_mem _ listed, more⟩
    obtain ⟨declaring, text⟩ := text
    unfold operationsFrom
    cases parsed : Signature.parse config text with
    | error error => exact later index
    | ok signature =>
      intro operation member
      rcases List.mem_append.mp member with here | behind
      · exact ⟨declaring, text, index, signature, List.mem_cons_self, parsed, here⟩
      · exact later _ operation behind

/-- The operations of method texts are made of their signatures. -/
theorem operationsFrom_made (config : Config) (owning : String) (index : Nat)
    (texts : List (String × String)) :
    ∀ operation ∈ (operationsFrom config owning index texts).result,
      ∃ declaring index text signature markers kind, Signature.parse config text = .ok signature ∧
        (∀ callable ∈ markers.callable, Syntax.isIdentifier callable = true) ∧
        operationOf owning declaring index signature markers kind = .ok operation := by
  intro operation member
  obtain ⟨declaring, text, place, signature, _, parsed, listed⟩ :=
    operationsFrom_listed config owning index texts operation member
  obtain ⟨markers, kind, identifiers, made⟩ := operationsOf_made listed
  exact ⟨declaring, place, text, signature, markers, kind, parsed, identifiers, made⟩

/-- The operations of a base chain are made of the signatures of texts, but for the keys of their
handlers. -/
theorem operations_made {config : Config} {chain : Chain} {operation : Operation}
    (member : operation ∈ (operations config chain).result) :
    ∃ owning declaring index text signature markers kind handler,
      Signature.parse config text = .ok signature ∧
      (∀ callable ∈ markers.callable, Syntax.isIdentifier callable = true) ∧
      operationOf owning declaring index signature markers kind =
        .ok { operation with handler } := by
  unfold operations at member
  cases members : chain.members with
  | nil =>
    rw [members] at member
    cases member
  | cons owner rest =>
    rw [members] at member
    obtain ⟨found, present, rfl⟩ := List.mem_map.mp member
    obtain ⟨declaring, index, text, signature, markers, kind, parsed, identifiers, made⟩ :=
      operationsFrom_made config owner.name 0 _ found present
    exact ⟨owner.name, declaring, index, text, signature, markers, kind, found.handler, parsed,
      identifiers, made⟩

/-- The operations of a base chain have their targets in front. -/
theorem operations_targeted (config : Config) (chain : Chain) :
    ∀ operation ∈ (operations config chain).result, operation.Targeted := by
  intro operation member
  obtain ⟨_, _, _, _, _, _, _, _, _, _, made⟩ := operations_made member
  have targeted := operationOf_targeted made
  exact targeted

end Extraction

/-- Inherited parameters have the faces they had, when none behind the target changes its role. -/
theorem Operation.inheritedBy_faces {owner : String} {operation : Operation}
    (targeted : operation.Targeted)
    (steady : ∀ parameter ∈ operation.parameters.drop operation.targetCount,
      parameter.ownedBy owner operation.declaringType = parameter) :
    operation.parameters.map Binding.face =
      (operation.inheritedBy owner).parameters.map Binding.face := by
  have front : (operation.parameters.take operation.targetCount).map Binding.face =
      (operation.parameters.take operation.targetCount).map
        (Binding.face ∘ fun target => { target with type := owner }) := by
    apply List.map_congr_left
    intro parameter member
    have itself := targeted parameter member
    have still : ({ parameter with type := owner } : Parameter).isSelfReference = true := itself
    rw [Function.comp_apply, Binding.face, Binding.face, if_pos itself, if_pos still]
  have behind : (operation.parameters.drop operation.targetCount).map Binding.face =
      (operation.parameters.drop operation.targetCount).map
        (Binding.face ∘ (·.ownedBy owner operation.declaringType)) := by
    apply List.map_congr_left
    intro parameter member
    rw [Function.comp_apply, steady parameter member]
  unfold Operation.inheritedBy
  rw [List.map_append, List.map_map, List.map_map, ← front, ← behind, ← List.map_append,
    List.take_append_drop]

/-- Whether a read or a write at a position of a plan is bound to a check with a declaring type and
a name. -/
def Plan.Gates (plan : Plan) (position : Nat) (policy check : String) : Prop :=
  ∃ bound, (plan.methods[position]?).bind PlannedMethod.bound? = some bound ∧
    ∃ binding ∈ bound.bindings, ∃ gate, plan.checks[binding.check]? = some gate ∧
      gate.declaringType = policy ∧ gate.method = check

namespace Generation

variable {config : Config} {catalog : Catalog}

/-- What a plan binds an operation to is what is known about its type. -/
theorem planOf_gates {typeName policy check : String} {found : Findings} {position : Nat} :
    (planOf config typeName found).Gates position policy check ↔
      ∃ bound, found.bound[position]? = some bound ∧
        ∃ binding ∈ bound.bindings, ∃ gate, found.checks[binding.check]? = some gate ∧
          gate.declaringType = policy ∧ gate.method = check := by
  unfold Plan.Gates
  rw [planOf_bound_at]
  rfl

/-- An operation of a plan is bound to a check of some name exactly when a check of that name
governs it and lines up with it. -/
theorem findings_gates {typeName policy check : String} {chain : Chain} {position : Nat}
    {operation : Operation}
    (found : (Extraction.operations config chain).result[position]? = some operation) :
    (planOf config typeName (findings catalog config chain)).Gates position policy check ↔
      ∃ gate ∈ (Extraction.checks catalog config chain).result,
        gate.declaringType = policy ∧ gate.method = check ∧
        gate.mask.governs operation.kind = true ∧
        ∃ positions, Binding.LinesUp operation.isWrite operation.parameters gate.parameters
          positions := by
  have bound : (findings catalog config chain).bound[position]? =
      some (Binding.bind (Extraction.checks catalog config chain).result operation) := by
    simp only [findings, List.getElem?_map, found, Option.map_some]
  have exactly := Binding.bind_exactly (Extraction.checks catalog config chain).result operation
  rw [planOf_gates, bound]
  constructor
  · rintro ⟨_, placed, binding, member, gate, present, names⟩
    cases placed
    obtain ⟨other, there, governed, lines⟩ :=
      (exactly.governed binding.check).mp (List.mem_map.mpr ⟨binding, member, rfl⟩)
    have same : gate = other := Option.some.inj (present.symm.trans there)
    rw [← same, ← Mask.governs_iff] at governed
    rw [← same] at lines
    exact ⟨gate, List.mem_of_getElem? present, names.1, names.2, governed, lines⟩
  · rintro ⟨gate, member, policies, names, governed, lines⟩
    obtain ⟨place, present⟩ := List.mem_iff_getElem?.mp member
    obtain ⟨binding, made, rfl⟩ := List.mem_map.mp
      ((exactly.governed place).mpr ⟨gate, present, Mask.governs_iff.mp governed, lines⟩)
    exact ⟨_, rfl, binding, made, gate, present, policies, names⟩

/-- A type that extends another and declares neither methods nor an association has the operations
and checks of its base, each classified for it. It is bound to a policy method exactly when a check
of that name governs the operation and lines up with it as classified; so what gates the operation
of the base still gates the inherited one where no parameter changes its role. -/
theorem inherited_gates_iff (config : Config) (catalog : Catalog) (name base : String)
    (surface parent : Surface) (plan : Plan) (declared : catalog.get? name = some surface)
    (extended : surface.base = some base) (known : catalog.get? base = some parent)
    (bare : surface.methods = []) (free : surface.policies = [])
    (made : generate config catalog name = .ready plan) :
    ∃ basePlan, generate config catalog base = .ready basePlan ∧
      plan.checks = basePlan.checks.map (Check.inheritedBy surface.name) ∧
      ∀ position bound, (basePlan.methods[position]?).bind PlannedMethod.bound? = some bound →
        (∃ own, (plan.methods[position]?).bind PlannedMethod.bound? = some own ∧
          own.operation = bound.operation.inheritedBy surface.name) ∧
        (∀ policy check, plan.Gates position policy check ↔
          ∃ gate ∈ basePlan.checks, gate.declaringType = policy ∧ gate.method = check ∧
            gate.mask.governs bound.operation.kind = true ∧
            ∃ positions, Binding.LinesUp bound.operation.isWrite
              (bound.operation.inheritedBy surface.name).parameters
              (gate.inheritedBy surface.name).parameters positions) ∧
        ((∀ gate ∈ basePlan.checks, gate.inheritedBy surface.name = gate) →
          (∀ parameter ∈ bound.operation.parameters.drop bound.operation.targetCount,
            parameter.ownedBy surface.name bound.operation.declaringType = parameter) →
          ∀ policy check, basePlan.Gates position policy check →
            plan.Gates position policy check) := by
  unfold generate at made
  cases chained : catalog.chain name with
  | error error =>
    rw [chained] at made
    cases made
  | ok chain =>
    rw [chained] at made
    cases made
    obtain ⟨rest, members, chainedBase⟩ := Catalog.chain_derived declared extended known chained
    obtain ⟨all, unresolved⟩ := chain
    simp only at members chainedBase
    subst members
    have checks := @Extraction.checks_inherited surface parent rest unresolved catalog config free
    have operations :=
      @Extraction.operations_inherited surface parent rest unresolved config bare
    refine ⟨planOf config base (findings catalog config ⟨parent :: rest, unresolved⟩), ?_, checks,
      ?_⟩
    · unfold generate
      rw [chainedBase]
    intro position bound placed
    rw [planOf_bound_at] at placed
    simp only [findings, List.getElem?_map] at placed
    obtain ⟨operation, found, rfl⟩ := Option.map_eq_some_iff.mp placed
    have inherited : (Extraction.operations config
        ⟨surface :: parent :: rest, unresolved⟩).result[position]? =
        some (operation.inheritedBy surface.name) := by
      rw [operations, List.getElem?_map, found, Option.map_some]
    have gates (policy check : String) :
        (planOf config name (findings catalog config
          ⟨surface :: parent :: rest, unresolved⟩)).Gates position policy check ↔ _ :=
      findings_gates inherited
    refine ⟨?_, ?_, ?_⟩
    · rw [planOf_bound_at]
      simp only [findings, List.getElem?_map, inherited, Option.map_some]
      exact ⟨_, rfl, rfl⟩
    · intro policy check
      rw [gates, checks]
      constructor
      · rintro ⟨_, member, names⟩
        obtain ⟨gate, present, rfl⟩ := List.mem_map.mp member
        exact ⟨gate, present, names⟩
      · rintro ⟨gate, present, names⟩
        exact ⟨_, List.mem_map.mpr ⟨gate, present, rfl⟩, names⟩
    · intro same steady policy check gated
      obtain ⟨gate, present, policies, names, governed, positions, lines⟩ :=
        (findings_gates found).mp gated
      have targeted := Extraction.operations_targeted config _ operation
        (List.mem_of_getElem? found)
      have faces := Operation.inheritedBy_faces targeted steady
      rw [gates, checks]
      refine ⟨gate, List.mem_map.mpr ⟨gate, present, same gate present⟩, policies, names, governed,
        positions, ?_⟩
      exact Binding.linesUp_faces faces lines

/-- A type whose removal is checked on the instance to remove. -/
def staffPerson : Surface where
  name := "Person"
  policies := ["PersonAuth"]
  factory := true
  methods := ["#[factory(delete)] fn delete(&mut self)"]

/-- The policy with that check. -/
def staffPolicy : Surface where
  name := "PersonAuth"
  methods := ["#[authorize(delete)] fn can_delete(&self, person: &Person)"]

/-- A type that extends the first and declares nothing. -/
def staffEmployee : Surface where
  name := "Employee"
  base := some "Person"
  factory := true

/-- The three types. -/
def staffCatalog : Catalog := Catalog.empty.insertAll [staffPerson, staffPolicy, staffEmployee]

/-- The inherited removal of the three types is open, though the check gates it on the base: there
the parameter of the check refers to the type itself, on the derived type it does not. -/
theorem staff_removal_open : ∃ plan derived,
    generate {} staffCatalog "Person" = .ready plan ∧
    generate {} staffCatalog "Employee" = .ready derived ∧
    (derived.methods[0]?.bind PlannedMethod.bound?).map (·.operation.handler) =
      some "Person::delete" ∧
    plan.Gates 0 "PersonAuth" "can_delete" ∧ ¬ derived.Gates 0 "PersonAuth" "can_delete" := by
  have chained : staffCatalog.chain "Person" = .ok ⟨[staffPerson], none⟩ := by decide +kernel
  have derived : staffCatalog.chain "Employee" = .ok ⟨[staffEmployee, staffPerson], none⟩ := by
    decide +kernel
  have gated : (findings staffCatalog {} ⟨[staffPerson], none⟩).bound.map (·.bindings) =
      [[⟨0, [.target]⟩]] ∧
      (findings staffCatalog {} ⟨[staffPerson], none⟩).checks.map (fun check =>
        (check.declaringType, check.method)) = [("PersonAuth", "can_delete")] := by decide +kernel
  have open_ : (findings staffCatalog {} ⟨[staffEmployee, staffPerson], none⟩).bound.map
      (fun bound => (bound.operation.handler, bound.bindings)) = [("Person::delete", [])] := by
    decide +kernel
  obtain ⟨first, bound, firstBindings⟩ := List.map_eq_singleton_iff.mp gated.1
  obtain ⟨gate, checks, gateNames⟩ := List.map_eq_singleton_iff.mp gated.2
  obtain ⟨inherited, openBound, openPair⟩ := List.map_eq_singleton_iff.mp open_
  refine ⟨planOf {} "Person" (findings staffCatalog {} ⟨[staffPerson], none⟩),
    planOf {} "Employee" (findings staffCatalog {} ⟨[staffEmployee, staffPerson], none⟩),
    by rw [generate, chained], by rw [generate, derived], ?_, ?_, ?_⟩
  · rw [planOf_bound_at, openBound, List.getElem?_cons_zero, Option.map_some]
    exact congrArg some (Prod.mk.inj openPair).1
  · rw [planOf_gates, bound, checks]
    refine ⟨first, rfl, ⟨0, [.target]⟩, ?_, gate, rfl, (Prod.mk.inj gateNames).1,
      (Prod.mk.inj gateNames).2⟩
    rw [firstBindings]
    exact List.mem_singleton_self _
  · rw [planOf_gates, openBound]
    rintro ⟨_, placed, binding, member, _⟩
    cases placed
    rw [(Prod.mk.inj openPair).2] at member
    cases member

/-- The types that extend each other are related as their findings are. -/
theorem staff_inherited : staffCatalog.get? "Employee" = some staffEmployee ∧
    staffCatalog.get? "Person" = some staffPerson ∧
    ∃ plan, generate {} staffCatalog "Employee" = .ready plan ∧
      ∃ basePlan, generate {} staffCatalog "Person" = .ready basePlan ∧
        plan.checks = basePlan.checks.map (Check.inheritedBy "Employee") := by
  have derived : staffCatalog.chain "Employee" = .ok ⟨[staffEmployee, staffPerson], none⟩ := by
    decide +kernel
  have declared : staffCatalog.get? "Employee" = some staffEmployee := by decide +kernel
  have known : staffCatalog.get? "Person" = some staffPerson := by decide +kernel
  have made : generate {} staffCatalog "Employee" = .ready
      (planOf {} "Employee" (findings staffCatalog {} ⟨[staffEmployee, staffPerson], none⟩)) := by
    rw [generate, derived]
  obtain ⟨basePlan, madeBase, checks, _⟩ := inherited_gates_iff {} staffCatalog "Employee" "Person"
    staffEmployee staffPerson _ declared rfl known rfl rfl made
  exact ⟨declared, known, _, made, basePlan, madeBase, checks⟩

end Generation

end DomainFactory
