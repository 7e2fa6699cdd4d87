import DomainFactory.Proofs.Overloads

/-!
# Isolation of methods

Each method text of a base chain is read on its own: what it yields and which problems it leaves
does not depend on the texts beside it. Only two things pass from one text to another, the number
of the next method and the list of overloads, and both count what was yielded. So a text that
yields nothing can be taken away, and a text that should yield something leaves a problem behind.
-/
namespace DomainFactory.Extraction

section Single

variable {owning declaring : String} {index : Nat} {signature : Signature}
  {markers : OperationMarkers}

/-- The operation under the number of its method. -/
def numbered (index : Nat) (operation : Operation) : Operation := { operation with index }

/-- The number of a method goes into its operations and nowhere else. -/
theorem operationOf_numbered (owning declaring : String) (index : Nat) (signature : Signature)
    (markers : OperationMarkers) (kind : Kind) :
    operationOf owning declaring index signature markers kind =
      (operationOf owning declaring 0 signature markers kind).map (numbered index) := by
  unfold operationOf
  by_cases receives : ((kind != .execute) != signature.hasReceiver) = true
  · simp only [receives, ↓reduceIte]
    rfl
  · simp only [receives]
    rfl

/-- What a method yields and which problems it leaves does not depend on its number. -/
theorem operationsOf_numbered (index : Nat) :
    (operationsOf owning declaring index signature).result =
        (operationsOf owning declaring 0 signature).result.map (numbered index) ∧
      (operationsOf owning declaring index signature).problems =
        (operationsOf owning declaring 0 signature).problems := by
  unfold operationsOf
  cases signature.operation with
  | none => exact ⟨rfl, rfl⟩
  | some markers =>
    dsimp only
    cases markers.callable.filter (!Syntax.isIdentifier ·) with
    | some callable => exact ⟨rfl, rfl⟩
    | none =>
      have same := operationOf_numbered owning declaring index signature markers
      simp only [List.filterMap_map, List.map_filterMap, Function.comp_def, same]
      refine ⟨List.filterMap_congr fun kind _ => ?_, ?_⟩
      · cases operationOf owning declaring 0 signature markers kind <;> rfl
      · congr 1
        refine List.filterMap_congr fun kind _ => ?_
        cases operationOf owning declaring 0 signature markers kind <;> rfl

/-- A problem that concerns a member of a type. -/
def Concerns (owning : String) (name : Option String) (problem : Diagnostic) : Prop :=
  problem.typeName = owning ∧ problem.member = name

/-- The operation of a kind has that kind, or the problem concerns the method. -/
theorem operationOf_cases (owning declaring : String) (index : Nat) (signature : Signature)
    (markers : OperationMarkers) (kind : Kind) :
    (∃ operation, operationOf owning declaring index signature markers kind = .ok operation ∧
      operation.kind = kind) ∨
    ∃ problem, operationOf owning declaring index signature markers kind = .error problem ∧
      Concerns owning (some signature.name) problem := by
  unfold operationOf
  by_cases receives : ((kind != .execute) != signature.hasReceiver) = true
  · simp only [receives, ↓reduceIte]
    exact .inr ⟨_, rfl, rfl, rfl⟩
  · simp only [receives]
    exact .inl ⟨_, rfl, rfl⟩

/-- A marker without a known kind leaves a problem. -/
theorem markerProblems_of_no_kind (none : markers.kinds = []) :
    ∃ problem ∈ markerProblems owning signature markers,
      Concerns owning (some signature.name) problem := by
  unfold markerProblems
  rw [none]
  cases markers.unknown with
  | nil => exact ⟨_, List.mem_cons_self, rfl, rfl⟩
  | cons name names => exact ⟨_, List.mem_cons_self, rfl, rfl⟩

/-- The operations of a marked method have some of its kinds in order. Where one is missing, or
there is none at all, a problem concerns the method. -/
theorem operationsOf_kinds (owning declaring : String) (index : Nat)
    (marked : signature.operation = some markers) :
    ((operationsOf owning declaring index signature).result.map (·.kind)).Sublist markers.kinds ∧
      ((operationsOf owning declaring index signature).result = [] ∨
          (operationsOf owning declaring index signature).result.map (·.kind) ≠ markers.kinds →
        ∃ problem ∈ (operationsOf owning declaring index signature).problems,
          Concerns owning (some signature.name) problem) := by
  unfold operationsOf
  rw [marked]
  dsimp only
  cases markers.callable.filter (!Syntax.isIdentifier ·) with
  | some callable =>
    exact ⟨List.nil_sublist _, fun _ =>
      ⟨_, List.mem_append_right _ List.mem_cons_self, rfl, rfl⟩⟩
  | none =>
    have kinds : ((markers.kinds.map (operationOf owning declaring index signature
        markers)).filterMap Except.toOption).map (·.kind) =
          markers.kinds.filter fun kind =>
            (operationOf owning declaring index signature markers kind).isOk := by
      rw [List.filterMap_map, List.map_filterMap, ← List.filterMap_eq_filter]
      refine List.filterMap_congr fun kind _ => ?_
      rcases operationOf_cases owning declaring index signature markers kind with
        ⟨operation, made, same⟩ | ⟨problem, made, _⟩
      · simp [Option.guard, made, same, Except.toOption, Except.isOk, Except.toBool]
      · simp [Option.guard, made, Except.toOption, Except.isOk, Except.toBool]
    dsimp only
    rw [kinds]
    refine ⟨List.filter_sublist, fun lacks => ?_⟩
    by_cases all : ∀ kind ∈ markers.kinds,
        (operationOf owning declaring index signature markers kind).isOk = true
    · rw [List.filter_eq_self.mpr all] at kinds lacks
      rcases lacks with none | different
      · rw [none, List.map_nil] at kinds
        obtain ⟨problem, member, concerns⟩ := markerProblems_of_no_kind kinds.symm
        exact ⟨problem, List.mem_append_left _ member, concerns⟩
      · exact absurd rfl different
    · push Not at all
      obtain ⟨kind, listed, fails⟩ := all
      rcases operationOf_cases owning declaring index signature markers kind with
        ⟨operation, made, _⟩ | ⟨problem, made, concerns⟩
      · rw [made] at fails
        exact absurd rfl fails
      · refine ⟨problem, List.mem_append_right _ (List.mem_filterMap.mpr ?_), concerns⟩
        exact ⟨_, List.mem_map.mpr ⟨kind, listed, made⟩, rfl⟩

end Single

section Texts

variable {config : Config} {owning : String} {members : List (String × String)}

/-- The problems that a method text leaves. -/
def problemsIn (config : Config) (owning : String) (member : String × String) : List Diagnostic :=
  (operationsFrom config owning 0 [member]).problems

/-- Whether a method text yields an operation. -/
def yields (config : Config) (owning : String) (member : String × String) : Bool :=
  !(operationsIn config owning 0 member).isEmpty

/-- Whether a method text yields an operation does not depend on its number. -/
theorem operationsIn_isEmpty (index : Nat) (member : String × String) :
    (operationsIn config owning index member).isEmpty = !yields config owning member := by
  unfold yields operationsIn
  rw [Bool.not_not]
  cases Signature.parse config member.2 with
  | error error => rfl
  | ok signature =>
    dsimp only
    rw [(operationsOf_numbered index).1, List.isEmpty_map]

/-- The problems of method texts are those of the single texts in order. -/
theorem operationsFrom_problems (index : Nat) :
    (operationsFrom config owning index members).problems =
      members.flatMap (problemsIn config owning) := by
  induction members generalizing index with
  | nil => rfl
  | cons member members ih =>
    obtain ⟨declaring, text⟩ := member
    rw [List.flatMap_cons, problemsIn]
    unfold operationsFrom
    cases Signature.parse config text with
    | error error => exact congrArg _ (ih index)
    | ok signature =>
      have same : (operationsOf owning declaring index signature).problems =
          (operationsOf owning declaring 0 signature).problems ++ [] :=
        (operationsOf_numbered index).2.trans (List.append_nil _).symm
      exact congrArg₂ (· ++ ·) same (ih _)

/-- Without the texts that yield nothing, the others yield what they did. -/
theorem methodsFrom_filter (index : Nat) :
    methodsFrom config owning index (members.filter (yields config owning)) =
      (methodsFrom config owning index members).filter (!·.isEmpty) := by
  induction members generalizing index with
  | nil => rfl
  | cons member members ih =>
    rw [methodsFrom, List.filter_cons, List.filter_cons, operationsIn_isEmpty, Bool.not_not]
    cases yielded : yields config owning member with
    | false =>
      rw [if_neg Bool.false_ne_true, if_neg Bool.false_ne_true]
      exact ih index
    | true =>
      rw [if_pos rfl, if_pos rfl, methodsFrom, operationsIn_isEmpty, yielded]
      exact congrArg _ (ih (index + 1))

/-- Methods that yield operations are numbered one after another. -/
theorem methodsFrom_numbers {index number : Nat} {found : List Operation}
    (there : ((methodsFrom config owning index members).filter (!·.isEmpty))[number]? =
      some found) : ∀ operation ∈ found, operation.index = index + number := by
  induction members generalizing index number with
  | nil => cases there
  | cons member members ih =>
    rw [methodsFrom, List.filter_cons, operationsIn_isEmpty, Bool.not_not] at there
    cases yielded : yields config owning member with
    | false =>
      rw [yielded] at there
      exact ih there
    | true =>
      rw [yielded, if_pos rfl] at there
      cases number with
      | zero =>
        have first : operationsIn config owning index member = found := Option.some.inj there
        exact fun operation inside => (operationsIn_declares (first ▸ inside)).2
      | succ number =>
        have later := ih there
        intro operation inside
        rw [later operation inside]
        change index + 1 + number = index + (number + 1)
        omega

/-- The operations of a method text are read off its signature. -/
theorem operationsIn_read {index : Nat} {member : String × String} {operation : Operation}
    (inside : operation ∈ operationsIn config owning index member) :
    ∃ signature markers kind,
      operationOf owning member.1 index signature markers kind = .ok operation := by
  unfold operationsIn at inside
  cases parsed : Signature.parse config member.2 with
  | error error =>
    rw [parsed] at inside
    exact absurd inside List.not_mem_nil
  | ok signature =>
    rw [parsed] at inside
    obtain ⟨markers, kind, _, made⟩ := operationsOf_made inside
    exact ⟨signature, markers, kind, made⟩

/-- A write starts with its target, which is of the owning type. -/
theorem methodsFrom_targeted {index : Nat} :
    ∀ operation ∈ (methodsFrom config owning index members).flatten, operation.isWrite = true →
      operation.parameters.head? = some ⟨"target", owning, .selfReference⟩ := by
  induction members generalizing index with
  | nil => exact fun _ inside => absurd inside List.not_mem_nil
  | cons member members ih =>
    intro operation inside writes
    rw [methodsFrom, List.flatten_cons] at inside
    rcases List.mem_append.mp inside with here | later
    · obtain ⟨signature, markers, kind, made⟩ := operationsIn_read here
      unfold operationOf at made
      by_cases receives : ((kind != .execute) != signature.hasReceiver) = true
      · simp only [receives, ↓reduceIte, reduceCtorEq] at made
      · simp only [receives, Bool.false_eq_true, ↓reduceIte, Except.ok.injEq] at made
        subst made
        have written : kind.isWrite = true := writes
        simp only [written, ↓reduceIte, List.singleton_append, List.head?_cons]
    · exact ih operation later writes

/-- What can become of a method text. -/
inductive Fate (config : Config) (owning : String) (member : String × String) :
    List Operation → Prop where
  /-- It is no signature. It yields nothing, and a problem concerns it. -/
  | unreadable {error : SignatureError} (unparsed : Signature.parse config member.2 = .error error)
    (reported : ∃ problem ∈ problemsIn config owning member,
      Concerns owning (likelyName? member.2) problem) : Fate config owning member []
  /-- It is a method without the marker of an operation, and yields nothing. -/
  | unmarked {signature : Signature} (parsed : Signature.parse config member.2 = .ok signature)
    (unmarked : signature.operation = none) : Fate config owning member []
  /-- It is a marked method and yields operations of it with some of the listed kinds. Unless there
  is one for each listed kind, and one at all, a problem concerns it. -/
  | marked {signature : Signature} {markers : OperationMarkers} {found : List Operation}
    (parsed : Signature.parse config member.2 = .ok signature)
    (marked : signature.operation = some markers)
    (declared : ∀ operation ∈ found, Declares member.1 signature operation)
    (kinds : (found.map (·.kind)).Sublist markers.kinds)
    (reported : found = [] ∨ found.map (·.kind) ≠ markers.kinds →
      ∃ problem ∈ problemsIn config owning member,
        Concerns owning (some signature.name) problem) : Fate config owning member found

/-- One of these becomes of each method text. -/
theorem operationsIn_fate (index : Nat) (member : String × String) :
    Fate config owning member (operationsIn config owning index member) := by
  obtain ⟨declaring, text⟩ := member
  cases parsed : Signature.parse config text with
  | error error =>
    have nothing : operationsIn config owning index (declaring, text) = [] := by
      unfold operationsIn
      rw [parsed]
    rw [nothing]
    have left : problemsIn config owning (declaring, text) =
        [⟨.unresolvableSyntax, owning, likelyName? text,
          "member of " ++ ticked declaring ++ " skipped: " ++ error.message⟩] := by
      unfold problemsIn operationsFrom
      rw [parsed]
      rfl
    exact .unreadable parsed ⟨_, left ▸ List.mem_cons_self, rfl, rfl⟩
  | ok signature =>
    have found : operationsIn config owning index (declaring, text) =
        (operationsOf owning declaring index signature).result := by
      unfold operationsIn
      rw [parsed]
    have left : problemsIn config owning (declaring, text) =
        (operationsOf owning declaring index signature).problems := by
      unfold problemsIn operationsFrom
      rw [parsed, (operationsOf_numbered index).2]
      exact List.append_nil _
    cases marked : signature.operation with
    | none =>
      rw [found, operationsOf, marked]
      exact .unmarked parsed marked
    | some markers =>
      obtain ⟨kinds, told⟩ := operationsOf_kinds owning declaring index marked
      rw [← found] at kinds told
      rw [← left] at told
      refine .marked parsed marked (fun operation inside => ?_) kinds told
      obtain ⟨⟨again, also, declares⟩, _⟩ := operationsIn_declares inside
      rw [← Except.ok.inj (parsed.symm.trans also)] at declares
      exact declares

/-- One of these becomes of each of some method texts. -/
theorem methodsFrom_fate (index : Nat) :
    List.Forall₂ (Fate config owning) members (methodsFrom config owning index members) := by
  induction members generalizing index with
  | nil => exact .nil
  | cons member members ih => exact .cons (operationsIn_fate index member) (ih _)

/-- The keys of handlers have no part in this. -/
theorem Fate.keyed {member : String × String} {found : List Operation}
    (fate : Fate config owning member found) (operations : List Operation) :
    Fate config owning member (found.map (keyed operations)) := by
  have kinds : (found.map (Extraction.keyed operations)).map (·.kind) = found.map (·.kind) :=
    List.map_map
  cases fate with
  | unreadable unparsed reported => exact .unreadable unparsed reported
  | unmarked parsed none => exact .unmarked parsed none
  | marked parsed some declared sublist reported =>
    refine .marked parsed some (fun operation inside => ?_) (kinds ▸ sublist) fun lacks => ?_
    · obtain ⟨original, among, rfl⟩ := List.mem_map.mp inside
      obtain ⟨type, method, types⟩ := declared original among
      exact ⟨type, method, types⟩
    · rw [List.map_eq_nil_iff, kinds] at lacks
      exact reported lacks

end Texts

section Chains

variable (config : Config) (chain : Chain)

/-- The name of the type that owns the operations of a base chain. -/
def ownerName : String := (chain.members.head?.map (·.name)).getD ""

/-- A base chain without the method texts that yield nothing. -/
def fruitful : Chain :=
  { chain with
    members := chain.members.map fun surface =>
      { surface with
        methods := surface.methods.filter fun text =>
          yields config (ownerName chain) (surface.name, text) } }

/-- The operations of a base chain are those of its method texts in order, under the keys of their
handlers. -/
theorem operations_byMethod :
    (operations config chain).result = (byMethod config chain).flatten := by
  unfold operations byMethod
  cases chain.members with
  | nil => rfl
  | cons owner rest =>
    dsimp only
    rw [operationsFrom_flatten, ← List.map_flatten]
    rfl

/-- The problems of a base chain begin with an undeclared base, if there is one, and go on with
those of its method texts in order. -/
theorem problemsIn_suffix :
    (memberTexts chain.members).flatMap (problemsIn config (ownerName chain)) <:+
      (operations config chain).problems := by
  unfold operations ownerName
  cases chain.members with
  | nil => exact List.suffix_refl _
  | cons owner rest =>
    dsimp only [List.head?_cons, Option.map_some, Option.getD_some]
    rw [operationsFrom_problems]
    exact List.suffix_append _ _

/-- The operations of each method text of a base chain. -/
theorem byMethod_eq : byMethod config chain =
    (methodsFrom config (ownerName chain) 0 (memberTexts chain.members)).map
      (·.map (keyed
        (methodsFrom config (ownerName chain) 0 (memberTexts chain.members)).flatten)) := by
  unfold byMethod ownerName
  cases chain.members <;> rfl

/-- The method texts of a fruitful chain are those that yield operations. -/
theorem memberTexts_fruitful : memberTexts (fruitful config chain).members =
    (memberTexts chain.members).filter (yields config (ownerName chain)) := by
  unfold memberTexts fruitful
  rw [List.flatMap_map, List.filter_flatMap]
  refine List.flatMap_congr fun surface _ => ?_
  rw [List.filter_map, Function.comp_def]

/-- A base chain keeps its owner without the texts that yield nothing. -/
theorem ownerName_fruitful : ownerName (fruitful config chain) = ownerName chain := by
  unfold ownerName fruitful
  cases chain.members <;> rfl

/-- A method text costs only itself: what becomes of each text of a base chain, and how little the
others take notice of it. -/
structure Isolated : Prop where
  /-- The operations are unchanged without the texts that yield nothing. -/
  unaffected : (operations config (fruitful config chain)).result = (operations config chain).result
  /-- They are those of the texts, in chain and declaration order. -/
  listed : (operations config chain).result = (byMethod config chain).flatten
  /-- A text yields nothing where it asks for nothing, and else operations of some of the kinds that
  it lists; where it cannot be read or does not yield all of them, it leaves a problem. -/
  fates : List.Forall₂ (Fate config (ownerName chain)) (memberTexts chain.members)
    (byMethod config chain)
  /-- The problems that the texts leave are recorded. -/
  recorded : (memberTexts chain.members).flatMap (problemsIn config (ownerName chain)) <:+
    (operations config chain).problems
  /-- The methods that yield operations are numbered from zero on, and their operations have these
  numbers. -/
  counted : ∀ (number : Nat) (found : List Operation),
    ((byMethod config chain).filter (!·.isEmpty))[number]? = some found →
      ∀ operation ∈ found, operation.index = number
  /-- Every write starts with its target, which is of the owning type. -/
  targeted : ∀ operation ∈ (operations config chain).result, operation.isWrite = true →
    operation.parameters.head? = some ⟨"target", ownerName chain, .selfReference⟩

/-- In every base chain a method text costs only itself. -/
theorem methods_isolated : Isolated config chain := by
  let methods := methodsFrom config (ownerName chain) 0 (memberTexts chain.members)
  have rows : byMethod config chain = methods.map (·.map (keyed methods.flatten)) :=
    byMethod_eq config chain
  constructor
  case unaffected =>
    rw [operations_byMethod, operations_byMethod, rows, byMethod_eq, ownerName_fruitful,
      memberTexts_fruitful, methodsFrom_filter]
    -- Handler keys depend on the operations as a whole, and these are the same with and without
    -- the empty rows.
    change ((methods.filter (!·.isEmpty)).map
      (·.map (keyed (methods.filter (!·.isEmpty)).flatten))).flatten = _
    rw [← List.map_flatten, ← List.map_flatten, List.flatten_filter_not_isEmpty]
  case listed => exact operations_byMethod config chain
  case fates =>
    rw [rows, List.forall₂_map_right_iff]
    exact (methodsFrom_fate 0).imp fun _ _ fate => fate.keyed _
  case recorded => exact problemsIn_suffix config chain
  case counted =>
    intro number found there
    rw [rows, List.filter_map, List.getElem?_map] at there
    obtain ⟨originals, here, rfl⟩ := Option.map_eq_some_iff.mp there
    have kept : ((!·.isEmpty) ∘ fun found : List Operation => found.map (keyed methods.flatten)) =
        (!·.isEmpty) := by
      funext found
      rw [Function.comp_apply, List.isEmpty_map]
    rw [kept] at here
    intro operation inside
    obtain ⟨original, among, rfl⟩ := List.mem_map.mp inside
    have number := methodsFrom_numbers here original among
    rwa [Nat.zero_add] at number
  case targeted =>
    rw [operations_byMethod, rows, ← List.map_flatten]
    intro operation inside writes
    obtain ⟨original, among, rfl⟩ := List.mem_map.mp inside
    exact methodsFrom_targeted original among writes

end Chains

end DomainFactory.Extraction
