import DomainFactory.Proofs.Rendering

/-!
# Functions of facades

The implementation in a facade declares the function `new`, which makes a facade of a factory, and
the functions of the planned methods. The names of the latter are claimed one after another, so they
are distinct; but no one claims the name of the former, and a raw name is claimed apart from the
plain one that spells the same word. So all functions have distinct names exactly when no operation
asks for the name `new`, and spell distinct words when no two names part in their marks alone.
-/
namespace DomainFactory

open Syntax Text

namespace Facade

/-- The members of the implementation among tokens: what stands in the braces behind `impl` and a
name. -/
def implementation : List Token → List Token
  | .word "impl" :: .word _ :: .group .brace members :: _ => members
  | _ :: tokens => implementation tokens
  | [] => []

/-- The names of the functions among members: the words behind `fn`. -/
def functionNames : List Token → List String
  | .word "fn" :: .word name :: tokens => name :: functionNames tokens
  | _ :: tokens => functionNames tokens
  | [] => []

/-- The names of the functions that the implementation in a facade declares. -/
def declared (facade : Facade) : List String := functionNames (implementation facade.tokens)

/-- Whether a token is another one than a word. -/
def isOther (keyword : String) : Token → Bool
  | .word text => text != keyword
  | _ => true

/-- No implementation begins with another token. -/
theorem implementation_cons {token : Token} (other : isOther "impl" token = true)
    (tokens : List Token) : implementation (token :: tokens) = implementation tokens := by
  rw [implementation.eq_def]
  split
  next same =>
    cases same
    cases other
  next same =>
    cases same
    rfl
  next same => cases same

/-- No function is declared with another token. -/
theorem functionNames_cons {token : Token} (other : isOther "fn" token = true)
    (tokens : List Token) : functionNames (token :: tokens) = functionNames tokens := by
  rw [functionNames.eq_def]
  split
  next same =>
    cases same
    cases other
  next same =>
    cases same
    rfl
  next same => cases same

/-- The implementation stands behind all other tokens. -/
theorem implementation_behind {front : List Token} (others : front.all (isOther "impl") = true)
    (tokens : List Token) : implementation (front ++ tokens) = implementation tokens := by
  induction front with
  | nil => rfl
  | cons token front ih =>
    rw [List.all_cons, Bool.and_eq_true] at others
    rw [List.cons_append, implementation_cons others.1, ih others.2]

/-- Functions are declared behind all other tokens. -/
theorem functionNames_behind {front : List Token} (others : front.all (isOther "fn") = true)
    (tokens : List Token) : functionNames (front ++ tokens) = functionNames tokens := by
  induction front with
  | nil => rfl
  | cons token front ih =>
    rw [List.all_cons, Bool.and_eq_true] at others
    rw [List.cons_append, functionNames_cons others.1, ih others.2]

/-- The word behind `fn` names a function. -/
theorem functionNames_fn (name : String) (tokens : List Token) :
    functionNames (.word "fn" :: .word name :: tokens) = name :: functionNames tokens := rfl

/-- The tokens of a function declare it. -/
theorem functionNames_functionTokens (function : FacadeFunction) (tokens : List Token) :
    functionNames (functionTokens function ++ tokens) =
      function.name :: functionNames tokens := by
  obtain ⟨signature, body, split⟩ : ∃ signature body, functionTokens function =
      [.word "pub", .word "async"] ++ .word "fn" :: .word function.name ::
        ([.group .paren signature] ++ pieces "-> :: std :: result :: Result <" ++
          pieces function.entry.resultType ++ pieces ", :: opfactory_runtime :: FactoryError >" ++
            [.group .brace body]) := ⟨_, _, rfl⟩
  have result : (pieces function.entry.resultType).all (isOther "fn") = true := by
    cases function.entry <;> rfl
  rw [split, List.append_assoc, functionNames_behind rfl, List.cons_append, List.cons_append,
    functionNames_fn, functionNames_behind]
  rw [List.all_append, List.all_append, List.all_append, result]
  rfl

/-- The tokens of functions declare them, one after another. -/
theorem functionNames_functions (functions : List FacadeFunction) :
    functionNames (functions.flatMap functionTokens) = functions.map FacadeFunction.name := by
  induction functions with
  | nil => rfl
  | cons function functions ih =>
    rw [List.flatMap_cons, functionNames_functionTokens, ih, List.map_cons]

/-- The members of a facade declare the function that makes it, and its functions. -/
theorem functionNames_members (facade : Facade) : functionNames (tokens.members facade) =
    "new" :: facade.functions.map FacadeFunction.name := by
  obtain ⟨identities, inner, split⟩ : ∃ identities inner, tokens.members facade =
      (remark " Dispatch identities served by this factory." ++
        pieces "pub const OPERATIONS : & 'static" ++ [.group .bracket (pieces "& 'static str")] ++
        pieces "= &" ++ [.group .bracket identities, .word ";"] ++
        attributeTokens [.word "must_use"] ++ [.word "pub"]) ++ .word "fn" :: .word "new" ::
          ([.group .paren inner, .word "->", .word "Self",
            .group .brace [.word "Self", .group .brace [.word "inner"]]] ++
              facade.functions.flatMap functionTokens) := ⟨_, _, rfl⟩
  rw [split, functionNames_behind rfl, functionNames_fn, functionNames_behind rfl,
    functionNames_functions]

/-- The implementation in a facade has the members of the facade. -/
theorem implementation_tokens (facade : Facade) :
    implementation facade.tokens = tokens.members facade := by
  obtain ⟨title, fields, behind, split⟩ : ∃ title fields behind, facade.tokens =
      (attributeTokens title ++ attributeTokens [.word "derive", .group .paren [.word "Clone"]] ++
        pieces "pub struct") ++ .word facade.name :: .group .brace fields :: .word "impl" ::
          .word facade.name :: .group .brace (tokens.members facade) :: behind :=
    ⟨_, _, _, rfl⟩
  rw [split, implementation_behind rfl]
  -- Also a facade with the name `impl` has its braces right behind its first name.
  by_cases keyword : facade.name = "impl"
  · rw [keyword]
    rfl
  · have other : isOther "impl" (.word facade.name) = true := by
      simpa only [isOther, bne_iff_ne, ne_eq] using keyword
    rw [implementation_cons other]
    rfl

/-- A facade declares the function that makes it, and its functions. -/
theorem declared_eq (facade : Facade) :
    facade.declared = "new" :: facade.functions.map FacadeFunction.name := by
  unfold declared
  rw [implementation_tokens, functionNames_members]

end Facade

/-- The name of the save that reports denial, when the method has one. -/
def PlannedMethod.attempt? (method : PlannedMethod) : Option String :=
  match method.body with
  | .save _ _ _ tryName => tryName
  | _ => none

/-- The names of the functions of the methods of a plan: one for each method, and one for each save
that reports denial. -/
def Plan.functionNames (plan : Plan) : List String :=
  plan.methods.flatMap fun method => method.name :: method.attempt?.toList

/-- Some read or write of a plan asks for a name. -/
def Plan.Asks (plan : Plan) (name : String) : Prop :=
  ∃ method ∈ plan.methods, ∃ operation bindings,
    method.body = .run operation bindings ∧ operation.publicName = name

/-- A method has a function with its name, and one more if it is a save that reports denial. -/
theorem FacadeFunction.ofMethod_names {method : PlannedMethod} (fits : method.Fits) :
    (ofMethod method).map FacadeFunction.name = method.name :: method.attempt?.toList := by
  unfold PlannedMethod.Fits at fits
  unfold ofMethod PlannedMethod.attempt?
  cases body : method.body with
  | run operation bindings =>
    rw [body] at fits
    dsimp only at fits
    rw [fits]
    cases operation.isWrite <;> rfl
  | save insert update delete tryName =>
    rw [body] at fits
    dsimp only at fits
    rw [fits]
    cases tryName <;> rfl
  | probe wraps operation bindings =>
    rw [body] at fits
    dsimp only at fits
    rw [fits]
    rfl

/-- The facade of a plan declares the function that makes it, and the functions of the methods. -/
theorem Facade.declared_ofPlan {plan : Plan} (fits : ∀ method ∈ plan.methods, method.Fits) :
    (ofPlan plan).declared = "new" :: plan.functionNames := by
  rw [declared_eq]
  unfold ofPlan Plan.functionNames
  rw [List.map_flatMap]
  congr 1
  exact List.flatMap_congr fun method member => FacadeFunction.ofMethod_names (fits method member)

namespace Naming

/-- A name without digits is claimed for itself. -/
theorem eq_of_suffixed {base name : String} {number : Nat}
    (bare : name.toList.any Char.isDigit = false) (given : name = suffixed base number) :
    base = name := by
  obtain ⟨ending, whole, digits⟩ := exists_suffixed base number
  rw [whole] at given
  have empty : ending = "" := by
    rcases chars : ending.toList with _ | ⟨digit, more⟩
    · exact String.toList_eq_nil_iff.mp chars
    · have behind : digit ∈ ending.toList := chars ▸ List.mem_cons_self
      have among : digit ∈ name.toList := by
        rw [given, String.toList_append]
        exact List.mem_append_right _ behind
      exact absurd (digits digit behind) (List.any_eq_false.mp bare digit among)
  rw [given, empty, String.append_empty]

/-- The base for which a method is named is the name of some method. -/
theorem ClaimedInOrder.wanted_mem {config : Config} {specs : List MethodSpec}
    {slots : List NameSlot} (ordered : ClaimedInOrder config specs slots) {position : Nat}
    {spec : MethodSpec} (found : specs[position]? = some spec) :
    wanted config specs spec ∈
      specs.map MethodSpec.name ++ specs.filterMap MethodSpec.tryName? := by
  have member {slot : NameSlot} {name : String} (named : slot.name? specs = some name) :
      name ∈ specs.map MethodSpec.name ++ specs.filterMap MethodSpec.tryName? := by
    cases slot with
    | own position =>
      obtain ⟨spec, there, rfl⟩ := Option.map_eq_some_iff.mp named
      exact List.mem_append_left _ (List.mem_map_of_mem (List.mem_of_getElem? there))
    | attempt position =>
      obtain ⟨spec, there, tried⟩ := Option.bind_eq_some_iff.mp named
      refine List.mem_append_right _ ?_
      exact List.mem_filterMap.mpr ⟨spec, List.mem_of_getElem? there, tried⟩
  have named : (NameSlot.own position).name? specs = some spec.name := by
    rw [NameSlot.name?, found, Option.map_some]
  have based : (NameSlot.own position).base? config specs = some (wanted config specs spec) := by
    rw [NameSlot.base?, found, Option.map_some]
  obtain ⟨_, number, suffix, _, least⟩ := ordered.claims based named
  by_cases zero : number = 0
  · rw [zero, Naming.suffixed, if_pos rfl] at suffix
    rw [← suffix]
    exact member named
  · -- The name got a number, since another slot in front has the base.
    have taken := least 0 (Nat.pos_of_ne_zero zero)
    rw [Naming.suffixed, if_pos rfl] at taken
    obtain ⟨slot, _, has⟩ := List.mem_filterMap.mp taken
    exact member has

end Naming

namespace Generation

variable {config : Config} {typeName : String} {found : Findings}

/-- The names of the functions of a plan are those of its methods and those under which saves
report denial. -/
theorem planOf_functionNames (config : Config) (typeName : String) (found : Findings) :
    (planOf config typeName found).functionNames.Perm
      ((resolved config typeName found).map MethodSpec.name ++
        (resolved config typeName found).filterMap MethodSpec.tryName?) := by
  have names (spec : MethodSpec) :
      (Plan.methodOf typeName (resolved config typeName found) spec).attempt? = spec.tryName? := by
    cases spec <;> rfl
  unfold Plan.functionNames
  rw [planOf_methods, List.flatMap_map]
  simp only [Plan.methodOf_name, names]
  rw [List.filterMap_eq_flatMap_toList]
  exact (List.map_append_flatMap_perm _ _ _).symm

/-- Functions of a plan have distinct names. -/
theorem planOf_functionNames_nodup (config : Config) (typeName : String) (found : Findings) :
    (planOf config typeName found).functionNames.Nodup :=
  (planOf_functionNames config typeName found).nodup_iff.mpr
    (resolved_settled config typeName found).distinct

/-- The name that an operation asks for is the name of some function. -/
theorem planOf_asks {name : String} (asks : (planOf config typeName found).Asks name) :
    name ∈ (planOf config typeName found).functionNames := by
  obtain ⟨method, member, operation, bindings, body, rfl⟩ := asks
  rw [planOf_methods] at member
  obtain ⟨spec, present, rfl⟩ := List.mem_map.mp member
  obtain ⟨position, there⟩ := List.mem_iff_getElem?.mp present
  obtain ⟨slots, ordered⟩ :=
    (resolved_settled config typeName found).claimed
  have named := ordered.wanted_mem there
  rw [(planOf_functionNames config typeName found).mem_iff]
  cases spec with
  | read title bound | write title bound =>
    cases body
    exact named
  | save save => cases body
  | probe probe => cases body

/-- With the default settings a function has a name without digits that does not begin like those
of probes and saves only if an operation asks for it. -/
theorem planOf_asks_iff {name : String} (bare : name.toList.any Char.isDigit = false)
    (other : name.toList.head? ∉ [some 'c', some 's', some 't']) :
    name ∈ (planOf {} typeName found).functionNames ↔ (planOf {} typeName found).Asks name := by
  refine ⟨fun among => ?_, planOf_asks⟩
  obtain ⟨method, member, named⟩ := List.mem_flatMap.mp among
  have begins {front more : String} (given : front ++ more = name) :
      (front.toList ++ more.toList).head? ∉ [some 'c', some 's', some 't'] := by
    rw [← String.toList_append, given]
    exact other
  rcases List.mem_cons.mp named with rfl | attempted
  · cases planOf_derives member with
    | runs operation bindings number body derived =>
      exact ⟨method, member, operation, bindings, body, Naming.eq_of_suffixed bare derived⟩
    | asks wraps operation bindings inner number body derived =>
      refine absurd ?_ (begins (Naming.eq_of_suffixed bare derived))
      exact List.mem_of_getElem? (i := 0) rfl
    | saves insert update delete tryName number body derived attempt =>
      have saved : "save" ++ "" = method.name := Naming.eq_of_suffixed bare derived
      refine absurd ?_ (begins saved)
      exact List.mem_of_getElem? (i := 1) rfl
  · cases planOf_derives member with
    | runs operation bindings number body derived =>
      rw [PlannedMethod.attempt?, body] at attempted
      cases attempted
    | asks wraps operation bindings inner number body derived =>
      rw [PlannedMethod.attempt?, body] at attempted
      cases attempted
    | saves insert update delete tryName number body derived attempt =>
      rw [PlannedMethod.attempt?, body] at attempted
      obtain ⟨number, tried⟩ := attempt name (Option.mem_toList.mp attempted)
      refine absurd ?_ (begins (Naming.eq_of_suffixed bare tried))
      exact List.mem_of_getElem? (i := 2) rfl

end Generation

/-- The word that a name spells, without the mark of a raw one. -/
def spelling (name : String) : List Char := (after? ['r', '#'] name.toList).getD name.toList

/-- A raw name spells the word behind its mark. -/
theorem spelling_raw (word : String) : spelling ("r#" ++ word) = word.toList := by
  have marked : after? ['r', '#'] ("r#" ++ word).toList = some word.toList :=
    after?_eq_some_iff.mpr String.toList_append
  rw [spelling, marked, Option.getD_some]

namespace Syntax.IsPlainWord

variable {word : String}

/-- A plain name is no raw one. -/
theorem ne_raw (plain : IsPlainWord word) (other : String) : word ≠ "r#" ++ other := by
  rintro rfl
  have mark : '#' ∈ ("r#" ++ other).toList := by
    rw [String.toList_append]
    exact List.mem_append_left _ (by decide)
  exact absurd (plain.parts mark) (by decide)

/-- A plain name spells itself. -/
theorem spelling_eq (plain : IsPlainWord word) : spelling word = word.toList := by
  unfold spelling
  cases marked : after? ['r', '#'] word.toList with
  | none => rfl
  | some behind =>
    refine absurd ?_ (plain.ne_raw (String.ofList behind))
    rw [← String.toList_inj, String.toList_append, String.toList_ofList (l := behind),
      after?_eq_some_iff.mp marked]
    rfl

end Syntax.IsPlainWord

/-- Two names spell one word when they are the same up to the mark of a raw one. -/
theorem spelling_eq_iff {left right : String} (here : IsWord left) (there : IsWord right) :
    spelling left = spelling right ↔
      left = right ∨ left = "r#" ++ right ∨ right = "r#" ++ left := by
  have raws {front behind : String} : "r#" ++ front = "r#" ++ behind ↔ front = behind :=
    String.append_right_inj _
  rcases isWord_iff.mp here with plain | ⟨word, rfl, plain, _⟩
  · rw [plain.spelling_eq]
    rcases isWord_iff.mp there with bare | ⟨other, rfl, bare, _⟩
    · rw [bare.spelling_eq, String.toList_inj, or_iff_left]
      exact not_or.mpr ⟨plain.ne_raw right, bare.ne_raw left⟩
    · rw [spelling_raw, String.toList_inj, raws, or_iff_right (plain.ne_raw other),
        or_iff_right (plain.ne_raw _), eq_comm]
  · rw [spelling_raw]
    rcases isWord_iff.mp there with bare | ⟨other, rfl, bare, _⟩
    · rw [bare.spelling_eq, String.toList_inj, raws, or_iff_right (bare.ne_raw word).symm,
        or_iff_left (bare.ne_raw _)]
    · rw [spelling_raw, String.toList_inj, raws, raws, raws, or_iff_left]
      exact not_or.mpr ⟨plain.ne_raw other, bare.ne_raw word⟩

/-- A raw name and a plain one can spell one word. -/
example : spelling "r#create" = spelling "create" := by decide +kernel

/-- Distinct names spell distinct words when none of them is the raw form of another. -/
theorem spelling_nodup_iff {names : List String} (words : ∀ name ∈ names, IsWord name)
    (distinct : names.Nodup) :
    (names.map spelling).Nodup ↔ ∀ name ∈ names, "r#" ++ name ∉ names := by
  rw [List.nodup_map_iff_inj_on distinct]
  constructor
  · intro injective name among raw
    have same : "r#" ++ name = name := injective _ raw name among
      ((spelling_eq_iff (words _ raw) (words name among)).mpr (Or.inr (Or.inl rfl)))
    have longer := congrArg String.length same
    rw [String.length_append] at longer
    have mark : "r#".length = 2 := rfl
    omega
  · intro apart left here right there same
    rcases (spelling_eq_iff (words left here) (words right there)).mp same with
      equal | rfl | rfl
    · exact equal
    · exact absurd here (apart right there)
    · exact absurd there (apart left here)

/-- A plain name spells a word that some names spell when it is among them, plain or raw. -/
theorem spelling_mem_iff {names : List String} (words : ∀ name ∈ names, IsWord name)
    {word : String} (plain : IsPlainWord word) :
    spelling word ∈ names.map spelling ↔ word ∈ names ∨ "r#" ++ word ∈ names := by
  rw [List.mem_map]
  constructor
  · rintro ⟨name, among, same⟩
    rcases (spelling_eq_iff (words name among) plain.isWord).mp same with rfl | rfl | raw
    · exact Or.inl among
    · exact Or.inr among
    · exact absurd raw (plain.ne_raw name)
  · rintro (among | among)
    · exact ⟨word, among, rfl⟩
    · exact ⟨"r#" ++ word, among, (spelling_raw word).trans plain.spelling_eq.symm⟩

/-- The functions of the methods have words as names in a facade that can be printed. -/
theorem Plan.functionNames_words {plan : Plan} (fits : ∀ method ∈ plan.methods, method.Fits)
    (printed : (Facade.ofPlan plan).text?.isSome = true) :
    ∀ name ∈ plan.functionNames, IsWord name := by
  obtain ⟨_, words⟩ := (Facade.text_isSome_iff fits).mp printed
  intro name among
  obtain ⟨method, member, named⟩ := List.mem_flatMap.mp among
  rcases List.mem_cons.mp named with rfl | attempted
  · exact (words method member).name
  · have tried := Option.mem_toList.mp attempted
    unfold PlannedMethod.attempt? at tried
    split at tried
    next insert update delete tryName body =>
      cases tried
      exact (words method member).attempt body
    next => cases tried

/-- When the functions in the facade of a plan have names of their own. -/
structure Plan.DeclaresFunctions (plan : Plan) : Prop where
  /-- The functions are the one that makes the facade, and those of the methods. -/
  declared : (Facade.ofPlan plan).declared = "new" :: plan.functionNames
  /-- The functions of the methods have distinct names. -/
  distinct : plan.functionNames.Nodup
  /-- All functions have distinct names when no operation asks for the name of the first. -/
  apart : (Facade.ofPlan plan).declared.Nodup ↔ ¬ plan.Asks "new"
  /-- Their names spell distinct words when, beyond that, no operation asks for that name in its raw
  form, and no function has the raw form of the name of another. -/
  spelled : ((Facade.ofPlan plan).declared.map spelling).Nodup ↔
    ¬ (plan.Asks "new" ∨ plan.Asks "r#new") ∧
      ∀ name ∈ plan.functionNames, "r#" ++ name ∉ plan.functionNames

namespace Generation

/-- When the functions have names of their own in the facade of a plan that is generated with the
default settings and can be printed. -/
theorem generate_declares_functions {catalog : Catalog} {typeName : String} {plan : Plan}
    (made : generate {} catalog typeName = .ready plan)
    (printed : (Facade.ofPlan plan).text?.isSome = true) : plan.DeclaresFunctions := by
  obtain ⟨chain, _, rfl⟩ := of_generate_ready made
  have fits : ∀ method ∈ (planOf {} typeName (findings catalog {} chain)).methods, method.Fits :=
    fun _ => planOf_fits {} typeName _
  have declared := Facade.declared_ofPlan fits
  have distinct := planOf_functionNames_nodup {} typeName (findings catalog {} chain)
  have words := Plan.functionNames_words fits printed
  have fresh : "new" ∈ (planOf {} typeName (findings catalog {} chain)).functionNames ↔
      (planOf {} typeName (findings catalog {} chain)).Asks "new" :=
    planOf_asks_iff (by decide) (by decide)
  have marked : "r#" ++ "new" ∈ (planOf {} typeName (findings catalog {} chain)).functionNames ↔
      (planOf {} typeName (findings catalog {} chain)).Asks "r#new" :=
    planOf_asks_iff (by decide) (by decide)
  refine ⟨declared, distinct, ?_, ?_⟩
  · rw [declared, List.nodup_cons, fresh]
    exact and_iff_left distinct
  · rw [declared, List.map_cons, List.nodup_cons, spelling_mem_iff words (by decide), fresh, marked,
      spelling_nodup_iff words distinct]

/-- The functions in the facade of the sample have names of their own. -/
theorem sample_declares_functions :
    (Facade.ofPlan samplePlan).declared =
      ["new", "fetch", "delete", "save", "try_save", "can_fetch"] ∧
    ((Facade.ofPlan samplePlan).declared.map spelling).Nodup := by
  have printed : (Facade.ofPlan samplePlan).text?.isSome = true := by decide +kernel
  have declares : samplePlan.DeclaresFunctions :=
    generate_declares_functions sample_generated printed
  have asked {name : String} (asks : samplePlan.Asks name) : name ∈ ["fetch", "delete"] := by
    obtain ⟨method, member, operation, bindings, body, rfl⟩ := asks
    simp only [samplePlan, List.mem_cons, List.not_mem_nil, or_false] at member
    rcases member with rfl | rfl | rfl | rfl <;> cases body <;> decide
  refine ⟨declares.declared, declares.spelled.mpr ⟨?_, by decide +kernel⟩⟩
  rintro (plain | raw)
  · exact absurd (asked plain) (by decide)
  · exact absurd (asked raw) (by decide)

/-- A type with a method of the name that the facade itself uses. -/
def freshPerson : Surface where
  name := "Person"
  factory := true
  methods := ["#[factory(create)] fn new(&mut self)"]

/-- The facade of that type can be printed, and declares two functions of one name. -/
theorem fresh_declared_twice : ∃ plan,
    generate {} (Catalog.empty.insert freshPerson) "Person" = .ready plan ∧
      (Facade.ofPlan plan).text?.isSome = true ∧
      (Facade.ofPlan plan).declared = ["new", "new"] := by
  have chained : (Catalog.empty.insert freshPerson).chain "Person" =
      .ok ⟨[freshPerson], none⟩ := by decide +kernel
  have ordered : ((Naming.positioned (Synthesis.synthesize "Person"
      (findings (Catalog.empty.insert freshPerson) {} ⟨[freshPerson], none⟩).bound).result).filter
        (!·.2.isProbe)).Pairwise fun left right => Naming.namedBefore left right = true := by
    decide +kernel
  refine ⟨planOf {} "Person" (findings (Catalog.empty.insert freshPerson) {}
    ⟨[freshPerson], none⟩), by rw [generate, chained], ?_, ?_⟩
  · simp only [planOf, Naming.resolve, Naming.namePrimary_ordered {} ordered]
    decide +kernel
  · simp only [planOf, Naming.resolve, Naming.namePrimary_ordered {} ordered]
    decide +kernel

end Generation

end DomainFactory
