import DomainFactory.Proofs.Crossing
import DomainFactory.Proofs.Functions
import DomainFactory.Proofs.Supplying

/-!
# Names of parameters

A placeholder among the parameters of a method is named by its position, and nobody asks whether
the method gives that name to another parameter. So a signature keeps distinct names exactly when it
does not. The names decide how many of the services of an operation are kept, and whether the
functions of a facade have distinct parameters; for those that take a target its name must not be
given, either.
-/
namespace DomainFactory

open Syntax Text

/-- How a parameter gets its name. -/
inductive ParameterName where
  /-- The method gives it. -/
  | given (name : String)
  /-- It is a placeholder, and named by its position. -/
  | numbered (position : Nat)
deriving DecidableEq, Repr

namespace ParameterName

/-- The name of a parameter. -/
def text : ParameterName → String
  | .given name => name
  | .numbered position => "arg" ++ toString position

/-- The name that a method gives. -/
def given? : ParameterName → Option String
  | .given name => some name
  | .numbered _ => none

/-- The position of a placeholder. -/
def position? : ParameterName → Option Nat
  | .given _ => none
  | .numbered position => some position

/-- The ways to compare names: by their texts, and by the words they spell. -/
def readings : List (String → List Char) := [String.toList, spelling]

/-- No given name is read like that of a placeholder. -/
def Apart (read : String → List Char) (names : List ParameterName) : Prop :=
  ∀ position name, .numbered position ∈ names → .given name ∈ names →
    read name ≠ read ("arg" ++ toString position)

variable {read : String → List Char}

/-- Plain names are read as they are. -/
theorem read_plain (reading : read ∈ readings) {name : String} (plain : IsPlainWord name) :
    read name = name.toList := by
  simp only [readings, List.mem_cons, List.not_mem_nil, or_false] at reading
  rcases reading with rfl | rfl
  · rfl
  · exact plain.spelling_eq

/-- The name of a placeholder is plain. -/
theorem numbered_plain (position : Nat) : IsPlainWord ("arg" ++ toString position) :=
  (isPlainWord_append (by decide) fun _ member =>
    isIdentifierPart_of_isDigit (isDigit_of_mem_toString member)).mpr (by decide)

/-- Placeholders are read alike only at one position. -/
theorem numbered_inj (reading : read ∈ readings) {left right : Nat}
    (same : read ("arg" ++ toString left) = read ("arg" ++ toString right)) : left = right := by
  rw [read_plain reading (numbered_plain left), read_plain reading (numbered_plain right),
    String.toList_inj, String.append_right_inj] at same
  exact Nat.repr_inj.mp same

/-- No placeholder is read like the target. -/
theorem numbered_ne_target (reading : read ∈ readings) (position : Nat) :
    read ("arg" ++ toString position) ≠ read "target" := by
  rw [read_plain reading (numbered_plain position), read_plain reading (by decide),
    String.toList_append]
  exact fun same => absurd (List.cons.inj same).1 (by decide)

/-- The given names among some. -/
theorem mem_given {name : String} {names : List ParameterName} :
    name ∈ names.filterMap given? ↔ .given name ∈ names := by
  rw [List.mem_filterMap]
  constructor
  · rintro ⟨given | _, member, ⟨⟩⟩
    exact member
  · exact fun member => ⟨_, member, rfl⟩

/-- The positions of the placeholders among some. -/
theorem mem_positions {position : Nat} {names : List ParameterName} :
    position ∈ names.filterMap position? ↔ .numbered position ∈ names := by
  rw [List.mem_filterMap]
  constructor
  · rintro ⟨_ | numbered, member, ⟨⟩⟩
    exact member
  · exact fun member => ⟨_, member, rfl⟩

/-- What is read among names is read of a given one or of a placeholder. -/
theorem mem_read {word : List Char} {names : List ParameterName} :
    word ∈ (names.map text).map read ↔ (∃ name, .given name ∈ names ∧ read name = word) ∨
      ∃ position, .numbered position ∈ names ∧ read ("arg" ++ toString position) = word := by
  simp only [List.map_map, List.mem_map, Function.comp_apply]
  constructor
  · rintro ⟨name | position, member, same⟩
    · exact Or.inl ⟨name, member, same⟩
    · exact Or.inr ⟨position, member, same⟩
  · rintro (⟨_, member, same⟩ | ⟨_, member, same⟩)
    · exact ⟨_, member, same⟩
    · exact ⟨_, member, same⟩

/-- Names are distinct, when those that the method gives are, exactly if none of these is that of a
placeholder. -/
theorem nodup_iff (reading : read ∈ readings) {names : List ParameterName}
    (given : ((names.filterMap given?).map read).Nodup)
    (positions : (names.filterMap position?).Nodup) :
    ((names.map text).map read).Nodup ↔ Apart read names := by
  induction names with
  | nil => simp [Apart]
  | cons name names ih =>
    rw [List.map_cons, List.map_cons, List.nodup_cons, mem_read, not_or]
    cases name with
    | given name =>
      obtain ⟨free, given⟩ := List.nodup_cons.mp given
      have own : ¬ ∃ other, .given other ∈ names ∧ read other = read name := by
        rintro ⟨other, member, same⟩
        exact free (List.mem_map.mpr ⟨other, mem_given.mpr member, same⟩)
      simp only [ih given positions, text, own, Apart, List.mem_cons, reduceCtorEq, false_or,
        ParameterName.given.injEq]
      grind
    | numbered position =>
      obtain ⟨free, positions⟩ := List.nodup_cons.mp positions
      have own : ¬ ∃ other, .numbered other ∈ names ∧
          read ("arg" ++ toString other) = read ("arg" ++ toString position) := by
        rintro ⟨other, member, same⟩
        exact free (numbered_inj reading same ▸ mem_positions.mpr member)
      simp only [ih given positions, text, own, Apart, List.mem_cons, reduceCtorEq, false_or,
        ParameterName.numbered.injEq]
      grind

end ParameterName

namespace Signature

/-- How parameters get their names, by their parts counted from a position. -/
def namesFrom : Nat → List (List Tree) → List ParameterName
  | _, [] => []
  | position, trees :: rest =>
    match Tree.part? .type trees, Tree.part? .binding trees with
    | none, _ => namesFrom (position + 1) rest
    | some _, some binding =>
      .given (Tree.text ((Tree.part? .name binding).getD [])) :: namesFrom (position + 1) rest
    | some _, none => .numbered position :: namesFrom (position + 1) rest

/-- How the parameters in the text of a method get their names. -/
def written (text : String) : List ParameterName :=
  match parse? .method (completed text) with
  | some trees => namesFrom 0 (Tree.partsAll .parameter trees)
  | none => []

/-- The names that the text of a method gives to parameters. -/
def givenNames (text : String) : List String := (written text).filterMap ParameterName.given?

/-- How some of the parameters of a signature get their names in its text. -/
def writtenFor (text : String) (parameters : List DeclaredParameter)
    (keep : DeclaredParameter → Bool) : List ParameterName :=
  (((written text).zip parameters).filter (keep ·.2)).map Prod.fst

/-- Parameters are named as their parts say. -/
theorem parametersFrom_names {config : Config} {parts : List (List Tree)} {position : Nat}
    {parameters : List DeclaredParameter}
    (read : parametersFrom config position parts = .ok parameters) :
    parameters.map DeclaredParameter.name =
      (namesFrom position parts).map ParameterName.text := by
  induction parts generalizing position parameters with
  | nil =>
    cases read
    rfl
  | cons part parts ih =>
    unfold parametersFrom at read
    unfold namesFrom
    cases typed : Tree.part? .type part with
    | none =>
      rw [typed] at read
      exact ih read
    | some type =>
      rw [typed] at read
      obtain ⟨name, named, rest⟩ := Except.bind_eq_ok read
      obtain ⟨more, others, made⟩ := Except.bind_eq_ok rest
      cases made
      unfold parameterName at named
      cases bound : Tree.part? .binding part with
      | some binding =>
        rw [bound] at named
        cases named
        exact congrArg (_ :: ·) (ih others)
      | none =>
        rw [bound] at named
        split at named
        next => cases ‹none = some _›
        next =>
          cases named
          exact congrArg (_ :: ·) (ih others)
        next => cases named

/-- Placeholders are at distinct positions. -/
theorem namesFrom_positions (position : Nat) (parts : List (List Tree)) :
    ((namesFrom position parts).filterMap ParameterName.position?).Nodup ∧
      ∀ place ∈ (namesFrom position parts).filterMap ParameterName.position?,
        position ≤ place := by
  induction parts generalizing position with
  | nil => exact ⟨List.nodup_nil, fun _ none => absurd none List.not_mem_nil⟩
  | cons part parts ih =>
    obtain ⟨distinct, behind⟩ := ih (position + 1)
    have later : ∀ place ∈ (namesFrom (position + 1) parts).filterMap ParameterName.position?,
        position ≤ place := fun place member => Nat.le_of_succ_le (behind place member)
    unfold namesFrom
    split
    · exact ⟨distinct, later⟩
    · exact ⟨distinct, later⟩
    · refine ⟨List.nodup_cons.mpr ⟨fun member => ?_, distinct⟩, fun place member => ?_⟩
      · exact absurd (behind position member) (Nat.not_succ_le_self position)
      · rcases List.mem_cons.mp member with rfl | member
        · exact Nat.le_refl _
        · exact later place member

variable {config : Config} {text : String} {signature : Signature}
  {keep : DeclaredParameter → Bool}

/-- The parameters of a signature are named as its text says. -/
theorem parse_names (parsed : parse config text = .ok signature) :
    signature.parameters.map DeclaredParameter.name =
      (written text).map ParameterName.text := by
  obtain ⟨trees, found, _, read⟩ := parse_read parsed
  rw [parametersFrom_names read]
  unfold written
  rw [found]

/-- Placeholders in a text are at distinct positions. -/
theorem written_positions (text : String) :
    ((written text).filterMap ParameterName.position?).Nodup := by
  unfold written
  split
  · exact (namesFrom_positions 0 _).1
  · exact List.nodup_nil

/-- Some of the parameters of a signature are named as its text says. -/
theorem names_writtenFor (parsed : parse config text = .ok signature) :
    (signature.parameters.filter keep).map DeclaredParameter.name =
      (writtenFor text signature.parameters keep).map ParameterName.text := by
  have names := parse_names parsed
  unfold writtenFor
  generalize written text = written at names ⊢
  generalize signature.parameters = parameters at names ⊢
  induction parameters generalizing written with
  | nil => simp
  | cons parameter parameters ih =>
    cases written with
    | nil => cases names
    | cons name written =>
      obtain ⟨same, others⟩ := List.cons.inj names
      have rest := ih written others
      rw [List.zip_cons_cons, List.filter_cons, List.filter_cons]
      cases keep parameter with
      | true => simp only [↓reduceIte, List.map_cons, same, rest]
      | false => simpa using rest

/-- What names some parameters is among what names all of them. -/
theorem writtenFor_sublist (parsed : parse config text = .ok signature) :
    (writtenFor text signature.parameters keep).Sublist (written text) := by
  have lengths := congrArg List.length (parse_names parsed)
  rw [List.length_map, List.length_map] at lengths
  have all : ((written text).zip signature.parameters).map Prod.fst = written text :=
    List.map_fst_zip (Nat.le_of_eq lengths.symm)
  exact all ▸ List.filter_sublist.map Prod.fst

/-- Some of the parameters of a signature have distinct names, when those that its text gives are
distinct, exactly if none of these is that of a placeholder among them. -/
theorem names_nodup_iff (parsed : parse config text = .ok signature) {read : String → List Char}
    (reading : read ∈ ParameterName.readings) (given : ((givenNames text).map read).Nodup) :
    (((signature.parameters.filter keep).map DeclaredParameter.name).map read).Nodup ↔
      ParameterName.Apart read (writtenFor text signature.parameters keep) := by
  have among : (writtenFor text signature.parameters keep).Sublist (written text) :=
    writtenFor_sublist parsed
  rw [names_writtenFor parsed]
  exact ParameterName.nodup_iff reading (given.sublist ((among.filterMap _).map read))
    ((written_positions text).sublist (among.filterMap _))

end Signature

namespace Facade

/-- The inputs of the first function among tokens: what stands in the parentheses behind its
name. -/
def inputs : List Token → List Token
  | .word "fn" :: .word _ :: .group .paren inner :: _ => inner
  | _ :: tokens => inputs tokens
  | [] => []

/-- The names to which tokens give types: the words in front of a colon. -/
def typedNames : List Token → List String
  | .word name :: .word ":" :: tokens => name :: typedNames tokens
  | _ :: tokens => typedNames tokens
  | [] => []

/-- No type is given behind a comma at once. -/
theorem typedNames_comma {name : String} (word : IsWord name) (tokens : List Token) :
    typedNames (.word "," :: .word name :: tokens) = typedNames (.word name :: tokens) := by
  rw [typedNames.eq_def]
  split
  next first rest same =>
    cases same
    exact absurd word (by decide)
  next same =>
    cases same
    rfl
  next same => cases same

/-- A parameter with its type. -/
def typedTokens (name : String) : List Token :=
  .word name :: pieces ": impl :: std :: convert :: Into < :: opfactory_core :: Value >"

/-- Parameters with types that are parted by commas have their names. -/
theorem typedNames_commaSeparated {names : List String} (words : ∀ name ∈ names, IsWord name) :
    typedNames (.word "," :: commaSeparated (names.map typedTokens)) = names := by
  induction names with
  | nil => rfl
  | cons name names ih =>
    have word := words name List.mem_cons_self
    have rest := ih fun name member => words name (List.mem_cons_of_mem _ member)
    cases names with
    | nil => exact typedNames_comma word _
    | cons next names =>
      have first (tokens : List Token) : typedNames (typedTokens name ++ .word "," :: tokens) =
          name :: typedNames (.word "," :: tokens) := rfl
      refine (typedNames_comma word _).trans ((first _).trans ?_)
      exact congrArg (name :: ·) rest

end Facade

namespace FacadeFunction

/-- The names of the parameters that the text of a function declares. -/
def parameterNames (function : FacadeFunction) : List String :=
  Facade.typedNames (Facade.inputs (Facade.functionTokens function))

/-- The functions of a method have the names of its parameters. -/
theorem ofMethod_parameters {method : PlannedMethod} {function : FacadeFunction}
    (member : function ∈ ofMethod method) :
    function.parameters = method.parameters.map Parameter.name := by
  unfold ofMethod at member
  split at member
  case h_3 =>
    rcases List.mem_cons.mp member with rfl | tried
    · rfl
    · obtain ⟨_, _, rfl⟩ := List.mem_map.mp tried
      rfl
  all_goals
    rw [List.mem_singleton.mp member]

/-- A function declares its parameters, behind a target if it takes one. -/
theorem parameterNames_eq {function : FacadeFunction}
    (words : ∀ name ∈ function.parameters, IsWord name) :
    function.parameterNames =
      (if function.entry.takesTarget then ["target"] else []) ++ function.parameters := by
  have inputs : Facade.inputs (Facade.functionTokens function) =
      Facade.pieces "& self ," ++
        (if function.entry.takesTarget then Facade.pieces "target : :: opfactory_core :: Entity ,"
          else []) ++ Facade.commaSeparated (function.parameters.map Facade.typedTokens) := rfl
  have listed := Facade.typedNames_commaSeparated words
  rw [parameterNames, inputs]
  cases function.entry.takesTarget with
  | true => exact congrArg ("target" :: ·) listed
  | false => exact listed

end FacadeFunction

/-- The method of a surface that declares the parameters of a planned method: its own one, or for a
save that of one of its writes. -/
structure PlannedMethod.DeclaredBy (config : Config) (method : PlannedMethod) (surface : Surface)
    (text : String) (signature : Signature) : Prop where
  /-- It is a method of the surface, -/
  listed : text ∈ surface.methods
  /-- and has the signature. -/
  parsed : Signature.parse config text = .ok signature
  /-- Callers give what it does not get injected. -/
  shown : method.parameters.map Parameter.name =
    (signature.parameters.filter (!·.injected)).map DeclaredParameter.name
  /-- An operation is of that method, and what it gets injected is. -/
  operates : ∀ operation, method.operation? = some operation →
    operation.declaringType = surface.name ∧ operation.method = signature.name ∧
      operation.injectedParameters.map Parameter.name =
        (signature.parameters.filter (·.injected)).map DeclaredParameter.name

namespace Extraction

/-- Parameters keep their names. -/
theorem names_parameterOf (owning declaring : String) (parameters : List DeclaredParameter)
    (holds : Bool → Bool) :
    ((parameters.map (parameterOf owning declaring)).filter (holds ·.isInjected)).map
        Parameter.name =
      (parameters.filter (holds ·.injected)).map DeclaredParameter.name := by
  rw [List.filter_map, List.map_map]
  simp only [Function.comp_def, parameterOf_isInjected]
  rfl

/-- An operation of a signature has its name and the names of its parameters. -/
theorem operationsOf_names {owning declaring : String} {index : Nat} {signature : Signature}
    {operation : Operation}
    (member : operation ∈ (operationsOf owning declaring index signature).result) :
    operation.declaringType = declaring ∧ operation.method = signature.name ∧
      operation.publicParameters.map Parameter.name =
        (signature.parameters.filter (!·.injected)).map DeclaredParameter.name ∧
      operation.injectedParameters.map Parameter.name =
        (signature.parameters.filter (·.injected)).map DeclaredParameter.name := by
  obtain ⟨markers, kind, _, made⟩ := operationsOf_made member
  unfold operationOf at made
  by_cases receives : ((kind != .execute) != signature.hasReceiver) = true
  · simp only [receives, ↓reduceIte, reduceCtorEq] at made
  · simp only [receives, Bool.false_eq_true, ↓reduceIte, Except.ok.injEq] at made
    subst made
    refine ⟨rfl, rfl, ?_, ?_⟩
    · -- What is dropped is the target of a write, and nothing of any other operation.
      refine Eq.trans ?_ (names_parameterOf owning declaring signature.parameters (!·))
      unfold Operation.publicParameters Operation.targetCount Operation.isWrite
      dsimp only
      cases kind.isWrite <;> rfl
    · refine Eq.trans ?_ (names_parameterOf owning declaring signature.parameters id)
      unfold Operation.injectedParameters
      dsimp only
      cases kind.isWrite <;> rfl

/-- An operation of a base chain is one of a method of one of its members, but for the key of its
handler. -/
theorem operations_listed {config : Config} {chain : Chain} {operation : Operation}
    (member : operation ∈ (operations config chain).result) :
    ∃ surface ∈ chain.members, ∃ text ∈ surface.methods, ∃ owning index signature handler,
      Signature.parse config text = .ok signature ∧
      { operation with handler } ∈ (operationsOf owning surface.name index signature).result := by
  unfold operations at member
  cases members : chain.members with
  | nil =>
    rw [members] at member
    cases member
  | cons owner rest =>
    rw [members] at member
    obtain ⟨found, present, rfl⟩ := List.mem_map.mp member
    obtain ⟨declaring, text, index, signature, listed, parsed, made⟩ :=
      operationsFrom_listed config owner.name 0 _ found present
    obtain ⟨surface, among, texts⟩ := List.mem_flatMap.mp listed
    obtain ⟨_, has, same⟩ := List.mem_map.mp texts
    cases same
    exact ⟨surface, among, text, has, owner.name, index, signature, found.handler, parsed, made⟩

end Extraction

/-- Where names of parameters stay distinct. -/
structure ParametersApart (config : Config) : Prop where
  /-- The parameters of a signature, and those among them that are injected or that callers give,
  have distinct names, when the names that the method gives are distinct, exactly if none of these
  is that of a placeholder among them. -/
  signatures : ∀ text signature, Signature.parse config text = .ok signature →
    ∀ read ∈ ParameterName.readings, ((Signature.givenNames text).map read).Nodup →
      ∀ keep : DeclaredParameter → Bool,
        (((signature.parameters.filter keep).map DeclaredParameter.name).map read).Nodup ↔
          ParameterName.Apart read (Signature.writtenFor text signature.parameters keep)
  /-- Whatever runs an operation or asks its probe, its handler and its checks get the services of
  its injected parameters, which all have services of their own exactly if their names are
  distinct. -/
  services : ∀ {σ : Type} (host : Host σ) (typeName : String) (saveState : Bool)
    (operation : Operation) (handler : Handler σ) (gate : Gate σ) (call : Call),
    host.Feeds operation.injectedParameters
        (Path.execute host typeName saveState operation handler gate call) ∧
      host.Feeds operation.injectedParameters (Path.probe host operation gate call)
  /-- Each method of a plan is declared by a method of the base chain. When the names that this
  gives are distinct, the functions of the former have parameters with distinct names exactly if
  none of these is that of a placeholder among them, nor that of the target where there is one. -/
  functions : ∀ catalog typeName plan, Generation.generate config catalog typeName = .ready plan →
    ∀ method ∈ plan.methods, ∃ chain surface text signature,
      catalog.chain typeName = .ok chain ∧ surface ∈ chain.members ∧
      method.DeclaredBy config surface text signature ∧
      ∀ read ∈ ParameterName.readings, ((Signature.givenNames text).map read).Nodup →
        ∀ function ∈ FacadeFunction.ofMethod method,
          (function.parameterNames.map read).Nodup ↔
            ParameterName.Apart read
              (Signature.writtenFor text signature.parameters (!·.injected)) ∧
            (function.entry.takesTarget = true → ∀ name,
              .given name ∈ Signature.writtenFor text signature.parameters (!·.injected) →
                read name ≠ read "target")

namespace Generation

variable {config : Config} {method : PlannedMethod}

/-- Each method of a plan is declared by a method of the base chain. -/
theorem planOf_declaredBy {catalog : Catalog} {chain : Chain} {typeName : String}
    (member : method ∈ (planOf config typeName (findings catalog config chain)).methods) :
    ∃ surface ∈ chain.members, ∃ text signature,
      method.DeclaredBy config surface text signature := by
  have operates {method : PlannedMethod}
      (member : method ∈ (planOf config typeName (findings catalog config chain)).methods)
      {operation : Operation} (has : method.operation? = some operation) :
      ∃ surface ∈ chain.members, ∃ text signature,
        method.DeclaredBy config surface text signature := by
    obtain ⟨bound, among, rfl⟩ := planOf_operation_mem member has
    obtain ⟨operation, listed, rfl⟩ := List.mem_map.mp among
    obtain ⟨surface, here, text, texts, owning, index, signature, handler, parsed, made⟩ :=
      Extraction.operations_listed listed
    obtain ⟨declaring, named, shown, injected⟩ := Extraction.operationsOf_names made
    refine ⟨surface, here, text, signature, texts, parsed, ?_, fun other same => ?_⟩
    · rw [planOf_parameters member has]
      exact shown
    · cases has.symm.trans same
      exact ⟨declaring, named, injected⟩
  cases own : method.operation? with
  | some operation => exact operates member own
  | none =>
    have role := (planOf_fits config typeName _ member).save own
    obtain ⟨_, write, present, _, serves, same⟩ := planOf_save_takes config typeName _ member role
    obtain ⟨operation, bindings, body, _⟩ := serves.kind
    have runs : write.operation? = some operation := by rw [PlannedMethod.operation?, body]
    obtain ⟨surface, here, text, signature, declared⟩ := operates present runs
    refine ⟨surface, here, text, signature, declared.listed, declared.parsed, ?_, ?_⟩
    · rw [← same]
      exact declared.shown
    · intro operation has
      cases own.symm.trans has

/-- A function for parameters of a signature has distinct ones exactly if none is that of a
placeholder or of the target. -/
theorem function_apart {text : String} {signature : Signature} {function : FacadeFunction}
    (parsed : Signature.parse config text = .ok signature) {read : String → List Char}
    (reading : read ∈ ParameterName.readings) (given : ((Signature.givenNames text).map read).Nodup)
    (shown : function.parameters =
      (signature.parameters.filter (!·.injected)).map DeclaredParameter.name) :
    (function.parameterNames.map read).Nodup ↔
      ParameterName.Apart read (Signature.writtenFor text signature.parameters (!·.injected)) ∧
      (function.entry.takesTarget = true → ∀ name,
        .given name ∈ Signature.writtenFor text signature.parameters (!·.injected) →
          read name ≠ read "target") := by
  have words : ∀ name ∈ function.parameters, IsWord name := by
    rw [shown]
    refine List.forall_mem_map.mpr fun parameter member => ?_
    exact (Signature.parse_words parsed).2 parameter (List.mem_of_mem_filter member)
  have distinct : (((signature.parameters.filter (!·.injected)).map
      DeclaredParameter.name).map read).Nodup ↔ ParameterName.Apart read
        (Signature.writtenFor text signature.parameters (!·.injected)) :=
    Signature.names_nodup_iff parsed reading given
  rw [FacadeFunction.parameterNames_eq words, shown]
  cases function.entry.takesTarget with
  | false => simpa using distinct
  | true =>
    have met : read "target" ∈ ((signature.parameters.filter (!·.injected)).map
        DeclaredParameter.name).map read ↔
          ∃ name, .given name ∈ Signature.writtenFor text signature.parameters (!·.injected) ∧
            read name = read "target" := by
      rw [Signature.names_writtenFor parsed, ParameterName.mem_read, or_iff_left]
      rintro ⟨position, _, same⟩
      exact ParameterName.numbered_ne_target reading position same
    rw [if_pos rfl, List.singleton_append, List.map_cons, List.nodup_cons, met, distinct, and_comm]
    simp only [true_implies, not_exists, not_and, ne_eq]

/-- Names of parameters stay distinct where no placeholder and no target gets one of them. -/
theorem parameters_apart (config : Config) : ParametersApart config := by
  refine ⟨fun text signature parsed read reading given keep => ?_, ?_, ?_⟩
  · exact Signature.names_nodup_iff parsed reading given
  · intro σ host typeName saveState operation handler gate call
    exact ⟨Path.feeds_execute host typeName saveState operation handler gate call,
      Path.feeds_probe host operation gate call⟩
  · intro catalog typeName plan made method member
    obtain ⟨chain, chained, rfl⟩ := of_generate_ready made
    obtain ⟨surface, here, text, signature, declared⟩ := planOf_declaredBy member
    refine ⟨chain, surface, text, signature, chained, here, declared, ?_⟩
    intro read reading given function among
    exact function_apart declared.parsed reading given
      ((FacadeFunction.ofMethod_parameters among).trans declared.shown)

/-- A type with a method whose placeholder meets a given name, and one that gives the name of its
target. -/
def meetingPerson : Surface where
  name := "Person"
  factory := true
  methods := ["#[factory(fetch)] fn fetch(&mut self, #[service] _: Log, #[service] arg1: Repo)",
    "#[factory(insert)] fn insert(&mut self, target: i64)"]

/-- A signature in which the method gives one name has two parameters with it. In the plan of that
type an operation has two injected parameters with one name, and two functions have two parameters
with one name. -/
theorem names_meet :
    (∃ signature, Signature.parse {} "fn pay(&self, _: i64, arg1: i64)" = .ok signature ∧
      Signature.givenNames "fn pay(&self, _: i64, arg1: i64)" = ["arg1"] ∧
      signature.parameters.map DeclaredParameter.name = ["arg1", "arg1"]) ∧
    ∃ plan, generate {} (Catalog.empty.insert meetingPerson) "Person" = .ready plan ∧
      (plan.methods.filterMap PlannedMethod.operation?).map
          (·.injectedParameters.map Parameter.name) = [["arg1", "arg1"], []] ∧
      (plan.methods.flatMap FacadeFunction.ofMethod).map FacadeFunction.parameterNames =
        [[], ["target", "target"], ["target", "target"]] := by
  have chained : (Catalog.empty.insert meetingPerson).chain "Person" =
      .ok ⟨[meetingPerson], none⟩ := by decide +kernel
  have ordered : ((Naming.positioned (Synthesis.synthesize "Person" (findings
      (Catalog.empty.insert meetingPerson) {} ⟨[meetingPerson], none⟩).bound).result).filter
        (!·.2.isProbe)).Pairwise fun left right => Naming.namedBefore left right = true := by
    decide +kernel
  have read : (Signature.parse {} "fn pay(&self, _: i64, arg1: i64)").toOption.map
      (·.parameters.map DeclaredParameter.name) = some ["arg1", "arg1"] := by decide +kernel
  obtain ⟨signature, found, names⟩ := Option.map_eq_some_iff.mp read
  refine ⟨⟨signature, ?_, by decide +kernel, names⟩, planOf {} "Person"
    (findings (Catalog.empty.insert meetingPerson) {} ⟨[meetingPerson], none⟩),
    by rw [generate, chained], ?_⟩
  · cases parsed : Signature.parse {} "fn pay(&self, _: i64, arg1: i64)" with
    | error error =>
      rw [parsed] at found
      cases found
    | ok signature =>
      rw [parsed] at found
      exact congrArg Except.ok (Option.some.inj found)
  · simp only [planOf, Naming.resolve, Naming.namePrimary_ordered {} ordered]
    decide +kernel

end Generation

end DomainFactory
