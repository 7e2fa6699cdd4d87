import DomainFactory.Proofs.Declared
import DomainFactory.Proofs.Probing
import DomainFactory.Proofs.Resolution
import DomainFactory.Proofs.Routing

/-!
# Printing facades

The names in a facade are derived from declared names: put behind a prefix, in front of an ending,
numbered, or written in snake case. Declared names are words, and most of these derivations keep
words words. Three do not keep the spellings that reading lets through: white space around a name of
a list or of a callable, and the mark of a raw word behind a prefix. So a facade can be printed
exactly when the name of the type is a plain word, the callables are words as they are written, and
every operation that has a probe has a plain name.
-/
namespace DomainFactory

open Syntax Text

/-- A word that begins with a plain one goes on with identifier characters. -/
theorem isWord_behind {front text : String} (plain : IsPlainWord front) (other : front ≠ "r") :
    IsWord (front ++ text) ↔ ∀ c ∈ text.toList, isIdentifierPart c = true := by
  have nonempty := plain.isWord.ne_empty
  constructor
  · intro word c member
    rcases isWord_iff.mp word with whole | ⟨raw, whole, _⟩
    · apply whole.parts
      rw [String.toList_append]
      exact List.mem_append_right _ member
    · -- The mark of a raw word would end the plain one behind its first character.
      have chars := congrArg String.toList whole
      rw [String.toList_append, String.toList_append] at chars
      rcases given : front.toList with _ | ⟨first, _ | ⟨second, more⟩⟩
      · exact absurd (String.toList_eq_nil_iff.mp given) nonempty
      · rw [given] at chars
        refine absurd (String.toList_inj.mp ?_) other
        rw [given, (List.cons.inj chars).1]
        rfl
      · rw [given] at chars
        have mark : second = '#' := (List.cons.inj (List.cons.inj chars).2).1
        have part : isIdentifierPart second = true := plain.parts (by simp [given])
        rw [mark] at part
        exact absurd part (by decide)
  · exact fun parts => ((isPlainWord_append nonempty parts).mpr plain).isWord

/-- When identifier characters end a raw word and do not fill it, its mark is in front of them. -/
theorem raw_of_append {base ending word : String} (nonempty : base ≠ "")
    (parts : ∀ c ∈ ending.toList, isIdentifierPart c = true)
    (whole : base ++ ending = "r#" ++ word) :
    ∃ behind, base = "r#" ++ behind ∧ word = behind ++ ending := by
  have chars := congrArg String.toList whole
  rw [String.toList_append, String.toList_append] at chars
  rcases given : base.toList with _ | ⟨first, _ | ⟨second, behind⟩⟩
  · exact absurd (String.toList_eq_nil_iff.mp given) nonempty
  · rw [given] at chars
    have tail : ending.toList = '#' :: word.toList := (List.cons.inj chars).2
    have mark : '#' ∈ ending.toList := tail ▸ List.mem_cons_self
    exact absurd (parts '#' mark) (by decide)
  · rw [given] at chars
    obtain ⟨rfl, same⟩ := List.cons.inj chars
    obtain ⟨rfl, _⟩ := List.cons.inj same
    have split : base = "r#" ++ String.ofList behind := by
      rw [← String.toList_inj, given, String.toList_append, String.toList_ofList (l := behind)]
      rfl
    refine ⟨String.ofList behind, split, ?_⟩
    rwa [split, String.append_assoc, String.append_right_inj, eq_comm] at whole

namespace Naming

variable {base : String}

/-- A numbered name goes on with digits behind its base. -/
theorem exists_suffixed (base : String) (number : Nat) :
    ∃ ending, suffixed base number = base ++ ending ∧ ∀ c ∈ ending.toList, c.isDigit = true := by
  unfold suffixed
  split
  · exact ⟨"", String.append_empty.symm, fun _ member => absurd member List.not_mem_nil⟩
  · exact ⟨_, rfl, fun _ => isDigit_of_mem_toString⟩

/-- A numbered name consists of identifier characters if its base does. -/
theorem suffixed_parts {number : Nat} : (∀ c ∈ (suffixed base number).toList,
    isIdentifierPart c = true) ↔ ∀ c ∈ base.toList, isIdentifierPart c = true := by
  obtain ⟨ending, whole, digits⟩ := exists_suffixed base number
  rw [whole, String.toList_append, List.forall_mem_append]
  exact and_iff_left fun c member => isIdentifierPart_of_isDigit (digits c member)

/-- A number behind a name leaves it a word, or none, unless it is the raw form of a word that has
none. -/
theorem isWord_suffixed (nonempty : base ≠ "")
    (allowed : ∀ word ∈ Lexer.neverRaw, base ≠ "r#" ++ word) (number : Nat) :
    IsWord (suffixed base number) ↔ IsWord base := by
  obtain ⟨ending, whole, digits⟩ := exists_suffixed base number
  have parts : ∀ c ∈ ending.toList, isIdentifierPart c = true :=
    fun c member => isIdentifierPart_of_isDigit (digits c member)
  rw [isWord_iff, isWord_iff, whole, isPlainWord_append nonempty parts]
  refine or_congr_right ?_
  constructor
  · rintro ⟨raw, marked, plain, _⟩
    obtain ⟨behind, rfl, rfl⟩ := raw_of_append nonempty parts marked
    refine ⟨behind, rfl, ?_, fun forbidden => allowed behind forbidden rfl⟩
    rcases given : behind.toList with _ | _
    · -- Nothing but the number is behind the mark, and no word begins with a digit.
      obtain ⟨first, more, chars, begins, _⟩ := isPlainWord_iff.mp plain
      rw [String.toList_append, given, List.nil_append] at chars
      have digit := digits first (chars ▸ List.mem_cons_self)
      rw [not_isIdentifierStart_of_isDigit digit] at begins
      cases begins
    · refine (isPlainWord_append ?_ parts).mp plain
      rintro rfl
      cases given
  · rintro ⟨raw, rfl, plain, listed⟩
    refine ⟨raw ++ ending, String.append_assoc, ?_, fun forbidden => ?_⟩
    · exact (isPlainWord_append plain.isWord.ne_empty parts).mpr plain
    · have letters : ∀ word ∈ Lexer.neverRaw, word.toList.all (!·.isDigit) = true := by decide
      have empty : ending = "" := by
        rcases chars : ending.toList with _ | ⟨digit, more⟩
        · exact String.toList_eq_nil_iff.mp chars
        · have among : digit ∈ (raw ++ ending).toList := by simp [chars]
          have letter := List.all_eq_true.mp (letters _ forbidden) digit among
          rw [digits digit (chars ▸ List.mem_cons_self)] at letter
          cases letter
      rw [empty, String.append_empty] at forbidden
      exact listed forbidden

/-- The name under which a save reports denial is a numbered base. -/
theorem ClaimedInOrder.attempt_suffixed {config : Config} {specs : List MethodSpec}
    {slots : List NameSlot} (ordered : ClaimedInOrder config specs slots) {save : SaveSpec}
    {tryName : String} (member : .save save ∈ specs) (given : save.tryName = some tryName) :
    ∃ number, tryName = Naming.suffixed (config.tryPrefix ++ save.name) number := by
  obtain ⟨position, found⟩ := List.mem_iff_getElem?.mp member
  have named : (NameSlot.attempt position).name? specs = some tryName := by
    rw [NameSlot.name?, found, Option.bind_some]
    exact given
  have based : (NameSlot.attempt position).base? config specs =
      some (config.tryPrefix ++ save.name) := by
    rw [NameSlot.base?, found, Option.map_some]
    rfl
  obtain ⟨_, number, suffix, _⟩ := ordered.claims based named
  exact ⟨number, suffix⟩

end Naming

namespace Operation.Spelled

variable {operation : Operation}

/-- The name that an operation asks for is not the raw form of a word that has none. -/
theorem allowed (spelled : operation.Spelled) :
    ∀ word ∈ Lexer.neverRaw, operation.publicName ≠ "r#" ++ word := by
  have refused : ∀ word ∈ Lexer.neverRaw,
      ¬ IsWord ("r#" ++ word) ∧ isIdentifier ("r#" ++ word) = false := by decide
  intro word member same
  obtain ⟨noWord, noIdentifier⟩ := refused word member
  rcases spelled.publicName with given | ⟨_, given⟩
  · exact noWord (same ▸ given)
  · rw [same, noIdentifier] at given
    cases given

/-- The name that an operation asks for is not empty. -/
theorem nonempty (spelled : operation.Spelled) : operation.publicName ≠ "" := by
  intro empty
  rcases spelled.publicName with given | ⟨_, given⟩
  · exact given.ne_empty empty
  · rw [empty] at given
    exact absurd given (by decide)

/-- The name that an operation asks for is a plain word if it consists of identifier characters. -/
theorem plain_iff (spelled : operation.Spelled) : IsPlainWord operation.publicName ↔
    ∀ c ∈ operation.publicName.toList, isIdentifierPart c = true := by
  refine ⟨fun plain _ => plain.parts, fun parts => ?_⟩
  rcases spelled.publicName with given | ⟨_, given⟩
  · exact given.isPlainWord fun mark => absurd (parts _ mark) (by decide)
  · exact isPlainWord_of_isIdentifier given parts

end Operation.Spelled

/-- A type with a plain name has words as the names of its factory and of the function that
registers it, and no other type has. -/
theorem typeNames_words {typeName : String} (nonempty : typeName ≠ "") :
    IsWord (typeName ++ "Factory") ∧ IsWord ("register_" ++ snakeCase typeName ++ "_factory") ↔
      IsPlainWord typeName := by
  have ending : ∀ c ∈ "Factory".toList, isIdentifierPart c = true :=
    List.all_eq_true.mp (by decide)
  have hookEnding : ∀ c ∈ "_factory".toList, isIdentifierPart c = true :=
    List.all_eq_true.mp (by decide)
  have snake : (snakeCase typeName).toList = snakeFrom false typeName.toList := by
    rw [snakeCase, String.toList_ofList]
  have hook (name : String) : IsWord ("register_" ++ name) ↔
      ∀ c ∈ name.toList, isIdentifierPart c = true := isWord_behind (by decide) (by decide)
  rw [String.append_assoc, hook, String.toList_append, List.forall_mem_append,
    and_iff_left hookEnding, snake]
  constructor
  · rintro ⟨factory, lowered⟩
    -- Lower case keeps the mark of a raw word.
    have unmarked : '#' ∉ (typeName ++ "Factory").toList := by
      rw [String.toList_append, List.mem_append, not_or]
      refine ⟨fun member => ?_, by decide⟩
      exact absurd (lowered '#' (mem_snakeFrom (by decide) member false)) (by decide)
    exact (isPlainWord_append nonempty ending).mp (factory.isPlainWord unmarked)
  · intro plain
    refine ⟨((isPlainWord_append nonempty ending).mpr plain).isWord, ?_⟩
    exact snakeFrom_parts (fun c member => plain.parts member) false

/-- Whether the names that a planned method brings into a facade are words. -/
structure PlannedMethod.Words (method : PlannedMethod) : Prop where
  name : IsWord method.name
  attempt : ∀ {insert update delete : Option String} {tryName : String},
    method.body = .save insert update delete (some tryName) → IsWord tryName
  parameters : ∀ parameter ∈ method.parameters, IsWord parameter.name

/-- The names of the functions of a method are words if those it brings are. -/
theorem FacadeFunction.ofMethod_words {method : PlannedMethod} (fits : method.Fits) :
    (∀ function ∈ ofMethod method,
      IsWord function.name ∧ ∀ parameter ∈ function.parameters, IsWord parameter) ↔
    method.Words := by
  have given : (∀ parameter ∈ method.parameters.map Parameter.name, IsWord parameter) ↔
      ∀ parameter ∈ method.parameters, IsWord parameter.name := List.forall_mem_map
  unfold ofMethod PlannedMethod.Fits at *
  cases body : method.body with
  | run operation bindings =>
    rw [body] at fits
    have single : method.role = .read ∨ method.role = .write := by
      rw [fits]
      split
      · exact Or.inr rfl
      · exact Or.inl rfl
    constructor
    · intro words
      rcases single with role | role
      all_goals
        simp only [role, List.forall_mem_singleton, given] at words
        exact ⟨words.1, fun save => (by cases body.symm.trans save), words.2⟩
    · intro words
      rcases single with role | role
      all_goals
        simp only [role, List.forall_mem_singleton, given]
        exact ⟨words.name, words.parameters⟩
  | save insert update delete tryName =>
    rw [body] at fits
    simp only [fits, List.forall_mem_cons, List.forall_mem_map, Option.mem_toList]
    constructor
    · rintro ⟨⟨name, parameters⟩, attempts⟩
      refine ⟨name, fun save => ?_, parameters⟩
      cases body.symm.trans save
      exact (attempts _ rfl).1
    · intro words
      refine ⟨⟨words.name, words.parameters⟩, fun attempt named => ?_⟩
      cases named
      exact ⟨words.attempt body, words.parameters⟩
  | probe wraps operation bindings =>
    rw [body] at fits
    simp only [fits, List.forall_mem_singleton, given]
    exact ⟨fun words => ⟨words.1, fun save => (by cases body.symm.trans save), words.2⟩,
      fun words => ⟨words.name, words.parameters⟩⟩

/-- A facade can be printed when the names in it are words. -/
theorem Facade.text_isSome_iff {plan : Plan} (fits : ∀ method ∈ plan.methods, method.Fits) :
    (Facade.ofPlan plan).text?.isSome = true ↔
      (IsWord plan.factoryName ∧ IsWord plan.registrationHook) ∧
        ∀ method ∈ plan.methods, method.Words := by
  have functions : (∀ method ∈ plan.methods, method.Words) ↔
      ∀ method ∈ plan.methods, ∀ function ∈ FacadeFunction.ofMethod method,
        IsWord function.name ∧ ∀ parameter ∈ function.parameters, IsWord parameter :=
    forall₂_congr fun method member => (FacadeFunction.ofMethod_words (fits method member)).symm
  unfold Facade.text?
  rw [Option.isSome_ite, List.all_eq_true, functions]
  simp only [Facade.names, Facade.ofPlan, List.forall_mem_cons, List.forall_mem_flatMap, isName_iff,
    and_assoc]

namespace Generation

variable {config : Config} {typeName : String} {found : Findings} {method : PlannedMethod}

/-- The operations of a plan are those that are known about its type. -/
theorem planOf_operation_mem (member : method ∈ (planOf config typeName found).methods)
    {operation : Operation} (has : method.operation? = some operation) :
    ∃ bound ∈ found.bound, bound.operation = operation := by
  unfold PlannedMethod.operation? at has
  split at has
  next bindings body =>
    cases has
    have bounds : method.bound? = some ⟨operation, bindings⟩ := PlannedMethod.bound_eq_some.mpr body
    obtain ⟨position, there, _⟩ := planOf_position config typeName found member bounds
    exact ⟨_, List.mem_of_getElem? there, rfl⟩
  next wraps asked bindings body =>
    cases has
    have listed := List.mem_filterMap.mpr ⟨method, member, PlannedMethod.asked_eq_some.mpr body⟩
    obtain ⟨position, bound, there, _, equal⟩ := (planOf_asked config typeName found).mp listed
    cases equal
    exact ⟨bound, List.mem_of_getElem? there, rfl⟩
  next => cases has

/-- How the names of the methods of a plan are derived: those of reads and writes from the names
that their operations ask for, those of probes from these, those of saves from a fixed one, and
those under which saves report denial from these. -/
inductive Derives (config : Config) (method : PlannedMethod) : Prop where
  | runs (operation : Operation) (bindings : List Binding) (number : Nat)
    (body : method.body = .run operation bindings)
    (name : method.name = Naming.suffixed operation.publicName number)
  | asks (wraps : String) (operation : Operation) (bindings : List Binding) (inner number : Nat)
    (body : method.body = .probe wraps operation bindings)
    (name : method.name = Naming.suffixed
      (config.probePrefix ++ Naming.suffixed operation.publicName inner) number)
  | saves (insert update delete tryName : Option String) (number : Nat)
    (body : method.body = .save insert update delete tryName)
    (name : method.name = Naming.suffixed config.saveName number)
    (attempt : ∀ name ∈ tryName, ∃ number,
      name = Naming.suffixed (config.tryPrefix ++ method.name) number)

/-- The names of the methods of a plan are derived so. -/
theorem planOf_derives (member : method ∈ (planOf config typeName found).methods) :
    Derives config method := by
  have settled := resolved_settled config typeName found
  obtain ⟨slots, ordered⟩ := settled.claimed
  rw [planOf_methods] at member
  obtain ⟨spec, present, rfl⟩ := List.mem_map.mp member
  obtain ⟨position, there⟩ := List.mem_iff_getElem?.mp present
  obtain ⟨number, name⟩ := ordered.suffixed there
  cases spec with
  | read title bound => exact .runs bound.operation bound.bindings number rfl name
  | write title bound => exact .runs bound.operation bound.bindings number rfl name
  | save save =>
    exact .saves _ _ _ save.tryName number rfl name fun _ given =>
      ordered.attempt_suffixed present given
  | probe probe =>
    obtain ⟨wrapped, outer, stands, operates, asked⟩ := settled.probes present
    obtain ⟨inner, wrappedName⟩ := ordered.suffixed stands
    have wanted : Naming.wanted config (resolved config typeName found) wrapped =
        probe.operation.publicName := by
      obtain ⟨bound, has, same⟩ := Option.map_eq_some_iff.mp operates
      cases wrapped with
      | read title wrapped | write title wrapped =>
        cases has
        exact congrArg Operation.publicName same
      | save save => cases has
      | probe probe => cases has
    rw [wrappedName, wanted] at asked
    exact .asks _ probe.operation probe.bindings inner outer rfl asked

end Generation

/-- Whether the names in a plan can stand in a facade: the type has a plain name, the names that
operations ask for are words, and those of operations with probes are plain words. -/
structure Plan.Printable (plan : Plan) : Prop where
  type : IsPlainWord plan.typeName
  names : ∀ method ∈ plan.methods, ∀ operation, method.operation? = some operation →
    IsWord operation.publicName
  probed : ∀ method ∈ plan.methods, method.role = .probe → ∀ operation,
    method.operation? = some operation → IsPlainWord operation.publicName

/-- How the names in a plan are spelled: those of the parameters and of the saves are words, and
those of the operations are spelled as declared. -/
structure Plan.Spelled (plan : Plan) : Prop where
  parameters : ∀ method ∈ plan.methods, ∀ parameter ∈ method.parameters, IsWord parameter.name
  saves : ∀ method ∈ plan.methods, ∀ insert update delete tryName,
    method.body = .save insert update delete tryName →
      IsWord method.name ∧ ∀ name ∈ tryName, IsWord name
  operations : ∀ method ∈ plan.methods, ∀ operation, method.operation? = some operation →
    operation.Spelled

/-- The name of a read or a write is a word if the one that its operation asks for is. -/
theorem Operation.Spelled.run_isWord {operation : Operation} (spelled : operation.Spelled)
    (number : Nat) : IsWord (Naming.suffixed operation.publicName number) ↔
      IsWord operation.publicName :=
  Naming.isWord_suffixed spelled.nonempty spelled.allowed number

/-- The name of a probe is a word if the one that its operation asks for is a plain word. -/
theorem Operation.Spelled.probe_isWord {operation : Operation} (spelled : operation.Spelled)
    (inner number : Nat) :
    IsWord (Naming.suffixed ("can_" ++ Naming.suffixed operation.publicName inner) number) ↔
      IsPlainWord operation.publicName := by
  have behind (name : String) : IsWord ("can_" ++ name) ↔
      ∀ c ∈ name.toList, isIdentifierPart c = true := isWord_behind (by decide) (by decide)
  obtain ⟨ending, whole, digits⟩ :=
    Naming.exists_suffixed ("can_" ++ Naming.suffixed operation.publicName inner) number
  rw [whole, String.append_assoc, behind, String.toList_append, List.forall_mem_append,
    Naming.suffixed_parts, spelled.plain_iff]
  exact and_iff_left fun c member => isIdentifierPart_of_isDigit (digits c member)

/-- The names of saves are words. -/
theorem Naming.save_isWord (number : Nat) : IsPlainWord (suffixed "save" number) ∧
    ∀ other, IsWord (suffixed ("try_" ++ suffixed "save" number) other) := by
  obtain ⟨ending, whole, digits⟩ := exists_suffixed "save" number
  have parts : ∀ c ∈ ending.toList, isIdentifierPart c = true :=
    fun c member => isIdentifierPart_of_isDigit (digits c member)
  have plain : IsPlainWord (suffixed "save" number) :=
    whole ▸ (isPlainWord_append (by decide) parts).mpr (by decide)
  refine ⟨plain, fun other => ?_⟩
  obtain ⟨more, longer, numbered⟩ := exists_suffixed ("try_" ++ suffixed "save" number) other
  rw [longer, String.append_assoc, isWord_behind (by decide) (by decide), String.toList_append,
    List.forall_mem_append]
  exact ⟨fun c => plain.parts, fun c member => isIdentifierPart_of_isDigit (numbered c member)⟩

namespace Generation

/-- The names in a plan of declarations are spelled so. -/
theorem planOf_spelled (catalog : Catalog) (chain : Chain) (typeName : String) :
    (planOf {} typeName (findings catalog {} chain)).Spelled := by
  have operations : ∀ method ∈ (planOf {} typeName (findings catalog {} chain)).methods,
      ∀ operation, method.operation? = some operation → operation.Spelled := by
    intro method member operation has
    obtain ⟨bound, among, rfl⟩ := planOf_operation_mem member has
    obtain ⟨operation, listed, rfl⟩ := List.mem_map.mp among
    exact Extraction.operations_spelled listed
  have given : ∀ method ∈ (planOf {} typeName (findings catalog {} chain)).methods,
      ∀ operation, method.operation? = some operation →
        ∀ parameter ∈ method.parameters, IsWord parameter.name := by
    intro method member operation has parameter among
    rw [planOf_parameters member has] at among
    exact (operations method member operation has).parameters parameter
      (List.mem_of_mem_drop (List.mem_of_mem_filter among))
  refine ⟨fun method member => ?_, fun method member => ?_, operations⟩
  · cases body : method.body with
    | run operation bindings =>
      exact given method member operation (by rw [PlannedMethod.operation?, body])
    | probe wraps operation bindings =>
      exact given method member operation (by rw [PlannedMethod.operation?, body])
    | save insert update delete tryName =>
      have role : method.role = .save := by
        have fits := planOf_fits {} typeName _ member
        unfold PlannedMethod.Fits at fits
        rwa [body] at fits
      obtain ⟨_, write, among, _, serves, same⟩ := planOf_save_takes {} typeName _ member role
      obtain ⟨operation, bindings, runs, _⟩ := serves.kind
      exact same ▸ given write among operation (by rw [PlannedMethod.operation?, runs])
  · intro insert update delete tryName body
    cases planOf_derives member with
    | saves _ _ _ attempted number saves name attempt =>
      cases body.symm.trans saves
      obtain ⟨plain, attempts⟩ := Naming.save_isWord number
      rw [name]
      refine ⟨plain.isWord, fun tried among => ?_⟩
      obtain ⟨other, rfl⟩ := attempt tried among
      exact name ▸ attempts other
    | runs _ _ _ runs => cases body.symm.trans runs
    | asks _ _ _ _ _ asks => cases body.symm.trans asks

/-- The names that a method of such a plan brings into a facade are words if the name that its
operation asks for is a word, for a probe a plain one. -/
theorem words_iff {plan : Plan} (spelled : plan.Spelled) (member : method ∈ plan.methods)
    (fits : method.Fits) (derives : Derives {} method) : method.Words ↔
      ∀ operation, method.operation? = some operation → IsWord operation.publicName ∧
        (method.role = .probe → IsPlainWord operation.publicName) := by
  have parameters := spelled.parameters method member
  cases derives with
  | runs operation bindings number body name =>
    have has : method.operation? = some operation := by rw [PlannedMethod.operation?, body]
    have named := (spelled.operations method member operation has).run_isWord number
    rw [← name] at named
    have noProbe : method.role ≠ .probe := by
      rw [fits.run body]
      split <;> simp only [ne_eq, reduceCtorEq, not_false_eq_true]
    constructor
    · rintro words _ same
      cases has.symm.trans same
      exact ⟨named.mp words.name, fun role => absurd role noProbe⟩
    · intro asked
      exact ⟨named.mpr (asked operation has).1, fun save => (by cases body.symm.trans save),
        parameters⟩
  | asks wraps operation bindings inner number body name =>
    have has : method.operation? = some operation := by rw [PlannedMethod.operation?, body]
    have named := (spelled.operations method member operation has).probe_isWord inner number
    have prefixed : method.name = _ := name
    rw [← prefixed] at named
    constructor
    · rintro words _ same
      cases has.symm.trans same
      have plain := named.mp words.name
      exact ⟨plain.isWord, fun _ => plain⟩
    · intro asked
      exact ⟨named.mpr ((asked operation has).2 (fits.probe body)),
        fun save => (by cases body.symm.trans save), parameters⟩
  | saves insert update delete tryName number body name attempt =>
    have none : method.operation? = none := by rw [PlannedMethod.operation?, body]
    obtain ⟨word, attempts⟩ := spelled.saves method member insert update delete tryName body
    constructor
    · rintro _ _ same
      cases none.symm.trans same
    · refine fun _ => ⟨word, fun save => ?_, parameters⟩
      cases body.symm.trans save
      exact attempts _ rfl

/-- The facade of a type that was declared by reading, with the default settings, can be printed
exactly when its plan is printable. -/
theorem generate_renders {catalog : Catalog} {plan : Plan} (loaded : catalog.Loaded)
    (made : .ready plan ∈ generateAll {} catalog) :
    plan.Spelled ∧ ((Facade.ofPlan plan).text?.isSome = true ↔ plan.Printable) := by
  obtain ⟨typeName, _, generated⟩ := List.mem_map.mp made
  obtain ⟨chain, chained, rfl⟩ := of_generate_ready generated
  have nonempty : typeName ≠ "" := by
    rintro rfl
    rw [Catalog.chain_undeclared loaded.get_empty] at chained
    cases chained
  have spelled := planOf_spelled catalog chain typeName
  refine ⟨spelled, ?_⟩
  have words := forall₂_congr fun (method : PlannedMethod)
      (member : method ∈ (planOf {} typeName (findings catalog {} chain)).methods) =>
    words_iff spelled member (planOf_fits {} typeName _ member) (planOf_derives member)
  rw [Facade.text_isSome_iff fun _ => planOf_fits {} typeName _, words]
  constructor
  · rintro ⟨type, asked⟩
    refine ⟨(typeNames_words nonempty).mp type, ?_, ?_⟩
    · exact fun method member operation has => (asked method member operation has).1
    · exact fun method member role operation has => (asked method member operation has).2 role
  · intro printable
    refine ⟨(typeNames_words nonempty).mpr printable.type, fun method member operation has => ?_⟩
    exact ⟨printable.names method member operation has,
      fun role => printable.probed method member role operation has⟩

/-- The sample as a JSON list. -/
def sampleJson : String :=
  "[\x7b\"name\":\"Person\",\"authorize\":[\"PersonAuth\"],\"factory\":true,\"save_state\":true,
    \"methods\":[\"#[factory(fetch, remote)] fn fetch(&mut self, id: i64) -> bool\",
      \"#[factory(delete)] fn delete(&mut self)\"]\x7d,
   \x7b\"name\":\"PersonAuth\",\"methods\":[\"#[authorize(read)] fn can_read(&self, id: i64)\",
      \"#[authorize(delete)] fn can_delete(&self, person: &Person)\"]\x7d]"

/-- The facade of the sample can be printed. -/
theorem sample_renders : sampleCatalog.Loaded ∧ .ready samplePlan ∈ generateAll {} sampleCatalog ∧
    (Facade.ofPlan samplePlan).text?.isSome = true ∧ samplePlan.Printable := by
  have added : Catalog.empty.addJson sampleJson = .ok (sampleCatalog, 2) := by decide +kernel
  have loaded : sampleCatalog.Loaded := .json .empty added
  have listed : "Person" ∈ sampleCatalog.factoryTypes := by decide +kernel
  have made : .ready samplePlan ∈ generateAll {} sampleCatalog :=
    List.mem_map.mpr ⟨"Person", listed, sample_generated⟩
  have printed : (Facade.ofPlan samplePlan).text?.isSome = true := by decide +kernel
  exact ⟨loaded, made, printed, (generate_renders loaded made).2.mp printed⟩

/-- A type with spaces around its name, as a JSON list. -/
def paddedJson : String := "[\x7b\"name\":\" Person \",\"factory\":true\x7d]"

/-- The type with spaces around its name has a plan, and its facade cannot be printed. -/
theorem padded_unprintable : ∃ catalog : Catalog, ∃ plan : Plan,
    Catalog.empty.addJson paddedJson = .ok (catalog, 1) ∧ catalog.Loaded ∧
      .ready plan ∈ generateAll {} catalog ∧ (Facade.ofPlan plan).text? = none := by
  have added : Catalog.empty.addJson paddedJson =
      .ok (Catalog.empty.insert { name := " Person ", factory := true }, 1) := by decide +kernel
  refine ⟨_, _, added, .json .empty added, List.mem_map.mpr ⟨" Person ", ?_, rfl⟩, ?_⟩
  · decide +kernel
  · decide +kernel

end Generation

end DomainFactory
