import DomainFactory.Proofs.Lexing
import DomainFactory.Proofs.Printing

/-!
# Names in syntax trees

What a rule matches keeps the words of its tokens, and the parts that later stages take names from
have one: a name is a single word, a pattern that is a name and a trait have a name in them, and a
type prints something. Each pattern of the grammar is checked for this once, given what the
lookahead in front of it decides.
-/
namespace DomainFactory.Syntax

open Token (Named NamedAll)

/-- What later stages rely on in a labelled part: a name is one word, a pattern that is a name and a
trait have a name in them, and a type prints something. -/
def Label.Holds : Label → List Tree → Prop
  | .name, trees => ∃ word, trees = [.leaf (.word word)]
  | .binding, trees => Tree.hasPart .name trees = true
  | .traitItem, trees => Tree.hasPart .name trees = true
  | .type, trees => Tree.Seen trees
  | _, _ => True

namespace Tree

mutual

/-- A tree whose words are words and whose parts hold what later stages rely on. -/
def Sound : Tree → Prop
  | .leaf token => token.Named
  | .group _ trees => SoundAll trees
  | .node label trees => label.Holds trees ∧ SoundAll trees

/-- Trees whose words are words and whose parts hold what later stages rely on. -/
def SoundAll : List Tree → Prop
  | [] => True
  | tree :: trees => Sound tree ∧ SoundAll trees

end

/-- No trees are sound. -/
@[simp] theorem soundAll_nil : SoundAll [] := by
  unfold SoundAll
  trivial

/-- Trees are sound when the first one and the others are. -/
@[simp] theorem soundAll_cons {tree : Tree} {trees : List Tree} :
    SoundAll (tree :: trees) ↔ tree.Sound ∧ SoundAll trees := by
  rw [SoundAll]

/-- A token is sound when its words are words. -/
@[simp] theorem sound_leaf {token : Token} : (Tree.leaf token).Sound ↔ token.Named := by
  rw [Sound]

/-- Trees are sound when each of them is. -/
theorem soundAll_iff {trees : List Tree} : SoundAll trees ↔ ∀ tree ∈ trees, tree.Sound := by
  induction trees with
  | nil => simp
  | cons tree trees ih => simp [ih]

/-- Two lists of trees are sound together when each of them is. -/
@[simp] theorem soundAll_append {first second : List Tree} :
    SoundAll (first ++ second) ↔ SoundAll first ∧ SoundAll second := by
  simp only [soundAll_iff, List.mem_append, or_imp, forall_and]

/-- Tokens are sound when their words are words. -/
@[simp] theorem soundAll_leaves {tokens : List Token} :
    SoundAll (tokens.map Tree.leaf) ↔ NamedAll tokens := by
  induction tokens with
  | nil => simp
  | cons token tokens ih => simp [ih]

/-- The parts of two lists of trees are those of the first and then those of the second. -/
@[simp] theorem partsAll_append (label : Label) (first second : List Tree) :
    partsAll label (first ++ second) = partsAll label first ++ partsAll label second := by
  induction first with
  | nil => simp [partsAll]
  | cons tree first ih => simp [partsAll, ih]

/-- Two lists of trees have a part with a label when one of them has. -/
@[simp] theorem hasPart_append (label : Label) (first second : List Tree) :
    hasPart label (first ++ second) = (hasPart label first || hasPart label second) := by
  unfold hasPart part?
  cases found : partsAll label first <;> simp [found]

mutual

/-- The parts of a sound tree are sound and hold what later stages rely on. -/
theorem parts_sound {label : Label} {part : List Tree} :
    ∀ {tree : Tree}, tree.Sound → part ∈ parts label tree → label.Holds part ∧ SoundAll part
  | .leaf token, _, member => by
    unfold parts at member
    exact absurd member List.not_mem_nil
  | .group delimiter trees, sound, member => by
    unfold Sound at sound
    unfold parts at member
    exact partsAll_sound sound member
  | .node found trees, sound, member => by
    unfold Sound at sound
    unfold parts at member
    split at member
    next same =>
      rw [List.mem_singleton] at member
      exact same ▸ member ▸ sound
    next => exact absurd member List.not_mem_nil

/-- The parts of sound trees are sound and hold what later stages rely on. -/
theorem partsAll_sound {label : Label} {part : List Tree} :
    ∀ {trees : List Tree}, SoundAll trees → part ∈ partsAll label trees →
      label.Holds part ∧ SoundAll part
  | [], _, member => by
    unfold partsAll at member
    exact absurd member List.not_mem_nil
  | tree :: trees, sound, member => by
    unfold partsAll at member
    obtain ⟨first, others⟩ := soundAll_cons.mp sound
    rcases List.mem_append.mp member with here | later
    · exact parts_sound first here
    · exact partsAll_sound others later

end

/-- The first part of sound trees with a label is sound and holds what later stages rely on. -/
theorem part_sound {label : Label} {part trees : List Tree} (sound : SoundAll trees)
    (found : part? label trees = some part) : label.Holds part ∧ SoundAll part :=
  partsAll_sound sound (List.mem_of_mem_head? found)

/-- The name in sound trees that have one is a word. -/
theorem name_isWord {trees : List Tree} (sound : SoundAll trees)
    (has : hasPart .name trees = true) : IsWord (text ((part? .name trees).getD [])) := by
  obtain ⟨name, found⟩ := Option.isSome_iff_exists.mp has
  obtain ⟨⟨word, rfl⟩, named⟩ := part_sound sound found
  rw [found, Option.getD_some]
  have isWord := (soundAll_cons.mp named).1
  unfold Sound Token.Named at isWord
  simpa only [text, tokensAll, tokens, List.append_nil, Token.textAll, Token.text] using isWord

end Tree

open DomainFactory.Syntax.Tree (SoundAll)

/-- Readers of rules whose outcomes are sound and give names where the grammar asks for them. -/
structure Reliable (run : Rule → List Token → Match) : Prop where
  sound : ∀ {rule tokens trees rest}, NamedAll tokens → run rule tokens = some (trees, rest) →
    SoundAll trees ∧ NamedAll rest
  binding : ∀ {tokens trees rest}, Part.pathPatternAhead tokens = false →
    Guard.word "_" tokens = false → Part.bindingAhead tokens = true →
    run .pattern tokens = some (trees, rest) → Tree.hasPart .name trees = true
  trait : ∀ {tokens trees rest}, run .traitDeclaration tokens = some (trees, rest) →
    Tree.hasPart .name trees = true
  signature : ∀ {tokens trees rest}, run .signature tokens = some (trees, rest) →
    Tree.hasPart .name trees = true
  seen : ∀ {rule tokens trees rest}, rule.isSeen = true → run rule tokens = some (trees, rest) →
    Tree.Seen trees

namespace Pattern

/-- Whether what a pattern matches holds what later stages rely on in a part with a label, where
something is known of the tokens ahead. -/
def Gives (known : List Token → Prop) (label : Label) (pattern : Part) : Prop :=
  ∀ {run}, Reliable run → ∀ {tokens trees rest}, known tokens →
    eval run pattern tokens = some (trees, rest) → label.Holds trees

/-- What makes the outcomes of a pattern sound, where something is known of the tokens ahead. -/
def Safe : (known : List Token → Prop) → Part → Prop
  | _, .empty => True
  | _, .refuse => True
  | _, .take read => ∀ tokens trees rest, NamedAll tokens → read tokens = some (trees, rest) →
    SoundAll trees ∧ NamedAll rest
  | _, .print printed => NamedAll printed
  | known, .hide pattern => Safe known pattern
  | _, .group _ content => Safe (fun _ => True) content
  | known, .seq first second => Safe known first ∧ Safe (fun _ => True) second
  | known, .choose guard yes no =>
    Safe (fun tokens => known tokens ∧ guard tokens = true) yes ∧
      Safe (fun tokens => known tokens ∧ guard tokens = false) no
  | known, .attempt first second => Safe known first ∧ Safe known second
  | _, .many guard pattern => Safe (fun tokens => guard tokens = true) pattern
  | _, .call _ => True
  | known, .node label pattern => Gives known label pattern ∧ Safe known pattern
  | known, .arrange order pattern =>
    (∀ trees, SoundAll trees → SoundAll (order trees)) ∧ Safe known pattern

/-- Repetition keeps what each step keeps. -/
theorem repeatWhile_sound {guard : Guard} {step : List Token → Match}
    (steps : ∀ {tokens trees rest}, guard tokens = true → NamedAll tokens →
      step tokens = some (trees, rest) → SoundAll trees ∧ NamedAll rest)
    {fuel : Nat} {tokens rest : List Token} {trees : List Tree} (named : NamedAll tokens)
    (matched : repeatWhile guard step fuel tokens = some (trees, rest)) :
    SoundAll trees ∧ NamedAll rest := by
  induction fuel generalizing tokens trees with
  | zero =>
    cases matched
    exact ⟨Tree.soundAll_nil, named⟩
  | succ fuel ih =>
    rw [repeatWhile] at matched
    split at matched
    next ahead =>
      split at matched
      next first left found =>
        obtain ⟨firstSound, leftNamed⟩ := steps ahead named found
        split at matched
        next =>
          obtain ⟨⟨more, last⟩, again, same⟩ := Option.map_eq_some_iff.mp matched
          cases same
          obtain ⟨moreSound, restNamed⟩ := ih leftNamed again
          exact ⟨Tree.soundAll_append.mpr ⟨firstSound, moreSound⟩, restNamed⟩
        next => cases matched
      next => cases matched
    next =>
      cases matched
      exact ⟨Tree.soundAll_nil, named⟩

/-- The outcomes of a safe pattern are sound, given readers of rules that are reliable. -/
theorem eval_sound {run : Rule → List Token → Match} (reliable : Reliable run) {pattern : Part}
    {known : List Token → Prop} (safe : Safe known pattern) {tokens rest : List Token}
    {trees : List Tree} (ahead : known tokens) (named : NamedAll tokens)
    (matched : eval run pattern tokens = some (trees, rest)) : SoundAll trees ∧ NamedAll rest := by
  induction pattern generalizing known tokens trees rest with
  | empty =>
    cases matched
    exact ⟨Tree.soundAll_nil, named⟩
  | refuse => cases matched
  | take read => exact safe tokens trees rest named matched
  | print printed =>
    cases matched
    exact ⟨Tree.soundAll_leaves.mpr safe, named⟩
  | hide pattern ih =>
    obtain ⟨⟨hidden, left⟩, found, same⟩ := Option.map_eq_some_iff.mp matched
    cases same
    exact ⟨Tree.soundAll_nil, (ih safe ahead named found).2⟩
  | group delimiter content ih =>
    unfold eval at matched
    split at matched
    next found inner left =>
      obtain ⟨group, leftNamed⟩ := Token.namedAll_cons.mp named
      unfold Token.Named at group
      split at matched
      · split at matched
        next outcome =>
          cases matched
          have content := (ih safe trivial group outcome).1
          refine ⟨Tree.soundAll_cons.mpr ⟨?_, Tree.soundAll_nil⟩, leftNamed⟩
          unfold Tree.Sound
          exact content
        next => cases matched
      · cases matched
    next => cases matched
  | seq first second firstIh secondIh =>
    unfold eval at matched
    split at matched
    next front left found =>
      obtain ⟨frontSound, leftNamed⟩ := firstIh safe.1 ahead named found
      obtain ⟨⟨more, last⟩, again, same⟩ := Option.map_eq_some_iff.mp matched
      cases same
      obtain ⟨moreSound, restNamed⟩ := secondIh safe.2 trivial leftNamed again
      exact ⟨Tree.soundAll_append.mpr ⟨frontSound, moreSound⟩, restNamed⟩
    next => cases matched
  | choose guard yes no yesIh noIh =>
    unfold eval at matched
    split at matched
    next chosen => exact yesIh safe.1 ⟨ahead, chosen⟩ named matched
    next refused => exact noIh safe.2 ⟨ahead, Bool.eq_false_iff.mpr refused⟩ named matched
  | attempt first second firstIh secondIh =>
    unfold eval at matched
    split at matched
    next outcome found =>
      cases matched
      exact firstIh safe.1 ahead named found
    next => exact secondIh safe.2 ahead named matched
  | many guard pattern ih =>
    exact repeatWhile_sound (fun holds given found => ih safe holds given found) named matched
  | call rule => exact reliable.sound named matched
  | node label pattern ih =>
    obtain ⟨⟨inner, left⟩, found, same⟩ := Option.map_eq_some_iff.mp matched
    cases same
    obtain ⟨sound, restNamed⟩ := ih safe.2 ahead named found
    refine ⟨Tree.soundAll_cons.mpr ⟨?_, Tree.soundAll_nil⟩, restNamed⟩
    unfold Tree.Sound
    exact ⟨safe.1 reliable ahead found, sound⟩
  | arrange order pattern ih =>
    obtain ⟨⟨inner, left⟩, found, same⟩ := Option.map_eq_some_iff.mp matched
    cases same
    obtain ⟨sound, restNamed⟩ := ih safe.2 ahead named found
    exact ⟨safe.1 inner sound, restNamed⟩

end Pattern

namespace Part

open Pattern (Gives Safe)

variable {known : List Token → Prop}

/-- Punctuation has no words in it. -/
@[simp] theorem namedAll_operator (text : String) : NamedAll (Token.operator text) := by
  have chars (list : List Char) : NamedAll (Token.operatorOf list) := by
    fun_induction Token.operatorOf list <;> simp_all [Token.Named]
  exact chars text.toList

/-- A token that is taken as it is keeps its words. -/
@[simp] theorem safe_takeOne (guard : Guard) : Safe known (takeOne guard) := by
  intro tokens trees rest named matched
  cases tokens with
  | nil => cases matched
  | cons token tokens =>
    dsimp only at matched
    split at matched
    · cases matched
      obtain ⟨first, others⟩ := Token.namedAll_cons.mp named
      exact ⟨by simpa using first, others⟩
    · cases matched

/-- A given word is a word. -/
@[simp] theorem safe_keyword (text : String) : Safe known (keyword text) := safe_takeOne _

/-- An identifier is a word. -/
@[simp] theorem safe_name : Safe known name := safe_takeOne _

/-- Any word is a word. -/
@[simp] theorem safe_anyName : Safe known anyName := safe_takeOne _

/-- The words in a group that is taken as it is are words. -/
@[simp] theorem safe_anyGroup : Safe known anyGroup := safe_takeOne _

/-- An operator that is printed as another one has no words in it. -/
@[simp] theorem safe_respelled (text printed : String) : Safe known (respelled text printed) := by
  intro tokens trees rest named matched
  dsimp only at matched
  split at matched
  · cases matched
    refine ⟨Tree.soundAll_leaves.mpr (namedAll_operator printed), ?_⟩
    rw [Token.namedAll_iff] at named ⊢
    exact fun token member => named token (List.mem_of_mem_drop member)
  · cases matched

/-- An operator has no words in it. -/
@[simp] theorem safe_sign (text : String) : Safe known (sign text) := safe_respelled text text

/-- The name of a lifetime is a word. -/
@[simp] theorem safe_lifetimeName : Safe known lifetimeName := by
  intro tokens trees rest named matched
  dsimp only at matched
  split at matched
  next text rest =>
    cases matched
    simp only [Token.namedAll_cons] at named
    exact ⟨by simpa using ⟨named.1, named.2.1⟩, named.2.2⟩
  next => cases matched

/-- A literal has no words in it but the truth values. -/
@[simp] theorem safe_anyLiteral : Safe known anyLiteral := by
  intro tokens trees rest named matched
  dsimp only at matched
  split at matched
  next => cases matched
  next =>
    split at matched
    next joint text rest _ =>
      cases matched
      simp only [Token.namedAll_cons] at named
      exact ⟨by simp [Token.Named], named.2.2⟩
    next token rest _ _ =>
      cases matched
      obtain ⟨first, others⟩ := Token.namedAll_cons.mp named
      exact ⟨by simpa using first, others⟩
    next => cases matched

/-- A position has no words in it. -/
@[simp] theorem safe_position : Safe known position := by
  intro tokens trees rest named matched
  dsimp only at matched
  split at matched
  next text rest =>
    obtain ⟨digits, _, same⟩ := Option.map_eq_some_iff.mp matched
    cases same
    exact ⟨by simp [Token.Named], (Token.namedAll_cons.mp named).2⟩
  next => cases matched

/-- Items are the trees of a list but for the leaves that part them. -/
theorem separated_sound {trees : List Tree} (sound : SoundAll trees) :
    ∀ item ∈ separated trees, item.1.Sound := by
  fun_induction separated trees <;> simp_all

/-- Items behind the lifetimes are sound as they were. -/
theorem followLifetimes_sound (parameters comma : Bool) {items : List (Tree × Bool)}
    (sound : ∀ item ∈ items, item.1.Sound) :
    SoundAll (followLifetimes parameters comma items) := by
  have parting : Tree.comma.Sound := by
    unfold Tree.comma Tree.Sound Token.Named
    trivial
  fun_induction followLifetimes parameters comma items with
  | case1 => exact Tree.soundAll_nil
  | case2 comma tree separator items ih =>
    have first := sound _ List.mem_cons_self
    have later := ih fun item member => sound item (List.mem_cons_of_mem _ member)
    cases comma <;> cases separator <;> simp_all

/-- Lifetimes in front leave arguments or parameters sound. -/
theorem lifetimesFirst_sound (parameters : Bool) {trees : List Tree} (sound : SoundAll trees) :
    SoundAll (lifetimesFirst parameters trees) := by
  have parting : Tree.comma.Sound := by
    unfold Tree.comma Tree.Sound Token.Named
    trivial
  have items := separated_sound sound
  refine Tree.soundAll_append.mpr ⟨?_, ?_⟩
  · rw [Tree.soundAll_iff]
    intro tree member
    obtain ⟨item, among, here⟩ := List.mem_flatMap.mp member
    have first := items item (List.mem_filter.mp among).1
    rcases List.mem_cons.mp here with rfl | behind
    · exact first
    · split at behind
      · exact List.mem_singleton.mp behind ▸ parting
      · exact absurd behind List.not_mem_nil
  · exact followLifetimes_sound parameters _ fun item member =>
      items item (List.mem_filter.mp member).1

/-- Trees between sound separators are sound as they were. -/
theorem intersperse_sound {separator : Tree} (parting : separator.Sound) {trees : List Tree}
    (sound : SoundAll trees) : SoundAll (trees.intersperse separator) := by
  induction trees with
  | nil => exact sound
  | cons tree trees ih =>
    cases trees with
    | nil => exact sound
    | cons next trees =>
      obtain ⟨first, others⟩ := Tree.soundAll_cons.mp sound
      rw [List.intersperse_cons_cons]
      simp only [Tree.soundAll_cons, first, parting, true_and]
      exact ih others

/-- The positions that a number stands for have no words in them. -/
@[simp] theorem safe_positionsOf (trailing : Bool) : Safe known (positionsOf trailing) := by
  have leaves (digits : List String) : SoundAll
      ((digits.map fun digits => Tree.leaf (.literal digits)).intersperse
        (.leaf (.punct '.' false))) := by
    refine intersperse_sound (by simp [Tree.Sound, Token.Named]) ?_
    rw [Tree.soundAll_iff]
    intro tree member
    obtain ⟨text, _, rfl⟩ := List.mem_map.mp member
    simp [Tree.Sound, Token.Named]
  intro tokens trees rest named matched
  dsimp only at matched
  split at matched
  next text rest =>
    split at matched
    next digits found _ =>
      split at matched
      · cases matched
        exact ⟨leaves digits, (Token.namedAll_cons.mp named).2⟩
      · cases matched
    next => cases matched
  next => cases matched

/-- The positions behind a point have no words in them but the name of a field. -/
@[simp] theorem safe_positions : Safe known positions :=
  ⟨safe_positionsOf false, safe_positionsOf true, namedAll_operator ".", safe_takeOne _,
    safe_position⟩

/-- The rules may be called anywhere. -/
@[simp] theorem safe_call (rule : Rule) : Safe known (Part.call rule) := trivial

/-- Parts one after another are safe when each of them is, all but the first wherever they
stand. -/
@[simp] theorem safe_row {part : Part} {parts : List Part} :
    Safe known (row (part :: parts)) ↔
      Safe known part ∧ ∀ part ∈ parts, Safe (fun _ => True) part := by
  induction parts generalizing part known with
  | nil => simp [row]
  | cons next parts ih =>
    rw [row, Safe, ih]
    · simp
    · simp

/-- Of most parts later stages ask nothing. -/
@[simp] theorem gives_plain {label : Label}
    (plain : label ≠ .name ∧ label ≠ .binding ∧ label ≠ .traitItem ∧ label ≠ .type)
    (pattern : Part) :
    Gives known label pattern := by
  intro run reliable tokens trees rest ahead matched
  cases label <;> simp_all [Label.Holds]

/-- A word that is taken as it is is a name. -/
theorem gives_takeOne {guard : Guard}
    (isWord : ∀ tokens, guard tokens = true → Guard.anyWord tokens = true) :
    Gives known .name (takeOne guard) := by
  intro run reliable tokens trees rest ahead matched
  cases tokens with
  | nil => cases matched
  | cons token tokens =>
    change (if _ then _ else _) = _ at matched
    split at matched
    next holds =>
      cases matched
      have word := isWord _ holds
      cases token with
      | word text => exact ⟨text, rfl⟩
      | _ => cases word
    next => cases matched

/-- Any word is a name. -/
@[simp] theorem gives_anyName : Gives known .name anyName := gives_takeOne fun _ => id

/-- An identifier is a name. -/
@[simp] theorem gives_name : Gives known .name name := by
  refine gives_takeOne fun tokens ahead => ?_
  unfold Guard.ident at ahead
  split at ahead
  · rfl
  · cases ahead

/-- A choice gives what both of its sides give. -/
@[simp] theorem gives_choose {label : Label} {guard : Guard} {yes no : Part}
    (left : Gives (fun tokens => known tokens ∧ guard tokens = true) label yes)
    (right : Gives (fun tokens => known tokens ∧ guard tokens = false) label no) :
    Gives known label (.choose guard yes no) := by
  intro run reliable tokens trees rest ahead matched
  unfold Pattern.eval at matched
  split at matched
  next chosen => exact left reliable ⟨ahead, chosen⟩ matched
  next refused => exact right reliable ⟨ahead, Bool.eq_false_iff.mpr refused⟩ matched

/-- A pattern that is a name has a name in it. -/
theorem gives_binding (path : ∀ tokens, known tokens → pathPatternAhead tokens = false)
    (wildcard : ∀ tokens, known tokens → Guard.word "_" tokens = false)
    (binding : ∀ tokens, known tokens → bindingAhead tokens = true) :
    Gives known .binding (Part.call .pattern) :=
  fun reliable _ _ _ ahead matched =>
    reliable.binding (path _ ahead) (wildcard _ ahead) (binding _ ahead) matched

/-- A trait has a name in it. -/
@[simp] theorem gives_trait : Gives known .traitItem (Part.call .traitDeclaration) :=
  fun reliable _ _ _ _ matched => reliable.trait matched

/-- A type prints something. -/
@[simp] theorem gives_type (plus : Bool) : Gives known .type (Part.call (.type plus)) :=
  fun reliable _ _ _ _ matched => reliable.seen rfl matched

/-- The patterns of all rules are safe. -/
theorem definition_safe (rule : Rule) : Safe (fun _ => True) rule.definition := by
  cases rule with
  | plainPath | path | qualifiedPath | argument | roundArguments | lifetimeBinder | bound
  | boundsRest | boundsWithTrait | functionType | result | whereClause =>
    simp [Rule.definition, Safe, plainSegment, plainPath, path, qualifiedPath, argument, constant,
      roundArguments, lifetimeBinder, genericParameters, genericParameter, bound, traitBound,
      capture, boundsRest, boundsWithTrait, functionType, result, whereClause, predicates,
      predicate, Part.cases, whenAhead, maybe, maybeSign, maybeBinder, maybeLinkage, maybeString,
      sumUntil, boundsUntil, lifetimesUntil, variadicType, commaList]
  | segment style =>
    cases style <;>
      simp [Rule.definition, Safe, segment, roundBehind, Part.cases]
  | arguments | generics =>
    simp [Rule.definition, Safe, arguments, generics, genericParameters, genericParameter,
      constant, Part.cases, whenAhead, maybeSign, sumUntil, boundsUntil, lifetimesUntil]
    exact fun _ => lifetimesFirst_sound _
  | «type» plus =>
    cases plus <;>
      simp [Rule.definition, Part.type, Safe, Part.cases, roundType, whenAhead, pathType, maybe,
        maybeSign, boundsOf]
  | pattern | alternatives | patternBound | fieldPatterns =>
    simp [Rule.definition, Safe, pattern, alternatives, patternBound, fieldPatterns, fieldPattern,
      pathPattern, rangeBehind, rangeSign, binding, Part.cases, whenAhead, maybe, maybeSign,
      commaList]
  | block | openBlock | statements | statement | closure | blockLike | conditional | arms
  | fieldValues =>
    simp [Rule.definition, Safe, block, openBlock, statements, statement, closure, blockLike,
      conditional, arms, fieldValues, condition, statementEnd, Part.cases, whenAhead, maybe,
      maybeSign, maybeBinder]
  | atom | trailers | unary | tightRest | tight | comparison | junction | expressionRest
  | expression =>
    simp [Rule.definition, Safe, atom, trailers, unary, tightRest, tight, comparison,
      comparisonRest, junction, junctionRest, expressionRest, assignmentRest, expression,
      pathExpression, rangeOperator, callArguments, assignments, firstSign, Part.cases, whenAhead,
      maybe, commaList]
  | attributes | innerAttributes | attributeContent | markers | marker | signature | method
  | visibility | fields | traitMember | traitDeclaration | traitAlias =>
    simp [Rule.definition, Safe, attributes, innerAttributes, attributeContent, markers, marker,
      signature, method, visibility, fields, traitMember, traitMember.memberRest,
      traitDeclaration, traitHead, traitAlias, constantItem, predicates, predicate, typeItem,
      definitionGuarded, typeDefinition, macroItem, Part.cases, whenAhead, maybe, maybeSign,
      maybeBinder, maybeLinkage, maybeString, commaList, ending, sumUntil, boundsUntil,
      lifetimesUntil]
  | parameters first =>
    have placeholder : IsWord "_" := by decide
    have named {known : List Token → Prop} : Gives (fun tokens => ((known tokens ∧
        pathPatternAhead tokens = false) ∧ Guard.word "_" tokens = false) ∧
        bindingAhead tokens = true) .binding (call .pattern) :=
      gives_binding (fun _ ahead => ahead.1.1.2) (fun _ ahead => ahead.1.2) fun _ ahead => ahead.2
    cases first <;>
      simp [Rule.definition, Safe, parameters, parameter, parameterPattern, receiver, variadic,
        ending, Part.cases, whenAhead, maybe, maybeSign, Token.Named, placeholder, named]
  | useTree | implMember | foreignMember | item | file =>
    simp [Rule.definition, Safe, useTree, implMember, foreignMember, item, itemRest, file,
      plainSegment, macroItem, constantItem, predicates, predicate, typeItem, guardedDefinition,
      definitionGuarded, typeDefinition, staticItem, structItem, enumItem, foreignItem, implItem,
      implHead, moduleItem, positionalFields, Part.cases, whenAhead, maybe, maybeSign, maybeBinder,
      maybeLinkage, maybeString, commaList, sumUntil, boundsUntil, lifetimesUntil]

section Names

variable {run : Rule → List Token → Match} {label : Label} {tokens rest : List Token}
  {trees : List Tree}

/-- A labelled part is a part with its label. -/
theorem hasPart_of_node {part : Part}
    (matched : Pattern.eval run (.node label part) tokens = some (trees, rest)) :
    Tree.hasPart label trees = true := by
  obtain ⟨⟨inner, left⟩, _, same⟩ := Option.map_eq_some_iff.mp matched
  cases same
  simp [Tree.hasPart, Tree.part?, Tree.partsAll, Tree.parts]

/-- Parts one after another have what one of them has. -/
theorem hasPart_of_row (part : Part) {parts : List Part} (member : part ∈ parts)
    (has : ∀ {tokens trees rest}, Pattern.eval run part tokens = some (trees, rest) →
      Tree.hasPart label trees = true)
    (matched : Pattern.eval run (row parts) tokens = some (trees, rest)) :
    Tree.hasPart label trees = true := by
  induction parts generalizing tokens trees rest with
  | nil => exact absurd member List.not_mem_nil
  | cons first parts ih =>
    cases parts with
    | nil =>
      rw [List.mem_singleton.mp member] at has
      exact has matched
    | cons next parts =>
      rw [row, Pattern.eval] at matched
      · split at matched
        next front left found =>
          obtain ⟨⟨more, last⟩, again, same⟩ := Option.map_eq_some_iff.mp matched
          cases same
          rw [Tree.hasPart_append, Bool.or_eq_true]
          rcases List.mem_cons.mp member with rfl | later
          · exact Or.inl (has found)
          · exact Or.inr (ih later again)
        next => cases matched
      · exact List.cons_ne_nil _ _

/-- A signature has a name in it. -/
theorem signature_hasName (matched : Pattern.eval run Part.signature tokens = some (trees, rest)) :
    Tree.hasPart .name trees = true :=
  hasPart_of_row (.node .name name) (by simp) hasPart_of_node matched

/-- A method has a name in it. -/
theorem method_hasName (reliable : Reliable run)
    (matched : Pattern.eval run Part.method tokens = some (trees, rest)) :
    Tree.hasPart .name trees = true :=
  hasPart_of_row (call .signature) (by simp) reliable.signature matched

/-- A trait has a name in it. -/
theorem traitDeclaration_hasName
    (matched : Pattern.eval run Part.traitDeclaration tokens = some (trees, rest)) :
    Tree.hasPart .name trees = true :=
  hasPart_of_row traitHead (by simp)
    (hasPart_of_row (.node .name name) (by simp) hasPart_of_node) matched

/-- A pattern that is a name has a name in it. -/
theorem pattern_hasName (path : pathPatternAhead tokens = false)
    (wildcard : Guard.word "_" tokens = false) (binds : bindingAhead tokens = true)
    (matched : Pattern.eval run Part.pattern tokens = some (trees, rest)) :
    Tree.hasPart .name trees = true := by
  -- A pattern that is a name begins with a word that no other pattern begins with.
  have others : Guard.word "box" tokens = false ∧
      Guard.any [Guard.op "-", Guard.literal, Guard.word "const"] tokens = false := by
    unfold bindingAhead Guard.either at binds
    cases tokens with
    | nil => cases binds
    | cons token tokens =>
      cases token with
      | word text =>
        have apart : text ≠ "box" ∧ text ≠ "true" ∧ text ≠ "false" ∧ text ≠ "const" := by
          refine ⟨?_, ?_, ?_, ?_⟩ <;> rintro rfl <;>
            simp [Guard.oneOf, Guard.ident, Guard.reserved] at binds
        simp [Guard.word, Guard.any, Guard.op, Guard.chars, Guard.literal, apart]
      | _ => cases binds
  simp only [Part.pattern, Part.cases, Pattern.eval, path, wildcard, others, binds,
    Bool.false_eq_true, ↓reduceIte] at matched
  exact hasPart_of_row (.node .name (.choose (Guard.word "self") anyName name)) (by simp)
    hasPart_of_node matched

end Names

end Part

/-- Readers that refuse some calls are reliable when those that allow them are. -/
theorem Reliable.guarded {run : Rule → List Token → Match} (reliable : Reliable run)
    (allowed : Rule → List Token → Prop) [∀ rule tokens, Decidable (allowed rule tokens)] :
    Reliable fun rule tokens => if allowed rule tokens then run rule tokens else none := by
  have unguarded {rule : Rule} {tokens rest : List Token} {trees : List Tree}
      (matched : (if allowed rule tokens then run rule tokens else none) = some (trees, rest)) :
      run rule tokens = some (trees, rest) := by
    split at matched
    · exact matched
    · cases matched
  exact {
    sound := fun named matched => reliable.sound named (unguarded matched)
    binding := fun path wildcard binds matched =>
      reliable.binding path wildcard binds (unguarded matched)
    trait := fun matched => reliable.trait (unguarded matched)
    signature := fun matched => reliable.signature (unguarded matched)
    seen := fun seen matched => reliable.seen seen (unguarded matched) }

/-- What rules match is sound, whatever the fuel. -/
theorem runFrom_reliable (fuel : Nat) : Reliable (declarations.runFrom fuel) := by
  induction fuel with
  | zero =>
    refine ⟨?_, ?_, ?_, ?_, ?_⟩ <;> intros <;> contradiction
  | succ fuel ih =>
    exact {
      seen := fun {rule tokens trees rest} seen matched =>
        Pattern.eval_seen (ih.guarded fun called left =>
            declarations.measure called left < declarations.measure rule tokens).seen
          (Rule.prints seen) matched
      sound := fun {rule tokens trees rest} named matched =>
        Pattern.eval_sound (ih.guarded fun called left =>
            declarations.measure called left < declarations.measure rule tokens)
          (Part.definition_safe rule) trivial named matched
      binding := fun path wildcard binds matched =>
        Part.pattern_hasName path wildcard binds matched
      trait := fun matched => Part.traitDeclaration_hasName matched
      signature := fun matched => Part.signature_hasName matched }

/-- The trees of a text that a rule matches are sound. -/
theorem parse_sound {rule : Rule} {text : String} {trees : List Tree}
    (parsed : parse? rule text = some trees) : SoundAll trees := by
  obtain ⟨tokens, read, matched⟩ := Option.bind_eq_some_iff.mp parsed
  unfold Grammar.matchAll? at matched
  split at matched
  next found =>
    cases matched
    exact ((runFrom_reliable _).sound (Lexer.read_named read) found).1
  next => cases matched

/-- A method has a name in it. -/
theorem parse_method_hasName {text : String} {trees : List Tree}
    (parsed : parse? .method text = some trees) : Tree.hasPart .name trees = true := by
  obtain ⟨tokens, read, matched⟩ := Option.bind_eq_some_iff.mp parsed
  unfold Grammar.matchAll? at matched
  split at matched
  next found =>
    cases matched
    have reliable := (runFrom_reliable (declarations.measure .method tokens)).guarded
      fun called left => declarations.measure called left < declarations.measure .method tokens
    exact Part.method_hasName reliable found
  next => cases matched

end DomainFactory.Syntax
