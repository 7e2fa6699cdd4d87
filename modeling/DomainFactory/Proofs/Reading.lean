import DomainFactory.Proofs.Loading
import DomainFactory.Proofs.Running

/-!
# Readings of texts

What a text declares is told here by relations, item by item in the order of the text. Of a file the
traits that stand in the file itself are read, and nothing inside its other items; the first trait
that cannot be read ends the reading. What the attributes of a trait say adds up. A JSON list is
read when each of its items is a surface, and refused when a name that some surface mentions is no
identifier. Each text has one reading, the one that loading goes by.
-/
namespace DomainFactory

namespace Syntax

/-- A tree that is a labelled part. -/
def Tree.Labelled (tree : Tree) : Prop := ∃ label trees, tree = .node label trees

/-- Repetition prints labelled parts when each step does. -/
theorem Pattern.repeatWhile_labelled {guard : Guard} {step : List Token → Match}
    (steps : ∀ {tokens trees rest}, step tokens = some (trees, rest) → ∀ tree ∈ trees,
      tree.Labelled)
    {fuel : Nat} {tokens rest : List Token} {trees : List Tree}
    (matched : repeatWhile guard step fuel tokens = some (trees, rest)) :
    ∀ tree ∈ trees, tree.Labelled := by
  induction fuel generalizing tokens trees with
  | zero =>
    cases matched
    exact fun _ member => absurd member List.not_mem_nil
  | succ fuel ih =>
    rw [repeatWhile] at matched
    split at matched
    next =>
      split at matched
      next first left found =>
        split at matched
        next =>
          obtain ⟨⟨more, last⟩, again, same⟩ := Option.map_eq_some_iff.mp matched
          cases same
          intro tree member
          rcases List.mem_append.mp member with here | later
          · exact steps found tree here
          · exact ih again tree later
        next => cases matched
      next => cases matched
    next =>
      cases matched
      exact fun _ member => absurd member List.not_mem_nil

/-- Whether a pattern prints labelled parts alone, whatever the rules that it calls match. -/
def Pattern.PrintsLabelled {Rule : Type} (pattern : Pattern Rule) : Prop :=
  ∀ {run tokens trees rest}, eval run pattern tokens = some (trees, rest) →
    ∀ tree ∈ trees, tree.Labelled

/-- A labelled pattern prints one labelled part. -/
theorem Pattern.node_labelled {Rule : Type} {label : Label} {pattern : Pattern Rule} :
    (Pattern.node label pattern).PrintsLabelled := by
  intro run tokens trees rest matched tree member
  obtain ⟨⟨inner, left⟩, _, same⟩ := Option.map_eq_some_iff.mp matched
  cases same
  exact ⟨label, inner, List.mem_singleton.mp member⟩

/-- The attributes in front of the items of a file are labelled parts. -/
theorem Part.innerAttributes_labelled : Part.innerAttributes.PrintsLabelled :=
  fun matched => Pattern.repeatWhile_labelled Pattern.node_labelled matched

/-- An item is a labelled part: a trait, or a part that no later stage looks into. -/
theorem Part.item_labelled : Part.item.PrintsLabelled := by
  intro run tokens trees rest matched
  unfold item Pattern.eval at matched
  split at matched
  next =>
    unfold Pattern.eval at matched
    split at matched
    next found =>
      cases matched
      exact Pattern.node_labelled found
    next => exact Pattern.node_labelled matched
  next => exact Pattern.node_labelled matched

/-- A rule that prints labelled parts alone does so with any fuel, also where some calls are
refused. -/
theorem Rule.call_labelled {rule : Rule} (prints : rule.definition.PrintsLabelled)
    {allowed : Prop} [Decidable allowed] {fuel : Nat} {tokens rest : List Token}
    {trees : List Tree}
    (matched : (if allowed then declarations.runFrom fuel rule tokens else none) =
      some (trees, rest)) : ∀ tree ∈ trees, tree.Labelled := by
  split at matched
  next =>
    cases fuel with
    | zero => cases matched
    | succ fuel => exact prints matched
  next => cases matched

/-- What stands in a file are labelled parts: attributes, traits and other items. -/
theorem parse_file_labelled {text : String} {items : List Tree}
    (parsed : parse? .file text = some items) : ∀ item ∈ items, item.Labelled := by
  obtain ⟨tokens, _, matched⟩ := Option.bind_eq_some_iff.mp parsed
  unfold Grammar.matchAll? at matched
  split at matched
  next found =>
    cases matched
    change Pattern.eval _ Part.file tokens = _ at found
    unfold Part.file Pattern.eval at found
    split at found
    next front left attributes =>
      obtain ⟨⟨more, last⟩, repeated, same⟩ := Option.map_eq_some_iff.mp found
      cases same
      intro item member
      rcases List.mem_append.mp member with first | later
      · exact Rule.call_labelled Part.innerAttributes_labelled attributes item first
      · exact Pattern.repeatWhile_labelled (Rule.call_labelled Part.item_labelled) repeated item
          later
    next => cases found
  next => cases matched

end Syntax

namespace Surface

open Syntax

variable {config : Config}

/-- The name of a trait. -/
def traitName (trees : List Tree) : String := Tree.text ((Tree.part? .name trees).getD [])

/-- The names of the traits that a trait builds on. -/
def traitBases (trees : List Tree) : List String :=
  (Tree.partsAll .bound trees).filterMap lastName?

/-- Whether an attribute of a type has save states tracked. A name that marks factories, too, marks
nothing else. -/
def tracks (config : Config) (given : Attribute) : Bool :=
  given.isNamed config.saveStateMarker && !given.isNamed config.factoryMarker

/-- Whether an attribute of a type associates it with a policy. A name that marks factories or save
states, too, names no policy. -/
def associates (config : Config) (given : Attribute) : Bool :=
  given.isNamed config.authorizeMarker &&
    !(given.isNamed config.factoryMarker || given.isNamed config.saveStateMarker)

/-- The attribute carries a path, and the policy is its last name. -/
def NamesPolicy (given : Attribute) (policy : String) : Prop :=
  ∃ tokens path, given.input = .list tokens ∧
    declarations.matchAll? (.path .plain) tokens = some path ∧
    lastName? path = some policy

/-- What a trait reads. -/
inductive TraitRead (config : Config) (trees : List Tree) : Except SurfaceError Surface → Prop where
  /-- The trait builds on several others. -/
  | several (many : 2 ≤ (traitBases trees).length) :
    TraitRead config trees (.error (.multipleBases (traitName trees)))
  /-- An attribute names no policy where it should, and those in front of it do. -/
  | malformed {before after : List Attribute} {given : Attribute} {policies : List String}
    (few : (traitBases trees).length ≤ 1)
    (attributes : Attribute.allOf trees = before ++ given :: after)
    (fine : List.Forall₂ NamesPolicy (before.filter (associates config)) policies)
    (associated : associates config given = true) (bad : ∀ policy, ¬ NamesPolicy given policy) :
    TraitRead config trees (.error (.badMarker (traitName trees)))
  /-- The attributes add up, and every method is kept as text. -/
  | whole {policies : List String} (few : (traitBases trees).length ≤ 1)
    (fine : List.Forall₂ NamesPolicy ((Attribute.allOf trees).filter (associates config))
      policies) :
    TraitRead config trees (.ok {
      name := traitName trees, base := (traitBases trees).head?, policies,
      factory := (Attribute.allOf trees).any (·.isNamed config.factoryMarker),
      saveState := (Attribute.allOf trees).any (tracks config),
      methods := (Tree.partsAll .method trees).map Tree.text })

section Attributes

variable {surface : Surface} {given : Attribute} {attributes : List Attribute}
  {policies : List String}

/-- The surface with what attributes of a type say besides the policies that they name. -/
def withAttributes (config : Config) (surface : Surface) (attributes : List Attribute)
    (policies : List String) : Surface :=
  { surface with
    policies := surface.policies ++ policies
    factory := surface.factory || attributes.any (·.isNamed config.factoryMarker)
    saveState := surface.saveState || attributes.any (tracks config) }

/-- An attribute that associates a type with a policy adds the policy that it names. -/
theorem addAttribute_policy (associated : associates config given = true) {policy : String}
    (named : NamesPolicy given policy) :
    addAttribute config surface given = .ok (surface.authorizedBy policy) := by
  obtain ⟨tokens, path, input, matched, last⟩ := named
  simp only [associates, Bool.and_eq_true, Bool.not_eq_true', Bool.or_eq_false_iff] at associated
  simp [addAttribute, associated, input, matched, last]

/-- It is refused when it names none. -/
theorem addAttribute_bad (associated : associates config given = true)
    (bad : ∀ policy, ¬ NamesPolicy given policy) :
    addAttribute config surface given = .error (.badMarker surface.name) := by
  simp only [associates, Bool.and_eq_true, Bool.not_eq_true', Bool.or_eq_false_iff] at associated
  obtain ⟨authorizes, noFactory, noSaveState⟩ := associated
  cases input : given.input with
  | list tokens =>
    cases matched : declarations.matchAll? (.path .plain) tokens with
    | none => simp [addAttribute, authorizes, noFactory, noSaveState, input, matched]
    | some path =>
      cases last : lastName? path with
      | none => simp [addAttribute, authorizes, noFactory, noSaveState, input, matched, last]
      | some policy => exact absurd ⟨tokens, path, input, matched, last⟩ (bad policy)
  | none => simp [addAttribute, authorizes, noFactory, noSaveState, input]
  | value => simp [addAttribute, authorizes, noFactory, noSaveState, input]

/-- Any other attribute adds no policy. -/
theorem addAttribute_other (other : associates config given = false) :
    addAttribute config surface given = .ok (withAttributes config surface [given] []) := by
  unfold addAttribute withAttributes
  unfold associates at other
  by_cases factory : given.isNamed config.factoryMarker = true
  · simp [factory, tracks, withFactory]
  · by_cases saveState : given.isNamed config.saveStateMarker = true
    · simp [factory, saveState, tracks, trackingSaveState]
    · have authorizes : given.isNamed config.authorizeMarker = false := by
        simpa [factory, saveState] using other
      simp [factory, saveState, authorizes, tracks]

/-- The attributes of a type add up when those name policies that should. -/
theorem foldlM_addAttribute
    (fine : List.Forall₂ NamesPolicy (attributes.filter (associates config)) policies) :
    attributes.foldlM (addAttribute config) surface =
      .ok (withAttributes config surface attributes policies) := by
  induction attributes generalizing surface policies with
  | nil =>
    cases fine
    simp [withAttributes, pure, Except.pure]
  | cons given attributes ih =>
    rw [List.foldlM_cons]
    by_cases associated : associates config given = true
    · rw [List.filter_cons_of_pos associated] at fine
      obtain ⟨policy, more, named, rest, rfl⟩ := List.forall₂_cons_left_iff.mp fine
      rw [addAttribute_policy associated named]
      simp only [associates, Bool.and_eq_true, Bool.not_eq_true', Bool.or_eq_false_iff]
        at associated
      refine (ih rest).trans ?_
      simp [withAttributes, authorizedBy, tracks, associated]
    · rw [List.filter_cons_of_neg associated] at fine
      rw [addAttribute_other (Bool.eq_false_iff.mpr associated)]
      refine (ih fine).trans ?_
      simp [withAttributes, Bool.or_assoc]

/-- Of attributes that associate a type with policies all name some, or there is a first that names
none. -/
theorem policies_or_bad (config : Config) (attributes : List Attribute) :
    (∃ policies, List.Forall₂ NamesPolicy (attributes.filter (associates config)) policies) ∨
      ∃ before given after policies, attributes = before ++ given :: after ∧
        List.Forall₂ NamesPolicy (before.filter (associates config)) policies ∧
        associates config given = true ∧ ∀ policy, ¬ NamesPolicy given policy := by
  induction attributes with
  | nil => exact .inl ⟨[], .nil⟩
  | cons given attributes ih =>
    by_cases associated : associates config given = true
    · by_cases named : ∃ policy, NamesPolicy given policy
      · obtain ⟨policy, named⟩ := named
        rcases ih with ⟨policies, fine⟩ | ⟨before, bad, after, policies, rfl, fine, rest⟩
        · exact .inl ⟨policy :: policies, by simpa [associated] using ⟨named, fine⟩⟩
        · refine .inr ⟨given :: before, bad, after, policy :: policies, rfl, ?_, rest⟩
          simpa [associated] using ⟨named, fine⟩
      · exact .inr ⟨[], given, attributes, [], rfl, .nil, associated, not_exists.mp named⟩
    · rcases ih with ⟨policies, fine⟩ | ⟨before, bad, after, policies, rfl, fine, rest⟩
      · exact .inl ⟨policies, by simpa [associated] using fine⟩
      · exact .inr ⟨given :: before, bad, after, policies, rfl, by simpa [associated] using fine,
          rest⟩

end Attributes

section Traits

variable {trees : List Tree}

/-- A trait that builds on several others is refused. -/
theorem ofTrees_several (many : 2 ≤ (traitBases trees).length) :
    ofTrees config trees = .error (.multipleBases (traitName trees)) := by
  unfold ofTrees
  match bases : (Tree.partsAll .bound trees).filterMap lastName? with
  | [] | [_] => simp [traitBases, bases] at many
  | _ :: _ :: _ => rfl

/-- The attributes of any other trait are read before its methods are kept. -/
theorem ofTrees_few (few : (traitBases trees).length ≤ 1) : ofTrees config trees = (do
    let surface ← (Attribute.allOf trees).foldlM (addAttribute config)
      { name := traitName trees, base := (traitBases trees).head? }
    return { surface with methods := (Tree.partsAll .method trees).map Tree.text }) := by
  unfold ofTrees traitBases at *
  match bases : (Tree.partsAll .bound trees).filterMap lastName? with
  | [] | [_] => rfl
  | _ :: _ :: _ => simp [bases] at few

/-- What a trait reads is its surface, or the reason why there is none. -/
theorem TraitRead.ofTrees_eq {result : Except SurfaceError Surface}
    (read : TraitRead config trees result) : ofTrees config trees = result := by
  cases read with
  | several many => exact ofTrees_several many
  | malformed few attributes fine associated bad =>
    rw [ofTrees_few few, attributes, List.foldlM_append, foldlM_addAttribute fine]
    change (List.foldlM _ _ (_ :: _) >>= _) = _
    rw [List.foldlM_cons, addAttribute_bad associated bad]
    rfl
  | whole few fine =>
    rw [ofTrees_few few, foldlM_addAttribute fine]
    rfl

/-- A trait has one reading. -/
theorem traitRead_iff {result : Except SurfaceError Surface} :
    TraitRead config trees result ↔ ofTrees config trees = result := by
  refine ⟨TraitRead.ofTrees_eq, ?_⟩
  rintro rfl
  have read : ∃ result, TraitRead config trees result := by
    by_cases few : (traitBases trees).length ≤ 1
    · rcases policies_or_bad config (Attribute.allOf trees) with ⟨policies, fine⟩ |
        ⟨before, given, after, policies, attributes, fine, associated, bad⟩
      · exact ⟨_, .whole few fine⟩
      · exact ⟨_, .malformed few attributes fine associated bad⟩
    · exact ⟨_, .several (Nat.lt_of_not_le few)⟩
  obtain ⟨result, read⟩ := read
  rw [read.ofTrees_eq]
  exact read

end Traits

/-- What the items of a file read, one after another. -/
inductive ItemsRead (config : Config) : List Tree → Except SurfaceError (List Surface) → Prop where
  /-- Without items there are no surfaces. -/
  | done : ItemsRead config [] (.ok [])
  /-- A trait gives a surface in front of those of the items behind it. -/
  | trait {trees : List Tree} {items : List Tree} {surface : Surface} {surfaces : List Surface}
    (first : TraitRead config trees (.ok surface)) (rest : ItemsRead config items (.ok surfaces)) :
    ItemsRead config (.node .traitItem trees :: items) (.ok (surface :: surfaces))
  /-- A trait that cannot be read ends the reading. -/
  | broken {trees : List Tree} {items : List Tree} {error : SurfaceError}
    (first : TraitRead config trees (.error error)) :
    ItemsRead config (.node .traitItem trees :: items) (.error error)
  /-- Behind a trait that can be read the reading may end, too. -/
  | behind {trees : List Tree} {items : List Tree} {surface : Surface} {error : SurfaceError}
    (first : TraitRead config trees (.ok surface)) (rest : ItemsRead config items (.error error)) :
    ItemsRead config (.node .traitItem trees :: items) (.error error)
  /-- What is no trait is passed over, with all that stands in it. -/
  | other {item : Tree} {items : List Tree} {result : Except SurfaceError (List Surface)}
    (apart : ∀ trees, item ≠ .node .traitItem trees) (rest : ItemsRead config items result) :
    ItemsRead config (item :: items) result

/-- Labelled parts are read as the traits among them, in order. -/
theorem itemsRead_iff {items : List Tree} {result : Except SurfaceError (List Surface)}
    (labelled : ∀ item ∈ items, item.Labelled) :
    ItemsRead config items result ↔
      (Tree.partsAll .traitItem items).mapM (ofTrees config) = result := by
  induction items generalizing result with
  | nil =>
    constructor
    · rintro ⟨⟩
      rfl
    · rintro rfl
      exact .done
  | cons item items ih =>
    have behind {result : Except SurfaceError (List Surface)} := @ih result
      fun other member => labelled other (List.mem_cons_of_mem _ member)
    obtain ⟨label, trees, rfl⟩ := labelled item List.mem_cons_self
    by_cases isTrait : label = .traitItem
    · subst isTrait
      have parts : Tree.partsAll .traitItem (.node .traitItem trees :: items) =
          trees :: Tree.partsAll .traitItem items := by
        simp [Tree.partsAll, Tree.parts]
      rw [parts, List.mapM_cons]
      constructor
      · rintro (_ | ⟨first, rest⟩ | first | ⟨first, rest⟩ | ⟨apart, _⟩)
        · rw [traitRead_iff.mp first, behind.mp rest]
          rfl
        · rw [traitRead_iff.mp first]
          rfl
        · rw [traitRead_iff.mp first, behind.mp rest]
          rfl
        · exact absurd rfl (apart trees)
      · rintro rfl
        cases first : ofTrees config trees with
        | error error => exact .broken (traitRead_iff.mpr first)
        | ok surface =>
          cases rest : (Tree.partsAll .traitItem items).mapM (ofTrees config) with
          | error error => exact .behind (traitRead_iff.mpr first) (behind.mpr rest)
          | ok surfaces => exact .trait (traitRead_iff.mpr first) (behind.mpr rest)
    · have apart : ∀ other, (.node label trees : Tree) ≠ .node .traitItem other := by
        rintro other ⟨⟩
        exact isTrait rfl
      have parts : Tree.partsAll .traitItem (.node label trees :: items) =
          Tree.partsAll .traitItem items := by
        simp [Tree.partsAll, Tree.parts, isTrait]
      rw [parts, ← behind]
      constructor
      · rintro (_ | _ | _ | _ | ⟨_, rest⟩)
        · exact absurd rfl isTrait
        · exact absurd rfl isTrait
        · exact absurd rfl isTrait
        · exact rest
      · exact .other apart

/-- What a source text reads. -/
inductive SourceRead (config : Config) (text : String) :
    Except SurfaceError (List Surface) → Prop where
  /-- The text does not follow the grammar of files. -/
  | refused (unread : parse? .file text = none) : SourceRead config text (.error .badSyntax)
  /-- It does, and its items are read. -/
  | file {items : List Tree} {result : Except SurfaceError (List Surface)}
    (parsed : parse? .file text = some items) (read : ItemsRead config items result) :
    SourceRead config text result

/-- A source text has one reading. -/
theorem sourceRead_iff {text : String} {result : Except SurfaceError (List Surface)} :
    SourceRead config text result ↔ parseFile config text = result := by
  unfold parseFile
  cases parsed : parse? .file text with
  | none =>
    constructor
    · rintro (_ | ⟨other, _⟩)
      · rfl
      · cases parsed.symm.trans other
    · rintro rfl
      exact .refused parsed
  | some items =>
    rw [← itemsRead_iff (parse_file_labelled parsed)]
    constructor
    · rintro (unread | ⟨other, read⟩)
      · cases parsed.symm.trans unread
      · cases parsed.symm.trans other
        exact read
    · exact .file parsed

/-- A trait inside another item is passed over. -/
example : (parseFile {} "mod inner { trait Hidden {} } trait Person: Entity {}").toOption =
    some [{ name := "Person", base := some "Entity" }] := by
  decide +kernel

end Surface

namespace Catalog

/-- The text is a JSON list of the surfaces, one in each item. -/
def Lists (text : String) (surfaces : List Surface) : Prop :=
  ∃ items, Json.read? text = some (.array items) ∧
    List.Forall₂ (fun item surface => Json.decode item = some surface) items surfaces

/-- What a JSON text reads. -/
inductive ListRead (text : String) : Except SurfaceError (List Surface) → Prop where
  /-- The text is no JSON list of surfaces. -/
  | refused (unread : ∀ surfaces, ¬ Lists text surfaces) : ListRead text (.error .badJson)
  /-- It is, and of the names that the surfaces mention in the order of the text the first that is
  no identifier is refused. -/
  | misnamed {surfaces : List Surface} {before after : List String} {name : String}
    (lists : Lists text surfaces) (names : surfaces.flatMap mentioned = before ++ name :: after)
    (fine : ∀ earlier ∈ before, Syntax.isIdentifier earlier = true)
    (bad : Syntax.isIdentifier name = false) : ListRead text (.error (.invalidName name))
  /-- It is, and all these names are identifiers. -/
  | list {surfaces : List Surface} (lists : Lists text surfaces)
    (fine : ∀ name ∈ surfaces.flatMap mentioned, Syntax.isIdentifier name = true) :
    ListRead text (.ok surfaces)

/-- A text is a JSON list of what its form decodes. -/
theorem lists_iff {text : String} {surfaces : List Surface} :
    Lists text surfaces ↔ (Json.read? text).bind Json.decode = some surfaces := by
  rw [Option.bind_eq_some_iff]
  constructor
  · rintro ⟨items, read, decoded⟩
    exact ⟨.array items, read, Option.mapM_eq_some.mpr decoded⟩
  · rintro ⟨json, read, decoded⟩
    cases json with
    | array items => exact ⟨items, read, Option.mapM_eq_some.mp decoded⟩
    | _ => cases decoded

/-- Of the names that surfaces mention the first that is no identifier is refused. -/
theorem forM_checkNames (surfaces : List Surface) :
    surfaces.forM checkNames =
      match (surfaces.flatMap mentioned).find? (!Syntax.isIdentifier ·) with
      | some name => .error (.invalidName name)
      | none => .ok () := by
  induction surfaces with
  | nil => rfl
  | cons surface surfaces ih =>
    change (checkNames surface >>= fun _ => surfaces.forM checkNames) = _
    rw [ih, List.flatMap_cons, List.find?_append, checkNames]
    cases (mentioned surface).find? (!Syntax.isIdentifier ·) <;> rfl

/-- A JSON text has one reading. -/
theorem listRead_iff {text : String} {result : Except SurfaceError (List Surface)} :
    ListRead text result ↔ listed text = result := by
  unfold listed
  constructor
  · rintro (unread | @⟨surfaces, before, after, name, lists, names, fine, bad⟩ |
      @⟨surfaces, lists, fine⟩)
    · have nothing : ((Json.read? text).bind Json.decode : Option (List Surface)) = none :=
        Option.eq_none_iff_forall_ne_some.mpr fun surfaces decoded =>
          unread surfaces (lists_iff.mpr decoded)
      rw [nothing]
    · have found : (surfaces.flatMap mentioned).find? (!Syntax.isIdentifier ·) = some name :=
        List.find?_eq_some_iff_append.mpr
          ⟨by simpa using bad, before, after, names, by simpa using fine⟩
      rw [lists_iff.mp lists]
      dsimp only
      rw [forM_checkNames, found]
      rfl
    · have found : (surfaces.flatMap mentioned).find? (!Syntax.isIdentifier ·) = none :=
        List.find?_eq_none.mpr fun name listed => by simpa using fine name listed
      rw [lists_iff.mp lists]
      dsimp only
      rw [forM_checkNames, found]
      rfl
  · rintro rfl
    cases decoded : ((Json.read? text).bind Json.decode : Option (List Surface)) with
    | none =>
      refine .refused fun surfaces lists => ?_
      rw [lists_iff, decoded] at lists
      cases lists
    | some surfaces =>
      have lists := lists_iff.mpr decoded
      dsimp only
      rw [forM_checkNames]
      cases found : (surfaces.flatMap mentioned).find? (!Syntax.isIdentifier ·) with
      | none => exact .list lists (by simpa using List.find?_eq_none.mp found)
      | some name =>
        obtain ⟨bad, before, after, names, fine⟩ := List.find?_eq_some_iff_append.mp found
        exact .misnamed lists names (by simpa using fine) (by simpa using bad)

end Catalog

end DomainFactory
