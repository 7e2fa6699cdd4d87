import DomainFactory.Proofs.Chains
import DomainFactory.Proofs.Inheritance
import DomainFactory.Proofs.Spacing
import DomainFactory.Proofs.Trees

/-!
# Declared names are words

The names that declarations give to methods, parameters and types are words of the source text. A
name that is only checked, that of a callable or of a type in a list, is an identifier, but it may
have white space or comments around it.
-/
namespace DomainFactory

open Syntax

/-- The text of some tokens has the characters of each. -/
theorem Syntax.Token.mem_textAll {token : Token} {tokens : List Token} (member : token ∈ tokens)
    {c : Char} (inside : c ∈ token.text.toList) : c ∈ (Token.textAll tokens).toList := by
  induction tokens with
  | nil => exact absurd member List.not_mem_nil
  | cons first tokens ih =>
    cases tokens with
    | nil =>
      rw [List.mem_singleton.mp member] at inside
      exact inside
    | cons next tokens =>
      rw [Token.textAll, String.toList_append, String.toList_append]
      · rcases List.mem_cons.mp member with rfl | later
        · exact List.mem_append_left _ (List.mem_append_left _ inside)
        · exact List.mem_append_right _ (ih later)
      · exact List.cons_ne_nil _ _

/-- A token that is sure to be seen has a character that is no blank. -/
theorem Syntax.Token.text_seen {token : Token} (named : token.Named) (seen : token.isSeen = true) :
    ∃ c ∈ token.text.toList, Text.isBlank c = false := by
  cases token with
  | word text =>
    unfold Token.Named at named
    rcases isWord_iff.mp named with plain | ⟨word, rfl, _⟩
    · obtain ⟨first, more, chars, start, _⟩ := isPlainWord_iff.mp plain
      refine ⟨first, ?_, isBlank_of_part (Text.isIdentifierPart_of_start start)⟩
      rw [Token.text, chars]
      exact List.mem_cons_self
    · exact ⟨'r', by simp [Token.text], by decide⟩
  | punct char joint => exact ⟨char, by simp [Token.text], by simpa [Token.isSeen] using seen⟩
  | literal text => cases seen
  | group delimiter tokens =>
    cases delimiter with
    | paren => exact ⟨'(', by simp [Token.text], by decide⟩
    | bracket => exact ⟨'[', by simp [Token.text], by decide⟩
    | brace =>
      refine ⟨'\x7b', ?_, by decide⟩
      cases tokens <;> simp [Token.text]

mutual

/-- The words of a sound tree are words. -/
theorem Syntax.Tree.sound_named : ∀ {tree : Tree}, tree.Sound → Token.NamedAll (Tree.tokens tree)
  | .leaf token, sound => by
    unfold Tree.Sound at sound
    simpa only [Tree.tokens, Token.namedAll_cons, Token.namedAll_nil, and_true] using sound
  | .group delimiter trees, sound => by
    unfold Tree.Sound at sound
    simp only [Tree.tokens, Token.namedAll_cons, Token.namedAll_nil, and_true]
    unfold Token.Named
    exact Syntax.Tree.soundAll_named sound
  | .node label trees, sound => by
    unfold Tree.Sound at sound
    unfold Tree.tokens
    exact Syntax.Tree.soundAll_named sound.2

/-- The words of sound trees are words. -/
theorem Syntax.Tree.soundAll_named :
    ∀ {trees : List Tree}, Tree.SoundAll trees → Token.NamedAll (Tree.tokensAll trees)
  | [], _ => by simp [Tree.tokensAll]
  | tree :: trees, sound => by
    obtain ⟨first, others⟩ := Tree.soundAll_cons.mp sound
    rw [Tree.tokensAll, Token.namedAll_append]
    exact ⟨Syntax.Tree.sound_named first, Syntax.Tree.soundAll_named others⟩

end

/-- The text of sound trees that are seen has a character that is no blank. -/
theorem Syntax.Tree.seen_text {trees : List Tree} (sound : Tree.SoundAll trees)
    (seen : Tree.Seen trees) : ∃ c ∈ (Tree.text trees).toList, Text.isBlank c = false := by
  obtain ⟨token, member, visible⟩ := seen
  have named := Token.namedAll_iff.mp (Tree.soundAll_named sound) token member
  obtain ⟨c, inside, full⟩ := Token.text_seen named visible
  exact ⟨c, Token.mem_textAll member inside, full⟩

namespace Signature

/-- The name of a parameter is a word. -/
theorem parameterName_isWord {position : Nat} {trees : List Tree} {name : String}
    (sound : Tree.SoundAll trees) (named : parameterName position trees = .ok name) :
    IsWord name := by
  unfold parameterName at named
  split at named
  next binding _ found =>
    cases named
    obtain ⟨has, inner⟩ := Tree.part_sound sound found
    exact Tree.name_isWord inner has
  next =>
    cases named
    refine IsPlainWord.isWord ((isPlainWord_append (by decide) ?_).mpr (by decide))
    exact fun _ member => isIdentifierPart_of_isDigit (isDigit_of_mem_toString member)
  next => cases named

/-- Whether a parameter is read off one of some parts, which has its name and its type. -/
def ReadOff (parts : List (List Tree)) (parameter : DeclaredParameter) : Prop :=
  ∃ part ∈ parts, (∃ position, parameterName position part = .ok parameter.name) ∧
    ∃ type, Tree.part? .type part = some type ∧
      parameter.type = TypeText.normalize (Tree.text type)

/-- The parameters are read off the parts. -/
theorem parametersFrom_readOff {config : Config} {parts : List (List Tree)} {position : Nat}
    {parameters : List DeclaredParameter}
    (read : parametersFrom config position parts = .ok parameters) :
    ∀ parameter ∈ parameters, ReadOff parts parameter := by
  induction parts generalizing position parameters with
  | nil =>
    cases read
    exact fun _ member => absurd member List.not_mem_nil
  | cons part parts ih =>
    have later {parameter : DeclaredParameter} (off : ReadOff parts parameter) :
        ReadOff (part :: parts) parameter := by
      obtain ⟨found, among, given⟩ := off
      exact ⟨found, List.mem_cons_of_mem _ among, given⟩
    unfold parametersFrom at read
    split at read
    next => exact fun parameter member => later (ih read parameter member)
    next type typed =>
      cases named : parameterName position part with
      | error error =>
        rw [named] at read
        cases read
      | ok name =>
        cases others : parametersFrom config (position + 1) parts with
        | error error =>
          rw [named, others] at read
          cases read
        | ok more =>
          rw [named, others] at read
          cases read
          intro parameter member
          rcases List.mem_cons.mp member with rfl | behind
          · exact ⟨part, List.mem_cons_self, ⟨position, named⟩, type, typed, rfl⟩
          · exact later (ih others parameter behind)

/-- A signature is read off the trees of a method. -/
theorem parse_read {config : Config} {text : String} {signature : Signature}
    (parsed : parse config text = .ok signature) :
    ∃ trees, parse? .method (completed text) = some trees ∧
      signature.name = Tree.text ((Tree.part? .name trees).getD []) ∧
      parametersFrom config 0 (Tree.partsAll .parameter trees) = .ok signature.parameters := by
  unfold parse at parsed
  split at parsed
  next trees found =>
    unfold ofTrees at parsed
    cases markers : (Attribute.allOf trees).foldlM (addAttribute? config) (none, none) with
    | none =>
      rw [markers] at parsed
      cases parsed
    | some markers =>
      cases read : parametersFrom config 0 (Tree.partsAll .parameter trees) with
      | error error =>
        simp only [markers, read] at parsed
        cases parsed
      | ok parameters =>
        simp only [markers, read] at parsed
        cases parsed
        exact ⟨trees, found, rfl, read⟩
  next => cases parsed

/-- The names in the signature of a text are words. -/
theorem parse_words {config : Config} {text : String} {signature : Signature}
    (parsed : parse config text = .ok signature) :
    IsWord signature.name ∧ ∀ parameter ∈ signature.parameters, IsWord parameter.name := by
  obtain ⟨trees, found, name, read⟩ := parse_read parsed
  have sound := parse_sound found
  refine ⟨name ▸ Tree.name_isWord sound (parse_method_hasName found), ?_⟩
  intro parameter member
  obtain ⟨part, among, ⟨position, named⟩, _⟩ := parametersFrom_readOff read parameter member
  exact parameterName_isWord (Tree.partsAll_sound sound among).2 named

/-- The types in the signature of a text are canonical texts, and not empty. -/
theorem parse_types {config : Config} {text : String} {signature : Signature}
    (parsed : parse config text = .ok signature) :
    ∀ parameter ∈ signature.parameters, parameter.type ≠ "" ∧
      ∃ text, parameter.type = TypeText.normalize text := by
  obtain ⟨trees, found, _, read⟩ := parse_read parsed
  intro parameter member
  obtain ⟨part, among, _, type, typed, given⟩ := parametersFrom_readOff read parameter member
  obtain ⟨seen, sound⟩ := Tree.part_sound (Tree.partsAll_sound (parse_sound found) among).2 typed
  obtain ⟨c, inside, full⟩ := Tree.seen_text sound seen
  refine ⟨?_, Tree.text type, given⟩
  intro empty
  have stays : c ∈ TypeText.normalizeFrom none false (Tree.text type).toList :=
    TypeText.mem_normalizeFrom inside full
  rw [← TypeText.canonical, ← TypeText.toList_normalize, ← given, empty] at stays
  exact absurd stays List.not_mem_nil

end Signature

/-- How the names of an operation are spelled: those of its method and its parameters are words, and
so is the name its factory method asks for, save that of a callable, which is an identifier. -/
structure Operation.Spelled (operation : Operation) : Prop where
  method : IsWord operation.method
  parameters : ∀ parameter ∈ operation.parameters, IsWord parameter.name
  publicName : IsWord operation.publicName ∨
    operation.kind = .execute ∧ isIdentifier operation.publicName = true

/-- The names of the operations of a base chain are spelled so. -/
theorem Extraction.operations_spelled {config : Config} {chain : Chain} {operation : Operation}
    (member : operation ∈ (operations config chain).result) : operation.Spelled := by
  obtain ⟨owning, declaring, index, text, signature, markers, kind, handler, parsed, identifiers,
    made⟩ := operations_made member
  obtain ⟨name, parameters⟩ := Signature.parse_words parsed
  unfold operationOf at made
  by_cases receives : ((kind != .execute) != signature.hasReceiver) = true
  · simp only [receives, ↓reduceIte, reduceCtorEq] at made
  · simp only [receives, Bool.false_eq_true, ↓reduceIte, Except.ok.injEq] at made
    have same := made
    have method : operation.method = signature.name := (congrArg Operation.method same).symm
    have given := (congrArg Operation.parameters same).symm
    have asked := (congrArg Operation.publicName same).symm
    have kinds : operation.kind = kind := (congrArg Operation.kind same).symm
    dsimp only at given asked
    refine ⟨method ▸ name, ?_, ?_⟩
    · rw [given]
      intro parameter among
      rcases List.mem_append.mp among with target | behind
      · split at target
        · have word : IsWord "target" := by decide
          exact List.mem_singleton.mp target ▸ word
        · exact absurd target List.not_mem_nil
      · obtain ⟨declared, listed, rfl⟩ := List.mem_map.mp behind
        exact parameters declared listed
    · rw [asked, kinds]
      split
      next executes =>
        cases callable : markers.callable with
        | none => exact Or.inl name
        | some text => exact Or.inr ⟨executes, identifiers text callable⟩
      next => exact Or.inl name

/-- What a step in `Except` keeps, a fold of steps keeps. -/
theorem Except.foldlM_keeps {α β ε : Type} (keeps : β → Prop) {step : β → α → Except ε β}
    (steps : ∀ {state item later}, keeps state → step state item = .ok later → keeps later)
    {items : List α} {start result : β} (first : keeps start)
    (folded : items.foldlM step start = .ok result) : keeps result := by
  induction items generalizing start with
  | nil =>
    cases folded
    exact first
  | cons item items ih =>
    rw [List.foldlM_cons] at folded
    obtain ⟨later, stepped, rest⟩ := Except.bind_eq_ok folded
    exact ih (steps first stepped) rest

/-- When a list of checks in `Except` succeeds, each of them does. -/
theorem Except.forM_mem {α ε : Type} {check : α → Except ε Unit} {items : List α}
    (checked : items.forM check = .ok ()) {item : α} (member : item ∈ items) :
    check item = .ok () := by
  induction items with
  | nil => exact absurd member List.not_mem_nil
  | cons first items ih =>
    change (check first >>= fun _ => items.forM check) = .ok () at checked
    obtain ⟨_, here, rest⟩ := Except.bind_eq_ok checked
    rcases List.mem_cons.mp member with rfl | later
    · exact here
    · exact ih rest later

namespace Surface

variable {config : Config} {surface later : Surface}

/-- What an attribute says does not change the name of a type. -/
theorem addAttribute_name {given : Attribute}
    (added : addAttribute config surface given = .ok later) : later.name = surface.name := by
  unfold addAttribute at added
  split at added
  · cases added
    rfl
  · split at added
    · cases added
      rfl
    · split at added
      · dsimp only at added
        split at added
        · cases added
          rfl
        · cases added
      · cases added
        rfl

/-- A type has the name of its trait. -/
theorem ofTrees_name {trees : List Tree} (read : ofTrees config trees = .ok surface) :
    surface.name = Tree.text ((Tree.part? .name trees).getD []) := by
  unfold ofTrees at read
  split at read
  next => cases read
  next =>
    obtain ⟨marked, folded, given⟩ := Except.bind_eq_ok read
    cases given
    have kept : marked.name = Tree.text ((Tree.part? .name trees).getD []) := by
      refine Except.foldlM_keeps (Surface.name · = _) ?_ rfl folded
      exact fun same added => (addAttribute_name added).trans same
    exact kept

/-- The names of the types in a source text are words. -/
theorem parseFile_words {text : String} {surfaces : List Surface}
    (read : parseFile config text = .ok surfaces) : ∀ surface ∈ surfaces, IsWord surface.name := by
  unfold parseFile at read
  split at read
  next trees parsed =>
    have sound := parse_sound parsed
    intro surface member
    obtain ⟨part, among, made⟩ := exists_of_forall₂ (Except.mapM_eq_ok.mp read) member
    obtain ⟨has, inner⟩ := Tree.partsAll_sound sound among
    exact ofTrees_name made ▸ Tree.name_isWord inner has
  next => cases read

end Surface

namespace Catalog

/-- The catalogs that are filled by reading declarations with the default settings. -/
inductive Loaded : Catalog → Prop where
  /-- The catalog without declarations. -/
  | empty : Loaded .empty
  /-- A catalog with the traits of a source text. -/
  | source {catalog later : Catalog} {text : String} {count : Nat} (loaded : Loaded catalog)
    (added : catalog.addSource {} text = .ok (later, count)) : Loaded later
  /-- A catalog with the surfaces of a JSON list. -/
  | json {catalog later : Catalog} {text : String} {count : Nat} (loaded : Loaded catalog)
    (added : catalog.addJson text = .ok (later, count)) : Loaded later

/-- Surfaces under other names leave what a catalog has under a name. -/
theorem get_insertAll_other {catalog : Catalog} {surfaces : List Surface} {name : String}
    (other : ∀ surface ∈ surfaces, surface.name ≠ name) :
    (catalog.insertAll surfaces).get? name = catalog.get? name := by
  unfold insertAll
  induction surfaces generalizing catalog with
  | nil => rfl
  | cons surface surfaces ih =>
    rw [List.foldl_cons, ih fun later member => other later (List.mem_cons_of_mem _ member),
      get_insert, if_neg (other surface List.mem_cons_self)]

/-- No type that is declared by reading has the empty name. -/
theorem Loaded.get_empty {catalog : Catalog} (loaded : catalog.Loaded) :
    catalog.get? "" = none := by
  induction loaded with
  | empty => rfl
  | @source _ _ text _ loaded added ih =>
    obtain ⟨surfaces, read, rfl, _⟩ := (Edit.source_puts {} text).onSuccess_eq_ok added
    rw [get_insertAll_other fun surface member =>
      (Surface.parseFile_words read surface member).ne_empty, ih]
  | @json _ _ text _ loaded added ih =>
    obtain ⟨surfaces, read, rfl, _⟩ := (Edit.json_puts text).onSuccess_eq_ok added
    rw [get_insertAll_other _, ih]
    intro surface member empty
    unfold listed at read
    split at read
    next => cases read
    next =>
      obtain ⟨_, checked, given⟩ := Except.bind_eq_ok read
      cases given
      have names := Except.forM_mem checked member
      simp only [checkNames, mentioned, List.cons_append, List.find?_cons, empty] at names
      cases names

end Catalog

end DomainFactory
