import DomainFactory.Syntax.Grammar

/-!
# What types print

A type is never printed as nothing: each way to write one has a word, a group or a punctuation
character in it. A pattern is checked for that by its structure, given the rules for which it holds.
-/
namespace DomainFactory.Syntax

/-- Whether a token is sure to be seen where it is printed. -/
def Token.isSeen : Token → Bool
  | .word _ => true
  | .punct char _ => !Text.isBlank char
  | .literal _ => false
  | .group _ _ => true

/-- Trees with a token in them that is sure to be seen. -/
def Tree.Seen (trees : List Tree) : Prop := ∃ token ∈ Tree.tokensAll trees, token.isSeen = true

namespace Tree

/-- The tokens of two lists of trees are those of the first and then those of the second. -/
@[simp] theorem tokensAll_append (first second : List Tree) :
    tokensAll (first ++ second) = tokensAll first ++ tokensAll second := by
  induction first with
  | nil => simp [tokensAll]
  | cons tree first ih => simp [tokensAll, ih]

/-- The tokens of leaves are the tokens they are. -/
@[simp] theorem tokensAll_leaves (printed : List Token) :
    tokensAll (printed.map Tree.leaf) = printed := by
  induction printed with
  | nil => simp [tokensAll]
  | cons token printed ih => simp [tokensAll, tokens, ih]

/-- Trees are seen when one of their lists is. -/
@[simp] theorem seen_append {first second : List Tree} :
    Seen (first ++ second) ↔ Seen first ∨ Seen second := by
  simp only [Seen, tokensAll_append, List.mem_append, or_and_right, exists_or]

/-- A token is seen when it is sure to be. -/
theorem seen_leaf {token : Token} (seen : token.isSeen = true) : Seen [.leaf token] :=
  ⟨token, by simp [tokensAll, tokens], seen⟩

end Tree

/-- The rules that print something whenever they match. -/
def Rule.isSeen : Rule → Bool
  | .segment _ | .path _ | .qualifiedPath _ | .lifetimeBinder | .bound | .boundsWithTrait
  | .functionType | .type _ => true
  | _ => false

namespace Pattern

/-- What makes a pattern print something whenever it matches. -/
def Prints : Part → Prop
  | .empty | .hide _ | .many _ _ | .arrange _ _ => False
  | .refuse | .group _ _ => True
  | .take read => ∀ tokens trees rest, read tokens = some (trees, rest) → Tree.Seen trees
  | .print printed => ∃ token ∈ printed, token.isSeen = true
  | .seq first second => Prints first ∨ Prints second
  | .choose _ yes no => Prints yes ∧ Prints no
  | .attempt first second => Prints first ∧ Prints second
  | .call rule => rule.isSeen = true
  | .node _ pattern => Prints pattern

/-- A pattern that prints something is seen, when the rules are for which that is known. -/
theorem eval_seen {run : Rule → List Token → Match}
    (calls : ∀ {rule tokens trees rest}, rule.isSeen = true →
      run rule tokens = some (trees, rest) → Tree.Seen trees) {pattern : Part}
    (prints : Prints pattern) {tokens rest : List Token} {trees : List Tree}
    (matched : eval run pattern tokens = some (trees, rest)) : Tree.Seen trees := by
  induction pattern generalizing tokens trees rest with
  | empty => cases prints
  | hide pattern => cases prints
  | many guard pattern => cases prints
  | arrange order pattern => cases prints
  | refuse => cases matched
  | take read => exact prints tokens trees rest matched
  | print printed =>
    cases matched
    rwa [Tree.Seen, Tree.tokensAll_leaves]
  | group delimiter content ih =>
    unfold eval at matched
    split at matched
    next =>
      split at matched
      · split at matched
        next =>
          cases matched
          exact ⟨_, List.mem_cons_self, rfl⟩
        next => cases matched
      · cases matched
    next => cases matched
  | seq first second firstIh secondIh =>
    unfold eval at matched
    split at matched
    next found =>
      obtain ⟨⟨more, last⟩, again, same⟩ := Option.map_eq_some_iff.mp matched
      cases same
      rw [Tree.seen_append]
      exact prints.imp (firstIh · found) (secondIh · again)
    next => cases matched
  | choose guard yes no yesIh noIh =>
    unfold eval at matched
    split at matched
    next => exact yesIh prints.1 matched
    next => exact noIh prints.2 matched
  | attempt first second firstIh secondIh =>
    unfold eval at matched
    split at matched
    next found =>
      cases matched
      exact firstIh prints.1 found
    next => exact secondIh prints.2 matched
  | call rule => exact calls prints matched
  | node label pattern ih =>
    obtain ⟨⟨inner, left⟩, found, same⟩ := Option.map_eq_some_iff.mp matched
    cases same
    have seen := ih prints found
    simpa only [Tree.Seen, Tree.tokensAll, Tree.tokens, List.append_nil] using seen

end Pattern

namespace Part

open Pattern (Prints)

/-- A word that is taken as it is is seen. -/
theorem prints_takeOne {guard : Guard}
    (isWord : ∀ tokens, guard tokens = true → Guard.anyWord tokens = true) :
    Prints (takeOne guard) := by
  intro tokens trees rest matched
  cases tokens with
  | nil => cases matched
  | cons token tokens =>
    change (if _ then _ else _) = _ at matched
    split at matched
    next holds =>
      cases matched
      have word := isWord _ holds
      cases token with
      | word text => exact Tree.seen_leaf rfl
      | _ => cases word
    next => cases matched

/-- Any word is seen. -/
@[simp] theorem prints_anyName : Prints anyName := prints_takeOne fun _ => id

/-- An identifier is seen. -/
@[simp] theorem prints_name : Prints name := by
  refine prints_takeOne fun tokens ahead => ?_
  unfold Guard.ident at ahead
  split at ahead
  · rfl
  · cases ahead

/-- A given word is seen. -/
@[simp] theorem prints_keyword (text : String) : Prints (keyword text) := by
  refine prints_takeOne fun tokens ahead => ?_
  unfold Guard.word at ahead
  split at ahead
  · rfl
  · cases ahead

/-- The name of a lifetime is seen. -/
@[simp] theorem prints_lifetimeName : Prints lifetimeName := by
  intro tokens trees rest matched
  dsimp only at matched
  split at matched
  next =>
    cases matched
    exact ⟨_, List.mem_cons_self, rfl⟩
  next => cases matched

/-- An operator is seen when its characters are. -/
theorem prints_sign {text : String} (seen : (Token.operator text).any Token.isSeen = true) :
    Prints (sign text) := by
  intro tokens trees rest matched
  dsimp only at matched
  split at matched
  · cases matched
    obtain ⟨token, member, visible⟩ := List.any_eq_true.mp seen
    exact ⟨token, by rwa [Tree.tokensAll_leaves], visible⟩
  · cases matched

/-- A rule that prints something is seen where it is called. -/
@[simp] theorem prints_call {rule : Rule} : Prints (call rule) ↔ rule.isSeen = true := Iff.rfl

/-- Parts one after another are seen when one of them is. -/
@[simp] theorem prints_row {part : Part} {parts : List Part} :
    Prints (row (part :: parts)) ↔ ∃ member ∈ part :: parts, Prints member := by
  induction parts generalizing part with
  | nil => simp [row]
  | cons next parts ih =>
    rw [row, Prints, ih]
    · simp
    · simp

end Part

/-- What the rules that print something match is seen. -/
theorem Rule.prints {rule : Rule} (seen : rule.isSeen = true) :
    Pattern.Prints rule.definition := by
  have signs : ∀ text ∈ ["<", "*", "&", "!"], Pattern.Prints (Part.sign text) := by
    intro text member
    refine Part.prints_sign ?_
    revert text
    decide
  cases rule with
  | segment style | path style | qualifiedPath style =>
    simp [Rule.definition, Part.segment, Part.path, Part.qualifiedPath, Pattern.Prints, signs,
      Rule.isSeen]
  | lifetimeBinder | bound | boundsWithTrait | functionType =>
    simp [Rule.definition, Part.lifetimeBinder, Part.bound, Part.capture, Part.traitBound,
      Part.boundsWithTrait, Part.functionType, Part.cases, Pattern.Prints, Rule.isSeen]
  | «type» plus =>
    cases plus <;>
      simp [Rule.definition, Part.type, Part.roundType, Part.pathType, Part.boundsOf, Part.cases,
        Pattern.Prints, signs, Rule.isSeen]
  | _ => cases seen

end DomainFactory.Syntax
