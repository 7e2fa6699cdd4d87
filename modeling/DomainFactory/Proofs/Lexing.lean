import DomainFactory.Proofs.Words

/-!
# Words among the tokens of a text

Every word that a text is read as, at any depth, is a word: reading takes it off the front of the
text. A text of identifier characters alone that is read as an identifier is a plain word, since
nothing in it could stand around one.
-/
namespace DomainFactory.Syntax

open Text

namespace Token

mutual

/-- A token tree in which whatever stands as a word is a word. -/
def Named : Token → Prop
  | .word text => IsWord text
  | .group _ tokens => NamedAll tokens
  | _ => True

/-- Token trees in which whatever stands as a word is a word. -/
def NamedAll : List Token → Prop
  | [] => True
  | token :: tokens => Named token ∧ NamedAll tokens

end

/-- There are no words in no trees. -/
@[simp] theorem namedAll_nil : NamedAll [] := by
  unfold NamedAll
  trivial

/-- Words are words in trees when they are in the first one and in the others. -/
@[simp] theorem namedAll_cons {token : Token} {tokens : List Token} :
    NamedAll (token :: tokens) ↔ token.Named ∧ NamedAll tokens := by
  rw [NamedAll]

/-- Words are words in a list of trees when they are in each of them. -/
theorem namedAll_iff {tokens : List Token} : NamedAll tokens ↔ ∀ token ∈ tokens, token.Named := by
  induction tokens with
  | nil => simp
  | cons token tokens ih => simp [ih]

/-- Words are words in two lists of trees when they are in both. -/
@[simp] theorem namedAll_append {first second : List Token} :
    NamedAll (first ++ second) ↔ NamedAll first ∧ NamedAll second := by
  simp only [namedAll_iff, List.mem_append, or_imp, forall_and]

/-- The order of trees does not matter. -/
@[simp] theorem namedAll_reverse {tokens : List Token} :
    NamedAll tokens.reverse ↔ NamedAll tokens := by
  simp only [namedAll_iff, List.mem_reverse]

end Token

open Token

namespace Lexer

/-- A word that is read is a word. -/
theorem word_isWord {text word rest : List Char} (read : word? text = some (word, rest)) :
    IsWord (String.ofList word) := by
  unfold word? at read
  split at read
  next => cases read
  next =>
    rw [IsWord, String.toList_ofList]
    exact (anyWord_front read).2

/-- A punctuation character is read as one. -/
theorem punct_eq_some {text rest : List Char} {token : Token}
    (read : punct? text = some (token, rest)) : ∃ char joint, token = .punct char joint := by
  unfold punct? at read
  split at read
  next =>
    obtain ⟨⟨word, behind⟩, _, kept⟩ := Option.bind_eq_some_iff.mp read
    dsimp only at kept
    split at kept
    next => cases kept
    next =>
      split at kept
      · cases kept
        exact ⟨_, _, rfl⟩
      · cases kept
    next =>
      cases kept
      exact ⟨_, _, rfl⟩
  next =>
    split at read
    · cases read
      exact ⟨_, _, rfl⟩
    · cases read
  next => cases read

/-- A token that is no group is a word only when a word is read. -/
theorem leaf_eq_word {text rest : List Char} {word : String}
    (read : leaf? text = some (.word word, rest)) : word? text = some (word.toList, rest) := by
  unfold leaf? at read
  split at read
  next => cases read
  next =>
    split at read
    next found =>
      cases read
      obtain ⟨_, _, same⟩ := punct_eq_some found
      cases same
    next =>
      obtain ⟨⟨chars, left⟩, found, same⟩ := Option.map_eq_some_iff.mp read
      cases same
      rw [found, String.toList_ofList]

/-- A group is not read in one piece. -/
theorem leaf_not_group {text rest : List Char} {delimiter : Delimiter}
    {tokens : List Token} : leaf? text ≠ some (.group delimiter tokens, rest) := by
  intro read
  unfold leaf? at read
  split at read
  next => cases read
  next =>
    split at read
    next found =>
      cases read
      obtain ⟨_, _, same⟩ := punct_eq_some found
      cases same
    next =>
      obtain ⟨_, _, same⟩ := Option.map_eq_some_iff.mp read
      cases same

/-- A token that is no group is a word only when it is one. -/
theorem leaf_named {text rest : List Char} {token : Token}
    (read : leaf? text = some (token, rest)) : token.Named := by
  cases token with
  | word word =>
    have found := word_isWord (leaf_eq_word read)
    rwa [String.ofList_toList] at found
  | group delimiter tokens => exact absurd read leaf_not_group
  | punct char joint => trivial
  | literal text => trivial

/-- A word without the mark of a raw one begins as an identifier does. -/
theorem word_starts {c : Char} {text word rest : List Char}
    (read : word? (c :: text) = some (word, rest)) (unmarked : '#' ∉ c :: text) :
    isIdentifierStart c = true := by
  unfold word? at read
  split at read
  · cases read
  · unfold anyWord? at read
    split at read
    next marked =>
      refine absurd ?_ unmarked
      rw [after?_eq_some_iff.mp marked]
      simp
    next =>
      obtain ⟨_, _, whole, starts, _⟩ := plainWord_eq_some.mp read
      exact (List.cons.inj whole).1 ▸ starts

/-- The attribute of a documentation comment has one word in it. -/
theorem documentationTokens_named (inner : Bool) (text : List Char) :
    NamedAll (documentationTokens inner text) := by
  have doc : IsWord "doc" := by decide
  cases inner <;> simp [documentationTokens, NamedAll, Named, doc]

/-- What a step of reading comes to: the end of the text, a documentation comment, the begin or the
end of a group, or another token. -/
inductive Step (fuel : Nat) (openGroups : Open) (tokens result : List Token) (text : List Char) :
    Prop where
  | done (empty : skip text.length text = []) (closed : openGroups = [])
      (whole : result = tokens.reverse)
  | comment (inner : Bool) (comment rest : List Char)
      (found : documentation? (skip text.length text) = some (inner, comment, rest))
      (later : treesFrom? fuel openGroups ((documentationTokens inner comment).reverse ++ tokens)
        rest = some result)
  | begins (c : Char) (delimiter : Delimiter) (rest : List Char)
      (found : skip text.length text = c :: rest) (opens : opening? c = some delimiter)
      (later : treesFrom? fuel ((delimiter, tokens) :: openGroups) [] rest = some result)
  | ends (c : Char) (delimiter : Delimiter) (before : List Token) (outer : Open) (rest : List Char)
      (found : skip text.length text = c :: rest) (closes : closing? c = some delimiter)
      (opened : openGroups = (delimiter, before) :: outer)
      (later : treesFrom? fuel outer (.group delimiter tokens.reverse :: before) rest =
        some result)
  | leaf (token : Token) (rest : List Char)
      (found : leaf? (skip text.length text) = some (token, rest))
      (later : treesFrom? fuel openGroups (token :: tokens) rest = some result)

/-- A step of reading that succeeds comes to one of these. -/
theorem step_of_treesFrom {fuel : Nat} {openGroups : Open} {tokens result : List Token}
    {text : List Char} (read : treesFrom? (fuel + 1) openGroups tokens text = some result) :
    Step fuel openGroups tokens result text := by
  rw [treesFrom?] at read
  split at read
  next inner comment rest found =>
    split at read
    · exact .comment inner comment rest found read
    · cases read
  next =>
    split at read
    next empty =>
      split at read
      next closed =>
        cases read
        exact .done empty (List.isEmpty_iff.mp closed) rfl
      next => cases read
    next c rest found =>
      split at read
      next delimiter opens => exact .begins c delimiter rest found opens read
      next delimiter _ closes =>
        split at read
        next opened before outer =>
          split at read
          next same =>
            subst same
            exact .ends c opened before outer rest found closes rfl read
          next => cases read
        next => cases read
      next =>
        split at read
        next token left found => exact .leaf token left found read
        next => cases read

/-- Reading keeps that words are words: in the tokens of the innermost group and in those before
each open group. -/
theorem treesFrom_named {fuel : Nat} {openGroups : Open} {tokens result : List Token}
    {text : List Char} (before : ∀ group ∈ openGroups, NamedAll group.2) (named : NamedAll tokens)
    (read : treesFrom? fuel openGroups tokens text = some result) : NamedAll result := by
  induction fuel generalizing openGroups tokens text with
  | zero => cases read
  | succ fuel ih =>
    cases step_of_treesFrom read with
    | done _ closed whole => exact whole ▸ namedAll_reverse.mpr named
    | comment inner comment rest _ later =>
      have doc := documentationTokens_named inner comment
      exact ih before (namedAll_append.mpr ⟨namedAll_reverse.mpr doc, named⟩) later
    | begins c delimiter rest _ _ later =>
      refine ih ?_ namedAll_nil later
      intro group member
      rcases List.mem_cons.mp member with rfl | outer
      · exact named
      · exact before group outer
    | ends c delimiter earlier outer rest _ _ opened later =>
      subst opened
      have group : (Token.group delimiter tokens.reverse).Named := by
        rw [Named]
        exact namedAll_reverse.mpr named
      have outside := before _ List.mem_cons_self
      exact ih (fun group member => before group (List.mem_cons_of_mem _ member))
        (namedAll_cons.mpr ⟨group, outside⟩) later
    | leaf token rest found later =>
      exact ih before (namedAll_cons.mpr ⟨leaf_named found, named⟩) later

/-- Every word among the tokens of a text is a word. -/
theorem read_named {text : String} {tokens : List Token} (read : read? text = some tokens) :
    NamedAll tokens :=
  treesFrom_named (fun _ member => absurd member List.not_mem_nil) namedAll_nil read

/-- The tokens of the outermost group, last first. -/
def outermost (openGroups : Open) (tokens : List Token) : List Token :=
  (openGroups.getLast?.map Prod.snd).getD tokens

/-- The tokens of the outermost group are those before the last open group, when there is one. -/
@[simp] theorem outermost_cons (group : Delimiter × List Token) (openGroups : Open)
    (tokens : List Token) :
    outermost (group :: openGroups) tokens = outermost openGroups group.2 := by
  cases openGroups with
  | nil => rfl
  | cons other openGroups =>
    simp only [outermost, List.getLast?_cons]
    rfl

/-- More tokens of the innermost group make the outermost one longer or leave it as it is. -/
theorem outermost_grows (openGroups : Open) (more tokens : List Token) :
    (outermost openGroups tokens).reverse <+: (outermost openGroups (more ++ tokens)).reverse := by
  cases openGroups with
  | nil => exact List.reverse_append ▸ List.prefix_append _ _
  | cons group openGroups =>
    simp only [outermost_cons, List.prefix_refl]

/-- Tokens that are read stay where they are. -/
theorem treesFrom_prefix {fuel : Nat} {openGroups : Open} {tokens result : List Token}
    {text : List Char} (read : treesFrom? fuel openGroups tokens text = some result) :
    (outermost openGroups tokens).reverse <+: result := by
  induction fuel generalizing openGroups tokens text with
  | zero => cases read
  | succ fuel ih =>
    cases step_of_treesFrom read with
    | done _ closed whole => exact closed ▸ whole ▸ List.prefix_refl _
    | comment inner comment rest _ later => exact (outermost_grows _ _ _).trans (ih later)
    | begins c delimiter rest _ _ later => simpa only [outermost_cons] using ih later
    | ends c delimiter earlier outer rest _ _ opened later =>
      rw [opened, outermost_cons]
      exact (outermost_grows outer [_] earlier).trans (ih later)
    | leaf token rest found later => exact (outermost_grows _ [token] _).trans (ih later)

end Lexer

/-- What separates tokens is no part of identifiers. -/
theorem isSpace_of_part {c : Char} (part : isIdentifierPart c = true) :
    Lexer.isSpace c = false := by
  have outside : (0x200E :: 0x200F :: blanks).all
      (fun n => !Stretches.inside identifierPartStretches.lengths n) = true := by
    decide +kernel
  by_contra space
  have member : c.toNat ∈ 0x200E :: 0x200F :: blanks := by
    simp only [Lexer.isSpace, Bool.not_eq_false, Bool.or_eq_true, beq_iff_eq] at space
    rcases space with (blank | rfl) | rfl
    · exact List.mem_cons_of_mem _ (List.mem_cons_of_mem _ (toNat_mem_blanks blank))
    · exact List.mem_cons_self
    · exact List.mem_cons_of_mem _ List.mem_cons_self
  have none := List.all_eq_true.mp outside _ member
  rw [← isIdentifierPart_eq, part] at none
  cases none

/-- No blank is part of identifiers. -/
theorem isBlank_of_part {c : Char} (part : isIdentifierPart c = true) : isBlank c = false := by
  have space := isSpace_of_part part
  simp only [Lexer.isSpace, Bool.or_eq_false_iff] at space
  exact space.1.1

/-- Nothing is skipped in front of a character that is no space and opens no comment. -/
theorem Lexer.skip_eq_self {c : Char} {text : List Char} (space : isSpace c = false)
    (slash : c ≠ '/') (fuel : Nat) : skip fuel (c :: text) = c :: text := by
  have stays : skipOne? (c :: text) = none := by
    unfold skipOne?
    split
    next same => exact absurd (List.cons.inj same).1 slash
    next same => exact absurd (List.cons.inj same).1 slash
    next same => exact absurd (List.cons.inj same).1 slash
    next same =>
      obtain ⟨rfl, rfl⟩ := List.cons.inj same
      rw [space]
      rfl
    next same => cases same
  cases fuel with
  | zero => rfl
  | succ fuel => rw [skip, stays]

/-- No documentation comment begins with another character than a slash. -/
theorem Lexer.documentation_eq_none {c : Char} {text : List Char} (slash : c ≠ '/') :
    documentation? (c :: text) = none := by
  unfold documentation?
  split
  all_goals first
    | rfl
    | next same => exact absurd (List.cons.inj same).1 slash

/-- A text of identifier characters that is an identifier is a plain word. -/
theorem isPlainWord_of_isIdentifier {text : String} (identifier : isIdentifier text = true)
    (parts : ∀ c ∈ text.toList, isIdentifierPart c = true) : IsPlainWord text := by
  have other {c d : Char} (member : c ∈ text.toList) (none : isIdentifierPart d = false) :
      c ≠ d := by
    rintro rfl
    rw [parts c member] at none
    cases none
  unfold isIdentifier at identifier
  split at identifier
  next token read =>
    cases chars : text.toList with
    | nil =>
      rw [String.toList_eq_nil_iff] at chars
      subst chars
      cases read
    | cons first more =>
      have begins : first ∈ text.toList := chars ▸ List.mem_cons_self
      have unskipped : ∀ fuel, Lexer.skip fuel (first :: more) = first :: more :=
        Lexer.skip_eq_self (isSpace_of_part (parts first begins)) (other begins (by decide))
      have unmarked : Lexer.treesFrom? ((first :: more).length + 1) [] [] (first :: more) =
          some [token] := by
        rw [← read, Lexer.read?, chars]
        split
        next same => exact absurd (List.cons.inj same).1 (other begins (by decide +kernel))
        next => rfl
      cases Lexer.step_of_treesFrom unmarked with
      | done empty =>
        rw [unskipped] at empty
        cases empty
      | comment inner comment rest found =>
        rw [unskipped, Lexer.documentation_eq_none (other begins (by decide))] at found
        cases found
      | begins c delimiter rest found opens =>
        rw [unskipped] at found
        obtain ⟨rfl, rfl⟩ := List.cons.inj found
        unfold Lexer.opening? at opens
        split at opens <;> first | exact absurd rfl (other begins (by decide)) | cases opens
      | ends c delimiter before outer rest found closes =>
        rw [unskipped] at found
        obtain ⟨rfl, rfl⟩ := List.cons.inj found
        unfold Lexer.closing? at closes
        split at closes <;> first | exact absurd rfl (other begins (by decide)) | cases closes
      | leaf found rest leaf later =>
        rw [unskipped] at leaf
        -- What is read first stays, so it is the identifier.
        have same : found = token := by
          have front : [found] <+: [token] := Lexer.treesFrom_prefix later
          simpa using front
        obtain ⟨word, rfl⟩ : ∃ word, token = .word word := by
          cases token with
          | word word => exact ⟨word, rfl⟩
          | _ => cases identifier
        subst same
        have mark : '#' ∉ first :: more := fun member =>
          absurd rfl (other (chars ▸ member) (by decide))
        have begun := Lexer.word_starts (Lexer.leaf_eq_word leaf) mark
        refine isPlainWord_iff.mpr ⟨first, more, chars, begun, fun c member => ?_⟩
        exact parts c (chars ▸ List.mem_cons_of_mem _ member)
  next => cases identifier

end DomainFactory.Syntax
