import Mathlib.Data.List.TakeWhile
import DomainFactory.Facade
import DomainFactory.Proofs.Letters
import DomainFactory.Syntax.Grammar

/-!
# Words

A word is an identifier or a keyword as it is written, with nothing around it; a plain word has no
mark of a raw one. What a reader takes for a word off the front of a text is one.
-/
namespace DomainFactory.Syntax

open Text

/-- A text that is one unmarked word and nothing else. -/
def IsPlainWord (text : String) : Prop := Lexer.plainWord? text.toList = some (text.toList, [])

instance {text : String} : Decidable (IsPlainWord text) := by
  unfold IsPlainWord
  infer_instance

/-- A text that is one word, raw or not, and nothing else. -/
def IsWord (text : String) : Prop := Lexer.anyWord? text.toList = some (text.toList, [])

instance {text : String} : Decidable (IsWord text) := by
  unfold IsWord
  infer_instance

namespace Lexer

variable {text word rest : List Char}

/-- What is read as an unmarked word is a first character of identifiers and those behind it that
go on. -/
theorem plainWord_eq_some : plainWord? text = some (word, rest) ↔
    ∃ first more, text = first :: more ∧ isIdentifierStart first = true ∧
      word = first :: more.takeWhile isIdentifierPart ∧ rest = more.dropWhile isIdentifierPart := by
  cases text with
  | nil => simp [plainWord?]
  | cons first more =>
    simp only [plainWord?]
    split
    next begins =>
      simp only [Option.some.injEq, Prod.mk.injEq, List.cons.injEq]
      constructor
      · rintro ⟨rfl, rfl⟩
        exact ⟨first, more, ⟨rfl, rfl⟩, begins, rfl, rfl⟩
      · rintro ⟨_, _, ⟨rfl, rfl⟩, _, rfl, rfl⟩
        exact ⟨rfl, rfl⟩
    next ends =>
      simp only [reduceCtorEq, List.cons.injEq, false_iff]
      rintro ⟨_, _, ⟨rfl, rfl⟩, begins, _⟩
      exact ends begins

/-- An unmarked word that is read is the front of the text, and nothing but a word. -/
theorem plainWord_front (read : plainWord? text = some (word, rest)) :
    text = word ++ rest ∧ plainWord? word = some (word, []) := by
  obtain ⟨first, more, rfl, begins, rfl, rfl⟩ := plainWord_eq_some.mp read
  refine ⟨by rw [List.cons_append, List.takeWhile_append_dropWhile], ?_⟩
  refine plainWord_eq_some.mpr ⟨first, _, rfl, begins, ?_, ?_⟩
  · rw [List.takeWhile_takeWhile]
    simp only [and_self, Bool.decide_eq_true]
  · exact (List.dropWhile_eq_nil_iff.mpr fun c member => (List.mem_takeWhile_imp member)).symm

/-- A word that is read is the front of the text, and nothing but a word. -/
theorem anyWord_front (read : anyWord? text = some (word, rest)) :
    text = word ++ rest ∧ anyWord? word = some (word, []) := by
  unfold anyWord? at read
  split at read
  next behind marked =>
    obtain ⟨⟨plain, left⟩, plainRead, kept⟩ := Option.bind_eq_some_iff.mp read
    obtain ⟨rfl, whole⟩ := plainWord_front plainRead
    rw [after?_eq_some_iff] at marked
    change (if _ then _ else _) = _ at kept
    split at kept
    next => cases kept
    next allowed =>
      cases kept
      refine ⟨marked, ?_⟩
      simp only [anyWord?, after?, beq_self_eq_true, ↓reduceIte, whole, Option.bind_eq_bind,
        Option.bind_some, if_neg allowed]
      rfl
  next unmarked =>
    obtain ⟨rfl, whole⟩ := plainWord_front read
    refine ⟨rfl, ?_⟩
    have alsoUnmarked : after? ['r', '#'] word = none := by
      cases found : after? ['r', '#'] word with
      | none => rfl
      | some behind =>
        rw [after?_eq_some_iff.mp found, List.append_assoc] at unmarked
        rw [after?_eq_some_iff.mpr rfl] at unmarked
        cases unmarked
    unfold anyWord?
    rw [alsoUnmarked]
    exact whole

end Lexer

/-- A facade can print the names that are words. -/
theorem isName_iff {text : String} : Facade.isName text = true ↔ IsWord text := by
  unfold Facade.isName IsWord
  cases read : Lexer.anyWord? text.toList with
  | none => simp
  | some found =>
    obtain ⟨word, rest⟩ := found
    obtain ⟨front, _⟩ := Lexer.anyWord_front read
    cases rest with
    | nil =>
      rw [List.append_nil] at front
      simp [front]
    | cons c rest => simp

/-- A plain word is a first character of identifiers and further ones behind it. -/
theorem isPlainWord_iff {text : String} : IsPlainWord text ↔
    ∃ first more, text.toList = first :: more ∧ isIdentifierStart first = true ∧
      ∀ c ∈ more, isIdentifierPart c = true := by
  unfold IsPlainWord
  rw [Lexer.plainWord_eq_some]
  constructor
  · rintro ⟨first, more, chars, begins, word, _⟩
    rw [chars] at word
    exact ⟨first, more, chars, begins, List.takeWhile_eq_self_iff.mp (List.cons.inj word).2.symm⟩
  · rintro ⟨first, more, chars, begins, parts⟩
    refine ⟨first, more, chars, begins, ?_, ?_⟩
    · rw [chars, List.takeWhile_eq_self_iff.mpr parts]
    · exact (List.dropWhile_eq_nil_iff.mpr parts).symm

/-- The characters of a plain word are identifier characters. -/
theorem IsPlainWord.parts {text : String} (plain : IsPlainWord text) {c : Char}
    (member : c ∈ text.toList) : isIdentifierPart c = true := by
  obtain ⟨first, more, chars, begins, parts⟩ := isPlainWord_iff.mp plain
  rw [chars] at member
  rcases List.mem_cons.mp member with rfl | behind
  · exact isIdentifierPart_of_start begins
  · exact parts c behind

/-- A plain word has no colon in it. -/
theorem IsPlainWord.colon_notMem {text : String} (plain : IsPlainWord text) :
    ':' ∉ text.toList :=
  fun member => absurd (plain.parts member) (by decide)

/-- A word is a plain one or one with the mark of a raw one in front. -/
theorem isWord_iff {text : String} : IsWord text ↔
    IsPlainWord text ∨ ∃ word, text = "r#" ++ word ∧ IsPlainWord word ∧ word ∉ Lexer.neverRaw := by
  unfold IsWord Lexer.anyWord?
  split
  next rest marked =>
    rw [after?_eq_some_iff] at marked
    have split : text = "r#" ++ String.ofList rest := by
      rw [← String.toList_inj, marked, String.toList_append, String.toList_ofList (l := rest)]
      rfl
    have notPlain : ¬ IsPlainWord text := by
      intro plain
      refine absurd (plain.parts (c := '#') ?_) (by decide)
      rw [marked]
      simp
    rw [or_iff_right notPlain]
    constructor
    · intro read
      obtain ⟨⟨word, left⟩, plain, kept⟩ := Option.bind_eq_some_iff.mp read
      change (if _ then _ else _) = _ at kept
      split at kept
      next => cases kept
      next allowed =>
        rw [marked] at kept
        simp only [Option.pure_def, Option.some.injEq, Prod.mk.injEq, List.cons_append,
          List.nil_append, List.cons.injEq, true_and] at kept
        obtain ⟨rfl, rfl⟩ := kept
        refine ⟨String.ofList word, split, ?_, ?_⟩
        · rw [IsPlainWord, String.toList_ofList]
          exact plain
        · simpa using allowed
    · rintro ⟨word, whole, plain, allowed⟩
      have same : String.ofList rest = word :=
        (String.append_right_inj _).mp (split.symm.trans whole)
      rw [← same, IsPlainWord, String.toList_ofList] at plain
      rw [← same] at allowed
      simp only [plain, Option.bind_eq_bind, Option.bind_some, List.contains_eq_mem, allowed,
        decide_false, Bool.false_eq_true, ↓reduceIte, marked]
      rfl
  next unmarked =>
    rw [or_iff_left]
    · rfl
    · rintro ⟨word, rfl, _⟩
      have marked : after? ['r', '#'] ("r#" ++ word).toList = some word.toList :=
        after?_eq_some_iff.mpr String.toList_append
      rw [marked] at unmarked
      cases unmarked

/-- A plain word is a word. -/
theorem IsPlainWord.isWord {text : String} (plain : IsPlainWord text) : IsWord text :=
  isWord_iff.mpr (Or.inl plain)

/-- A word without the mark of a raw one is a plain word. -/
theorem IsWord.isPlainWord {text : String} (word : IsWord text) (unmarked : '#' ∉ text.toList) :
    IsPlainWord text := by
  rcases isWord_iff.mp word with plain | ⟨word, rfl, _⟩
  · exact plain
  · refine absurd ?_ unmarked
    rw [String.toList_append]
    exact List.mem_append_left _ (by decide)

/-- A word is not empty. -/
theorem IsWord.ne_empty {text : String} (word : IsWord text) : text ≠ "" := by
  rintro rfl
  exact absurd word (by decide)

/-- Identifier characters behind a plain word make it longer. -/
theorem isPlainWord_append {text more : String} (nonempty : text ≠ "")
    (parts : ∀ c ∈ more.toList, isIdentifierPart c = true) :
    IsPlainWord (text ++ more) ↔ IsPlainWord text := by
  rw [isPlainWord_iff, isPlainWord_iff, String.toList_append]
  cases chars : text.toList with
  | nil => exact absurd (String.toList_eq_nil_iff.mp chars) nonempty
  | cons first rest =>
    constructor
    · rintro ⟨_, _, same, begins, all⟩
      obtain ⟨rfl, rfl⟩ := List.cons.inj same
      exact ⟨first, rest, rfl, begins, fun c member => all c (List.mem_append_left _ member)⟩
    · rintro ⟨_, _, same, begins, all⟩
      obtain ⟨rfl, rfl⟩ := List.cons.inj same
      refine ⟨first, rest ++ more.toList, rfl, begins, ?_⟩
      intro c member
      exact (List.mem_append.mp member).elim (all c) (parts c)

/-- A number is written with digits. -/
theorem isDigit_of_mem_toString {number : Nat} {c : Char}
    (member : c ∈ (toString number).toList) : c.isDigit = true := by
  have written : c ∈ Nat.toDigits 10 number := by
    rw [← Nat.toList_repr]
    exact member
  exact Nat.isDigit_of_mem_toDigits (by decide) (Nat.le_refl 10) written

/-- The code points of digits. -/
theorem toNat_of_isDigit {c : Char} (digit : c.isDigit = true) : 48 ≤ c.toNat ∧ c.toNat ≤ 57 := by
  simp only [Char.isDigit, Bool.and_eq_true, decide_eq_true_eq, UInt32.le_iff_toNat_le] at digit
  exact digit

/-- A digit may stand behind the first character of an identifier. -/
theorem isIdentifierPart_of_isDigit {c : Char} (digit : c.isDigit = true) :
    isIdentifierPart c = true := by
  have range := toNat_of_isDigit digit
  have low : c.toNat < 128 := by omega
  have isDigit : isDigit c = true := by
    simp only [isDigit, Bool.and_eq_true, decide_eq_true_eq, Char.le_def, UInt32.le_iff_toNat_le]
    exact range
  rw [isIdentifierPart, if_pos low, isDigit, Bool.or_true, Bool.true_or]

/-- No identifier begins with a digit. -/
theorem not_isIdentifierStart_of_isDigit {c : Char} (digit : c.isDigit = true) :
    isIdentifierStart c = false := by
  have range := toNat_of_isDigit digit
  have low : c.toNat < 128 := by omega
  by_contra begins
  rw [Bool.not_eq_false, isIdentifierStart, if_pos low] at begins
  simp only [isAsciiLetter, Bool.or_eq_true, Bool.and_eq_true, decide_eq_true_eq, beq_iff_eq,
    Char.le_def, UInt32.le_iff_toNat_le] at begins
  have below : ¬ (97 ≤ c.toNat) ∧ ¬ (65 ≤ c.toNat) := by omega
  rcases begins with (⟨small, _⟩ | ⟨capital, _⟩) | rfl
  · exact below.1 small
  · exact below.2 capital
  · exact absurd range (by decide)

end DomainFactory.Syntax
