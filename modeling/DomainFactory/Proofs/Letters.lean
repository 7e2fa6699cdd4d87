import DomainFactory.Text.Snake

/-!
# Identifier characters, white space and letter case

What begins an identifier may also stand behind its first character, white space is no word
character, and the lower-case form of an identifier character consists of identifier characters. All
are facts about the tables, so each is reduced to a walk along them.
-/
namespace DomainFactory.Text

namespace Stretches

/-- Whether every position inside the stretches of one list is inside those of another, both counted
from the same start. The fuel bounds the steps. -/
def within : Nat → List Nat → List Nat → Bool
  | fuel + 1, outer :: inner :: rest, wideOuter :: wideInner :: wideRest =>
    if wideOuter + wideInner ≤ outer then
      within fuel ((outer - (wideOuter + wideInner)) :: inner :: rest) wideRest
    else if wideOuter ≤ outer && outer + inner ≤ wideOuter + wideInner then
      within fuel rest (0 :: (wideOuter + wideInner - (outer + inner)) :: wideRest)
    else false
  | _, _ :: _ :: _, _ => false
  | _, _, _ => true

/-- What is inside stretches is inside any that hold them. -/
theorem inside_of_within {fuel : Nat} {narrow wide : List Nat}
    (walked : within fuel narrow wide = true) {position : Nat}
    (member : inside narrow position = true) : inside wide position = true := by
  fun_induction within fuel narrow wide generalizing position with
  | case1 fuel outer inner rest wideOuter wideInner wideRest passed ih =>
    have moved : inside ((outer - (wideOuter + wideInner)) :: inner :: rest)
        (position - (wideOuter + wideInner)) = true := by
      unfold inside at member ⊢
      grind
    have later := ih walked moved
    unfold inside at member ⊢
    grind
  | case2 fuel outer inner rest wideOuter wideInner wideRest notPassed holds ih =>
    simp only [Bool.and_eq_true, decide_eq_true_eq] at holds
    unfold inside at member ⊢
    split at member
    · cases member
    · split at member
      · grind
      · have later := ih walked member
        unfold inside at later
        grind
  | case3 => cases walked
  | case4 => cases walked
  | case5 fuel narrow wide none short =>
    unfold inside at member
    grind

end Stretches

/-- The characters of identifiers are those of the table, also in the ASCII range. -/
theorem isIdentifierPart_eq (c : Char) :
    isIdentifierPart c = Stretches.inside identifierPartStretches.lengths c.toNat := by
  have ascii : ∀ n < 128, (isAsciiLetter (Char.ofNat n) || isDigit (Char.ofNat n) ||
      Char.ofNat n == '_') = Stretches.inside identifierPartStretches.lengths n := by
    decide +kernel
  unfold isIdentifierPart
  split
  next low =>
    have here := ascii c.toNat low
    rwa [Char.ofNat_toNat] at here
  next => rfl

/-- What begins an identifier may also stand behind its first character. -/
theorem isIdentifierPart_of_start {c : Char} (begins : isIdentifierStart c = true) :
    isIdentifierPart c = true := by
  unfold isIdentifierStart at begins
  unfold isIdentifierPart
  split at begins
  next low =>
    rw [if_pos low]
    simp only [Bool.or_eq_true] at begins ⊢
    exact begins.imp Or.inl id
  next high =>
    rw [if_neg high]
    have walked : Stretches.within 3000 identifierStartStretches.lengths
        identifierPartStretches.lengths = true := by decide +kernel
    exact Stretches.inside_of_within walked begins

/-- The code points of white space. -/
def blanks : List Nat := [
  9, 10, 11, 12, 13, 0x20, 0x85, 0xA0, 0x1680, 0x2000, 0x2001, 0x2002, 0x2003, 0x2004, 0x2005,
  0x2006, 0x2007, 0x2008, 0x2009, 0x200A, 0x2028, 0x2029, 0x202F, 0x205F, 0x3000]

/-- White space is listed. -/
theorem toNat_mem_blanks {c : Char} (blank : isBlank c = true) : c.toNat ∈ blanks := by
  simp only [isBlank, Bool.or_eq_true, Bool.and_eq_true, decide_eq_true_eq, beq_iff_eq, blanks,
    List.mem_cons, List.not_mem_nil, or_false] at blank ⊢
  omega

/-- A word character is no white space. -/
theorem isBlank_of_word {c : Char} (word : isWord c = true) : isBlank c = false := by
  have outside : blanks.all (fun n => !isWord (Char.ofNat n)) = true := by decide +kernel
  rw [← Bool.not_eq_true]
  intro blank
  have none := List.all_eq_true.mp outside _ (toNat_mem_blanks blank)
  rw [Char.ofNat_toNat, word] at none
  cases none

/-- Whether the lower-case forms of a run of letters are identifier characters, unless none of its
letters is one. -/
def formsAreParts : Nat × Nat × Nat × Nat → Bool
  | (first, count, step, form) =>
    let last := form + (count - 1) * step
    (last < 0xD800 || 0xDFFF < form && last < 0x110000) &&
        Stretches.within 3000 [form, last + 1 - form] identifierPartStretches.lengths ||
      (List.range count).all fun place =>
        !Stretches.inside identifierPartStretches.lengths (first + place * step)

/-- The lower-case forms of all runs of letters that identifiers may have are identifier
characters. -/
theorem lowercaseFormRuns_parts : lowercaseFormRuns.all formsAreParts = true := by
  decide +kernel

/-- The place of a member in a run of equally spaced code points. -/
theorem exists_of_inRun {first count step codePoint : Nat}
    (member : inRun first count step codePoint = true) :
    ∃ place < count, codePoint = first + place * step := by
  simp only [inRun, Bool.and_eq_true, decide_eq_true_eq, beq_iff_eq] at member
  obtain ⟨⟨above, below⟩, spaced⟩ := member
  obtain ⟨place, distance⟩ := Nat.dvd_of_mod_eq_zero spaced
  have less : step * place < step * count := by
    rw [← distance, Nat.mul_comm step count]
    omega
  refine ⟨place, Nat.lt_of_mul_lt_mul_left less, ?_⟩
  rw [Nat.mul_comm place step, ← distance]
  omega

/-- The lower-case form of an identifier character consists of identifier characters. -/
theorem toLowercase_part {c form : Char} (part : isIdentifierPart c = true)
    (member : form ∈ toLowercase c) : isIdentifierPart form = true := by
  unfold toLowercase at member
  split at member
  next dotted =>
    simp only [List.mem_cons, List.not_mem_nil, or_false] at member
    rcases member with rfl | rfl <;> decide +kernel
  next =>
    split at member
    next first count step start found =>
      have inside := List.find?_some found
      obtain ⟨place, below, here⟩ := exists_of_inRun inside
      have checked :=
        List.all_eq_true.mp lowercaseFormRuns_parts _ (List.mem_of_find?_eq_some found)
      rw [List.mem_singleton] at member
      simp only [formsAreParts, Bool.or_eq_true, Bool.and_eq_true, decide_eq_true_eq] at checked
      rcases checked with ⟨valid, walked⟩ | none
      · have offset : place * step ≤ (count - 1) * step := Nat.mul_le_mul_right _ (by omega)
        have moved : form.toNat = start + place * step := by
          have isValid : (start + place * step).isValidChar := by
            unfold Nat.isValidChar
            omega
          rw [member, here, Nat.add_sub_cancel_left, Char.ofNat, dif_pos isValid]
          rfl
        rw [isIdentifierPart_eq, moved]
        apply Stretches.inside_of_within walked
        simp only [Stretches.inside]
        grind
      · have outside := List.all_eq_true.mp none place (List.mem_range.mpr below)
        rw [isIdentifierPart_eq, here] at part
        rw [part] at outside
        cases outside
    next =>
      rw [List.mem_singleton] at member
      exact member ▸ part

/-- The words of a name are parted by identifier characters, so the snake case of identifier
characters consists of such characters. -/
theorem snakeFrom_parts {text : List Char} (parts : ∀ c ∈ text, isIdentifierPart c = true)
    (endsWord : Bool) : ∀ c ∈ snakeFrom endsWord text, isIdentifierPart c = true := by
  induction text generalizing endsWord with
  | nil => exact fun _ member => absurd member List.not_mem_nil
  | cons first text ih =>
    have part := parts first List.mem_cons_self
    have rest := ih fun c member => parts c (List.mem_cons_of_mem first member)
    intro c member
    unfold snakeFrom at member
    split at member
    next =>
      rcases List.mem_append.mp member with front | behind
      · rcases List.mem_append.mp front with parting | lowered
        · have underscore : c = '_' := by
            cases endsWord with
            | true => exact List.mem_singleton.mp parting
            | false => exact absurd parting List.not_mem_nil
          exact underscore ▸ by decide
        · exact toLowercase_part part lowered
      · exact rest false c behind
    next =>
      rcases List.mem_cons.mp member with rfl | behind
      · exact part
      · exact rest _ c behind

/-- A character that is no upper-case letter stands in the snake case of a text as in the text. -/
theorem mem_snakeFrom {c : Char} (plain : isUppercase c = false) {text : List Char}
    (member : c ∈ text) (endsWord : Bool) : c ∈ snakeFrom endsWord text := by
  induction text generalizing endsWord with
  | nil => exact absurd member List.not_mem_nil
  | cons first text ih =>
    unfold snakeFrom
    rcases List.mem_cons.mp member with rfl | later
    · rw [if_neg (by rw [plain]; exact Bool.false_ne_true)]
      exact List.mem_cons_self
    · split
      · exact List.mem_append_right _ (ih later false)
      · exact List.mem_cons_of_mem _ (ih later _)

end DomainFactory.Text
