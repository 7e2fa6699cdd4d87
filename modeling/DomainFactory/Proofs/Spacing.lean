import DomainFactory.Proofs.Words
import DomainFactory.TypeText

/-!
# Spaces in canonical texts

The canonical text of a type has a space only between two word characters. So two texts one behind
the other meet in a space or directly, as their canonical texts say, and what begins or ends a
canonical text is no space.
-/
namespace DomainFactory.TypeText

open Text

/-- The characters of the canonical text of a type. -/
def canonical (text : List Char) : List Char := normalizeFrom none false text

/-- Two texts one behind the other, with a space between them when they meet in word characters. -/
def tie (front back : List Char) : List Char :=
  front ++ if front.getLast?.any isWord && back.head?.any isWord then ' ' :: back else back

/-- The characters of a canonical text. -/
theorem toList_normalize (text : String) : (normalize text).toList = canonical text.toList :=
  String.toList_ofList

section Steps

variable {c : Char} (previous : Option Char) (spaced : Bool) (text : List Char)

/-- A blank is left out and remembered. -/
theorem normalizeFrom_blank (blank : isBlank c = true) :
    normalizeFrom previous spaced (c :: text) = normalizeFrom previous true text := by
  rw [normalizeFrom, if_pos blank]

/-- Another character stays, with a space in front when one is remembered and parts words. -/
theorem normalizeFrom_full (full : isBlank c = false) :
    normalizeFrom previous spaced (c :: text) =
      (if spaced && previous.any isWord && isWord c then [' '] else []) ++
        c :: normalizeFrom (some c) false text := by
  rw [normalizeFrom, full, if_neg Bool.false_ne_true]
  split <;> rfl

/-- Without a character before, a remembered space changes nothing. -/
theorem normalizeFrom_none : normalizeFrom none spaced text = canonical text := by
  unfold canonical
  induction text generalizing spaced with
  | nil => rfl
  | cons c text ih =>
    cases blank : isBlank c with
    | true => rw [normalizeFrom_blank _ _ _ blank, normalizeFrom_blank _ _ _ blank]
    | false =>
      rw [normalizeFrom_full _ _ _ blank, normalizeFrom_full _ _ _ blank]
      simp only [Option.any_none, Bool.and_false, Bool.false_and]

/-- A blank in front is left out of the canonical text. -/
theorem canonical_blank (blank : isBlank c = true) : canonical (c :: text) = canonical text := by
  rw [canonical, normalizeFrom_blank none false text blank, normalizeFrom_none]

/-- Another character stays in front of what is read on from it. -/
theorem canonical_begins (full : isBlank c = false) :
    canonical (c :: text) = c :: normalizeFrom (some c) false text := by
  rw [canonical, normalizeFrom_full none false text full]
  rfl

/-- What stands behind a space is tied to the character before it. -/
theorem normalizeFrom_spaced : normalizeFrom previous true text =
    if previous.any isWord && (canonical text).head?.any isWord then ' ' :: canonical text
    else canonical text := by
  induction text with
  | nil => simp [canonical, normalizeFrom]
  | cons c text ih =>
    cases blank : isBlank c with
    | true => rw [normalizeFrom_blank _ _ _ blank, ih, canonical_blank _ blank]
    | false =>
      rw [normalizeFrom_full _ _ _ blank, canonical_begins _ blank, Bool.true_and, List.head?_cons,
        Option.any_some]
      split <;> rfl

/-- What stands behind a space is read on from the last character before it. -/
theorem normalizeFrom_append_space (back : List Char) :
    normalizeFrom previous spaced (text ++ ' ' :: back) =
      normalizeFrom previous spaced text ++
        normalizeFrom ((normalizeFrom previous spaced text).getLast?.or previous) true back := by
  induction text generalizing previous spaced with
  | nil => exact normalizeFrom_blank previous spaced back (by decide)
  | cons c text ih =>
    rw [List.cons_append]
    cases blank : isBlank c with
    | true => rw [normalizeFrom_blank _ _ _ blank, normalizeFrom_blank _ _ _ blank, ih]
    | false =>
      have last (gap : List Char) :
          (gap ++ c :: normalizeFrom (some c) false text).getLast?.or previous =
            (normalizeFrom (some c) false text).getLast?.or (some c) := by
        rw [List.getLast?_append, List.getLast?_cons]
        cases (normalizeFrom (some c) false text).getLast? <;> rfl
      rw [normalizeFrom_full _ _ _ blank, normalizeFrom_full _ _ _ blank, ih, last]
      simp only [List.append_assoc, List.cons_append]

end Steps

/-- Text behind a space is tied to the text before it. -/
theorem canonical_append_space (front back : List Char) :
    canonical (front ++ ' ' :: back) = tie (canonical front) (canonical back) := by
  have kept : ∀ last : Option Char, last.or none = last := fun last => by cases last <;> rfl
  rw [canonical, normalizeFrom_append_space, normalizeFrom_spaced, kept, ← canonical, tie]

/-- A text without blanks is canonical. -/
theorem canonical_eq_self {text : List Char} (full : ∀ c ∈ text, isBlank c = false) :
    canonical text = text := by
  have reads (previous : Option Char) : normalizeFrom previous false text = text := by
    induction text generalizing previous with
    | nil => rfl
    | cons c text ih =>
      rw [normalizeFrom_full _ _ _ (full c List.mem_cons_self),
        ih fun other member => full other (List.mem_cons_of_mem c member)]
      rfl
  exact reads none

/-- Where a space stands in a text that is read on from a character, a word character stands before
it and another one behind it. -/
theorem normalizeFrom_space {previous : Option Char} {spaced : Bool} {text front back : List Char}
    (split : normalizeFrom previous spaced text = front ++ ' ' :: back) :
    (front.getLast?.or previous).any isWord = true ∧ back.head?.any isWord = true := by
  induction text generalizing previous spaced front with
  | nil => simp [normalizeFrom] at split
  | cons c text ih =>
    cases blank : isBlank c with
    | true =>
      rw [normalizeFrom_blank _ _ _ blank] at split
      exact ih split
    | false =>
      have here : c ≠ ' ' := by
        rintro rfl
        exact absurd blank (by decide)
      have later : ∀ front, c :: normalizeFrom (some c) false text = front ++ ' ' :: back →
          ∀ before : Option Char, (front.getLast?.or before).any isWord = true ∧
            back.head?.any isWord = true := by
        intro front split before
        cases front with
        | nil => exact absurd (List.cons.inj split).1 here
        | cons first front =>
          obtain ⟨rfl, behind⟩ := List.cons.inj split
          have found := ih behind
          rw [List.getLast?_cons]
          cases last : front.getLast? <;> rw [last] at found <;> exact found
      rw [normalizeFrom_full _ _ _ blank] at split
      split at split
      next parts =>
        simp only [Bool.and_eq_true] at parts
        cases front with
        | nil =>
          obtain ⟨_, rfl⟩ := List.cons.inj split
          exact ⟨parts.1.2, parts.2⟩
        | cons first front =>
          obtain ⟨rfl, behind⟩ := List.cons.inj split
          have found := later front behind (some ' ')
          rw [List.getLast?_cons]
          cases last : front.getLast? <;> rw [last] at found <;> exact found
      next => exact later front split previous

/-- A text of which every character is checked has no blank. -/
theorem full_of_all {text : List Char} (checked : text.all (!isBlank ·) = true) :
    ∀ c ∈ text, isBlank c = false := fun c member =>
  (Bool.not_eq_true' _).mp (List.all_eq_true.mp checked c member)

/-- A space in a canonical text stands between two word characters. -/
theorem canonical_space {text front back : List Char}
    (split : canonical text = front ++ ' ' :: back) :
    front.getLast?.any isWord = true ∧ back.head?.any isWord = true := by
  have found : (front.getLast?.or none).any isWord = true ∧ back.head?.any isWord = true :=
    normalizeFrom_space split
  rwa [Option.or_none] at found

/-- The only blank in a canonical text is the space. -/
theorem blank_of_mem_normalizeFrom {previous : Option Char} {spaced : Bool} {text : List Char}
    {c : Char} (member : c ∈ normalizeFrom previous spaced text) (blank : isBlank c = true) :
    c = ' ' := by
  induction text generalizing previous spaced with
  | nil => exact absurd member List.not_mem_nil
  | cons first text ih =>
    cases full : isBlank first with
    | true =>
      rw [normalizeFrom_blank _ _ _ full] at member
      exact ih member
    | false =>
      rw [normalizeFrom_full _ _ _ full] at member
      rcases List.mem_append.mp member with gap | member
      · split at gap
        · exact List.mem_singleton.mp gap
        · exact absurd gap List.not_mem_nil
      · rcases List.mem_cons.mp member with rfl | later
        · rw [full] at blank
          cases blank
        · exact ih later

/-- A character that is no blank stays. -/
theorem mem_normalizeFrom {previous : Option Char} {spaced : Bool} {text : List Char} {c : Char}
    (member : c ∈ text) (full : isBlank c = false) : c ∈ normalizeFrom previous spaced text := by
  induction text generalizing previous spaced with
  | nil => exact absurd member List.not_mem_nil
  | cons first text ih =>
    cases begins : isBlank first with
    | true =>
      rw [normalizeFrom_blank _ _ _ begins]
      rcases List.mem_cons.mp member with rfl | later
      · rw [full] at begins
        cases begins
      · exact ih later
    | false =>
      rw [normalizeFrom_full _ _ _ begins]
      refine List.mem_append_right _ ?_
      rcases List.mem_cons.mp member with rfl | later
      · exact List.mem_cons_self
      · exact List.mem_cons_of_mem _ (ih later)

/-- A canonical text begins with no blank. -/
theorem canonical_head (text : List Char) : (canonical text).head?.any isBlank = false := by
  cases begins : canonical text with
  | nil => rfl
  | cons c rest =>
    by_contra blank
    rw [Bool.not_eq_false, List.head?_cons, Option.any_some] at blank
    have member : c ∈ normalizeFrom none false text := by
      rw [← canonical, begins]
      exact List.mem_cons_self
    obtain rfl := blank_of_mem_normalizeFrom member blank
    have word : ([] : List Char).getLast?.any isWord = true := (canonical_space begins).1
    cases word

/-- A canonical text ends in no blank. -/
theorem canonical_last (text : List Char) : (canonical text).getLast?.any isBlank = false := by
  cases ends : (canonical text).getLast? with
  | none => rfl
  | some c =>
    by_contra blank
    rw [Bool.not_eq_false, Option.any_some] at blank
    obtain ⟨front, split⟩ := List.getLast?_eq_some_iff.mp ends
    have member : c ∈ normalizeFrom none false text := by
      rw [← canonical, split]
      exact List.mem_append_right front List.mem_cons_self
    obtain rfl := blank_of_mem_normalizeFrom member blank
    have word : ([] : List Char).head?.any isWord = true := (canonical_space split).2
    cases word

/-- A text that begins with no blank begins where its first blanks end. -/
theorem dropWhile_isBlank {text : List Char} (full : text.head?.any isBlank = false) :
    text.dropWhile isBlank = text := by
  cases text with
  | nil => rfl
  | cons c text => exact List.dropWhile_cons_of_neg (by simpa using full)

/-- Nothing is trimmed off a canonical text. -/
theorem trimChars_canonical (text : List Char) : trimChars (canonical text) = canonical text := by
  have back : (canonical text).reverse.head?.any isBlank = false := by
    rw [List.head?_reverse]
    exact canonical_last text
  rw [trimChars, dropWhile_isBlank (canonical_head text), dropWhile_isBlank back,
    List.reverse_reverse]

end DomainFactory.TypeText
