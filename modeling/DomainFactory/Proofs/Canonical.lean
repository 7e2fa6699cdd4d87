import Mathlib.Data.Set.Defs
import DomainFactory.Proofs.Spacing

/-!
# Canonical texts

Types are compared by their canonical texts, so these must neither merge nor split spellings. What a
text has besides its visible characters are the places where white space parts two of them that are
word characters; the canonical text keeps both and nothing else. So two texts have one canonical
text exactly when they agree in both, whatever white space they have elsewhere and of whatever kind.
-/
namespace DomainFactory.TypeText

open Text

/-- The characters of a text that are no white space. -/
def visible (text : List Char) : List Char := text.filter (!isBlank ·)

/-- The places where white space parts two word characters of a text. A place is the position of the
first of the two among the visible characters. -/
def partings (text : List Char) : Set ℕ :=
  {place | ∃ front word gap back, text = front ++ word :: (gap ++ back) ∧ isWord word = true ∧
    gap ≠ [] ∧ (∀ c ∈ gap, isBlank c = true) ∧ back.head?.any isWord = true ∧
    (visible front).length = place}

/-- A text has no white space but single spaces between two word characters. -/
def Tidy (text : List Char) : Prop :=
  ∀ front c back, text = front ++ c :: back → isBlank c = true →
    c = ' ' ∧ front.getLast?.any isWord = true ∧ back.head?.any isWord = true

/-- A form of texts that is canonical for their visible characters and partings. -/
structure IsCanonical (form : String → String) : Prop where
  /-- The form has the visible characters and the partings of the text. -/
  kept : ∀ text, visible (form text).toList = visible text.toList ∧
    partings (form text).toList = partings text.toList
  /-- Two texts have one form exactly when they agree in visible characters and partings. -/
  same_iff : ∀ left right, form left = form right ↔
    visible left.toList = visible right.toList ∧ partings left.toList = partings right.toList
  /-- The form has no white space but single spaces between two word characters. -/
  tidy : ∀ text, Tidy (form text).toList
  /-- The form of a form is that form. -/
  settled : ∀ text, form (form text) = form text

/-- Whether a text begins with white space that has a word character behind it. -/
def gapped (text : List Char) : Bool :=
  text.head?.any isBlank && (visible text).head?.any isWord

/-- What no blank in front changes, no white space in front changes. -/
theorem gap_unseen {α : Type} {seen : List Char → α}
    (unseen : ∀ {c : Char} (text : List Char), isBlank c = true → seen (c :: text) = seen text)
    {gap : List Char} (white : ∀ c ∈ gap, isBlank c = true) (text : List Char) :
    seen (gap ++ text) = seen text := by
  induction gap with
  | nil => rfl
  | cons first gap ih =>
    rw [List.cons_append, unseen _ (white first List.mem_cons_self)]
    exact ih fun c member => white c (List.mem_cons_of_mem first member)

section Visible

variable {c : Char} (text : List Char)

/-- A blank is not visible. -/
theorem visible_blank (blank : isBlank c = true) : visible (c :: text) = visible text :=
  List.filter_cons_of_neg (by rw [blank]; exact Bool.false_ne_true)

/-- Any other character is. -/
theorem visible_full (full : isBlank c = false) : visible (c :: text) = c :: visible text :=
  List.filter_cons_of_pos (by rw [full]; rfl)

end Visible

/-- A text is gapped exactly when it is some white space in front of a word character. -/
theorem gapped_iff {text : List Char} : gapped text = true ↔
    ∃ gap back, text = gap ++ back ∧ gap ≠ [] ∧ (∀ c ∈ gap, isBlank c = true) ∧
      back.head?.any isWord = true := by
  unfold gapped
  rw [Bool.and_eq_true]
  constructor
  · rintro ⟨begins, word⟩
    have white : ∀ c ∈ text.takeWhile isBlank, isBlank c = true := fun c member =>
      List.mem_takeWhile_imp member
    refine ⟨text.takeWhile isBlank, text.dropWhile isBlank, List.takeWhile_append_dropWhile.symm,
      ?_, white, ?_⟩
    · cases text with
      | nil => cases begins
      | cons c text => simp [show isBlank c = true from begins]
    · rw [← List.takeWhile_append_dropWhile (p := isBlank) (l := text),
        gap_unseen visible_blank white] at word
      have stops := List.head?_dropWhile_not isBlank text
      cases behind : text.dropWhile isBlank with
      | nil =>
        rw [behind] at word
        cases word
      | cons c back =>
        rw [behind, List.head?_cons] at stops
        rw [behind, visible_full back (by simpa using stops)] at word
        exact word
  · rintro ⟨gap, back, rfl, filled, white, word⟩
    rw [gap_unseen visible_blank white]
    obtain ⟨first, gap, rfl⟩ := List.exists_cons_of_ne_nil filled
    refine ⟨white first List.mem_cons_self, ?_⟩
    cases back with
    | nil => cases word
    | cons c back =>
      rw [visible_full back (isBlank_of_word word)]
      exact word

section Partings

variable {c : Char} (text : List Char) {place : ℕ}

/-- A blank in front changes no parting. -/
theorem partings_blank (blank : isBlank c = true) : partings (c :: text) = partings text := by
  ext place
  constructor
  · rintro ⟨front, word, gap, back, split, letter, filled, white, behind, rfl⟩
    cases front with
    | nil =>
      obtain ⟨rfl, _⟩ := List.cons.inj split
      rw [isBlank_of_word letter] at blank
      cases blank
    | cons first front =>
      obtain ⟨rfl, rfl⟩ := List.cons.inj split
      refine ⟨front, word, gap, back, rfl, letter, filled, white, behind, ?_⟩
      rw [visible_blank front blank]
  · rintro ⟨front, word, gap, back, rfl, letter, filled, white, behind, rfl⟩
    refine ⟨c :: front, word, gap, back, rfl, letter, filled, white, behind, ?_⟩
    rw [visible_blank front blank]

/-- The first visible character is parted from the next exactly when both are word characters with
white space between them. -/
theorem zero_mem_partings (full : isBlank c = false) :
    0 ∈ partings (c :: text) ↔ (isWord c && gapped text) = true := by
  rw [Bool.and_eq_true, gapped_iff]
  constructor
  · rintro ⟨front, word, gap, back, split, letter, filled, white, behind, none⟩
    cases front with
    | nil =>
      obtain ⟨rfl, rfl⟩ := List.cons.inj split
      exact ⟨letter, gap, back, rfl, filled, white, behind⟩
    | cons first front =>
      obtain ⟨rfl, _⟩ := List.cons.inj split
      rw [visible_full front full] at none
      cases none
  · rintro ⟨letter, gap, back, rfl, filled, white, behind⟩
    exact ⟨[], c, gap, back, rfl, letter, filled, white, behind, rfl⟩

/-- The partings behind the first visible character are those of the rest. -/
theorem succ_mem_partings (full : isBlank c = false) :
    place + 1 ∈ partings (c :: text) ↔ place ∈ partings text := by
  constructor
  · rintro ⟨front, word, gap, back, split, letter, filled, white, behind, counted⟩
    cases front with
    | nil => cases counted
    | cons first front =>
      obtain ⟨rfl, rfl⟩ := List.cons.inj split
      rw [visible_full front full, List.length_cons, Nat.add_right_cancel_iff] at counted
      exact ⟨front, word, gap, back, rfl, letter, filled, white, behind, counted⟩
  · rintro ⟨front, word, gap, back, rfl, letter, filled, white, behind, counted⟩
    refine ⟨c :: front, word, gap, back, rfl, letter, filled, white, behind, ?_⟩
    rw [visible_full front full, List.length_cons, counted]

end Partings

/-- A canonical text begins with the first visible character. -/
theorem head_canonical (text : List Char) : (canonical text).head? = (visible text).head? := by
  induction text with
  | nil => rfl
  | cons c text ih =>
    cases blank : isBlank c with
    | true => rw [canonical_blank text blank, visible_blank text blank, ih]
    | false =>
      rw [canonical_begins text blank, visible_full text blank]
      rfl

/-- Another character stays, with a space behind it where it is a word character in front of a
gap. -/
theorem canonical_full {c : Char} (text : List Char) (full : isBlank c = false) :
    canonical (c :: text) =
      c :: if isWord c && gapped text then ' ' :: canonical text else canonical text := by
  rw [canonical_begins text full]
  congr 1
  cases text with
  | nil =>
    rw [show gapped [] = false from rfl, Bool.and_false]
    rfl
  | cons next text =>
    unfold gapped
    cases blank : isBlank next with
    | true =>
      rw [normalizeFrom_blank _ _ text blank, normalizeFrom_spaced, canonical_blank text blank,
        visible_blank text blank, head_canonical text, List.head?_cons, Option.any_some,
        Option.any_some, blank, Bool.true_and]
    | false =>
      rw [List.head?_cons, Option.any_some, blank, Bool.false_and, Bool.and_false,
        canonical_begins text blank, normalizeFrom_full _ _ text blank]
      rfl

/-- The canonical text has the visible characters of the text. -/
theorem visible_canonical (text : List Char) : visible (canonical text) = visible text := by
  induction text with
  | nil => rfl
  | cons c text ih =>
    cases blank : isBlank c with
    | true => rw [canonical_blank text blank, visible_blank text blank, ih]
    | false =>
      rw [canonical_full text blank, visible_full _ blank, visible_full text blank, ← ih]
      split
      · rw [visible_blank (c := ' ') _ (by decide)]
      · rfl

/-- The canonical text has the partings of the text. -/
theorem partings_canonical (text : List Char) : partings (canonical text) = partings text := by
  induction text with
  | nil => rfl
  | cons c text ih =>
    cases blank : isBlank c with
    | true => rw [canonical_blank text blank, partings_blank _ blank, ih]
    | false =>
      rw [canonical_full text blank]
      ext place
      cases place with
      | zero =>
        rw [zero_mem_partings _ blank, zero_mem_partings _ blank]
        split
        next parted =>
          -- The space is a gap, since the same word character stands behind it.
          have gap := (Bool.and_eq_true_iff.mp parted).2
          have space : gapped (' ' :: canonical text) = true := by
            rw [gapped, visible_blank (c := ' ') _ (by decide), visible_canonical]
            exact (Bool.and_eq_true_iff.mp gap).2
          rw [space, gap]
        next whole =>
          have full : gapped (canonical text) = false := by
            rw [gapped, canonical_head, Bool.false_and]
          rw [full, Bool.and_false, Bool.eq_false_iff.mpr whole]
      | succ place =>
        rw [succ_mem_partings _ blank, succ_mem_partings _ blank, ← ih]
        split
        · rw [partings_blank (c := ' ') _ (by decide)]
        · rfl

/-- Texts with the same visible characters and partings have one canonical text. -/
theorem canonical_congr {left right : List Char} (same : visible left = visible right)
    (parted : partings left = partings right) : canonical left = canonical right := by
  induction left generalizing right with
  | nil =>
    have white : ∀ c ∈ right, isBlank c = true := by
      simpa using List.filter_eq_nil_iff.mp same.symm
    rw [← List.append_nil right, gap_unseen canonical_blank white]
  | cons c left ih =>
    cases blank : isBlank c with
    | true =>
      rw [canonical_blank left blank]
      rw [visible_blank left blank] at same
      rw [partings_blank _ blank] at parted
      exact ih same parted
    | false =>
      -- The other text has the same character behind its first white space.
      rw [visible_full left blank] at same
      obtain ⟨gap, rest, rfl, unseen, _, behind⟩ := List.filter_eq_cons_iff.mp same.symm
      have white : ∀ c ∈ gap, isBlank c = true := by simpa using unseen
      rw [gap_unseen partings_blank white] at parted
      have begins : (isWord c && gapped left) = (isWord c && gapped rest) := by
        rw [Bool.eq_iff_iff, ← zero_mem_partings _ blank, ← zero_mem_partings _ blank, parted]
      have later : partings left = partings rest := by
        ext place
        rw [← succ_mem_partings _ blank, parted, succ_mem_partings _ blank]
      rw [gap_unseen canonical_blank white, canonical_full left blank, canonical_full rest blank,
        begins, ih behind.symm later]

/-- A canonical text has no white space but single spaces between two word characters. -/
theorem tidy_canonical (text : List Char) : Tidy (canonical text) := by
  intro front c back split blank
  have member : c ∈ canonical text := split ▸ List.mem_append_right front List.mem_cons_self
  obtain rfl := blank_of_mem_normalizeFrom member blank
  exact ⟨rfl, canonical_space split⟩

/-- The canonical text of a type is a canonical form. -/
theorem normalize_isCanonical : IsCanonical normalize := by
  have kept (text : String) : visible (normalize text).toList = visible text.toList ∧
      partings (normalize text).toList = partings text.toList := by
    rw [toList_normalize]
    exact ⟨visible_canonical _, partings_canonical _⟩
  have joined {left right : String} (same : visible left.toList = visible right.toList)
      (parted : partings left.toList = partings right.toList) :
      normalize left = normalize right := by
    rw [← String.toList_inj, toList_normalize, toList_normalize]
    exact canonical_congr same parted
  constructor
  case kept => exact kept
  case same_iff =>
    intro left right
    constructor
    · intro same
      rw [← (kept left).1, ← (kept left).2, same]
      exact kept right
    · rintro ⟨same, parted⟩
      exact joined same parted
  case tidy =>
    intro text
    rw [toList_normalize]
    exact tidy_canonical _
  case settled => exact fun text => joined (kept text).1 (kept text).2

example : normalize "Arc < dyn\tRepo + Send >" = normalize "Arc<dyn  Repo+Send>" := by
  decide +kernel

end DomainFactory.TypeText
