import DomainFactory.Binding
import DomainFactory.Proofs.Lexing
import DomainFactory.Proofs.Spacing

/-!
# What stands behind reference marks

A reference type is a type behind marks, each an ampersand with an optional lifetime and an optional
word that permits mutation. The marks are removed from the canonical text, where the space that ends
a lifetime or the word is left out in front of anything but a word. So the removal arrives at the
type behind the marks only when the spaces it looks for are there, and this module says when.
-/
namespace DomainFactory.TypeText

open Text

section Removal

variable {text rest word type : List Char}

/-- The text behind all reference marks in front of it. -/
def strip (text : List Char) : List Char := stripLayers text.length text

/-- The text behind the first space and the reference marks that follow it. -/
def seek (text : List Char) : List Char := strip ((afterFirst? [' '] text).getD [])

/-- What follows the first space is shorter than the text. -/
theorem length_afterFirst_lt (found : afterFirst? [' '] text = some rest) :
    rest.length < text.length := by
  induction text with
  | nil => cases found
  | cons c text ih =>
    rw [afterFirst?] at found
    split at found
    next behind here =>
      obtain rfl := Option.some.inj found
      rw [after?_eq_some_iff.mp here]
      exact Nat.lt_succ_self _
    next => exact (ih found).trans (Nat.lt_succ_self _)

/-- A layer of reference marks is at least one character. -/
theorem length_stripLayer_lt (removed : stripLayer? text = some rest) :
    rest.length < text.length := by
  unfold stripLayer? at removed
  split at removed
  next behind =>
    obtain rfl := Option.some.inj removed
    exact Nat.lt_succ_of_le (List.dropWhile_suffix isBlank).length_le
  next behind =>
    obtain rfl := Option.some.inj removed
    cases found : afterFirst? [' '] behind with
    | none => exact Nat.zero_lt_succ _
    | some rest => exact (length_afterFirst_lt found).trans (Nat.lt_succ_self _)
  next =>
    rw [after?_eq_some_iff.mp removed, List.length_append]
    exact Nat.lt_add_of_pos_left (by decide)

/-- The removal of layers stops by itself when as many are allowed as there are characters. -/
theorem stripLayers_of_le {fuel : Nat} (enough : text.length ≤ fuel) :
    stripLayers fuel text = strip text := by
  suffices same : ∀ {bound more fewer : Nat} {text : List Char}, text.length ≤ bound →
      text.length ≤ more → text.length ≤ fewer → stripLayers more text = stripLayers fewer text from
    same enough enough (Nat.le_refl _)
  intro bound
  induction bound with
  | zero =>
    intro more fewer text small _ _
    obtain rfl := List.length_eq_zero_iff.mp (Nat.le_zero.mp small)
    cases more <;> cases fewer <;> rfl
  | succ bound ih =>
    intro more fewer text small big smaller
    cases removed : stripLayer? text with
    | none => cases more <;> cases fewer <;> simp only [stripLayers, removed]
    | some rest =>
      have shorter := length_stripLayer_lt removed
      obtain ⟨more, rfl⟩ := Nat.exists_eq_succ_of_ne_zero (n := more) (by omega)
      obtain ⟨fewer, rfl⟩ := Nat.exists_eq_succ_of_ne_zero (n := fewer) (by omega)
      simp only [stripLayers, removed]
      exact ih (by omega) (by omega) (by omega)

/-- Behind one layer the removal goes on. -/
theorem strip_of_layer (removed : stripLayer? text = some rest) : strip text = strip rest := by
  have shorter := length_stripLayer_lt removed
  have enough : rest.length ≤ text.length - 1 := by omega
  have steps : text.length = (text.length - 1) + 1 := by omega
  rw [strip, steps, stripLayers, removed]
  exact stripLayers_of_le enough

/-- The removal never makes a text longer. -/
theorem length_strip_le : (strip text).length ≤ text.length := by
  have shrinks : ∀ fuel (text : List Char), (stripLayers fuel text).length ≤ text.length := by
    intro fuel
    induction fuel with
    | zero => exact fun text => Nat.le_refl _
    | succ fuel ih =>
      intro text
      rw [stripLayers]
      split
      next rest removed => exact (ih rest).trans (length_stripLayer_lt removed).le
      next => exact Nat.le_refl _
  exact shrinks _ text

/-- The removal leaves exactly the texts that begin with no reference mark. -/
theorem strip_eq_self_iff : strip text = text ↔ stripLayer? text = none := by
  cases removed : stripLayer? text with
  | none =>
    refine iff_of_true ?_ rfl
    unfold strip
    cases text.length <;> simp only [stripLayers, removed]
  | some rest =>
    refine iff_of_false ?_ (Option.some_ne_none rest)
    intro same
    have shorter := (@length_strip_le rest).trans_lt (length_stripLayer_lt removed)
    rw [← strip_of_layer removed, same] at shorter
    exact Nat.lt_irrefl _ shorter

/-- What stands behind the first space is never the whole text. -/
theorem seek_ne_self (filled : text ≠ []) : seek text ≠ text := by
  intro same
  have shorter : (seek text).length < text.length := by
    unfold seek
    cases found : afterFirst? [' '] text with
    | none => exact length_strip_le.trans_lt (List.length_pos_iff.mpr filled)
    | some rest => exact length_strip_le.trans_lt (length_afterFirst_lt found)
  rw [same] at shorter
  exact Nat.lt_irrefl _ shorter

/-- The first space is looked for behind any other character. -/
theorem seek_cons {c : Char} (other : c ≠ ' ') : seek (c :: text) = seek text := by
  have passed : after? [' '] (c :: text) = none := by
    rw [after?, if_neg]
    simpa using other.symm
  rw [seek, afterFirst?, passed, seek]

/-- The first space is looked for behind any word. -/
theorem seek_append (full : ' ' ∉ word) : seek (word ++ text) = seek text := by
  induction word with
  | nil => rfl
  | cons c word ih =>
    rw [List.mem_cons, not_or] at full
    rw [List.cons_append, seek_cons (Ne.symm full.1), ih full.2]

/-- A word in front of a text is passed over: with the space behind it, or with what goes on up to
the next one. -/
theorem seek_tie (full : ' ' ∉ word) : seek (tie word text) =
    if word.getLast?.any isWord && text.head?.any isWord then strip text else seek text := by
  rw [tie, seek_append full]
  split
  · rfl
  · rfl

/-- An ampersand is removed. -/
theorem strip_ampersand (full : text.head?.any isBlank = false) :
    strip ('&' :: text) = strip text := by
  refine strip_of_layer ?_
  rw [stripLayer?, dropWhile_isBlank full]

/-- A lifetime is removed by looking for the next space. -/
theorem strip_tick : strip ('\'' :: text) = seek text := strip_of_layer rfl

/-- The characters of the word that permits mutation. -/
abbrev permit : List Char := ['m', 'u', 't']

/-- The word that permits mutation is removed in front of a word only. -/
theorem strip_permit (full : text.head?.any isBlank = false) : strip (tie permit text) =
    if text.head?.any isWord then strip text else permit ++ text := by
  cases begins : text.head?.any isWord with
  | true =>
    have spaced : tie permit text = permit ++ ' ' :: text := by
      rw [tie, begins]
      rfl
    rw [spaced, if_pos rfl]
    exact strip_of_layer rfl
  | false =>
    have joined : tie permit text = permit ++ text := by
      rw [tie, begins, Bool.and_false]
      rfl
    rw [joined, if_neg Bool.false_ne_true, strip_eq_self_iff]
    cases text with
    | nil => rfl
    | cons c text =>
      have other : c ≠ ' ' := by
        rintro rfl
        cases full
      have parted : (' ' == c) = false := by simpa using other.symm
      simp [stripLayer?, after?, parted]

end Removal

/-- The mark of a reference. -/
structure Reference where
  /-- The name of its lifetime, when it has one. -/
  lifetime : Option String
  /-- Whether it permits mutation. -/
  mutable : Bool
  /-- The name of a lifetime is a word. -/
  named : ∀ name ∈ lifetime, Syntax.IsWord name

namespace Reference

/-- The words of a mark. -/
def words (mark : Reference) : List String :=
  "&" :: ((mark.lifetime.map ("'" ++ ·)).toList ++ if mark.mutable then ["mut"] else [])

/-- The text of a reference to a type: the words of its mark and the type, parted by spaces. -/
def spell (mark : Reference) (type : String) : String :=
  mark.words.foldr (fun word text => word ++ " " ++ text) type

/-- Whether a mark is an ampersand alone. -/
def isBare (mark : Reference) : Bool := mark.lifetime.isNone && !mark.mutable

/-- Whether the name of the lifetime ends in a character that a space keeps from the next word. -/
def namesWord (mark : Reference) : Bool :=
  mark.lifetime.any fun name => name.toList.getLast?.any isWord

/-- Whether a space parts the mark from a word behind it. -/
def endsInWord (mark : Reference) : Bool := mark.mutable || mark.namesWord

/-- Whether a space parts the lifetime of a mark from the word that permits mutation. -/
def isParted (mark : Reference) : Bool := mark.mutable && mark.namesWord

/-- A mark in front of the canonical text of a type. -/
def inFront (mark : Reference) (text : List Char) : List Char :=
  let behind := if mark.mutable then tie permit text else text
  '&' :: mark.lifetime.elim behind fun name => tie ('\'' :: name.toList) behind

end Reference

/-- The text of a type behind reference marks, outermost first. -/
def referring (marks : List Reference) (type : String) : String := marks.foldr Reference.spell type

/-- The canonical text of a type behind reference marks. -/
def marked (marks : List Reference) (type : List Char) : List Char :=
  marks.foldr Reference.inFront type

namespace Reference

variable (mark : Reference) {text : List Char}

/-- A lifetime has no blank in it. -/
theorem full_of_lifetime {name : String} (given : name ∈ mark.lifetime) :
    ∀ c ∈ '\'' :: name.toList, isBlank c = false := by
  intro c member
  rcases List.mem_cons.mp member with rfl | member
  · decide
  · rcases Syntax.isWord_iff.mp (mark.named name given) with plain | ⟨word, rfl, plain, _⟩
    · exact Syntax.isBlank_of_part (plain.parts member)
    · rw [String.toList_append] at member
      rcases List.mem_append.mp member with sign | member
      · exact full_of_all (by decide) c sign
      · exact Syntax.isBlank_of_part (plain.parts member)

/-- The canonical text of a reference is its mark in front of that of the type. -/
theorem canonical_spell (type : String) :
    canonical (mark.spell type).toList = mark.inFront (canonical type.toList) := by
  have behind (word : String) (text : String) (full : ∀ c ∈ word.toList, isBlank c = false) :
      canonical (word ++ " " ++ text).toList = tie word.toList (canonical text.toList) := by
    have apart : (word ++ " " ++ text).toList = word.toList ++ ' ' :: text.toList := by
      rw [String.toList_append, String.toList_append, List.append_assoc]
      rfl
    rw [apart, canonical_append_space, canonical_eq_self full]
  have permission (type : String) : canonical
      ((if mark.mutable then ["mut"] else []).foldr (fun word text => word ++ " " ++ text)
        type).toList = if mark.mutable then tie permit (canonical type.toList)
          else canonical type.toList := by
    split
    · exact behind "mut" type (full_of_all (by decide))
    · rfl
  rw [spell, words, List.foldr_cons, behind _ _ (full_of_all (by decide)), List.foldr_append,
    inFront]
  cases given : mark.lifetime with
  | none =>
    simp only [Option.map_none, Option.toList_none, List.foldr_nil, permission, Option.elim_none]
    rfl
  | some name =>
    have full : ∀ c ∈ ("'" ++ name).toList, isBlank c = false := by
      rw [String.toList_append]
      exact mark.full_of_lifetime given
    simp only [Option.map_some, Option.toList_some, List.foldr_cons, List.foldr_nil]
    rw [behind _ _ full, permission, String.toList_append]
    rfl

/-- The first space behind the ampersand of a mark is one that the mark puts in front of a word,
unless the lifetime is parted from the word that permits mutation. -/
theorem seek_inFront (full : text.head?.any isBlank = false) : seek (mark.inFront text) =
    if text.head?.any isWord && mark.endsInWord then strip text
    else if mark.isParted then permit ++ text else seek text := by
  have permits : seek (tie permit text) =
      if text.head?.any isWord then strip text else seek text := by
    rw [seek_tie (by decide)]
    rfl
  rw [inFront, seek_cons (by decide), endsInWord, isParted, namesWord]
  cases mutable : mark.mutable <;> cases given : mark.lifetime with
  | none => simp [permits]
  | some name =>
    have wordFull : ' ' ∉ '\'' :: name.toList :=
      fun member => absurd (mark.full_of_lifetime given _ member) (by decide)
    have last : ('\'' :: name.toList).getLast?.any isWord = name.toList.getLast?.any isWord := by
      rw [List.getLast?_cons]
      cases name.toList.getLast? <;> rfl
    have begins : (tie permit text).head?.any isWord = true := by
      rfl
    simp only [Option.elim_some, seek_tie wordFull, last, begins, permits, strip_permit full,
      Bool.and_comm, Option.any_some, ↓reduceIte, Bool.false_eq_true, Bool.true_and, Bool.false_or,
      Bool.true_or]
    grind

/-- A mark is removed by looking for the first space when it has a lifetime, and else directly. -/
theorem strip_inFront (full : text.head?.any isBlank = false) : strip (mark.inFront text) =
    if mark.lifetime.isSome then seek (mark.inFront text)
    else if mark.mutable && !text.head?.any isWord then permit ++ text else strip text := by
  cases given : mark.lifetime with
  | none =>
    rw [inFront, given, Option.elim_none]
    cases mutable : mark.mutable with
    | false => exact strip_ampersand full
    | true =>
      rw [if_pos rfl, strip_ampersand rfl, strip_permit full]
      cases text.head?.any isWord <;> rfl
  | some name =>
    have removed (behind : List Char) :
        strip ('&' :: tie ('\'' :: name.toList) behind) =
          seek ('&' :: tie ('\'' :: name.toList) behind) := by
      rw [strip_ampersand rfl, seek_cons (by decide)]
      exact strip_tick.trans (seek_cons (by decide)).symm
    rw [inFront, given, Option.elim_some, removed]
    rfl

end Reference

/-- The canonical text of a type behind reference marks. -/
theorem canonical_referring (marks : List Reference) (type : String) :
    canonical (referring marks type).toList = marked marks (canonical type.toList) := by
  induction marks with
  | nil => rfl
  | cons mark marks ih =>
    rw [referring, List.foldr_cons, mark.canonical_spell, ← referring, ih]
    rfl

section Marks

variable {mark : Reference} {marks : List Reference} {type : List Char}

/-- A mark only adds to a type. -/
theorem length_le_inFront (text : List Char) : text.length ≤ (mark.inFront text).length := by
  have tied (word text : List Char) : text.length ≤ (tie word text).length := by
    rw [tie, List.length_append]
    split
    next => exact Nat.le_add_left_of_le (Nat.le_succ _)
    next => exact Nat.le_add_left _ _
  have permitted : text.length ≤ (if mark.mutable then tie permit text else text).length := by
    split
    next => exact tied permit text
    next => exact Nat.le_refl _
  refine Nat.le_succ_of_le (permitted.trans ?_)
  cases mark.lifetime with
  | none => exact Nat.le_refl _
  | some name => exact tied _ _

/-- Marks only add to a type. -/
theorem length_le_marked : type.length ≤ (marked marks type).length := by
  induction marks with
  | nil => exact Nat.le_refl _
  | cons mark marks ih => exact ih.trans (length_le_inFront _)

/-- The word that permits mutation in front of a marked type makes it another text. -/
theorem permit_append_ne : permit ++ marked marks type ≠ type := by
  intro same
  have longer := congrArg List.length same
  rw [List.length_append] at longer
  have := @length_le_marked marks type
  have : permit.length = 3 := rfl
  omega

/-- A marked type begins like the type, or with an ampersand. -/
theorem full_marked (full : type.head?.any isBlank = false) :
    (marked marks type).head?.any isBlank = false := by
  cases marks with
  | nil => exact full
  | cons mark marks => rfl

/-- The first space behind the outermost of some marks is the one in front of the type: the type
begins with a word, the innermost mark ends in one, and no mark outside of it has a space in it. -/
structure IsReached (marks : List Reference) (type : List Char) : Prop where
  /-- The type begins with a word. -/
  begins : type.head?.any isWord = true
  /-- A space parts the innermost mark from the type. -/
  last : marks.getLast?.any Reference.endsInWord = true
  /-- No other mark has a space in it. -/
  solid : ∀ outer ∈ marks.dropLast, outer.isParted = false

/-- The spaces in a type behind marks lead to the type: the first one stands in front of it, and the
outermost mark that is more than an ampersand has a lifetime, whose removal looks for a space,
unless it is the innermost one. -/
structure IsSpaced (marks : List Reference) (type : List Char) : Prop
    extends IsReached marks type where
  /-- The first of the outer marks that is more than an ampersand has a lifetime. -/
  first : ∀ outer ∈ marks.dropLast.find? (!·.isBare), outer.lifetime.isSome = true

/-- The marks in front of a type are removed whole: the type begins with none, and the marks are all
ampersands or the spaces in them lead to the type. -/
def StripsWhole (marks : List Reference) (type : List Char) : Prop :=
  stripLayer? type = none ∧ ((∀ mark ∈ marks, mark.isBare = true) ∨ IsSpaced marks type)

/-- Behind a single mark the type is reached when a space stands between them. -/
theorem isReached_singleton : IsReached [mark] type ↔
    (type.head?.any isWord && mark.endsInWord) = true := by
  rw [Bool.and_eq_true]
  constructor
  · rintro ⟨begins, last, _⟩
    exact ⟨begins, last⟩
  · rintro ⟨begins, last⟩
    exact ⟨begins, last, fun _ member => absurd member List.not_mem_nil⟩

/-- A further mark outside keeps the type reached when no space stands in it. -/
theorem isReached_cons {next : Reference} : IsReached (mark :: next :: marks) type ↔
    mark.isParted = false ∧ IsReached (next :: marks) type := by
  constructor
  · rintro ⟨begins, last, solid⟩
    exact ⟨solid mark List.mem_cons_self, begins, last,
      fun outer member => solid outer (List.mem_cons_of_mem mark member)⟩
  · rintro ⟨whole, begins, last, solid⟩
    exact ⟨begins, last, List.forall_mem_cons.mpr ⟨whole, solid⟩⟩

/-- Looking for the first space behind marks finds the type exactly when it is reached. -/
theorem seek_marked (filled : type ≠ []) (full : type.head?.any isBlank = false) :
    seek (marked marks type) = type ↔ stripLayer? type = none ∧ IsReached marks type := by
  induction marks with
  | nil => exact iff_of_false (seek_ne_self filled) fun reached => by cases reached.2.last
  | cons mark marks ih =>
    rw [marked, List.foldr_cons, ← marked, mark.seek_inFront (full_marked full)]
    cases marks with
    | nil =>
      rw [isReached_singleton]
      change (if (type.head?.any isWord && mark.endsInWord) = true then _ else _) = _ ↔ _
      split
      next spaced => rw [marked, List.foldr_nil, strip_eq_self_iff, and_iff_left spaced]
      next tight =>
        refine iff_of_false ?_ fun reached => tight reached.2
        split
        next => exact permit_append_ne
        next => exact seek_ne_self filled
    | cons next marks =>
      have tight : (marked (next :: marks) type).head?.any isWord = false := rfl
      rw [tight, Bool.false_and, if_neg Bool.false_ne_true, isReached_cons]
      cases parted : mark.isParted with
      | true =>
        rw [if_pos rfl]
        exact iff_of_false permit_append_ne fun reached => by cases reached.2.1
      | false => rw [if_neg Bool.false_ne_true, ih, eq_self_iff_true, true_and]

/-- Marks behind a bare one are removed whole as without it. -/
theorem stripsWhole_bare (bare : mark.isBare = true) :
    StripsWhole (mark :: marks) type ↔ StripsWhole marks type := by
  have shape : mark.lifetime = none ∧ mark.mutable = false := by
    simpa [Reference.isBare] using bare
  have solid : mark.isParted = false := by rw [Reference.isParted, shape.2, Bool.false_and]
  refine and_congr_right fun _ => ?_
  rw [List.forall_mem_cons, and_iff_right bare]
  cases marks with
  | nil =>
    refine iff_of_true (Or.inl fun _ member => ?_) (Or.inl fun _ member => ?_) <;>
      exact absurd member List.not_mem_nil
  | cons next marks =>
    refine or_congr_right ⟨?_, ?_⟩
    · rintro ⟨reached, first⟩
      refine ⟨(isReached_cons.mp reached).2, ?_⟩
      rwa [List.dropLast_cons_cons, List.find?_cons_of_neg (by simpa using bare)] at first
    · rintro ⟨reached, first⟩
      refine ⟨isReached_cons.mpr ⟨solid, reached⟩, ?_⟩
      rwa [List.dropLast_cons_cons, List.find?_cons_of_neg (by simpa using bare)]

/-- Marks of which the outermost is more than an ampersand are removed whole when the type is
reached and that mark has a lifetime or stands alone. -/
theorem stripsWhole_full (more : mark.isBare = false) : StripsWhole (mark :: marks) type ↔
    (stripLayer? type = none ∧ IsReached (mark :: marks) type) ∧
      (marks = [] ∨ mark.lifetime.isSome = true) := by
  have none : ¬ ∀ other ∈ mark :: marks, other.isBare = true := by
    intro all
    rw [all mark List.mem_cons_self] at more
    cases more
  rw [StripsWhole, or_iff_right none, and_assoc]
  refine and_congr_right fun _ => ⟨?_, ?_⟩
  · rintro ⟨reached, first⟩
    refine ⟨reached, ?_⟩
    cases marks with
    | nil => exact Or.inl rfl
    | cons next marks =>
      refine Or.inr (first mark ?_)
      rw [List.dropLast_cons_cons, List.find?_cons_of_pos (by simpa using more)]
      rfl
  · rintro ⟨reached, alone⟩
    refine ⟨reached, ?_⟩
    cases marks with
    | nil => exact fun _ member => by cases member
    | cons next marks =>
      have lifetime := alone.resolve_left (List.cons_ne_nil next marks)
      rw [List.dropLast_cons_cons, List.find?_cons_of_pos (by simpa using more)]
      rintro _ ⟨⟩
      exact lifetime

/-- The removal of reference marks arrives at the type behind them exactly when the marks are
removed whole. -/
theorem strip_marked (filled : type ≠ []) (full : type.head?.any isBlank = false) :
    strip (marked marks type) = type ↔ StripsWhole marks type := by
  induction marks with
  | nil =>
    rw [marked, List.foldr_nil, strip_eq_self_iff, StripsWhole, and_iff_left]
    exact Or.inl fun _ member => absurd member List.not_mem_nil
  | cons mark marks ih =>
    have split := mark.strip_inFront (@full_marked marks type full)
    cases bare : mark.isBare with
    | true =>
      have shape : mark.lifetime = none ∧ mark.mutable = false := by
        simpa [Reference.isBare] using bare
      rw [shape.1, shape.2] at split
      rw [stripsWhole_bare bare, marked, List.foldr_cons, ← marked, split]
      exact ih
    | false =>
      rw [stripsWhole_full bare, ← seek_marked filled full, marked, List.foldr_cons, ← marked,
        split]
      cases given : mark.lifetime with
      | some name => rw [if_pos Option.isSome_some, and_iff_left (Or.inr Option.isSome_some)]
      | none =>
        have mutable : mark.mutable = true := by simpa [Reference.isBare, given] using bare
        have ends : mark.endsInWord = true := by rw [Reference.endsInWord, mutable, Bool.true_or]
        have solid : mark.isParted = false := by
          rw [Reference.isParted, Reference.namesWord, given, Option.any_none, Bool.and_false]
        rw [if_neg (by simp), mutable, Bool.true_and, mark.seek_inFront (full_marked full), ends,
          solid, Bool.and_true, if_neg (c := (false = true)) Bool.false_ne_true]
        cases marks with
        | nil =>
          rw [and_iff_left (Or.inl rfl), marked, List.foldr_nil]
          cases type.head?.any isWord with
          | true => rfl
          | false => exact iff_of_false (@permit_append_ne [] type) (seek_ne_self filled)
        | cons next marks =>
          refine iff_of_false permit_append_ne fun reached => ?_
          rcases reached.2 with none | lifetime
          · cases none
          · cases lifetime

end Marks

/-- A type behind reference marks. -/
structure Referring where
  /-- The marks, outermost first. -/
  marks : List Reference
  /-- The text of the type behind them. -/
  type : String
  /-- There is a type. -/
  filled : normalize type ≠ ""

namespace Referring

/-- The canonical text of a type behind reference marks. -/
def text (given : Referring) : String := normalize (referring given.marks given.type)

/-- The canonical text of the type behind the marks. -/
def referent (given : Referring) : String := normalize given.type

/-- Whether the marks are removed whole. -/
def IsWhole (given : Referring) : Prop := StripsWhole given.marks given.referent.toList

/-- The removal of reference marks arrives at the type behind them exactly when the marks are
removed whole. -/
theorem stripReferences_eq_iff (given : Referring) :
    stripReferences given.text = given.referent ↔ given.IsWhole := by
  have filled : canonical given.type.toList ≠ [] := by
    intro none
    refine given.filled (String.toList_inj.mp ?_)
    rw [toList_normalize, none]
    rfl
  rw [IsWhole, referent, toList_normalize, ← strip_marked filled (canonical_head _),
    ← String.toList_inj, toList_normalize, stripReferences, String.toList_ofList, text,
    toList_normalize, trimChars_canonical, canonical_referring]
  rfl

/-- References whose marks are removed whole count as one type exactly when one type stands behind
them. -/
theorem strips_whole (left right : Referring) :
    (stripReferences left.text = left.referent ↔ left.IsWhole) ∧
    ∀ first second : Parameter, first.type = left.text → second.type = right.text →
      left.IsWhole → right.IsWhole →
        (Binding.sameType first second = true ↔ left.referent = right.referent) := by
  refine ⟨left.stripReferences_eq_iff, ?_⟩
  intro first second firstType secondType leftWhole rightWhole
  rw [Binding.sameType, beq_iff_eq, firstType, secondType,
    left.stripReferences_eq_iff.mpr leftWhole, right.stripReferences_eq_iff.mpr rightWhole]

/-- References to a person: one with a lifetime that permits mutation, and one with a lifetime
behind an ampersand. -/
theorem strips_person :
    stripReferences (normalize (referring [⟨some "a", true, by decide⟩] "Person")) = "Person" ∧
      Binding.sameType
        ⟨"first", normalize (referring [⟨some "a", true, by decide⟩] "Person"), .business⟩
        ⟨"second", normalize (referring
          [⟨none, false, by decide⟩, ⟨some "static", false, by decide⟩] "Person"), .business⟩ =
        true := by
  have found := strips_whole ⟨[⟨some "a", true, by decide⟩], "Person", by decide⟩
    ⟨[⟨none, false, by decide⟩, ⟨some "static", false, by decide⟩], "Person", by decide⟩
  have firstWhole : IsWhole ⟨[⟨some "a", true, by decide⟩], "Person", by decide⟩ :=
    ⟨by decide, Or.inr ⟨⟨by decide, by decide, by decide⟩, by decide⟩⟩
  have secondWhole : IsWhole
      ⟨[⟨none, false, by decide⟩, ⟨some "static", false, by decide⟩], "Person", by decide⟩ :=
    ⟨by decide, Or.inr ⟨⟨by decide, by decide, by decide⟩, by decide⟩⟩
  exact ⟨found.1.mpr firstWhole, (found.2 _ _ rfl rfl firstWhole secondWhole).mpr rfl⟩

/-- In front of a slice a lifetime takes the type along, and two slices count as one type. -/
theorem lifetime_takes_slice :
    stripReferences (normalize (referring [⟨some "a", false, by decide⟩] "[u8]")) = "" ∧
      Binding.sameType
        ⟨"bytes", normalize (referring [⟨some "a", false, by decide⟩] "[u8]"), .business⟩
        ⟨"codes", normalize (referring [⟨some "a", false, by decide⟩] "[i64]"), .business⟩ = true ∧
      normalize "[u8]" ≠ normalize "[i64]" := by
  decide

end Referring

end DomainFactory.TypeText
