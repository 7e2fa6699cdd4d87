import Mathlib.Data.List.TakeWhile
import Mathlib.Data.Nat.Bitwise
import DomainFactory.FlagText
import DomainFactory.Proofs.Layout

/-!
# Flag sets read back from their text

Every set of flags is read back from its text, bits without a name included. The parts of the text
are found between the bars, each part gives its own bits, and together they are the bits of the set:
the number at the end is what remains when the named bits are taken away.
-/
namespace DomainFactory

namespace Text

/-- The value of a hexadecimal digit is read back. -/
theorem hexValue_hexDigit : ∀ value < 16, hexValue? (hexDigit value) = some value := by decide

/-- The digits of a number are digits of values below sixteen. -/
theorem of_mem_hexDigits {value : Nat} {c : Char} (member : c ∈ hexDigits value) :
    ∃ digit < 16, c = hexDigit digit := by
  induction value using hexDigits.induct with
  | case1 value small =>
    rw [hexDigits, if_pos small, List.mem_singleton] at member
    exact ⟨value, small, member⟩
  | case2 value large ih =>
    rw [hexDigits, if_neg large, List.mem_append, List.mem_singleton] at member
    rcases member with front | last
    · exact ih front
    · exact ⟨value % 16, Nat.mod_lt _ (by decide), last⟩

/-- A number has digits. -/
theorem hexDigits_ne_nil (value : Nat) : hexDigits value ≠ [] := by
  rw [hexDigits]
  split <;> simp

/-- A number is the value of its digits. -/
theorem foldlM_hexDigits (value : Nat) :
    (hexDigits value).foldlM (fun value c => (hexValue? c).map (value * 16 + ·)) 0 =
      some value := by
  induction value using hexDigits.induct with
  | case1 value small =>
    rw [hexDigits, if_pos small]
    simp [hexValue_hexDigit value small]
  | case2 value large ih =>
    have digit := hexValue_hexDigit (value % 16) (Nat.mod_lt _ (by decide))
    have whole : value / 16 * 16 + value % 16 = value := Nat.div_add_mod' value 16
    rw [hexDigits, if_neg large, List.foldlM_append, ih]
    simp [digit, whole]

/-- There is a piece in front, whatever is split. -/
theorem splitAt_ne_nil (separator : Char) (text : List Char) : splitAt separator text ≠ [] := by
  cases text with
  | nil => simp [splitAt]
  | cons c text =>
    rw [splitAt]
    split
    · simp
    · split <;> simp

/-- A separator in front ends an empty piece. -/
theorem splitAt_separator (separator : Char) (rest : List Char) :
    splitAt separator (separator :: rest) = [] :: splitAt separator rest := by
  have some := splitAt_ne_nil separator rest
  rw [splitAt]
  split
  next none => exact absurd none some
  next found => simp [found]

/-- Any other character in front belongs to the first piece. -/
theorem splitAt_other {separator c : Char} (other : c ≠ separator) {text piece : List Char}
    {pieces : List (List Char)} (found : splitAt separator text = piece :: pieces) :
    splitAt separator (c :: text) = (c :: piece) :: pieces := by
  rw [splitAt, found]
  simp [other]

/-- A text without a separator is one piece. -/
theorem splitAt_free {separator : Char} {text : List Char} (free : separator ∉ text) :
    splitAt separator text = [text] := by
  induction text with
  | nil => rfl
  | cons c text ih =>
    rw [List.mem_cons, not_or] at free
    exact splitAt_other (Ne.symm free.1) (ih free.2)

/-- A text is split at its first separator. -/
theorem splitAt_append {separator : Char} {first : List Char} (free : separator ∉ first)
    (rest : List Char) :
    splitAt separator (first ++ separator :: rest) = first :: splitAt separator rest := by
  induction first with
  | nil => exact splitAt_separator separator rest
  | cons c first ih =>
    rw [List.mem_cons, not_or] at free
    exact splitAt_other (Ne.symm free.1) (ih free.2)

/-- White space around a text without any is all that is taken away from it. -/
theorem trimChars_padded {before text after : List Char}
    (blankBefore : ∀ c ∈ before, isBlank c = true) (blankAfter : ∀ c ∈ after, isBlank c = true)
    (full : ∀ c ∈ text, isBlank c = false) : trimChars (before ++ (text ++ after)) = text := by
  have kept : ∀ {text : List Char}, (∀ c ∈ text, isBlank c = false) →
      text.dropWhile isBlank = text := by
    intro text full
    cases text with
    | nil => rfl
    | cons c text => simp [full c List.mem_cons_self]
  have keptBack : text.reverse.dropWhile isBlank = text.reverse :=
    kept fun c member => full c (List.mem_reverse.mp member)
  have gone : after.reverse.dropWhile isBlank = [] :=
    List.dropWhile_eq_nil_iff.mpr fun c member => blankAfter c (List.mem_reverse.mp member)
  rw [trimChars, List.dropWhile_append_of_pos blankBefore]
  cases text with
  | nil =>
    have none : after.dropWhile isBlank = [] := List.dropWhile_eq_nil_iff.mpr blankAfter
    simp [none]
  | cons c text =>
    have first : isBlank c = false := full c List.mem_cons_self
    have front : (c :: text ++ after).dropWhile isBlank = c :: text ++ after := by simp [first]
    rw [front, List.reverse_append, List.dropWhile_append, gone]
    simp only [List.isEmpty_nil, ↓reduceIte, keptBack, List.reverse_reverse]

/-- Something is left of a text that is not all white space. -/
theorem trimChars_ne_nil {text : List Char} {c : Char} (member : c ∈ text)
    (full : isBlank c = false) : trimChars text ≠ [] := by
  intro none
  have blank : ∀ c ∈ text.dropWhile isBlank, isBlank c = true := by
    intro c there
    have gone := List.dropWhile_eq_nil_iff.mp (List.reverse_eq_nil_iff.mp none)
    exact gone c (List.mem_reverse.mpr there)
  rw [← List.takeWhile_append_dropWhile (p := isBlank) (l := text)] at member
  have contrary : isBlank c = true := (List.mem_append.mp member).elim
    (fun front => List.mem_takeWhile_imp front) (blank c)
  rw [full] at contrary
  cases contrary

/-- The digits of a number are the text of that number. -/
theorem hexNumber_hexDigits (value : Nat) :
    FlagNames.hexNumber? (hexDigits value) = some value := by
  have read := foldlM_hexDigits value
  have inside : ∀ c ∈ hexDigits value, ∃ digit < 16, c = hexDigit digit :=
    fun c member => of_mem_hexDigits member
  cases digits : hexDigits value with
  | nil => exact absurd digits (hexDigits_ne_nil value)
  | cons c rest =>
    rw [digits] at read inside
    obtain ⟨digit, small, rfl⟩ := inside c List.mem_cons_self
    have unsigned : ∀ digit < 16, hexDigit digit ≠ '+' := by decide
    simpa [FlagNames.hexNumber?, unsigned digit small] using read

/-- A part of a list: characters without white space and without the bar. -/
def Plain (part : List Char) : Prop := part ≠ [] ∧ ∀ c ∈ part, isBlank c = false ∧ c ≠ '|'

instance (part : List Char) : Decidable (Plain part) :=
  decidable_of_iff ((!part.isEmpty && part.all fun c => !isBlank c && c != '|') = true)
    (by simp [Plain])

/-- The bar between two parts with a space on either side. -/
def bar : List Char := [' ', '|', ' ']

/-- Plain parts that are joined by bars, with white space in front, are the pieces between the bars,
white space taken away. -/
theorem trim_splitAt_intercalate {parts : List (List Char)} (some : parts ≠ [])
    (plain : ∀ part ∈ parts, Plain part) {front : List Char}
    (blank : ∀ c ∈ front, isBlank c = true) (free : '|' ∉ front) :
    (splitAt '|' (front ++ bar.intercalate parts)).map trimChars = parts := by
  induction parts generalizing front with
  | nil => exact absurd rfl some
  | cons part parts ih =>
    have first := plain part List.mem_cons_self
    have full : ∀ c ∈ part, isBlank c = false := fun c member => (first.2 c member).1
    have bare : '|' ∉ part := fun member => (first.2 '|' member).2 rfl
    cases parts with
    | nil =>
      have whole : '|' ∉ front ++ part := by simp [free, bare]
      have trimmed : trimChars (front ++ (part ++ [])) = part :=
        trimChars_padded blank (by simp) full
      rw [List.intercalate_singleton, splitAt_free whole]
      simpa using trimmed
    | cons next parts =>
      have space : ∀ c ∈ [' '], isBlank c = true := List.forall_mem_singleton.mpr rfl
      have whole : '|' ∉ front ++ (part ++ [' ']) := by simp [free, bare]
      have trimmed : trimChars (front ++ (part ++ [' '])) = part :=
        trimChars_padded blank space full
      have rest : (splitAt '|' ([' '] ++ bar.intercalate (next :: parts))).map trimChars =
          next :: parts :=
        ih (by simp) (fun other member => plain other (List.mem_cons_of_mem _ member))
          space (by decide)
      have laidOut : front ++ bar.intercalate (part :: next :: parts) =
          front ++ (part ++ [' ']) ++ '|' :: ([' '] ++ bar.intercalate (next :: parts)) := by
        simp [bar]
      rw [laidOut, splitAt_append whole, List.map_cons, trimmed, rest]

end Text

namespace FlagNames

open Text

/-- Adding a power of two to a number without that bit sets it and leaves the others. -/
theorem testBit_add_two_pow {rest position : Nat} (clear : rest.testBit position = false)
    (index : Nat) :
    (rest + 2 ^ position).testBit index = (rest.testBit index || decide (position = index)) := by
  rw [Nat.add_comm]
  rcases Nat.lt_trichotomy index position with below | same | above
  · have apart : position ≠ index := by omega
    simp [Nat.testBit_two_pow_add_gt below, apart]
  · subst same
    simp [Nat.testBit_two_pow_add_eq, clear]
  · obtain ⟨more, rfl⟩ := Nat.exists_eq_add_of_lt above
    have apart : position ≠ position + more + 1 := by omega
    have even : rest / 2 ^ position % 2 = 0 := by
      rw [Nat.testBit_eq_decide_div_mod_eq, decide_eq_false_iff_not] at clear
      omega
    -- The bit that is added does not carry, so the bits above stay.
    have halves : (2 ^ position + rest) / 2 ^ (position + 1) = rest / 2 ^ (position + 1) := by
      rw [Nat.pow_succ, ← Nat.div_div_eq_div_mul, ← Nat.div_div_eq_div_mul,
        Nat.add_div_left _ (Nat.two_pow_pos position)]
      omega
    have moved : position + more + 1 = more + (position + 1) := by omega
    rw [moved, Nat.testBit_add, Nat.testBit_add, halves]
    simp
    omega

/-- A number with a bit is the number without it, and the bit. -/
theorem sub_two_pow_or {bits position : Nat} (present : bits.testBit position = true) :
    (bits - 2 ^ position) ||| 2 ^ position = bits ∧
      ∀ index ≠ position, (bits - 2 ^ position).testBit index = bits.testBit index := by
  have large : 2 ^ position ≤ bits := Nat.ge_two_pow_of_testBit present
  have whole : bits - 2 ^ position + 2 ^ position = bits := by omega
  have clear : (bits - 2 ^ position).testBit position = false := by
    have flipped := Nat.testBit_two_pow_add_eq (bits - 2 ^ position) position
    rw [Nat.add_comm, whole, present] at flipped
    simpa using flipped.symm
  have parts := testBit_add_two_pow clear
  rw [whole] at parts
  refine ⟨Nat.eq_of_testBit_eq fun index => ?_, fun index other => ?_⟩
  · rw [Nat.testBit_or, Nat.testBit_two_pow, parts]
  · rw [parts]
    simp [Ne.symm other]

/-- The bits of numbers taken together. -/
def together (values : List Nat) : Nat := values.foldr (· ||| ·) 0

/-- Numbers that are joined have the bits of both lists. -/
theorem together_append (first second : List Nat) :
    together (first ++ second) = together first ||| together second := by
  induction first with
  | nil => exact (Nat.zero_or _).symm
  | cons value first ih => exact (congrArg (value ||| ·) ih).trans (Nat.or_assoc ..).symm

/-- The bits of the named flags in a set and what remains of it make up the set. -/
theorem rest_or_named {names : List (String × Nat)} (distinct : (names.map Prod.snd).Nodup)
    (bits : Nat) :
    names.foldl (fun rest flag => if rest.testBit flag.2 then rest - Nat.pow 2 flag.2 else rest)
        bits ||| together ((names.filter fun flag => bits.testBit flag.2).map (2 ^ ·.2)) =
      bits := by
  induction names generalizing bits with
  | nil => simp [together]
  | cons flag names ih =>
    obtain ⟨apart, distinct⟩ := List.nodup_cons.mp distinct
    by_cases present : bits.testBit flag.2 = true
    · obtain ⟨whole, others⟩ := sub_two_pow_or present
      have same : names.filter (fun other => (bits - 2 ^ flag.2).testBit other.2) =
          names.filter fun other => bits.testBit other.2 := by
        refine List.filter_congr fun other member => others other.2 fun taken => apart ?_
        exact taken ▸ List.mem_map_of_mem member
      have rest := ih distinct (bits - 2 ^ flag.2)
      rw [same] at rest
      simp only [List.foldl_cons, present, ↓reduceIte, List.filter_cons_of_pos, List.map_cons]
      change _ ||| (2 ^ flag.2 ||| together _) = bits
      rw [Nat.or_comm (2 ^ flag.2), ← Nat.or_assoc]
      exact (congrArg (· ||| 2 ^ flag.2) rest).trans whole
    · simpa [present] using ih distinct bits

/-- Parts are read one by one and taken together. -/
theorem foldlM_readPart {flags : FlagNames} {parts : List (List Char)} {values : List Nat}
    (read : parts.map flags.readPart? = values.map some) (bits : Nat) :
    parts.foldlM (fun bits part => (flags.readPart? part).map (bits ||| ·)) bits =
      some (bits ||| together values) := by
  induction parts generalizing values bits with
  | nil =>
    have none : values = [] := List.map_eq_nil_iff.mp read.symm
    simp [none, together]
  | cons part parts ih =>
    cases values with
    | nil => cases read
    | cons value values =>
      obtain ⟨first, rest⟩ := List.cons.inj read
      simp [first, ih rest, together, Nat.or_assoc]

/-- Flags whose sets can be read back: names and positions are distinct, and a name is plain and
does not look like a number. -/
structure Readable (flags : FlagNames) : Prop where
  names : (flags.names.map Prod.fst).Nodup
  positions : (flags.names.map Prod.snd).Nodup
  plain : ∀ flag ∈ flags.names, Plain flag.1.toList
  unlike : ∀ flag ∈ flags.names, after? ['0', 'x'] flag.1.toList = none

/-- The number at the end of the text of a set, when there is one. -/
def number (flags : FlagNames) (bits : Nat) : List String :=
  if flags.rest bits == 0 then [] else ["0x" ++ String.ofList (hexDigits (flags.rest bits))]

variable {flags : FlagNames} {bits : Nat}

/-- The characters of a marked number. -/
theorem marked_toList (digits : List Char) :
    ("0x" ++ String.ofList digits).toList = ['0', 'x'] ++ digits := by
  rw [String.toList_append, String.toList_ofList (l := digits)]
  rfl

/-- A number is read as its value when it fits the set. -/
theorem readPart_number {value : Nat} (fits : value < 2 ^ flags.width) :
    flags.readPart? ("0x" ++ String.ofList (hexDigits value)).toList = some value := by
  have marked : after? ['0', 'x'] (['0', 'x'] ++ hexDigits value) = some (hexDigits value) :=
    after?_eq_some_iff.mpr rfl
  have small : value < Nat.pow 2 flags.width := fits
  rw [marked_toList, readPart?, marked]
  simp only [hexNumber_hexDigits, Option.bind_some, small, ↓reduceIte]

/-- A named flag is read as its bit. -/
theorem readPart_name (readable : flags.Readable) {flag : String × Nat}
    (member : flag ∈ flags.names) : flags.readPart? flag.1.toList = some (2 ^ flag.2) := by
  have named : flags.names.find? (fun other => other.1.toList == flag.1.toList) = some flag := by
    have same (other : String × Nat) :
        (other.1.toList == flag.1.toList) = (other.1 == flag.1) := by
      rw [Bool.eq_iff_iff, beq_iff_eq, beq_iff_eq, String.toList_inj]
    simp only [same]
    exact (find_keyed_iff readable.names).mpr ⟨member, rfl⟩
  rw [readPart?, readable.unlike flag member, named]
  rfl

/-- The parts of the text of a set are plain. -/
theorem plain_parts (readable : flags.Readable) {part : String}
    (member : part ∈ flags.present bits ++ flags.number bits) : Plain part.toList := by
  rcases List.mem_append.mp member with named | numbered
  · obtain ⟨flag, present, rfl⟩ := List.mem_map.mp named
    exact readable.plain flag (List.mem_of_mem_filter present)
  · unfold number at numbered
    split at numbered
    · cases numbered
    · rw [List.mem_singleton.mp numbered, marked_toList]
      have mark : ∀ c ∈ ['0', 'x'], isBlank c = false ∧ c ≠ '|' := by
        simp only [List.forall_mem_cons, List.not_mem_nil, false_implies, implies_true]
        decide
      have digits : ∀ digit < 16, isBlank (hexDigit digit) = false ∧ hexDigit digit ≠ '|' := by
        decide
      refine ⟨by simp, fun c member => ?_⟩
      rcases List.mem_append.mp member with front | behind
      · exact mark c front
      · obtain ⟨digit, small, rfl⟩ := of_mem_hexDigits behind
        exact digits digit small

/-- The parts of the text of a set are read as its named bits and what remains of it. -/
theorem read_parts (readable : flags.Readable) (fits : bits < 2 ^ flags.width) :
    ∃ values, ((flags.present bits ++ flags.number bits).map String.toList).map flags.readPart? =
      values.map some ∧ together values = bits := by
  have whole : flags.rest bits |||
      together ((flags.names.filter fun flag => bits.testBit flag.2).map (2 ^ ·.2)) = bits :=
    rest_or_named readable.positions bits
  have small : flags.rest bits < 2 ^ flags.width :=
    Nat.lt_of_le_of_lt (Nat.le_trans Nat.left_le_or (Nat.le_of_eq whole)) fits
  have named : ((flags.present bits).map String.toList).map flags.readPart? =
      ((flags.names.filter fun flag => bits.testBit flag.2).map (2 ^ ·.2)).map some := by
    simp only [present, List.map_map]
    refine List.map_congr_left fun flag member => ?_
    exact readPart_name readable (List.mem_of_mem_filter member)
  have numbered : ∃ values, ((flags.number bits).map String.toList).map flags.readPart? =
      values.map some ∧ together values = flags.rest bits := by
    by_cases none : flags.rest bits = 0
    · exact ⟨[], by simp [number, none], none.symm⟩
    · refine ⟨[flags.rest bits], ?_, Nat.or_zero _⟩
      simp only [number, beq_iff_eq, none, ↓reduceIte, List.map_cons, List.map_nil,
        readPart_number small]
  obtain ⟨values, numbers, rest⟩ := numbered
  refine ⟨_ ++ values,
    by rw [List.map_append, List.map_append, List.map_append, named, numbers], ?_⟩
  rw [together_append, rest, Nat.or_comm, whole]

/-- A set of flags is read back from its text. -/
theorem read_write (readable : flags.Readable) (fits : bits < 2 ^ flags.width) :
    flags.read? (flags.write bits) = some bits := by
  obtain ⟨values, read, whole⟩ := read_parts readable fits
  have text : (flags.write bits).toList =
      bar.intercalate ((flags.present bits ++ flags.number bits).map String.toList) :=
    String.toList_intercalate
  have plain : ∀ part ∈ (flags.present bits ++ flags.number bits).map String.toList,
      Plain part := by
    intro part member
    obtain ⟨text, present, rfl⟩ := List.mem_map.mp member
    exact plain_parts readable present
  generalize (flags.present bits ++ flags.number bits).map String.toList = parts at read text plain
  unfold read?
  rw [text]
  cases parts with
  | nil =>
    have none : values = [] := List.map_eq_nil_iff.mp read.symm
    rw [none] at whole
    exact congrArg some whole
  | cons part parts =>
    have split := trim_splitAt_intercalate (List.cons_ne_nil part parts) plain
      (fun c (member : c ∈ []) => absurd member List.not_mem_nil) List.not_mem_nil
    have filled : (trimChars (bar.intercalate (part :: parts))).isEmpty = false := by
      obtain ⟨some, full⟩ := plain part List.mem_cons_self
      obtain ⟨c, member⟩ := List.exists_mem_of_ne_nil part some
      have inside : c ∈ bar.intercalate (part :: parts) := by
        cases parts with
        | nil => rwa [List.intercalate_singleton]
        | cons next parts => simp [member]
      exact List.isEmpty_eq_false_iff.mpr (trimChars_ne_nil inside (full c member).1)
    rw [List.nil_append] at split
    simp only [filled, Bool.false_eq_true, ↓reduceIte]
    have read := foldlM_readPart read 0
    rw [Nat.zero_or, whole, ← split, List.foldlM_map] at read
    exact read

end FlagNames

end DomainFactory
