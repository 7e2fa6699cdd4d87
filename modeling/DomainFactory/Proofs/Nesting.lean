import DomainFactory.ReturnShape

/-!
# Nested angle brackets

The arguments of a type stand between angle brackets, and the closing one of an arrow is none of
them. The output of a future is read off by a count that takes every bracket for one of arguments,
so it ends at the bracket that closes the output, or before it.
-/
namespace DomainFactory.ReturnShape

section Depth

/-- The depth of angle brackets behind a text, given the character and the depth in front of it.
The bracket of an arrow closes nothing. -/
def depth? : (previous : Char) → Nat → List Char → Option Nat
  | _, depth, [] => some depth
  | previous, depth, c :: rest =>
    if c = '<' then depth? c (depth + 1) rest
    else if c = '>' ∧ previous ≠ '-' then
      if depth = 0 then none else depth? c (depth - 1) rest
    else depth? c depth rest

/-- A text whose angle brackets are paired. -/
def Nested (text : List Char) : Prop := depth? ' ' 0 text = some 0

instance {text : List Char} : Decidable (Nested text) := by
  unfold Nested
  infer_instance

variable {previous : Char} {depth : Nat} {text rest : List Char}

/-- An opening bracket goes one deeper. -/
theorem depth_open : depth? previous depth ('<' :: rest) = depth? '<' (depth + 1) rest := by
  rw [depth?, if_pos rfl]

/-- A closing bracket goes one back. -/
theorem depth_close (plain : previous ≠ '-') :
    depth? previous (depth + 1) ('>' :: rest) = depth? '>' depth rest := by
  rw [depth?, if_neg (by decide), if_pos ⟨rfl, plain⟩, if_neg depth.succ_ne_zero,
    Nat.add_sub_cancel]

/-- No bracket closes what is not open. -/
theorem depth_unopened (plain : previous ≠ '-') : depth? previous 0 ('>' :: rest) = none := by
  rw [depth?, if_neg (by decide), if_pos ⟨rfl, plain⟩, if_pos rfl]

/-- Any other character, and the bracket of an arrow, stay at the depth. -/
theorem depth_other {c : Char} (inner : c ≠ '<') (arrow : c = '>' → previous = '-') :
    depth? previous depth (c :: rest) = depth? c depth rest := by
  rw [depth?, if_neg inner, if_neg fun closes => closes.2 (arrow closes.1)]

/-- Only a hyphen in front of a text matters. -/
theorem depth_previous {other : Char} (plain : previous ≠ '-') (otherPlain : other ≠ '-') :
    depth? previous depth text = depth? other depth text := by
  cases text with
  | nil => rfl
  | cons c rest =>
    rw [depth?, depth?]
    simp only [plain, otherPlain, ne_eq, not_false_eq_true, and_true]

/-- A text without brackets stays at the depth. -/
theorem depth_free (free : ∀ c ∈ text, c ≠ '<' ∧ c ≠ '>') : depth? previous depth (text ++ rest) =
    depth? (text.getLast?.getD previous) depth rest := by
  induction text generalizing previous with
  | nil => rfl
  | cons c text ih =>
    obtain ⟨inner, outer⟩ := free c List.mem_cons_self
    rw [List.cons_append, depth_other inner fun closes => absurd closes outer,
      ih fun other member => free other (List.mem_cons_of_mem c member), List.getLast?_cons,
      Option.getD_some]

/-- A text without brackets up to an opening one goes one deeper. -/
theorem depth_skip (free : ∀ c ∈ text, c ≠ '<' ∧ c ≠ '>') :
    depth? previous depth (text ++ '<' :: rest) = depth? '<' (depth + 1) rest := by
  rw [depth_free free, depth_open]

/-- The depth behind two texts goes on from the depth behind the first. -/
theorem depth_append {behind : Nat} (closed : depth? previous depth (text ++ rest) = some behind) :
    ∃ between, depth? previous depth text = some between ∧
      depth? (text.getLast?.getD previous) between rest = some behind := by
  induction text generalizing previous depth with
  | nil => exact ⟨depth, rfl, closed⟩
  | cons c text ih =>
    have last : (c :: text).getLast?.getD previous = text.getLast?.getD c := by
      rw [List.getLast?_cons, Option.getD_some]
    rw [last]
    rw [List.cons_append, depth?] at closed
    rw [depth?]
    split at closed
    next opens =>
      rw [if_pos opens]
      exact ih closed
    next inner =>
      rw [if_neg inner]
      split at closed
      next closes =>
        rw [if_pos closes]
        split at closed
        next => cases closed
        next opened =>
          rw [if_neg opened]
          exact ih closed
      next stays =>
        rw [if_neg stays]
        exact ih closed

/-- What is open when a text begins is closed at some place in it, and what is between is paired. -/
theorem exists_matching {inside outside : Nat}
    (closed : depth? previous (inside + 1 + outside) text = some 0) :
    ∃ inner rest, text = inner ++ '>' :: rest ∧ depth? previous inside inner = some 0 ∧
      depth? '>' outside rest = some 0 := by
  -- The brackets opened on the way are part of what is still inside.
  induction text generalizing previous inside with
  | nil =>
    rw [depth?, Option.some.injEq] at closed
    omega
  | cons c text ih =>
    by_cases opens : c = '<'
    · subst opens
      rw [depth_open, show inside + 1 + outside + 1 = inside + 1 + 1 + outside by omega] at closed
      obtain ⟨inner, rest, split, paired, behind⟩ := ih closed
      exact ⟨'<' :: inner, rest, by rw [split, List.cons_append], depth_open.trans paired, behind⟩
    by_cases closes : c = '>' ∧ previous ≠ '-'
    · obtain ⟨rfl, plain⟩ := closes
      cases inside with
      | zero =>
        rw [Nat.zero_add, Nat.add_comm, depth_close plain] at closed
        exact ⟨[], text, rfl, rfl, closed⟩
      | succ inside =>
        rw [show inside + 1 + 1 + outside = inside + 1 + outside + 1 by omega,
          depth_close plain] at closed
        obtain ⟨inner, rest, split, paired, behind⟩ := ih closed
        exact ⟨'>' :: inner, rest, by rw [split, List.cons_append],
          (depth_close plain).trans paired, behind⟩
    · have arrow : c = '>' → previous = '-' := fun here =>
        Decidable.byContradiction fun plain => closes ⟨here, plain⟩
      rw [depth_other opens arrow] at closed
      obtain ⟨inner, rest, split, paired, behind⟩ := ih closed
      exact ⟨c :: inner, rest, by rw [split, List.cons_append],
        (depth_other opens arrow).trans paired, behind⟩

end Depth

section Count

/-- The count of angle brackets behind a character, which takes that of an arrow for a closing
one. -/
def counted (depth : Nat) (c : Char) : Nat :=
  if c = '<' then depth + 1 else if c = '>' then depth - 1 else depth

/-- Whether the count finds its end at a character: at a closing bracket or a plus sign outside of
all brackets. -/
def EndsAt (depth : Nat) (c : Char) : Prop := (c = '>' ∨ c = '+') ∧ depth = 0

instance {depth : Nat} {c : Char} : Decidable (EndsAt depth c) := by
  unfold EndsAt
  infer_instance

/-- The count behind a text in which it does not find its end. -/
def count? : Nat → List Char → Option Nat
  | depth, [] => some depth
  | depth, c :: rest => if EndsAt depth c then none else count? (counted depth c) rest

variable {previous : Char} {depth : Nat} {text rest output : List Char}

/-- An output is read up to the character at which the count ends. -/
theorem untilEnd_cons {c : Char} : untilEnd? depth (c :: rest) =
    if EndsAt depth c then some [] else (untilEnd? (counted depth c) rest).map (c :: ·) := by
  rw [untilEnd?.eq_def]
  unfold EndsAt counted
  cases depth <;> by_cases opens : c = '<' <;> by_cases closes : c = '>' <;>
    by_cases plus : c = '+' <;> simp_all

/-- The count over a text ends behind an output, at a bracket or a plus sign. -/
def Cuts (depth : Nat) (text output : List Char) : Prop :=
  ∃ stop rest, text = output ++ stop :: rest ∧ count? depth output = some 0 ∧
    (stop = '>' ∨ stop = '+')

/-- What is read as an output is that behind which the count ends. -/
theorem untilEnd_eq_some_iff : untilEnd? depth text = some output ↔ Cuts depth text output := by
  unfold Cuts
  induction text generalizing depth output with
  | nil => simp [untilEnd?]
  | cons c text ih =>
    rw [untilEnd_cons]
    split
    next ends =>
      constructor
      · intro read
        obtain rfl := Option.some.inj read
        exact ⟨c, text, rfl, congrArg some ends.2, ends.1⟩
      · rintro ⟨stop, rest, split, counts, -⟩
        cases output with
        | nil => rfl
        | cons first output =>
          obtain ⟨rfl, -⟩ := List.cons.inj split
          rw [count?, if_pos ends] at counts
          cases counts
    next goes =>
      rw [Option.map_eq_some_iff]
      constructor
      · rintro ⟨output, read, rfl⟩
        obtain ⟨stop, rest, split, counts, stops⟩ := ih.mp read
        exact ⟨stop, rest, by rw [split, List.cons_append],
          by rw [count?, if_neg goes, counts], stops⟩
      · rintro ⟨stop, rest, split, counts, stops⟩
        cases output with
        | nil =>
          obtain ⟨rfl, -⟩ := List.cons.inj split
          exact absurd ⟨stops, Option.some.inj counts⟩ goes
        | cons first output =>
          obtain ⟨rfl, behind⟩ := List.cons.inj split
          rw [count?, if_neg goes] at counts
          exact ⟨output, ih.mpr ⟨stop, rest, behind, counts, stops⟩, rfl⟩

/-- The count ends behind one output. -/
theorem Cuts.unique {other : List Char} (first : Cuts depth text output)
    (second : Cuts depth text other) : output = other :=
  Option.some.inj ((untilEnd_eq_some_iff.mpr first).symm.trans (untilEnd_eq_some_iff.mpr second))

/-- Where the count ends, more text changes nothing. -/
theorem Cuts.append (cut : Cuts depth text output) : Cuts depth (text ++ rest) output := by
  obtain ⟨stop, behind, split, counts, stops⟩ := cut
  exact ⟨stop, behind ++ rest, by rw [split, List.append_assoc, List.cons_append], counts, stops⟩

/-- The output of a future ends where its brackets do, or before. -/
theorem untilEnd_of_depth {count : Nat} (paired : depth? previous depth text = some 0)
    (fewer : count ≤ depth) :
    ∃ output behind, text = output ++ behind ∧
      untilEnd? count (text ++ '>' :: rest) = some output := by
  induction text generalizing previous depth count with
  | nil =>
    obtain rfl := Option.some.inj paired
    obtain rfl := Nat.le_zero.mp fewer
    exact ⟨[], [], rfl, by rw [List.nil_append, untilEnd_cons, if_pos ⟨Or.inl rfl, rfl⟩]⟩
  | cons c text ih =>
    rw [List.cons_append, untilEnd_cons]
    by_cases ends : EndsAt count c
    · exact ⟨[], c :: text, rfl, if_pos ends⟩
    -- The count is at most the depth: only the bracket of an arrow lowers one of them alone.
    · obtain ⟨deeper, step, stays⟩ : ∃ deeper, depth? c deeper text = some 0 ∧
          counted count c ≤ deeper := by
        unfold counted
        rw [depth?] at paired
        split at paired
        next opens => exact ⟨depth + 1, paired, by rw [if_pos opens]; omega⟩
        next inner =>
          rw [if_neg inner]
          split at paired
          next closes =>
            split at paired
            next => cases paired
            next => exact ⟨depth - 1, paired, by rw [if_pos closes.1]; omega⟩
          next => exact ⟨depth, paired, by split <;> omega⟩
      obtain ⟨output, behind, split, read⟩ := ih step stays
      exact ⟨c :: output, behind, by rw [split, List.cons_append],
        by rw [if_neg ends, read, Option.map_some]⟩

/-- What is read as the output of a future is the whole of it, or its count ends before. -/
theorem whole_or_cut (paired : Nested text)
    (read : untilEnd? 0 (text ++ '>' :: rest) = some output) :
    text = output ∨ Cuts 0 text output := by
  obtain ⟨front, behind, split, found⟩ := untilEnd_of_depth  paired (Nat.le_refl 0)
  obtain rfl := Option.some.inj (found.symm.trans read)
  cases behind with
  | nil => exact Or.inl (by rw [split, List.append_nil])
  | cons next behind =>
    obtain ⟨stop, more, meets, counts, stops⟩ := untilEnd_eq_some_iff.mp read
    rw [split, List.append_assoc, List.append_cancel_left_eq] at meets
    obtain ⟨rfl, -⟩ := List.cons.inj meets
    exact Or.inr ⟨next, behind, split, counts, stops⟩

/-- Inside of brackets, the count of a text without arrows is its depth. -/
theorem count_of_depth {behind : Nat} (paired : depth? previous depth text = some behind)
    (plain : previous = '-' → text.head? ≠ some '>') (arrowless : ¬ ['-', '>'] <:+: text) :
    count? (depth + 1) text = some (behind + 1) := by
  induction text generalizing previous depth with
  | nil =>
    obtain rfl := Option.some.inj paired
    rfl
  | cons c text ih =>
    have later : c = '-' → text.head? ≠ some '>' := by
      rintro rfl head
      obtain ⟨rest, rfl⟩ := List.head?_eq_some_iff.mp head
      exact arrowless ⟨[], rest, rfl⟩
    have free : ¬ ['-', '>'] <:+: text := fun arrow =>
      arrowless (List.infix_cons arrow)
    rw [count?, if_neg fun ends => absurd ends.2 depth.succ_ne_zero]
    unfold counted
    rw [depth?] at paired
    split at paired
    next opens => rw [if_pos opens, ih paired later free]
    next inner =>
      rw [if_neg inner]
      split at paired
      next closes =>
        split at paired
        next => cases paired
        next opened =>
          rw [if_pos closes.1, ← ih paired later free]
          congr 1
          omega
      next stays =>
        have other : c ≠ '>' := by
          rintro rfl
          exact stays ⟨rfl, fun hyphen => plain hyphen rfl⟩
        rw [if_neg other, ih paired later free]

/-- A text without brackets and plus signs stays at the count. -/
theorem count_free (free : ∀ c ∈ text, c ≠ '<' ∧ c ≠ '>' ∧ c ≠ '+') :
    count? depth text = some depth := by
  induction text with
  | nil => rfl
  | cons c text ih =>
    obtain ⟨inner, outer, sum⟩ := free c List.mem_cons_self
    have goes : ¬ EndsAt depth c := fun ends => ends.1.elim outer sum
    rw [count?, if_neg goes, counted, if_neg inner, if_neg outer]
    exact ih fun other member => free other (List.mem_cons_of_mem c member)

/-- The count behind two texts goes on from the count behind the first. -/
theorem count_append {behind : Nat} (counts : count? depth text = some behind) :
    count? depth (text ++ rest) = count? behind rest := by
  induction text generalizing depth with
  | nil =>
    obtain rfl := Option.some.inj counts
    rfl
  | cons c text ih =>
    rw [count?] at counts
    rw [List.cons_append, count?]
    split at counts
    next => cases counts
    next goes => rw [if_neg goes, ih counts]

end Count

end DomainFactory.ReturnShape
