import Mathlib.Data.List.TakeWhile
import DomainFactory.Proofs.Nesting

/-!
# Success flags

A type is a success flag when it is `bool`, or a result type whose first type argument is. The
texts taken for one are those of plain names in front of `Result<bool`, with further arguments up
to the last bracket. Both agree on a type that goes on neither behind `bool` nor behind the
arguments of a result type, when its flag is written plainly.
-/
namespace DomainFactory.ReturnShape

open Text

section Paths

/-- What parts the names in a type. -/
def typeMarks : List Char := ":<>()[]&*+-=;!?, ".toList ++ ['{', '}', '\'', '"']

/-- A name in a path: anything but punctuation. -/
def IsName (name : List Char) : Prop := name ≠ [] ∧ ∀ c ∈ name, c ∉ typeMarks

/-- The segments in front of the last one of a path, with arguments or without. -/
inductive Segments : List Char → Prop where
  /-- There are none. -/
  | none : Segments []
  /-- A name comes first. -/
  | name {name rest : List Char} (named : IsName name) (later : Segments rest) :
    Segments (name ++ "::".toList ++ rest)
  /-- A name with arguments comes first. -/
  | applied {name colons arguments rest : List Char} (named : IsName name)
    (turbo : colons = [] ∨ colons = "::".toList) (paired : Nested arguments)
    (later : Segments rest) :
    Segments (name ++ colons ++ '<' :: arguments ++ ">::".toList ++ rest)

/-- What stands in front of the last segment of a path, relative or absolute. -/
def IsPathFront (front : List Char) : Prop :=
  ∃ segments, Segments segments ∧ (front = segments ∨ front = "::".toList ++ segments)

/-- Arguments whose first type is `bool`: only lifetimes come before it. -/
inductive FlagFirst : List Char → Prop where
  /-- There is no other argument. -/
  | alone : FlagFirst "bool".toList
  /-- Further arguments follow. -/
  | followed (others : List Char) : FlagFirst ("bool,".toList ++ others)
  /-- A lifetime comes before. -/
  | lifetime {name arguments : List Char} (named : IsName name) (later : FlagFirst arguments) :
    FlagFirst ('\'' :: name ++ ',' :: arguments)

/-- The text of a success flag: `bool`, or a path that ends in a result type whose first type
argument is `bool`. -/
def IsFlag (text : List Char) : Prop :=
  text = "bool".toList ∨ ∃ front colons arguments, IsPathFront front ∧
    (colons = [] ∨ colons = "::".toList) ∧ FlagFirst arguments ∧ Nested arguments ∧
    text = front ++ "Result".toList ++ colons ++ '<' :: arguments ++ ['>']

end Paths

section Plain

/-- A plain name: word characters behind an ASCII letter or an underscore. -/
def IsPlainName (name : List Char) : Prop :=
  ∃ c rest, name = c :: rest ∧ (isAsciiLetter c || c == '_') = true ∧
    ∀ c ∈ rest, isPatternWord c = true

/-- Names with the colons behind each. -/
def within (names : List (List Char)) : List Char := names.flatMap (· ++ "::".toList)

/-- The front of a result type in the scope of names. -/
def resultIn (names : List (List Char)) : List Char := within names ++ "Result<".toList

/-- The text of a success flag that is written plainly: `bool`, or plain names in front of
`Result<bool` and further arguments on its closing bracket. -/
def IsPlainFlag (text : List Char) : Prop :=
  text = "bool".toList ∨ ∃ names others, (∀ name ∈ names, IsPlainName name) ∧
    text = resultIn names ++ "bool".toList ++ others ++ ['>'] ∧
    (others = [] ∨ ∃ c more, others = ',' :: c :: more)

/-- A type that goes on neither behind `bool` nor behind the arguments of a result type. -/
structure IsEnded (text : List Char) : Prop where
  /-- No arguments, bracket or bound follow `bool`. -/
  flag : ∀ c rest, text = "bool".toList ++ c :: rest → c ∉ [',', '>', '+']
  /-- Nothing follows the bracket that closes the arguments of a result type. -/
  result : ∀ names arguments rest, (∀ name ∈ names, IsPlainName name) → Nested arguments →
    text = resultIn names ++ "bool".toList ++ arguments ++ '>' :: rest → rest = []

/-- A flag that is read to its end: wherever the count ends inside of it, a closing bracket comes
before. -/
def IsReadWhole (text : List Char) : Prop :=
  ∀ output, Cuts 0 text output → output.getLast? = some '>'

variable {names : List (List Char)}

/-- A plain name is a name. -/
theorem IsPlainName.isName {name : List Char} (plain : IsPlainName name) : IsName name := by
  obtain ⟨c, rest, rfl, first, later⟩ := plain
  refine ⟨List.cons_ne_nil c rest, fun other member mark => ?_⟩
  have unmarked := List.all_eq_true.mp (by decide :
    typeMarks.all (fun c => !(isAsciiLetter c || c == '_') && !isPatternWord c) = true) other mark
  rw [Bool.and_eq_true, Bool.not_eq_true', Bool.not_eq_true'] at unmarked
  rcases List.mem_cons.mp member with rfl | member
  · rw [unmarked.1] at first
    cases first
  · have word := later other member
    rw [unmarked.2] at word
    cases word

/-- No name in front of colons has a bracket or a plus sign. -/
theorem within_free (plain : ∀ name ∈ names, IsPlainName name) :
    ∀ c ∈ within names, c ≠ '<' ∧ c ≠ '>' ∧ c ≠ '+' := by
  intro c member
  obtain ⟨name, inNames, member⟩ := List.mem_flatMap.mp member
  rcases List.mem_append.mp member with inName | colon
  · have unmarked := (plain name inNames).isName.2 c inName
    refine ⟨?_, ?_, ?_⟩ <;> rintro rfl <;> exact unmarked (by decide)
  · have none : ∀ c ∈ "::".toList, c ≠ '<' ∧ c ≠ '>' ∧ c ≠ '+' := by simp
    exact none c colon

/-- Plain names with the colons behind each stand in front of a path's last segment. -/
theorem within_segments (plain : ∀ name ∈ names, IsPlainName name) : Segments (within names) := by
  induction names with
  | nil => exact .none
  | cons name names ih =>
    obtain ⟨here, later⟩ := List.forall_mem_cons.mp plain
    exact .name here.isName (ih later)

end Plain

section Texts

variable {names : List (List Char)} {text rest : List Char}

/-- No name in front of colons is read as a result type. -/
theorem after_result_name {c : Char} {name : List Char}
    (word : ∀ c ∈ name, isPatternWord c = true) :
    after? "Result<".toList (c :: name ++ ':' :: rest) = none := by
  cases read : after? "Result<".toList (c :: name ++ ':' :: rest) with
  | none => rfl
  | some behind =>
    have split : name ++ ':' :: rest = "esult".toList ++ '<' :: behind :=
      (List.cons.inj (after?_eq_some_iff.mp read)).2
    have esult : ∀ c ∈ "esult".toList, isPatternWord c = true :=
      List.all_eq_true.mp (by decide)
    have same := congrArg (List.dropWhile isPatternWord) split
    rw [List.dropWhile_append_of_pos word, List.dropWhile_append_of_pos esult,
      List.dropWhile_cons_of_neg (by decide), List.dropWhile_cons_of_neg (by decide)] at same
    cases (List.cons.inj same).1

/-- The front of a result type is passed. -/
theorem afterResult_here (fuel : Nat) :
    afterResult? (fuel + 1) ("Result<".toList ++ rest) = some rest := by
  rw [afterResult?.eq_def]
  dsimp only
  rw [after?_eq_some_iff.mpr rfl]

/-- A plain name with the colons behind it is passed. -/
theorem afterResult_name {name : List Char} (plain : IsPlainName name) (fuel : Nat) :
    afterResult? (fuel + 1) (name ++ ':' :: ':' :: rest) = afterResult? fuel rest := by
  obtain ⟨c, word, rfl, first, later⟩ := plain
  have passes : (':' :: ':' :: rest).dropWhile isPatternWord = [':', ':'] ++ rest :=
    List.dropWhile_cons_of_neg (by decide)
  rw [afterResult?.eq_def]
  dsimp only
  rw [after_result_name later]
  dsimp only [List.cons_append]
  rw [if_pos first, List.dropWhile_append_of_pos later, passes, after?_eq_some_iff.mpr rfl,
    Option.bind_some]

/-- Nothing else is passed. -/
theorem afterResult_cases {fuel : Nat} (read : afterResult? (fuel + 1) text = some rest) :
    text = "Result<".toList ++ rest ∨
      ∃ name behind, IsPlainName name ∧ text = name ++ ':' :: ':' :: behind ∧
        afterResult? fuel behind = some rest := by
  rw [afterResult?.eq_def] at read
  dsimp only at read
  split at read
  next behind found =>
    obtain rfl := Option.some.inj read
    exact Or.inl (after?_eq_some_iff.mp found)
  next =>
    split at read
    next c text _ =>
      split at read
      next first =>
        obtain ⟨behind, colons, later⟩ := Option.bind_eq_some_iff.mp read
        have word : ∀ c ∈ text.takeWhile isPatternWord, isPatternWord c = true :=
          fun c member => List.mem_takeWhile_imp member
        refine Or.inr ⟨c :: text.takeWhile isPatternWord, behind, ⟨c, _, rfl, first, word⟩, ?_,
          later⟩
        calc c :: text
          _ = c :: (text.takeWhile isPatternWord ++ text.dropWhile isPatternWord) := by
            rw [List.takeWhile_append_dropWhile]
          _ = c :: text.takeWhile isPatternWord ++ ':' :: ':' :: behind := by
            rw [after?_eq_some_iff.mp colons]
            rfl
      next => cases read
    next => cases read

/-- A reader passes plain names and the front of a result type, and nothing else. -/
theorem afterResult_eq_some_iff {fuel : Nat} (enough : text.length < fuel) :
    afterResult? fuel text = some rest ↔
      ∃ names, (∀ name ∈ names, IsPlainName name) ∧ text = resultIn names ++ rest := by
  have further (name : List Char) (names : List (List Char)) (rest : List Char) :
      resultIn (name :: names) ++ rest = name ++ ':' :: ':' :: (resultIn names ++ rest) := by
    simp [resultIn, within]
  induction fuel generalizing text with
  | zero => exact absurd enough (Nat.not_lt_zero _)
  | succ fuel ih =>
    constructor
    · intro read
      rcases afterResult_cases read with rfl | ⟨name, behind, plain, rfl, later⟩
      · exact ⟨[], List.forall_mem_nil _, rfl⟩
      · have shorter : behind.length < fuel := by
          simp only [List.length_append, List.length_cons] at enough
          omega
        obtain ⟨names, others, rfl⟩ := (ih shorter).mp later
        exact ⟨name :: names, List.forall_mem_cons.mpr ⟨plain, others⟩, (further _ _ _).symm⟩
    · rintro ⟨names, plain, rfl⟩
      cases names with
      | nil => exact afterResult_here fuel
      | cons name names =>
        obtain ⟨here, others⟩ := List.forall_mem_cons.mp plain
        rw [further] at enough ⊢
        have shorter : (resultIn names ++ rest).length < fuel := by
          simp only [List.length_append, List.length_cons] at enough ⊢
          omega
        rw [afterResult_name here]
        exact (ih shorter).mpr ⟨names, others, rfl⟩

/-- What may follow `bool` in a text that is taken for a flag. -/
inductive FlagEnd : List Char → Prop where
  /-- Nothing. -/
  | bare : FlagEnd []
  /-- The bracket that closes the arguments of a result type. -/
  | closed : FlagEnd ['>']
  /-- Further arguments up to a bracket. -/
  | followed (c : Char) (more : List Char) : FlagEnd (',' :: c :: more ++ ['>'])

/-- On one line, a flag ends in nothing, a bracket, or further arguments up to one. -/
theorem endsSuccess_iff (line : '\n' ∉ text) : endsSuccess text = true ↔ FlagEnd text := by
  constructor
  · intro ends
    unfold endsSuccess at ends
    split at ends
    next => exact .bare
    next => exact .closed
    next rest =>
      split at ends
      next arguments reversed =>
        obtain rfl := List.reverse_eq_cons_iff.mp reversed
        rw [Bool.and_eq_true, Bool.not_eq_true', List.isEmpty_eq_false_iff] at ends
        cases split : arguments.reverse with
        | nil => exact absurd (List.reverse_eq_nil_iff.mp split) ends.1
        | cons c more => exact .followed c more
      next => cases ends
    next => cases ends
  · rintro (_ | _ | ⟨c, more⟩)
    · rfl
    · rfl
    · have clean : '\n' ∉ c :: more := fun member =>
        line (List.mem_cons_of_mem _ (List.mem_append_left _ member))
      have reversed : (c :: more ++ ['>']).reverse = '>' :: (c :: more).reverse := by simp
      simp only [endsSuccess, List.cons_append]
      rw [← List.cons_append, reversed]
      simpa [and_comm] using clean

/-- A text is read as a flag when it is `bool` and what may follow. -/
theorem readsFlag_iff (line : '\n' ∉ text) :
    ((after? "bool".toList text).map endsSuccess).getD false = true ↔
      ∃ ending, FlagEnd ending ∧ text = "bool".toList ++ ending := by
  cases read : after? "bool".toList text with
  | none =>
    refine ⟨fun never => Bool.noConfusion never, ?_⟩
    rintro ⟨ending, -, split⟩
    rw [after?_eq_some_iff.mpr split] at read
    cases read
  | some ending =>
    have split := after?_eq_some_iff.mp read
    have tail : '\n' ∉ ending := fun member => line (split ▸ List.mem_append_right _ member)
    rw [Option.map_some, Option.getD_some, endsSuccess_iff tail]
    constructor
    · exact fun ends => ⟨ending, ends, split⟩
    · rintro ⟨other, ends, same⟩
      rwa [List.append_cancel_left (split.symm.trans same)]

/-- The texts taken for a success flag: `bool`, in plain names or none, and what may follow. -/
theorem isSuccessText_iff (line : '\n' ∉ text) : isSuccessText text = true ↔
    ∃ ending, FlagEnd ending ∧ (text = "bool".toList ++ ending ∨
      ∃ names, (∀ name ∈ names, IsPlainName name) ∧
        text = resultIn names ++ "bool".toList ++ ending) := by
  rw [isSuccessText, Bool.or_eq_true, readsFlag_iff line]
  constructor
  · rintro (⟨ending, ends, here⟩ | later)
    · exact ⟨ending, ends, Or.inl here⟩
    · cases read : afterResult? (text.length + 1) text with
      | none =>
        rw [read] at later
        cases later
      | some rest =>
        obtain ⟨names, plain, split⟩ := (afterResult_eq_some_iff text.length.lt_succ_self).mp read
        have clean : '\n' ∉ rest := fun member => line (split ▸ List.mem_append_right _ member)
        rw [read, Option.map_some, Option.getD_some, readsFlag_iff clean] at later
        obtain ⟨ending, ends, rfl⟩ := later
        exact ⟨ending, ends, Or.inr ⟨names, plain, by rw [split, List.append_assoc]⟩⟩
  · rintro ⟨ending, ends, here | ⟨names, plain, split⟩⟩
    · exact Or.inl ⟨ending, ends, here⟩
    · rw [List.append_assoc] at split
      have read : afterResult? (text.length + 1) text = some ("bool".toList ++ ending) :=
        (afterResult_eq_some_iff text.length.lt_succ_self).mpr ⟨names, plain, split⟩
      have clean : '\n' ∉ "bool".toList ++ ending := fun member =>
        line (split ▸ List.mem_append_right _ member)
      right
      rw [read, Option.map_some, Option.getD_some, readsFlag_iff clean]
      exact ⟨ending, ends, rfl⟩

end Texts

section Types

variable {names : List (List Char)} {text output rest : List Char}

/-- The front of a result type has one bracket, which is open. -/
theorem depth_resultIn (plain : ∀ name ∈ names, IsPlainName name) :
    depth? ' ' 0 (resultIn names ++ "bool".toList ++ rest) = depth? 'l' 1 rest := by
  have free : ∀ c ∈ within names ++ "Result".toList, c ≠ '<' ∧ c ≠ '>' := by
    intro c member
    rcases List.mem_append.mp member with inNames | inResult
    · have marks := within_free plain c inNames
      exact ⟨marks.1, marks.2.1⟩
    · have none : ∀ c ∈ "Result".toList, c ≠ '<' ∧ c ≠ '>' := by simp
      exact none c inResult
  have bool : ∀ c ∈ "bool".toList, c ≠ '<' ∧ c ≠ '>' := by simp
  have split : resultIn names ++ "bool".toList ++ rest =
      (within names ++ "Result".toList) ++ '<' :: ("bool".toList ++ rest) := by
    simp [resultIn]
  rw [split, depth_skip free, depth_free bool]
  rfl

/-- The count behind the front of a result type is one. -/
theorem count_resultIn (plain : ∀ name ∈ names, IsPlainName name) :
    count? 0 (resultIn names ++ "bool".toList) = some 1 := by
  rw [resultIn, List.append_assoc, count_append (count_free (within_free plain))]
  rfl

/-- The arguments of a result type reach up to the end of the type. -/
theorem exists_arguments {c : Char} (paired : Nested text) (ended : IsEnded text)
    (plain : ∀ name ∈ names, IsPlainName name)
    (split : text = resultIn names ++ "bool".toList ++ c :: rest) (ends : c = '>' ∨ c = ',') :
    ∃ arguments, Nested arguments ∧ c :: rest = arguments ++ ['>'] ∧
      (arguments = [] ∨ ∃ more, arguments = ',' :: more) := by
  rw [Nested, split, depth_resultIn plain] at paired
  obtain ⟨arguments, behind, closing, closes, -⟩ :=
    exists_matching (show depth? 'l' (0 + 1 + 0) (c :: rest) = some 0 from paired)
  have nested : Nested arguments := (depth_previous (by decide) (by decide)).trans closes
  have whole : text = resultIn names ++ "bool".toList ++ arguments ++ '>' :: behind := by
    rw [split, closing, ← List.append_assoc]
  obtain rfl := ended.result names arguments behind plain nested whole
  refine ⟨arguments, nested, closing, ?_⟩
  cases arguments with
  | nil => exact Or.inl rfl
  | cons first more =>
    obtain ⟨rfl, -⟩ := List.cons.inj closing
    rcases ends with rfl | rfl
    · rw [depth_unopened (by decide)] at closes
      cases closes
    · exact Or.inr ⟨more, rfl⟩

/-- The further arguments of a plain flag are paired. -/
theorem nested_others {others : List Char} (paired : Nested text) (ended : IsEnded text)
    (plain : ∀ name ∈ names, IsPlainName name)
    (split : text = resultIn names ++ "bool".toList ++ others ++ ['>'])
    (shape : others = [] ∨ ∃ c more, others = ',' :: c :: more) : Nested others := by
  obtain ⟨c, rest, begins, ends⟩ : ∃ c rest, others ++ ['>'] = c :: rest ∧ (c = '>' ∨ c = ',') := by
    rcases shape with rfl | ⟨c, more, rfl⟩
    · exact ⟨'>', [], rfl, Or.inl rfl⟩
    · exact ⟨',', c :: more ++ ['>'], rfl, Or.inr rfl⟩
  have whole : text = resultIn names ++ "bool".toList ++ c :: rest := by
    rw [split, List.append_assoc, begins]
  obtain ⟨arguments, nested, closing, -⟩ := exists_arguments paired ended plain whole ends
  rwa [List.append_cancel_right (begins.trans closing)]

/-- A flag that is written plainly is one. -/
theorem IsPlainFlag.isFlag (flag : IsPlainFlag text) (paired : Nested text)
    (ended : IsEnded text) : IsFlag text := by
  rcases flag with rfl | ⟨names, others, plain, split, shape⟩
  · exact Or.inl rfl
  have nested := nested_others paired ended plain split shape
  have bool : ∀ c ∈ "bool".toList, c ≠ '<' ∧ c ≠ '>' := by simp
  refine Or.inr ⟨within names, [], "bool".toList ++ others,
    ⟨within names, within_segments plain, Or.inl rfl⟩, Or.inl rfl, ?_, ?_, ?_⟩
  · rcases shape with rfl | ⟨c, more, rfl⟩
    · exact .alone
    · exact .followed (c :: more)
  · rw [Nested, depth_free bool]
    exact (depth_previous (by decide) (by decide)).trans nested
  · rw [split, resultIn]
    simp

/-- An output that is taken for a flag is `bool` and the whole type, or the front of a result type
up to a closing bracket. -/
theorem output_cases (paired : Nested text) (ended : IsEnded text) (line : '\n' ∉ text)
    (read : text = output ∨ Cuts 0 text output) (success : isSuccessText output = true) :
    (text = "bool".toList ∧ output = text) ∨
      ∃ names ending, (∀ name ∈ names, IsPlainName name) ∧ FlagEnd ending ∧ ending ≠ [] ∧
        output = resultIn names ++ "bool".toList ++ ending := by
  obtain ⟨behind, split⟩ : ∃ behind, text = output ++ behind := by
    rcases read with rfl | ⟨stop, rest, split, -⟩
    · exact ⟨[], (List.append_nil text).symm⟩
    · exact ⟨stop :: rest, split⟩
  have clean : '\n' ∉ output := fun member => line (split ▸ List.mem_append_left _ member)
  obtain ⟨ending, ends, rfl | ⟨names, plain, rfl⟩⟩ := (isSuccessText_iff clean).mp success
  · rw [List.append_assoc] at split
    cases ends with
    | bare =>
      rcases read with rfl | ⟨stop, rest, cut, -, stops⟩
      · exact Or.inl ⟨rfl, rfl⟩
      · refine absurd ?_ (ended.flag stop rest cut)
        rcases stops with rfl | rfl <;> decide
    | closed => exact absurd (by decide) (ended.flag '>' behind split)
    | followed c more =>
      exact absurd (by decide) (ended.flag ',' (c :: more ++ ['>'] ++ behind) split)
  · right
    refine ⟨names, ending, plain, ends, ?_, rfl⟩
    rintro rfl
    rcases read with rfl | ⟨stop, rest, -, counts, -⟩
    · rw [Nested, depth_resultIn plain] at paired
      cases paired
    · rw [List.append_nil, count_resultIn plain] at counts
      cases counts

/-- Behind something, a flag ends in a bracket. -/
theorem FlagEnd.getLast {ending : List Char} (ends : FlagEnd ending) (filled : ending ≠ []) :
    ending.getLast? = some '>' := by
  cases ends with
  | bare => exact absurd rfl filled
  | closed => rfl
  | followed c more => exact List.getLast?_concat

/-- A type whose output is taken for a flag is a flag that is written plainly. -/
theorem plain_of_output (paired : Nested text) (ended : IsEnded text) (line : '\n' ∉ text)
    (read : text = output ∨ Cuts 0 text output) (success : isSuccessText output = true) :
    IsPlainFlag text := by
  rcases output_cases paired ended line read success with
    ⟨flag, -⟩ | ⟨names, ending, plain, ends, filled, rfl⟩
  · exact Or.inl flag
  obtain ⟨behind, split⟩ : ∃ behind,
      text = resultIn names ++ "bool".toList ++ (ending ++ behind) := by
    rcases read with rfl | ⟨stop, rest, split, -⟩
    · exact ⟨[], by rw [List.append_nil]⟩
    · exact ⟨stop :: rest, by rw [split, List.append_assoc _ ending]⟩
  obtain ⟨c, more, begins, first⟩ : ∃ c more, ending ++ behind = c :: more ∧
      (c = '>' ∨ c = ',' ∧ ∃ d others, more = d :: others ++ '>' :: behind) := by
    cases ends with
    | bare => exact absurd rfl filled
    | closed => exact ⟨'>', behind, rfl, Or.inl rfl⟩
    | followed d others =>
      refine ⟨',', d :: others ++ '>' :: behind, ?_, Or.inr ⟨rfl, d, others, rfl⟩⟩
      simp only [List.cons_append, List.append_assoc, List.nil_append]
  rw [begins] at split
  obtain ⟨arguments, -, closing, shape⟩ :=
    exists_arguments paired ended plain split (first.imp_right And.left)
  refine Or.inr ⟨names, arguments, plain, by rw [split, closing, ← List.append_assoc], ?_⟩
  rcases shape with rfl | ⟨_ | ⟨next, others⟩, rfl⟩
  · exact Or.inl rfl
  · obtain ⟨rfl, later⟩ := List.cons.inj closing
    rcases first with never | ⟨-, d, others, rfl⟩
    · cases never
    · have long := congrArg List.length later
      simp at long
  · exact Or.inr ⟨next, others, rfl⟩

/-- A type whose output is taken for a flag is read to its end. -/
theorem whole_of_output (paired : Nested text) (ended : IsEnded text) (line : '\n' ∉ text)
    (read : untilEnd? 0 (text ++ '>' :: rest) = some output)
    (success : isSuccessText output = true) : IsReadWhole text := by
  intro other cut
  -- The count ends behind one output only, which is the one that was read.
  obtain rfl := cut.append.unique (untilEnd_eq_some_iff.mp read)
  rcases output_cases paired ended line (Or.inr cut) success with
    ⟨-, rfl⟩ | ⟨names, ending, -, ends, filled, rfl⟩
  · obtain ⟨stop, behind, split, -⟩ := cut
    have long := congrArg List.length split
    simp at long
  · rw [List.getLast?_append, ends.getLast filled, Option.some_or]

/-- A flag that is written plainly is taken for one. -/
theorem IsPlainFlag.success (flag : IsPlainFlag text) (line : '\n' ∉ text) :
    isSuccessText text = true := by
  rw [isSuccessText_iff line]
  rcases flag with rfl | ⟨names, others, plain, split, rfl | ⟨c, more, rfl⟩⟩
  · exact ⟨[], .bare, Or.inl rfl⟩
  · exact ⟨['>'], .closed, Or.inr ⟨names, plain, by rw [split, List.append_nil]⟩⟩
  · exact ⟨_, .followed c more, Or.inr ⟨names, plain, by rw [split, List.append_assoc]⟩⟩

/-- Where no bracket closes in front of a text, it is in front of every closing bracket. -/
theorem exists_before_bracket {lead back front : List Char} (free : '>' ∉ lead)
    (meets : lead ++ back = front ++ '>' :: rest) :
    ∃ between, front = lead ++ between ∧ back = between ++ '>' :: rest := by
  rcases List.append_eq_append_iff.mp meets with ⟨between, rfl, split⟩ | ⟨between, rfl, split⟩
  · exact ⟨between, rfl, split⟩
  · cases between with
    | nil => exact ⟨[], by rw [List.append_nil, List.append_nil], split.symm⟩
    | cons first between =>
      obtain ⟨rfl, -⟩ := List.cons.inj split
      exact absurd (List.mem_append_right front List.mem_cons_self) free

/-- The output of a flag that is written plainly and read to its end is taken for a flag. -/
theorem output_of_plain (ended : IsEnded text) (line : '\n' ∉ text)
    (flag : IsPlainFlag text) (whole : IsReadWhole text)
    (read : text = output ∨ Cuts 0 text output) : isSuccessText output = true := by
  rcases read with rfl | cut
  · exact flag.success line
  obtain ⟨front, rfl⟩ := List.getLast?_eq_some_iff.mp (whole output cut)
  obtain ⟨stop, rest, split, -⟩ := cut
  have clean : '\n' ∉ front ++ ['>'] := fun member =>
    line (split ▸ List.mem_append_left _ member)
  rw [List.append_assoc] at split
  rcases flag with rfl | ⟨names, others, plain, rfl, shape⟩
  · have member : '>' ∈ "bool".toList := split ▸ List.mem_append_right _ List.mem_cons_self
    exact absurd member (by decide)
  have free : '>' ∉ resultIn names ++ "bool".toList := by
    rw [resultIn, List.append_assoc]
    intro member
    rcases List.mem_append.mp member with inNames | member
    · exact (within_free plain _ inNames).2.1 rfl
    · exact absurd member (by decide)
  have regrouped := List.append_assoc (resultIn names ++ "bool".toList) others ['>']
  obtain ⟨between, rfl, closing⟩ := exists_before_bracket free (regrouped.symm.trans split)
  change _ = between ++ '>' :: stop :: rest at closing
  rcases shape with rfl | ⟨c, more, rfl⟩
  · have long := congrArg List.length closing
    simp only [List.length_append, List.length_cons, List.length_nil] at long
    omega
  · rcases between with _ | ⟨first, _ | ⟨second, between⟩⟩
    · cases (List.cons.inj closing).1
    · -- A bracket right behind the comma would close the arguments before the type ends.
      obtain ⟨rfl, -⟩ := List.cons.inj closing
      cases ended.result names [','] (stop :: rest) plain (by decide) split
    · obtain ⟨rfl, -⟩ := List.cons.inj closing
      refine (isSuccessText_iff clean).mpr ⟨_, .followed second between, Or.inr ⟨names, plain, ?_⟩⟩
      rw [List.append_assoc]

/-- A flag that is written plainly is read to its end when it has no arrow. -/
theorem IsPlainFlag.readWhole (flag : IsPlainFlag text) (paired : Nested text)
    (ended : IsEnded text) (arrowless : ¬ ['-', '>'] <:+: text) : IsReadWhole text := by
  have counts : count? 0 text = some 0 := by
    rcases flag with rfl | ⟨names, others, plain, split, shape⟩
    · rfl
    have nested := nested_others paired ended plain split shape
    have free : ¬ ['-', '>'] <:+: others := fun arrow =>
      arrowless (arrow.trans ⟨resultIn names ++ "bool".toList, ['>'], split.symm⟩)
    rw [split, List.append_assoc, count_append (count_resultIn plain),
      count_append (count_of_depth nested (fun never => absurd never (by decide)) free)]
    rfl
  intro output cut
  have self : Cuts 0 (text ++ ['>']) text := ⟨'>', [], rfl, counts, Or.inl rfl⟩
  obtain rfl := self.unique cut.append
  obtain ⟨stop, behind, split, -⟩ := cut
  have long := congrArg List.length split
  simp at long

/-- What is read as the output of a future is taken for a flag exactly when the output type is a
flag that is written plainly and read to its end. -/
theorem success_of_read (paired : Nested text) (ended : IsEnded text) (line : '\n' ∉ text)
    (read : untilEnd? 0 (text ++ '>' :: rest) = some output) :
    isSuccessText output = true ↔ IsPlainFlag text ∧ IsReadWhole text := by
  have part := whole_or_cut paired read
  constructor
  · intro success
    exact ⟨plain_of_output paired ended line part success,
      whole_of_output paired ended line read success⟩
  · rintro ⟨flag, whole⟩
    exact output_of_plain ended line flag whole part

/-- A type is taken for a flag exactly when it is a flag that is written plainly. -/
theorem success_of_text (paired : Nested text) (ended : IsEnded text) (line : '\n' ∉ text) :
    isSuccessText text = true ↔ IsPlainFlag text :=
  ⟨plain_of_output paired ended line (Or.inl rfl), fun flag => flag.success line⟩

end Types

end DomainFactory.ReturnShape
