import Mathlib.Data.List.Infix
import DomainFactory.Proofs.Spacing
import DomainFactory.Proofs.Success

/-!
# Shapes of return types

A method waits for its result when it is asynchronous or returns a future: an unnamed type or a
pinned box with a future among its bounds, or a boxed future. The future is found by its name in
the text of the type, so every type that names one is taken for it. Its success flag is that of the
output type, as far as the output is read to its end.
-/
namespace DomainFactory.ReturnShape

open Text TypeText

section Futures

/-- The front of a path that is relative or absolute, without arguments. -/
def IsScope (front : List Char) : Prop :=
  ∃ names, (∀ name ∈ names, IsName name) ∧
    (front = within names ∨ front = "::".toList ++ within names)

/-- The text of one type. -/
structure IsType (text : List Char) : Prop where
  /-- Its angle brackets are paired. -/
  paired : Nested text
  /-- It begins with something, and with no lifetime. -/
  begins : ∃ c, text.head? = some c ∧ c ≠ '\''
  /-- No comma stands outside of all brackets. -/
  sole : ∀ place < text.length, text[place]? = some ',' → Nested (text.take place) →
    (text.take place).countP (['(', '[', '{'].contains ·) ≠
      (text.take place).countP ([')', ']', '}'].contains ·)

/-- A future among the bounds of a type. -/
structure FutureBound where
  /-- The bounds in front, with the plus sign behind each. -/
  before : List Char
  /-- What stands in front of the name of the future. -/
  scope : List Char
  /-- The output type. -/
  output : List Char
  /-- The further bounds, with the plus sign in front of each. -/
  behind : List Char
  /-- A plus sign parts the bounds in front from the future. -/
  parted : before = [] ∨ before.getLast? = some '+'
  /-- The name of the future stands in a path. -/
  located : IsScope scope
  /-- The output is one type. -/
  typed : IsType output
  /-- A plus sign parts the further bounds from the future. -/
  added : behind = [] ∨ behind.head? = some '+'

/-- A type that is a future. -/
inductive FutureType where
  /-- An unnamed type with a future among its bounds. -/
  | unnamed (bound : FutureBound)
  /-- A pinned box of a trait object with a future among its bounds. -/
  | pinned (pin box : List Char) (pinLocated : IsScope pin) (boxLocated : IsScope box)
    (bound : FutureBound)
  /-- A boxed future, with a lifetime or without. -/
  | boxed (scope : List Char) (lifetime : Option (List Char)) (output : List Char)
    (located : IsScope scope) (named : ∀ name ∈ lifetime, IsName name) (typed : IsType output)

/-- The text of a future among bounds, and what follows them. -/
def FutureBound.text (bound : FutureBound) (rest : List Char) : List Char :=
  bound.before ++ (bound.scope ++ ("Future<Output=".toList ++
    (bound.output ++ '>' :: (bound.behind ++ rest))))

namespace FutureType

/-- The canonical text of the type. -/
def text : FutureType → List Char
  | unnamed bound => tie "impl".toList (bound.text [])
  | pinned pin box _ _ bound =>
    pin ++ ("Pin<".toList ++ (box ++ ("Box<".toList ++ tie "dyn".toList (bound.text ">>".toList))))
  | boxed scope lifetime output _ _ _ =>
    scope ++ ("BoxFuture<".toList ++
      (lifetime.elim [] (fun name => '\'' :: name ++ [',']) ++ (output ++ ['>'])))

/-- The output type. -/
def output : FutureType → List Char
  | unnamed bound | pinned _ _ _ _ bound => bound.output
  | boxed _ _ output _ _ _ => output

end FutureType

/-- Whether a text is that of a future. -/
def IsFuture (text : List Char) : Prop := ∃ future : FutureType, future.text = text

/-- How a future type with a named or a sole output begins. -/
def futureFronts : List (List Char) := ["Future<Output=".toList, "BoxFuture<".toList]

/-- Whether a text names a future at some place. -/
def NamesFuture (text : List Char) : Prop := ∃ front ∈ futureFronts, front <:+: text

instance {text : List Char} : Decidable (NamesFuture text) := by
  unfold NamesFuture
  infer_instance

/-- A future that is the first one named in its text, with a lifetime of word characters. -/
def FutureType.IsClear : FutureType → Prop
  | unnamed bound | pinned _ _ _ _ bound => ¬ NamesFuture bound.before
  | boxed _ lifetime _ _ _ _ => ∀ name ∈ lifetime, ∀ c ∈ name, isPatternWord c = true

end Futures

section Search

variable {text rest : List Char}

/-- What is read behind the front of a future: with a named output, or behind a lifetime or none. -/
theorem front_of_afterFuture (read : afterFuture? text = some rest) :
    text = "Future<Output=".toList ++ rest ∨
      ∃ lifetime, (∀ c ∈ lifetime, c ≠ '<' ∧ c ≠ '>') ∧
        text = "BoxFuture<".toList ++ (lifetime ++ rest) := by
  rw [afterFuture?] at read
  split at read
  next output found =>
    obtain rfl := Option.some.inj read
    exact Or.inl (after?_eq_some_iff.mp found)
  next =>
    obtain ⟨inner, found, read⟩ := Option.bind_eq_some_iff.mp read
    have split := after?_eq_some_iff.mp found
    right
    split at read
    next name =>
      split at read
      next first more output word behind =>
        obtain rfl := Option.some.inj read
        refine ⟨'\'' :: name.takeWhile isPatternWord ++ [','], ?_, ?_⟩
        · intro c member
          rcases List.mem_append.mp member with member | comma
          · rcases List.mem_cons.mp member with rfl | inName
            · decide
            · have isWord := List.mem_takeWhile_imp inName
              constructor <;> rintro rfl <;> exact absurd isWord (by decide)
          · obtain rfl := List.mem_singleton.mp comma
            decide
        · calc text = "BoxFuture<".toList ++ '\'' :: (name.takeWhile isPatternWord ++
                name.dropWhile isPatternWord) := by rw [split, List.takeWhile_append_dropWhile]
            _ = _ := by
              rw [behind]
              simp only [List.cons_append, List.append_assoc, List.nil_append]
      next =>
        obtain rfl := Option.some.inj read
        exact ⟨[], List.forall_mem_nil _, split⟩
    next =>
      obtain rfl := Option.some.inj read
      exact ⟨[], List.forall_mem_nil _, split⟩

/-- A future is read where its front is. -/
theorem afterFuture_eq_none_iff :
    afterFuture? text = none ↔ ∀ front ∈ futureFronts, ¬ front <+: text := by
  constructor
  · rintro none front member ⟨rest, split⟩
    rw [afterFuture?] at none
    rcases List.mem_pair.mp member with rfl | rfl
    · rw [after?_eq_some_iff.mpr split.symm] at none
      cases none
    · split at none
      next => cases none
      next =>
        rw [after?_eq_some_iff.mpr split.symm, Option.bind_eq_bind, Option.bind_some] at none
        repeat' split at none
        all_goals cases none
  · intro free
    cases read : afterFuture? text with
    | none => rfl
    | some rest =>
      rcases front_of_afterFuture read with split | ⟨lifetime, -, split⟩
      · exact absurd ⟨rest, split.symm⟩ (free _ List.mem_cons_self)
      · exact absurd ⟨lifetime ++ rest, split.symm⟩
          (free _ (List.mem_cons_of_mem _ List.mem_cons_self))

/-- A future is found in a text that names one. -/
theorem findFuture_eq_none_iff : findFuture? text = none ↔ ¬ NamesFuture text := by
  induction text with
  | nil =>
    refine ⟨fun _ => by decide, fun _ => rfl⟩
  | cons c text ih =>
    have names : NamesFuture (c :: text) ↔
        (∃ front ∈ futureFronts, front <+: c :: text) ∨ NamesFuture text := by
      simp only [NamesFuture, List.infix_cons_iff, and_or_left, exists_or]
    rw [names, not_or, ← ih, findFuture?]
    cases read : afterFuture? (c :: text) with
    | none =>
      have free := afterFuture_eq_none_iff.mp read
      simpa using fun _ front member => free front member
    | some rest =>
      refine ⟨fun never => (by cases never), fun free => ?_⟩
      have none : afterFuture? (c :: text) = none := by
        refine afterFuture_eq_none_iff.mpr fun front member here => free.1 ⟨front, member, here⟩
      rw [read] at none
      cases none

/-- In front of what is found, one bracket is open since the front of the future. -/
theorem split_of_findFuture (found : findFuture? text = some rest) :
    ∃ front name inner, (∀ c ∈ name ++ inner, c ≠ '<' ∧ c ≠ '>') ∧
      text = front ++ (name ++ '<' :: (inner ++ rest)) := by
  induction text with
  | nil => cases found
  | cons c text ih =>
    rw [findFuture?] at found
    split at found
    next output read =>
      obtain rfl := Option.some.inj found
      refine ⟨[], ?_⟩
      rcases front_of_afterFuture read with split | ⟨lifetime, free, split⟩
      · exact ⟨"Future".toList, "Output=".toList, by simp, split⟩
      · refine ⟨"BoxFuture".toList, lifetime, fun c member => ?_, split⟩
        rcases List.mem_append.mp member with inName | inLifetime
        · have none : ∀ c ∈ "BoxFuture".toList, c ≠ '<' ∧ c ≠ '>' := by simp
          exact none c inName
        · exact free c inLifetime
    next =>
      obtain ⟨front, name, inner, free, split⟩ := ih found
      exact ⟨c :: front, name, inner, free, by rw [split, List.cons_append]⟩

/-- The search passes a text that names no future and ends in what no front has. -/
theorem findFuture_skip {front : List Char} {stop : Char} (ends : front.getLast? = some stop)
    (foreign : ∀ name ∈ futureFronts, stop ∉ name) (free : ¬ NamesFuture front) :
    findFuture? (front ++ text) = findFuture? text := by
  induction front with
  | nil => rfl
  | cons c front ih =>
    have unread : afterFuture? (c :: front ++ text) = none := by
      refine afterFuture_eq_none_iff.mpr fun name member here => ?_
      -- A front read here lies in the passed text, or reaches over its last character.
      rcases List.prefix_or_prefix_of_prefix here (List.prefix_append (c :: front) text) with
        inside | beyond
      · exact free ⟨name, member, inside.isInfix⟩
      · exact foreign name member (beyond.subset (List.mem_of_getLast? ends))
    rw [List.cons_append] at unread ⊢
    rw [findFuture?, unread]
    cases front with
    | nil => rfl
    | cons next front =>
      refine ih ?_ fun ⟨name, member, inside⟩ => free ⟨name, member, List.infix_cons inside⟩
      rwa [List.getLast?_cons_cons] at ends

/-- The search ends where the front of a future is read. -/
theorem findFuture_of_after (read : afterFuture? text = some rest) :
    findFuture? text = some rest := by
  cases text with
  | nil => cases read
  | cons c text => rw [findFuture?, read]

/-- The search passes names with the colons behind each. -/
theorem findFuture_within {names : List (List Char)} (named : ∀ name ∈ names, IsName name) :
    findFuture? (within names ++ text) = findFuture? text := by
  induction names with
  | nil => rfl
  | cons name names ih =>
    obtain ⟨here, later⟩ := List.forall_mem_cons.mp named
    have free : ¬ NamesFuture (name ++ "::".toList) := by
      rintro ⟨front, member, inside⟩
      have opens : ∀ front ∈ futureFronts, '<' ∈ front := by decide
      rcases List.mem_append.mp (inside.subset (opens front member)) with inName | colon
      · exact here.2 '<' inName (by decide)
      · exact absurd colon (by decide)
    have ends : (name ++ "::".toList).getLast? = some ':' := by
      rw [List.getLast?_append]
      rfl
    have split : within (name :: names) ++ text =
        (name ++ "::".toList) ++ (within names ++ text) := by
      simp [within]
    rw [split, findFuture_skip ends (by decide) free, ih later]

/-- The search passes the front of a path. -/
theorem findFuture_scope {scope : List Char} (located : IsScope scope) :
    findFuture? (scope ++ text) = findFuture? text := by
  obtain ⟨names, named, rfl | rfl⟩ := located
  · exact findFuture_within named
  · exact findFuture_within named

/-- The search passes the word in front of bounds. -/
theorem findFuture_tie {word : List Char} (text : List Char)
    (known : word = "impl".toList ∨ word = "dyn".toList) :
    findFuture? (tie word text) = findFuture? text := by
  unfold tie
  rcases known with rfl | rfl <;> split <;> rfl

/-- A future among bounds is found when it is the first one. -/
theorem FutureBound.find {bound : FutureBound} (clear : ¬ NamesFuture bound.before) :
    findFuture? (bound.text rest) =
      some (bound.output ++ '>' :: (bound.behind ++ rest)) := by
  have here := findFuture_of_after (show afterFuture? ("Future<Output=".toList ++
    (bound.output ++ '>' :: (bound.behind ++ rest))) = some _ by
      rw [afterFuture?, after?_eq_some_iff.mpr rfl])
  rw [FutureBound.text]
  rcases bound.parted with none | ends
  · rw [none, List.nil_append, findFuture_scope bound.located, here]
  · rw [findFuture_skip ends (by decide) clear, findFuture_scope bound.located, here]

/-- A boxed future is read behind its lifetime. -/
theorem afterFuture_boxed {lifetime : Option (List Char)}
    (named : ∀ name ∈ lifetime, IsName name)
    (word : ∀ name ∈ lifetime, ∀ c ∈ name, isPatternWord c = true)
    (typed : text.head? ≠ some '\'') :
    afterFuture? ("BoxFuture<".toList ++
      (lifetime.elim [] (fun name => '\'' :: name ++ [',']) ++ text)) = some text := by
  have other (text : List Char) :
      after? "Future<Output=".toList ("BoxFuture<".toList ++ text) = none := rfl
  have here (text : List Char) :
      after? "BoxFuture<".toList ("BoxFuture<".toList ++ text) = some text :=
    after?_eq_some_iff.mpr rfl
  rw [afterFuture?, other, here]
  cases lifetime with
  | none =>
    rw [Option.elim_none, List.nil_append, Option.bind_eq_bind, Option.bind_some]
    dsimp only
    split
    next => exact absurd rfl typed
    next => rfl
  | some name =>
    have worded := word name rfl
    have split : Option.elim (some name) [] (fun name => '\'' :: name ++ [',']) ++ text =
        '\'' :: (name ++ ',' :: text) := by
      simp
    have front : (name ++ ',' :: text).takeWhile isPatternWord = name := by
      rw [List.takeWhile_append_of_pos worded, List.takeWhile_cons_of_neg (by decide),
        List.append_nil]
    have back : (name ++ ',' :: text).dropWhile isPatternWord = ',' :: text := by
      rw [List.dropWhile_append_of_pos worded, List.dropWhile_cons_of_neg (by decide)]
    rw [split, Option.bind_eq_bind, Option.bind_some]
    simp only
    rw [front, back]
    cases name with
    | nil => exact absurd rfl (named [] rfl).1
    | cons c name => rfl

/-- The future that a clear type is, is the first one found in its text. -/
theorem FutureType.find {future : FutureType} (clear : future.IsClear) :
    ∃ behind, findFuture? future.text = some (future.output ++ '>' :: behind) := by
  cases future with
  | unnamed bound =>
    rw [text, findFuture_tie _ (Or.inl rfl)]
    exact ⟨_, FutureBound.find clear⟩
  | pinned pin box pinLocated boxLocated bound =>
    refine ⟨bound.behind ++ ">>".toList, ?_⟩
    calc findFuture? (text (pinned pin box pinLocated boxLocated bound))
      _ = findFuture? (box ++ ("Box<".toList ++ tie "dyn".toList (bound.text ">>".toList))) :=
        findFuture_scope pinLocated
      _ = findFuture? (tie "dyn".toList (bound.text ">>".toList)) := by
        rw [findFuture_scope boxLocated, tie]
        rfl
      _ = some (bound.output ++ '>' :: (bound.behind ++ ">>".toList)) := by
        rw [findFuture_tie _ (Or.inr rfl), FutureBound.find clear]
  | boxed scope lifetime output located named typed =>
    refine ⟨[], ?_⟩
    rw [text, findFuture_scope located]
    refine findFuture_of_after (afterFuture_boxed named clear ?_)
    obtain ⟨c, begins, other⟩ := typed.begins
    rw [List.head?_append, begins, Option.some_or, ne_eq, Option.some.injEq]
    exact other

/-- In a text with paired brackets, a future that is named has an output. -/
theorem exists_output (paired : Nested text) (named : NamesFuture text) :
    ∃ output, futureOutput? text = some output := by
  cases found : findFuture? text with
  | none => exact absurd named (findFuture_eq_none_iff.mp found)
  | some rest =>
    obtain ⟨front, name, inner, free, rfl⟩ := split_of_findFuture found
    obtain ⟨freeName, freeInner⟩ := List.forall_mem_append.mp free
    obtain ⟨between, -, opened⟩ := depth_append paired
    -- The bracket of the front is open, so one behind it closes the output.
    rw [depth_skip freeName, depth_free freeInner, Nat.add_comm, ← Nat.zero_add 1] at opened
    obtain ⟨output, behind, rfl, closed, -⟩ := exists_matching opened
    obtain ⟨front, -, -, read⟩ := untilEnd_of_depth closed (Nat.le_refl 0)
    exact ⟨front, by rw [futureOutput?, found, Option.bind_some, read]⟩

end Search

section Returned

/-- A shape with two traits has the first one. -/
@[simp] theorem isAwaitable_ofParts (awaitable success : Bool) :
    (ofParts awaitable success).isAwaitable = awaitable := by
  cases awaitable <;> cases success <;> rfl

/-- A shape with two traits has the second one. -/
@[simp] theorem isSuccess_ofParts (awaitable success : Bool) :
    (ofParts awaitable success).isSuccess = success := by
  cases awaitable <;> cases success <;> rfl

/-- A method that returns a type: whether it is asynchronous, and the type. -/
structure Returning where
  /-- Whether the method is asynchronous. -/
  isAsync : Bool
  /-- The text of the type. -/
  type : String
  /-- The brackets of the type are paired. -/
  paired : Nested (canonical type.toList)

namespace Returning

variable {given : Returning}

/-- The canonical text of the type. -/
def text (given : Returning) : List Char := canonical given.type.toList

/-- The shape read off the type. -/
def shape (given : Returning) : ReturnShape :=
  ofDeclared given.isAsync (some (normalize given.type))

/-- The brackets of the canonical text are paired. -/
theorem nested (given : Returning) : Nested given.text := given.paired

/-- No canonical text has a line break. -/
theorem line (given : Returning) : '\n' ∉ given.text := by
  intro member
  have space := blank_of_mem_normalizeFrom member (by decide)
  cases space

/-- The shape of a type with an output is that of the output, after waiting. -/
theorem shape_of_output {output : List Char} (read : futureOutput? given.text = some output) :
    given.shape = ofParts true (isSuccessText output) := by
  rw [shape, ofDeclared, toList_normalize, ← text, read]

/-- The shape of a type that names no future is its own. -/
theorem shape_of_unnamed (unnamed : ¬ NamesFuture given.text) :
    given.shape = ofParts given.isAsync (isSuccessText given.text) := by
  have none : futureOutput? given.text = none := by
    rw [futureOutput?, findFuture_eq_none_iff.mpr unnamed, Option.bind_none]
  rw [shape, ofDeclared, toList_normalize, ← text, none]

/-- The result is waited for when the method is asynchronous or its type names a future. -/
theorem awaitable_iff (given : Returning) :
    given.shape.isAwaitable = true ↔ given.isAsync = true ∨ NamesFuture given.text := by
  by_cases named : NamesFuture given.text
  · obtain ⟨output, read⟩ := exists_output given.nested named
    rw [shape_of_output read, isAwaitable_ofParts]
    exact ⟨fun _ => Or.inr named, fun _ => rfl⟩
  · rw [shape_of_unnamed named, isAwaitable_ofParts]
    exact ⟨Or.inl, fun either => either.resolve_right named⟩

end Returning

/-- Bounds with a future name it. -/
theorem FutureBound.infix_text (bound : FutureBound) (rest : List Char) :
    "Future<Output=".toList <:+: bound.text rest :=
  ⟨bound.before ++ bound.scope, bound.output ++ '>' :: (bound.behind ++ rest),
    by simp only [FutureBound.text, List.append_assoc]⟩

/-- A text ends what is tied to it. -/
theorem suffix_tie (front text : List Char) : text <:+ tie front text := by
  unfold tie
  split
  · exact ⟨front ++ [' '], by rw [List.append_assoc]; rfl⟩
  · exact ⟨front, rfl⟩

/-- A type that is a future names one. -/
theorem IsFuture.names {text : List Char} (isFuture : IsFuture text) : NamesFuture text := by
  obtain ⟨future, rfl⟩ := isFuture
  cases future with
  | unnamed bound =>
    exact ⟨_, List.mem_cons_self, (bound.infix_text _).trans (suffix_tie _ _).isInfix⟩
  | pinned pin box _ _ bound =>
    refine ⟨_, List.mem_cons_self, (bound.infix_text ">>".toList).trans
      ((suffix_tie "dyn".toList _).trans ?_).isInfix⟩
    exact ⟨pin ++ ("Pin<".toList ++ (box ++ "Box<".toList)), by
      simp only [FutureType.text, List.append_assoc]⟩
  | boxed scope lifetime output _ _ _ =>
    exact ⟨_, List.mem_cons_of_mem _ List.mem_cons_self, scope, _, by
      rw [List.append_assoc]
      rfl⟩

/-- The output of a future is one type. -/
theorem FutureType.output_typed (future : FutureType) : IsType future.output := by
  cases future with
  | unnamed bound => exact bound.typed
  | pinned _ _ _ _ bound => exact bound.typed
  | boxed _ _ _ _ _ typed => exact typed

namespace Returning

variable {given : Returning}

/-- The flag of a future is that of its output, when the future is the one that is found. -/
theorem success_iff_of_future {future : FutureType} (same : future.text = given.text)
    (clear : future.IsClear) (ended : IsEnded future.output) :
    given.shape.isSuccess = true ↔
      IsPlainFlag future.output ∧ IsReadWhole future.output := by
  obtain ⟨behind, found⟩ := FutureType.find clear
  rw [same] at found
  obtain ⟨front, name, inner, -, split⟩ := split_of_findFuture found
  have line : '\n' ∉ future.output := by
    intro member
    refine given.line ?_
    rw [split]
    exact List.mem_append_right _ (List.mem_append_right _ (List.mem_cons_of_mem _
      (List.mem_append_right _ (List.mem_append_left _ member))))
  obtain ⟨output, -, -, read⟩ := untilEnd_of_depth future.output_typed.paired (Nat.le_refl 0)
  have whole : futureOutput? given.text = some output := by
    rw [futureOutput?, found, Option.bind_some, read]
  rw [shape_of_output whole, isSuccess_ofParts,
    success_of_read future.output_typed.paired ended line read]

/-- The shape of a returned type is the right one exactly where the type names a future only if it
is one, and a flag is written plainly and, in a future, read to its end. -/
theorem shape_told (given : Returning) :
    ((given.shape.isAwaitable = true ↔ given.isAsync = true ∨ IsFuture given.text) ↔
      (given.isAsync = true ∨ (NamesFuture given.text → IsFuture given.text))) ∧
    (∀ future : FutureType, future.text = given.text → future.IsClear → IsEnded future.output →
      ((given.shape.isSuccess = true ↔ IsFlag future.output) ↔
        (IsFlag future.output → IsPlainFlag future.output ∧ IsReadWhole future.output))) ∧
    (¬ NamesFuture given.text → IsEnded given.text →
      ((given.shape.isSuccess = true ↔ IsFlag given.text) ↔
        (IsFlag given.text → IsPlainFlag given.text))) := by
  refine ⟨?_, ?_, ?_⟩
  · rw [given.awaitable_iff]
    constructor
    · intro right
      by_cases waits : given.isAsync = true
      · exact Or.inl waits
      · exact Or.inr fun named => (right.mp (Or.inr named)).resolve_left waits
    · rintro (waits | only)
      · exact ⟨fun _ => Or.inl waits, fun _ => Or.inl waits⟩
      · exact or_congr_right ⟨only, IsFuture.names⟩
  · intro future same clear ended
    rw [success_iff_of_future same clear ended]
    exact ⟨Iff.mpr, fun only => ⟨fun both => both.1.isFlag future.output_typed.paired ended, only⟩⟩
  · intro unnamed ended
    rw [shape_of_unnamed unnamed, isSuccess_ofParts,
      success_of_text given.nested ended given.line]
    exact ⟨Iff.mpr, fun only => ⟨fun flag => flag.isFlag given.nested ended, only⟩⟩

/-- A type other than `bool` with no closing bracket before its end is ended. -/
theorem isEnded_of_last {text : List Char} (other : text.head? ≠ some 'b')
    (last : '>' ∉ text.dropLast) : IsEnded text := by
  constructor
  · rintro c rest rfl
    exact absurd rfl other
  · rintro names arguments rest - - rfl
    cases rest with
    | nil => rfl
    | cons c rest =>
      refine absurd ?_ last
      rw [List.dropLast_append_cons, List.dropLast_cons_cons]
      exact List.mem_append_right _ List.mem_cons_self

/-- A future of a result type and further bounds. -/
def flagFuture : FutureType := .unnamed {
  before := []
  scope := []
  output := "Result<bool,Error>".toList
  behind := "+Send".toList
  parted := Or.inl rfl
  located := ⟨[], List.forall_mem_nil _, Or.inl rfl⟩
  typed := ⟨by decide, ⟨'R', rfl, by decide⟩, by decide⟩
  added := Or.inr rfl }

/-- The future of a flag, and a flag of an asynchronous method, are flags after waiting. -/
theorem flag_told :
    (shape ⟨false, "impl Future<Output = Result<bool, Error>> + Send", by decide⟩).isAwaitable =
        true ∧
      (shape ⟨false, "impl Future<Output = Result<bool, Error>> + Send", by decide⟩).isSuccess =
        true ∧
      (shape ⟨true, "Result<bool>", by decide⟩).isAwaitable = true ∧
      (shape ⟨true, "Result<bool>", by decide⟩).isSuccess = true := by
  have waiting := shape_told ⟨false, "impl Future<Output = Result<bool, Error>> + Send", by decide⟩
  have plain := shape_told ⟨true, "Result<bool>", by decide⟩
  have same : flagFuture.text =
      canonical "impl Future<Output = Result<bool, Error>> + Send".toList := by decide
  have outputEnded : IsEnded "Result<bool,Error>".toList := isEnded_of_last (by decide) (by decide)
  have ended : IsEnded "Result<bool>".toList := isEnded_of_last (by decide) (by decide)
  have outputFlag : IsPlainFlag "Result<bool,Error>".toList :=
    Or.inr ⟨[], ",Error".toList, List.forall_mem_nil _, rfl, Or.inr ⟨'E', "rror".toList, rfl⟩⟩
  have flag : IsPlainFlag "Result<bool>".toList :=
    Or.inr ⟨[], [], List.forall_mem_nil _, rfl, Or.inl rfl⟩
  have whole : IsReadWhole "Result<bool,Error>".toList :=
    outputFlag.readWhole (by decide) outputEnded (by decide)
  refine ⟨?_, ?_, ?_, ?_⟩
  · exact (waiting.1.mpr (Or.inr fun _ => ⟨flagFuture, same⟩)).mpr (Or.inr ⟨flagFuture, same⟩)
  · have clear : flagFuture.IsClear := show ¬ NamesFuture [] by decide
    exact ((waiting.2.1 flagFuture same clear outputEnded).mpr fun _ => ⟨outputFlag, whole⟩).mpr
      (outputFlag.isFlag (by decide) outputEnded)
  · exact (plain.1.mpr (Or.inl rfl)).mpr (Or.inl rfl)
  · exact ((plain.2.2 (by decide) ended).mpr fun _ => flag).mpr (flag.isFlag (by decide) ended)

/-- A future of a result type with a function type. -/
def arrowFuture : FutureType := .unnamed {
  before := []
  scope := []
  output := "Result<bool,fn()->i32>".toList
  behind := []
  parted := Or.inl rfl
  located := ⟨[], List.forall_mem_nil _, Or.inl rfl⟩
  typed := ⟨by decide, ⟨'R', rfl, by decide⟩, by decide⟩
  added := Or.inl rfl }

/-- The arrow of a function type ends the output of a future too early, and an absolute path hides
a flag. -/
theorem arrow_hides_flag :
    (arrowFuture.text = (normalize "impl Future<Output = Result<bool, fn() -> i32>>").toList ∧
      IsFlag arrowFuture.output ∧
      ofDeclared false (some (normalize "impl Future<Output = Result<bool, fn() -> i32>>")) =
        .awaitable) ∧
    (IsFlag (normalize "::std::result::Result<bool, Error>").toList ∧
      ofDeclared false (some (normalize "::std::result::Result<bool, Error>")) = .value) := by
  have plain : ∀ name ∈ ["std".toList, "result".toList], IsPlainName name :=
    List.forall_mem_cons.mpr ⟨⟨'s', "td".toList, rfl, by decide, List.all_eq_true.mp (by decide)⟩,
      List.forall_mem_singleton.mpr ⟨'r', "esult".toList, rfl, by decide,
        List.all_eq_true.mp (by decide)⟩⟩
  have path : (normalize "::std::result::Result<bool, Error>").toList =
      "::std::result::Result<bool,Error>".toList := by decide
  refine ⟨⟨by decide, Or.inr ⟨[], [], "bool,fn()->i32".toList, ?_, Or.inl rfl, ?_, by decide, rfl⟩,
    by decide⟩, Or.inr ⟨"::std::result::".toList, [], "bool,Error".toList, ?_, Or.inl rfl, ?_,
      by decide, path⟩, by decide⟩
  · exact ⟨[], .none, Or.inl rfl⟩
  · exact .followed "fn()->i32".toList
  · exact ⟨_, within_segments plain, Or.inr rfl⟩
  · exact .followed "Error".toList

end Returning

end Returned

end DomainFactory.ReturnShape
