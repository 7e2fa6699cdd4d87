import DomainFactory.Gate

/-!
# Positions of arguments

Callers of an operation give nothing for its target and nothing for what is injected, so they number
their arguments in their own way. The numbering keeps the order of the parameters and leaves none of
its numbers out.
-/
namespace DomainFactory

variable {α : Type} {keeps : α → Bool} {list : List α} {position : Nat} {value : α}

/-- A member that is kept stands behind the members kept before it. -/
theorem filter_at_countP (found : list[position]? = some value) (kept : keeps value = true) :
    (list.filter keeps)[(list.take position).countP keeps]? = some value := by
  induction list generalizing position with
  | nil => cases found
  | cons first rest ih =>
    cases position with
    | zero =>
      cases found
      rw [List.filter_cons_of_pos kept]
      rfl
    | succ position =>
      rw [List.getElem?_cons_succ] at found
      rw [List.take_succ_cons]
      by_cases here : keeps first = true
      · rw [List.filter_cons_of_pos here, List.countP_cons_of_pos here, List.getElem?_cons_succ]
        exact ih found
      · rw [List.filter_cons_of_neg here, List.countP_cons_of_neg here]
        exact ih found

/-- As many members as one likes are kept before some member that is kept, as long as there are
more. -/
theorem exists_countP {index : Nat} (more : index < (list.filter keeps).length) :
    ∃ position value, list[position]? = some value ∧ keeps value = true ∧
      (list.take position).countP keeps = index := by
  induction list generalizing index with
  | nil => cases more
  | cons first rest ih =>
    by_cases here : keeps first = true
    · rw [List.filter_cons_of_pos here, List.length_cons] at more
      cases index with
      | zero => exact ⟨0, first, rfl, here, rfl⟩
      | succ index =>
        obtain ⟨position, value, found, kept, count⟩ := ih (Nat.lt_of_succ_lt_succ more)
        refine ⟨position + 1, value, found, kept, ?_⟩
        rw [List.take_succ_cons, List.countP_cons_of_pos here, count]
    · rw [List.filter_cons_of_neg here] at more
      obtain ⟨position, value, found, kept, count⟩ := ih more
      refine ⟨position + 1, value, found, kept, ?_⟩
      rw [List.take_succ_cons, List.countP_cons_of_neg here, count]

/-- More members are kept before a later position, when the one at the earlier position is kept. -/
theorem countP_take_lt {later : Nat} (found : list[position]? = some value)
    (kept : keeps value = true) (before : position < later) :
    (list.take position).countP keeps < (list.take later).countP keeps := by
  have upTo : (list.take (position + 1)).countP keeps =
      (list.take position).countP keeps + 1 := by
    rw [List.take_add_one, found, List.countP_append, Option.toList_some,
      List.countP_cons_of_pos kept, List.countP_nil]
  have within : (list.take (position + 1)).countP keeps ≤ (list.take later).countP keeps :=
    (List.take_prefix_take_left before).sublist.countP_le
  omega

/-- Callers give the argument for the parameter at a position: it stands behind the target of a
write and is not injected. -/
def Operation.Gives (operation : Operation) (position : Nat) (parameter : Parameter) : Prop :=
  operation.targetCount ≤ position ∧ operation.parameters[position]? = some parameter ∧
    parameter.isInjected = false

/-- How callers of an operation number their arguments. -/
structure Operation.Numbered (operation : Operation) : Prop where
  /-- The parameters whose arguments they give have a number, and no others. -/
  given : ∀ position, (Slot.callerPosition? operation position).isSome = true ↔
    ∃ parameter, operation.Gives position parameter
  /-- The numbers are in the order of the parameters; so no two parameters have the same. -/
  ordered : ∀ first second index other, Slot.callerPosition? operation first = some index →
    Slot.callerPosition? operation second = some other → (first < second ↔ index < other)
  /-- Each parameter that callers see has its number. -/
  onto : ∀ index < operation.publicParameters.length, ∃ position,
    Slot.callerPosition? operation position = some index
  /-- The number of a parameter is its position among those that callers see. -/
  agrees : ∀ position index, Slot.callerPosition? operation position = some index →
    index < operation.publicParameters.length ∧
      operation.publicParameters[index]? = operation.parameters[position]?

namespace Slot

variable {operation : Operation} {index : Nat}

/-- The number of an argument is how many of its parameters callers see before. -/
theorem callerPosition_eq_some_iff :
    callerPosition? operation position = some index ↔
      ∃ parameter, operation.Gives position parameter ∧
        ((operation.parameters.drop operation.targetCount).take
          (position - operation.targetCount)).countP (!·.isInjected) = index := by
  unfold callerPosition? Operation.Gives
  rw [← List.drop_take]
  cases operation.parameters[position]? with
  | none => simp only [reduceCtorEq, false_and, and_false, exists_false]
  | some parameter =>
    simp only [Option.ite_none_left_eq_some, Bool.or_eq_true, decide_eq_true_eq, not_or,
      Nat.not_lt, Bool.not_eq_true, Option.some.injEq, and_assoc, exists_eq_left', exists_and_left]

/-- A parameter whose argument callers give, among those behind the target. -/
theorem behind_of_gives {parameter : Parameter} (gives : operation.Gives position parameter) :
    (operation.parameters.drop operation.targetCount)[position - operation.targetCount]? =
      some parameter := by
  rw [List.getElem?_drop, Nat.add_sub_cancel' gives.1]
  exact gives.2.1

end Slot

/-- Callers of every operation number their arguments in one way. -/
theorem Operation.numbered (operation : Operation) : operation.Numbered := by
  have kept {position : Nat} {parameter : Parameter} (gives : operation.Gives position parameter) :
      (!parameter.isInjected) = true := by
    rw [gives.2.2]
    rfl
  refine ⟨?_, ?_, ?_, ?_⟩
  · intro position
    rw [Option.isSome_iff_exists]
    constructor
    · rintro ⟨index, found⟩
      obtain ⟨parameter, gives, _⟩ := Slot.callerPosition_eq_some_iff.mp found
      exact ⟨parameter, gives⟩
    · rintro ⟨parameter, gives⟩
      exact ⟨_, Slot.callerPosition_eq_some_iff.mpr ⟨parameter, gives, rfl⟩⟩
  · have rises {first second index other : Nat}
        (here : Slot.callerPosition? operation first = some index)
        (there : Slot.callerPosition? operation second = some other) (before : first < second) :
        index < other := by
      obtain ⟨parameter, gives, rfl⟩ := Slot.callerPosition_eq_some_iff.mp here
      obtain ⟨_, _, rfl⟩ := Slot.callerPosition_eq_some_iff.mp there
      have low := gives.1
      exact countP_take_lt (Slot.behind_of_gives gives) (kept gives) (by omega)
    intro first second index other here there
    refine ⟨rises here there, fun less => ?_⟩
    rcases Nat.lt_trichotomy first second with before | same | behind
    · exact before
    · subst same
      cases here.symm.trans there
      exact absurd less (Nat.lt_irrefl _)
    · exact absurd less (Nat.lt_asymm (rises there here behind))
  · intro index bound
    obtain ⟨position, parameter, found, kept, count⟩ := exists_countP bound
    rw [List.getElem?_drop] at found
    refine ⟨operation.targetCount + position, Slot.callerPosition_eq_some_iff.mpr
      ⟨parameter, ⟨Nat.le_add_right _ _, found, ?_⟩, ?_⟩⟩
    · simpa only [Bool.not_eq_eq_eq_not, Bool.not_true] using kept
    · rw [Nat.add_sub_cancel_left]
      exact count
  · intro position index found
    obtain ⟨parameter, gives, rfl⟩ := Slot.callerPosition_eq_some_iff.mp found
    have there : operation.publicParameters[_]? = some parameter :=
      filter_at_countP (Slot.behind_of_gives gives) (kept gives)
    exact ⟨(List.getElem?_eq_some_iff.mp there).1, there.trans gives.2.1.symm⟩

end DomainFactory
