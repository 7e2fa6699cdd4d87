import Mathlib.Data.List.Lex
import DomainFactory.Proofs.Layout

/-!
# Numbers behind names

Names are claimed one after another: first those of reads, writes and saves, then those of probes,
at last those of saves that report denial. A name is the base that it is claimed for, or the base
with the smallest number that makes it free of all names claimed before. So no two names are the
same, and of two methods with one base the one that is named first has the smaller number.
-/
namespace DomainFactory

namespace MethodSpec

/-- The name of the save that reports denial, when the method has one. -/
def tryName? : MethodSpec → Option String
  | .save spec => spec.tryName
  | _ => none

/-- The place of a method in the order in which names are claimed, compared from left to right:
methods that are no probes by the number of their arguments, saves behind others, then by discovery
and position, and probes behind them by position. -/
def rank (position : Nat) (spec : MethodSpec) : List Nat :=
  if spec.isProbe then [1, position]
  else [0, spec.argumentCount, spec.isSave.toNat, spec.order, position]

/-- The place of a method that is no probe. -/
theorem rank_primary {spec : MethodSpec} (primary : (!spec.isProbe) = true) (position : Nat) :
    spec.rank position = [0, spec.argumentCount, spec.isSave.toNat, spec.order, position] := by
  have plain : spec.isProbe = false := by simpa using primary
  rw [rank, plain, if_neg Bool.false_ne_true]

/-- The place of a method in the order of naming has nothing to do with its names. -/
@[simp] theorem rank_unnamed (position : Nat) (spec : MethodSpec) :
    spec.unnamed.rank position = spec.rank position := by
  cases spec <;> rfl

end MethodSpec

namespace Naming

/-- A base with a number behind it; zero is left out. -/
def suffixed (base : String) (number : Nat) : String :=
  if number = 0 then base else base ++ toString number

/-- Bases with different numbers are different. -/
theorem suffixed_injective (base : String) {left right : Nat}
    (same : suffixed base left = suffixed base right) : left = right := by
  have plain {number : Nat} (equal : base = base ++ toString number) : False := by
    have empty : toString number = "" := by
      apply (String.append_right_inj base).mp
      rw [← equal, String.append_empty]
    exact Nat.repr_ne_empty empty
  unfold suffixed at same
  by_cases leftZero : left = 0
  · by_cases rightZero : right = 0
    · omega
    · rw [if_pos leftZero, if_neg rightZero] at same
      exact (plain same).elim
  · by_cases rightZero : right = 0
    · rw [if_neg leftZero, if_pos rightZero] at same
      exact (plain same.symm).elim
    · rw [if_neg leftZero, if_neg rightZero] at same
      exact candidate_injective base same

/-- A name is the one that a base gets when some names are taken: the base with the smallest number
that makes it free. -/
def Claims (taken : List String) (base name : String) : Prop :=
  ∃ number, name = suffixed base number ∧ name ∉ taken ∧
    ∀ smaller < number, suffixed base smaller ∈ taken

/-- What a base gets depends on which names are taken, not on their order. -/
theorem Claims.of_mem_iff {taken other : List String} {base name : String}
    (claims : Claims taken base name) (same : ∀ member, member ∈ taken ↔ member ∈ other) :
    Claims other base name := by
  obtain ⟨number, suffix, free, least⟩ := claims
  refine ⟨number, suffix, fun present => free ((same name).mpr present), ?_⟩
  intro smaller below
  exact (same _).mp (least smaller below)

/-- Of two names for one base the one that is claimed first has the smaller number. -/
theorem Claims.number_lt {taken later : List String} {base name other : String}
    (first : Claims taken base name) (second : Claims later base other)
    (grown : ∀ member ∈ taken, member ∈ later) (claimed : name ∈ later) {left right : Nat}
    (leftSuffix : name = suffixed base left) (rightSuffix : other = suffixed base right) :
    left < right := by
  obtain ⟨number, suffix, _, least⟩ := first
  obtain ⟨_, _, free, _⟩ := second
  have same : number = left := suffixed_injective base (suffix.symm.trans leftSuffix)
  -- Every number up to the first one is taken when the second name is claimed.
  by_contra notBelow
  have among : other ∈ later := by
    by_cases equal : right = left
    · rw [rightSuffix, equal, ← leftSuffix]
      exact claimed
    · rw [rightSuffix]
      exact grown _ (least right (by omega))
  exact free among

/-- Numbering goes through the numbers one by one, as long as they are taken. -/
theorem numbered_least (taken : List String) (base : String) (fuel number : Nat) :
    ∃ found ≥ number, numbered taken base fuel number = base ++ toString found ∧
      ∀ earlier ≥ number, earlier < found → base ++ toString earlier ∈ taken := by
  induction fuel generalizing number with
  | zero => exact ⟨number, Nat.le_refl _, rfl, fun earlier above below => by omega⟩
  | succ fuel ih =>
    by_cases present : base ++ toString number ∈ taken
    · obtain ⟨found, above, given, least⟩ := ih (number + 1)
      refine ⟨found, by omega, ?_, ?_⟩
      · simp only [numbered, List.contains_eq_mem, present, decide_true, ↓reduceIte]
        exact given
      · intro earlier low below
        by_cases here : earlier = number
        · rw [here]
          exact present
        · exact least earlier (by omega) below
    · refine ⟨number, Nat.le_refl _, ?_, fun earlier above below => by omega⟩
      simp only [numbered, List.contains_eq_mem, present, decide_false, Bool.false_eq_true,
        ↓reduceIte]

/-- A claimed name is the base with the smallest number that makes it free. -/
theorem claim_claims (taken : List String) (base : String) :
    Claims taken base (claim taken base) := by
  by_cases present : base ∈ taken
  · obtain ⟨found, positive, given, least⟩ := numbered_least taken base taken.length 1
    have nonzero : found ≠ 0 := by omega
    have named : claim taken base = suffixed base found := by
      simp only [claim, List.contains_eq_mem, present, decide_true, ↓reduceIte, suffixed, nonzero]
      exact given
    refine ⟨found, named, claim_fresh taken base, ?_⟩
    intro smaller below
    unfold suffixed
    by_cases zero : smaller = 0
    · rw [if_pos zero]
      exact present
    · rw [if_neg zero]
      exact least smaller (by omega) below
  · refine ⟨0, ?_, claim_fresh taken base, fun smaller below => by omega⟩
    rw [claim_free present, suffixed, if_pos rfl]

/-- Names are claimed for some bases and then for others. -/
theorem claimAll_append (taken first second : List String) :
    claimAll taken (first ++ second) =
      claimAll taken first ++ claimAll ((claimAll taken first).reverse ++ taken) second := by
  induction first generalizing taken with
  | nil => rfl
  | cons base first ih =>
    simp only [List.cons_append, claimAll, ih, List.reverse_cons, List.append_assoc,
      List.nil_append]

/-- Each base gets the name that it gets behind the bases before it. -/
theorem claimAll_claims {taken bases : List String} {place : Nat} {base : String}
    (found : bases[place]? = some base) :
    ∃ name, (claimAll taken bases)[place]? = some name ∧
      Claims ((claimAll taken bases).take place ++ taken) base name := by
  induction bases generalizing taken place with
  | nil => cases found
  | cons first bases ih =>
    cases place with
    | zero =>
      rw [List.getElem?_cons_zero] at found
      cases found
      exact ⟨claim taken base, rfl, claim_claims taken base⟩
    | succ place =>
      rw [List.getElem?_cons_succ] at found
      obtain ⟨name, there, claims⟩ := @ih (claim taken first :: taken) place found
      refine ⟨name, there, claims.of_mem_iff ?_⟩
      intro member
      simp only [claimAll, List.take_succ_cons, List.cons_append, List.mem_append, List.mem_cons]
      tauto

/-- A base skips the numbers that other bases took. -/
example : claimAll [] ["create1", "create", "create"] = ["create1", "create", "create2"] := by
  decide +kernel

/-- The base after which a method is named among methods with their final names. -/
def wanted (config : Config) (specs : List MethodSpec) : MethodSpec → String
  | .read _ bound | .write _ bound => bound.operation.publicName
  | .save _ => config.saveName
  | .probe probe => config.probePrefix ++ nameOf specs probe.wraps

/-- A name that is claimed. -/
inductive NameSlot where
  /-- The name of the method at a position. -/
  | own (position : Nat)
  /-- The name under which the save at a position reports denial. -/
  | attempt (position : Nat)
deriving DecidableEq, Repr

namespace NameSlot

/-- The name in a slot, when there is one. -/
def name? (specs : List MethodSpec) : NameSlot → Option String
  | .own position => specs[position]?.map MethodSpec.name
  | .attempt position => specs[position]?.bind MethodSpec.tryName?

/-- The base of the name in a slot. -/
def base? (config : Config) (specs : List MethodSpec) : NameSlot → Option String
  | .own position => specs[position]?.map (wanted config specs)
  | .attempt position => specs[position]?.map fun spec => config.tryPrefix ++ spec.name

/-- The place of a slot in the order in which names are claimed, compared from left to right. -/
def rank (specs : List MethodSpec) : NameSlot → List Nat
  | .own position => (specs[position]?.map (MethodSpec.rank position)).getD []
  | .attempt position => [2, position]

end NameSlot

/-- The names of methods are claimed slot by slot in the order of their ranks, each for its base
behind all names before it. -/
structure ClaimedInOrder (config : Config) (specs : List MethodSpec) (slots : List NameSlot) :
    Prop where
  every : ∀ slot, slot ∈ slots ↔ (slot.name? specs).isSome = true
  ascending : slots.Pairwise fun left right => left.rank specs < right.rank specs
  claimed : ∀ (place : Nat) (slot : NameSlot), slots[place]? = some slot →
    ∃ base name, slot.base? config specs = some base ∧ slot.name? specs = some name ∧
      Claims ((slots.take place).filterMap (NameSlot.name? specs)) base name

section Slots

variable {config : Config} {specs : List MethodSpec} {slots : List NameSlot}

/-- Slots are claimed in order when they have the names that their bases get one after another. -/
theorem claimedInOrder_of_names {bases : List String}
    (based : slots.map (NameSlot.base? config specs) = bases.map some)
    (named : slots.map (NameSlot.name? specs) = (claimAll [] bases).map some)
    (every : ∀ slot, slot ∈ slots ↔ (slot.name? specs).isSome = true)
    (ascending : slots.Pairwise fun left right => left.rank specs < right.rank specs) :
    ClaimedInOrder config specs slots := by
  refine ⟨every, ascending, ?_⟩
  intro place slot found
  have basedHere : some (slot.base? config specs) = bases[place]?.map some := by
    rw [← List.getElem?_map, ← based, List.getElem?_map, found, Option.map_some]
  obtain ⟨base, there, base_eq⟩ := Option.map_eq_some_iff.mp basedHere.symm
  obtain ⟨name, gets, claims⟩ : ∃ name, (claimAll [] bases)[place]? = some name ∧
      Claims ((claimAll [] bases).take place ++ []) base name := claimAll_claims there
  have namedHere : some (slot.name? specs) = some (some name) := by
    have same := congrArg (fun list => list[place]?) named
    simpa only [List.getElem?_map, found, gets, Option.map_some] using same
  have before : (slots.take place).filterMap (NameSlot.name? specs) =
      (claimAll [] bases).take place := by
    have cut := congrArg (fun list => (list.take place).filterMap id) named
    simpa only [← List.map_take, List.filterMap_map, Function.id_comp, Function.comp_def, id,
      List.filterMap_some] using cut
  refine ⟨base, name, base_eq.symm, Option.some.inj namedHere, ?_⟩
  rw [before]
  simpa only [List.append_nil] using claims

/-- A name is taken for the slots behind its own. -/
theorem mem_taken {earlier later : Nat} {slot : NameSlot} {name : String}
    (found : slots[earlier]? = some slot) (named : slot.name? specs = some name)
    (less : earlier < later) : name ∈ (slots.take later).filterMap (NameSlot.name? specs) := by
  obtain ⟨bound, here⟩ := List.getElem?_eq_some_iff.mp found
  refine List.mem_filterMap.mpr ⟨slot, ?_, named⟩
  exact List.mem_take_iff_getElem.mpr ⟨earlier, by omega, here⟩

/-- A slot with a name stands at some place. -/
theorem ClaimedInOrder.placed (ordered : ClaimedInOrder config specs slots) {slot : NameSlot}
    {name : String} (named : slot.name? specs = some name) :
    ∃ place : Nat, slots[place]? = some slot :=
  List.mem_iff_getElem?.mp ((ordered.every slot).mpr (by rw [named]; rfl))

/-- The name in a slot is the one that its base gets behind some others. -/
theorem ClaimedInOrder.claims (ordered : ClaimedInOrder config specs slots) {slot : NameSlot}
    {base name : String} (based : slot.base? config specs = some base)
    (named : slot.name? specs = some name) :
    ∃ place : Nat, Claims ((slots.take place).filterMap (NameSlot.name? specs)) base name := by
  obtain ⟨place, found⟩ := ordered.placed named
  obtain ⟨_, _, same, gets, claims⟩ := ordered.claimed place slot found
  rw [Option.some.inj (same.symm.trans based), Option.some.inj (gets.symm.trans named)] at claims
  exact ⟨place, claims⟩

/-- A name fills one slot. -/
theorem ClaimedInOrder.slot_eq (ordered : ClaimedInOrder config specs slots)
    {left right : NameSlot} {name : String} (leftName : left.name? specs = some name)
    (rightName : right.name? specs = some name) : left = right := by
  obtain ⟨leftPlace, leftFound⟩ := ordered.placed leftName
  obtain ⟨rightPlace, rightFound⟩ := ordered.placed rightName
  have apart {earlier later : Nat} {first second : NameSlot}
      (firstFound : slots[earlier]? = some first) (secondFound : slots[later]? = some second)
      (firstName : first.name? specs = some name)
      (secondName : second.name? specs = some name) : ¬ earlier < later := by
    intro less
    obtain ⟨_, _, _, named, _, _, free, _⟩ := ordered.claimed later second secondFound
    obtain rfl := Option.some.inj (named.symm.trans secondName)
    exact free (mem_taken firstFound firstName less)
  have same : leftPlace = rightPlace := Nat.le_antisymm
    (Nat.le_of_not_lt (apart rightFound leftFound rightName leftName))
    (Nat.le_of_not_lt (apart leftFound rightFound leftName rightName))
  rw [same, rightFound] at leftFound
  exact (Option.some.inj leftFound).symm

/-- All names of methods are distinct, also those of saves that report denial. -/
theorem ClaimedInOrder.names_nodup (ordered : ClaimedInOrder config specs slots) :
    (specs.map MethodSpec.name ++ specs.filterMap MethodSpec.tryName?).Nodup := by
  let every := (List.range specs.length).map NameSlot.own ++
    (List.range specs.length).map NameSlot.attempt
  have owned : specs.map MethodSpec.name =
      ((List.range specs.length).map NameSlot.own).filterMap (NameSlot.name? specs) := by
    rw [names_positions, List.filterMap_map, ← List.filterMap_eq_map]
    apply List.filterMap_congr
    intro position member
    have bound := List.mem_range.mp member
    simp only [Function.comp_apply, NameSlot.name?, nameOf, List.getElem?_eq_getElem bound,
      Option.map_some, Option.getD_some]
  have attempted : specs.filterMap MethodSpec.tryName? =
      ((List.range specs.length).map NameSlot.attempt).filterMap (NameSlot.name? specs) := by
    have positions : specs.map some = (List.range specs.length).map (specs[·]?) := by
      apply List.ext_getElem
      · rw [List.length_map, List.length_map, List.length_range]
      · intro position left right
        have bound : position < specs.length := by simpa using left
        simp only [List.getElem_map, List.getElem_range, List.getElem?_eq_getElem bound]
    have spread := congrArg (List.filterMap (Option.bind · MethodSpec.tryName?)) positions
    simpa only [List.filterMap_map, Function.comp_def, Option.bind_some, NameSlot.name?]
      using spread
  have distinct : every.Nodup := by
    refine List.nodup_append.mpr ⟨?_, ?_, ?_⟩
    · exact List.Nodup.map (fun _ _ same => NameSlot.own.inj same) List.nodup_range
    · exact List.Nodup.map (fun _ _ same => NameSlot.attempt.inj same) List.nodup_range
    · intro first own second attempt
      obtain ⟨_, _, rfl⟩ := List.mem_map.mp own
      obtain ⟨_, _, rfl⟩ := List.mem_map.mp attempt
      exact NameSlot.noConfusion
  rw [owned, attempted, ← List.filterMap_append]
  refine List.pairwise_filterMap.mpr (distinct.imp ?_)
  intro left right apart first leftName second rightName same
  rw [← same] at rightName
  exact apart (ordered.slot_eq leftName rightName)

/-- Of two slots with one base the one that is claimed first has the smaller number. -/
theorem ClaimedInOrder.number_lt (ordered : ClaimedInOrder config specs slots)
    {left right : NameSlot} {base : String}
    (leftBase : left.base? config specs = some base)
    (rightBase : right.base? config specs = some base) {first second : String}
    (leftName : left.name? specs = some first) (rightName : right.name? specs = some second)
    (before : left.rank specs < right.rank specs) {leftNumber rightNumber : Nat}
    (leftSuffix : first = suffixed base leftNumber)
    (rightSuffix : second = suffixed base rightNumber) : leftNumber < rightNumber := by
  obtain ⟨earlier, leftFound⟩ := ordered.placed leftName
  obtain ⟨later, rightFound⟩ := ordered.placed rightName
  obtain ⟨leftBound, leftHere⟩ := List.getElem?_eq_some_iff.mp leftFound
  obtain ⟨rightBound, rightHere⟩ := List.getElem?_eq_some_iff.mp rightFound
  -- Slots stand in the order of their ranks, so the left one comes first.
  have less : earlier < later := by
    by_contra notLess
    rcases Nat.lt_or_eq_of_le (Nat.le_of_not_lt notLess) with behind | same
    · have reversed := List.pairwise_iff_getElem.mp ordered.ascending later earlier rightBound
        leftBound behind
      rw [leftHere, rightHere] at reversed
      exact absurd before (List.lt_asymm reversed)
    · subst same
      rw [← leftHere, rightHere] at before
      exact List.lt_irrefl _ before
  obtain ⟨_, _, leftSame, leftNamed, leftClaims⟩ := ordered.claimed earlier left leftFound
  obtain ⟨_, _, rightSame, rightNamed, rightClaims⟩ := ordered.claimed later right rightFound
  obtain rfl := Option.some.inj (leftSame.symm.trans leftBase)
  obtain rfl := Option.some.inj (rightSame.symm.trans rightBase)
  obtain rfl := Option.some.inj (leftNamed.symm.trans leftName)
  obtain rfl := Option.some.inj (rightNamed.symm.trans rightName)
  refine leftClaims.number_lt rightClaims ?_ (mem_taken leftFound leftName less) leftSuffix
    rightSuffix
  intro name present
  obtain ⟨slot, among, named⟩ := List.mem_filterMap.mp present
  have longer := List.take_subset_take_left slots (Nat.le_of_lt less)
  exact List.mem_filterMap.mpr ⟨slot, longer among, named⟩

end Slots

/-- One method is named before or together with another when it has fewer arguments, or as many and
is no save while the other is, or is as much of a save and not discovered later. -/
theorem namedBefore_iff {left right : Nat × MethodSpec} :
    namedBefore left right = true ↔
      left.2.argumentCount < right.2.argumentCount ∨
        left.2.argumentCount = right.2.argumentCount ∧
          (left.2.isSave.toNat < right.2.isSave.toNat ∨
            left.2.isSave.toNat = right.2.isSave.toNat ∧ left.2.order ≤ right.2.order) := by
  unfold namedBefore
  cases left.2.isSave <;> cases right.2.isSave <;> by_cases equal :
    left.2.argumentCount = right.2.argumentCount <;> simp [equal]

/-- In a list without duplicates no two members stand in both orders. -/
theorem not_both_orders {α : Type} {list : List α} (distinct : list.Nodup) {first second : α}
    (forth : [first, second].Sublist list) (back : [second, first].Sublist list) : False := by
  induction list with
  | nil => cases forth
  | cons head list ih =>
    obtain ⟨fresh, apart⟩ := List.nodup_cons.mp distinct
    cases forth with
    | cons _ forth =>
      cases back with
      | cons _ back => exact ih apart forth back
      | cons_cons _ back => exact fresh (forth.subset (by simp))
    | cons_cons _ forth =>
      cases back with
      | cons _ back => exact fresh (back.subset (by simp))
      | cons_cons _ back => exact fresh (back.subset (by simp))

/-- Two members of a list stand in one order or in the other. -/
theorem one_order_or_other {α : Type} {list : List α} {first second : α} (apart : first ≠ second)
    (firstMember : first ∈ list) (secondMember : second ∈ list) :
    [first, second].Sublist list ∨ [second, first].Sublist list := by
  induction list with
  | nil => cases firstMember
  | cons head list ih =>
    rcases List.mem_cons.mp firstMember with rfl | firstLater
    · have later := (List.mem_cons.mp secondMember).resolve_left apart.symm
      exact Or.inl ((List.singleton_sublist.mpr later).cons_cons first)
    · rcases List.mem_cons.mp secondMember with rfl | secondLater
      · exact Or.inr ((List.singleton_sublist.mpr firstLater).cons_cons second)
      · exact (ih firstLater secondLater).imp (.cons head) (.cons head)

/-- Methods that are chosen with their positions stand in the order of their positions. -/
theorem positioned_ascending (specs : List MethodSpec) (chosen : Nat × MethodSpec → Bool) :
    ((positioned specs).filter chosen).Pairwise fun left right => left.1 < right.1 := by
  have ascending := List.pairwise_lt_range (n := specs.length)
  rw [← positioned_positions, List.pairwise_map] at ascending
  exact ascending.sublist List.filter_sublist

/-- Reads, writes and saves are named in the order of their ranks. -/
theorem primary_ascending (specs : List MethodSpec) :
    (primary specs).Pairwise fun left right =>
      left.2.rank left.1 < right.2.rank right.1 := by
  have transitive (first second third : Nat × MethodSpec)
      (early : namedBefore first second = true) (late : namedBefore second third = true) :
      namedBefore first third = true := by
    rw [namedBefore_iff] at early late ⊢
    omega
  have total (left right : Nat × MethodSpec) :
      (namedBefore left right || namedBefore right left) = true := by
    rw [Bool.or_eq_true, namedBefore_iff, namedBefore_iff]
    omega
  have order : (primary specs).Perm ((positioned specs).filter (!·.2.isProbe)) :=
    List.mergeSort_perm _ _
  have positions := positioned_ascending specs (!·.2.isProbe)
  have distinct : (primary specs).Nodup :=
    (order.nodup_iff).mpr (positions.imp fun less same => by rw [same] at less; omega)
  have sorted := List.pairwise_mergeSort transitive total ((positioned specs).filter (!·.2.isProbe))
  rw [List.pairwise_iff_forall_sublist]
  intro left right pair
  have before : namedBefore left right = true := sorted.forall_sublist pair
  have apart : left ≠ right := by
    rintro rfl
    exact absurd (List.pairwise_pair.mp (distinct.sublist pair)) (by simp)
  have leftMember := order.mem_iff.mp (pair.subset List.mem_cons_self)
  have rightMember := order.mem_iff.mp (pair.subset (List.mem_cons_of_mem _ List.mem_cons_self))
  -- Methods that may stand in both orders stay as they were, since the sort is stable.
  have stable : namedBefore right left = true → left.1 < right.1 := by
    intro also
    rcases one_order_or_other apart leftMember rightMember with forth | back
    · exact positions.forall_sublist forth
    · have kept := List.pair_sublist_mergeSort transitive total also back
      exact (not_both_orders distinct pair kept).elim
  have leftPrimary : (!left.2.isProbe) = true := (List.mem_filter.mp leftMember).2
  have rightPrimary : (!right.2.isProbe) = true := (List.mem_filter.mp rightMember).2
  rw [MethodSpec.rank_primary leftPrimary, MethodSpec.rank_primary rightPrimary]
  simp only [List.cons_lt_cons_iff, List.lt_irrefl, Nat.lt_irrefl, true_and, false_or, and_false,
    or_false]
  rw [namedBefore_iff] at before stable
  omega

end Naming

end DomainFactory
