import Mathlib.Data.List.OfFn
import Mathlib.Order.Monotone.Basic
import Mathlib.Order.WellFounded
import DomainFactory.Proofs.Alignment

/-!
# Pairing the parameters of a check

The walk that binds a check pairs each of its parameters with one of the operation. There is one
such pairing at most, the walk finds it exactly when there is one, and the arguments of the check
come from it; only the first can be the target, and only on a write.
-/
namespace DomainFactory.Binding

/-- Each parameter of a check has its place among those of an operation. -/
structure Pairs (operation : Operation) (check : Check)
    (place : Fin check.parameters.length → Fin operation.parameters.length) : Prop where
  /-- Places ascend. -/
  ascending : StrictMono place
  /-- What has no place and stands before one refers to the type itself. -/
  passed : ∀ position last, position < place last → (∀ index, place index ≠ position) →
    operation.parameters[position].isSelfReference = true
  /-- On a write nothing is passed over for a parameter that refers to the type itself. -/
  kept : operation.isWrite = true → ∀ position index, position < place index →
    (∀ earlier < index, place earlier < position) →
    check.parameters[index].isSelfReference = false
  /-- At its place each parameter finds its like: on a write both may refer to the type itself, else
  the one of the operation does not and their types are the same up to reference marks. -/
  alike : ∀ index,
    (operation.isWrite = true ∧ operation.parameters[place index].isSelfReference = true ∧
      check.parameters[index].isSelfReference = true) ∨
    (operation.parameters[place index].isSelfReference = false ∧
      TypeText.stripReferences operation.parameters[place index].type =
        TypeText.stripReferences check.parameters[index].type)

/-- Where the argument with a place comes from: a reference to the type itself in front of all
parameters is the target. -/
def taken (operation : Operation) (place : Fin operation.parameters.length) : ArgumentSource :=
  if place.val = 0 ∧ operation.parameters[place].isSelfReference = true then .target
  else .parameter place

/-- Positions line up in one way at most. -/
theorem linesUp_unique {isWrite : Bool} {operation check : List Parameter}
    {positions others : List Nat} (lines : LinesUp isWrite operation check positions)
    (again : LinesUp isWrite operation check others) : positions = others := by
  induction operation generalizing check positions others with
  | nil =>
    cases check with
    | nil => rw [linesUp_nil.mp lines, linesUp_nil.mp again]
    | cons wanted check => exact absurd lines not_linesUp_nil
  | cons parameter operation ih =>
    cases check with
    | nil => rw [linesUp_nil.mp lines, linesUp_nil.mp again]
    | cons wanted check =>
      by_cases given : gives isWrite parameter wanted = true
      · obtain ⟨rest, rfl, behind⟩ := (linesUp_given given).mp lines
        obtain ⟨other, rfl, behindOther⟩ := (linesUp_given given).mp again
        rw [ih behind behindOther]
      · have notGiven := Bool.eq_false_iff.mpr given
        obtain ⟨_, rest, rfl, behind⟩ := (linesUp_notGiven notGiven).mp lines
        obtain ⟨_, other, rfl, behindOther⟩ := (linesUp_notGiven notGiven).mp again
        rw [ih behind behindOther]

variable {operation : Operation} {check : Check}
  {place : Fin check.parameters.length → Fin operation.parameters.length}

/-- The places of the parameters of a check as positions. -/
def positionsOf (place : Fin check.parameters.length → Fin operation.parameters.length) :
    List Nat := List.ofFn fun index => (place index).val

/-- A parameter gives an argument exactly when it is alike. -/
theorem gives_iff {isWrite : Bool} {parameter wanted : Parameter} :
    gives isWrite parameter wanted = true ↔
      (isWrite = true ∧ parameter.isSelfReference = true ∧ wanted.isSelfReference = true) ∨
        (parameter.isSelfReference = false ∧ TypeText.stripReferences parameter.type =
          TypeText.stripReferences wanted.type) := by
  unfold gives sameType
  cases parameter.isSelfReference <;> simp

/-- A parameter is passed over when it refers to the type itself and is not kept for another. -/
theorem passedOver_iff {isWrite : Bool} {parameter wanted : Parameter} :
    passedOver isWrite parameter wanted = true ↔ parameter.isSelfReference = true ∧
      (isWrite = true → wanted.isSelfReference = false) := by
  unfold passedOver
  cases isWrite <;> simp

/-- What stands at an index of the positions. -/
theorem positionsOf_eq_some_iff {index position : Nat} :
    (positionsOf place)[index]? = some position ↔
      ∃ bound : index < check.parameters.length, (place ⟨index, bound⟩).val = position := by
  rw [positionsOf, List.getElem?_ofFn]
  by_cases bound : index < check.parameters.length
  · simp only [bound, ↓reduceDIte, Option.some.injEq, exists_true_left]
  · simp only [bound, ↓reduceDIte, reduceCtorEq, IsEmpty.exists_iff]

/-- The positions before an index. -/
theorem mem_take_positionsOf {index position : Nat} :
    position ∈ (positionsOf place).take index ↔
      ∃ earlier : Fin check.parameters.length, earlier.val < index ∧
        (place earlier).val = position := by
  rw [List.mem_iff_getElem?]
  simp only [List.getElem?_take]
  constructor
  · rintro ⟨earlier, found⟩
    split at found
    · rename_i before
      obtain ⟨bound, equal⟩ := positionsOf_eq_some_iff.mp found
      exact ⟨⟨earlier, bound⟩, before, equal⟩
    · cases found
  · rintro ⟨earlier, before, equal⟩
    refine ⟨earlier, ?_⟩
    rw [if_pos before]
    exact positionsOf_eq_some_iff.mpr ⟨earlier.isLt, equal⟩

/-- A pairing lines up at its places. -/
theorem Pairs.linesUp (pairs : Pairs operation check place) :
    LinesUp operation.isWrite operation.parameters check.parameters (positionsOf place) := by
  refine ⟨?_, ?_, ?_, ?_⟩
  · exact List.pairwise_ofFn.mpr fun _ _ ordered => pairs.ascending ordered
  · exact List.length_ofFn
  · intro index position wanted found wants
    obtain ⟨bound, rfl⟩ := positionsOf_eq_some_iff.mp found
    obtain ⟨_, rfl⟩ := List.getElem?_eq_some_iff.mp wants
    exact ⟨_, List.getElem?_eq_getElem _, gives_iff.mpr (pairs.alike ⟨index, bound⟩)⟩
  · intro index position skipped wanted parameter found wants below above present
    obtain ⟨bound, rfl⟩ := positionsOf_eq_some_iff.mp found
    obtain ⟨_, rfl⟩ := List.getElem?_eq_some_iff.mp wants
    obtain ⟨inside, rfl⟩ := List.getElem?_eq_some_iff.mp present
    have before : ∀ earlier < (⟨index, bound⟩ : Fin _), (place earlier).val < skipped :=
      fun earlier first => above _ (mem_take_positionsOf.mpr ⟨earlier, first, rfl⟩)
    refine passedOver_iff.mpr ⟨pairs.passed ⟨skipped, inside⟩ ⟨index, bound⟩ below ?_, fun write =>
      pairs.kept write ⟨skipped, inside⟩ ⟨index, bound⟩ below before⟩
    intro other equal
    -- A parameter before this one has a smaller place, every other one a larger place.
    have here : (place other).val = skipped := congrArg Fin.val equal
    by_cases earlier : other < ⟨index, bound⟩
    · exact absurd (before other earlier) (by omega)
    · have later := Fin.le_def.mp (pairs.ascending.monotone (not_lt.mp earlier))
      omega

/-- Positions that line up are the places of a pairing. -/
theorem exists_pairs {positions : List Nat}
    (lines : LinesUp operation.isWrite operation.parameters check.parameters positions) :
    ∃ place, Pairs operation check place ∧ positions = positionsOf place := by
  have there : ∀ index : Fin check.parameters.length, ∃ place : Fin operation.parameters.length,
      positions[index.val]? = some place.val ∧
        gives operation.isWrite operation.parameters[place] check.parameters[index] = true := by
    intro index
    have inside : index.val < positions.length := index.isLt.trans_eq lines.each.symm
    obtain ⟨parameter, present, given⟩ := lines.given index positions[index] _
      (List.getElem?_eq_getElem inside) (List.getElem?_eq_getElem index.isLt)
    obtain ⟨bound, rfl⟩ := List.getElem?_eq_some_iff.mp present
    exact ⟨⟨positions[index], bound⟩, List.getElem?_eq_getElem inside, given⟩
  choose place found given using there
  have same : positions = positionsOf place := by
    refine List.ext_getElem? fun index => ?_
    by_cases bound : index < check.parameters.length
    · rw [found ⟨index, bound⟩]
      exact (positionsOf_eq_some_iff.mpr ⟨bound, rfl⟩).symm
    · have outside := not_lt.mp bound
      rw [List.getElem?_eq_none (lines.each.trans_le outside), positionsOf,
        List.getElem?_eq_none (List.length_ofFn.trans_le outside)]
  subst same
  have ascending : StrictMono place := fun _ _ ordered =>
    List.pairwise_ofFn.mp lines.ascending ordered
  -- What stands before a place and behind all places before that one is passed over for it.
  have passing : ∀ (position : Fin operation.parameters.length) index, position < place index →
      (∀ earlier < index, place earlier < position) →
      passedOver operation.isWrite operation.parameters[position] check.parameters[index] =
        true := by
    intro position index below above
    refine lines.between index (place index) position _ _ (found index)
      (List.getElem?_eq_getElem index.isLt) below ?_ (List.getElem?_eq_getElem position.isLt)
    intro earlier member
    obtain ⟨other, first, rfl⟩ := mem_take_positionsOf.mp member
    exact above other first
  refine ⟨place, ⟨ascending, ?_, ?_, fun index => gives_iff.mp (given index)⟩, rfl⟩
  · intro position last below unmapped
    obtain ⟨index, behind, least⟩ := WellFounded.has_min (wellFounded_lt (α := Fin _))
      {index | position < place index} ⟨last, below⟩
    refine (passedOver_iff.mp (passing position index behind ?_)).1
    intro earlier first
    exact lt_of_le_of_ne (not_lt.mp fun later => least earlier later first) (unmapped earlier)
  · intro write position index below above
    exact (passedOver_iff.mp (passing position index below above)).2 write

/-- The sources of a pairing are those of its places. -/
theorem sources_positionsOf
    (place : Fin check.parameters.length → Fin operation.parameters.length) :
    (positionsOf place).map (sourceAt 0 operation.parameters) =
      List.ofFn fun index => taken operation (place index) := by
  rw [positionsOf, List.map_ofFn]
  congr 1
  funext index
  unfold Function.comp sourceAt taken
  rw [Nat.zero_add]
  by_cases front : (place index).val = 0
  · have first : operation.parameters.head? = some operation.parameters[place index] := by
      rw [List.head?_eq_getElem?, ← front]
      exact List.getElem?_eq_getElem (place index).isLt
    rw [first, Option.any_some]
  · simp only [front, false_and, ↓reduceIte]

/-- What is the target is the first of a pairing, on a write. -/
theorem Pairs.target (pairs : Pairs operation check place) {index : Fin check.parameters.length}
    (target : taken operation (place index) = .target) :
    index.val = 0 ∧ operation.isWrite = true := by
  unfold taken at target
  split at target
  · rename_i itself
    constructor
    · by_contra later
      have before := pairs.ascending (a := ⟨0, by omega⟩) (b := index)
        (Fin.lt_def.mpr (Nat.pos_of_ne_zero later))
      exact absurd (Fin.lt_def.mp before) (by omega)
    · rcases pairs.alike index with ⟨write, _⟩ | ⟨other, _⟩
      · exact write
      · rw [itself.2] at other
        cases other
  · cases target

/-- The sources of a check are found exactly when its parameters are paired with those of the
operation, and then taken from their places. -/
theorem sources_paired {sources : List ArgumentSource} :
    sources? operation check = some sources ↔ ∃ place, Pairs operation check place ∧
      sources = List.ofFn fun index => taken operation (place index) := by
  rw [sources_eq_some_iff]
  constructor
  · rintro ⟨positions, lines, rfl⟩
    obtain ⟨place, pairs, rfl⟩ := exists_pairs lines
    exact ⟨place, pairs, sources_positionsOf place⟩
  · rintro ⟨place, pairs, rfl⟩
    exact ⟨positionsOf place, pairs.linesUp, (sources_positionsOf place).symm⟩

/-- The sources of a check are found exactly when its parameters are paired with those of the
operation, which is possible in one way at most; they are taken from the places, and only the first
of them can be the target, on a write. -/
theorem sources_exactly (operation : Operation) (check : Check) :
    (∀ sources, sources? operation check = some sources ↔
      ∃ place, Pairs operation check place ∧
        sources = List.ofFn fun index => taken operation (place index)) ∧
    (∀ place other, Pairs operation check place → Pairs operation check other → place = other) ∧
    ∀ sources index, sources? operation check = some sources → sources[index]? = some .target →
      index = 0 ∧ operation.isWrite = true := by
  refine ⟨fun _ => sources_paired, ?_, ?_⟩
  · intro place other pairs others
    have equal := List.ofFn_injective (linesUp_unique pairs.linesUp others.linesUp)
    exact funext fun index => Fin.ext (congrFun equal index)
  · intro sources index found target
    obtain ⟨place, pairs, rfl⟩ := sources_paired.mp found
    rw [List.getElem?_ofFn] at target
    split at target
    · exact pairs.target (Option.some.inj target)
    · cases target

/-- A write with something injected and another account between its target and an amount. -/
def sampleTransfer : Operation where
  kind := .update
  declaringType := "Account"
  method := "transfer"
  handler := "Account::transfer"
  publicName := "transfer"
  shape := .value
  remote := true
  parameters := [⟨"target", "Account", .selfReference⟩,
    ⟨"token", "&CancellationToken", .injected⟩, ⟨"other", "&Account", .selfReference⟩,
    ⟨"amount", "i64", .business⟩]
  index := 0

/-- A check about the target, what is injected, and the amount. -/
def sampleTransferCheck : Check where
  mask := ⟨8⟩
  declaringType := "AccountAuth"
  method := "can_transfer"
  parameters := [⟨"account", "&Account", .selfReference⟩,
    ⟨"token", "&CancellationToken", .injected⟩, ⟨"amount", "i64", .business⟩]
  remote := false
  awaitable := false

/-- The other account is passed over for the amount. -/
theorem transfer_sources :
    sources? sampleTransfer sampleTransferCheck = some [.target, .parameter 1, .parameter 3] ∧
    (∃ place, Pairs sampleTransfer sampleTransferCheck place ∧
      (∀ other, Pairs sampleTransfer sampleTransferCheck other → place = other) ∧
      [.target, .parameter 1, .parameter 3] =
        List.ofFn fun index => taken sampleTransfer (place index)) ∧
    sampleTransfer.isWrite = true := by
  have found : sources? sampleTransfer sampleTransferCheck =
      some [.target, .parameter 1, .parameter 3] := by decide +kernel
  obtain ⟨paired, once, first⟩ := sources_exactly sampleTransfer sampleTransferCheck
  obtain ⟨place, pairs, sources⟩ := (paired _).mp found
  exact ⟨found, ⟨place, pairs, fun other => once place other pairs, sources⟩,
    (first _ 0 found rfl).2⟩

end DomainFactory.Binding
