import DomainFactory.Binding

/-!
# Alignment of parameters

A check can be asked about an operation when each of its parameters finds a parameter of the
operation, from left to right, with nothing but references to the type itself passed over. The walk
that binds a check finds such positions whenever there are any, and takes the arguments from there.
-/
namespace DomainFactory.Binding

/-- Whether a parameter of an operation gives the argument of a parameter of a check: two references
to the type itself on a write, or a parameter that is no such reference and has the same type. -/
def gives (isWrite : Bool) (parameter wanted : Parameter) : Bool :=
  if parameter.isSelfReference then isWrite && wanted.isSelfReference
  else sameType parameter wanted

/-- Whether a parameter of an operation is passed over for a parameter of a check: it refers to the
type itself, and on a write the parameter of the check does not. -/
def passedOver (isWrite : Bool) (parameter wanted : Parameter) : Bool :=
  parameter.isSelfReference && !(isWrite && wanted.isSelfReference)

/-- The parameters of a check line up with those of an operation at some positions: the positions
ascend, one for each parameter of the check, the parameter there gives its argument, and every one
between is passed over. -/
structure LinesUp (isWrite : Bool) (operation check : List Parameter) (positions : List Nat) :
    Prop where
  ascending : positions.Pairwise (· < ·)
  each : positions.length = check.length
  given : ∀ (index position : Nat) (wanted : Parameter),
    positions[index]? = some position → check[index]? = some wanted →
    ∃ parameter, operation[position]? = some parameter ∧ gives isWrite parameter wanted = true
  between : ∀ (index position skipped : Nat) (wanted parameter : Parameter),
    positions[index]? = some position → check[index]? = some wanted → skipped < position →
    (∀ earlier ∈ positions.take index, earlier < skipped) →
    operation[skipped]? = some parameter → passedOver isWrite parameter wanted = true

/-- Where the argument found at a position comes from, positions counted from a start: a reference
to the type itself in front of everything is the target. -/
def sourceAt (start : Nat) (operation : List Parameter) (position : Nat) : ArgumentSource :=
  if start + position = 0 ∧ operation.head?.any Parameter.isSelfReference = true then .target
  else .parameter (start + position)

variable {isWrite : Bool} {parameter wanted : Parameter} {operation check : List Parameter}

/-- A parameter that is passed over gives no argument. -/
theorem gives_eq_false (passed : passedOver isWrite parameter wanted = true) :
    gives isWrite parameter wanted = false := by
  simp only [passedOver, Bool.and_eq_true, Bool.not_eq_eq_eq_not, Bool.not_true] at passed
  simp only [gives, passed.1, passed.2, ↓reduceIte]

/-- A check without parameters lines up at no positions. -/
theorem linesUp_nil {positions : List Nat} :
    LinesUp isWrite operation [] positions ↔ positions = [] := by
  constructor
  · intro lines
    exact List.eq_nil_of_length_eq_zero lines.each
  · intro none
    subst none
    refine ⟨List.Pairwise.nil, rfl, ?_, ?_⟩
    · intro index position wanted found
      simp only [List.getElem?_nil, reduceCtorEq] at found
    · intro index position skipped wanted parameter found
      simp only [List.getElem?_nil, reduceCtorEq] at found

/-- A check with parameters does not line up with an operation without any. -/
theorem not_linesUp_nil {positions : List Nat} :
    ¬ LinesUp isWrite [] (wanted :: check) positions := by
  intro lines
  cases positions with
  | nil => cases lines.each
  | cons position positions =>
    obtain ⟨parameter, found, _⟩ := lines.given 0 position wanted rfl rfl
    simp only [List.getElem?_nil, reduceCtorEq] at found

/-- Positions that start in front line up when the first parameter gives the first argument and the
others line up behind it. -/
theorem linesUp_front {positions : List Nat} :
    LinesUp isWrite (parameter :: operation) (wanted :: check) (0 :: positions.map (· + 1)) ↔
      gives isWrite parameter wanted = true ∧ LinesUp isWrite operation check positions := by
  constructor
  · intro lines
    refine ⟨?_, ?_, ?_, ?_, ?_⟩
    · obtain ⟨first, found, gives⟩ := lines.given 0 0 wanted rfl rfl
      cases found
      exact gives
    · have later := (List.pairwise_cons.mp lines.ascending).2
      exact (List.pairwise_map.mp later).imp fun ordered => Nat.lt_of_succ_lt_succ ordered
    · simpa only [List.length_cons, List.length_map, Nat.add_right_cancel_iff] using lines.each
    · intro index position wanted found wants
      exact lines.given (index + 1) (position + 1) wanted (by simp [found]) wants
    · intro index position skipped wanted parameter found wants below above present
      refine lines.between (index + 1) (position + 1) (skipped + 1) wanted parameter
        (by simp [found]) wants (by omega) ?_ present
      intro earlier member
      rw [List.take_succ_cons, ← List.map_take] at member
      rcases List.mem_cons.mp member with first | later
      · omega
      · obtain ⟨before, present, rfl⟩ := List.mem_map.mp later
        exact Nat.succ_lt_succ (above before present)
  · rintro ⟨gives, lines⟩
    refine ⟨?_, ?_, ?_, ?_⟩
    · refine List.pairwise_cons.mpr ⟨?_, ?_⟩
      · intro position member
        obtain ⟨before, _, rfl⟩ := List.mem_map.mp member
        exact Nat.succ_pos before
      · exact List.pairwise_map.mpr (lines.ascending.imp fun ordered => Nat.succ_lt_succ ordered)
    · simpa only [List.length_cons, List.length_map, Nat.add_right_cancel_iff] using lines.each
    · intro index position wanted found wants
      cases index with
      | zero =>
        cases found
        cases wants
        exact ⟨parameter, rfl, gives⟩
      | succ index =>
        rw [List.getElem?_cons_succ, List.getElem?_map] at found
        obtain ⟨before, there, rfl⟩ := Option.map_eq_some_iff.mp found
        exact lines.given index before wanted there wants
    · intro index position skipped wanted other found wants below above present
      cases index with
      | zero =>
        cases found
        exact absurd below (Nat.not_lt_zero skipped)
      | succ index =>
        rw [List.getElem?_cons_succ, List.getElem?_map] at found
        obtain ⟨before, there, rfl⟩ := Option.map_eq_some_iff.mp found
        rw [List.take_succ_cons, ← List.map_take] at above
        have positive : 0 < skipped := above 0 List.mem_cons_self
        obtain ⟨passed, rfl⟩ := Nat.exists_eq_add_one_of_ne_zero (Nat.ne_of_gt positive)
        refine lines.between index before passed wanted other there wants (by omega) ?_ present
        intro earlier member
        have later := above (earlier + 1)
          (List.mem_cons_of_mem _ (List.mem_map.mpr ⟨earlier, member, rfl⟩))
        omega

/-- Positions behind the first parameter line up when that is passed over for the first argument
and they line up with the others. -/
theorem linesUp_behind {positions : List Nat} :
    LinesUp isWrite (parameter :: operation) (wanted :: check) (positions.map (· + 1)) ↔
      passedOver isWrite parameter wanted = true ∧
        LinesUp isWrite operation (wanted :: check) positions := by
  constructor
  · intro lines
    refine ⟨?_, ?_, ?_, ?_, ?_⟩
    · cases positions with
      | nil => cases lines.each
      | cons position positions =>
        refine lines.between 0 (position + 1) 0 wanted parameter rfl rfl (Nat.succ_pos _) ?_ rfl
        intro earlier member
        cases member
    · exact (List.pairwise_map.mp lines.ascending).imp fun ordered =>
        Nat.lt_of_succ_lt_succ ordered
    · simpa only [List.length_map] using lines.each
    · intro index position wanted found wants
      exact lines.given index (position + 1) wanted (by simp [found]) wants
    · intro index position skipped wanted parameter found wants below above present
      refine lines.between index (position + 1) (skipped + 1) wanted parameter
        (by simp [found]) wants (by omega) ?_ present
      intro earlier member
      rw [← List.map_take] at member
      obtain ⟨before, present, rfl⟩ := List.mem_map.mp member
      exact Nat.succ_lt_succ (above before present)
  · rintro ⟨passed, lines⟩
    refine ⟨?_, ?_, ?_, ?_⟩
    · exact List.pairwise_map.mpr (lines.ascending.imp fun ordered => Nat.succ_lt_succ ordered)
    · simpa only [List.length_map] using lines.each
    · intro index position wanted found wants
      rw [List.getElem?_map] at found
      obtain ⟨before, there, rfl⟩ := Option.map_eq_some_iff.mp found
      exact lines.given index before wanted there wants
    · intro index position skipped other kept found wants below above present
      rw [List.getElem?_map] at found
      obtain ⟨before, there, rfl⟩ := Option.map_eq_some_iff.mp found
      rw [← List.map_take] at above
      cases skipped with
      | zero =>
        -- Nothing stands before the first parameter, so it is passed over for the first argument.
        cases index with
        | zero =>
          cases wants
          cases present
          exact passed
        | succ index =>
          cases positions with
          | nil => cases lines.each
          | cons first rest =>
            have impossible := above (first + 1) List.mem_cons_self
            omega
      | succ skipped =>
        refine lines.between index before skipped other kept there wants (by omega) ?_ present
        intro earlier member
        have later := above (earlier + 1) (List.mem_map.mpr ⟨earlier, member, rfl⟩)
        omega

/-- Positions behind the first one are positions among the others. -/
theorem lowered {positions : List Nat} (positive : ∀ position ∈ positions, 0 < position) :
    positions = (positions.map (· - 1)).map (· + 1) := by
  rw [List.map_map]
  refine (List.map_id positions).symm.trans (List.map_congr_left ?_)
  intro position member
  exact (Nat.sub_add_cancel (positive position member)).symm

/-- Ascending positions start in front or lie behind the first one. -/
theorem front_or_behind {positions : List Nat} (ascending : positions.Pairwise (· < ·)) :
    (∃ rest : List Nat, positions = 0 :: rest.map (· + 1)) ∨
      ∃ rest : List Nat, positions = rest.map (· + 1) := by
  cases positions with
  | nil => exact Or.inr ⟨[], rfl⟩
  | cons first rest =>
    have above := (List.pairwise_cons.mp ascending).1
    cases first with
    | zero => exact Or.inl ⟨_, congrArg (0 :: ·) (lowered above)⟩
    | succ first =>
      refine Or.inr ⟨_, lowered ?_⟩
      intro position member
      rcases List.mem_cons.mp member with equal | later
      · omega
      · exact Nat.lt_trans (Nat.succ_pos first) (above position later)

/-- Behind the first parameter, sources are counted from the next start. -/
theorem sourceAt_behind (start : Nat) (positions : List Nat) :
    (positions.map (· + 1)).map (sourceAt start (parameter :: operation)) =
      positions.map (sourceAt (start + 1) operation) := by
  rw [List.map_map]
  apply List.map_congr_left
  intro position _
  have behind : ¬ start + (position + 1) = 0 := by omega
  have later : ¬ start + 1 + position = 0 := by omega
  simp only [Function.comp_apply, sourceAt, behind, later, false_and, ↓reduceIte]
  exact congrArg ArgumentSource.parameter (by omega)

/-- When the first parameter gives the first argument, its position comes first. -/
theorem linesUp_given {positions : List Nat} (given : gives isWrite parameter wanted = true) :
    LinesUp isWrite (parameter :: operation) (wanted :: check) positions ↔
      ∃ rest, positions = 0 :: rest.map (· + 1) ∧ LinesUp isWrite operation check rest := by
  constructor
  · intro lines
    rcases front_or_behind lines.ascending with ⟨rest, rfl⟩ | ⟨rest, rfl⟩
    · exact ⟨rest, rfl, (linesUp_front.mp lines).2⟩
    · have contrary := gives_eq_false (linesUp_behind.mp lines).1
      rw [given] at contrary
      cases contrary
  · rintro ⟨rest, rfl, lines⟩
    exact linesUp_front.mpr ⟨given, lines⟩

/-- When the first parameter gives no argument, it has to be passed over. -/
theorem linesUp_notGiven {positions : List Nat} (kept : gives isWrite parameter wanted = false) :
    LinesUp isWrite (parameter :: operation) (wanted :: check) positions ↔
      passedOver isWrite parameter wanted = true ∧ ∃ rest, positions = rest.map (· + 1) ∧
        LinesUp isWrite operation (wanted :: check) rest := by
  constructor
  · intro lines
    rcases front_or_behind lines.ascending with ⟨rest, rfl⟩ | ⟨rest, rfl⟩
    · have contrary := (linesUp_front.mp lines).1
      rw [kept] at contrary
      cases contrary
    · have both := linesUp_behind.mp lines
      exact ⟨both.1, rest, rfl, both.2⟩
  · rintro ⟨passed, rest, rfl, lines⟩
    exact linesUp_behind.mpr ⟨passed, lines⟩

/-- A walk that takes the first argument from the first parameter finds the sources of a check when
the rest of the walk does. -/
theorem sources_given {start : Nat} {found : Option (List ArgumentSource)}
    {sources : List ArgumentSource} {source : ArgumentSource}
    (given : gives isWrite parameter wanted = true)
    (here : sourceAt start (parameter :: operation) 0 = source)
    (rest : ∀ {sources : List ArgumentSource}, found = some sources ↔
      ∃ positions, LinesUp isWrite operation check positions ∧
        sources = positions.map (sourceAt (start + 1) operation)) :
    found.map (source :: ·) = some sources ↔
      ∃ positions, LinesUp isWrite (parameter :: operation) (wanted :: check) positions ∧
        sources = positions.map (sourceAt start (parameter :: operation)) := by
  constructor
  · intro mapped
    obtain ⟨later, walked, rfl⟩ := Option.map_eq_some_iff.mp mapped
    obtain ⟨positions, lines, rfl⟩ := rest.mp walked
    refine ⟨0 :: positions.map (· + 1), linesUp_front.mpr ⟨given, lines⟩, ?_⟩
    rw [List.map_cons, here, sourceAt_behind]
  · rintro ⟨positions, lines, rfl⟩
    obtain ⟨later, rfl, behind⟩ := (linesUp_given given).mp lines
    refine Option.map_eq_some_iff.mpr ⟨_, rest.mpr ⟨later, behind, rfl⟩, ?_⟩
    rw [List.map_cons, here, sourceAt_behind]

/-- The walk from a start finds the sources of a check exactly when its parameters line up. -/
theorem sourcesFrom_eq_some_iff {start : Nat} {sources : List ArgumentSource} :
    sourcesFrom? isWrite start operation check = some sources ↔
      ∃ positions, LinesUp isWrite operation check positions ∧
        sources = positions.map (sourceAt start operation) := by
  fun_induction sourcesFrom? isWrite start operation check generalizing sources with
  | case1 start operation =>
    simp only [linesUp_nil, exists_eq_left, List.map_nil, Option.some.injEq]
    exact eq_comm
  | case2 start wanted check =>
    simp only [not_linesUp_nil, false_and, exists_false, reduceCtorEq]
  | case3 start parameter operation wanted check itself both source =>
    rename_i ih
    refine sources_given ?_ ?_ ih
    · simp only [gives, itself, both, ↓reduceIte]
    · simp only [sourceAt, Nat.add_zero, List.head?_cons, Option.any_some, itself, and_true,
        source]
  | case4 start parameter operation wanted check itself apart ih =>
    have kept : gives isWrite parameter wanted = false := by
      simp only [gives, itself, Bool.eq_false_iff.mpr apart, ↓reduceIte]
    have passed : passedOver isWrite parameter wanted = true := by
      simp only [passedOver, itself, Bool.eq_false_iff.mpr apart, Bool.not_false, Bool.and_self]
    rw [ih]
    constructor
    · rintro ⟨positions, lines, rfl⟩
      exact ⟨positions.map (· + 1), linesUp_behind.mpr ⟨passed, lines⟩,
        (sourceAt_behind start positions).symm⟩
    · rintro ⟨positions, lines, rfl⟩
      obtain ⟨_, rest, rfl, behind⟩ := (linesUp_notGiven kept).mp lines
      exact ⟨rest, behind, sourceAt_behind start rest⟩
  | case5 start parameter operation wanted check other same ih =>
    refine sources_given ?_ ?_ ih
    · simp only [gives, Bool.eq_false_iff.mpr other, Bool.false_eq_true, ↓reduceIte, same]
    · simp only [sourceAt, Nat.add_zero, List.head?_cons, Option.any_some,
        Bool.eq_false_iff.mpr other, Bool.false_eq_true, and_false, ↓reduceIte]
  | case6 start parameter operation wanted check other differs =>
    have kept : gives isWrite parameter wanted = false := by
      simp only [gives, Bool.eq_false_iff.mpr other, Bool.false_eq_true, ↓reduceIte,
        Bool.eq_false_iff.mpr differs]
    have stays : passedOver isWrite parameter wanted = false := by
      simp only [passedOver, Bool.eq_false_iff.mpr other, Bool.false_and]
    simp only [linesUp_notGiven kept, stays, Bool.false_eq_true, false_and, exists_false,
      reduceCtorEq]

/-- What counts of a parameter of an operation: its type, unless it refers to the type itself. -/
def face (parameter : Parameter) : Option String :=
  if parameter.isSelfReference then none else some (TypeText.stripReferences parameter.type)

/-- Parameters with one face give the same arguments. -/
theorem gives_face {left right : Parameter} (same : face left = face right) :
    gives isWrite left wanted = gives isWrite right wanted := by
  unfold face at same
  unfold gives sameType
  by_cases leftSelf : left.isSelfReference = true <;>
    by_cases rightSelf : right.isSelfReference = true
  · rw [if_pos leftSelf, if_pos rightSelf]
  · rw [if_pos leftSelf, if_neg rightSelf] at same
    cases same
  · rw [if_neg leftSelf, if_pos rightSelf] at same
    cases same
  · rw [if_neg leftSelf, if_neg rightSelf] at same
    rw [if_neg leftSelf, if_neg rightSelf, Option.some.inj same]

/-- Parameters with one face are passed over together. -/
theorem passedOver_face {left right : Parameter} (same : face left = face right) :
    passedOver isWrite left wanted = passedOver isWrite right wanted := by
  unfold face at same
  unfold passedOver
  by_cases leftSelf : left.isSelfReference = true <;>
    by_cases rightSelf : right.isSelfReference = true
  · rw [leftSelf, rightSelf]
  · rw [if_pos leftSelf, if_neg rightSelf] at same
    cases same
  · rw [if_neg leftSelf, if_pos rightSelf] at same
    cases same
  · rw [Bool.eq_false_iff.mpr leftSelf, Bool.eq_false_iff.mpr rightSelf]

/-- Whether a check lines up depends on the faces of the parameters of the operation. -/
theorem linesUp_faces {other : List Parameter} {positions : List Nat}
    (same : operation.map face = other.map face)
    (lines : LinesUp isWrite operation check positions) :
    LinesUp isWrite other check positions := by
  have matching : ∀ position : Nat, operation[position]?.map face = other[position]?.map face := by
    intro position
    simpa only [List.getElem?_map] using congrArg (fun list => list[position]?) same
  refine ⟨lines.ascending, lines.each, ?_, ?_⟩
  · intro index position wanted found wants
    obtain ⟨parameter, present, given⟩ := lines.given index position wanted found wants
    have faces := matching position
    rw [present, Option.map_some] at faces
    obtain ⟨counterpart, there, equal⟩ := Option.map_eq_some_iff.mp faces.symm
    exact ⟨counterpart, there, (gives_face equal).trans given⟩
  · intro index position skipped wanted counterpart found wants below above there
    have faces := matching skipped
    rw [there, Option.map_some] at faces
    obtain ⟨parameter, present, equal⟩ := Option.map_eq_some_iff.mp faces
    rw [← passedOver_face equal]
    exact lines.between index position skipped wanted parameter found wants below above present

/-- The sources of a check are found exactly when its parameters line up with those of the
operation, and then come from the positions found. -/
theorem sources_eq_some_iff {operation : Operation} {check : Check}
    {sources : List ArgumentSource} :
    sources? operation check = some sources ↔
      ∃ positions, LinesUp operation.isWrite operation.parameters check.parameters positions ∧
        sources = positions.map (sourceAt 0 operation.parameters) :=
  sourcesFrom_eq_some_iff

/-- There is one source for each parameter of a check. -/
theorem sources_length {operation : Operation} {check : Check} {sources : List ArgumentSource}
    (found : sources? operation check = some sources) :
    sources.length = check.parameters.length := by
  obtain ⟨positions, lines, rfl⟩ := sources_eq_some_iff.mp found
  rw [List.length_map]
  exact lines.each

end DomainFactory.Binding
