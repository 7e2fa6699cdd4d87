import DomainFactory.Method.Synthesis

/-!
# Writes behind saves

Writes with one list of parameter types make a group, and a group makes a save. Each branch of a
save is therefore the position of a write of the kind of that branch that takes parameters of the
types of those of the save, and the parameters of the save are those of one of its writes.
-/
namespace DomainFactory

/-- Every branch of a save is the position of a write of the kind of that branch, whose parameters
have the types of those of the save. -/
def SaveSpec.Joins (specs : List MethodSpec) (save : SaveSpec) : Prop :=
  ∀ branch position, save.branch branch = some position →
    ∃ name bound, specs[position]? = some (.write name bound) ∧
      bound.operation.kind = branch.kind ∧
      bound.operation.publicTypes = save.parameters.map Parameter.type

/-- The parameters of a save are those of one of its writes. -/
def SaveSpec.TakesFrom (specs : List MethodSpec) (save : SaveSpec) : Prop :=
  ∃ branch position name bound, save.branch branch = some position ∧
    specs[position]? = some (.write name bound) ∧
    bound.operation.publicParameters = save.parameters

/-- A kind of writes has a branch. -/
theorem SaveBranch.exists_ofKind {kind : Kind} (writes : kind.isWrite = true) :
    ∃ branch, ofKind? kind = some branch := by
  cases kind with
  | insert | update | delete => exact ⟨_, rfl⟩
  | create | fetch | execute => cases writes

/-- A branch serves writes of one kind. -/
theorem SaveBranch.ofKind_eq_some {kind : Kind} {branch : SaveBranch}
    (served : ofKind? kind = some branch) : kind = branch.kind := by
  cases kind <;> cases served <;> rfl

namespace SaveSpec

/-- The save with one more write. -/
def joined (save : SaveSpec) (position : Nat) (bound : BoundOperation) (branch : SaveBranch) :
    SaveSpec :=
  { save.setBranch position branch with
    gated := save.gated || bound.isGated
    parameters :=
      if save.parameters.isEmpty then bound.operation.publicParameters else save.parameters }

variable (save : SaveSpec) (position : Nat) (bound : BoundOperation) (branch : SaveBranch)

/-- Joining a write does not name the save that reports denial. -/
@[simp] theorem joined_tryName :
    (save.joined position bound branch).tryName = save.tryName := by
  cases branch <;> rfl

/-- The write that joins a save serves its branch. -/
@[simp] theorem joined_branch_same :
    (save.joined position bound branch).branch branch = some position := by
  cases branch <;> rfl

/-- Joining a write keeps the writes of other branches. -/
theorem joined_branch_other {other : SaveBranch} (apart : other ≠ branch) :
    (save.joined position bound branch).branch other = save.branch other := by
  cases branch <;> cases other <;> first | rfl | exact absurd rfl apart

/-- The parameters of a save are those of the first joined write that has any. -/
@[simp] theorem joined_parameters : (save.joined position bound branch).parameters =
    if save.parameters.isEmpty then bound.operation.publicParameters else save.parameters := by
  cases branch <;> rfl

end SaveSpec

namespace Synthesis

/-- Whether the members of a group are writes of a list at their positions, whose parameters have
the types of the group. -/
def Collects (specs : List MethodSpec) (group : WriteGroup) : Prop :=
  ∀ position bound, (position, bound) ∈ group.2 →
    bound.operation.publicTypes = group.1 ∧ ∃ name, specs[position]? = some (.write name bound)

/-- Groups collect writes when one more is added. -/
theorem addToGroup_collects {specs : List MethodSpec} {groups : List WriteGroup} {position : Nat}
    {name : String} {bound : BoundOperation} (found : specs[position]? = some (.write name bound))
    (collected : ∀ group ∈ groups, Collects specs group) :
    ∀ group ∈ addToGroup position bound groups, Collects specs group := by
  induction groups with
  | nil =>
    intro group member
    rw [addToGroup, List.mem_singleton] at member
    subst member
    intro place other among
    cases List.mem_singleton.mp among
    exact ⟨rfl, name, found⟩
  | cons first groups ih =>
    obtain ⟨types, members⟩ := first
    have firstCollects := collected _ List.mem_cons_self
    have laterCollects : ∀ group ∈ groups, Collects specs group :=
      fun group member => collected group (List.mem_cons_of_mem _ member)
    intro group member
    rw [addToGroup] at member
    split at member
    next same =>
      rcases List.mem_cons.mp member with rfl | later
      · intro place other among
        rcases List.mem_append.mp among with earlier | new
        · exact firstCollects place other earlier
        · cases List.mem_singleton.mp new
          exact ⟨same.symm, name, found⟩
      · exact laterCollects group later
    next =>
      rcases List.mem_cons.mp member with rfl | later
      · exact firstCollects
      · exact ih laterCollects group later

/-- The groups of a list collect its writes. -/
theorem groupsFrom_collects {specs rest : List MethodSpec} {position : Nat}
    {groups : List WriteGroup} (left : specs.drop position = rest)
    (collected : ∀ group ∈ groups, Collects specs group) :
    ∀ group ∈ groupsFrom position groups rest, Collects specs group := by
  induction rest generalizing position groups with
  | nil => exact collected
  | cons spec rest ih =>
    have found : specs[position]? = some spec := by
      rw [← List.head?_drop, left, List.head?_cons]
    have next : specs.drop (position + 1) = rest := by
      rw [← List.tail_drop, left, List.tail_cons]
    cases spec with
    | write name bound => exact ih next (addToGroup_collects found collected)
    | read name bound => exact ih next collected
    | save save => exact ih next collected
    | probe probe => exact ih next collected

/-- No group is without a write when one more is added. -/
theorem addToGroup_ne_nil {groups : List WriteGroup} {position : Nat} {bound : BoundOperation}
    (some : ∀ group ∈ groups, group.2 ≠ []) :
    ∀ group ∈ addToGroup position bound groups, group.2 ≠ [] := by
  induction groups with
  | nil =>
    intro group member
    rw [addToGroup, List.mem_singleton] at member
    rw [member]
    exact List.cons_ne_nil _ _
  | cons first groups ih =>
    obtain ⟨types, members⟩ := first
    have later : ∀ group ∈ groups, group.2 ≠ [] :=
      fun group member => some group (List.mem_cons_of_mem _ member)
    intro group member
    rw [addToGroup] at member
    split at member
    · rcases List.mem_cons.mp member with rfl | behind
      · exact List.append_ne_nil_of_right_ne_nil _ (List.cons_ne_nil _ _)
      · exact later group behind
    · rcases List.mem_cons.mp member with rfl | behind
      · exact some _ List.mem_cons_self
      · exact ih later group behind

/-- No group of a list is without a write. -/
theorem groupsFrom_ne_nil {specs : List MethodSpec} {position : Nat} {groups : List WriteGroup}
    (some : ∀ group ∈ groups, group.2 ≠ []) :
    ∀ group ∈ groupsFrom position groups specs, group.2 ≠ [] := by
  induction specs generalizing position groups with
  | nil => exact some
  | cons spec specs ih =>
    cases spec with
    | write name bound => exact ih (addToGroup_ne_nil some)
    | read name bound => exact ih some
    | save save => exact ih some
    | probe probe => exact ih some

/-- A write of a group joins the save, whose branch for it is free. -/
theorem saveOf_cons {typeName : String} {specs : List MethodSpec} {types : List String}
    {save result : SaveSpec} {position : Nat} {bound : BoundOperation} {branch : SaveBranch}
    {members : List (Nat × BoundOperation)}
    (served : SaveBranch.ofKind? bound.operation.kind = some branch)
    (made : saveOf typeName specs types save ((position, bound) :: members) = .ok result) :
    save.branch branch = none ∧
      saveOf typeName specs types (save.joined position bound branch) members = .ok result := by
  rw [saveOf, served] at made
  cases free : save.branch branch with
  | some existing =>
    simp only [free] at made
    cases made
  | none =>
    simp only [free] at made
    refine ⟨rfl, ?_⟩
    cases branch <;> exact made

/-- What holds of a save without writes, and keeps holding when a write joins it in a branch that is
free, holds of the save of a group. -/
theorem saveOf_induction {typeName : String} {specs : List MethodSpec} {types : List String}
    {holds : SaveSpec → Prop} {members : List (Nat × BoundOperation)} {save result : SaveSpec}
    (joins : ∀ save position bound branch, (position, bound) ∈ members →
      SaveBranch.ofKind? bound.operation.kind = some branch → save.branch branch = none →
        holds save → holds (save.joined position bound branch))
    (start : holds save) (made : saveOf typeName specs types save members = .ok result) :
    holds result := by
  induction members generalizing save with
  | nil =>
    cases made
    exact start
  | cons member members ih =>
    obtain ⟨position, bound⟩ := member
    have later := fun save place other branch among =>
      joins save place other branch (List.mem_cons_of_mem _ among)
    cases served : SaveBranch.ofKind? bound.operation.kind with
    | none =>
      rw [saveOf, served] at made
      exact ih later start made
    | some branch =>
      obtain ⟨free, made⟩ := saveOf_cons served made
      exact ih later (joins save position bound branch List.mem_cons_self served free start) made

/-- A save is the save of a group. -/
theorem of_mem_savesFrom {typeName : String} {specs : List MethodSpec} {order : Nat}
    {groups : List WriteGroup} {save : SaveSpec}
    (member : save ∈ (savesFrom typeName specs order groups).result) :
    ∃ group ∈ groups, ∃ place,
      saveOf typeName specs group.1 { order := place } group.2 = .ok save := by
  induction groups generalizing order with
  | nil => cases member
  | cons group groups ih =>
    obtain ⟨types, members⟩ := group
    rw [savesFrom] at member
    split at member
    next first made =>
      rcases List.mem_cons.mp member with rfl | later
      · exact ⟨(types, members), List.mem_cons_self, order, made⟩
      · obtain ⟨group, among, made⟩ := ih later
        exact ⟨group, List.mem_cons_of_mem _ among, made⟩
    next =>
      obtain ⟨group, among, made⟩ := ih member
      exact ⟨group, List.mem_cons_of_mem _ among, made⟩

/-- The save of a group that collects writes joins them. -/
theorem saveOf_joins {typeName : String} {specs : List MethodSpec} {group : WriteGroup}
    {order : Nat} {save : SaveSpec} (collects : Collects specs group)
    (made : saveOf typeName specs group.1 { order } group.2 = .ok save) :
    save.tryName = none ∧ save.Joins specs := by
  -- Parameters of a save have the types of the group as soon as there is a parameter or a branch.
  let holds (save : SaveSpec) : Prop := save.tryName = none ∧
    (save.parameters ≠ [] → save.parameters.map Parameter.type = group.1) ∧
    ∀ branch position, save.branch branch = some position →
      save.parameters.map Parameter.type = group.1 ∧
        ∃ name bound, specs[position]? = some (.write name bound) ∧
          bound.operation.kind = branch.kind ∧ bound.operation.publicTypes = group.1
  have start : holds { order } := by
    refine ⟨rfl, fun some => absurd rfl some, ?_⟩
    intro branch position found
    cases branch <;> cases found
  have joins : ∀ save position bound branch, (position, bound) ∈ group.2 →
      SaveBranch.ofKind? bound.operation.kind = some branch → save.branch branch = none →
        holds save → holds (save.joined position bound branch) := by
    intro save position bound branch among served _ held
    obtain ⟨bare, typed, branches⟩ := held
    obtain ⟨types, name, found⟩ := collects position bound among
    have typedNow : (save.joined position bound branch).parameters.map Parameter.type =
        group.1 := by
      rw [SaveSpec.joined_parameters]
      split
      next => exact types
      next some => exact typed (fun none => some (List.isEmpty_iff.mpr none))
    refine ⟨(save.joined_tryName ..).trans bare, fun _ => typedNow, ?_⟩
    intro other place branched
    refine ⟨typedNow, ?_⟩
    by_cases same : other = branch
    · subst same
      cases (save.joined_branch_same position bound other).symm.trans branched
      exact ⟨name, bound, found, SaveBranch.ofKind_eq_some served, types⟩
    · rw [save.joined_branch_other position bound branch same] at branched
      exact (branches other place branched).2
  obtain ⟨bare, _, branches⟩ := saveOf_induction joins start made
  refine ⟨bare, ?_⟩
  intro branch position branched
  obtain ⟨typed, name, bound, found, kind, types⟩ := branches branch position branched
  exact ⟨name, bound, found, kind, types.trans typed.symm⟩

/-- The save of a group that collects writes has the parameters of one of them. -/
theorem saveOf_takes {typeName : String} {specs : List MethodSpec} {group : WriteGroup}
    {order : Nat} {save : SaveSpec} (collects : Collects specs group) (some : group.2 ≠ [])
    (writes : ∀ position bound, (position, bound) ∈ group.2 → bound.operation.isWrite = true)
    (made : saveOf typeName specs group.1 { order } group.2 = .ok save) :
    save.TakesFrom specs := by
  obtain ⟨types, members⟩ := group
  cases members with
  | nil => exact absurd rfl some
  | cons first members =>
    obtain ⟨position, bound⟩ := first
    obtain ⟨branch, served⟩ := SaveBranch.exists_ofKind (writes position bound List.mem_cons_self)
    obtain ⟨_, name, found⟩ := collects position bound List.mem_cons_self
    -- The first write sets the parameters; a later one takes over only where there are none.
    have start : (SaveSpec.joined { order } position bound branch).TakesFrom specs := by
      refine ⟨branch, position, name, bound, SaveSpec.joined_branch_same .., found, ?_⟩
      rw [SaveSpec.joined_parameters]
      rfl
    refine saveOf_induction ?_ start (saveOf_cons served made).2
    intro save place other next among _ free held
    obtain ⟨_, title, there⟩ := collects place other (List.mem_cons_of_mem _ among)
    by_cases bare : save.parameters.isEmpty = true
    · refine ⟨next, place, title, other, SaveSpec.joined_branch_same .., there, ?_⟩
      rw [SaveSpec.joined_parameters, if_pos bare]
    · obtain ⟨kept, spot, called, write, branched, stands, parameters⟩ := held
      have apart : kept ≠ next := by
        rintro rfl
        cases free.symm.trans branched
      refine ⟨kept, spot, called, write, ?_, stands, ?_⟩
      · rw [SaveSpec.joined_branch_other save place other next apart, branched]
      · rw [SaveSpec.joined_parameters, if_neg bare, parameters]

/-- Saves among the methods of a factory join its writes, take the parameters of one of them, and
have no name yet under which they report denial. -/
theorem synthesize_saves {typeName : String} {bounds : List BoundOperation} {save : SaveSpec}
    (member : .save save ∈ (synthesize typeName bounds).result) :
    save.tryName = none ∧ save.Joins (synthesize typeName bounds).result ∧
      save.TakesFrom (synthesize typeName bounds).result := by
  have made : save ∈ (saves typeName (bounds.map methodOf)).result := by
    simp only [synthesize, List.mem_append, List.mem_map] at member
    rcases member with (⟨bound, _, same⟩ | ⟨other, present, same⟩) | ⟨probe, _, same⟩
    · unfold methodOf at same
      split at same <;> cases same
    · cases same
      exact present
    · cases same
  obtain ⟨group, among, order, made⟩ := of_mem_savesFrom made
  have collects : Collects (bounds.map methodOf) group :=
    groupsFrom_collects List.drop_zero (fun _ none => absurd none List.not_mem_nil) group among
  have some : group.2 ≠ [] :=
    groupsFrom_ne_nil (fun _ none => absurd none List.not_mem_nil) group among
  have writes : ∀ position bound, (position, bound) ∈ group.2 →
      bound.operation.isWrite = true := by
    intro position bound listed
    obtain ⟨_, name, found⟩ := collects position bound listed
    obtain ⟨first, _, same⟩ := List.mem_map.mp (List.mem_of_getElem? found)
    unfold methodOf at same
    split at same
    next writes =>
      cases same
      exact writes
    next => cases same
  obtain ⟨bare, joins⟩ := saveOf_joins collects made
  have front {position : Nat} {spec : MethodSpec}
      (found : (bounds.map methodOf)[position]? = Option.some spec) :
      (synthesize typeName bounds).result[position]? = Option.some spec := by
    obtain ⟨before, _⟩ := List.getElem?_eq_some_iff.mp found
    simp only [synthesize]
    rw [List.append_assoc, List.getElem?_append_left before, found]
  refine ⟨bare, ?_, ?_⟩
  · intro branch position branched
    obtain ⟨name, bound, found, rest⟩ := joins branch position branched
    exact ⟨name, bound, front found, rest⟩
  · obtain ⟨branch, position, name, bound, branched, found, same⟩ :=
      saveOf_takes collects some writes made
    exact ⟨branch, position, name, bound, branched, front found, same⟩

end Synthesis

end DomainFactory
