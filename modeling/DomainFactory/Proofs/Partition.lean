import DomainFactory.Proofs.Aggregation
import DomainFactory.Proofs.Layout

/-!
# Saves as classes of writes

Writes whose public parameters have the same types form a class. Synthesis walks the writes once
and keeps the classes in the order of their first writes. A class in which no kind occurs twice
gives one save, which has the position of each of its writes in the branch of its kind; a class in
which a kind occurs twice gives one problem and no save, and the other classes go on unchanged.
-/
namespace DomainFactory

/-- The save that a method is, if it is one. -/
def MethodSpec.save? : MethodSpec → Option SaveSpec
  | .save spec => some spec
  | _ => none

namespace Synthesis

/-- The writes among bound operations with their positions, counted from one. -/
def writesFrom (position : Nat) (bounds : List BoundOperation) : List (Nat × BoundOperation) :=
  ((bounds.zipIdx position).filter (·.1.operation.isWrite)).map Prod.swap

/-- The writes among bound operations begin with the first operation, if that is one. -/
theorem writesFrom_cons (position : Nat) (bound : BoundOperation) (bounds : List BoundOperation) :
    writesFrom position (bound :: bounds) =
      if bound.operation.isWrite then (position, bound) :: writesFrom (position + 1) bounds
      else writesFrom (position + 1) bounds := by
  unfold writesFrom
  rw [List.zipIdx_cons, List.filter_cons]
  split <;> rfl

/-- The writes among bound operations are those at their positions. -/
theorem mem_writesFrom {bounds : List BoundOperation} {position : Nat} {bound : BoundOperation} :
    (position, bound) ∈ writesFrom 0 bounds ↔
      bounds[position]? = some bound ∧ bound.operation.isWrite = true := by
  unfold writesFrom
  simp only [List.mem_map, List.mem_filter, List.mem_zipIdx_iff_getElem?, Prod.exists,
    Prod.swap_prod_mk, Prod.mk.injEq]
  constructor
  · rintro ⟨_, _, ⟨found, writes⟩, rfl, rfl⟩
    exact ⟨found, writes⟩
  · rintro ⟨found, writes⟩
    exact ⟨bound, position, ⟨found, writes⟩, rfl, rfl⟩

/-- Groups are the classes of writes with equal types of public parameters, in the order of their
first writes. -/
structure Classifies (writes : List (Nat × BoundOperation)) (groups : List WriteGroup) :
    Prop where
  /-- A group holds the writes of its types, in their order. -/
  members : ∀ group ∈ groups,
    group.2 = writes.filter (·.2.operation.publicTypes = group.1)
  /-- No group is empty. -/
  inhabited : ∀ group ∈ groups, group.2 ≠ []
  /-- Every write has a group. -/
  complete : ∀ write ∈ writes, ∃ group ∈ groups, group.1 = write.2.operation.publicTypes
  /-- The first write of a group stands before those of the groups behind it. -/
  ordered : groups.Pairwise fun earlier later =>
    ∀ first ∈ earlier.2.head?, ∀ other ∈ later.2.head?, first.1 < other.1

/-- Groups of different places have different types. -/
theorem Classifies.apart {writes : List (Nat × BoundOperation)} {groups : List WriteGroup}
    (classes : Classifies writes groups) :
    groups.Pairwise fun earlier later => earlier.1 ≠ later.1 := by
  refine classes.ordered.imp_of_mem fun {earlier later} here there before same => ?_
  have members : later.2 = earlier.2 := by
    rw [classes.members earlier here, classes.members later there, same]
  obtain ⟨first, rest, starts⟩ := List.exists_cons_of_ne_nil (classes.inhabited earlier here)
  have front : first ∈ earlier.2.head? := by rw [starts]; rfl
  have less := before first front first (members ▸ front)
  omega

/-- The groups with one more write in the group of its types. -/
def withMember (position : Nat) (bound : BoundOperation) (group : WriteGroup) : WriteGroup :=
  if group.1 = bound.operation.publicTypes then (group.1, group.2 ++ [(position, bound)])
  else group

/-- A group keeps its types when a write is added. -/
@[simp] theorem withMember_types (position : Nat) (bound : BoundOperation) (group : WriteGroup) :
    (withMember position bound group).1 = group.1 := by
  unfold withMember
  split <;> rfl

/-- A group that has a write keeps its first one when a write is added. -/
theorem withMember_head {position : Nat} {bound : BoundOperation} {group : WriteGroup}
    (some : group.2 ≠ []) : (withMember position bound group).2.head? = group.2.head? := by
  unfold withMember
  split
  · exact List.head?_append_of_ne_nil _ some
  · rfl

/-- A write of new types makes a new group behind the others. -/
theorem addToGroup_new {position : Nat} {bound : BoundOperation} {groups : List WriteGroup}
    (new : ∀ group ∈ groups, group.1 ≠ bound.operation.publicTypes) :
    addToGroup position bound groups =
      groups ++ [(bound.operation.publicTypes, [(position, bound)])] := by
  induction groups with
  | nil => rfl
  | cons first groups ih =>
    have later := ih fun group member => new group (List.mem_cons_of_mem _ member)
    rw [addToGroup, if_neg (new first List.mem_cons_self), later, List.cons_append]

/-- A write of known types joins their group. -/
theorem addToGroup_known {position : Nat} {bound : BoundOperation} {groups : List WriteGroup}
    (apart : groups.Pairwise fun earlier later => earlier.1 ≠ later.1)
    (known : ∃ group ∈ groups, group.1 = bound.operation.publicTypes) :
    addToGroup position bound groups = groups.map (withMember position bound) := by
  induction groups with
  | nil =>
    obtain ⟨_, member, _⟩ := known
    exact absurd member List.not_mem_nil
  | cons first groups ih =>
    obtain ⟨unlike, apart⟩ := List.pairwise_cons.mp apart
    rw [addToGroup, List.map_cons]
    by_cases here : first.1 = bound.operation.publicTypes
    · have others : groups.map (withMember position bound) = groups := by
        refine (List.map_congr_left fun group member => ?_).trans (List.map_id groups)
        exact if_neg fun same => unlike group member (here.trans same.symm)
      rw [if_pos here, others, withMember, if_pos here]
    · have behind : ∃ group ∈ groups, group.1 = bound.operation.publicTypes := by
        obtain ⟨group, member, types⟩ := known
        rcases List.mem_cons.mp member with rfl | later
        · exact absurd types here
        · exact ⟨group, later, types⟩
      rw [if_neg here, ih apart behind, withMember, if_neg here]

/-- Classes stay classes when a write behind all others is added. -/
theorem addToGroup_classifies {writes : List (Nat × BoundOperation)} {groups : List WriteGroup}
    {position : Nat} {bound : BoundOperation} (classes : Classifies writes groups)
    (behind : ∀ write ∈ writes, write.1 < position) :
    Classifies (writes ++ [(position, bound)]) (addToGroup position bound groups) := by
  by_cases known : ∃ group ∈ groups, group.1 = bound.operation.publicTypes
  · rw [addToGroup_known classes.apart known]
    refine ⟨?_, ?_, ?_, ?_⟩
    · intro group member
      obtain ⟨old, among, rfl⟩ := List.mem_map.mp member
      rw [withMember_types, List.filter_append, ← classes.members old among, withMember]
      by_cases same : old.1 = bound.operation.publicTypes
      · rw [if_pos same, List.filter_cons_of_pos (by simpa using same.symm), List.filter_nil]
      · rw [if_neg same, List.filter_cons_of_neg (by simpa using Ne.symm same), List.filter_nil,
          List.append_nil]
    · intro group member
      obtain ⟨old, among, rfl⟩ := List.mem_map.mp member
      intro none
      have kept : (withMember position bound old).2.head? = old.2.head? :=
        withMember_head (classes.inhabited old among)
      rw [none] at kept
      exact classes.inhabited old among (List.head?_eq_none_iff.mp kept.symm)
    · intro write member
      have found : ∃ group ∈ groups, group.1 = write.2.operation.publicTypes := by
        rcases List.mem_append.mp member with old | new
        · exact classes.complete write old
        · rw [List.mem_singleton.mp new]
          exact known
      obtain ⟨group, among, types⟩ := found
      exact ⟨_, List.mem_map_of_mem among, (withMember_types ..).trans types⟩
    · rw [List.pairwise_map]
      refine classes.ordered.imp_of_mem fun {earlier later} here there before => ?_
      rw [withMember_head (classes.inhabited earlier here),
        withMember_head (classes.inhabited later there)]
      exact before
  · have known : ∀ group ∈ groups, group.1 ≠ bound.operation.publicTypes :=
      fun group member same => known ⟨group, member, same⟩
    have none : writes.filter (·.2.operation.publicTypes = bound.operation.publicTypes) = [] := by
      rw [List.filter_eq_nil_iff]
      intro write member same
      obtain ⟨group, among, types⟩ := classes.complete write member
      exact known group among (types.trans (by simpa using same))
    rw [addToGroup_new known]
    refine ⟨?_, ?_, ?_, ?_⟩
    · intro group member
      rcases List.mem_append.mp member with old | new
      · have other := known group old
        rw [List.filter_append, ← classes.members group old,
          List.filter_cons_of_neg (by simpa using Ne.symm other), List.filter_nil, List.append_nil]
      · cases List.mem_singleton.mp new
        rw [List.filter_append, none, List.nil_append, List.filter_cons_of_pos (by simp),
          List.filter_nil]
    · intro group member
      rcases List.mem_append.mp member with old | new
      · exact classes.inhabited group old
      · cases List.mem_singleton.mp new
        exact List.cons_ne_nil _ _
    · intro write member
      rcases List.mem_append.mp member with old | new
      · obtain ⟨group, among, types⟩ := classes.complete write old
        exact ⟨group, List.mem_append_left _ among, types⟩
      · cases List.mem_singleton.mp new
        exact ⟨_, List.mem_append_right _ List.mem_cons_self, rfl⟩
    · refine List.pairwise_append.mpr ⟨classes.ordered, List.pairwise_singleton _ _, ?_⟩
      intro group member new among first starts other begins
      cases List.mem_singleton.mp among
      cases begins
      have write : first ∈ writes := by
        have inside := List.mem_of_mem_head? starts
        rw [classes.members group member] at inside
        exact List.mem_of_mem_filter inside
      exact behind first write

/-- Walking on through operations keeps that the groups are the classes of the writes so far. -/
theorem groupsFrom_grows {bounds : List BoundOperation} {position : Nat}
    {writes : List (Nat × BoundOperation)} {groups : List WriteGroup}
    (classes : Classifies writes groups) (behind : ∀ write ∈ writes, write.1 < position) :
    Classifies (writes ++ writesFrom position bounds)
      (groupsFrom position groups (bounds.map methodOf)) := by
  induction bounds generalizing position writes groups with
  | nil => exact (List.append_nil writes).symm ▸ classes
  | cons bound bounds ih =>
    have later : ∀ write ∈ writes, write.1 < position + 1 :=
      fun write member => Nat.lt_succ_of_lt (behind write member)
    rw [writesFrom_cons, List.map_cons, methodOf]
    by_cases writing : bound.operation.isWrite = true
    · have grown : ∀ write ∈ writes ++ [(position, bound)], write.1 < position + 1 := by
        intro write member
        rcases List.mem_append.mp member with old | new
        · exact later write old
        · rw [List.mem_singleton.mp new]
          exact Nat.lt_succ_self position
      have step := ih (addToGroup_classifies classes behind) grown
      rw [if_pos writing, if_pos writing]
      rwa [List.append_assoc, List.singleton_append] at step
    · rw [if_neg writing, if_neg writing]
      exact ih classes later

/-- The groups of a list of methods are the classes of its writes. -/
theorem groupsFrom_classifies (bounds : List BoundOperation) :
    Classifies (writesFrom 0 bounds) (groupsFrom 0 [] (bounds.map methodOf)) := by
  have nothing : Classifies [] [] := by
    refine ⟨?_, ?_, ?_, List.Pairwise.nil⟩
    all_goals exact fun _ none => absurd none List.not_mem_nil
  have walked : Classifies ([] ++ writesFrom 0 bounds) (groupsFrom 0 [] (bounds.map methodOf)) :=
    groupsFrom_grows nothing fun _ none => absurd none List.not_mem_nil
  rwa [List.nil_append] at walked

/-- A class of writes that makes a save: no kind occurs twice in it. -/
def IsClear (group : WriteGroup) : Prop := (group.2.map (·.2.operation.kind)).Nodup

instance (group : WriteGroup) : Decidable (IsClear group) := by
  unfold IsClear
  infer_instance

end Synthesis

/-- A save joins the writes of a class: it has the position of each in the branch of its kind and
nothing else in its branches, the parameters of the first one, and is gated when any of them is. -/
structure SaveSpec.Gathers (save : SaveSpec) (members : List (Nat × BoundOperation)) : Prop where
  /-- It has no name yet. -/
  unnamed : save.name = "" ∧ save.tryName = none
  /-- Its branches hold the positions of the writes of their kinds. -/
  branches : ∀ branch position, save.branch branch = some position ↔
    ∃ bound, (position, bound) ∈ members ∧ bound.operation.kind = branch.kind
  /-- Its parameters are those of the first write. -/
  parameters : ∀ first ∈ members.head?, save.parameters = first.2.operation.publicParameters
  /-- It is gated when some write has a binding. -/
  gated : save.gated = true ↔ ∃ member ∈ members, member.2.bindings ≠ []

/-- A problem tells of a class in which two writes have one kind. -/
structure Diagnostic.TellsAmbiguous (problem : Diagnostic) (typeName : String)
    (group : Synthesis.WriteGroup) : Prop where
  /-- It is the problem of ambiguous writes. -/
  ambiguous : problem.problem = .ambiguousSave
  /-- It arose for the type. -/
  arose : problem.typeName = typeName
  /-- It concerns the types of the class. -/
  member : problem.member = some ("(" ++ ", ".intercalate group.1 ++ ")")
  /-- It names two writes of the class and their kind. -/
  message : ∃ first second, [first, second].Sublist group.2 ∧
    first.2.operation.kind = second.2.operation.kind ∧
    problem.message = Extraction.ticked first.2.operation.publicName ++ " and " ++
      Extraction.ticked second.2.operation.method ++ " are both " ++
      second.2.operation.kind.text ++
      " operations with the same parameters; no save is generated for them"

/-- The branch of a kind serves that kind and no other. -/
theorem SaveBranch.kind_eq_iff {kind : Kind} {branch other : SaveBranch}
    (served : ofKind? kind = some branch) : kind = other.kind ↔ other = branch := by
  rw [ofKind_eq_some served]
  cases branch <;> cases other <;> simp [SaveBranch.kind]

/-- A write that joins a save takes its own branch and no other. -/
theorem SaveSpec.joined_branch_eq_some {save : SaveSpec} {position : Nat} {bound : BoundOperation}
    {branch : SaveBranch} (free : save.branch branch = none) {other : SaveBranch} {place : Nat} :
    (save.joined position bound branch).branch other = some place ↔
      save.branch other = some place ∨ place = position ∧ other = branch := by
  by_cases same : other = branch
  · subst same
    simp [free, eq_comm]
  · simp [save.joined_branch_other position bound branch same, same]

namespace Synthesis

variable {typeName : String} {specs : List MethodSpec} {types : List String}

/-- Joining writes one after another fills the branches of their kinds, and those alone. -/
theorem saveOf_branches {members : List (Nat × BoundOperation)} {save result : SaveSpec}
    (writes : ∀ member ∈ members, member.2.operation.isWrite = true)
    (made : saveOf typeName specs types save members = .ok result) (branch : SaveBranch)
    (position : Nat) :
    result.branch branch = some position ↔ save.branch branch = some position ∨
      ∃ bound, (position, bound) ∈ members ∧ bound.operation.kind = branch.kind := by
  induction members generalizing save with
  | nil =>
    cases made
    simp
  | cons first members ih =>
    obtain ⟨place, bound⟩ := first
    obtain ⟨own, served⟩ := SaveBranch.exists_ofKind (writes _ List.mem_cons_self)
    obtain ⟨free, made⟩ := saveOf_cons served made
    rw [ih (fun other member => writes other (List.mem_cons_of_mem _ member)) made,
      SaveSpec.joined_branch_eq_some free, or_assoc]
    refine or_congr_right ?_
    constructor
    · rintro (⟨rfl, rfl⟩ | ⟨other, member, kind⟩)
      · exact ⟨bound, List.mem_cons_self, SaveBranch.ofKind_eq_some served⟩
      · exact ⟨other, List.mem_cons_of_mem _ member, kind⟩
    · rintro ⟨other, member, kind⟩
      rcases List.mem_cons.mp member with same | later
      · cases same
        exact Or.inl ⟨rfl, (SaveBranch.kind_eq_iff served).mp kind⟩
      · exact Or.inr ⟨other, later, kind⟩

/-- A save is gated when it was before or some write that joins it is. -/
theorem saveOf_gated {members : List (Nat × BoundOperation)} {save result : SaveSpec}
    (writes : ∀ member ∈ members, member.2.operation.isWrite = true)
    (made : saveOf typeName specs types save members = .ok result) :
    result.gated = (save.gated || members.any (·.2.isGated)) := by
  induction members generalizing save with
  | nil =>
    cases made
    simp
  | cons first members ih =>
    obtain ⟨place, bound⟩ := first
    obtain ⟨own, served⟩ := SaveBranch.exists_ofKind (writes _ List.mem_cons_self)
    obtain ⟨_, made⟩ := saveOf_cons served made
    have joined : (save.joined place bound own).gated = (save.gated || bound.isGated) := by
      cases own <;> rfl
    rw [ih (fun other member => writes other (List.mem_cons_of_mem _ member)) made, joined,
      List.any_cons, Bool.or_assoc]

/-- Joining writes changes neither names nor the place in the order of naming. -/
theorem saveOf_keeps {members : List (Nat × BoundOperation)} {save result : SaveSpec}
    (made : saveOf typeName specs types save members = .ok result) :
    result.name = save.name ∧ result.tryName = save.tryName ∧ result.order = save.order := by
  have joins (later : SaveSpec) (position : Nat) (bound : BoundOperation) (branch : SaveBranch)
      (same : later.name = save.name ∧ later.tryName = save.tryName ∧ later.order = save.order) :
      (later.joined position bound branch).name = save.name ∧
        (later.joined position bound branch).tryName = save.tryName ∧
        (later.joined position bound branch).order = save.order := by
    cases branch <;> exact same
  exact saveOf_induction (fun later position bound branch _ _ _ same =>
    joins later position bound branch same) ⟨rfl, rfl, rfl⟩ made

/-- The save of a class has the parameters of the first write: the others have parameters of the
same types, so they have none when it has none. -/
theorem saveOf_parameters {first : Nat × BoundOperation} {members : List (Nat × BoundOperation)}
    {save result : SaveSpec} (bare : save.parameters = [])
    (writes : first.2.operation.isWrite = true)
    (alike : ∀ member ∈ first :: members, member.2.operation.publicTypes = types)
    (made : saveOf typeName specs types save (first :: members) = .ok result) :
    result.parameters = first.2.operation.publicParameters := by
  obtain ⟨place, bound⟩ := first
  obtain ⟨own, served⟩ := SaveBranch.exists_ofKind writes
  have start : (save.joined place bound own).parameters = bound.operation.publicParameters := by
    rw [SaveSpec.joined_parameters, bare]
    rfl
  let kept (later : SaveSpec) : Prop := later.parameters = bound.operation.publicParameters
  suffices holds : kept result from holds
  refine saveOf_induction ?_ start (saveOf_cons served made).2
  intro later position other branch member _ _ held
  change (later.joined position other branch).parameters = bound.operation.publicParameters
  rw [SaveSpec.joined_parameters, show later.parameters = _ from held]
  split
  next none =>
    have types : other.operation.publicTypes = bound.operation.publicTypes :=
      (alike _ (List.mem_cons_of_mem _ member)).trans (alike _ List.mem_cons_self).symm
    rw [List.isEmpty_iff] at none
    unfold Operation.publicTypes at types
    rw [none, List.map_nil, List.map_eq_nil_iff] at types
    rw [types, none]
  next => rfl

/-- A write whose branch is free joins the save. -/
theorem saveOf_free {members : List (Nat × BoundOperation)} {save : SaveSpec} {position : Nat}
    {bound : BoundOperation} {branch : SaveBranch}
    (served : SaveBranch.ofKind? bound.operation.kind = some branch)
    (free : save.branch branch = none) :
    saveOf typeName specs types save ((position, bound) :: members) =
      saveOf typeName specs types (save.joined position bound branch) members := by
  rw [saveOf, served]
  simp only [free]
  cases branch <;> rfl

/-- A write whose branch is taken ends the save with a problem. -/
theorem saveOf_taken {members : List (Nat × BoundOperation)} {save : SaveSpec} {position : Nat}
    {bound : BoundOperation} {branch : SaveBranch} {existing : Nat}
    (served : SaveBranch.ofKind? bound.operation.kind = some branch)
    (taken : save.branch branch = some existing) :
    saveOf typeName specs types save ((position, bound) :: members) =
      .error ⟨.ambiguousSave, typeName, some ("(" ++ ", ".intercalate types ++ ")"),
        Extraction.ticked (baseNameAt specs existing) ++ " and " ++
          Extraction.ticked bound.operation.method ++ " are both " ++ bound.operation.kind.text ++
          " operations with the same parameters; no save is generated for them"⟩ := by
  rw [saveOf, served]
  simp only [taken]

/-- Writes make a save exactly when their kinds are distinct and the branches of these are free. -/
theorem saveOf_isOk_iff {members : List (Nat × BoundOperation)} {save : SaveSpec}
    (writes : ∀ member ∈ members, member.2.operation.isWrite = true) :
    (∃ result, saveOf typeName specs types save members = .ok result) ↔
      (members.map (·.2.operation.kind)).Nodup ∧
      ∀ member ∈ members, ∀ branch, member.2.operation.kind = SaveBranch.kind branch →
        save.branch branch = none := by
  induction members generalizing save with
  | nil => simp [saveOf]
  | cons first members ih =>
    obtain ⟨place, bound⟩ := first
    obtain ⟨own, served⟩ := SaveBranch.exists_ofKind (writes _ List.mem_cons_self)
    have ownKind : bound.operation.kind = own.kind := SaveBranch.ofKind_eq_some served
    cases taken : save.branch own with
    | some existing =>
      rw [saveOf_taken served taken]
      constructor
      · rintro ⟨_, ⟨⟩⟩
      · rintro ⟨_, free⟩
        cases taken.symm.trans (free _ List.mem_cons_self own ownKind)
    | none =>
      rw [saveOf_free served taken,
        ih fun other member => writes other (List.mem_cons_of_mem _ member), List.map_cons,
        List.nodup_cons, List.mem_map]
      -- The branch of the first write is free for no other, and the other branches are as before.
      constructor
      · rintro ⟨distinct, free⟩
        refine ⟨⟨?_, distinct⟩, ?_⟩
        · rintro ⟨other, member, same⟩
          have busy := free other member own (same.trans ownKind)
          rw [SaveSpec.joined_branch_same] at busy
          cases busy
        · intro member among branch kind
          rcases List.mem_cons.mp among with rfl | later
          · rwa [(SaveBranch.kind_eq_iff served).mp kind]
          · have apart : branch ≠ own := by
              rintro rfl
              have busy := free member later branch kind
              rw [SaveSpec.joined_branch_same] at busy
              cases busy
            rw [← save.joined_branch_other place bound own apart]
            exact free member later branch kind
      · rintro ⟨⟨single, distinct⟩, free⟩
        refine ⟨distinct, fun member later branch kind => ?_⟩
        have apart : branch ≠ own := by
          rintro rfl
          exact single ⟨member, later, kind.trans ownKind.symm⟩
        rw [save.joined_branch_other place bound own apart]
        exact free member (List.mem_cons_of_mem _ later) branch kind

/-- The problem of writes that make no save names two of them of one kind. -/
theorem saveOf_tells {joined members : List (Nat × BoundOperation)} {save : SaveSpec}
    {problem : Diagnostic} (collects : Collects specs (types, joined ++ members))
    (writes : ∀ member ∈ members, member.2.operation.isWrite = true)
    (filled : ∀ branch position, save.branch branch = some position →
      ∃ bound, (position, bound) ∈ joined ∧ bound.operation.kind = branch.kind)
    (made : saveOf typeName specs types save members = .error problem) :
    problem.TellsAmbiguous typeName (types, joined ++ members) := by
  induction members generalizing save joined with
  | nil => cases made
  | cons first members ih =>
    obtain ⟨place, bound⟩ := first
    obtain ⟨own, served⟩ := SaveBranch.exists_ofKind (writes _ List.mem_cons_self)
    have ownKind : bound.operation.kind = own.kind := SaveBranch.ofKind_eq_some served
    cases taken : save.branch own with
    | some existing =>
      rw [saveOf_taken served taken] at made
      cases made
      obtain ⟨other, member, kind⟩ := filled own existing taken
      obtain ⟨_, name, found⟩ := collects existing other (List.mem_append_left _ member)
      have base : baseNameAt specs existing = other.operation.publicName := by
        rw [baseNameAt, found]
        rfl
      refine ⟨rfl, rfl, rfl, (existing, other), (place, bound), ?_, kind.trans ownKind.symm, ?_⟩
      · exact List.Sublist.append (List.singleton_sublist.mpr member)
          (List.singleton_sublist.mpr List.mem_cons_self)
      · rw [base]
    | none =>
      rw [saveOf_free served taken] at made
      have regrouped : joined ++ (place, bound) :: members =
          (joined ++ [(place, bound)]) ++ members := by simp
      rw [regrouped] at collects ⊢
      refine ih collects (fun other member => writes other (List.mem_cons_of_mem _ member)) ?_ made
      intro branch position branched
      rcases (SaveSpec.joined_branch_eq_some taken).mp branched with before | ⟨rfl, rfl⟩
      · obtain ⟨other, member, kind⟩ := filled branch position before
        exact ⟨other, List.mem_append_left _ member, kind⟩
      · exact ⟨bound, List.mem_append_right _ List.mem_cons_self, ownKind⟩

/-- A class of writes of a list of methods. -/
structure Gathered (specs : List MethodSpec) (group : WriteGroup) : Prop where
  /-- Its members are writes of the list at their positions, with parameters of its types. -/
  collects : Collects specs group
  /-- Their operations are writes. -/
  writes : ∀ member ∈ group.2, member.2.operation.isWrite = true

/-- The save of a class joins its writes. -/
theorem saveOf_gathers {group : WriteGroup} {order : Nat} {save : SaveSpec}
    (gathered : Gathered specs group)
    (made : saveOf typeName specs group.1 { order } group.2 = .ok save) :
    save.Gathers group.2 ∧ save.order = order := by
  obtain ⟨name, tryName, place⟩ := saveOf_keeps made
  refine ⟨⟨⟨name, tryName⟩, ?_, ?_, ?_⟩, place⟩
  · intro branch position
    rw [saveOf_branches gathered.writes made]
    have bare : SaveSpec.branch { order } branch = none := by cases branch <;> rfl
    simp [bare]
  · obtain ⟨types, members⟩ := group
    intro first front
    obtain ⟨rest, rfl⟩ := List.head?_eq_some_iff.mp front
    refine saveOf_parameters rfl (gathered.writes first List.mem_cons_self) ?_ made
    exact fun member among => (gathered.collects member.1 member.2 among).1
  · rw [saveOf_gated gathered.writes made, Bool.false_or, List.any_eq_true]
    simp [BoundOperation.isGated]

/-- A class makes a save exactly when no kind occurs twice in it. -/
theorem saveOf_isOk_iff_clear {group : WriteGroup} {order : Nat} (gathered : Gathered specs group) :
    (∃ save, saveOf typeName specs group.1 { order } group.2 = .ok save) ↔ IsClear group := by
  rw [saveOf_isOk_iff gathered.writes, IsClear]
  refine and_iff_left fun member _ branch _ => ?_
  cases branch <;> rfl

/-- Classes give one save each, with consecutive places, or one problem each. -/
theorem savesFrom_partitions {groups : List WriteGroup} (order : Nat)
    (gathered : ∀ group ∈ groups, Gathered specs group) :
    List.Forall₂ (fun group save => SaveSpec.Gathers save group.2)
        (groups.filter (IsClear ·)) (savesFrom typeName specs order groups).result ∧
      (savesFrom typeName specs order groups).result.map SaveSpec.order =
        List.range' order (savesFrom typeName specs order groups).result.length ∧
      List.Forall₂ (fun group problem => Diagnostic.TellsAmbiguous problem typeName group)
        (groups.filter (¬ IsClear ·)) (savesFrom typeName specs order groups).problems := by
  induction groups generalizing order with
  | nil => exact ⟨.nil, rfl, .nil⟩
  | cons group groups ih =>
    obtain ⟨types, members⟩ := group
    have here := gathered _ List.mem_cons_self
    have later := fun place =>
      ih place fun group member => gathered group (List.mem_cons_of_mem _ member)
    have clear : (∃ save, saveOf typeName specs types { order } members = .ok save) ↔
        IsClear (types, members) := saveOf_isOk_iff_clear here
    rw [savesFrom]
    cases made : saveOf typeName specs types { order } members with
    | ok save =>
      obtain ⟨saves, orders, problems⟩ := later (order + 1)
      obtain ⟨gathers, place⟩ := saveOf_gathers here made
      have isClear : IsClear (types, members) := clear.mp ⟨save, made⟩
      rw [List.filter_cons_of_pos (by simpa using isClear),
        List.filter_cons_of_neg (by simpa using isClear)]
      refine ⟨.cons gathers saves, ?_, problems⟩
      simp only [List.map_cons, List.length_cons, List.range'_succ, place, orders]
    | error problem =>
      obtain ⟨saves, orders, problems⟩ := later order
      have notClear : ¬ IsClear (types, members) := by
        intro isClear
        obtain ⟨save, ok⟩ := clear.mpr isClear
        cases made.symm.trans ok
      have tells : problem.TellsAmbiguous typeName (types, members) := by
        have bare : ∀ branch position, SaveSpec.branch { order } branch = some position →
            ∃ bound : BoundOperation, (position, bound) ∈ [] ∧
              bound.operation.kind = branch.kind := by
          intro branch position branched
          cases branch <;> cases branched
        exact saveOf_tells here.collects here.writes bare made
      rw [List.filter_cons_of_neg (by simpa using notClear),
        List.filter_cons_of_pos (by simpa using notClear)]
      exact ⟨saves, orders, .cons tells problems⟩

/-- Every read and write stands before the first place behind them. -/
theorem order_lt_orderBehind {specs : List MethodSpec} {spec : MethodSpec} (member : spec ∈ specs) :
    spec.order < orderBehind specs := by
  have grows (start : Nat) :
      start ≤ specs.foldl (fun order spec => max order (spec.order + 1)) start ∧
      ∀ spec ∈ specs,
        spec.order < specs.foldl (fun order spec => max order (spec.order + 1)) start := by
    clear member
    induction specs generalizing start with
    | nil => exact ⟨Nat.le_refl _, fun _ none => absurd none List.not_mem_nil⟩
    | cons first specs ih =>
      obtain ⟨above, others⟩ := ih (max start (first.order + 1))
      rw [List.foldl_cons]
      refine ⟨by omega, fun spec member => ?_⟩
      rcases List.mem_cons.mp member with rfl | later
      · omega
      · exact others spec later
  exact (grows 0).2 spec member

/-- The writes among operations are the writes among their methods. -/
theorem methodOf_write_iff {bounds : List BoundOperation} {position : Nat}
    {bound : BoundOperation} : (bounds.map methodOf)[position]? = some (.write "" bound) ↔
      (position, bound) ∈ writesFrom 0 bounds := by
  rw [mem_writesFrom, List.getElem?_map, Option.map_eq_some_iff]
  constructor
  · rintro ⟨other, found, same⟩
    unfold methodOf at same
    split at same
    next writes =>
      cases same
      exact ⟨found, writes⟩
    next => cases same
  · rintro ⟨found, writes⟩
    exact ⟨bound, found, by rw [methodOf, if_pos writes]⟩

/-- The classes of the writes of operations, with the methods and problems made of them: one save
for each class without a kind that occurs twice, in the order of the classes, and one problem for
each of the others. -/
structure Partitions (typeName : String) (bounds : List BoundOperation)
    (groups : List WriteGroup) (made : Noted (List MethodSpec)) : Prop where
  /-- The groups are the classes. -/
  classes : Classifies (writesFrom 0 bounds) groups
  /-- Positions are those among the methods. -/
  positions : ∀ position bound, (position, bound) ∈ writesFrom 0 bounds ↔
    made.result[position]? = some (.write "" bound)
  /-- Each class without a kind that occurs twice has its save, and there are no others. -/
  saves : List.Forall₂ (fun group save => SaveSpec.Gathers save group.2)
    (groups.filter (IsClear ·)) (made.result.filterMap MethodSpec.save?)
  /-- Saves are placed one after another behind every read and write. -/
  orders : ∃ base, (∀ bound ∈ bounds, bound.operation.index < base) ∧
    (made.result.filterMap MethodSpec.save?).map SaveSpec.order =
      List.range' base (made.result.filterMap MethodSpec.save?).length
  /-- Each class with a kind that occurs twice has its problem, and there are no others. -/
  problems : List.Forall₂ (fun group problem => Diagnostic.TellsAmbiguous problem typeName group)
    (groups.filter (¬ IsClear ·)) (made.problems.filter (·.problem = .ambiguousSave))

/-- The saves among the methods of a factory are those made of its groups. -/
theorem synthesize_saves_eq (typeName : String) (bounds : List BoundOperation) :
    (synthesize typeName bounds).result.filterMap MethodSpec.save? =
      (saves typeName (bounds.map methodOf)).result := by
  have operations : (bounds.map methodOf).filterMap MethodSpec.save? = [] := by
    rw [List.filterMap_eq_nil_iff]
    intro spec member
    obtain ⟨bound, _, rfl⟩ := List.mem_map.mp member
    unfold methodOf
    split <;> rfl
  have probes : ((probesFrom typeName 0 (bounds.map methodOf)).result.map
      MethodSpec.probe).filterMap MethodSpec.save? = [] := by
    rw [List.filterMap_eq_nil_iff]
    intro spec member
    obtain ⟨probe, _, rfl⟩ := List.mem_map.mp member
    rfl
  simp only [synthesize]
  rw [List.filterMap_append, List.filterMap_append, operations, probes, List.filterMap_map,
    List.append_nil, List.nil_append]
  exact List.filterMap_some

/-- Probes have no problems with ambiguous writes. -/
theorem probesFrom_problems {typeName : String} {position : Nat} {specs : List MethodSpec}
    {problem : Diagnostic} (member : problem ∈ (probesFrom typeName position specs).problems) :
    problem.problem = .probeRequiresTarget := by
  induction specs generalizing position with
  | nil => cases member
  | cons spec specs ih =>
    rw [probesFrom] at member
    split at member
    next => exact ih member
    next bound =>
      split at member
      · exact ih member
      · dsimp only at member
        split at member
        · rcases List.mem_cons.mp member with rfl | later
          · rfl
          · exact ih later
        · exact ih member

/-- The writes among the methods of a factory are those of its operations, at their positions. -/
theorem synthesize_write_iff {typeName : String} {bounds : List BoundOperation} {position : Nat}
    {bound : BoundOperation} :
    (synthesize typeName bounds).result[position]? = some (.write "" bound) ↔
      (position, bound) ∈ writesFrom 0 bounds := by
  rw [← methodOf_write_iff]
  simp only [synthesize]
  rw [List.append_assoc]
  by_cases front : position < (bounds.map methodOf).length
  · rw [List.getElem?_append_left front]
  · have above : (bounds.map methodOf).length ≤ position := Nat.le_of_not_lt front
    rw [List.getElem?_append_right above, List.getElem?_eq_none above]
    refine iff_of_false (fun found => ?_) (fun none => by cases none)
    rcases List.mem_append.mp (List.mem_of_getElem? found) with save | probe
    · obtain ⟨_, _, same⟩ := List.mem_map.mp save
      cases same
    · obtain ⟨_, _, same⟩ := List.mem_map.mp probe
      cases same

/-- The problems of ambiguous writes are those of the saves. -/
theorem synthesize_ambiguous (typeName : String) (bounds : List BoundOperation) :
    (synthesize typeName bounds).problems.filter (·.problem = .ambiguousSave) =
      (saves typeName (bounds.map methodOf)).problems.filter (·.problem = .ambiguousSave) := by
  have probes : (probesFrom typeName 0 (bounds.map methodOf)).problems.filter
      (·.problem = .ambiguousSave) = [] := by
    rw [List.filter_eq_nil_iff]
    intro problem member
    simp [probesFrom_problems member]
  simp only [synthesize]
  rw [List.filter_append, probes, List.append_nil]

/-- The problems of classes are problems of ambiguous writes. -/
theorem ambiguous_of_tell {typeName : String} {groups : List WriteGroup}
    {problems : List Diagnostic}
    (tell : List.Forall₂ (fun group problem => Diagnostic.TellsAmbiguous problem typeName group)
      groups problems) : ∀ problem ∈ problems, problem.problem = .ambiguousSave := by
  induction tell with
  | nil => exact fun _ none => absurd none List.not_mem_nil
  | cons tells _ ih =>
    intro problem member
    rcases List.mem_cons.mp member with rfl | later
    · exact tells.ambiguous
    · exact ih problem later

/-- Synthesis partitions the writes of any operations into classes: each class in which no kind
occurs twice gives exactly one save, which joins its writes, and each other class exactly one
problem. -/
theorem synthesize_partitions (typeName : String) (bounds : List BoundOperation) :
    ∃ groups, Partitions typeName bounds groups (synthesize typeName bounds) := by
  have classes := groupsFrom_classifies bounds
  have gathered : ∀ group ∈ groupsFrom 0 [] (bounds.map methodOf),
      Gathered (bounds.map methodOf) group := by
    intro group member
    have listed : ∀ write ∈ group.2, write ∈ writesFrom 0 bounds ∧
        write.2.operation.publicTypes = group.1 := by
      intro write among
      rw [classes.members group member] at among
      simpa using List.mem_filter.mp among
    refine ⟨fun position bound among => ?_, fun write among => ?_⟩
    · obtain ⟨write, types⟩ := listed _ among
      exact ⟨types, "", methodOf_write_iff.mpr write⟩
    · exact (mem_writesFrom.mp (listed write among).1).2
  obtain ⟨made, orders, problems⟩ :=
    @savesFrom_partitions typeName _ _ (orderBehind (bounds.map methodOf)) gathered
  refine ⟨_, classes, fun position bound => synthesize_write_iff.symm, ?_, ?_, ?_⟩
  · rw [synthesize_saves_eq]
    exact made
  · rw [synthesize_saves_eq]
    refine ⟨_, fun bound member => ?_, orders⟩
    have behind := order_lt_orderBehind (List.mem_map_of_mem (f := methodOf) member)
    unfold methodOf at behind
    split at behind <;> exact behind
  · have all : (saves typeName (bounds.map methodOf)).problems.filter
        (·.problem = .ambiguousSave) = (saves typeName (bounds.map methodOf)).problems := by
      rw [List.filter_eq_self]
      intro problem member
      simpa using ambiguous_of_tell problems problem member
    rw [synthesize_ambiguous, all]
    exact problems

end Synthesis

end DomainFactory
