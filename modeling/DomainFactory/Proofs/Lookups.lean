import DomainFactory.Proofs.Partition
import DomainFactory.Proofs.Routing

/-!
# Looking up positions

Saves and probes refer to reads and writes by position. Positions are looked up when saves are made,
when methods are named and when a plan is laid out. Here each of these is also given with look-ups
that fail outside their list; none of them ever fails, so every position lies in the list it is
looked up in. The positions become names then, and names are distinct: whatever a method of a plan
refers to is found by its name.
-/
namespace DomainFactory

/-- Steps that may fail come to what steps that cannot fail come to, when an invariant keeps them
from failing. -/
theorem Option.foldlM_eq_some {α β : Type} {step? : β → α → Option β} {step : β → α → β}
    (holds : β → Prop) {items : List α}
    (steps : ∀ state item, item ∈ items → holds state →
      step? state item = some (step state item) ∧ holds (step state item))
    {state : β} (start : holds state) :
    items.foldlM step? state = some (items.foldl step state) := by
  induction items generalizing state with
  | nil => rfl
  | cons item items ih =>
    obtain ⟨stepped, later⟩ := steps state item List.mem_cons_self start
    rw [List.foldlM_cons, stepped, List.foldl_cons]
    exact ih (fun state item member => steps state item (List.mem_cons_of_mem _ member)) later

namespace MethodSpec

/-- The positions that a method refers to: those of the writes of a save, and that of the method
that a probe asks about. -/
def references : MethodSpec → List Nat
  | .save spec => [spec.insert, spec.update, spec.delete].filterMap id
  | .probe spec => [spec.wraps]
  | .read .. | .write .. => []

/-- A method refers to the same positions with and without its names. -/
@[simp] theorem references_unnamed (spec : MethodSpec) :
    spec.unnamed.references = spec.references := by
  cases spec <;> rfl

end MethodSpec

namespace Synthesis

variable {typeName : String} {specs : List MethodSpec}

/-- The save of the writes at some positions; nothing when a position is looked up outside the
list. -/
def saveAt? (typeName : String) (specs : List MethodSpec) (types : List String) :
    SaveSpec → List Nat → Option (Except Diagnostic SaveSpec)
  | save, [] => some (.ok save)
  | save, position :: positions =>
    specs[position]?.bind fun
      | .write _ bound =>
        match SaveBranch.ofKind? bound.operation.kind with
        | none => saveAt? typeName specs types save positions
        | some branch =>
          match save.branch branch with
          | some existing => specs[existing]?.map fun other =>
            .error ⟨.ambiguousSave, typeName, some ("(" ++ ", ".intercalate types ++ ")"),
              Extraction.ticked other.baseName ++ " and " ++
                Extraction.ticked bound.operation.method ++ " are both " ++
                bound.operation.kind.text ++
                " operations with the same parameters; no save is generated for them"⟩
          | none => saveAt? typeName specs types (save.joined position bound branch) positions
      | _ => saveAt? typeName specs types save positions

/-- The saves of groups of positions; nothing when a position is looked up outside the list. -/
def savesAt? (typeName : String) (specs : List MethodSpec) :
    Nat → List (List String × List Nat) → Option (Noted (List SaveSpec))
  | _, [] => some ⟨[], []⟩
  | order, (types, positions) :: groups =>
    (saveAt? typeName specs types { order } positions).bind fun
      | .ok save => (savesAt? typeName specs (order + 1) groups).map fun more =>
        ⟨save :: more.result, more.problems⟩
      | .error problem => (savesAt? typeName specs order groups).map fun more =>
        ⟨more.result, problem :: more.problems⟩

/-- The methods of a factory; nothing when a position is looked up outside the list of its reads and
writes. -/
def synthesize? (typeName : String) (bound : List BoundOperation) :
    Option (Noted (List MethodSpec)) :=
  let specs := bound.map methodOf
  let groups := (groupsFrom 0 [] specs).map fun group => (group.1, group.2.map Prod.fst)
  (savesAt? typeName specs (orderBehind specs) groups).map fun saves =>
    let probes := probesFrom typeName 0 specs
    ⟨specs ++ saves.result.map .save ++ probes.result.map .probe,
      saves.problems ++ probes.problems⟩

/-- The writes of a group are found at their positions, and so are those that joined before. -/
theorem saveAt_eq {types : List String} {members : List (Nat × BoundOperation)} {save : SaveSpec}
    (found : ∀ member ∈ members, ∃ name, specs[member.1]? = some (.write name member.2))
    (joined : ∀ branch position, save.branch branch = some position → position < specs.length) :
    saveAt? typeName specs types save (members.map Prod.fst) =
      some (saveOf typeName specs types save members) := by
  induction members generalizing save with
  | nil => rfl
  | cons member members ih =>
    obtain ⟨position, bound⟩ := member
    obtain ⟨name, here⟩ := found _ List.mem_cons_self
    have later : ∀ member ∈ members, ∃ name, specs[member.1]? = some (.write name member.2) :=
      fun member among => found member (List.mem_cons_of_mem _ among)
    dsimp only at here
    rw [List.map_cons, saveAt?, here, Option.bind_some]
    dsimp only
    cases served : SaveBranch.ofKind? bound.operation.kind with
    | none =>
      rw [saveOf, served]
      exact ih later joined
    | some branch =>
      cases taken : save.branch branch with
      | some existing =>
        obtain ⟨other, there⟩ : ∃ other, specs[existing]? = some other :=
          ⟨_, List.getElem?_eq_getElem (joined branch existing taken)⟩
        rw [saveOf_taken served taken]
        simp only [taken, there, baseNameAt, Option.map_some, Option.getD_some]
      | none =>
        rw [saveOf_free served taken]
        simp only [taken]
        refine ih later fun other place branched => ?_
        rcases (SaveSpec.joined_branch_eq_some taken).mp branched with before | ⟨rfl, _⟩
        · exact joined other place before
        · exact (List.getElem?_eq_some_iff.mp here).1

/-- The writes of groups are found at their positions. -/
theorem savesAt_eq {groups : List WriteGroup} {order : Nat}
    (collected : ∀ group ∈ groups, Collects specs group) :
    savesAt? typeName specs order (groups.map fun group => (group.1, group.2.map Prod.fst)) =
      some (savesFrom typeName specs order groups) := by
  induction groups generalizing order with
  | nil => rfl
  | cons group groups ih =>
    obtain ⟨types, members⟩ := group
    have made : saveAt? typeName specs types { order } (members.map Prod.fst) =
        some (saveOf typeName specs types { order } members) := by
      refine saveAt_eq (fun member among => ?_) fun branch position branched => ?_
      · exact (collected _ List.mem_cons_self member.1 member.2 among).2
      · cases branch <;> cases branched
    have later := fun place =>
      @ih place fun group member => collected group (List.mem_cons_of_mem _ member)
    rw [List.map_cons, savesAt?, made, Option.bind_some, savesFrom]
    cases saveOf typeName specs types { order } members with
    | ok save => simp only [later, Option.map_some]
    | error problem => simp only [later, Option.map_some]

/-- No position is looked up outside the list when saves are made. -/
theorem synthesize_found (typeName : String) (bound : List BoundOperation) :
    synthesize? typeName bound = some (synthesize typeName bound) := by
  have collected : ∀ group ∈ groupsFrom 0 [] (bound.map methodOf),
      Collects (bound.map methodOf) group :=
    groupsFrom_collects List.drop_zero fun _ none => absurd none List.not_mem_nil
  simp only [synthesize?, savesAt_eq collected, Option.map_some]
  rfl

/-- Methods refer to reads and writes. -/
theorem synthesize_references {bound : List BoundOperation} {spec : MethodSpec}
    (member : spec ∈ (synthesize typeName bound).result) :
    ∀ position ∈ spec.references, position < bound.length := by
  cases spec with
  | read name bound => exact fun _ none => absurd none List.not_mem_nil
  | write name bound => exact fun _ none => absurd none List.not_mem_nil
  | save save =>
    have branched {branch : SaveBranch} {position : Nat}
        (has : save.branch branch = some position) : position < bound.length := by
      obtain ⟨name, write, there, _⟩ := (synthesize_saves member).2.1 branch position has
      have bounds := synthesize_bound_at typeName bound position
      rw [there] at bounds
      exact (List.getElem?_eq_some_iff.mp bounds.symm).1
    intro position among
    simp only [MethodSpec.references, List.mem_filterMap, List.mem_cons, List.not_mem_nil,
      or_false, id_eq, exists_eq_right] at among
    rcases among with insert | update | delete
    · exact @branched .insert position insert.symm
    · exact @branched .update position update.symm
    · exact @branched .delete position delete.symm
  | probe probe =>
    intro position among
    have listed : probe ∈ (synthesize typeName bound).result.filterMap MethodSpec.probe? :=
      List.mem_filterMap.mpr ⟨.probe probe, member, rfl⟩
    rw [synthesize_probes] at listed
    obtain ⟨⟨write, place⟩, present, made⟩ := List.mem_filterMap.mp listed
    obtain ⟨_, rfl⟩ := probeOf_eq_some.mp made
    rw [List.mem_singleton.mp among]
    exact (List.getElem?_eq_some_iff.mp (List.mem_zipIdx_iff_getElem?.mp present)).1

end Synthesis

namespace Naming

/-- The methods with the one at a position named after a base; nothing outside the list. -/
def nameAt? (state : Named) (position : Nat) (base : String) : Option Named :=
  state.1[position]?.map fun _ => nameAt state position base

/-- Names reads, writes and saves; nothing when a position is looked up outside the list. -/
def namePrimary? (config : Config) (specs : List MethodSpec) : Option Named :=
  ((primary specs).map Prod.fst).foldlM (fun state position =>
    state.1[position]?.bind fun spec =>
      nameAt? state position (if spec.isSave then config.saveName else spec.baseName)) (specs, [])

/-- Names probes; nothing when a position is looked up outside the list. -/
def nameProbes? (config : Config) (state : Named) : Option Named :=
  (List.range state.1.length).foldlM (fun state position =>
    state.1[position]?.bind fun
      | .probe probe => state.1[probe.wraps]?.bind fun wrapped =>
        nameAt? state position (config.probePrefix ++ wrapped.name)
      | _ => some state) state

/-- Gives every method its name; nothing when a position is looked up outside the list. -/
def resolve? (config : Config) (specs : List MethodSpec) : Option (List MethodSpec) :=
  (namePrimary? config specs).bind fun named =>
    (nameProbes? config named).map fun named => nameAttempts config named.2 named.1

variable {config : Config} {specs : List MethodSpec} {state : Named}

/-- A method that is in the list is named. -/
theorem nameAt_eq {position : Nat} {spec : MethodSpec} (found : state.1[position]? = some spec)
    (base : String) : nameAt? state position base = some (nameAt state position base) := by
  rw [nameAt?, found, Option.map_some]

/-- No position is looked up outside the list when reads, writes and saves are named. -/
theorem namePrimary_found (config : Config) (specs : List MethodSpec) :
    namePrimary? config specs = some (namePrimary config specs) := by
  rw [namePrimary?, List.foldlM_map]
  refine Option.foldlM_eq_some
    (fun state => state.1.map MethodSpec.unnamed = specs.map MethodSpec.unnamed) ?_ rfl
  rintro state ⟨position, spec⟩ member same
  obtain ⟨listed, plain⟩ := List.mem_filter.mp ((List.mergeSort_perm _ _).mem_iff.mp member)
  obtain ⟨current, there, equal⟩ := exists_unnamed same (mem_positioned.mp listed)
  -- What a method that is no probe asks for has nothing to do with the names given so far.
  have base : (if current.isSave then config.saveName else current.baseName) =
      if spec.isSave then config.saveName else spec.baseName := by
    cases current <;> cases spec <;>
      first | cases equal <;> rfl | rfl | cases plain
  refine ⟨?_, (unnamed_modify _ _ _).trans same⟩
  rw [there, Option.bind_some, nameAt_eq there, base]

/-- No position is looked up outside the list when probes are named that refer to methods of the
list. -/
theorem nameProbes_found (config : Config)
    (refers : ∀ spec ∈ state.1, ∀ position ∈ spec.references, position < state.1.length) :
    nameProbes? config state = some (nameProbes config state) := by
  rw [nameProbes?, ← positioned_positions, List.foldlM_map]
  refine Option.foldlM_eq_some
    (fun later => later.1.map MethodSpec.unnamed = state.1.map MethodSpec.unnamed) ?_ rfl
  rintro later ⟨position, spec⟩ member same
  have here : state.1[position]? = some spec := mem_positioned.mp member
  obtain ⟨current, there, equal⟩ := exists_unnamed same here
  rw [there, Option.bind_some]
  cases spec with
  | probe probe =>
    obtain ⟨name, rfl⟩ := MethodSpec.probe_of_unnamed equal
    have bound : probe.wraps < state.1.length :=
      refers _ (List.mem_of_getElem? here) probe.wraps List.mem_cons_self
    obtain ⟨wrapped, asked, _⟩ := exists_unnamed same (List.getElem?_eq_getElem bound)
    refine ⟨?_, (unnamed_modify _ _ _).trans same⟩
    simp only [asked, Option.bind_some, nameAt_eq there, Option.map_some, Option.getD_some]
  | _ => cases current <;> first | exact ⟨rfl, same⟩ | cases equal

/-- No position is looked up outside the list when methods are named that refer to methods of the
list. -/
theorem resolve_found (config : Config)
    (refers : ∀ spec ∈ specs, ∀ position ∈ spec.references, position < specs.length) :
    resolve? config specs = some (resolve config specs) := by
  have kept := namePrimary_kept config specs
  have later : ∀ spec ∈ (namePrimary config specs).1, ∀ position ∈ spec.references,
      position < (namePrimary config specs).1.length := by
    intro spec member
    obtain ⟨other, among, same⟩ := exists_mem_unnamed kept.same.symm member
    rw [kept.length, ← MethodSpec.references_unnamed, ← same, MethodSpec.references_unnamed]
    exact refers other among
  rw [resolve?, namePrimary_found, Option.bind_some, nameProbes_found config later,
    Option.map_some, resolve]

end Naming

namespace Plan

/-- The name of the method at a position, when there is a position; nothing outside the list. -/
def nameAt? (specs : List MethodSpec) : Option Nat → Option (Option String)
  | none => some none
  | some position => specs[position]?.map fun spec => some spec.name

/-- A method, planned; nothing when a position is looked up outside the list. -/
def methodOf? (typeName : String) (specs : List MethodSpec) : MethodSpec → Option PlannedMethod
  | .save save => do
    let insert ← nameAt? specs save.insert
    let update ← nameAt? specs save.update
    let delete ← nameAt? specs save.delete
    let remotes ← (MethodSpec.save save).references.mapM fun position =>
      specs[position]?.map fun spec => spec.bound?.any (·.operation.remote)
    return {
      name := save.name
      role := .save
      paths := ((Paths.entry.union .here).addWhen save.tryName.isSome .attempt).addWhen
        (remotes.any id) .remote
      parameters := save.parameters
      payload := ⟨"target", typeName, .selfReference⟩ :: save.parameters
      body := .save insert update delete save.tryName }
  | .probe probe => do
    let wrapped ← specs[probe.wraps]?
    let parameters := probe.operation.publicParameters
    return {
      name := probe.name
      role := .probe
      paths := Paths.probe.addWhen probe.remote .remote
      parameters
      payload := parameters
      body := .probe wrapped.name probe.operation probe.bindings }
  | spec => some (methodOf typeName specs spec)

/-- Lays out the named methods of a type; nothing when a position is looked up outside the list. -/
def build? (typeName : String) (saveState : Bool) (specs : List MethodSpec)
    (checks : List Check) (diagnostics : List Diagnostic) : Option Plan :=
  (specs.mapM (methodOf? typeName specs)).map fun methods =>
    { build typeName saveState specs checks diagnostics with methods }

variable {specs : List MethodSpec}

/-- A name in the list is found. -/
theorem nameAt_found {position : Option Nat} (bound : ∀ place ∈ position, place < specs.length) :
    nameAt? specs position = some (nameAt specs position) := by
  cases position with
  | none => rfl
  | some place =>
    have there := List.getElem?_eq_getElem (bound place rfl)
    simp only [nameAt?, nameAt, there, Option.map_some, Option.getD_some]

/-- A method is planned when it refers to methods of the list. -/
theorem methodOf_found (typeName : String) {spec : MethodSpec}
    (refers : ∀ position ∈ spec.references, position < specs.length) :
    methodOf? typeName specs spec = some (methodOf typeName specs spec) := by
  cases spec with
  | read name bound => rfl
  | write name bound => rfl
  | save save =>
    have branched {place : Option Nat} (among : place ∈ [save.insert, save.update, save.delete]) :
        nameAt? specs place = some (nameAt specs place) := by
      refine nameAt_found fun position has => refers position ?_
      exact List.mem_filterMap.mpr ⟨place, among, has⟩
    have remotes : (MethodSpec.save save).references.mapM (fun position =>
        specs[position]?.map fun spec => spec.bound?.any (·.operation.remote)) =
          some ((MethodSpec.save save).references.map (isRemoteAt specs)) := by
      refine Option.mapM_eq_map fun position member => ?_
      have there := List.getElem?_eq_getElem (refers position member)
      simp only [isRemoteAt, there, Option.map_some, Option.bind_some]
    rw [methodOf?, branched (by simp), branched (by simp), branched (by simp), remotes]
    simp only [Option.bind_eq_bind, Option.bind_some, Option.pure_def, List.any_map]
    rfl
  | probe probe =>
    have there := List.getElem?_eq_getElem (refers probe.wraps List.mem_cons_self)
    simp only [methodOf?, methodOf, nameAt, there, Option.bind_eq_bind, Option.bind_some,
      Option.map_some, Option.getD_some, Option.pure_def]

/-- No position is looked up outside the list when methods are laid out that refer to methods of
the list. -/
theorem build_found (typeName : String) (saveState : Bool) (checks : List Check)
    (diagnostics : List Diagnostic)
    (refers : ∀ spec ∈ specs, ∀ position ∈ spec.references, position < specs.length) :
    build? typeName saveState specs checks diagnostics =
      some (build typeName saveState specs checks diagnostics) := by
  rw [build?, Option.mapM_eq_map fun spec member => methodOf_found typeName (refers spec member),
    Option.map_some]
  rfl

end Plan

/-- A method that names a write for some branch is a save. -/
theorem PlannedMethod.Fits.save_of_chosen {method : PlannedMethod} (fits : method.Fits)
    {branch : SaveBranch} {chosen : String} (declared : method.chosen? branch = some chosen) :
    method.role = .save := by
  unfold PlannedMethod.Fits at fits
  unfold PlannedMethod.chosen? at declared
  split at declared
  next body => rwa [body] at fits
  next => cases declared
  next => cases declared

namespace Generation

/-- What the references in the plan of some bound operations lead to. -/
structure Refers (config : Config) (typeName : String) (found : Findings) : Prop where
  /-- No position is looked up outside its list when methods are synthesized, -/
  synthesized : Synthesis.synthesize? typeName found.bound =
    some (Synthesis.synthesize typeName found.bound)
  /-- when they are named, -/
  named : Naming.resolve? config (Synthesis.synthesize typeName found.bound).result =
    some (resolved config typeName found)
  /-- or when their plan is laid out. -/
  laidOut : Plan.build? typeName found.saveState (resolved config typeName found) found.checks
      (found.problems ++ (Synthesis.synthesize typeName found.bound).problems) =
    some (planOf config typeName found)
  /-- In front of the methods are the operations in order, as reads or writes by their kinds. -/
  operations : ∀ (position : Nat) (bound : BoundOperation), found.bound[position]? = some bound →
    ∃ name, (resolved config typeName found)[position]? =
      some (if bound.operation.isWrite then MethodSpec.write name bound
        else MethodSpec.read name bound)
  /-- Behind them are saves and probes. -/
  others : ∀ spec ∈ (resolved config typeName found).drop found.bound.length,
    spec.bound? = none
  /-- Each method of the plan is found by its name. -/
  methods : ∀ method ∈ (planOf config typeName found).methods,
    (planOf config typeName found).method? method.name = some method
  /-- By each name in a save a write is found of the kind of its branch, with public parameters of
  the types of those of the save. -/
  saves : ∀ save ∈ (planOf config typeName found).methods, ∀ branch chosen,
    save.chosen? branch = some chosen →
      ∃ write, (planOf config typeName found).method? chosen = some write ∧
        write.Serves branch save
  /-- By the name in a probe the read or write is found whose operation it has, and whose bindings
  it has but for those that need the target. -/
  probes : ∀ probe ∈ (planOf config typeName found).methods, ∀ wraps operation bindings,
    probe.body = .probe wraps operation bindings →
      ∃ method, (planOf config typeName found).method? wraps = some method ∧
        method.role = (if operation.isWrite then .write else .read) ∧
        ∃ every, method.body = .run operation every ∧ bindings = every.filter (!·.needsTarget)

variable (config : Config) (typeName : String) (found : Findings)

/-- Naming keeps how many methods there are. -/
theorem resolved_length : (resolved config typeName found).length =
    (Synthesis.synthesize typeName found.bound).result.length := by
  have same := Naming.resolve_unnamed config (Synthesis.synthesize typeName found.bound).result
  simpa only [List.length_map] using congrArg List.length same

/-- There are no fewer methods than operations. -/
theorem bound_length_le :
    found.bound.length ≤ (Synthesis.synthesize typeName found.bound).result.length := by
  simp only [Synthesis.synthesize, List.length_append, List.length_map]
  omega

/-- Named methods refer to reads and writes. -/
theorem resolved_references {spec : MethodSpec} (member : spec ∈ resolved config typeName found) :
    ∀ position ∈ spec.references, position < found.bound.length := by
  obtain ⟨other, among, same⟩ :=
    Naming.exists_mem_unnamed (Naming.resolve_unnamed config _).symm member
  rw [← MethodSpec.references_unnamed, ← same, MethodSpec.references_unnamed]
  exact Synthesis.synthesize_references among

/-- Named methods have the operations in front, and no others. -/
theorem resolved_bound_at (position : Nat) :
    ((resolved config typeName found)[position]?).bind MethodSpec.bound? =
      found.bound[position]? := by
  have same := congrArg (Option.bind · MethodSpec.bound?)
    (resolved_unnamed_at config typeName found position)
  simp only [Option.bind_map, Function.comp_def, MethodSpec.bound_unnamed] at same
  rw [same]
  exact Synthesis.synthesize_bound_at typeName found.bound position

/-- In front of the named methods are the operations, as reads or writes by their kinds. -/
theorem resolved_operation_at {position : Nat} {bound : BoundOperation}
    (there : found.bound[position]? = some bound) :
    ∃ name, (resolved config typeName found)[position]? =
      some (if bound.operation.isWrite then MethodSpec.write name bound
        else MethodSpec.read name bound) := by
  have placed := resolved_bound_at config typeName found position
  rw [there] at placed
  obtain ⟨spec, present, has⟩ := Option.bind_eq_some_iff.mp placed
  have fits := resolved_fits config typeName found (List.mem_of_getElem? present)
  cases spec with
  | read name other =>
    cases has
    have reads : bound.operation.isWrite = false := fits
    exact ⟨name, by rw [present, reads]; rfl⟩
  | write name other =>
    cases has
    have writes : bound.operation.isWrite = true := fits
    exact ⟨name, by rw [present, writes]; rfl⟩
  | save save => cases has
  | probe probe => cases has

/-- Behind the operations are methods without one. -/
theorem resolved_behind {spec : MethodSpec}
    (member : spec ∈ (resolved config typeName found).drop found.bound.length) :
    spec.bound? = none := by
  obtain ⟨place, present⟩ := List.mem_iff_getElem?.mp member
  rw [List.getElem?_drop] at present
  have placed := resolved_bound_at config typeName found (found.bound.length + place)
  rw [present, Option.bind_some, List.getElem?_eq_none (Nat.le_add_right _ _)] at placed
  exact placed

/-- The references in the plan of any bound operations lead where they should. -/
theorem planOf_refers : Refers config typeName found := by
  have short := bound_length_le typeName found
  have distinct := planOf_names_nodup config typeName found
  have byName {name : String} {method : PlannedMethod}
      (member : method ∈ (planOf config typeName found).methods) (named : method.name = name) :
      (planOf config typeName found).method? name = some method :=
    (find_keyed_iff distinct).mpr ⟨member, named⟩
  constructor
  case synthesized => exact Synthesis.synthesize_found typeName found.bound
  case named =>
    refine Naming.resolve_found config fun spec member position among => ?_
    exact Nat.lt_of_lt_of_le (Synthesis.synthesize_references member position among) short
  case laidOut =>
    refine Plan.build_found typeName _ _ _ fun spec member position among => ?_
    rw [resolved_length]
    exact Nat.lt_of_lt_of_le (resolved_references config typeName found member position among)
      short
  case operations => exact fun _ _ there => resolved_operation_at config typeName found there
  case others => exact fun _ member => resolved_behind config typeName found member
  case methods => exact fun method member => byName member rfl
  case saves =>
    intro save member branch chosen declared
    have role := (planOf_fits config typeName found member).save_of_chosen declared
    obtain ⟨write, present, named, serves⟩ :=
      planOf_save_serves config typeName found member role declared
    exact ⟨write, byName present named, serves⟩
  case probes =>
    intro probe member wraps operation bindings body
    have listed := List.mem_filterMap.mpr ⟨probe, member, PlannedMethod.asked_eq_some.mpr body⟩
    obtain ⟨position, bound, there, _, equal⟩ := (planOf_asked config typeName found).mp listed
    cases equal
    obtain ⟨_, method, present, has, named⟩ := planOf_method_at config typeName found there
    have runs := PlannedMethod.bound_eq_some.mp has
    have fits := (planOf_fits config typeName found present).run runs
    exact ⟨method, byName present named, fits, bound.bindings, runs, rfl⟩

end Generation

end DomainFactory
