import DomainFactory.Proofs.Filling

/-!
# Following bases

The way along bases from a name either goes on forever or ends at a type without a base or at a
name that is not declared. Base chains tell the two apart: a way that comes back to a name is
reported up to the first repetition, any other is returned as a whole. As long as no name is
repeated the surfaces on the way are distinct declarations, so there are no more of them than the
catalog holds.
-/
namespace DomainFactory.Catalog

variable {catalog : Catalog} {name : String} {visited : List String} {members : List Surface}
  {next : Option String}

/-- The way along bases from a name: the names visited so far with their surfaces, and the name that
comes next. -/
inductive Course (catalog : Catalog) (name : String) :
    List String → List Surface → Option String → Prop where
  /-- The name itself comes first. -/
  | start : Course catalog name [] [] (some name)
  /-- Behind a declared name comes the base of its surface. -/
  | step {visited : List String} {members : List Surface} {next : String} {surface : Surface}
    (course : Course catalog name visited members (some next))
    (declared : catalog.get? next = some surface) :
    Course catalog name (visited ++ [next]) (members ++ [surface]) surface.base

namespace Course

/-- Before the first step the name itself comes next. -/
theorem of_nil (course : catalog.Course name visited members next) (none : visited = []) :
    members = [] ∧ next = some name := by
  cases course with
  | start => exact ⟨rfl, rfl⟩
  | step => exact absurd none (List.append_ne_nil_of_right_ne_nil _ (List.cons_ne_nil _ _))

/-- Where surfaces are kept under their own names, those on the way have the visited names. -/
theorem names (course : catalog.Course name visited members next) (keyed : catalog.KeyedByName) :
    members.map (·.name) = visited := by
  induction course with
  | start => rfl
  | step course declared ih =>
    rw [List.map_append, List.map_singleton, ih, keyed _ _ declared]

/-- The surfaces on the way are declared. -/
theorem declared (course : catalog.Course name visited members next)
    (keyed : catalog.KeyedByName) : ∀ member ∈ members, catalog.get? member.name = some member := by
  induction course with
  | start => exact fun _ member => absurd member List.not_mem_nil
  | step course declared ih =>
    intro member present
    rcases List.mem_append.mp present with before | last
    · exact ih member before
    · rw [List.mem_singleton.mp last, keyed _ _ declared]
      exact declared

/-- Surfaces on the way under distinct names are distinct declarations. -/
theorem declares (course : catalog.Course name visited members next) (keyed : catalog.KeyedByName)
    (distinct : visited.Nodup) : catalog.Declares members :=
  ⟨course.names keyed ▸ distinct, course.declared keyed⟩

/-- A walk looks for the next name among the visited ones. -/
theorem any_iff (course : catalog.Course name visited members next) (keyed : catalog.KeyedByName)
    {base : String} : members.any (·.name == base) = true ↔ base ∈ visited := by
  rw [← course.names keyed, List.any_eq_true, List.mem_map]
  simp only [beq_iff_eq]

/-- A way that has visited a name twice came back to a visited name for a first time. -/
theorem first_repetition (course : catalog.Course name visited members next)
    (repeated : ¬ visited.Nodup) : ∃ front surfaces again,
      catalog.Course name front surfaces (some again) ∧ front.Nodup ∧ again ∈ front := by
  induction course with
  | start => exact absurd List.nodup_nil repeated
  | @step visited members next surface course declared ih =>
    by_cases distinct : visited.Nodup
    · refine ⟨visited, members, next, course, distinct, ?_⟩
      by_contra fresh
      rw [← List.concat_eq_append] at repeated
      exact repeated (distinct.concat fresh)
    · exact ih distinct

end Course

/-- What following bases from a name comes to. -/
inductive Ends (catalog : Catalog) (name : String) : Except GenerationError Chain → Prop where
  /-- The name is not declared. -/
  | undeclared (missing : catalog.get? name = none) : Ends catalog name (.error (.unknownType name))
  /-- The way comes back to a visited name for the first time. -/
  | repeated {visited : List String} {members : List Surface} {again : String}
    (course : catalog.Course name visited members (some again)) (distinct : visited.Nodup)
    (back : again ∈ visited) : Ends catalog name (.error (.cyclicBase name (visited ++ [again])))
  /-- The way ends without a repetition. -/
  | reached {visited : List String} {members : List Surface} {last : Option String}
    (course : catalog.Course name visited members last) (distinct : visited.Nodup)
    (some : visited ≠ []) (missing : ∀ base ∈ last, catalog.get? base = none) :
    Ends catalog name (.ok ⟨members, last⟩)

/-- What comes of a walk on the way is the end of the way. -/
theorem follow_ends (keyed : catalog.KeyedByName) {steps : Nat}
    {result : Except GenerationError Chain}
    (course : catalog.Course name visited members next) (distinct : visited.Nodup)
    (some : visited ≠ []) (followed : catalog.follow name steps members next = .some result) :
    catalog.Ends name result := by
  induction steps generalizing visited members next with
  | zero =>
    cases next with
    | none =>
      cases followed
      exact .reached course distinct some fun _ given => absurd given (Option.not_mem_none _)
    | some base => cases followed
  | succ steps ih =>
    cases next with
    | none =>
      cases followed
      exact .reached course distinct some fun _ given => absurd given (Option.not_mem_none _)
    | some base =>
      unfold follow at followed
      by_cases back : members.any (·.name == base) = true
      · rw [if_pos back, course.names keyed] at followed
        cases followed
        exact .repeated course distinct ((course.any_iff keyed).mp back)
      · rw [if_neg back] at followed
        cases found : catalog.get? base with
        | none =>
          rw [found] at followed
          cases followed
          exact .reached course distinct some fun _ given => Option.some.inj given ▸ found
        | some surface =>
          rw [found] at followed
          have fresh := mt (course.any_iff keyed).mpr back
          refine ih (course.step found) ?_ ?_ followed
          · rw [← List.concat_eq_append]
            exact distinct.concat fresh
          · exact List.append_ne_nil_of_right_ne_nil _ (List.cons_ne_nil _ _)

/-- A base chain is what following bases comes to. -/
theorem chain_ends (keyed : catalog.KeyedByName) (name : String) :
    catalog.Ends name (catalog.chain name) := by
  cases found : catalog.get? name with
  | none =>
    rw [chain_undeclared found]
    exact .undeclared found
  | some surface =>
    exact follow_ends keyed (.step .start found) (List.nodup_singleton name) (List.cons_ne_nil _ _)
      (follow_eq_chain found)

/-- Every place on the way is passed as long as names are distinct. -/
theorem chain_passes (keyed : catalog.KeyedByName)
    (course : catalog.Course name visited members next) (distinct : visited.Nodup)
    (some : visited ≠ []) :
    ∃ steps, catalog.follow name steps members next = .some (catalog.chain name) := by
  induction course with
  | start => exact absurd rfl some
  | @step visited members next surface course declared ih =>
    by_cases first : visited = []
    · obtain ⟨rfl, here⟩ := course.of_nil first
      cases here
      exact ⟨_, follow_eq_chain declared⟩
    · rw [← List.concat_eq_append, List.nodup_concat] at distinct
      obtain ⟨fresh, apart⟩ := distinct
      obtain ⟨steps, passes⟩ := ih apart first
      cases steps with
      | zero => cases passes
      | succ steps =>
        rw [follow, if_neg (mt (course.any_iff keyed).mp fresh), declared] at passes
        exact ⟨steps, passes⟩

/-- There is only one thing that following bases comes to. -/
theorem chain_eq_iff (keyed : catalog.KeyedByName) {result : Except GenerationError Chain} :
    catalog.chain name = result ↔ catalog.Ends name result := by
  refine ⟨fun same => same ▸ chain_ends keyed name, fun ends => ?_⟩
  cases ends with
  | undeclared missing => exact chain_undeclared missing
  | repeated course distinct back =>
    obtain ⟨steps, passes⟩ := chain_passes keyed course distinct (List.ne_nil_of_mem back)
    rw [← course.names keyed]
    cases steps with
    | zero => cases passes
    | succ steps =>
      rw [follow, if_pos ((course.any_iff keyed).mpr back)] at passes
      exact (Option.some.inj passes).symm
  | @reached visited members last course distinct some missing =>
    obtain ⟨steps, passes⟩ := chain_passes keyed course distinct some
    cases last with
    | none =>
      cases steps <;> exact (Option.some.inj passes).symm
    | some base =>
      have fresh : ¬ members.any (·.name == base) = true := by
        rw [List.any_eq_true]
        rintro ⟨member, present, same⟩
        have known := course.declared keyed member present
        rw [beq_iff_eq.mp same, missing base rfl] at known
        cases known
      cases steps with
      | zero => cases passes
      | succ steps =>
        rw [follow, if_neg fresh, missing base rfl] at passes
        exact (Option.some.inj passes).symm

/-- What the base chain of a name tells. -/
structure ChainTells (catalog : Catalog) (name : String) : Prop where
  /-- The type is unknown exactly when it is not declared. -/
  unknown : ∀ asked, catalog.chain name = .error (.unknownType asked) ↔
    asked = name ∧ catalog.get? name = none
  /-- The chain is cyclic exactly when the way comes back to a visited name. -/
  cyclic : (∃ asked names, catalog.chain name = .error (.cyclicBase asked names)) ↔
    ∃ visited members again, catalog.Course name visited members (some again) ∧ again ∈ visited
  /-- What is reported then are the visited names in order and the first repeated one. -/
  reported : ∀ asked names, catalog.chain name = .error (.cyclicBase asked names) ↔
    asked = name ∧ ∃ visited members again,
      catalog.Course name visited members (some again) ∧ visited.Nodup ∧ again ∈ visited ∧
        names = visited ++ [again]
  /-- Otherwise the chain has the surfaces on the whole way in order, under distinct names, and the
  name at which the way ends when that is not declared. -/
  resolved : ∀ chain, catalog.chain name = .ok chain ↔
    catalog.Course name (chain.members.map (·.name)) chain.members chain.unresolved ∧
      chain.members ≠ [] ∧ (chain.members.map (·.name)).Nodup ∧
        ∀ base ∈ chain.unresolved, catalog.get? base = none
  /-- They are no more than the catalog holds. -/
  bounded : ∀ chain, catalog.chain name = .ok chain →
    chain.members.length ≤ catalog.types.size

/-- In every catalog that is filled in steps, failing ones included, the base chain of every name
tells where following bases ends. -/
theorem chain_follows_bases (steps : List Step) (name : String) :
    (Catalog.empty.fill steps).ChainTells name := by
  have keyed := empty_keyedByName.fill steps
  generalize Catalog.empty.fill steps = catalog at keyed
  constructor
  case unknown =>
    intro asked
    rw [chain_eq_iff keyed]
    constructor
    · rintro ⟨missing⟩
      exact ⟨rfl, missing⟩
    · rintro ⟨rfl, missing⟩
      exact .undeclared missing
  case cyclic =>
    constructor
    · rintro ⟨asked, names, cyclic⟩
      cases (chain_eq_iff keyed).mp cyclic with
      | repeated course _ back => exact ⟨_, _, _, course, back⟩
    · rintro ⟨visited, members, again, course, back⟩
      by_cases distinct : visited.Nodup
      · exact ⟨_, _, (chain_eq_iff keyed).mpr (.repeated course distinct back)⟩
      · obtain ⟨_, _, _, before, apart, inside⟩ := course.first_repetition distinct
        exact ⟨_, _, (chain_eq_iff keyed).mpr (.repeated before apart inside)⟩
  case reported =>
    intro asked names
    rw [chain_eq_iff keyed]
    constructor
    · intro ends
      cases ends with
      | repeated course distinct back => exact ⟨rfl, _, _, _, course, distinct, back, rfl⟩
    · rintro ⟨rfl, visited, members, again, course, distinct, back, rfl⟩
      exact .repeated course distinct back
  case resolved =>
    intro chain
    rw [chain_eq_iff keyed]
    constructor
    · intro ends
      cases ends with
      | reached course distinct some missing =>
        have names := course.names keyed
        dsimp only
        rw [names]
        exact ⟨course, fun none => some (names ▸ none ▸ rfl), distinct, missing⟩
    · rintro ⟨course, some, distinct, missing⟩
      exact .reached course distinct (fun none => some (List.map_eq_nil_iff.mp none)) missing
  case bounded =>
    intro chain found
    cases (chain_eq_iff keyed).mp found with
    | reached course distinct => exact (course.declares keyed distinct).length_le

end DomainFactory.Catalog
