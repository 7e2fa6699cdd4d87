import DomainFactory.Proofs.Assembly
import DomainFactory.Proofs.Loading

/-!
# Base chains

A walk along bases stops at a type without a base, at a base that is not declared, or with an error
when it comes back to a member. On the way it asks a catalog for names. Where two catalogs answer
those names alike the walks are alike, although each catalog allows a walk as many steps as it has
declarations: whatever comes of a walk comes of it with other numbers of steps too.
-/
namespace DomainFactory

namespace Catalog

variable {catalog other : Catalog}

/-- Every surface of the catalog is kept under its own name. -/
def KeyedByName (catalog : Catalog) : Prop :=
  ∀ name surface, catalog.get? name = some surface → surface.name = name

/-- What a catalog answers after an insertion. -/
theorem get_insert (catalog : Catalog) (surface : Surface) (name : String) :
    (catalog.insert surface).get? name =
      if surface.name = name then some surface else catalog.get? name :=
  Keyed.get_insert catalog.types surface.name name surface

/-- A catalog starts out keyed by name. -/
theorem empty_keyedByName : Catalog.empty.KeyedByName := by
  intro name surface declared
  rw [get?, empty, Keyed.get_empty] at declared
  cases declared

namespace KeyedByName

/-- An insertion puts a surface under its own name. -/
theorem insert (keyed : catalog.KeyedByName) (surface : Surface) :
    (catalog.insert surface).KeyedByName := by
  intro name found declared
  rw [get_insert] at declared
  by_cases here : surface.name = name
  · rw [if_pos here] at declared
    cases declared
    exact here
  · rw [if_neg here] at declared
    exact keyed name found declared

/-- So do insertions of many surfaces. -/
theorem insertAll (keyed : catalog.KeyedByName) (surfaces : List Surface) :
    (catalog.insertAll surfaces).KeyedByName := by
  unfold Catalog.insertAll
  induction surfaces generalizing catalog with
  | nil => exact keyed
  | cons surface surfaces ih => exact ih (keyed.insert surface)

end KeyedByName

/-- A way along bases: the surfaces it meets, and the base at which it ends because that base is not
declared. -/
inductive Climbs (catalog : Catalog) : Option String → List Surface → Option String → Prop where
  /-- There is no further base. -/
  | top : Climbs catalog none [] none
  /-- The next base is not declared. -/
  | undeclared {base : String} (missing : catalog.get? base = none) :
    Climbs catalog (some base) [] (some base)
  /-- The next base is declared, and the way goes on behind it. -/
  | next {base : String} {surface : Surface} {members : List Surface} {last : Option String}
    (declared : catalog.get? base = some surface)
    (rest : Climbs catalog surface.base members last) :
    Climbs catalog (some base) (surface :: members) last

/-- Following bases puts the surfaces of a whole way behind the members. -/
theorem follow_climbs {name : String} {steps : Nat} {members : List Surface} {base : Option String}
    {chain : Chain} (followed : catalog.follow name steps members base = some (.ok chain)) :
    ∃ rest, chain.members = members ++ rest ∧ catalog.Climbs base rest chain.unresolved := by
  induction steps generalizing members base with
  | zero =>
    cases base with
    | none =>
      cases followed
      exact ⟨[], (List.append_nil _).symm, .top⟩
    | some base => cases followed
  | succ steps ih =>
    cases base with
    | none =>
      cases followed
      exact ⟨[], (List.append_nil _).symm, .top⟩
    | some base =>
      unfold follow at followed
      by_cases back : members.any (·.name == base) = true
      · rw [if_pos back] at followed
        cases followed
      · rw [if_neg back] at followed
        cases found : catalog.get? base with
        | none =>
          rw [found] at followed
          cases followed
          exact ⟨[], (List.append_nil _).symm, .undeclared found⟩
        | some surface =>
          rw [found] at followed
          obtain ⟨rest, split, climbs⟩ := ih followed
          refine ⟨surface :: rest, ?_, .next found climbs⟩
          rw [split, List.append_assoc, List.singleton_append]

/-- A base chain is a whole way from its type. -/
theorem chain_climbs {name : String} {chain : Chain} (chained : catalog.chain name = .ok chain) :
    catalog.Climbs (some name) chain.members chain.unresolved := by
  cases found : catalog.get? name with
  | none =>
    rw [chain_undeclared found] at chained
    cases chained
  | some surface =>
    have followed := follow_eq_chain found
    rw [chained] at followed
    obtain ⟨rest, split, climbs⟩ := follow_climbs followed
    rw [split]
    exact .next found climbs

/-- The names that the walk from a type asks for: the type, and the base of every surface that one
of them has. -/
inductive Leads (catalog : Catalog) (start : String) : String → Prop where
  /-- The type itself. -/
  | start : Leads catalog start start
  /-- The base of a declared name, declared or not. -/
  | base {name base : String} {surface : Surface} (way : Leads catalog start name)
    (declared : catalog.get? name = some surface) (extended : surface.base = some base) :
    Leads catalog start base

/-- A walk comes to the same in a catalog that answers the names on its way alike, in whatever
numbers of steps the two come to something. -/
theorem follow_congr {start name : String} {steps more : Nat} {members : List Surface}
    {base : Option String} {here there : Except GenerationError Chain}
    (agree : ∀ asked, catalog.Leads start asked → other.get? asked = catalog.get? asked)
    (leads : ∀ next ∈ base, catalog.Leads start next)
    (followed : catalog.follow name steps members base = some here)
    (again : other.follow name more members base = some there) : there = here := by
  induction steps generalizing more members base with
  | zero =>
    cases base with
    | none =>
      cases more <;>
      · cases followed
        cases again
        rfl
    | some base => cases followed
  | succ steps ih =>
    cases base with
    | none =>
      cases more <;>
      · cases followed
        cases again
        rfl
    | some base =>
      cases more with
      | zero => cases again
      | succ more =>
        have asked := leads base rfl
        unfold follow at followed again
        rw [agree base asked] at again
        by_cases back : members.any (·.name == base) = true
        · rw [if_pos back] at followed again
          exact Option.some.inj (again.symm.trans followed)
        · rw [if_neg back] at followed again
          cases found : catalog.get? base with
          | none =>
            rw [found] at followed again
            exact Option.some.inj (again.symm.trans followed)
          | some surface =>
            rw [found] at followed again
            exact ih (fun next extended => .base asked found extended) followed again

/-- The base chain of a type is the same in a catalog that answers the names on its way alike. -/
theorem chain_congr {name : String}
    (agree : ∀ asked, catalog.Leads name asked → other.get? asked = catalog.get? asked) :
    other.chain name = catalog.chain name := by
  have same := agree name .start
  cases found : catalog.get? name with
  | none => rw [chain_undeclared found, chain_undeclared (same.trans found)]
  | some surface =>
    exact follow_congr agree (fun next extended => .base .start found extended)
      (follow_eq_chain found) (follow_eq_chain (same.trans found))

end Catalog

end DomainFactory
