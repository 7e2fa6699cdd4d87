import DomainFactory.Proofs.Chains
import DomainFactory.Proofs.Gating

/-!
# Locality of generation

Generation looks at a catalog only through the names that a type reaches: those on its base chain,
the single policy of the nearest member with an association, and those on the base chain of that
policy. A catalog that answers these names alike gives the same plan with the same problems, or the
same reason for none, whatever else it declares.
-/
namespace DomainFactory

namespace Catalog

/-- The names that generation of a type asks for. -/
inductive Reaches (catalog : Catalog) (typeName : String) : String → Prop where
  /-- A name on the base chain of the type, up to the first undeclared or repeated one. -/
  | base {name : String} (leads : catalog.Leads typeName name) : Reaches catalog typeName name
  /-- A name on the base chain of the single policy of the nearest member with an association. -/
  | policy {name policy : String} {chain : Chain} {member : Surface}
    (chained : catalog.chain typeName = .ok chain)
    (nearest : Extraction.Nearest chain member) (single : member.policies = [policy])
    (leads : catalog.Leads policy name) : Reaches catalog typeName name

/-- From a surface without a base the walk asks for nothing further. -/
theorem Leads.eq_start {catalog : Catalog} {start name : String} {surface : Surface}
    (declared : catalog.get? start = some surface) (top : surface.base = none)
    (leads : catalog.Leads start name) : name = start := by
  induction leads with
  | start => rfl
  | base way known extended ih =>
    rw [ih, declared] at known
    cases known
    rw [top] at extended
    cases extended

end Catalog

namespace Extraction

variable {catalog other : Catalog}

/-- The checks of a policy are the same in a catalog that answers the names on its chain alike. -/
theorem policyChecks_congr {policy : String}
    (agree : ∀ asked, catalog.Leads policy asked → other.get? asked = catalog.get? asked)
    (config : Config) (owning : String) :
    policyChecks other config owning policy = policyChecks catalog config owning policy := by
  have chains : other.chain policy = catalog.chain policy := Catalog.chain_congr agree
  simp only [policyChecks, chains]

/-- The checks of a base chain are the same in a catalog that answers the names on the chain of its
single policy alike. -/
theorem checks_congr {chain : Chain}
    (agree : ∀ member policy asked, Nearest chain member → member.policies = [policy] →
      catalog.Leads policy asked → other.get? asked = catalog.get? asked) (config : Config) :
    checks other config chain = checks catalog config chain := by
  unfold checks
  cases chain.members.head? with
  | none => rfl
  | some owner =>
    cases found : chain.members.find? (!·.policies.isEmpty) with
    | none => rfl
    | some member =>
      -- Only a single association sends the search to the catalog.
      match associated : member.policies with
      | [policy] =>
        simp only [associated]
        exact policyChecks_congr
          (fun asked leads => agree member policy asked (nearest_of_find found) associated leads)
          config owner.name
      | [] => simp only [associated]
      | first :: second :: rest => simp only [associated]

end Extraction

namespace Generation

variable {catalog other : Catalog}

/-- A catalog that answers the reached names alike generates the same. -/
theorem generate_congr {typeName : String}
    (agree : ∀ name, catalog.Reaches typeName name → other.get? name = catalog.get? name)
    (config : Config) : generate config other typeName = generate config catalog typeName := by
  have chains : other.chain typeName = catalog.chain typeName :=
    Catalog.chain_congr fun name leads => agree name (.base leads)
  unfold generate
  rw [chains]
  cases chained : catalog.chain typeName with
  | error error => rfl
  | ok chain =>
    have checked : Extraction.checks other config chain = Extraction.checks catalog config chain :=
      Extraction.checks_congr
        (fun member policy name nearest single leads =>
          agree name (.policy chained nearest single leads)) config
    simp only [findings, checked]

/-- Generation of a type is local: catalogs that answer the names it reaches alike generate the
same, so that adding or replacing a surface under any other name changes nothing. -/
theorem generate_local (config : Config) (catalog : Catalog) (typeName : String) :
    (∀ other : Catalog,
      (∀ name, catalog.Reaches typeName name → other.get? name = catalog.get? name) →
        generate config other typeName = generate config catalog typeName) ∧
    ∀ surface : Surface, ¬ catalog.Reaches typeName surface.name →
      generate config (catalog.insert surface) typeName = generate config catalog typeName := by
  refine ⟨fun other agree => generate_congr agree config, ?_⟩
  intro surface apart
  refine generate_congr ?_ config
  intro name reached
  have elsewhere : surface.name ≠ name := by
    rintro rfl
    exact apart reached
  rw [Catalog.get_insert, if_neg elsewhere]

/-- A type that extends itself, has two policies and a method that is no signature. -/
def sampleStray : Surface where
  name := "Order"
  base := some "Order"
  policies := ["PersonAuth", "Missing"]
  factory := true
  methods := ["no signature"]

/-- The sample reaches its type and its policy. -/
theorem sample_reaches {name : String} (reached : sampleCatalog.Reaches "Person" name) :
    name = "Person" ∨ name = "PersonAuth" := by
  have person : sampleCatalog.get? "Person" = some samplePerson := by decide +kernel
  have policy : sampleCatalog.get? "PersonAuth" = some samplePolicy := by decide +kernel
  have alone : sampleCatalog.chain "Person" = .ok ⟨[samplePerson], none⟩ := by decide +kernel
  cases reached with
  | base leads => exact .inl (leads.eq_start person rfl)
  | policy chained nearest single leads =>
    rw [alone] at chained
    cases chained
    obtain ⟨nearer, farther, split, _⟩ := nearest
    have listed : _ ∈ [samplePerson] := split ▸ List.mem_append_right nearer List.mem_cons_self
    rw [List.mem_singleton.mp listed] at single
    cases single
    exact .inr (leads.eq_start policy rfl)

/-- The sample does not notice a broken type next to it. -/
theorem sample_local : ¬ sampleCatalog.Reaches "Person" sampleStray.name ∧
    generate {} (sampleCatalog.insert sampleStray) "Person" = .ready samplePlan := by
  have apart : ¬ sampleCatalog.Reaches "Person" sampleStray.name := by
    intro reached
    have different : ¬ ("Order" = "Person" ∨ "Order" = "PersonAuth") := by decide
    exact different (sample_reaches reached)
  exact ⟨apart,
    ((generate_local {} sampleCatalog "Person").2 sampleStray apart).trans sample_generated⟩

end Generation

end DomainFactory
