import DomainFactory.Method.Naming
import DomainFactory.Method.Synthesis
import DomainFactory.Plan

/-!
# Generation

From a catalog to the plan of a type: its operations and checks are extracted, bound, made into
methods, named and laid out. A type without a resolvable base chain is inert; every other problem is
recorded in the plan.
-/
namespace DomainFactory

/-- The outcome of generating a type. -/
inductive Generated where
  /-- A plan. -/
  | ready (plan : Plan)
  /-- No plan, and why. -/
  | inert (typeName : String) (error : GenerationError)

namespace Generation

/-- What is known about a type before methods are named. -/
structure Findings where
  /-- The operations with their checks. -/
  bound : List BoundOperation
  /-- The checks. -/
  checks : List Check
  /-- Whether instances track their save state. -/
  saveState : Bool
  /-- The problems met on the way. -/
  problems : List Diagnostic
deriving DecidableEq, Repr

/-- The operations of a base chain with their checks. -/
def findings (catalog : Catalog) (config : Config) (chain : Chain) : Findings :=
  let operations := Extraction.operations config chain
  let checks := Extraction.checks catalog config chain
  { bound := operations.result.map (Binding.bind checks.result)
    checks := checks.result
    saveState := chain.members.any (·.saveState)
    problems := operations.problems ++ checks.problems }

/-- The plan of bound operations. -/
def planOf (config : Config) (typeName : String) (findings : Findings) : Plan :=
  let specs := Synthesis.synthesize typeName findings.bound
  Plan.build typeName findings.saveState (Naming.resolve config specs.result) findings.checks
    (findings.problems ++ specs.problems)

/-- Generates a type. -/
def generate (config : Config) (catalog : Catalog) (typeName : String) : Generated :=
  match catalog.chain typeName with
  | .ok chain => .ready (planOf config typeName (findings catalog config chain))
  | .error error => .inert typeName error

/-- Generates every type with a factory, in name order. -/
def generateAll (config : Config) (catalog : Catalog) : List Generated :=
  catalog.factoryTypes.map (generate config catalog)

end Generation

end DomainFactory
