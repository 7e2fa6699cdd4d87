import DomainFactory.Config
import DomainFactory.Method.Spec

/-!
# Naming of methods

Methods of a factory have distinct names. A method gets the name it asks for, or that name with the
smallest positive number that makes it free. Reads, writes and saves are named first, those with
fewer arguments before others, at one number saves last, and then in order of discovery; probes and
the saves that report denial follow, named after the methods they belong to.
-/
namespace DomainFactory.Naming

/-- The first free name of a base with a number from some number on. Of more candidates than taken
names one is free, so their number bounds the steps. -/
def numbered (taken : List String) (base : String) : (fuel number : Nat) → String
  | 0, number => base ++ toString number
  | fuel + 1, number =>
    let candidate := base ++ toString number
    if taken.contains candidate then numbered taken base fuel (number + 1) else candidate

/-- The name that a base gets when some names are taken. -/
def claim (taken : List String) (base : String) : String :=
  if taken.contains base then numbered taken base taken.length 1 else base

/-- The names that bases get one after another. -/
def claimAll : (taken bases : List String) → List String
  | _, [] => []
  | taken, base :: bases =>
    let name := claim taken base
    name :: claimAll (name :: taken) bases

/-- Methods with the names taken so far. -/
abbrev Named := List MethodSpec × List String

/-- The methods with the one at a position named after a base. -/
def nameAt (state : Named) (position : Nat) (base : String) : Named :=
  let name := claim state.2 base
  (state.1.modify position (·.named name), name :: state.2)

/-- Whether one method is named before or together with another. -/
def namedBefore (left right : Nat × MethodSpec) : Bool :=
  if left.2.argumentCount != right.2.argumentCount then
    left.2.argumentCount < right.2.argumentCount
  else if left.2.isSave != right.2.isSave then right.2.isSave
  else left.2.order ≤ right.2.order

/-- The methods with their positions. -/
def positioned (specs : List MethodSpec) : List (Nat × MethodSpec) :=
  (List.range specs.length).zip specs

/-- Names reads, writes and saves. -/
def namePrimary (config : Config) (specs : List MethodSpec) : Named :=
  let primary := ((positioned specs).filter (!·.2.isProbe)).mergeSort namedBefore
  primary.foldl
    (fun state (position, spec) =>
      nameAt state position (if spec.isSave then config.saveName else spec.baseName))
    (specs, [])

/-- Names probes after the methods they ask about. -/
def nameProbes (config : Config) (state : Named) : Named :=
  (positioned state.1).foldl
    (fun state (position, spec) =>
      match spec with
      | .probe probe =>
        let wrapped := (state.1[probe.wraps]?.map MethodSpec.name).getD ""
        nameAt state position (config.probePrefix ++ wrapped)
      | _ => state)
    state

/-- Gives gated saves the name of the save that reports denial. -/
def nameAttempts (config : Config) : (taken : List String) → List MethodSpec → List MethodSpec
  | _, [] => []
  | taken, .save spec :: specs =>
    if spec.gated then
      let name := claim taken (config.tryPrefix ++ spec.name)
      .save { spec with tryName := some name } :: nameAttempts config (name :: taken) specs
    else .save spec :: nameAttempts config taken specs
  | taken, spec :: specs => spec :: nameAttempts config taken specs

/-- Gives every method its name. -/
def resolve (config : Config) (specs : List MethodSpec) : List MethodSpec :=
  let named := nameProbes config (namePrimary config specs)
  nameAttempts config named.2 named.1

end DomainFactory.Naming
