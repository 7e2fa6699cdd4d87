import DomainFactory.Extraction
import DomainFactory.Method.Spec

/-!
# Synthesis of methods

The methods of a factory in the order in which they are laid out: reads and writes in the order of
their operations, then saves, then probes.
-/
namespace DomainFactory.Synthesis

open Extraction (ticked)

/-- The read or the write of an operation. -/
def methodOf (bound : BoundOperation) : MethodSpec :=
  if bound.operation.isWrite then .write "" bound else .read "" bound

/-- Writes with one list of parameter types: the types, and the writes with their positions. -/
abbrev WriteGroup := List String × List (Nat × BoundOperation)

/-- The groups with one more write, put to the group of its types or to a new one. -/
def addToGroup (position : Nat) (bound : BoundOperation) : List WriteGroup → List WriteGroup
  | [] => [(bound.operation.publicTypes, [(position, bound)])]
  | (types, members) :: groups =>
    if types = bound.operation.publicTypes then (types, members ++ [(position, bound)]) :: groups
    else (types, members) :: addToGroup position bound groups

/-- The writes of a list of methods by their types, in order of discovery, positions counted from
one. -/
def groupsFrom : Nat → List WriteGroup → List MethodSpec → List WriteGroup
  | _, groups, [] => groups
  | position, groups, .write _ bound :: specs =>
    groupsFrom (position + 1) (addToGroup position bound groups) specs
  | position, groups, _ :: specs => groupsFrom (position + 1) groups specs

/-- The public name of the method at a position. -/
def baseNameAt (specs : List MethodSpec) (position : Nat) : String :=
  (specs[position]?.map MethodSpec.baseName).getD ""

/-- The save of a group, or the problem of two writes of one kind. -/
def saveOf (typeName : String) (specs : List MethodSpec) (types : List String) :
    SaveSpec → List (Nat × BoundOperation) → Except Diagnostic SaveSpec
  | save, [] => .ok save
  | save, (position, bound) :: members =>
    match SaveBranch.ofKind? bound.operation.kind with
    | none => saveOf typeName specs types save members
    | some branch =>
      match save.branch branch with
      | some existing =>
        .error ⟨.ambiguousSave, typeName, some ("(" ++ ", ".intercalate types ++ ")"),
          ticked (baseNameAt specs existing) ++ " and " ++ ticked bound.operation.method ++
            " are both " ++ bound.operation.kind.text ++
            " operations with the same parameters; no save is generated for them"⟩
      | none =>
        let save := save.setBranch position branch
        let parameters :=
          if save.parameters.isEmpty then bound.operation.publicParameters
          else save.parameters
        saveOf typeName specs types
          { save with gated := save.gated || bound.isGated, parameters } members

/-- The saves of groups; places in the order of naming are counted from one. -/
def savesFrom (typeName : String) (specs : List MethodSpec) :
    Nat → List WriteGroup → Noted (List SaveSpec)
  | _, [] => ⟨[], []⟩
  | order, (types, members) :: groups =>
    match saveOf typeName specs types { order } members with
    | .ok save =>
      let more := savesFrom typeName specs (order + 1) groups
      ⟨save :: more.result, more.problems⟩
    | .error problem =>
      let more := savesFrom typeName specs order groups
      ⟨more.result, problem :: more.problems⟩

/-- The first place in the order of naming behind all reads and writes. -/
def orderBehind (specs : List MethodSpec) : Nat :=
  specs.foldl (fun order spec => max order (spec.order + 1)) 0

/-- The saves of a list of reads and writes. -/
def saves (typeName : String) (specs : List MethodSpec) : Noted (List SaveSpec) :=
  savesFrom typeName specs (orderBehind specs) (groupsFrom 0 [] specs)

/-- The probes of a list of methods, positions counted from one. -/
def probesFrom (typeName : String) : Nat → List MethodSpec → Noted (List ProbeSpec)
  | _, [] => ⟨[], []⟩
  | position, spec :: specs =>
    let more := probesFrom typeName (position + 1) specs
    match spec.bound? with
    | none => more
    | some bound =>
      if !bound.isGated then more
      else
        let bindings := bound.bindings.filter (!·.needsTarget)
        if bindings.isEmpty then
          ⟨more.result, ⟨.probeRequiresTarget, typeName, some bound.operation.method,
            "every authorization needs the target instance; no probe is generated"⟩ ::
              more.problems⟩
        else
          ⟨{ wraps := position, operation := bound.operation, bindings,
             remote := bound.operation.remote } :: more.result, more.problems⟩

/-- The methods of a factory from the operations of its type. -/
def synthesize (typeName : String) (bound : List BoundOperation) :
    Noted (List MethodSpec) :=
  let specs := bound.map methodOf
  let saves := saves typeName specs
  let probes := probesFrom typeName 0 specs
  ⟨specs ++ saves.result.map .save ++ probes.result.map .probe,
    saves.problems ++ probes.problems⟩

end DomainFactory.Synthesis
