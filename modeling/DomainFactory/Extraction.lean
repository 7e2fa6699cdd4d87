import DomainFactory.Catalog
import DomainFactory.Diagnostic

/-!
# Extraction

The operations of a type are read off the methods of its base chain, its own methods first; its
checks off the methods of its policy and the policy's bases. A method that cannot be used costs
only itself: the problem is recorded and the others go on.
-/
namespace DomainFactory

open Text

/-- A result with the problems met on the way. -/
structure Noted (α : Type) where
  /-- The result. -/
  result : α
  /-- The problems in the order in which they were met. -/
  problems : List Diagnostic

namespace Extraction

/-- Text between backquotes. -/
def ticked (text : String) : String := "\x60" ++ text ++ "\x60"

/-- The name that seems to be declared by a text that is no signature: the word behind the first
keyword of a function. -/
def likelyName? (text : String) : Option String :=
  match afterFirst? "fn ".toList text.toList with
  | none => none
  | some rest =>
    let rest := (beforeFirst "fn ".toList rest).dropWhile isBlank
    match rest.takeWhile isWord with
    | [] => none
    | name => some (String.ofList name)
where
  /-- The part of a text before a separator. -/
  beforeFirst (separator : List Char) : List Char → List Char
    | [] => []
    | c :: rest =>
      if (after? separator (c :: rest)).isSome then [] else c :: beforeFirst separator rest

/-- Whether a type is the owning or the declaring one, up to reference marks. -/
def isOwnType (type owning declaring : String) : Bool :=
  let plain := TypeText.stripReferences type
  plain == owning || plain == declaring || plain == "Self"

/-- A declared parameter with its role. -/
def parameterOf (owning declaring : String) (declared : DeclaredParameter) : Parameter where
  name := declared.name
  type := declared.type
  role :=
    if declared.injected then .injected
    else if isOwnType declared.type owning declaring then .selfReference
    else .business

/-- The problems of the names that an operation marker does not know, or of its lack of kinds. -/
def markerProblems (owning : String) (signature : Signature) (markers : OperationMarkers) :
    List Diagnostic :=
  let note (message : String) : Diagnostic :=
    ⟨.unknownMarker, owning, some signature.name, message⟩
  let unknown := markers.unknown.map fun name =>
    note (if name.isEmpty then "operation marker names no kind"
      else ticked name ++ " is not an operation kind")
  if markers.kinds.isEmpty && markers.unknown.isEmpty then
    [note "operation marker names no kind"]
  else unknown

/-- The operation of one kind of a method, or the problem of its receiver. -/
def operationOf (owning declaring : String) (index : Nat) (signature : Signature)
    (markers : OperationMarkers) (kind : Kind) : Except Diagnostic Operation :=
  let wantsReceiver := kind != .execute
  if wantsReceiver != signature.hasReceiver then
    let message :=
      if wantsReceiver then kind.text ++ " operations take \x60&mut self\x60"
      else "execute operations are associated functions without \x60self\x60"
    .error ⟨.invalidReceiver, owning, some signature.name, message⟩
  else
    let target : List Parameter :=
      if kind.isWrite then [⟨"target", owning, .selfReference⟩] else []
    .ok {
      kind
      declaringType := declaring
      method := signature.name
      handler := declaring ++ "::" ++ signature.name
      publicName := if kind = .execute then markers.callable.getD signature.name
        else signature.name
      shape := signature.shape
      remote := markers.remote
      parameters := target ++ signature.parameters.map (parameterOf owning declaring)
      index }

/-- The operations of a method, one for each usable kind. -/
def operationsOf (owning declaring : String) (index : Nat) (signature : Signature) :
    Noted (List Operation) :=
  match signature.operation with
  | none => ⟨[], []⟩
  | some markers =>
    let problems := markerProblems owning signature markers
    match markers.callable.filter (!Syntax.isIdentifier ·) with
    | some callable =>
      ⟨[], problems ++ [⟨.unknownMarker, owning, some signature.name,
        ticked callable ++ " is not a valid callable name"⟩]⟩
    | none =>
      let found := markers.kinds.map (operationOf owning declaring index signature markers)
      ⟨found.filterMap Except.toOption,
        problems ++ found.filterMap fun found =>
          match found with
          | .error problem => some problem
          | .ok _ => none⟩

/-- The method texts of surfaces in order, each with the type that declares it. -/
def memberTexts (surfaces : List Surface) : List (String × String) :=
  surfaces.flatMap fun surface => surface.methods.map (surface.name, ·)

/-- The operations of method texts; methods are counted as they yield operations. -/
def operationsFrom (config : Config) (owning : String) :
    Nat → List (String × String) → Noted (List Operation)
  | _, [] => ⟨[], []⟩
  | index, (declaring, text) :: rest =>
    match Signature.parse config text with
    | .error error =>
      let more := operationsFrom config owning index rest
      ⟨more.result, ⟨.unresolvableSyntax, owning, likelyName? text,
        "member of " ++ ticked declaring ++ " skipped: " ++ error.message⟩ :: more.problems⟩
    | .ok signature =>
      let found := operationsOf owning declaring index signature
      let next := if found.result.isEmpty then index else index + 1
      let more := operationsFrom config owning next rest
      ⟨found.result ++ more.result, found.problems ++ more.problems⟩

/-- The types of the parameters that a method declares. -/
def declaredTypes (operation : Operation) : List String :=
  (operation.parameters.drop operation.targetCount).map (·.type)

/-- The methods that a type declares under the name of an operation: their positions with the types
of their parameters. -/
def overloads (operations : List Operation) (operation : Operation) :
    List (Nat × List String) :=
  let same := operations.filter fun other =>
    other.declaringType == operation.declaringType && other.method == operation.method
  same.foldl
    (fun found other =>
      if found.any (·.1 == other.index) then found
      else found ++ [(other.index, declaredTypes other)])
    []

/-- The key of the handler of an operation among others. A method that its type declares once goes
by its name, an overload by the number of its parameters, and one that shares that number with
another by their types. -/
def handlerKey (operations : List Operation) (operation : Operation) : String :=
  let plain := operation.declaringType ++ "::" ++ operation.method
  let overloads := overloads operations operation
  let types := declaredTypes operation
  if overloads.length < 2 then plain
  else if (overloads.filter (·.2.length == types.length)).length == 1 then
    plain ++ "/" ++ toString types.length
  else plain ++ "(" ++ ", ".intercalate types ++ ")"

/-- The operations of a base chain. -/
def operations (config : Config) (chain : Chain) : Noted (List Operation) :=
  match chain.members with
  | [] => ⟨[], []⟩
  | owner :: _ =>
    let unresolved : List Diagnostic := chain.unresolved.toList.map fun base =>
      ⟨.unresolvedBase, owner.name, some base,
        "base type " ++ ticked base ++ " is not declared; inherited operations are ignored"⟩
    let found := operationsFrom config owner.name 0 (memberTexts chain.members)
    ⟨found.result.map fun operation =>
        { operation with handler := handlerKey found.result operation },
      unresolved ++ found.problems⟩

/-- The check that a method of a policy declares, with the problems of its marker. -/
def checkOf (owning declaring : String) (signature : Signature) : Noted (List Check) :=
  match signature.check with
  | none => ⟨[], []⟩
  | some markers =>
    let note (message : String) : Diagnostic :=
      ⟨.unknownMarker, owning, some signature.name, message⟩
    let problems := markers.unknown.map fun name =>
      note (ticked name ++ " is not a governed operation")
    if markers.mask.isEmpty then
      ⟨[], if markers.unknown.isEmpty then [note "authorization marker governs no operation"]
        else problems⟩
    else
      ⟨[{
        mask := markers.mask
        declaringType := declaring
        method := signature.name
        parameters := signature.parameters.map (parameterOf owning owning)
        remote := markers.remote
        awaitable := signature.shape.isAwaitable }], problems⟩

/-- The checks of the method texts of a policy. -/
def checksFrom (config : Config) (owning : String) :
    List (String × String) → Noted (List Check)
  | [] => ⟨[], []⟩
  | (declaring, text) :: rest =>
    let more := checksFrom config owning rest
    match Signature.parse config text with
    | .error error =>
      ⟨more.result, ⟨.unresolvableSyntax, owning, likelyName? text,
        "policy member of " ++ ticked declaring ++ " skipped: " ++ error.message⟩ ::
          more.problems⟩
    | .ok signature =>
      let found := checkOf owning declaring signature
      ⟨found.result ++ more.result, found.problems ++ more.problems⟩

/-- The checks of a policy. -/
def policyChecks (catalog : Catalog) (config : Config) (owning policy : String) :
    Noted (List Check) :=
  match catalog.chain policy with
  | .error error =>
    ⟨[], [⟨.unresolvedPolicy, owning, some policy,
      "policy cannot be resolved (" ++ error.message ++ "); operations stay open"⟩]⟩
  | .ok chain =>
    let unresolved : List Diagnostic := chain.unresolved.toList.map fun base =>
      ⟨.unresolvedBase, owning, some base,
        "base " ++ ticked base ++ " of policy " ++ ticked policy ++ " is not declared"⟩
    let found := checksFrom config owning (memberTexts chain.members)
    ⟨found.result, unresolved ++ found.problems⟩

/-- The checks that govern the operations of a base chain: those of the policy that the nearest
member with an association names. Where no single policy is found, operations stay open. -/
def checks (catalog : Catalog) (config : Config) (chain : Chain) : Noted (List Check) :=
  match chain.members.head?, chain.members.find? (!·.policies.isEmpty) with
  | some owner, some declaring =>
    match declaring.policies with
    | [policy] => policyChecks catalog config owner.name policy
    | policies =>
      ⟨[], [⟨.multiplePolicies, owner.name, none,
        ticked declaring.name ++ " declares " ++ toString policies.length ++
          " policy associations (" ++ ", ".intercalate policies ++
          "); only one is permitted"⟩]⟩
  | _, _ => ⟨[], []⟩

end Extraction

end DomainFactory
