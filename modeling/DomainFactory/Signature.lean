import DomainFactory.Config
import DomainFactory.Operation
import DomainFactory.Syntax.Grammar
import DomainFactory.TypeText

/-!
# Method signatures

The text of a method is read into its signature: its name, its markers, whether it has a
receiver, its other parameters with the canonical texts of their types, and the shape of what it
returns. A text that ends without a body is read with a semicolon behind it.
-/
namespace DomainFactory

open Syntax Text

/-- What the marker of an operation says. -/
structure OperationMarkers where
  /-- The kinds of the operation. -/
  kinds : List Kind := []
  /-- Whether it runs on another side than its caller. -/
  remote : Bool := false
  /-- The name of the callable an execution stands for. -/
  callable : Option String := none
  /-- The names that mean nothing; a bare marker gives the empty one. -/
  unknown : List String := []
deriving DecidableEq, Repr

/-- What the marker of a check says. -/
structure CheckMarkers where
  /-- The operations the check governs. -/
  mask : Mask := .empty
  /-- Whether it runs on another side than its caller. -/
  remote : Bool := false
  /-- The names that mean nothing. -/
  unknown : List String := []
deriving DecidableEq, Repr

/-- A parameter as it is declared. -/
structure DeclaredParameter where
  /-- Its name; one that is only a placeholder is named by its position. -/
  name : String
  /-- The canonical text of its type. -/
  type : String
  /-- Whether its argument is injected. -/
  injected : Bool
deriving DecidableEq, Repr

/-- Why a text is no method signature. -/
inductive SignatureError where
  /-- It is no signature, or one of its markers is malformed. -/
  | malformed
  /-- A parameter has a pattern that is no plain name. -/
  | notPlain (pattern : String)
deriving DecidableEq, Repr

/-- A method signature. -/
structure Signature where
  /-- The name of the method. -/
  name : String
  /-- What its operation marker says, when it has one. -/
  operation : Option OperationMarkers
  /-- What its check marker says, when it has one. -/
  check : Option CheckMarkers
  /-- Whether it has a receiver. -/
  hasReceiver : Bool
  /-- Its parameters but the receiver. -/
  parameters : List DeclaredParameter
  /-- The shape of what it returns. -/
  shape : ReturnShape
deriving DecidableEq, Repr

namespace SignatureError

/-- The text of an error. -/
def message : SignatureError → String
  | .malformed => "<syntax>"
  | .notPlain pattern => "parameter \x60" ++ pattern ++ "\x60 is not a plain identifier"

end SignatureError

/-- What an attribute carries behind its path. -/
inductive AttributeInput where
  /-- Nothing. -/
  | none
  /-- Tokens between delimiters. -/
  | list (tokens : List Token)
  /-- A value behind an equals sign. -/
  | value

/-- An attribute. -/
structure Attribute where
  /-- Its path, when that is a single word. -/
  name : Option String
  /-- What it carries. -/
  input : AttributeInput

namespace Attribute

/-- What the trees behind the path of an attribute say. -/
def inputOf : List Tree → AttributeInput
  | [] => .none
  | [.leaf (.group _ tokens)] => .list tokens
  | _ => .value

/-- The attribute of a labelled part. -/
def ofTrees (trees : List Tree) : Attribute where
  name :=
    match Tree.tokensAll ((Tree.part? .attributePath trees).getD []) with
    | [.word word] => some word
    | _ => none
  input := inputOf ((Tree.part? .attributeInput trees).getD [])

/-- The attributes of a part. -/
def allOf (trees : List Tree) : List Attribute := (Tree.partsAll .attribute trees).map ofTrees

/-- Whether an attribute has a name as its path. -/
def isNamed (given : Attribute) (name : String) : Bool := given.name == some name

end Attribute

/-- An item of a list of markers. -/
structure Marker where
  /-- Its canonical path. -/
  name : String
  /-- The tokens of its value, when it has one. -/
  value : Option (List Token)
  /-- Whether a list stands behind its path. -/
  hasList : Bool

namespace Marker

/-- The marker of a labelled part. -/
def ofTrees (trees : List Tree) : Marker where
  name := TypeText.normalize (Tree.text ((Tree.part? .markerPath trees).getD []))
  value := (Tree.part? .markerValue trees).map Tree.tokensAll
  hasList := Tree.hasPart .markerList trees

/-- The markers between the delimiters of an attribute. -/
def list? (tokens : List Token) : Option (List Marker) :=
  if tokens.isEmpty then some []
  else
    (declarations.matchAll? .markers tokens).map fun trees =>
      (Tree.partsAll .marker trees).map ofTrees

/-- Whether nothing stands behind the path of a marker. -/
def isBare (marker : Marker) : Bool := marker.value.isNone && !marker.hasList

/-- The content of the string that is the value of a marker. -/
def string? (marker : Marker) : Option String :=
  match marker.value with
  | some [.literal text] => if Literal.isString text then Literal.content? text else none
  | _ => none

end Marker

namespace OperationMarkers

/-- What one more marker says. A known name carries nothing, save that an execution may name its
callable. -/
def add? (markers : OperationMarkers) (marker : Marker) : Option OperationMarkers :=
  if marker.name == "remote" then
    if marker.isBare then some { markers with remote := true } else none
  else
    match Kind.ofMarker? marker.name with
    | some kind =>
      if marker.isBare then some { markers with kinds := markers.kinds ++ [kind] }
      else if kind = .execute then
        marker.string?.map fun callable =>
          { markers with kinds := markers.kinds ++ [kind], callable := some callable }
      else none
    | none => some { markers with unknown := markers.unknown ++ [marker.name] }

/-- What the marker of an operation says. -/
def ofInput? : AttributeInput → Option OperationMarkers
  | .none => some { unknown := [""] }
  | .list tokens => (Marker.list? tokens).bind fun list => list.foldlM add? {}
  | .value => none

end OperationMarkers

namespace CheckMarkers

/-- What one more marker says. A known name carries nothing. -/
def add? (markers : CheckMarkers) (marker : Marker) : Option CheckMarkers :=
  if marker.name == "remote" then
    if marker.isBare then some { markers with remote := true } else none
  else
    match Mask.ofMarker? marker.name with
    | some flag =>
      if marker.isBare then some { markers with mask := markers.mask.union flag } else none
    | none => some { markers with unknown := markers.unknown ++ [marker.name] }

/-- What the marker of a check says. -/
def ofInput? : AttributeInput → Option CheckMarkers
  | .none => some {}
  | .list tokens => (Marker.list? tokens).bind fun list => list.foldlM add? {}
  | .value => none

end CheckMarkers

namespace Signature

/-- The markers found so far: of operations and of checks. -/
abbrev Markers := Option OperationMarkers × Option CheckMarkers

/-- The markers with those of one more attribute; of several attributes with one name the last
counts. -/
def addAttribute? (config : Config) (markers : Markers) (given : Attribute) :
    Option Markers :=
  if given.isNamed config.factoryMarker then
    (OperationMarkers.ofInput? given.input).map fun found => (some found, markers.2)
  else if given.isNamed config.authorizeMarker then
    (CheckMarkers.ofInput? given.input).map fun found => (markers.1, some found)
  else some markers

/-- Whether a type is injected without a marker. -/
def isInjectedType (config : Config) (type : String) : Bool :=
  config.injectedTypes.contains (TypeText.lastSegment type)

/-- The name of a parameter from its pattern. -/
def parameterName (position : Nat) (trees : List Tree) : Except SignatureError String :=
  match Tree.part? .binding trees, Tree.hasPart .wildcard trees with
  | some binding, _ => .ok (Tree.text ((Tree.part? .name binding).getD []))
  | none, true => .ok ("arg" ++ toString position)
  | none, false => .error (.notPlain (Tree.text ((Tree.part? .pattern trees).getD [])))

/-- The parameters from their parts, counted from a position. A part without a type marks further
arguments and is no parameter. -/
def parametersFrom (config : Config) :
    Nat → List (List Tree) → Except SignatureError (List DeclaredParameter)
  | _, [] => .ok []
  | position, trees :: rest =>
    match Tree.part? .type trees with
    | none => parametersFrom config (position + 1) rest
    | some type => do
      let name ← parameterName position trees
      let text := TypeText.normalize (Tree.text type)
      let marked := (Attribute.allOf trees).any (·.isNamed config.serviceMarker)
      let parameters ← parametersFrom config (position + 1) rest
      return ⟨name, text, marked || isInjectedType config text⟩ :: parameters

/-- The declared type of what a method returns. -/
def declaredReturn (trees : List Tree) : Option String :=
  match (Tree.part? .output trees).getD [] with
  | _ :: _ :: type => some (TypeText.normalize (Tree.text type))
  | _ => none

/-- The signature that the trees of a method hold. -/
def ofTrees (config : Config) (trees : List Tree) : Except SignatureError Signature := do
  let (operation, check) ←
    ((Attribute.allOf trees).foldlM (addAttribute? config) (none, none)).elim
      (.error .malformed) .ok
  let parts := Tree.partsAll .parameter trees
  let parameters ← parametersFrom config 0 parts
  return {
    name := Tree.text ((Tree.part? .name trees).getD [])
    operation
    check
    hasReceiver := parts.any (Tree.hasPart .receiver)
    parameters
    shape := .ofDeclared (Tree.hasPart .waits trees) (declaredReturn trees) }

/-- A method text, with a semicolon when it ends in neither a semicolon nor a body. -/
def completed (text : String) : String :=
  let chars := trimChars text.toList
  match chars.getLast? with
  | some ';' => String.ofList chars
  | some '\x7d' => String.ofList chars
  | _ => String.ofList (chars ++ [';'])

/-- Reads the text of a method. -/
def parse (config : Config) (text : String) : Except SignatureError Signature :=
  match parse? .method (completed text) with
  | some trees => ofTrees config trees
  | none => .error .malformed

end Signature

end DomainFactory
