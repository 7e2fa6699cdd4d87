import DomainFactory.Signature
import DomainFactory.Surface

/-!
# Reading surfaces

A surface is read from a trait: the trait's name, the trait it builds on as its base, its
attributes as the markers of the type, and its methods as texts. Of a file every trait is read and
every other item is skipped.
-/
namespace DomainFactory

open Syntax

/-- Why declarations cannot be read. -/
inductive SurfaceError where
  /-- The source text does not follow the grammar. -/
  | badSyntax
  /-- The text is no JSON list of surfaces. -/
  | badJson
  /-- A type builds on more than one other. -/
  | multipleBases (name : String)
  /-- The marker that names the policy of a type is malformed. -/
  | badMarker (name : String)
  /-- The name of a type is no identifier. -/
  | invalidName (name : String)
deriving DecidableEq, Repr

namespace SurfaceError

/-- The text of an error. -/
def message : SurfaceError → String
  | .badSyntax => "surface source does not parse"
  | .badJson => "catalog json is invalid"
  | .multipleBases name => "type " ++ name ++ " declares more than one base type"
  | .badMarker name => "type " ++ name ++ " carries a malformed marker"
  | .invalidName name => "\x60" ++ name ++ "\x60 is not a valid type name"

end SurfaceError

namespace Surface

/-- The name of the last segment of a path. -/
def lastName? (trees : List Tree) : Option String :=
  ((Tree.partsAll .segment trees).getLast?).bind fun segment =>
    match segment with
    | .leaf (.word name) :: _ => some name
    | _ => none

/-- The surface with what one more attribute of the type says. -/
def addAttribute (config : Config) (surface : Surface) (given : Attribute) :
    Except SurfaceError Surface :=
  if given.isNamed config.factoryMarker then .ok surface.withFactory
  else if given.isNamed config.saveStateMarker then .ok surface.trackingSaveState
  else if given.isNamed config.authorizeMarker then
    let policy :=
      match given.input with
      | .list tokens => (declarations.matchAll? (.path .plain) tokens).bind lastName?
      | _ => none
    match policy with
    | some policy => .ok (surface.authorizedBy policy)
    | none => .error (.badMarker surface.name)
  else .ok surface

/-- The surface that the trees of a trait hold. -/
def ofTrees (config : Config) (trees : List Tree) : Except SurfaceError Surface :=
  let name := Tree.text ((Tree.part? .name trees).getD [])
  match (Tree.partsAll .bound trees).filterMap lastName? with
  | _ :: _ :: _ => .error (.multipleBases name)
  | bases => do
    let surface ←
      (Attribute.allOf trees).foldlM (addAttribute config) { name, base := bases.head? }
    return { surface with methods := (Tree.partsAll .method trees).map Tree.text }

/-- Reads a source text that is one trait. -/
def parse (config : Config) (text : String) : Except SurfaceError Surface :=
  match parse? .traitDeclaration text with
  | some trees => ofTrees config trees
  | none => .error .badSyntax

/-- Reads the traits of a source text in order. -/
def parseFile (config : Config) (text : String) : Except SurfaceError (List Surface) :=
  match parse? .file text with
  | some trees => (Tree.partsAll .traitItem trees).mapM (ofTrees config)
  | none => .error .badSyntax

end Surface

end DomainFactory
