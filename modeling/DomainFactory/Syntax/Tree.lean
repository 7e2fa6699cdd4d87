import DomainFactory.Syntax.Token

/-!
# Syntax trees

A syntax tree keeps the tokens a grammar matched, as the grammar prints them, with nodes around
the parts that later stages look at. What stands inside a node is hidden from a search around it.
-/
namespace DomainFactory.Syntax

/-- What a part of a declaration is. -/
inductive Label where
  /-- An attribute with its brackets. -/
  | attribute
  /-- The path of an attribute. -/
  | attributePath
  /-- What an attribute carries behind its path. -/
  | attributeInput
  /-- An item of a list of markers. -/
  | marker
  /-- The path of a marker. -/
  | markerPath
  /-- What follows the equals sign of a marker. -/
  | markerValue
  /-- A list in round brackets behind the path of a marker. -/
  | markerList
  /-- A trait declaration. -/
  | traitItem
  /-- A method of a trait. -/
  | method
  /-- The name of an item. -/
  | name
  /-- The keyword of a method that is waited for. -/
  | waits
  /-- The receiver of a method. -/
  | receiver
  /-- A parameter of a method. -/
  | parameter
  /-- A pattern that is a name. -/
  | binding
  /-- The pattern that matches anything. -/
  | wildcard
  /-- Any other pattern. -/
  | pattern
  /-- A type. -/
  | type
  /-- The type that a method returns. -/
  | output
  /-- A trait that a trait builds on. -/
  | bound
  /-- A segment of a path. -/
  | segment
  /-- A lifetime among arguments or parameters. -/
  | lifetime
  /-- Any other argument or parameter. -/
  | argument
  /-- A part that no later stage looks into. -/
  | body
deriving DecidableEq, Repr

/-- A syntax tree. -/
inductive Tree where
  /-- A token. -/
  | leaf (token : Token)
  /-- A group whose content has a tree of its own. -/
  | group (delimiter : Delimiter) (trees : List Tree)
  /-- A labelled part. -/
  | node (label : Label) (trees : List Tree)
deriving Repr

namespace Tree

mutual

/-- The tokens of a tree. -/
def tokens : Tree → List Token
  | .leaf token => [token]
  | .group delimiter trees => [.group delimiter (tokensAll trees)]
  | .node _ trees => tokensAll trees

/-- The tokens of trees in order. -/
def tokensAll : List Tree → List Token
  | [] => []
  | tree :: trees => tokens tree ++ tokensAll trees

end

/-- The text of trees. -/
def text (trees : List Tree) : String := Token.textAll (tokensAll trees)

mutual

/-- The parts of a tree with a label that stand inside no other part. -/
def parts (label : Label) : Tree → List (List Tree)
  | .leaf _ => []
  | .group _ trees => partsAll label trees
  | .node found trees => if found = label then [trees] else []

/-- The parts of trees with a label, in order. -/
def partsAll (label : Label) : List Tree → List (List Tree)
  | [] => []
  | tree :: trees => parts label tree ++ partsAll label trees

end

/-- The first part with a label. -/
def part? (label : Label) (trees : List Tree) : Option (List Tree) := (partsAll label trees).head?

/-- Whether there is a part with a label. -/
def hasPart (label : Label) (trees : List Tree) : Bool := (part? label trees).isSome

/-- Whether a tree is a part with a label. -/
def isPart (label : Label) : Tree → Bool
  | .node found _ => found == label
  | _ => false

/-- The comma. -/
def comma : Tree := .leaf (.punct ',' false)

end Tree

end DomainFactory.Syntax
