import DomainFactory.Syntax.Literal
import DomainFactory.Syntax.Pattern

/-!
# Rules and their building blocks

The rules of the declaration grammar by name, their ranks, and the small patterns that all rules
are built from. A rule that allows a brace behind a path, or a plus sign behind a type, takes that
as a truth value.
-/
namespace DomainFactory.Syntax

open Guard

/-- How the segments of a path are written. -/
inductive PathStyle where
  /-- Among expressions: arguments only behind a double colon. -/
  | expression
  /-- Among types: arguments in angle or round brackets. -/
  | type
  /-- Anywhere else: arguments in angle brackets. -/
  | plain
deriving DecidableEq

/-- The rules of the grammar. -/
inductive Rule where
  /-- Attributes in front of something. -/
  | attributes
  /-- Attributes of what is around them. -/
  | innerAttributes
  /-- What stands between the brackets of an attribute. -/
  | attributeContent
  /-- A path without arguments. -/
  | plainPath
  /-- A segment of a path. -/
  | segment (style : PathStyle)
  /-- A path. -/
  | path (style : PathStyle)
  /-- A path that may begin at a type. -/
  | qualifiedPath (style : PathStyle)
  /-- Arguments in angle brackets. -/
  | arguments
  /-- An argument that is no lifetime. -/
  | argument
  /-- Arguments in round brackets with their result. -/
  | roundArguments
  /-- Lifetimes that a type or a bound is for. -/
  | lifetimeBinder
  /-- A bound. -/
  | bound
  /-- Further bounds. -/
  | boundsRest
  /-- Bounds of which one is a trait. -/
  | boundsWithTrait
  /-- The type of a function. -/
  | functionType
  /-- A type. -/
  | type (plus : Bool)
  /-- The result of a function. -/
  | result (plus : Bool)
  /-- Generics that may be missing. -/
  | generics
  /-- A where clause that may be missing. -/
  | whereClause
  /-- A pattern without alternatives. -/
  | pattern
  /-- A pattern with alternatives. -/
  | alternatives
  /-- An end of a range of patterns. -/
  | patternBound
  /-- The patterns of fields. -/
  | fieldPatterns
  /-- A block. -/
  | block
  /-- A block that may begin with attributes. -/
  | openBlock
  /-- The statements of a block. -/
  | statements
  /-- A statement. -/
  | statement
  /-- A closure. -/
  | closure (braces : Bool)
  /-- An expression that ends with a block. -/
  | blockLike
  /-- A conditional expression. -/
  | conditional
  /-- The arms of a match. -/
  | arms
  /-- An expression without operators. -/
  | atom (braces : Bool)
  /-- Calls, fields and indices behind an expression. -/
  | trailers
  /-- An expression with operators in front. -/
  | unary (braces : Bool)
  /-- Arithmetic behind an operand. -/
  | tightRest (braces : Bool)
  /-- Operands joined by arithmetic. -/
  | tight (braces : Bool)
  /-- At most one comparison. -/
  | comparison (braces : Bool)
  /-- Comparisons joined by logical operators. -/
  | junction (braces : Bool)
  /-- What may follow the first operand of an expression. -/
  | expressionRest (braces : Bool)
  /-- An expression. -/
  | expression (braces : Bool)
  /-- The values of fields. -/
  | fieldValues
  /-- A list of markers. -/
  | markers
  /-- A marker. -/
  | marker
  /-- The parameters of a function. -/
  | parameters (first : Bool)
  /-- The signature of a function. -/
  | signature
  /-- A method of a trait. -/
  | method
  /-- A visibility that may be missing. -/
  | visibility
  /-- The named fields of a type. -/
  | fields
  /-- A member of a trait. -/
  | traitMember
  /-- A trait. -/
  | traitDeclaration
  /-- A name for bounds. -/
  | traitAlias
  /-- The tree of an import. -/
  | useTree
  /-- A member of an implementation. -/
  | implMember
  /-- A member of a block of foreign items. -/
  | foreignMember
  /-- An item. -/
  | item
  /-- The items of a file. -/
  | file
deriving DecidableEq

namespace Rule

/-- The rank of a rule among the rules that may begin at one token. -/
def rank : Rule → Nat
  | .plainPath | .arguments | .roundArguments | .lifetimeBinder | .attributes
  | .innerAttributes | .visibility | .generics | .whereClause | .block | .openBlock => 1
  | .segment _ => 2
  | .path _ => 3
  | .qualifiedPath _ => 4
  | .functionType => 5
  | .bound => 6
  | .boundsRest => 7
  | .boundsWithTrait => 8
  | .type _ => 9
  | .argument | .result _ => 10
  | .patternBound => 11
  | .pattern => 12
  | .alternatives => 13
  | .fieldPatterns => 14
  | .conditional | .closure _ | .trailers => 15
  | .blockLike => 16
  | .atom _ => 17
  | .unary _ => 18
  | .tightRest _ => 19
  | .tight _ => 20
  | .comparison _ => 21
  | .junction _ => 22
  | .expressionRest _ => 23
  | .expression _ => 24
  | .attributeContent => 25
  | .fieldValues | .arms | .fields => 26
  | .marker => 27
  | .markers => 28
  | .signature | .parameters _ => 29
  | .method => 30
  | .traitMember | .implMember | .foreignMember | .useTree => 31
  | .traitDeclaration | .traitAlias => 32
  | .item => 33
  | .statement => 34
  | .statements => 35
  | .file => 36

/-- The limit of ranks. -/
def limit : Nat := 37

/-- All ranks are below the limit. -/
theorem rank_lt_limit (rule : Rule) : rule.rank < limit := by
  cases rule <;> simp [rank, limit]

end Rule

/-- A pattern over the rules of the grammar. -/
abbrev Part := Pattern Rule

namespace Part

/-- The parts one after another. -/
def row : List Part → Part
  | [] => .empty
  | [part] => part
  | part :: parts => .seq part (row parts)

/-- A part that a rule matches. -/
def call (rule : Rule) : Part := Pattern.call rule

/-- The first part whose guard holds. -/
def cases : List (Guard × Part) → Part → Part
  | [], otherwise => otherwise
  | (guard, part) :: more, otherwise => .choose guard part (cases more otherwise)

/-- A part that is there when a guard holds. -/
def whenAhead (guard : Guard) (part : Part) : Part := .choose guard part .empty

/-- A token that a guard accepts, printed as it is. -/
def takeOne (guard : Guard) : Part :=
  .take fun tokens =>
    match tokens with
    | token :: rest => if guard tokens then some ([.leaf token], rest) else none
    | [] => none

/-- A given word. -/
def keyword (text : String) : Part := takeOne (Guard.word text)

/-- A given word that may be missing. -/
def maybe (text : String) : Part := whenAhead (Guard.word text) (keyword text)

/-- An identifier. -/
def name : Part := takeOne ident

/-- Any word. -/
def anyName : Part := takeOne anyWord

/-- An operator that is printed as another one. -/
def respelled (text printed : String) : Part :=
  .take fun tokens =>
    if Guard.op text tokens then
      some ((Token.operator printed).map Tree.leaf, tokens.drop text.length)
    else none

/-- An operator. -/
def sign (text : String) : Part := respelled text text

/-- An operator that may be missing. -/
def maybeSign (text : String) : Part := whenAhead (Guard.op text) (sign text)

/-- The first of some operators that is ahead. -/
def firstSign (texts : List String) : Part :=
  cases (texts.map fun text => (Guard.op text, sign text)) .refuse

/-- A lifetime. -/
def lifetimeName : Part :=
  .take fun tokens =>
    match tokens with
    | .punct '\'' true :: .word text :: rest =>
      some ([.leaf (.punct '\'' true), .leaf (.word text)], rest)
    | _ => none

/-- A literal, perhaps a number behind a minus sign, which is printed as a token of its own. -/
def anyLiteral : Part :=
  .take fun tokens =>
    if !Guard.literal tokens then none
    else
      match tokens with
      | .punct '-' _ :: .literal text :: rest =>
        some ([.leaf (.punct '-' false), .leaf (.literal text)], rest)
      | token :: rest => some ([.leaf token], rest)
      | [] => none

/-- A string literal that may be missing. -/
def maybeString : Part := whenAhead Guard.string (takeOne Guard.string)

/-- Whether any group is ahead. -/
def groupAhead : Guard := Guard.any [group .paren, group .bracket, group .brace]

/-- Any group, its content as it is. -/
def anyGroup : Part := takeOne groupAhead

/-- The end of the tokens. -/
def ending : Part := .choose done .empty .refuse

/-- Parts parted by commas up to the end of the tokens; the last comma may be missing. -/
def commaList (part : Part) : Part :=
  .many (no done) (.seq part (.choose done .empty (sign ",")))

/-- Parts parted by plus signs up to where a guard holds. -/
def sumUntil (part : Part) (stop : Guard) : Part :=
  .choose stop .empty
    (.seq part (.many (op "+") (.seq (sign "+") (.choose stop .empty part))))

/-- Bounds parted by plus signs up to where a guard holds. -/
def boundsUntil : Guard → Part := sumUntil (call .bound)

/-- Lifetimes parted by plus signs up to where a guard holds. -/
def lifetimesUntil : Guard → Part := sumUntil lifetimeName

/-- Whether only the first character of a longer operator is ahead. -/
def exactly (text : String) (longer : List String) : Guard :=
  both (op text) (no (any (longer.map op)))

/-- Looks past attributes. -/
def pastAttributes (guard : Guard) : Guard := fun tokens => guard (go tokens.length tokens)
where
  /-- Drops attributes off the front. -/
  go : Nat → List Token → List Token
    | 0, tokens => tokens
    | fuel + 1, .punct '#' _ :: .group .bracket _ :: rest => go fuel rest
    | _, tokens => tokens

/-- The items of a list of arguments or parameters, each with whether a comma follows it. -/
def separated : List Tree → List (Tree × Bool)
  | [] => []
  | [tree] => [(tree, false)]
  | tree :: .leaf _ :: trees => (tree, true) :: separated trees
  | tree :: trees => (tree, false) :: separated trees

/-- Items behind the lifetimes; a comma is put in where the item before has none. For parameters
only the first item asks for one. -/
def followLifetimes (parameters : Bool) : (comma : Bool) → List (Tree × Bool) → List Tree
  | _, [] => []
  | comma, (tree, separator) :: items =>
    (if comma then [] else [Tree.comma]) ++ tree :: (if separator then [Tree.comma] else []) ++
      followLifetimes parameters (parameters || separator) items

/-- Arguments or parameters with the lifetimes in front. -/
def lifetimesFirst (parameters : Bool) (trees : List Tree) : List Tree :=
  let items := separated trees
  let lifetimes := items.filter fun item => item.1.isPart .lifetime
  let others := items.filter fun item => !item.1.isPart .lifetime
  let comma := (lifetimes.getLast?.map (·.2)).getD true
  lifetimes.flatMap (fun item => item.1 :: (if item.2 then [Tree.comma] else [])) ++
    followLifetimes parameters comma others

end Part

end DomainFactory.Syntax
