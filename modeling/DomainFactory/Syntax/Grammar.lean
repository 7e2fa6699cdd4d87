import DomainFactory.Syntax.Grammar.Items

/-!
# The declaration grammar

The grammar of declarations as a whole: each rule with its pattern. `Grammar.parse?` reads a
source text by one rule.
-/
namespace DomainFactory.Syntax

/-- The pattern of a rule. -/
def Rule.definition : Rule → Part
  | .attributes => Part.attributes
  | .innerAttributes => Part.innerAttributes
  | .attributeContent => Part.attributeContent
  | .plainPath => Part.plainPath
  | .segment style => Part.segment style
  | .path style => Part.path style
  | .qualifiedPath style => Part.qualifiedPath style
  | .arguments => Part.arguments
  | .argument => Part.argument
  | .roundArguments => Part.roundArguments
  | .lifetimeBinder => Part.lifetimeBinder
  | .bound => Part.bound
  | .boundsRest => Part.boundsRest
  | .boundsWithTrait => Part.boundsWithTrait
  | .functionType => Part.functionType
  | .type plus => Part.type plus
  | .result plus => Part.result plus
  | .generics => Part.generics
  | .whereClause => Part.whereClause
  | .pattern => Part.pattern
  | .alternatives => Part.alternatives
  | .patternBound => Part.patternBound
  | .fieldPatterns => Part.fieldPatterns
  | .block => Part.block
  | .openBlock => Part.openBlock
  | .statements => Part.statements
  | .statement => Part.statement
  | .closure braces => Part.closure braces
  | .blockLike => Part.blockLike
  | .conditional => Part.conditional
  | .arms => Part.arms
  | .atom braces => Part.atom braces
  | .trailers => Part.trailers
  | .unary braces => Part.unary braces
  | .tightRest braces => Part.tightRest braces
  | .tight braces => Part.tight braces
  | .comparison braces => Part.comparison braces
  | .junction braces => Part.junction braces
  | .expressionRest braces => Part.expressionRest braces
  | .expression braces => Part.expression braces
  | .fieldValues => Part.fieldValues
  | .markers => Part.markers
  | .marker => Part.marker
  | .parameters first => Part.parameters first
  | .signature => Part.signature
  | .method => Part.method
  | .visibility => Part.visibility
  | .fields => Part.fields
  | .traitMember => Part.traitMember
  | .traitDeclaration => Part.traitDeclaration
  | .traitAlias => Part.traitAlias
  | .useTree => Part.useTree
  | .implMember => Part.implMember
  | .foreignMember => Part.foreignMember
  | .item => Part.item
  | .file => Part.file

/-- The declaration grammar. -/
def declarations : Grammar Rule := ⟨Rule.definition, Rule.rank, Rule.limit, Rule.rank_lt_limit⟩

/-- The trees of a rule that matches a whole source text. -/
def parse? (rule : Rule) (text : String) : Option (List Tree) :=
  (Lexer.read? text).bind (declarations.matchAll? rule)

/-- Whether a text is an identifier, perhaps with white space or comments around it. -/
def isIdentifier (text : String) : Bool :=
  match Lexer.read? text with
  | some [token] => Guard.ident [token]
  | _ => false

end DomainFactory.Syntax
