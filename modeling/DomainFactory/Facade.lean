import DomainFactory.Plan
import DomainFactory.Syntax.Lexer

/-!
# Facades

The facade of a factory is source text with one typed function for each way to call a method, the
identities of the methods that can be called from another side, and the function that registers the
factory. It is laid out first and printed then; a name that is no identifier cannot be printed.
-/
namespace DomainFactory

open Syntax Text

/-- How a function of a facade calls the factory. -/
inductive FacadeEntry where
  /-- Calls a read. -/
  | read
  /-- Calls a write. -/
  | write
  /-- Calls a save. -/
  | save
  /-- Calls a save and reports denial. -/
  | attempt
  /-- Asks a probe. -/
  | can
deriving DecidableEq, Repr

/-- A function of a facade. -/
structure FacadeFunction where
  /-- Its name. -/
  name : String
  /-- How it calls the factory. -/
  entry : FacadeEntry
  /-- The method it calls. -/
  method : String
  /-- The names of its parameters behind the target. -/
  parameters : List String
deriving DecidableEq, Repr

/-- The facade of a factory. -/
structure Facade where
  /-- The type whose factory it is. -/
  typeName : String
  /-- The name of the facade. -/
  name : String
  /-- The identities of methods that can be called from another side. -/
  identities : List String
  /-- Its functions. -/
  functions : List FacadeFunction
  /-- The name of the function that registers the factory. -/
  hook : String
deriving DecidableEq, Repr

namespace FacadeEntry

/-- The entry of the factory that is called. -/
def callee : FacadeEntry → String
  | .read => "read"
  | .write => "write"
  | .save => "save"
  | .attempt => "try_save"
  | .can => "can"

/-- Whether callers give a target first. -/
def takesTarget : FacadeEntry → Bool
  | .write | .save | .attempt => true
  | .read | .can => false

/-- What the call gives when it does not fail. -/
def resultType : FacadeEntry → String
  | .read | .write | .save => ":: std :: option :: Option < :: opfactory_runtime :: Output >"
  | .attempt => ":: opfactory_runtime :: SaveAttempt"
  | .can => ":: opfactory_runtime :: Authorized"

end FacadeEntry

namespace FacadeFunction

/-- The functions of a planned method. -/
def ofMethod (method : PlannedMethod) : List FacadeFunction :=
  let parameters := method.parameters.map (·.name)
  let function (name : String) (entry : FacadeEntry) : FacadeFunction :=
    { name, entry, method := method.name, parameters }
  match method.role, method.body with
  | .read, _ => [function method.name .read]
  | .write, _ => [function method.name .write]
  | .save, .save _ _ _ tryName =>
    function method.name .save :: (tryName.toList.map (function · .attempt))
  | .save, _ => [function method.name .can]
  | .probe, _ => [function method.name .can]

end FacadeFunction

namespace Facade

/-- The facade of a plan. -/
def ofPlan (plan : Plan) : Facade where
  typeName := plan.typeName
  name := plan.factoryName
  identities := plan.dispatch.map (·.id)
  functions := plan.methods.flatMap FacadeFunction.ofMethod
  hook := plan.registrationHook

/-- Whether a text is a word, which a keyword is too. -/
def isName (text : String) : Bool :=
  match Lexer.anyWord? text.toList with
  | some (_, rest) => rest.isEmpty
  | none => false

/-- The names that a facade declares. -/
def names (facade : Facade) : List String :=
  facade.name :: facade.hook ::
    facade.functions.flatMap fun function => function.name :: function.parameters

/-- Tokens from their texts, parted by spaces. -/
def pieces (text : String) : List Token :=
  (splitAt ' ' text.toList).map fun piece => .word (String.ofList piece)

/-- Lists of tokens parted by commas. -/
def commaSeparated : List (List Token) → List Token
  | [] => []
  | [item] => item
  | item :: items => item ++ .word "," :: commaSeparated items

/-- A string literal. -/
def stringToken (text : String) : Token := .literal (literal text)

/-- An attribute. -/
def attributeTokens (content : List Token) : List Token := [.word "#", .group .bracket content]

/-- A documentation attribute that the facade itself carries. -/
def remark (text : String) : List Token :=
  attributeTokens (pieces "doc =" ++ [.literal ("r\"" ++ text ++ "\"")])

/-- The type of shared factories. -/
def sharedFactory : String := ":: std :: sync :: Arc < :: opfactory_runtime :: Factory >"

/-- A function of a facade as tokens. -/
def functionTokens (function : FacadeFunction) : List Token :=
  let typed := function.parameters.map fun name =>
    .word name :: pieces ": impl :: std :: convert :: Into < :: opfactory_core :: Value >"
  let target := if function.entry.takesTarget then pieces "target : :: opfactory_core :: Entity ,"
    else []
  let converted := function.parameters.map fun name =>
    .word name :: pieces ". into" ++ [.group .paren []]
  let vector := pieces "vec !" ++ [.group .bracket (commaSeparated converted)]
  let arguments := stringToken function.method :: .word "," ::
    (if function.entry.takesTarget then pieces "target ," else []) ++ vector
  pieces "pub async fn" ++
    [.word function.name,
      .group .paren (pieces "& self ," ++ target ++ commaSeparated typed)] ++
    pieces "-> :: std :: result :: Result <" ++ pieces function.entry.resultType ++
    pieces ", :: opfactory_runtime :: FactoryError >" ++
    [.group .brace
      (pieces "self . inner ." ++ .word function.entry.callee :: .group .paren arguments ::
        pieces ". await")]

/-- A facade as tokens. -/
def tokens (facade : Facade) : List Token :=
  attributeTokens
      (pieces "doc =" ++ [stringToken ("Factory for \x60" ++ facade.typeName ++ "\x60.")]) ++
    attributeTokens [.word "derive", .group .paren [.word "Clone"]] ++
    pieces "pub struct" ++ [.word facade.name,
      .group .brace (pieces ("inner : " ++ sharedFactory ++ " ,"))] ++
    [.word "impl", .word facade.name, .group .brace (members facade)] ++
    remark " Stores the factory in the registry under its factory name." ++
    pieces "pub fn" ++ [.word facade.hook,
      .group .paren
        (pieces ("registry : & :: opfactory_runtime :: ServiceRegistry , factory : " ++
          sharedFactory ++ " ,")),
      .group .brace (pieces "factory . register" ++
        [.group .paren [.word "registry"], .word ";"])]
where
  /-- The members of a facade. -/
  members (facade : Facade) : List Token :=
    remark " Dispatch identities served by this factory." ++
      pieces "pub const OPERATIONS : & 'static" ++ [.group .bracket (pieces "& 'static str")] ++
      pieces "= &" ++
      [.group .bracket (commaSeparated (facade.identities.map fun id => [stringToken id])),
        .word ";"] ++
      attributeTokens [.word "must_use"] ++
      pieces "pub fn new" ++
      [.group .paren (pieces ("inner : " ++ sharedFactory)), .word "->", .word "Self",
        .group .brace [.word "Self", .group .brace [.word "inner"]]] ++
      facade.functions.flatMap functionTokens

/-- The source text of a facade; none when one of its names is no identifier. -/
def text? (facade : Facade) : Option String :=
  if facade.names.all isName then some (Token.textAll facade.tokens) else none

end Facade

end DomainFactory
