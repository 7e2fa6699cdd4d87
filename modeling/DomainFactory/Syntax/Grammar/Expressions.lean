import DomainFactory.Syntax.Grammar.Patterns

/-!
# Expressions and statements

Expressions by levels: operands, arithmetic, at most one comparison, logical operators, and at
last assignment or a range. Conditions are expressions in which no brace may follow a path. A
statement that ends with a block needs no semicolon.
-/
namespace DomainFactory.Syntax.Part

open Guard

/-- Arguments of a call. -/
def callArguments : Part := .group .paren (commaList (call (.expression true)))

/-- The statements of a block. -/
def block : Part := .group .brace (call .statements)

/-- A block that may begin with attributes. -/
def openBlock : Part :=
  .group .brace (.seq (call .innerAttributes) (.node .body (call .statements)))

/-- Whether a closure is ahead. -/
def closureAhead : Guard :=
  any
    [op "|", Guard.word "move",
      all [Guard.word "for", second (op "<"), either (third lifetime) (third (op ">"))],
      both (Guard.word "const") (no (second (group .brace))),
      Guard.word "static",
      both (Guard.word "async") (second (either (op "|") (Guard.word "move")))]

/-- A closure. -/
def closure (braces : Bool) : Part :=
  let parameter :=
    row [call .attributes, call .pattern,
      whenAhead (op ":") (.seq (sign ":") (call (.type true)))]
  row [maybeBinder, maybe "const", maybe "static", maybe "async", maybe "move", sign "|",
    .many (no (op "|")) (.seq parameter (.choose (op "|") .empty (sign ","))), sign "|",
    .choose (op "->") (row [sign "->", call (.type true), call .block])
      (call (.expression braces))]

/-- Whether a block that is waited for is ahead. -/
def asyncBlockAhead : Guard :=
  both (Guard.word "async")
    (either (second (group .brace))
      (both (second (Guard.word "move")) (third (group .brace))))

/-- Whether an expression that ends with a block is ahead. -/
def blockLikeAhead : Guard :=
  any
    [oneOf ["if", "while", "loop", "match"],
      both (Guard.word "for") (no (second (op "<"))),
      both (oneOf ["try", "unsafe", "const"]) (second (group .brace)),
      group .brace, lifetime]

/-- A condition. -/
def condition : Part := call (.expression false)

/-- An expression that ends with a block. -/
def blockLike : Part :=
  cases
    [(lifetime,
        row [lifetimeName, sign ":",
          .choose (either (oneOf ["while", "for", "loop"]) (group .brace)) (call .conditional)
            .refuse])]
    (call .conditional)

/-- An expression that ends with a block, without a label. -/
def conditional : Part :=
  cases
    [(Guard.word "if",
        row [keyword "if", condition, call .block,
          whenAhead (Guard.word "else")
            (.seq (keyword "else")
              (.choose (Guard.word "if") (call .conditional) (call .block)))]),
      (Guard.word "while", row [keyword "while", condition, call .openBlock]),
      (Guard.word "for",
        row [keyword "for", call .alternatives, keyword "in", condition, call .openBlock]),
      (Guard.word "loop", .seq (keyword "loop") (call .openBlock)),
      (Guard.word "match",
        row [keyword "match", condition,
          .group .brace (.seq (call .innerAttributes) (call .arms))]),
      (oneOf ["try", "unsafe", "const"], .seq anyName (call .openBlock)),
      (group .brace, call .openBlock)]
    .refuse

/-- Whether a field, a call on one or a question mark goes on an expression that ends with a
block. -/
def goesOn : Guard := either (exactly "." [".."]) (op "?")

/-- The arms of a match; an arm that does not end with a block is parted from the next by a
comma. -/
def arms : Part :=
  let separator := .choose done .empty (sign ",")
  .many (no done)
    (row [call .attributes, call .alternatives,
      whenAhead (Guard.word "if") (.seq (keyword "if") (call (.expression true))), sign "=>",
      .choose blockLikeAhead
        (.seq (call .blockLike)
          (.choose goesOn
            (row [call .trailers, call (.expressionRest true), separator]) (maybeSign ",")))
        (.seq (call (.expression true)) separator)])

/-- The values of fields, perhaps with a value for the rest. -/
def fieldValues : Part :=
  let value :=
    .choose plainLiteral (row [position, sign ":", call (.expression true)])
      (.seq name (whenAhead (op ":") (.seq (sign ":") (call (.expression true)))))
  .choose done .empty
    (.choose (op "..") (.seq (sign "..") (.choose done .empty (call (.expression true))))
      (row [call .attributes, value,
        .choose done .empty (.seq (sign ",") (call .fieldValues))]))

/-- Whether an operand may begin. -/
def operandAhead : Guard :=
  any
    [both anyWord (no (Guard.word "as")), group .paren, group .bracket, group .brace,
      plainLiteral, exactly "!" ["!="], exactly "-" ["-=", "->"], exactly "*" ["*="],
      exactly "|" ["|="], exactly "&" ["&="], op "..", exactly "<" ["<=", "<<="], op "::",
      lifetime, op "#"]

/-- Whether a range without an end ends. -/
def openRangeEnds (braces : Bool) : Guard :=
  any
    [done, op ",", op ";", exactly "." [".."], op "?", op "=>",
      (fun tokens => !braces && group .brace tokens), op "=", op "+", op "/", op "%", op "^",
      op ">", op "<=", op "!=", op "-=", op "*=", op "&=", op "|=", op "<<=", Guard.word "as"]

/-- The operator of a range and its end. -/
def rangeOperator (braces : Bool) : Part :=
  cases
    [(op "..=", .seq (sign "..=") (call (.junction braces))),
      (op "...", .refuse)]
    (.seq (sign "..")
      (.choose (openRangeEnds braces) .empty (call (.junction braces))))

/-- Whether a path without arguments is ahead. -/
def anyPathAhead : Guard := any [ident, oneOf placeWords, op "::"]

/-- An expression that begins with a path: also a macro or the fields of a value. -/
def pathExpression (braces : Bool) : Part :=
  .seq (call (.qualifiedPath .expression))
    (cases
      [(exactly "!" ["!="], .seq (sign "!") anyGroup),
        ((fun tokens => braces && group .brace tokens),
          .group .brace (call .fieldValues))]
      .empty)

/-- An expression without operators. -/
def atom (braces : Bool) : Part :=
  let whole := call (.expression true)
  cases
    [(either plainLiteral (oneOf ["true", "false"]), anyLiteral),
      (asyncBlockAhead, row [keyword "async", maybe "move", call .block]),
      (both blockLikeAhead (no lifetime), call .blockLike),
      (closureAhead, call (.closure braces)),
      (any [anyPathAhead, op "<",
          both (Guard.word "try") (second (either (op "!") (op "::")))],
        pathExpression braces),
      (group .paren, callArguments),
      (Guard.word "break",
        row [keyword "break", whenAhead lifetime lifetimeName,
          .choose (both operandAhead (if braces then fun _ => true else no (group .brace)))
            (call (.expression braces)) .empty]),
      (Guard.word "continue", .seq (keyword "continue") (whenAhead lifetime lifetimeName)),
      (oneOf ["return", "yield"], .seq anyName (whenAhead operandAhead whole)),
      (Guard.word "become", .seq (keyword "become") whole),
      (group .bracket,
        .group .bracket
          (.choose done .empty
            (.seq whole
              (.choose (op ";") (.seq (sign ";") whole)
                (.many (no done) (.seq (sign ",") (.choose done .empty whole))))))),
      (Guard.word "let",
        row [keyword "let", call .alternatives, sign "=", call (.comparison braces)]),
      (op "..", rangeOperator braces),
      (Guard.word "_", keyword "_"),
      (lifetime, call .blockLike)]
    .refuse

/-- The positions that a number stands for, which ends with a point or does not. -/
def positionsOf (trailing : Bool) : Part :=
  .take fun tokens =>
    match tokens with
    | .literal text :: rest =>
      match Literal.positions? text.toList with
      | some (digits, found) =>
        if found = trailing then
          let leaves := digits.map fun digits => Tree.leaf (.literal digits)
          some (leaves.intersperse (.leaf (.punct '.' false)), rest)
        else none
      | none => none
    | _ => none

/-- The positions that a number behind a point stands for; one that ends with a point has a further
field behind it. -/
def positions : Part :=
  .attempt (positionsOf false)
    (row [positionsOf true, .print (Token.operator "."), .choose ident name position])

/-- Calls, fields, indices and question marks behind an expression. -/
def trailers : Part :=
  let more := call .trailers
  cases
    [(group .paren, .seq callArguments more),
      (exactly "." [".."],
        row [sign ".",
          cases
            [(plainLiteral, .attempt position positions), (Guard.word "await", keyword "await")]
            (.seq name (whenAhead (op "::") (.seq (call .arguments) callArguments))),
          more]),
      (group .bracket, .seq (.group .bracket (call (.expression true))) more),
      (op "?", .seq (sign "?") more)]
    .empty

/-- An expression with operators in front. -/
def unary (braces : Bool) : Part :=
  .seq (call .attributes)
    (cases
      [(op "&",
          row [sign "&",
            .choose (both (Guard.word "raw") (second (oneOf ["mut", "const"])))
              (.seq anyName anyName) (maybe "mut"),
            call (.unary braces)]),
        (any [op "*", op "!", op "-"],
          .seq (firstSign ["*", "!", "-"]) (call (.unary braces)))]
      (.seq (call (.atom braces)) (call .trailers)))

/-- Whether an arithmetic operator is ahead. -/
def arithmeticAhead : Guard :=
  any
    [exactly "<<" ["<<="], exactly ">>" [">>="], exactly "+" ["+="], exactly "-" ["-="],
      exactly "*" ["*="], exactly "/" ["/="], exactly "%" ["%="], exactly "^" ["^="],
      exactly "&" ["&&", "&="], exactly "|" ["||", "|="]]

/-- What may not follow a conversion. -/
def conversionRefused : Guard := any [goesOn, group .bracket, group .paren]

/-- Arithmetic and conversions behind an operand. -/
def tightRest (braces : Bool) : Part :=
  cases
    [(arithmeticAhead,
        row [firstSign ["<<", ">>", "+", "-", "*", "/", "%", "^", "&", "|"],
          call (.unary braces), call (.tightRest braces)]),
      (Guard.word "as",
        row [keyword "as", call (.type false),
          .choose conversionRefused .refuse (call (.tightRest braces))])]
    .empty

/-- Operands joined by arithmetic. -/
def tight (braces : Bool) : Part := .seq (call (.unary braces)) (call (.tightRest braces))

/-- Whether a comparison is ahead. -/
def comparisonAhead : Guard :=
  any
    [op "==", op "!=", exactly "<" ["<<"], exactly ">" [">>"]]

/-- A comparison behind its left side. -/
def comparisonRest (braces : Bool) : Part :=
  whenAhead comparisonAhead
    (.seq (firstSign ["==", "!=", "<=", ">=", "<", ">"]) (call (.tight braces)))

/-- At most one comparison. -/
def comparison (braces : Bool) : Part := .seq (call (.tight braces)) (comparisonRest braces)

/-- Further comparisons behind logical operators. -/
def junctionRest (braces : Bool) : Part :=
  .many (either (op "&&") (op "||"))
    (.seq (firstSign ["&&", "||"]) (call (.comparison braces)))

/-- Comparisons joined by logical operators. -/
def junction (braces : Bool) : Part :=
  .seq (call (.comparison braces)) (junctionRest braces)

/-- The operators that assign. -/
def assignments : List String :=
  ["+=", "-=", "*=", "/=", "%=", "^=", "&=", "|=", "<<=", ">>="]

/-- An assignment or a range behind its left side. -/
def assignmentRest (braces : Bool) : Part :=
  cases
    [(any (assignments.map op),
        .seq (firstSign assignments) (call (.expression braces))),
      (exactly "=" ["==", "=>"], .seq (sign "=") (call (.expression braces))),
      (op "..", rangeOperator braces)]
    .empty

/-- What may follow the first operand of an expression. -/
def expressionRest (braces : Bool) : Part :=
  row [call (.tightRest braces), comparisonRest braces, junctionRest braces,
    assignmentRest braces]

/-- An expression. -/
def expression (braces : Bool) : Part :=
  .seq (call (.junction braces)) (assignmentRest braces)

/-- Whether a word may be a segment of a path without arguments. -/
def isSegmentWord (text : String) : Bool := !reserved.contains text || placeWords.contains text

/-- Drops the segments of a path without arguments off the front. -/
def afterSegments : List Token → List Token
  | .word text :: .punct ':' true :: .punct ':' joint :: rest =>
    if isSegmentWord text then afterSegments rest
    else .word text :: .punct ':' true :: .punct ':' joint :: rest
  | .word text :: rest => if isSegmentWord text then rest else .word text :: rest
  | tokens => tokens

/-- Drops a path without arguments off the front. -/
def afterPath : List Token → List Token
  | .punct ':' true :: .punct ':' _ :: rest => afterSegments rest
  | tokens => afterSegments tokens

/-- Whether a macro with braces is ahead that is a statement of its own. -/
def braceMacroAhead : Guard := fun tokens =>
  match afterPath tokens with
  | .punct '!' _ :: .group .brace _ :: rest => anyPathAhead tokens && !goesOn rest
  | _ => false

/-- Whether a named macro is ahead, which is an item. -/
def itemMacroAhead : Guard := fun tokens =>
  match afterPath tokens with
  | .punct '!' _ :: rest => anyPathAhead tokens && either ident (Guard.word "try") rest
  | _ => false

/-- Whether an item is ahead among statements. -/
def itemAhead : Guard :=
  any
    [oneOf ["pub", "extern", "use", "fn", "mod", "type", "struct", "enum", "trait", "impl",
        "macro"],
      both (Guard.word "crate") (no (second (op "::"))),
      both (Guard.word "static")
        (either (second (Guard.word "mut")) (second ident)),
      both (Guard.word "const")
        (either (second (either ident (oneOf ["_", "unsafe", "extern", "fn"])))
          (both (second (Guard.word "async")) (third (oneOf ["unsafe", "extern", "fn"])))),
      both (Guard.word "unsafe") (no (second (group .brace))),
      both (Guard.word "async") (second (oneOf ["unsafe", "extern", "fn"])),
      both (Guard.word "union") (second ident),
      both (Guard.word "auto") (second (Guard.word "trait")),
      both (Guard.word "default") (second (oneOf ["unsafe", "impl"])),
      itemMacroAhead]

/-- The end of a statement that needs a semicolon, unless it is the last. -/
def statementEnd : Part := .choose done .empty (sign ";")

/-- A statement. -/
def statement : Part :=
  cases
    [(op ";", sign ";"),
      (pastAttributes (Guard.word "let"),
        row [call .attributes, keyword "let", call .pattern,
          whenAhead (op ":") (.seq (sign ":") (call (.type true))),
          whenAhead (op "=")
            (row [sign "=", call (.expression true),
              whenAhead (Guard.word "else") (.seq (keyword "else") (call .block))]),
          sign ";"]),
      (pastAttributes braceMacroAhead,
        row [call .attributes, call .plainPath, sign "!", anyGroup, maybeSign ";"]),
      (pastAttributes itemAhead, call .item),
      (pastAttributes blockLikeAhead,
        row [call .attributes, call .blockLike,
          .choose goesOn
            (row [call .trailers, call (.expressionRest true), statementEnd])
            (maybeSign ";")])]
    (.seq (call (.expression true)) statementEnd)

/-- The statements of a block. -/
def statements : Part := .many (no done) (call .statement)

end DomainFactory.Syntax.Part
