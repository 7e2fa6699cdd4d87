import DomainFactory.Syntax.Grammar.Rule

/-!
# Paths, types and generics

The patterns of paths and their arguments, types and bounds, generic parameters and where
clauses. Arguments and parameters print lifetimes first; an empty list of parameters, an empty
where clause and a colon without bounds print nothing.
-/
namespace DomainFactory.Syntax.Part

open Guard

/-- Words that stand for a place in the tree of modules. -/
def placeWords : List String := ["super", "self", "Self", "crate"]

/-- A segment of a path without arguments. -/
def plainSegment : Part := .choose (oneOf placeWords) anyName name

/-- A path without arguments. -/
def plainPath : Part :=
  row [maybeSign "::", plainSegment, .many (op "::") (.seq (sign "::") plainSegment)]

/-- Arguments in round brackets behind a segment; a double colon in front is not printed. -/
def roundBehind : Part :=
  cases
    [(group .paren, .node .body (call .roundArguments)),
      (both (op "::") (third (group .paren)),
        .seq (.hide (sign "::")) (.node .body (call .roundArguments)))]
    .empty

/-- A segment of a path. -/
def segment (style : PathStyle) : Part :=
  let round := if style = .type then roundBehind else .empty
  let angled : Guard :=
    let turbofish := both (op "::") (third (op "<"))
    if style = .expression then turbofish
    else either (exactly "<" ["<="]) turbofish
  .node .segment
    (.choose (oneOf ["super", "self", "crate", "try"]) (.seq anyName round)
      (.seq (.choose (Guard.word "Self") anyName name)
        (.choose angled (call .arguments) round)))

/-- A path. -/
def path (style : PathStyle) : Part :=
  row [maybeSign "::", call (.segment style),
    .many (both (op "::") (no (third (group .paren)))) (.seq (sign "::") (call (.segment style)))]

/-- A path, or one that begins at a type. -/
def qualifiedPath (style : PathStyle) : Part :=
  .choose (op "<")
    (row [sign "<", call (.type true),
      whenAhead (Guard.word "as") (.seq (keyword "as") (call (.path .plain))),
      sign ">", sign "::", call (.segment style),
      .many (op "::") (.seq (sign "::") (call (.segment style)))])
    (call (.path style))

/-- Arguments in angle brackets. -/
def arguments : Part :=
  row [maybeSign "::", sign "<",
    .arrange (lifetimesFirst false)
      (.many (no (op ">"))
        (.seq
          (.choose (both lifetime (no (second (op "+")))) (.node .lifetime lifetimeName)
            (.node .argument (call .argument)))
          (.choose (op ">") .empty (sign ",")))),
    sign ">"]

/-- A constant among arguments. -/
def constant : Part :=
  cases [(literal, anyLiteral), (ident, name), (group .brace, call .block)] .refuse

/-- Whether a literal or a block is ahead. -/
def constantAhead : Guard := either literal (group .brace)

/-- An argument that is no lifetime: a constant, a type, or the name of an associated item with what
it is or what it is bounded by. -/
def argument : Part :=
  .choose constantAhead constant
    (.choose (both anyWord (no (second (op "::"))))
      (.seq (call (.type true))
        (cases
          [(op "=", .seq (sign "=") (.choose constantAhead constant (call (.type true)))),
            (op ":", .seq (sign ":") (boundsUntil (either (op ",") (op ">"))))]
          .empty))
      (call (.type true)))

/-- Arguments in round brackets with the result behind them. -/
def roundArguments : Part :=
  .seq (.group .paren (commaList (call (.type true)))) (call (.result false))

/-- The result of a function. -/
def result (plus : Bool) : Part :=
  whenAhead (op "->") (.seq (sign "->") (call (.type plus)))

/-- A parameter of generics. -/
def genericParameter : Part :=
  let bounds := fun (sum : Guard → Part) stop =>
    whenAhead (op ":")
      (.choose (second stop) (.hide (sign ":")) (.seq (sign ":") (sum stop)))
  .choose (pastAttributes lifetime)
    (.node .lifetime
      (row [call .attributes, lifetimeName, bounds lifetimesUntil (either (op ",") (op ">"))]))
    (.node .argument
      (.seq (call .attributes)
        (cases
          [(ident,
              row [name, bounds boundsUntil (any [op ",", op ">", op "="]),
                whenAhead (op "=") (.seq (sign "=") (call (.type true)))]),
            (Guard.word "const",
              row [keyword "const", name, sign ":", call (.type true),
                whenAhead (op "=") (.seq (sign "=") constant)]),
            (Guard.word "_", keyword "_")]
          .refuse)))

/-- Parameters of generics up to the closing bracket. -/
def genericParameters : Part :=
  .many (no (op ">")) (.seq genericParameter (.choose (op ">") .empty (sign ",")))

/-- Generics that may be missing. -/
def generics : Part :=
  whenAhead (op "<")
    (.choose (second (op ">")) (.hide (.seq (sign "<") (sign ">")))
      (row [sign "<", .arrange (lifetimesFirst true) genericParameters, sign ">"]))

/-- Lifetimes that a type or a bound is for. -/
def lifetimeBinder : Part := row [keyword "for", sign "<", genericParameters, sign ">"]

/-- A binder that may be missing. -/
def maybeBinder : Part := whenAhead (Guard.word "for") (call .lifetimeBinder)

/-- Where the predicates of a where clause, or the bounds of one, end. -/
def clauseEnd : Guard :=
  any [done, group .brace, op ",", op ";", exactly ":" ["::"], op "="]

/-- A predicate of a where clause. -/
def predicate : Part :=
  .choose (both lifetime (second (op ":")))
    (row [lifetimeName, sign ":", lifetimesUntil clauseEnd])
    (row [maybeBinder, call (.type true), sign ":", boundsUntil clauseEnd])

/-- The predicates of a where clause. -/
def predicates : Part :=
  .seq predicate (.many (op ",") (.seq (sign ",") (.choose clauseEnd .empty predicate)))

/-- A where clause that may be missing. No later stage looks into it. -/
def whereClause : Part :=
  whenAhead (Guard.word "where")
    (.choose (second clauseEnd) (.hide (keyword "where"))
      (.node .body (.seq (keyword "where") predicates)))

/-- A trait that bounds a type, perhaps relaxed or for all lifetimes. -/
def traitBound : Part := row [maybeBinder, maybeSign "?", maybeBinder, call (.path .type)]

/-- The lifetimes and types that a result may hold on to. -/
def capture : Part :=
  row [keyword "use", sign "<",
    .many (no (op ">"))
      (.seq (.choose lifetime lifetimeName (.choose (Guard.word "Self") anyName name))
        (.choose (op ">") .empty (sign ","))),
    sign ">"]

/-- A bound. -/
def bound : Part :=
  cases
    [(lifetime, lifetimeName), (Guard.word "use", capture),
      (group .paren, .group .paren traitBound)]
    traitBound

/-- Whether a bound may begin. -/
def boundAhead : Guard := any [anyWord, op "::", op "?", lifetime, group .paren]

/-- Further bounds behind a plus sign; the last sign may end them. -/
def boundsRest : Part :=
  whenAhead (op "+")
    (.seq (sign "+") (whenAhead boundAhead (.seq (call .bound) (call .boundsRest))))

/-- Bounds of which one is a trait. -/
def boundsWithTrait : Part :=
  .choose lifetime (row [lifetimeName, sign "+", call .boundsWithTrait])
    (.seq (call .bound) (call .boundsRest))

/-- Bounds of which one is a trait; a single one where a plus sign is not allowed. -/
def boundsOf (plus : Bool) : Part :=
  if plus then call .boundsWithTrait else .choose lifetime .refuse (call .bound)

/-- A linkage that may be missing. -/
def maybeLinkage : Part :=
  whenAhead (Guard.word "extern") (.seq (keyword "extern") maybeString)

/-- The mark of further arguments among the parameters of a type, in last place. -/
def variadicType : Part :=
  .seq (sign "...") (.choose (either done (second done)) .empty .refuse)

/-- The type of a function. -/
def functionType : Part :=
  let named : Guard :=
    both (oneOf ["self", "_"] |> either ident) (second (exactly ":" ["::"]))
  let parameter :=
    row [call .attributes, whenAhead named (.seq anyName (sign ":")),
      .choose (op "...") variadicType (call (.type true))]
  row [maybe "unsafe", maybeLinkage, keyword "fn", .group .paren (commaList parameter),
    call (.result false)]

/-- Whether the type of a function is ahead. -/
def functionTypeAhead : Guard := oneOf ["fn", "unsafe", "extern"]

/-- Whether a path of a type is ahead. -/
def typePathAhead : Guard := any [ident, oneOf placeWords, op "::", op "<"]

/-- A type that begins with a path: also a macro, or the first of some bounds. -/
def pathType (plus : Bool) : Part :=
  .choose (op "<") (call (.qualifiedPath .type))
    (.seq (call (.path .type))
      (.choose (exactly "!" ["!="]) (.seq (sign "!") anyGroup)
        (if plus then call .boundsRest else .empty)))

/-- Whether a group holds something that may be the first of some bounds. -/
def boundGroup : Guard
  | .group .paren content :: _ =>
    any [ident, oneOf placeWords, op "::", Guard.word "for", group .paren, op "?"] content
  | _ => false

/-- A type in round brackets, a tuple, or a first bound in round brackets. -/
def roundType (plus : Bool) : Part :=
  let content :=
    cases [(done, .empty), (lifetime, call .boundsWithTrait), (op "?", call .bound)]
      (.seq (call (.type true)) (.many (no done) (.seq (sign ",") (.choose done .empty
        (call (.type true))))))
  let relaxed : Guard := fun tokens =>
    match tokens with
    | .group .paren content :: _ => op "?" content
    | _ => false
  .choose relaxed (.seq (.group .paren content) (call .boundsRest))
    (.choose boundGroup
      (.seq (.group .paren content) (if plus then call .boundsRest else .empty))
      (.group .paren content))

/-- A type; a plus sign may follow it where that is allowed. -/
def type (plus : Bool) : Part :=
  cases
    [(Guard.word "for",
        .seq (call .lifetimeBinder)
          (cases
            [(functionTypeAhead, call .functionType),
              (either ident (oneOf placeWords),
                .seq (call (.path .type)) (if plus then call .boundsRest else .empty))]
            .refuse)),
      (group .paren, roundType plus),
      (functionTypeAhead, call .functionType),
      (typePathAhead, pathType plus),
      (Guard.word "dyn", row [keyword "dyn", maybeSign "*", boundsOf plus]),
      (group .bracket,
        .group .bracket
          (.seq (call (.type true))
            (whenAhead (op ";") (.seq (sign ";") (call (.expression true)))))),
      (op "*",
        row [sign "*", .choose (Guard.word "const") (keyword "const") (keyword "mut"),
          call (.type false)]),
      (op "&",
        row [sign "&", whenAhead lifetime lifetimeName, maybe "mut", call (.type false)]),
      (exactly "!" ["!="], sign "!"),
      (Guard.word "impl", .seq (keyword "impl") (boundsOf plus)),
      (Guard.word "_", keyword "_"),
      (lifetime, call .boundsWithTrait)]
    .refuse

end DomainFactory.Syntax.Part
