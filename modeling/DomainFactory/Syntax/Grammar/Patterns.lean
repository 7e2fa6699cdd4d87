import DomainFactory.Syntax.Grammar.Types

/-!
# Patterns of values

The patterns that parameters, arms and conditions match values against. A range that is closed
prints with the present spelling of its operator.
-/
namespace DomainFactory.Syntax.Part

open Guard

/-- Whether a pattern that begins with a path is ahead. -/
def pathPatternAhead : Guard :=
  any
    [both ident
        (second (any [op "::", op "!", group .brace, group .paren, op ".."])),
      both (Guard.word "self") (second (op "::")),
      op "::", op "<", oneOf ["Self", "super", "crate"]]

/-- Whether a pattern that is a name is ahead. -/
def bindingAhead : Guard := either (oneOf ["ref", "mut", "self"]) ident

/-- A name that a value is bound to, perhaps with a further pattern. -/
def binding : Part :=
  row [maybe "ref", maybe "mut", .node .name (.choose (Guard.word "self") anyName name),
    whenAhead (op "@") (.seq (sign "@") (call .pattern))]

/-- The operator of a range of patterns; the old spelling of a closed range is printed as the
present one. -/
def rangeSign : Part :=
  cases
    [(op "..=", sign "..="),
      (op "...", respelled "..." "..=")]
    (sign "..")

/-- Whether a range of patterns has no further end. -/
def rangeEnds : Guard :=
  any [done, op "|", op "=", exactly ":" ["::"], op ",", op ";", Guard.word "if"]

/-- An end of a range of patterns. -/
def patternBound : Part :=
  cases
    [(literal, anyLiteral),
      (any [ident, op "::", op "<", oneOf placeWords], call (.qualifiedPath .expression)),
      (both (Guard.word "const") (second (group .brace)), .seq (keyword "const") (call .block))]
    .refuse

/-- The operator of a range and its end, which only an open range may lack. -/
def rangeBehind : Part :=
  .choose (either (op "..=") (op "...")) (.seq rangeSign (call .patternBound))
    (.seq rangeSign (.choose rangeEnds .empty (call .patternBound)))

/-- A position of a field. -/
def position : Part :=
  .take fun tokens =>
    match tokens with
    | .literal text :: rest =>
      (Literal.position? text.toList).map fun digits => ([.leaf (.literal digits)], rest)
    | _ => none

/-- The pattern of a field. -/
def fieldPattern : Part :=
  .choose plainLiteral (row [position, sign ":", call .alternatives])
    (.choose (oneOf ["box", "ref", "mut"])
      (row [maybe "box", maybe "ref", maybe "mut", name])
      (.seq name (whenAhead (op ":") (.seq (sign ":") (call .alternatives)))))

/-- The patterns of fields, perhaps with a mark that leaves out the rest. -/
def fieldPatterns : Part :=
  .choose done .empty
    (.seq (call .attributes)
      (.choose (op "..") (sign "..")
        (.seq fieldPattern (.choose done .empty (.seq (sign ",") (call .fieldPatterns))))))

/-- A pattern that begins with a path. -/
def pathPattern : Part :=
  .seq (call (.qualifiedPath .expression))
    (cases
      [(exactly "!" ["!="], .seq (sign "!") anyGroup),
        (group .brace, .group .brace (call .fieldPatterns)),
        (group .paren, .group .paren (commaList (call .alternatives))),
        (op "..", rangeBehind)]
      .empty)

/-- A pattern without alternatives. -/
def pattern : Part :=
  cases
    [(pathPatternAhead, pathPattern),
      (Guard.word "_", keyword "_"),
      (Guard.word "box", .seq (keyword "box") (call .pattern)),
      (any [op "-", literal, Guard.word "const"],
        .seq (call .patternBound) (whenAhead (op "..") rangeBehind)),
      (bindingAhead, binding),
      (op "&", row [sign "&", maybe "mut", call .pattern]),
      (group .paren, .group .paren (commaList (call .alternatives))),
      (group .bracket, .group .bracket (commaList (call .alternatives))),
      (exactly ".." ["..."], rangeBehind)]
    .refuse

/-- A pattern with alternatives. -/
def alternatives : Part :=
  let further := exactly "|" ["||", "|="]
  row [maybeSign "|", call .pattern, .many further (.seq (sign "|") (call .pattern))]

end DomainFactory.Syntax.Part
