import DomainFactory.Syntax.Grammar.Expressions

/-!
# Attributes and items

Attributes and lists of markers, methods and traits, and the other items that stand beside traits
in a file. Of items that are no traits only the syntax matters, so their parts carry no labels.
-/
namespace DomainFactory.Syntax.Part

open Guard

/-- Attributes in front of something. -/
def attributes : Part :=
  .many (op "#")
    (.node .attribute (.seq (sign "#") (.group .bracket (call .attributeContent))))

/-- Attributes of what is around them. -/
def innerAttributes : Part :=
  .many (both (op "#") (second (op "!")))
    (.node .attribute
      (row [sign "#", sign "!", .group .bracket (call .attributeContent)]))

/-- What stands between the brackets of an attribute: a path, then nothing, a group, or a value. -/
def attributeContent : Part :=
  .seq (.node .attributePath (.choose (Guard.word "unsafe") anyName (call .plainPath)))
    (.node .attributeInput
      (cases
        [(groupAhead, anyGroup),
          (op "=",
            .seq (sign "=")
              (.attempt (.seq anyLiteral ending)
                (.choose (both (op "#") (second (group .bracket))) .refuse
                  (call (.expression true)))))]
        .empty))

/-- A list of markers, at least one; the last comma may be missing. -/
def markers : Part :=
  .seq (call .marker)
    (.many (no done) (.seq (sign ",") (.choose done .empty (call .marker))))

/-- A marker: a path of any words, perhaps with a value or a list of markers. -/
def marker : Part :=
  .node .marker
    (.seq
      (.node .markerPath
        (row [maybeSign "::", anyName, .many (op "::") (.seq (sign "::") anyName)]))
      (cases
        [(op "=", .seq (sign "=") (.node .markerValue (call (.expression true)))),
          (group .paren, .node .markerList (.group .paren (call .markers)))]
        .empty))

/-- Whether a group holds a restriction of a visibility. -/
def restrictionAhead : Guard
  | .group .paren content :: _ =>
    either (both (oneOf ["crate", "self", "super"]) (second done)) (Guard.word "in") content
  | _ => false

/-- A visibility that may be missing. -/
def visibility : Part :=
  whenAhead (Guard.word "pub")
    (.seq (keyword "pub")
      (whenAhead restrictionAhead
        (.group .paren (.choose (Guard.word "in") (.seq anyName (call .plainPath)) anyName))))

/-- Drops a word off the front when it is there. -/
def pastWord (text : String) (guard : Guard) : Guard := fun tokens =>
  match tokens with
  | .word found :: rest => if found == text then guard rest else guard tokens
  | _ => guard tokens

/-- Drops a linkage off the front when it is there. -/
def pastLinkage (guard : Guard) : Guard := fun tokens =>
  match tokens with
  | .word "extern" :: rest => if Guard.string rest then guard (behind rest) else guard rest
  | _ => guard tokens

/-- Whether the signature of a function is ahead. -/
def signatureAhead : Guard :=
  pastWord "const" (pastWord "async" (pastWord "unsafe" (pastLinkage (Guard.word "fn"))))

/-- Whether the receiver of a method is ahead. -/
def receiverAhead : Guard := fun tokens =>
  let self : Guard := fun tokens => pastWord "mut" (Guard.word "self") tokens
  match tokens with
  | .punct '&' _ :: rest => if lifetime rest then self (behind rest) else self rest
  | _ => self tokens && !both (Guard.word "self") (second (op "::")) tokens

/-- The receiver of a method. -/
def receiver : Part :=
  .choose (op "&")
    (row [sign "&", whenAhead lifetime lifetimeName, maybe "mut", keyword "self"])
    (row [maybe "mut", keyword "self",
      whenAhead (op ":") (.seq (sign ":") (call (.type true)))])

/-- The pattern of a parameter. -/
def parameterPattern : Part :=
  .choose pathPatternAhead (.node .pattern (call .pattern))
    (.choose (Guard.word "_") (.node .wildcard (keyword "_"))
      (.choose bindingAhead (.node .binding (call .pattern))
        (.node .pattern (call .pattern))))

/-- The mark of further arguments in last place, with its comma. -/
def variadic : Part := row [sign "...", maybeSign ",", ending]

/-- A parameter of a function: the receiver in first place, a pattern and its type, a type with
arguments alone, which stands for a parameter that matches anything, or the mark of further
arguments. -/
def parameter (first : Bool) : Part :=
  cases
    [(op "...", variadic),
      (receiverAhead, if first then .node .receiver receiver else .refuse),
      (both ident (second (op "<")),
        row [.node .wildcard (.print [.word "_"]), .print (Token.operator ":"),
          .node .type (call (.type true))])]
    (row [parameterPattern, sign ":",
      .choose (op "...") variadic (.node .type (call (.type true)))])

/-- The parameters of a function. -/
def parameters (first : Bool) : Part :=
  .choose done .empty
    (.seq (.node .parameter (.seq (call .attributes) (parameter first)))
      (.choose done .empty (.seq (sign ",") (call (.parameters false)))))

/-- The signature of a function. -/
def signature : Part :=
  row [maybe "const", whenAhead (Guard.word "async") (.node .waits (keyword "async")),
    maybe "unsafe", maybeLinkage, keyword "fn", .node .name name, call .generics,
    .group .paren (call (.parameters true)), .node .output (call (.result true)),
    call .whereClause]

/-- A method of a trait: its signature with a body or a semicolon. -/
def method : Part :=
  row [call .attributes, call .signature, .choose (group .brace) (call .openBlock) (sign ";")]

/-- The definition of a constant behind its keyword. Its where clause is printed also when it is
empty. -/
def constantItem : Part :=
  row [keyword "const", .choose (Guard.word "_") anyName name, call .generics, sign ":",
    call (.type true), whenAhead (op "=") (.seq (sign "=") (call (.expression true))),
    whenAhead (Guard.word "where")
      (.seq (keyword "where") (.choose clauseEnd .empty predicates)),
    sign ";"]

/-- The type that a name stands for, which may be missing. -/
def typeDefinition : Part := whenAhead (op "=") (.seq (sign "=") (call (.type true)))

/-- The definition of a type with its where clause in front. -/
def guardedDefinition : Part := row [call .whereClause, typeDefinition, sign ";"]

/-- The definition of a type with its where clause behind. -/
def definitionGuarded : Part := row [typeDefinition, call .whereClause, sign ";"]

/-- The definition of a type by another. -/
def typeItem (definition : Part) : Part :=
  row [keyword "type", name, call .generics,
    whenAhead (op ":")
      (.seq (sign ":") (boundsUntil (any [Guard.word "where", op "=", op ";"]))),
    definition]

/-- A macro with its semicolon, which one with braces does not have. -/
def macroItem : Part :=
  row [call .plainPath, sign "!",
    whenAhead (either ident (Guard.word "try")) anyName,
    .choose (group .brace) anyGroup (.seq anyGroup (sign ";"))]

/-- A member of a trait. -/
def traitMember : Part :=
  .choose (pastAttributes signatureAhead) (.node .method (call .method))
    (.node .body
      (row [call .attributes,
        .choose anyPathAhead
          (.choose (both (Guard.word "default") (no (second (op "!"))))
            (.seq anyName memberRest) macroItem)
          (row [call .visibility, maybe "default", memberRest])]))
where
  /-- A member behind its visibility. -/
  memberRest : Part :=
    cases
      [(signatureAhead, call .method), (Guard.word "const", constantItem),
        (Guard.word "type", typeItem definitionGuarded)]
      .refuse

/-- What stands in front of the bounds of a trait. -/
def traitHead : Part :=
  row [call .attributes, call .visibility, maybe "unsafe", maybe "auto", keyword "trait",
    .node .name name, call .generics]

/-- A trait. -/
def traitDeclaration : Part :=
  let stop := either (Guard.word "where") (group .brace)
  let base := .node .bound (call .bound)
  row [traitHead,
    whenAhead (op ":")
      (.choose (second stop) (.hide (sign ":"))
        (row [sign ":", base,
          .many (op "+") (.seq (sign "+") (.choose stop .empty base))])),
    call .whereClause,
    .group .brace (.seq (call .innerAttributes) (.many (no done) (call .traitMember)))]

/-- A name for bounds. -/
def traitAlias : Part :=
  row [call .attributes, call .visibility, keyword "trait", name, call .generics, sign "=",
    boundsUntil (either (Guard.word "where") (op ";")), call .whereClause, sign ";"]

/-- The tree of an import. -/
def useTree : Part :=
  cases
    [(op "*", sign "*"),
      (group .brace,
        .group .brace
          (commaList (.seq (maybeSign "::") (call .useTree))))]
    (.seq plainSegment
      (cases
        [(op "::", .seq (sign "::") (call .useTree)),
          (Guard.word "as",
            .seq (keyword "as") (.choose (Guard.word "_") anyName name))]
        .empty))

/-- The named fields of a type. -/
def fields : Part :=
  .group .brace
    (commaList
      (row [call .attributes, call .visibility, .choose (Guard.word "_") anyName name,
        sign ":", call (.type true)]))

/-- The fields of a type by position. -/
def positionalFields : Part :=
  .group .paren (commaList (row [call .attributes, call .visibility, call (.type true)]))

/-- A structure; one with fields by position has its where clause behind them. -/
def structItem : Part :=
  let named := .choose (group .brace) (call .fields) (sign ";")
  row [keyword "struct", name, call .generics,
    cases
      [(Guard.word "where", .seq (call .whereClause) named),
        (group .paren, row [positionalFields, call .whereClause, sign ";"])]
      named]

/-- An enumeration. -/
def enumItem : Part :=
  row [keyword "enum", name, call .generics, call .whereClause,
    .group .brace
      (commaList
        (row [call .attributes, call .visibility, name,
          cases [(group .paren, positionalFields), (group .brace, call .fields)] .empty,
          whenAhead (op "=") (.seq (sign "=") (call (.expression true)))]))]

/-- The definition of a static item. -/
def staticItem : Part :=
  row [keyword "static", maybe "mut", name,
    whenAhead (op ":") (.seq (sign ":") (call (.type true))),
    whenAhead (op "=") (.seq (sign "=") (call (.expression true))), sign ";"]

/-- A member of a block of foreign items. -/
def foreignMember : Part :=
  row [call .attributes,
    .choose anyPathAhead macroItem
      (.seq (call .visibility)
        (cases
          [(signatureAhead, call .method), (Guard.word "static", staticItem),
            (Guard.word "type",
              typeItem (.choose (Guard.word "where") guardedDefinition definitionGuarded))]
          .refuse))]

/-- A block of foreign items. -/
def foreignItem : Part :=
  row [maybe "unsafe", maybeLinkage,
    .group .brace (.seq (call .innerAttributes) (.many (no done) (call .foreignMember)))]

/-- A member of an implementation. -/
def implMember : Part :=
  .seq (call .attributes)
    (.choose (both anyPathAhead (no (Guard.word "default"))) macroItem
      (row [call .visibility, maybe "default",
        cases
          [(signatureAhead, call .method), (Guard.word "const", constantItem),
            (Guard.word "type", typeItem definitionGuarded)]
          .refuse]))

/-- Whether generics, and no path that begins at a type, follow the keyword of an implementation. -/
def implGenericsAhead : Guard :=
  both (op "<")
    (any
      [second (either (op ">") (either (op "#") (Guard.word "const"))),
        both (second (either lifetime ident))
          (third (any [exactly ":" ["::"], op ",", op ">", op "="]))])

/-- What an implementation is of, up to the first type. No later stage looks into it. -/
def implHead : Part :=
  .node .body
    (row [whenAhead implGenericsAhead (call .generics), maybe "const",
      whenAhead (both (op "!") (no (second (group .brace)))) (sign "!"), call (.type true)])

/-- An implementation. -/
def implItem : Part :=
  row [maybe "default", maybe "unsafe", keyword "impl", implHead,
    whenAhead (Guard.word "for") (.seq (keyword "for") (call (.type true))), call .whereClause,
    .group .brace (.seq (call .innerAttributes) (.many (no done) (call .implMember)))]

/-- A module. -/
def moduleItem : Part :=
  row [maybe "unsafe", keyword "mod", .choose (Guard.word "try") anyName name,
    .choose (op ";") (sign ";") (.group .brace (call .file))]

/-- Whether a trait is ahead. -/
def traitAhead : Guard := pastWord "unsafe" (pastWord "auto" (Guard.word "trait"))

/-- An item behind its attributes and its visibility. -/
def itemRest : Part :=
  cases
    [(signatureAhead,
        .seq (call .signature) (.choose (op ";") (sign ";") (call .openBlock))),
      (both (Guard.word "extern") (second (Guard.word "crate")),
        row [anyName, anyName, .choose (Guard.word "self") anyName name,
          whenAhead (Guard.word "as")
            (.seq anyName (.choose (Guard.word "_") anyName name)), sign ";"]),
      (pastWord "unsafe" (Guard.word "extern"), foreignItem),
      (Guard.word "use",
        row [anyName, maybeSign "::", call .useTree, sign ";"]),
      (Guard.word "static", staticItem),
      (Guard.word "const", constantItem),
      (pastWord "unsafe" (Guard.word "mod"), moduleItem),
      (Guard.word "type", typeItem guardedDefinition),
      (Guard.word "struct", structItem),
      (Guard.word "enum", enumItem),
      (both (Guard.word "union") (second ident),
        row [anyName, name, call .generics, call .whereClause, call .fields]),
      (traitAhead, .attempt (call .traitDeclaration) (call .traitAlias)),
      (both (pastWord "default" (pastWord "unsafe" (Guard.word "impl"))) (no (second (op "!"))),
        implItem),
      (both (Guard.word "impl") (second (op "!")), implItem),
      (Guard.word "macro",
        row [anyName, name, whenAhead (group .paren) anyGroup,
          .choose (group .brace) anyGroup .refuse])]
    .refuse

/-- Looks past a visibility. -/
def pastVisibility (guard : Guard) : Guard := fun tokens =>
  match tokens with
  | .word "pub" :: rest => if restrictionAhead rest then guard (behind rest) else guard rest
  | _ => guard tokens

/-- An item: a trait, or any other. -/
def item : Part :=
  .choose (pastAttributes (pastVisibility traitAhead))
    (.attempt (.node .traitItem (call .traitDeclaration)) (.node .body (call .traitAlias)))
    (.node .body
      (.seq (call .attributes)
        (.choose
          (both anyPathAhead
            (no (any [both (Guard.word "union") (second ident),
              both (Guard.word "default") (no (second (op "!")))])))
          macroItem (.seq (call .visibility) itemRest))))

/-- The items of a file. -/
def file : Part := .seq (call .innerAttributes) (.many (no done) (call .item))

end DomainFactory.Syntax.Part
