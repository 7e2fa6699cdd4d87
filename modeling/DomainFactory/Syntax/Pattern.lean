import DomainFactory.Syntax.Tree

/-!
# Patterns

A grammar is data: each rule has a pattern, and one reader interprets patterns on a list of
tokens. Choices are made by looking ahead, so a pattern that was chosen and fails makes the whole
choice fail, save for `attempt`. A rule may call another at the same place only when that one has
a lower rank; with the number of tokens this makes a measure that falls at each call, so what a
rule matches depends on the tokens alone.
-/
namespace DomainFactory.Syntax

/-- A decision about the tokens ahead. -/
abbrev Guard := List Token → Bool

namespace Guard

/-- Whether a list of characters stands ahead, each joined to the next. -/
def chars : List Char → Guard
  | [], _ => true
  | [expected], .punct char _ :: _ => expected == char
  | expected :: more, .punct char joint :: tokens =>
    expected == char && joint && chars more tokens
  | _ :: _, _ => false

/-- Whether punctuation characters stand ahead, each joined to the next. -/
def op (text : String) : Guard := chars text.toList

/-- Whether a word stands ahead. -/
def word (text : String) : Guard
  | .word found :: _ => found == text
  | _ => false

/-- Whether any word stands ahead. -/
def anyWord : Guard
  | .word _ :: _ => true
  | _ => false

/-- The words that are no identifiers. -/
def reserved : List String :=
  ["_", "abstract", "as", "async", "await", "become", "box", "break", "const", "continue", "crate",
    "do", "dyn", "else", "enum", "extern", "false", "final", "fn", "for", "if", "impl", "in", "let",
    "loop", "macro", "match", "mod", "move", "mut", "override", "priv", "pub", "ref", "return",
    "Self", "self", "static", "struct", "super", "trait", "true", "try", "type", "typeof",
    "unsafe", "unsized", "use", "virtual", "where", "while", "yield"]

/-- Whether an identifier stands ahead. -/
def ident : Guard
  | .word found :: _ => !reserved.contains found
  | _ => false

/-- Whether one of some words stands ahead. -/
def oneOf (texts : List String) : Guard
  | .word found :: _ => texts.contains found
  | _ => false

/-- Whether a lifetime stands ahead. -/
def lifetime : Guard
  | .punct '\'' true :: .word _ :: _ => true
  | _ => false

/-- Whether a literal token stands ahead. -/
def plainLiteral : Guard
  | .literal _ :: _ => true
  | _ => false

/-- Whether a number stands ahead. -/
def number : Guard
  | .literal text :: _ => (text.toList.head?).any Text.isDigit
  | _ => false

/-- Whether a literal stands ahead: a token, a truth value or a number behind a minus sign. -/
def literal : Guard
  | .literal _ :: _ => true
  | .word found :: _ => found == "true" || found == "false"
  | .punct '-' _ :: rest => number rest
  | _ => false

/-- Whether a string literal stands ahead. -/
def string : Guard
  | .literal text :: _ =>
    match text.toList with
    | '"' :: _ => true
    | 'r' :: _ => true
    | _ => false
  | _ => false

/-- Whether a group stands ahead. -/
def group (delimiter : Delimiter) : Guard
  | .group found _ :: _ => found == delimiter
  | _ => false

/-- Whether no token is left. -/
def done : Guard := List.isEmpty

/-- The tokens behind the first; a lifetime counts as one. -/
def behind : List Token → List Token
  | .punct '\'' true :: .word _ :: tokens => tokens
  | _ :: tokens => tokens
  | [] => []

/-- A decision about the tokens behind the first. -/
def second (guard : Guard) : Guard := fun tokens => !tokens.isEmpty && guard (behind tokens)

/-- A decision about the tokens behind the second. -/
def third (guard : Guard) : Guard := second (second guard)

/-- Both decisions. -/
def both (left right : Guard) : Guard := fun tokens => left tokens && right tokens

/-- Either decision. -/
def either (left right : Guard) : Guard := fun tokens => left tokens || right tokens

/-- All of some decisions. -/
def all (guards : List Guard) : Guard := fun tokens => guards.all fun guard => guard tokens

/-- Any of some decisions. -/
def any (guards : List Guard) : Guard := fun tokens => guards.any fun guard => guard tokens

/-- The opposite decision. -/
def no (guard : Guard) : Guard := fun tokens => !guard tokens

end Guard

/-- What a rule matches, given the rules it may call. -/
inductive Pattern (Rule : Type) where
  /-- Matches without reading a token. -/
  | empty
  /-- Matches nothing. -/
  | refuse
  /-- Reads some tokens off the front and prints trees for them. -/
  | take (read : List Token → Option (List Tree × List Token))
  /-- Prints tokens without reading any. -/
  | print (tokens : List Token)
  /-- Matches a pattern and prints nothing. -/
  | hide (pattern : Pattern Rule)
  /-- A group whose whole content matches a pattern. -/
  | group (delimiter : Delimiter) (content : Pattern Rule)
  /-- One pattern after another. -/
  | seq (first second : Pattern Rule)
  /-- A choice by looking ahead. -/
  | choose (guard : Guard) (yes no : Pattern Rule)
  /-- The first pattern, or the second where the first fails. -/
  | attempt (first second : Pattern Rule)
  /-- A pattern as often as the tokens ahead ask for it. -/
  | many (guard : Guard) (pattern : Pattern Rule)
  /-- What a rule matches. -/
  | call (rule : Rule)
  /-- A labelled part. -/
  | node (label : Label) (pattern : Pattern Rule)
  /-- A pattern whose printed trees are rearranged. -/
  | arrange (order : List Tree → List Tree) (pattern : Pattern Rule)

/-- The outcome of a pattern: the trees it prints and the tokens it leaves. -/
abbrev Match := Option (List Tree × List Token)

namespace Pattern

variable {Rule : Type}

instance : AndThen (Pattern Rule) := ⟨fun first second => .seq first (second ())⟩

instance : OrElse (Pattern Rule) := ⟨fun first second => .attempt first (second ())⟩

/-- Repeats a step while a guard holds and tokens are read, at most as often as given. -/
def repeatWhile (guard : Guard) (step : List Token → Match) : Nat → List Token → Match
  | 0, tokens => some ([], tokens)
  | fuel + 1, tokens =>
    if guard tokens then
      match step tokens with
      | some (trees, rest) =>
        if rest.length < tokens.length then
          (repeatWhile guard step fuel rest).map fun (more, rest) => (trees ++ more, rest)
        else none
      | none => none
    else some ([], tokens)

/-- Interprets a pattern, given what rules match. -/
def eval (run : Rule → List Token → Match) : Pattern Rule → List Token → Match
  | .empty, tokens => some ([], tokens)
  | .refuse, _ => none
  | .take read, tokens => read tokens
  | .print printed, tokens => some (printed.map Tree.leaf, tokens)
  | .hide pattern, tokens => (eval run pattern tokens).map fun (_, rest) => ([], rest)
  | .group delimiter content, tokens =>
    match tokens with
    | .group found inner :: rest =>
      if found = delimiter then
        match eval run content inner with
        | some (trees, []) => some ([.group delimiter trees], rest)
        | _ => none
      else none
    | _ => none
  | .seq first second, tokens =>
    match eval run first tokens with
    | some (trees, rest) => (eval run second rest).map fun (more, rest) => (trees ++ more, rest)
    | none => none
  | .choose guard yes no, tokens =>
    if guard tokens then eval run yes tokens else eval run no tokens
  | .attempt first second, tokens =>
    match eval run first tokens with
    | some found => some found
    | none => eval run second tokens
  | .many guard pattern, tokens => repeatWhile guard (eval run pattern) tokens.length tokens
  | .call rule, tokens => run rule tokens
  | .node label pattern, tokens =>
    (eval run pattern tokens).map fun (trees, rest) => ([.node label trees], rest)
  | .arrange order pattern, tokens =>
    (eval run pattern tokens).map fun (trees, rest) => (order trees, rest)

end Pattern

/-- A grammar: a pattern for each rule, and ranks below a limit. -/
structure Grammar (Rule : Type) where
  /-- The pattern of a rule. -/
  pattern : Rule → Pattern Rule
  /-- The rank of a rule: it calls rules of lower rank before it reads a token. -/
  rank : Rule → Nat
  /-- A limit of ranks. -/
  limit : Nat
  /-- All ranks are below the limit. -/
  bounded : ∀ rule, rank rule < limit

namespace Grammar

variable {Rule : Type}

/-- The measure that falls at each call. -/
def measure (grammar : Grammar Rule) (rule : Rule) (tokens : List Token) : Nat :=
  Token.sizeAll tokens * grammar.limit + grammar.rank rule

/-- What a rule matches, with fuel for the calls below it. -/
def runFrom (grammar : Grammar Rule) : Nat → Rule → List Token → Match
  | 0, _, _ => none
  | fuel + 1, rule, tokens =>
    (grammar.pattern rule).eval
      (fun called rest =>
        if grammar.measure called rest < grammar.measure rule tokens then
          runFrom grammar fuel called rest
        else none)
      tokens

/-- What a rule matches at the front of some tokens. -/
def run (grammar : Grammar Rule) (rule : Rule) (tokens : List Token) : Match :=
  runFrom grammar (grammar.measure rule tokens + 1) rule tokens

/-- The trees of a rule that matches all tokens. -/
def matchAll? (grammar : Grammar Rule) (rule : Rule) (tokens : List Token) :
    Option (List Tree) :=
  match grammar.run rule tokens with
  | some (trees, []) => some trees
  | _ => none

end Grammar

end DomainFactory.Syntax
