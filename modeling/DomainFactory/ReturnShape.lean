import DomainFactory.Text.Affix

/-!
# Return shapes

A method returns at once or after waiting, and its value either reports success or is a plain
value. The shape is read off the canonical text of the declared return type.
-/
namespace DomainFactory

open Text

/-- The shape of what a method returns. -/
inductive ReturnShape where
  /-- A plain value, or nothing. -/
  | value
  /-- A success flag: false means that nothing was found or done. -/
  | success
  /-- A plain value after waiting. -/
  | awaitable
  /-- A success flag after waiting. -/
  | awaitableSuccess
deriving DecidableEq, Repr, Inhabited

namespace ReturnShape

/-- The shape with the two given traits. -/
def ofParts : (awaitable success : Bool) → ReturnShape
  | false, false => .value
  | false, true => .success
  | true, false => .awaitable
  | true, true => .awaitableSuccess

/-- Whether the caller waits for the value. -/
def isAwaitable : ReturnShape → Bool
  | .value | .success => false
  | .awaitable | .awaitableSuccess => true

/-- Whether the value is a success flag. -/
def isSuccess : ReturnShape → Bool
  | .value | .awaitable => false
  | .success | .awaitableSuccess => true

/-- Reads past a path that ends in a result type and past the bracket that opens its arguments. The
segments before are plain names that begin with an ASCII letter or an underscore. -/
def afterResult? : Nat → List Char → Option (List Char)
  | 0, _ => none
  | fuel + 1, text =>
    match after? "Result<".toList text with
    | some rest => some rest
    | none =>
      match text with
      | c :: rest =>
        if isAsciiLetter c || c == '_' then
          (after? [':', ':'] (rest.dropWhile isPatternWord)).bind (afterResult? fuel)
        else none
      | [] => none

/-- Whether a text may follow a success flag: nothing, the bracket that closes the arguments of a
result type, or further arguments on one line up to a closing bracket. -/
def endsSuccess (text : List Char) : Bool :=
  match text with
  | [] => true
  | ['>'] => true
  | ',' :: rest =>
    match rest.reverse with
    | '>' :: arguments => !arguments.isEmpty && !arguments.contains '\n'
    | _ => false
  | _ => false

/-- Whether a type text is a success flag, or a result type whose first argument is one. -/
def isSuccessText (text : List Char) : Bool :=
  let flag (rest : List Char) : Bool := ((after? "bool".toList rest).map endsSuccess).getD false
  flag text || ((afterResult? (text.length + 1) text).map flag).getD false

/-- Reads past the beginning of a future type up to its output type: a future with a named output,
or a boxed future with or without a lifetime. -/
def afterFuture? (text : List Char) : Option (List Char) :=
  match after? "Future<Output=".toList text with
  | some rest => some rest
  | none => do
    let rest ← after? "BoxFuture<".toList text
    match rest with
    | '\'' :: name =>
      match name.takeWhile isPatternWord, name.dropWhile isPatternWord with
      | _ :: _, ',' :: output => some output
      | _, _ => some rest
    | _ => some rest

/-- The first future type in a text: what follows its beginning. -/
def findFuture? : List Char → Option (List Char)
  | [] => none
  | c :: rest =>
    match afterFuture? (c :: rest) with
    | some output => some output
    | none => findFuture? rest

/-- The part of a text up to the bracket or plus sign that ends it at the given depth of angle
brackets, when there is one. -/
def untilEnd? : Nat → List Char → Option (List Char)
  | _, [] => none
  | depth, c :: rest =>
    if c == '<' then (untilEnd? (depth + 1) rest).map (c :: ·)
    else if c == '>' then
      match depth with
      | 0 => some []
      | depth + 1 => (untilEnd? depth rest).map (c :: ·)
    else if c == '+' && depth == 0 then some []
    else (untilEnd? depth rest).map (c :: ·)

/-- The output type of a future type. -/
def futureOutput? (text : List Char) : Option (List Char) :=
  (findFuture? text).bind (untilEnd? 0)

/-- The shape of a method with the given declared return type. -/
def ofDeclared (isAsync : Bool) : (declared : Option String) → ReturnShape
  | none => ofParts isAsync false
  | some text =>
    match futureOutput? text.toList with
    | some output => ofParts true (isSuccessText output)
    | none => ofParts isAsync (isSuccessText text.toList)

end ReturnShape

end DomainFactory
