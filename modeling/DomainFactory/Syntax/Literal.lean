import DomainFactory.Syntax.Lexer

/-!
# Literals

What the text of a literal denotes, as far as the library asks: whether it is a string and its
content, and whether it can stand as the position of a field.
-/
namespace DomainFactory.Syntax.Literal

open Text

/-- Whether a literal is a string, quoted or raw. -/
def isString (text : String) : Bool :=
  match text.toList with
  | '"' :: _ => true
  | 'r' :: _ => true
  | _ => false

/-- The characters that one escape of a string stands for, and what follows it. -/
def unescape? : List Char → Option (List Char × List Char)
  | 'x' :: high :: low :: rest => do
    let highValue ← hexValue? high
    let lowValue ← hexValue? low
    return ([Char.ofNat (highValue * 16 + lowValue)], rest)
  | 'u' :: rest => (Lexer.pointEscape? rest).map fun (value, rest) => ([Char.ofNat value], rest)
  | 'n' :: rest => some (['\n'], rest)
  | 'r' :: rest => some (['\r'], rest)
  | 't' :: rest => some (['\t'], rest)
  | '0' :: rest => some (['\x00'], rest)
  | '\n' :: rest => some ([], rest.dropWhile fun c => " \t\n\r".toList.contains c)
  | '\r' :: rest => some ([], rest.dropWhile fun c => " \t\n\r".toList.contains c)
  | c :: rest => some ([c], rest)
  | [] => none

/-- The content of a quoted string behind its opening quote. A line break counts as a line feed, and
a backslash in front of one skips the white space that follows. The fuel bounds the steps. -/
def contentFrom : Nat → List Char → List Char
  | 0, _ => []
  | _, [] => []
  | fuel + 1, c :: rest =>
    if c == '"' then []
    else if c == '\\' then
      match unescape? rest with
      | some (chars, rest) => chars ++ contentFrom fuel rest
      | none => []
    else if c == '\r' then contentFrom fuel rest
    else c :: contentFrom fuel rest

/-- The content of a string literal. -/
def content? (text : String) : Option String :=
  match text.toList with
  | '"' :: rest => some (String.ofList (contentFrom rest.length rest))
  | 'r' :: rest =>
    let behind := (rest.dropWhile (· == '#')).drop 1
    let marks := rest.takeWhile (· == '#')
    (Lexer.rawFrom? .text marks behind).map fun _ => String.ofList (rawContent marks behind)
  | _ => none
where
  /-- The characters up to the quote and the marks that close a raw string. -/
  rawContent (marks : List Char) : List Char → List Char
    | [] => []
    | c :: rest =>
      if c == '"' && (after? marks rest).isSome then [] else c :: rawContent marks rest

/-- The position that a literal stands for, written in decimal: digits without a suffix. -/
def position? (text : List Char) : Option String :=
  let digits := text.filter (· != '_')
  if digits.isEmpty || !digits.all isDigit then none
  else
    let value := digits.foldl (fun value c => value * 10 + (c.toNat - 48)) (0 : Nat)
    if value < Nat.pow 2 32 then some (toString value) else none

/-- The positions that a float literal stands for behind a point, and whether it ends with a
point. -/
def positions? (text : List Char) : Option (List String × Bool) :=
  let parts := splitAt '.' text
  let trailing := parts.length == 2 && parts.getLast? == some []
  let parts := if trailing then parts.dropLast else parts
  if text.contains '.' then (parts.mapM position?).map (·, trailing) else none

end DomainFactory.Syntax.Literal
