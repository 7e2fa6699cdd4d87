import DomainFactory.Syntax.Token
import DomainFactory.Text.Affix

/-!
# Reading tokens

Splits source text into token trees. White space and comments part tokens; a documentation
comment stands for the attribute that holds its text. The text is refused when a group is not
closed by its own delimiter or when no token begins at some place.
-/
namespace DomainFactory.Syntax.Lexer

open Text

/-- What a reader leaves of the text, unless it refuses. -/
abbrev Rest := Option (List Char)

/-- White space between tokens: blanks and the two marks of writing direction. -/
def isSpace (c : Char) : Bool := isBlank c || c == '\u200e' || c == '\u200f'

/-- Reads an unmarked word. -/
def plainWord? : List Char → Option (List Char × List Char)
  | [] => none
  | c :: rest =>
    if isIdentifierStart c then
      some (c :: rest.takeWhile isIdentifierPart, rest.dropWhile isIdentifierPart)
    else none

/-- Words that have no raw form. -/
def neverRaw : List String := ["_", "super", "self", "Self", "crate"]

/-- Reads a word, raw or not. -/
def anyWord? (text : List Char) : Option (List Char × List Char) :=
  match after? ['r', '#'] text with
  | some rest => do
    let (word, rest) ← plainWord? rest
    if neverRaw.contains (String.ofList word) then none
    else return ('r' :: '#' :: word, rest)
  | none => plainWord? text

/-- Beginnings that belong to literals, so no word starts with them. -/
def literalStarts : List String :=
  ["r\"", "r#\"", "r##", "b\"", "b'", "br\"", "br#", "c\"", "cr\"", "cr#"]

/-- Reads a word that does not begin like a literal. -/
def word? (text : List Char) : Option (List Char × List Char) :=
  if literalStarts.any fun start => (after? start.toList text).isSome then none
  else anyWord? text

/-- Skips a suffix behind a literal. -/
def skipSuffix (text : List Char) : List Char :=
  match plainWord? text with
  | some (_, rest) => rest
  | none => text

/-- Reads on in a line: the characters up to its end, and the line break with what follows. A
carriage return belongs to a line break only when a line feed follows. -/
def line : List Char → List Char × List Char
  | [] => ([], [])
  | '\n' :: rest => ([], '\n' :: rest)
  | '\r' :: '\n' :: rest => ([], '\n' :: rest)
  | c :: rest => ((c :: (line rest).1), (line rest).2)

/-- Reads on in a nested comment at a depth: the characters before its end, and what follows. -/
def blockFrom? : (depth : Nat) → List Char → Option (List Char × List Char)
  | depth, '/' :: '*' :: rest =>
    (blockFrom? (depth + 1) rest).map fun (body, rest) => ('/' :: '*' :: body, rest)
  | 0, '*' :: '/' :: rest => some ([], rest)
  | depth + 1, '*' :: '/' :: rest =>
    (blockFrom? depth rest).map fun (body, rest) => ('*' :: '/' :: body, rest)
  | depth, c :: rest => (blockFrom? depth rest).map fun (body, rest) => (c :: body, rest)
  | _, [] => none

/-- Reads a nested comment behind its opening mark. -/
def block? (text : List Char) : Option (List Char × List Char) := blockFrom? 0 text

/-- Skips one space or one comment that is not documentation. -/
def skipOne? (text : List Char) : Rest :=
  match text with
  | '/' :: '/' :: rest =>
    match rest with
    | '/' :: '/' :: _ => some (line rest).2
    | '/' :: _ => none
    | '!' :: _ => none
    | _ => some (line rest).2
  | '/' :: '*' :: '*' :: '/' :: rest => some rest
  | '/' :: '*' :: rest =>
    match rest with
    | '*' :: '*' :: _ => (block? rest).map (·.2)
    | '*' :: _ => none
    | '!' :: _ => none
    | _ => (block? rest).map (·.2)
  | c :: rest => if isSpace c then some rest else none
  | [] => none

/-- Skips spaces and comments, at most as many as given. -/
def skip : Nat → List Char → List Char
  | 0, text => text
  | fuel + 1, text =>
    match skipOne? text with
    | some rest => skip fuel rest
    | none => text

/-- Whether every carriage return is followed by a line feed. -/
def returnsPaired : List Char → Bool
  | '\r' :: '\n' :: rest => returnsPaired rest
  | '\r' :: _ => false
  | _ :: rest => returnsPaired rest
  | [] => true

/-- Reads a documentation comment: whether it documents what is around it, its text and the
rest. -/
def documentation? : List Char → Option (Bool × List Char × List Char)
  | '/' :: '/' :: '!' :: rest => some (true, line rest)
  | '/' :: '*' :: '!' :: rest => (block? rest).map (true, ·)
  | '/' :: '/' :: '/' :: rest => if rest.head? == some '/' then none else some (false, line rest)
  | '/' :: '*' :: '*' :: rest =>
    if rest.head? == some '*' then none else (block? rest).map (false, ·)
  | _ => none

/-- The attribute that a documentation comment stands for. -/
def documentationTokens (inner : Bool) (text : List Char) : List Token :=
  .punct '#' false :: (if inner then [.punct '!' false] else []) ++
    [.group .bracket [.word "doc", .punct '=' false, .literal (literal (String.ofList text))]]

/-- What a quoted literal may hold. -/
inductive Flavour where
  /-- Any text. -/
  | text
  /-- ASCII characters and any byte by its code. -/
  | bytes
  /-- Any text or byte but the null character. -/
  | terminated
deriving DecidableEq

/-- Reads the two digits of an escape by code: of a text an ASCII code, of bytes any, of a
terminated text any but nought. -/
def byteEscape? (flavour : Flavour) : List Char → Rest
  | high :: low :: rest => do
    let highValue ← hexValue? high
    let lowValue ← hexValue? low
    match flavour with
    | .text => if highValue < 8 then some rest else none
    | .bytes => some rest
    | .terminated => if highValue == 0 && lowValue == 0 then none else some rest
  | _ => none

/-- Reads on in an escape by code point: up to six digits, underscores between them, and the
closing brace. Answers the value and the rest. -/
def pointEscapeFrom? : (digits value : Nat) → List Char → Option (Nat × List Char)
  | digits, value, c :: rest =>
    match hexValue? c with
    | some digit =>
      if digits == 6 then none else pointEscapeFrom? (digits + 1) (value * 16 + digit) rest
    | none =>
      if digits == 0 then none
      else if c == '_' then pointEscapeFrom? digits value rest
      else if c == '\x7d' then some (value, rest)
      else none
  | _, _, [] => none

/-- Reads an escape by code point behind its letter. -/
def pointEscape? : List Char → Option (Nat × List Char)
  | '\x7b' :: rest => do
    let (value, rest) ← pointEscapeFrom? 0 0 rest
    if value < 0xD800 || (0xE000 ≤ value && value < 0x110000) then return (value, rest) else none
  | _ => none

/-- Reads one escape behind its backslash, other than a line break. -/
def escape? (flavour : Flavour) : List Char → Rest
  | 'x' :: rest => byteEscape? flavour rest
  | 'u' :: rest =>
    if flavour == .bytes then none
    else do
      let (value, rest) ← pointEscape? rest
      if flavour == .terminated && value == 0 then none else return rest
  | '0' :: rest => if flavour == .terminated then none else some rest
  | c :: rest => if "nrt\\'\"".toList.contains c then some rest else none
  | [] => none

/-- Reads on in a quoted literal up to behind its closing quote. A backslash before a line break
skips the white space that follows, and more text must follow it. The fuel bounds the steps. -/
def quotedFrom? (flavour : Flavour) : Nat → (skipping : Bool) → List Char → Rest
  | 0, _, _ => none
  | _, _, [] => none
  | fuel + 1, skipping, c :: rest =>
    if skipping && (c == ' ' || c == '\t' || c == '\n') then quotedFrom? flavour fuel true rest
    else if c == '\r' then
      match rest with
      | '\n' :: rest => quotedFrom? flavour fuel skipping rest
      | _ => none
    else if c == '"' then some (skipSuffix rest)
    else if c == '\\' then
      match rest with
      | '\n' :: rest => quotedFrom? flavour fuel true rest
      | '\r' :: '\n' :: rest => quotedFrom? flavour fuel true rest
      | _ => (escape? flavour rest).bind (quotedFrom? flavour fuel false)
    else if flavour == .bytes && 128 ≤ c.toNat then none
    else if flavour == .terminated && c == '\x00' then none
    else quotedFrom? flavour fuel false rest

/-- Reads a quoted literal behind its opening quote. -/
def quoted? (flavour : Flavour) (text : List Char) : Rest :=
  quotedFrom? flavour (text.length + 1) false text

/-- Reads on in a raw literal up to behind the quote and the marks that close it. -/
def rawFrom? (flavour : Flavour) (marks : List Char) : List Char → Rest
  | [] => none
  | '\r' :: '\n' :: rest => rawFrom? flavour marks rest
  | '\r' :: _ => none
  | c :: rest =>
    let closed := if c == '"' then after? marks rest else none
    match closed with
    | some rest => some (skipSuffix rest)
    | none =>
      if flavour == .bytes && 128 ≤ c.toNat then none
      else if flavour == .terminated && c == '\x00' then none
      else rawFrom? flavour marks rest

/-- Reads a raw literal behind its letters: at most 255 marks, the quote and the content. -/
def raw? (flavour : Flavour) (text : List Char) : Rest :=
  let marks := text.takeWhile (· == '#')
  match text.dropWhile (· == '#') with
  | '"' :: rest => if 255 < marks.length then none else rawFrom? flavour marks rest
  | _ => none

/-- Reads a quoted character behind its opening quote. -/
def character? (flavour : Flavour) (text : List Char) : Rest := do
  let rest ←
    match text with
    | '\\' :: rest => escape? flavour rest
    | c :: rest => if flavour == .bytes && 128 ≤ c.toNat then none else some rest
    | [] => none
  match rest with
  | '\'' :: rest => some (skipSuffix rest)
  | _ => none

/-- Refuses a text that goes on like a word. -/
def wordEnds? (text : List Char) : Rest :=
  match text with
  | c :: _ => if isIdentifierPart c then none else some text
  | [] => some text

/-- Reads on in the exponent of a float: its sign, digits and underscores. A sign in the wrong
place or a missing digit refuses the exponent. -/
def exponentFrom? : (signed valued : Bool) → List Char → Rest
  | signed, valued, c :: rest =>
    if c == '+' || c == '-' then
      if valued then some (c :: rest)
      else if signed then none
      else exponentFrom? true valued rest
    else if isDigit c then exponentFrom? signed true rest
    else if c == '_' then exponentFrom? signed valued rest
    else if valued then some (c :: rest)
    else none
  | _, valued, [] => if valued then some [] else none

/-- Reads on in a float behind its first digit: digits, one point, one exponent. The text at the
exponent is kept, since an exponent that is refused may leave a float in front of it. -/
def floatFrom? : (pointed : Bool) → List Char → Rest
  | pointed, c :: rest =>
    if isDigit c || c == '_' then floatFrom? pointed rest
    else if c == '.' then
      if pointed then some (c :: rest)
      else
        match rest with
        | next :: _ => if next == '.' || isIdentifierStart next then none else floatFrom? true rest
        | [] => floatFrom? true rest
    else if c == 'e' || c == 'E' then
      match exponentFrom? false false rest with
      | some rest => some rest
      | none => if pointed then some (c :: rest) else none
    else if pointed then some (c :: rest)
    else none
  | pointed, [] => if pointed then some [] else none

/-- Reads a float with its suffix. -/
def float? (text : List Char) : Rest :=
  match text with
  | c :: rest => if isDigit c then ((floatFrom? false rest).map skipSuffix).bind wordEnds? else none
  | [] => none

/-- Reads on in the digits of an integer in a base; a decimal digit beyond the base refuses it. -/
def digitsFrom? (base : Nat) : (empty : Bool) → List Char → Rest
  | empty, c :: rest =>
    if isDigit c then
      if c.toNat - 48 < base then digitsFrom? base false rest else none
    else if c == '_' then
      if empty && base == 10 then none else digitsFrom? base empty rest
    else if (hexValue? c).any (· < base) then digitsFrom? base false rest
    else if empty then none
    else some (c :: rest)
  | empty, [] => if empty then none else some []

/-- Reads an integer with its suffix. -/
def integer? (text : List Char) : Rest :=
  let digits :=
    match text with
    | '0' :: 'x' :: rest => digitsFrom? 16 true rest
    | '0' :: 'o' :: rest => digitsFrom? 8 true rest
    | '0' :: 'b' :: rest => digitsFrom? 2 true rest
    | _ => digitsFrom? 10 true text
  (digits.map skipSuffix).bind wordEnds?

/-- Reads a literal that begins with a quote or with the letters of a quoted literal. -/
def quotedLiteral? : List Char → Rest
  | '"' :: rest => quoted? .text rest
  | 'r' :: rest => raw? .text rest
  | 'b' :: '"' :: rest => quoted? .bytes rest
  | 'b' :: 'r' :: rest => raw? .bytes rest
  | 'b' :: '\'' :: rest => character? .bytes rest
  | 'c' :: '"' :: rest => quoted? .terminated rest
  | 'c' :: 'r' :: rest => raw? .terminated rest
  | '\'' :: rest => character? .text rest
  | _ => none

/-- Reads a literal. -/
def literal? (text : List Char) : Rest :=
  match quotedLiteral? text with
  | some rest => some rest
  | none =>
    match float? text with
    | some rest => some rest
    | none => integer? text

/-- The punctuation characters. -/
def punctuation : List Char := "~!@#$%^&*-=+|;:,<.>/?'".toList

/-- Whether a text begins with a punctuation character that opens no comment. -/
def startsPunct : List Char → Bool
  | '/' :: '/' :: _ => false
  | '/' :: '*' :: _ => false
  | c :: _ => punctuation.contains c
  | [] => false

/-- Reads a punctuation character. The apostrophe is one only in front of the name of a lifetime,
to which it is joined. -/
def punct? (text : List Char) : Option (Token × List Char) :=
  match text with
  | '\'' :: rest => do
    let (word, behind) ← anyWord? rest
    let raw := (after? ['r', '#'] word).isSome
    match behind with
    | '\'' :: _ => none
    | '#' :: _ => if raw then some (.punct '\'' true, rest) else none
    | _ => some (.punct '\'' true, rest)
  | c :: rest => if startsPunct text then some (.punct c (startsPunct rest), rest) else none
  | [] => none

/-- Reads one token that is no group. -/
def leaf? (text : List Char) : Option (Token × List Char) :=
  match literal? text with
  | some rest => some (.literal (String.ofList (text.take (text.length - rest.length))), rest)
  | none =>
    match punct? text with
    | some found => some found
    | none => (word? text).map fun (word, rest) => (.word (String.ofList word), rest)

/-- The delimiter that a character opens. -/
def opening? : Char → Option Delimiter
  | '(' => some .paren
  | '[' => some .bracket
  | '\x7b' => some .brace
  | _ => none

/-- The delimiter that a character closes. -/
def closing? : Char → Option Delimiter
  | ')' => some .paren
  | ']' => some .bracket
  | '\x7d' => some .brace
  | _ => none

/-- The groups that are open, innermost first: the delimiter of each and the tokens before it, last
first. -/
abbrev Open := List (Delimiter × List Token)

/-- Reads tokens to the end of the text. The tokens of the innermost group come last first. Each
step reads at least one character, so the length of the text bounds the steps. -/
def treesFrom? : Nat → Open → List Token → List Char → Option (List Token)
  | 0, _, _, _ => none
  | fuel + 1, openGroups, tokens, text =>
    let text := skip text.length text
    match documentation? text with
    | some (inner, comment, rest) =>
      if returnsPaired comment then
        treesFrom? fuel openGroups ((documentationTokens inner comment).reverse ++ tokens) rest
      else none
    | none =>
      match text with
      | [] => if openGroups.isEmpty then some tokens.reverse else none
      | c :: rest =>
        match opening? c, closing? c with
        | some delimiter, _ => treesFrom? fuel ((delimiter, tokens) :: openGroups) [] rest
        | none, some delimiter =>
          match openGroups with
          | (opened, before) :: openGroups =>
            if opened = delimiter then
              treesFrom? fuel openGroups (.group delimiter tokens.reverse :: before) rest
            else none
          | [] => none
        | none, none =>
          match leaf? text with
          | some (token, rest) => treesFrom? fuel openGroups (token :: tokens) rest
          | none => none

/-- Reads a source text as token trees; a byte order mark in front is skipped. -/
def read? (text : String) : Option (List Token) :=
  let chars :=
    match text.toList with
    | '\ufeff' :: rest => rest
    | chars => chars
  treesFrom? (chars.length + 1) [] [] chars

end DomainFactory.Syntax.Lexer
