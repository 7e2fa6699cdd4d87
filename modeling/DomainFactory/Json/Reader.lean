import DomainFactory.Json.Basic
import DomainFactory.Text.Quoted

/-!
# Reading JSON

The reader is strict: one value, white space around it and nothing else. It answers nothing when
the text is no JSON. What is JSON but fits no value is left in place as unreadable, so that a form
can skip it; only at nesting beyond the limit does a container itself become unreadable.
-/
namespace DomainFactory.Json

open Decimal Text

/-- The white space of JSON. -/
def isSpace (c : Char) : Bool := c == ' ' || c == '\n' || c == '\t' || c == '\r'

/-- A text without the white space in front. -/
def skipSpace (text : List Char) : List Char := text.dropWhile isSpace

/-- Containers may nest this deep. -/
def nestingLimit : Nat := 127

/-- Significands up to this are kept exactly; digits beyond are dropped. -/
def significandLimit : Nat := Nat.pow 2 64

/-- Reads digits into a significand while it stays below the limit. Answers the significand, how
many digits went into it and the rest. -/
def readSignificand (significand count : Nat) : List Char → Nat × Nat × List Char
  | [] => (significand, count, [])
  | c :: rest =>
    if isDigit c then
      let next := significand * 10 + (c.toNat - 48)
      if next < significandLimit then readSignificand next (count + 1) rest
      else (significand, count, c :: rest)
    else (significand, count, c :: rest)

/-- The value of a run of decimal digits. -/
def digitsValue (digits : List Char) : Nat :=
  digits.foldl (fun value c => value * 10 + (c.toNat - 48)) 0

/-- Reads the exponent behind its mark, when one follows: an optional sign and at least one
digit. -/
def readExponent? : List Char → Option (Int × List Char)
  | c :: text =>
    if c == 'e' || c == 'E' then
      let (negative, rest) :=
        match text with
        | '+' :: rest => (false, rest)
        | '-' :: rest => (true, rest)
        | _ => (false, text)
      match rest.takeWhile isDigit with
      | [] => none
      | digits =>
        let size : Int := digitsValue digits
        some (if negative then -size else size, rest.dropWhile isDigit)
    else some (0, c :: text)
  | [] => some (0, [])

/-- A float from its sign and decimal parts; unreadable when it lies beyond the format. -/
def floatOf (negative : Bool) (significand : Nat) (exponent : Int) : Json :=
  match Magnitude.ofDecimal? significand exponent with
  | some magnitude => .float ⟨negative, magnitude⟩
  | none => .unreadable

/-- Reads what follows the integer part of a number: nothing, a fraction, an exponent or both. The
integer part is a significand and how many of its digits were dropped. -/
def readFraction? (negative : Bool) (significand dropped : Nat) (text : List Char) :
    Option (Json × List Char) := do
  match text with
  | '.' :: rest =>
    match rest with
    | [] => none
    | c :: _ =>
      if !isDigit c then none
      else
        let (significand, count, rest) := readSignificand significand 0 rest
        let (exponent, rest) ← readExponent? (rest.dropWhile isDigit)
        return (floatOf negative significand (dropped - count + exponent), rest)
  | _ =>
    let (exponent, rest) ← readExponent? text
    return (floatOf negative significand (dropped + exponent), rest)

/-- Whether a number goes on behind its integer part. -/
def continuesNumber : List Char → Bool
  | c :: _ => c == '.' || c == 'e' || c == 'E'
  | [] => false

/-- Reads a number behind its sign. The integer zero with a minus sign, an integer whose digits do
not fit and one below the range are floats. -/
def readNumber? (negative : Bool) (text : List Char) : Option (Json × List Char) :=
  match text with
  | '0' :: rest =>
    match rest with
    | c :: _ =>
      if isDigit c then none
      else if continuesNumber rest then readFraction? negative 0 0 rest
      else some (if negative then floatOf true 0 0 else .int 0, rest)
    | [] => some (if negative then floatOf true 0 0 else .int 0, [])
  | c :: _ =>
    if !isDigit c then none
    else
      let (significand, _, rest) := readSignificand 0 0 text
      let dropped := rest.takeWhile isDigit
      let rest := rest.dropWhile isDigit
      if !dropped.isEmpty || continuesNumber rest then
        readFraction? negative significand dropped.length rest
      else if !negative then some (.int significand, rest)
      else if significand ≤ Nat.pow 2 63 then some (.int (-significand), rest)
      else some (floatOf true significand 0, rest)
  | [] => none

/-- Reads four hexadecimal digits. -/
def readHex4? : List Char → Option (Nat × List Char)
  | a :: b :: c :: d :: rest => do
    let a ← hexValue? a
    let b ← hexValue? b
    let c ← hexValue? c
    let d ← hexValue? d
    return (((a * 16 + b) * 16 + c) * 16 + d, rest)
  | _ => none

/-- Whether a code unit is the first half of a surrogate pair. -/
def isLeading (unit : Nat) : Bool := 0xD800 ≤ unit && unit < 0xDC00

/-- Whether a code unit is the second half of a surrogate pair. -/
def isTrailing (unit : Nat) : Bool := 0xDC00 ≤ unit && unit < 0xE000

/-- The character a one-letter escape stands for. -/
def shortEscape? : Char → Option Char
  | '"' => some '"'
  | '\\' => some '\\'
  | '/' => some '/'
  | 'b' => some '\x08'
  | 'f' => some '\x0c'
  | 'n' => some '\n'
  | 'r' => some '\r'
  | 't' => some '\t'
  | _ => none

/-- Reads one escape behind its backslash: the character, or nothing in its place when the escape
is half of a surrogate pair. -/
def readEscape? : List Char → Option (Option Char × List Char)
  | 'u' :: text => do
    let (unit, rest) ← readHex4? text
    if isTrailing unit then return (none, rest)
    else if isLeading unit then
      match rest with
      | '\\' :: 'u' :: second => do
        let (low, behind) ← readHex4? second
        if isTrailing low then
          return (some (Char.ofNat (0x10000 + (unit - 0xD800) * 1024 + (low - 0xDC00))), behind)
        else return (none, rest)
      | _ => return (none, rest)
    else return (some (Char.ofNat unit), rest)
  | c :: rest => (shortEscape? c).map fun plain => (some plain, rest)
  | [] => none

/-- Reads on in a string: the characters so far, last first, and what follows the closing quote. The
characters are lost to half a surrogate pair. The fuel bounds the steps. -/
def readStringFrom? :
    Nat → Option (List Char) → List Char → Option (Option (List Char) × List Char)
  | 0, _, _ => none
  | fuel + 1, chars, text =>
    match text with
    | [] => none
    | '"' :: rest => some (chars, rest)
    | '\\' :: rest =>
      match readEscape? rest with
      | some (c, rest) => readStringFrom? fuel (c.bind fun c => chars.map (c :: ·)) rest
      | none => none
    | c :: rest => if c.toNat < 32 then none else readStringFrom? fuel (chars.map (c :: ·)) rest

/-- Reads a string behind its opening quote: its text and what follows the closing quote. No text is
answered for a string with half a surrogate pair. -/
def readString? (text : List Char) : Option (Option String × List Char) :=
  (readStringFrom? (text.length + 1) (some []) text).map fun (chars, rest) =>
    (chars.map fun chars => String.ofList chars.reverse, rest)

/-- An array, unless it nests too deep. -/
def arrayOf (level : Nat) (items : List Json) : Json :=
  if nestingLimit < level then .unreadable else .array items

/-- An object, unless it nests too deep or one of its keys is no text. -/
def objectOf (level : Nat) (members : List (Option String × Json)) : Json :=
  if nestingLimit < level then .unreadable
  else
    match members.mapM fun (key, value) => key.map (·, value) with
    | some members => .object members
    | none => .unreadable

mutual

/-- Reads one value. The level is the number of containers around it; the fuel bounds the
steps. -/
def readValue? : (fuel level : Nat) → List Char → Option (Json × List Char)
  | 0, _, _ => none
  | fuel + 1, level, text =>
    match skipSpace text with
    | 'n' :: 'u' :: 'l' :: 'l' :: rest => some (.null, rest)
    | 't' :: 'r' :: 'u' :: 'e' :: rest => some (.bool true, rest)
    | 'f' :: 'a' :: 'l' :: 's' :: 'e' :: rest => some (.bool false, rest)
    | '"' :: rest => do
      let (content, rest) ← readString? rest
      return ((content.map Json.string).getD .unreadable, rest)
    | '[' :: rest =>
      match skipSpace rest with
      | ']' :: rest => some (arrayOf (level + 1) [], rest)
      | _ => do
        let (items, rest) ← readItems? fuel (level + 1) rest
        return (arrayOf (level + 1) items, rest)
    | '\x7b' :: rest =>
      match skipSpace rest with
      | '\x7d' :: rest => some (objectOf (level + 1) [], rest)
      | _ => do
        let (members, rest) ← readMembers? fuel (level + 1) rest
        return (objectOf (level + 1) members, rest)
    | '-' :: rest => readNumber? true rest
    | text => readNumber? false text

/-- Reads the items of an array, at least one, and its closing bracket. -/
def readItems? : (fuel level : Nat) → List Char → Option (List Json × List Char)
  | 0, _, _ => none
  | fuel + 1, level, text => do
    let (item, rest) ← readValue? fuel level text
    match skipSpace rest with
    | ']' :: rest => return ([item], rest)
    | ',' :: rest => do
      let (items, rest) ← readItems? fuel level rest
      return (item :: items, rest)
    | _ => none

/-- Reads the members of an object, at least one, and its closing brace. -/
def readMembers? : (fuel level : Nat) → List Char →
    Option (List (Option String × Json) × List Char)
  | 0, _, _ => none
  | fuel + 1, level, text =>
    match skipSpace text with
    | '"' :: rest => do
      let (key, rest) ← readString? rest
      match skipSpace rest with
      | ':' :: rest => do
        let (value, rest) ← readValue? fuel level rest
        let entry := (key, value)
        match skipSpace rest with
        | '\x7d' :: rest => return ([entry], rest)
        | ',' :: rest => do
          let (members, rest) ← readMembers? fuel level rest
          return (entry :: members, rest)
        | _ => none
      | _ => none
    | _ => none

end

/-- Reads a text that is one JSON value with white space around it. Each step reads a character or
goes one level into a container, so twice the length bounds the steps. -/
def read? (text : String) : Option Json :=
  let chars := text.toList
  match readValue? (2 * chars.length + 2) 0 chars with
  | some (value, rest) => if (skipSpace rest).isEmpty then some value else none
  | none => none

end DomainFactory.Json
