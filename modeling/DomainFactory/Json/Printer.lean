import DomainFactory.Decimal.Shortest
import DomainFactory.Json.Basic
import DomainFactory.Text.Quoted

/-!
# Printing JSON

Two layouts of one value: compact, without any space, and indented, one item a line with two
spaces for each level. Numbers that are not integers are the shortest decimals that read back.
-/
namespace DomainFactory.Json

open Decimal Text

/-- Where the notation of a float ends to be positional: digits up to this many places before the
point are written out. -/
def integerPlaces : Int := 16

/-- How far below one a float is still written positionally. -/
def fractionPlaces : Int := -5

/-- The digits of a magnitude with its point: positional with at least one digit on each side of
the point, else one digit before the point and an exponent. -/
def scientificText (value : Scientific) : String :=
  let digits := (toString value.digits).toList
  let count : Int := digits.length
  let point := count + value.exponent
  let chars :=
    if 0 ≤ value.exponent && point ≤ integerPlaces then
      digits ++ List.replicate value.exponent.toNat '0' ++ ['.', '0']
    else if 0 < point && point ≤ integerPlaces then
      digits.take point.toNat ++ '.' :: digits.drop point.toNat
    else if fractionPlaces < point && point ≤ 0 then
      '0' :: '.' :: List.replicate (-point).toNat '0' ++ digits
    else
      let exponent := 'e' :: (toString (point - 1)).toList
      match digits with
      | first :: second :: rest => first :: '.' :: second :: rest ++ exponent
      | _ => digits ++ exponent
  String.ofList chars

/-- A float as JSON text. -/
def floatText (value : Binary64) : String :=
  (if value.negative then "-" else "") ++ scientificText (Scientific.ofMagnitude value.magnitude)

/-- One character inside a JSON string. -/
def escapedChar (c : Char) : List Char :=
  if c == '"' then ['\\', '"']
  else if c == '\\' then ['\\', '\\']
  else if c == '\x08' then ['\\', 'b']
  else if c == '\x0c' then ['\\', 'f']
  else if c == '\n' then ['\\', 'n']
  else if c == '\r' then ['\\', 'r']
  else if c == '\t' then ['\\', 't']
  else if c.toNat < 32 then
    ['\\', 'u', '0', '0', hexDigit (c.toNat / 16), hexDigit (c.toNat % 16)]
  else [c]

/-- A string as JSON text. -/
def stringText (text : String) : String :=
  String.ofList ('"' :: text.toList.flatMap escapedChar ++ ['"'])

mutual

/-- A value as compact JSON text. -/
def compact : Json → String
  | .null => "null"
  | .bool value => if value then "true" else "false"
  | .int value => toString value
  | .float value => floatText value
  | .string value => stringText value
  | .array items => "[" ++ compactItems items ++ "]"
  | .object members => "\x7b" ++ compactMembers members ++ "\x7d"
  | .unreadable => "null"

/-- The items of an array, parted by commas. -/
def compactItems : List Json → String
  | [] => ""
  | [item] => compact item
  | item :: items => compact item ++ "," ++ compactItems items

/-- The members of an object, parted by commas. -/
def compactMembers : List (String × Json) → String
  | [] => ""
  | [(key, value)] => stringText key ++ ":" ++ compact value
  | (key, value) :: members =>
    stringText key ++ ":" ++ compact value ++ "," ++ compactMembers members

end

/-- A line break and the indentation of a level. -/
def lineBreak (level : Nat) : String := "\n" ++ String.ofList (List.replicate (2 * level) ' ')

mutual

/-- A value as indented JSON text; the level is that of the line the value begins on. -/
def indented (level : Nat) : Json → String
  | .array [] => "[]"
  | .array items => "[" ++ indentedItems (level + 1) items ++ lineBreak level ++ "]"
  | .object [] => "\x7b\x7d"
  | .object members =>
    "\x7b" ++ indentedMembers (level + 1) members ++ lineBreak level ++ "\x7d"
  | .null => "null"
  | .bool value => if value then "true" else "false"
  | .int value => toString value
  | .float value => floatText value
  | .string value => stringText value
  | .unreadable => "null"

/-- The items of an array, each on a line of its own. -/
def indentedItems (level : Nat) : List Json → String
  | [] => ""
  | [item] => lineBreak level ++ indented level item
  | item :: items =>
    lineBreak level ++ indented level item ++ "," ++ indentedItems level items

/-- The members of an object, each on a line of its own. -/
def indentedMembers (level : Nat) : List (String × Json) → String
  | [] => ""
  | [(key, value)] => lineBreak level ++ stringText key ++ ": " ++ indented level value
  | (key, value) :: members =>
    lineBreak level ++ stringText key ++ ": " ++ indented level value ++ "," ++
      indentedMembers level members

end

/-- A value as indented JSON text. -/
def pretty (value : Json) : String := indented 0 value

end DomainFactory.Json
