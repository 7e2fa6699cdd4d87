import DomainFactory.Json.Form

/-!
# Values

A value is what callers pass, what fields hold and what operations return: the JSON kinds with
integers apart from other numbers, and bytes. Members of a map are kept in key order.
-/
namespace DomainFactory

open Decimal Json

/-- A dynamic value. -/
inductive Value where
  /-- The null value. -/
  | null
  /-- A truth value. -/
  | bool (value : Bool)
  /-- A signed integer of 64 bits. -/
  | int (value : Int64)
  /-- A number of the binary format. -/
  | float (value : Binary64)
  /-- A text. -/
  | string (value : String)
  /-- A run of bytes. -/
  | bytes (value : List UInt8)
  /-- A sequence of values. -/
  | array (items : List Value)
  /-- Values by key, in key order. -/
  | map (members : List (String × Value))
deriving Inhabited, Repr

namespace Value

/-- The truth value, when it is one. -/
def asBool? : Value → Option Bool
  | .bool value => some value
  | _ => none

/-- The integer, when it is one. -/
def asInt? : Value → Option Int64
  | .int value => some value
  | _ => none

/-- The text, when it is one. -/
def asString? : Value → Option String
  | .string value => some value
  | _ => none

/-- A value that may be missing: null stands for none. -/
def ofOption : Option Value → Value
  | some value => value
  | none => .null

mutual

/-- Equality of values. Numbers are compared by what they denote, so the two zeros are equal. -/
def same : Value → Value → Bool
  | .null, .null => true
  | .bool left, .bool right => left == right
  | .int left, .int right => left == right
  | .float left, .float right => left.sameNumber right
  | .string left, .string right => left == right
  | .bytes left, .bytes right => left == right
  | .array left, .array right => sameItems left right
  | .map left, .map right => sameMembers left right
  | _, _ => false

/-- Equality of items in order. -/
def sameItems : List Value → List Value → Bool
  | [], [] => true
  | left :: lefts, right :: rights => same left right && sameItems lefts rights
  | _, _ => false

/-- Equality of members in order. -/
def sameMembers : List (String × Value) → List (String × Value) → Bool
  | [], [] => true
  | (leftKey, left) :: lefts, (rightKey, right) :: rights =>
    leftKey == rightKey && same left right && sameMembers lefts rights
  | _, _ => false

end

mutual

/-- Whether the members of every map in a value ascend strictly by key. -/
def isSorted : Value → Bool
  | .array items => itemsSorted items
  | .map members =>
    decide (members.Pairwise fun left right => left.1 < right.1) && membersSorted members
  | _ => true

/-- Whether every item is sorted. -/
def itemsSorted : List Value → Bool
  | [] => true
  | item :: items => isSorted item && itemsSorted items

/-- Whether the value of every member is sorted. -/
def membersSorted : List (String × Value) → Bool
  | [] => true
  | (_, value) :: members => isSorted value && membersSorted members

end

mutual

/-- A value as JSON. -/
def toJson : Value → Json
  | .null => .string "Null"
  | .bool value => alternative "Bool" (.bool value)
  | .int value => alternative "Int" (encode value)
  | .float value => alternative "Float" (.float value)
  | .string value => alternative "String" (.string value)
  | .bytes value => alternative "Bytes" (encode value)
  | .array items => alternative "Array" (.array (itemsToJson items))
  | .map members => alternative "Map" (.object (membersToJson members))

/-- The items as JSON. -/
def itemsToJson : List Value → List Json
  | [] => []
  | item :: items => toJson item :: itemsToJson items

/-- The members as JSON. -/
def membersToJson : List (String × Value) → List (String × Json)
  | [] => []
  | (key, value) :: members => (key, toJson value) :: membersToJson members

end

mutual

/-- Reads a value from JSON. A number that is no integer may still stand for a float, and an
integer may stand for either. -/
def ofJson? : Json → Option Value
  | .string "Null" => some .null
  | .object [(tag, payload)] =>
    match tag, payload with
    | "Null", .null => some .null
    | "Bool", .bool value => some (.bool value)
    | "Int", .int value => (decode (Json.int value)).map .int
    | "Float", .float value => some (.float value)
    | "Float", .int value => some (.float (.ofInt value))
    | "String", .string value => some (.string value)
    | "Bytes", .array items => (items.mapM decode).map .bytes
    | "Array", .array items => (itemsOfJson? items).map .array
    | "Map", .object members =>
      (membersOfJson? members).map fun members => .map (Keyed.ofList members).entries
    | _, _ => none
  | _ => none

/-- Reads a list of values. -/
def itemsOfJson? : List Json → Option (List Value)
  | [] => some []
  | item :: items => do
    let item ← ofJson? item
    let items ← itemsOfJson? items
    return item :: items

/-- Reads the members of a map in text order. -/
def membersOfJson? : List (String × Json) → Option (List (String × Value))
  | [] => some []
  | (key, json) :: members => do
    let value ← ofJson? json
    let members ← membersOfJson? members
    return (key, value) :: members

end

instance : Form Value where
  encode := toJson
  decode := ofJson?

end Value

end DomainFactory
