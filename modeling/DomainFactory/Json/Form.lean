import DomainFactory.Json.Basic
import DomainFactory.Keyed

/-!
# JSON forms

A form is the way a type is written as JSON and read back. A record is an object of its fields, or
an array of them in declaration order; unknown fields are skipped, a repeated field is refused. An
alternative is its name, or an object whose only member is the name with what it carries.
-/
namespace DomainFactory.Json

/-- How a type is written as JSON and read back. -/
class Form (α : Type) where
  /-- Writes a value. -/
  encode : α → Json
  /-- Reads a value; nothing when the JSON is not one. -/
  decode : Json → Option α

export Form (encode decode)

/-- Truth values. -/
instance : Form Bool where
  encode := .bool
  decode
    | .bool value => some value
    | _ => none

/-- Texts. -/
instance : Form String where
  encode := .string
  decode
    | .string value => some value
    | _ => none

/-- Natural numbers. -/
instance : Form Nat where
  encode value := .int value
  decode
    | .int value => if 0 ≤ value then some value.toNat else none
    | _ => none

/-- Signed integers of 64 bits. -/
instance : Form Int64 where
  encode value := .int value.toInt
  decode
    | .int value =>
      if Int64.minValue.toInt ≤ value ∧ value ≤ Int64.maxValue.toInt then some (.ofInt value)
      else none
    | _ => none

/-- Words of 64 bits. -/
instance : Form UInt64 where
  encode value := .int value.toNat
  decode
    | .int value =>
      if 0 ≤ value ∧ value.toNat < UInt64.size then some (.ofNat value.toNat) else none
    | _ => none

/-- Bytes. -/
instance : Form UInt8 where
  encode value := .int value.toNat
  decode
    | .int value => if 0 ≤ value ∧ value < 256 then some (.ofNat value.toNat) else none
    | _ => none

/-- An optional value: null stands for none. -/
instance {α : Type} [Form α] : Form (Option α) where
  encode
    | some value => encode value
    | none => .null
  decode
    | .null => some none
    | json => (decode json).map some

/-- Lists. -/
instance {α : Type} [Form α] : Form (List α) where
  encode items := .array (items.map encode)
  decode
    | .array items => items.mapM decode
    | _ => none

/-- Maps: of members with one key the last counts. -/
instance {α : Type} [Form α] : Form (Keyed α) where
  encode map := .object (map.entries.map fun entry => (entry.1, encode entry.2))
  decode
    | .object members =>
      (members.mapM fun member => (decode member.2).map (member.1, ·)).map Keyed.ofList
    | _ => none

/-- A record with its fields in declaration order. -/
def record (fields : List (String × Json)) : Json := .object fields

/-- The member for one field: nothing for a missing one. A repeated field is refused. -/
def slot? (members : List (String × Json)) (name : String) : Option (Option Json) :=
  match members.filter (·.1 == name) with
  | [] => some none
  | [member] => some (some member.2)
  | _ => none

/-- The fields of a record in declaration order, each present or not. An array has a value for each
field. -/
def slots? (names : List String) : Json → Option (List (Option Json))
  | .object members => names.mapM (slot? members)
  | .array items => if items.length = names.length then some (items.map some) else none
  | _ => none

/-- The fields of a record that has a value for every missing field, also at the end of an
array. -/
def defaultedSlots? (names : List String) : Json → Option (List (Option Json))
  | .object members => names.mapM (slot? members)
  | .array items =>
    if items.length ≤ names.length then
      some (items.map some ++ List.replicate (names.length - items.length) none)
    else none
  | _ => none

/-- Reads a field that must be present. -/
def required {α : Type} [Form α] (slot : Option Json) : Option α := slot.bind decode

/-- Reads a field that may be missing or null. -/
def nullable {α : Type} [Form α] : Option Json → Option (Option α)
  | none => some none
  | some json => decode json

/-- Reads a field that has a value when it is missing. -/
def withDefault {α : Type} [Form α] (value : α) : Option Json → Option α
  | none => some value
  | some json => decode json

/-- An alternative with what it carries. -/
def alternative (name : String) (payload : Json) : Json := .object [(name, payload)]

/-- The name of an alternative and what it carries; a bare name carries nothing. -/
def alternative? : Json → Option (String × Option Json)
  | .string name => some (name, none)
  | .object [(name, payload)] => some (name, some payload)
  | _ => none

/-- The alternative that carries nothing: its name, alone or with null. -/
def bareName? (json : Json) : Option String :=
  match alternative? json with
  | some (name, none) => some name
  | some (name, some .null) => some name
  | _ => none

/-- Reads one of a list of values by name. -/
def named? {α : Type} (name : α → String) (values : List α) (json : Json) : Option α :=
  (bareName? json).bind fun text => values.find? fun value => name value == text

end DomainFactory.Json
