import DomainFactory.Decimal.Binary64

/-!
# JSON values

A JSON value as the reader leaves it. Objects keep their members in text order, repeated keys
included, since a form decides for itself what a repetition means. A part that is well formed but
fits no value is kept as `unreadable`: a form that skips it does not mind, one that reads it fails.
-/
namespace DomainFactory

open Decimal

/-- A JSON value. -/
inductive Json where
  /-- The null value. -/
  | null
  /-- A truth value. -/
  | bool (value : Bool)
  /-- A number without fraction and exponent, between `-2 ^ 63` and `2 ^ 64`. -/
  | int (value : Int)
  /-- Any other number. -/
  | float (value : Binary64)
  /-- A string. -/
  | string (value : String)
  /-- An array. -/
  | array (items : List Json)
  /-- An object, its members in text order. -/
  | object (members : List (String × Json))
  /-- A well-formed part that fits no value: a number beyond the format, a text with half a
  surrogate pair, or nesting beyond the limit. -/
  | unreadable
deriving Inhabited, Repr

namespace Json

mutual

/-- Whether every part of a value fits one. -/
def isReadable : Json → Bool
  | .unreadable => false
  | .array items => itemsReadable items
  | .object members => membersReadable members
  | _ => true

/-- Whether every item is readable. -/
def itemsReadable : List Json → Bool
  | [] => true
  | item :: items => isReadable item && itemsReadable items

/-- Whether every member is readable. -/
def membersReadable : List (String × Json) → Bool
  | [] => true
  | (_, value) :: members => isReadable value && membersReadable members

end

mutual

/-- The value in which every object keeps, of members with one key, the last. -/
def lastWins : Json → Json
  | .array items => .array (lastWinsItems items)
  | .object members => .object (lastWinsMembers members)
  | value => value

/-- Keeps the last of repeated members in every item. -/
def lastWinsItems : List Json → List Json
  | [] => []
  | item :: items => lastWins item :: lastWinsItems items

/-- Keeps the last of repeated members, here and in every value. -/
def lastWinsMembers : List (String × Json) → List (String × Json)
  | [] => []
  | (key, value) :: members =>
    let kept := lastWinsMembers members
    if kept.any (·.1 == key) then kept else (key, lastWins value) :: kept

end

/-- The member of an object with a key. -/
def member? (key : String) : Json → Option Json
  | .object members => (members.find? (·.1 == key)).map (·.2)
  | _ => none

end Json

end DomainFactory
