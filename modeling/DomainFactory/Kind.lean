import DomainFactory.Json.Form
import DomainFactory.Text.Class

/-!
# Kinds of operations

An operation creates, fetches or executes, which counts as reading, or it inserts, updates or
deletes, which is writing. Markers name the kinds in any case of letters.
-/
namespace DomainFactory

open Json Text

/-- The role of an operation in the life of an instance. -/
inductive Kind where
  /-- Sets up a fresh instance. -/
  | create
  /-- Loads a stored instance. -/
  | fetch
  /-- Stores a new instance. -/
  | insert
  /-- Stores a changed instance. -/
  | update
  /-- Removes a stored instance. -/
  | delete
  /-- Computes a value. -/
  | execute
deriving DecidableEq, Repr, Inhabited

/-- What kinds of operations have in common. -/
inductive Family where
  /-- The operation needs no instance to work on. -/
  | read
  /-- The operation works on an instance. -/
  | write
deriving DecidableEq, Repr

namespace Family

/-- The name of a family in JSON. -/
def name : Family → String
  | .read => "Read"
  | .write => "Write"

instance : Form Family where
  encode family := .string family.name
  decode := named? name [.read, .write]

end Family

namespace Kind

/-- The kinds in declaration order. -/
def all : List Kind := [.create, .fetch, .insert, .update, .delete, .execute]

/-- Every kind is listed. -/
theorem mem_all (kind : Kind) : kind ∈ all := by cases kind <;> decide

/-- The marker name of a kind. -/
def text : Kind → String
  | .create => "create"
  | .fetch => "fetch"
  | .insert => "insert"
  | .update => "update"
  | .delete => "delete"
  | .execute => "execute"

/-- The name of a kind in JSON. -/
def name : Kind → String
  | .create => "Create"
  | .fetch => "Fetch"
  | .insert => "Insert"
  | .update => "Update"
  | .delete => "Delete"
  | .execute => "Execute"

/-- The kind a marker names, in any case of letters. -/
def ofMarker? (marker : String) : Option Kind :=
  all.find? fun kind => sameIgnoringAsciiCase kind.text marker

/-- The family of a kind. -/
def family : Kind → Family
  | .create | .fetch | .execute => .read
  | .insert | .update | .delete => .write

/-- Whether operations of the kind work on an instance. -/
def isWrite (kind : Kind) : Bool := kind.family == .write

instance : Form Kind where
  encode kind := .string kind.name
  decode := named? name all

end Kind

end DomainFactory
