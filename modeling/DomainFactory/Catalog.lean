import DomainFactory.Json.Reader
import DomainFactory.Surface.Reader

/-!
# Catalogs

A catalog holds one surface for each declared type, in name order. Declarations are added from
source text or from JSON, all of a text or none. The base chain of a type is the type, its base,
the base of that, and so on up to a base that is not declared.

A chain knows a type that it comes back to by the name of the surface. So surfaces with bases stand
under their own names in a catalog: among others the way along bases could go round without end.
Additions put every surface under its own name. A map of surfaces that is read as a whole need not
be a catalog.
-/
namespace DomainFactory

open Json

/-- The surfaces of the declared types by name. -/
structure Catalog where
  /-- The surfaces. -/
  types : Keyed Surface
  /-- A surface with a base stands under its own name. -/
  named : ∀ entry ∈ types.entries, entry.2.base.isSome = true → entry.2.name = entry.1
deriving DecidableEq, Repr

/-- The base chain of a type. -/
structure Chain where
  /-- The surfaces of the chain, the type itself first. -/
  members : List Surface
  /-- The base at which the chain stops because it is not declared. -/
  unresolved : Option String
deriving DecidableEq, Repr

/-- Why a type has no factory. -/
inductive GenerationError where
  /-- The type is not declared. -/
  | unknownType (name : String)
  /-- Its base chain comes back to one of its members. -/
  | cyclicBase (name : String) (chain : List String)
deriving DecidableEq, Repr

namespace GenerationError

/-- The text of an error. -/
def message : GenerationError → String
  | .unknownType name => "type " ++ name ++ " is not declared in the catalog"
  | .cyclicBase name chain =>
    "base chain of " ++ name ++ " is cyclic: " ++ " -> ".intercalate chain

end GenerationError

namespace Catalog

/-- The catalog without declarations. -/
def empty : Catalog := ⟨.empty, fun _ member => absurd member List.not_mem_nil⟩

/-- The surface of a type. -/
def get? (catalog : Catalog) (name : String) : Option Surface := catalog.types.get? name

/-- The catalog with a surface, in place of any surface of its name. -/
def insert (catalog : Catalog) (surface : Surface) : Catalog :=
  ⟨catalog.types.insert surface.name surface, fun entry member based => by
    rcases Keyed.mem_place member with rfl | before
    · rfl
    · exact catalog.named entry before based⟩

/-- The catalog with surfaces inserted in order. -/
def insertAll (catalog : Catalog) (surfaces : List Surface) : Catalog :=
  surfaces.foldl insert catalog

/-- The names that a surface mentions: its own, its base and its policies. -/
def mentioned (surface : Surface) : List String :=
  surface.name :: surface.base.toList ++ surface.policies

/-- Refuses a surface that mentions a name that is no identifier. -/
def checkNames (surface : Surface) : Except SurfaceError Unit :=
  match (mentioned surface).find? (!Syntax.isIdentifier ·) with
  | some name => .error (.invalidName name)
  | none => .ok ()

/-- A change of a catalog that may fail. What it changes before it fails stays changed. -/
abbrev Edit (α : Type) := ExceptT SurfaceError (StateM Catalog) α

namespace Edit

variable {α : Type}

/-- What an edit comes to, and the catalog it leaves behind. -/
def on (edit : Edit α) (catalog : Catalog) : Except SurfaceError α × Catalog :=
  (ExceptT.run edit).run catalog

/-- The catalog with an edit and what the edit gives, when it does not fail. -/
def onSuccess (edit : Edit α) (catalog : Catalog) : Except SurfaceError (Catalog × α) :=
  match edit.on catalog with
  | (.ok value, later) => .ok (later, value)
  | (.error error, _) => .error error

/-- Puts a surface in place of any surface of its name, and gives that one. -/
def put (surface : Surface) : Edit (Option Surface) := do
  let replaced := (← get).get? surface.name
  modify (·.insert surface)
  return replaced

/-- Puts surfaces one after another, and counts them. -/
def putAll (surfaces : List Surface) : Edit Nat := do
  surfaces.forM fun surface => discard (put surface)
  return surfaces.length

/-- Puts the traits of a source text. -/
def source (config : Config) (text : String) : Edit Nat := do
  putAll (← liftExcept (Surface.parseFile config text))

/-- Puts the surfaces of a JSON list. -/
def json (text : String) : Edit Nat :=
  match (read? text).bind decode with
  | none => throw .badJson
  | some surfaces => do
    surfaces.forM fun surface => liftExcept (checkNames surface)
    putAll surfaces

end Edit

/-- The catalog with the traits of a source text, and their number. -/
def addSource (config : Config) (text : String) (catalog : Catalog) :
    Except SurfaceError (Catalog × Nat) :=
  (Edit.source config text).onSuccess catalog

/-- The catalog with the surfaces of a JSON list, and their number. -/
def addJson (text : String) (catalog : Catalog) : Except SurfaceError (Catalog × Nat) :=
  (Edit.json text).onSuccess catalog

/-- The names of the types with a factory, in order. -/
def factoryTypes (catalog : Catalog) : List String :=
  (catalog.types.values.filter (·.factory)).map (·.name)

/-- A declared surface with a base has the name under which it stands. -/
theorem name_of_base {catalog : Catalog} {name base : String} {surface : Surface}
    (declared : catalog.get? name = some surface) (extended : surface.base = some base) :
    surface.name = name :=
  catalog.named (name, surface) (Keyed.mem_entries declared) (by rw [extended]; rfl)

/-- Surfaces of the catalog under distinct names. -/
structure Declares (catalog : Catalog) (members : List Surface) : Prop where
  /-- Their names are distinct. -/
  distinct : (members.map (·.name)).Nodup
  /-- Each of them stands under its own name. -/
  declared : ∀ member ∈ members, catalog.get? member.name = some member

namespace Declares

variable {catalog : Catalog} {members : List Surface} {surface : Surface}

/-- There are no more of them than declarations. -/
theorem length_le (declares : catalog.Declares members) :
    members.length ≤ catalog.types.size := by
  have known : members.map (·.name) ⊆ catalog.types.keys := by
    intro name listed
    obtain ⟨member, present, rfl⟩ := List.mem_map.mp listed
    exact List.mem_map_of_mem (Keyed.mem_entries (declares.declared member present))
  calc members.length = (members.map (·.name)).length := (List.length_map _).symm
    _ ≤ catalog.types.keys.length := declares.distinct.length_le_of_subset known
    _ = catalog.types.size := List.length_map _

/-- A declared surface alone. -/
theorem single (declared : catalog.get? surface.name = some surface) :
    catalog.Declares [surface] := by
  refine ⟨List.nodup_cons.mpr ⟨List.not_mem_nil, List.nodup_nil⟩, fun member present => ?_⟩
  rw [List.mem_singleton.mp present]
  exact declared

/-- One more surface under a new name. -/
theorem concat (declares : catalog.Declares members)
    (fresh : ¬ members.any (·.name == surface.name) = true)
    (declared : catalog.get? surface.name = some surface) :
    catalog.Declares (members ++ [surface]) := by
  refine ⟨?_, ?_⟩
  · rw [List.map_append, List.nodup_append]
    refine ⟨declares.distinct, (single declared).distinct, fun name listed other last same => ?_⟩
    obtain ⟨member, present, rfl⟩ := List.mem_map.mp listed
    rw [List.mem_singleton.mp last] at same
    exact fresh (List.any_eq_true.mpr ⟨member, present, beq_iff_eq.mpr same⟩)
  · intro member present
    rcases List.mem_append.mp present with before | last
    · exact declares.declared member before
    · rw [List.mem_singleton.mp last]
      exact declared

end Declares

/-- Follows the bases behind the members of a chain, one in each step. Nothing comes of it when
there are fewer steps than bases to follow. -/
def follow (catalog : Catalog) (name : String) :
    (steps : Nat) → List Surface → Option String → Option (Except GenerationError Chain)
  | _, members, none => some (.ok ⟨members, none⟩)
  | 0, _, some _ => none
  | steps + 1, members, some base =>
    if members.any (·.name == base) then
      some (.error (.cyclicBase name (members.map (·.name) ++ [base])))
    else
      match catalog.get? base with
      | none => some (.ok ⟨members, some base⟩)
      | some surface => follow catalog name steps (members ++ [surface]) surface.base

/-- With a step for each declaration something comes of it: as long as there is a further base the
members are distinct declarations. -/
theorem follow_isSome {catalog : Catalog} {name : String} {steps : Nat} {members : List Surface}
    {base : Option String} (declares : ∀ next ∈ base, catalog.Declares members)
    (room : catalog.types.size < steps + members.length) :
    (catalog.follow name steps members base).isSome = true := by
  induction steps generalizing members base with
  | zero =>
    cases base with
    | none => rfl
    | some base =>
      have bound := (declares base rfl).length_le
      omega
  | succ steps ih =>
    cases base with
    | none => rfl
    | some base =>
      unfold follow
      by_cases back : members.any (·.name == base) = true
      · rw [if_pos back]
        rfl
      · rw [if_neg back]
        cases found : catalog.get? base with
        | none => rfl
        | some surface =>
          refine ih (fun next extended => ?_) ?_
          · have named := name_of_base found extended
            exact (declares base rfl).concat (named ▸ back) (named ▸ found)
          · rw [List.length_append, List.length_singleton]
            omega

/-- The base chain of a type. -/
def chain (catalog : Catalog) (name : String) : Except GenerationError Chain :=
  match found : catalog.get? name with
  | none => .error (.unknownType name)
  | some surface =>
    (catalog.follow name catalog.types.size [surface] surface.base).get
      (follow_isSome (fun _ extended => .single (name_of_base found extended ▸ found))
        (Nat.lt_succ_self _))

/-- A type that is not declared has no base chain. -/
theorem chain_undeclared {catalog : Catalog} {name : String} (missing : catalog.get? name = none) :
    catalog.chain name = .error (.unknownType name) := by
  unfold chain
  split
  next => rfl
  next declared =>
    rw [missing] at declared
    cases declared

/-- The base chain of a declared type is what following its base comes to. -/
theorem follow_eq_chain {catalog : Catalog} {name : String} {surface : Surface}
    (declared : catalog.get? name = some surface) :
    catalog.follow name catalog.types.size [surface] surface.base = some (catalog.chain name) := by
  unfold chain
  split
  next missing =>
    rw [missing] at declared
    cases declared
  next found =>
    cases found.symm.trans declared
    exact (Option.some_get _).symm

/-- The catalog of a map of surfaces, when those with bases stand under their own names. -/
def ofTypes? (types : Keyed Surface) : Option Catalog :=
  if named : ∀ entry ∈ types.entries, entry.2.base.isSome = true → entry.2.name = entry.1 then
    some ⟨types, named⟩
  else none

/-- A catalog is written as the map of its surfaces. Every map of surfaces is read back as a map,
and as a catalog when it is one. -/
instance : Form Catalog where
  encode catalog := encode catalog.types
  decode json := (decode json).bind ofTypes?

end Catalog

end DomainFactory
