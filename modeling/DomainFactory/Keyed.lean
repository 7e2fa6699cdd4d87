/-!
# Keyed maps

A keyed map holds one value for each of its keys, in the order of the keys' code points. The order
is part of the type, so a map has one representation and equality of maps is equality of lists.
-/
namespace DomainFactory

/-- A map from texts, sorted by key. -/
structure Keyed (α : Type) where
  /-- The entries in key order. -/
  entries : List (String × α)
  /-- The keys ascend strictly. -/
  ascending : entries.Pairwise fun left right => left.1 < right.1
deriving DecidableEq

namespace Keyed

variable {α : Type}

/-- Maps show as their entries. -/
instance [Repr α] : Repr (Keyed α) where
  reprPrec map precedence := reprPrec map.entries precedence

/-- Puts a value under a key in a sorted list of entries. -/
def place (key : String) (value : α) : List (String × α) → List (String × α)
  | [] => [(key, value)]
  | (first, kept) :: rest =>
    if key < first then (key, value) :: (first, kept) :: rest
    else if key = first then (key, value) :: rest
    else (first, kept) :: place key value rest

/-- The keys after a placement are the keys before it and the placed one. -/
theorem mem_place {key : String} {value : α} {entries : List (String × α)}
    {entry : String × α} (member : entry ∈ place key value entries) :
    entry = (key, value) ∨ entry ∈ entries := by
  induction entries with
  | nil => simpa [place] using member
  | cons first rest ih =>
    obtain ⟨firstKey, kept⟩ := first
    simp only [place] at member
    split at member
    · simpa using member
    · split at member
      · rcases List.mem_cons.1 member with here | there
        · exact .inl here
        · exact .inr (List.mem_cons_of_mem _ there)
      · rcases List.mem_cons.1 member with here | there
        · exact .inr (here ▸ List.mem_cons_self)
        · exact (ih there).imp_right (List.mem_cons_of_mem _)

/-- Placing keeps the order. -/
theorem ascending_place (key : String) (value : α) {entries : List (String × α)}
    (ascending : entries.Pairwise fun left right => left.1 < right.1) :
    (place key value entries).Pairwise fun left right => left.1 < right.1 := by
  induction entries with
  | nil => simp [place]
  | cons first rest ih =>
    obtain ⟨firstKey, kept⟩ := first
    obtain ⟨above, ascendingRest⟩ := List.pairwise_cons.1 ascending
    simp only [place]
    split
    next below =>
      refine List.pairwise_cons.2 ⟨fun entry member => ?_, ascending⟩
      rcases List.mem_cons.1 member with here | there
      · exact here ▸ below
      · exact String.lt_trans below (above entry there)
    next notBelow =>
      split
      next same =>
        subst same
        exact List.pairwise_cons.2 ⟨above, ascendingRest⟩
      next different =>
        refine List.pairwise_cons.2 ⟨fun entry member => ?_, ih ascendingRest⟩
        rcases mem_place member with here | there
        · subst here
          refine Decidable.byContradiction fun notAbove => different ?_
          exact String.le_antisymm (String.not_lt.1 notAbove) (String.not_lt.1 notBelow)
        · exact above entry there

/-- The map without entries. -/
def empty : Keyed α := ⟨[], .nil⟩

instance : EmptyCollection (Keyed α) := ⟨empty⟩

instance : Inhabited (Keyed α) := ⟨empty⟩

/-- The map with a value under a key, in place of any value it had. -/
def insert (key : String) (value : α) (map : Keyed α) : Keyed α :=
  ⟨place key value map.entries, ascending_place key value map.ascending⟩

/-- The value under a key. -/
def get? (key : String) (map : Keyed α) : Option α :=
  (map.entries.find? (·.1 == key)).map (·.2)

/-- A value that is found under a key stands there. -/
theorem mem_entries {map : Keyed α} {key : String} {value : α}
    (found : map.get? key = some value) : (key, value) ∈ map.entries := by
  obtain ⟨entry, first, rfl⟩ := Option.map_eq_some_iff.mp found
  have same : entry.1 = key := by simpa using List.find?_some first
  exact same ▸ List.mem_of_find?_eq_some first

/-- Whether a key has a value. -/
def contains (key : String) (map : Keyed α) : Bool := (map.get? key).isSome

/-- The keys in order. -/
def keys (map : Keyed α) : List String := map.entries.map (·.1)

/-- The values in the order of their keys. -/
def values (map : Keyed α) : List α := map.entries.map (·.2)

/-- The number of entries. -/
def size (map : Keyed α) : Nat := map.entries.length

/-- Whether there is no entry. -/
def isEmpty (map : Keyed α) : Bool := map.entries.isEmpty

/-- The map of a list of entries; of entries with one key the last counts. -/
def ofList (entries : List (String × α)) : Keyed α :=
  entries.foldl (fun map entry => map.insert entry.1 entry.2) empty

end Keyed

end DomainFactory
