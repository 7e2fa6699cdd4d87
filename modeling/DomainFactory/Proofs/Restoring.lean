import DomainFactory.Proofs.Layout
import DomainFactory.Proofs.Running

/-!
# Forms that give back what was written

A value is restored when its form reads it back from what it writes. Lists, maps and records are
restored part by part, and so is an optional value whose form is never null: null stands for none.
-/
namespace DomainFactory

namespace Keyed

variable {α : Type}

/-- A value whose key comes after all others is placed at the end. -/
theorem place_last {key : String} {value : α} {entries : List (String × α)}
    (last : ∀ entry ∈ entries, entry.1 < key) :
    place key value entries = entries ++ [(key, value)] := by
  induction entries with
  | nil => rfl
  | cons first rest ih =>
    have before : first.1 < key := last first List.mem_cons_self
    have notBefore : ¬ key < first.1 := fun after =>
      String.lt_irrefl _ (String.lt_trans before after)
    have apart : key ≠ first.1 := fun same => String.lt_irrefl _ (same ▸ before)
    have behind := ih fun entry member => last entry (List.mem_cons_of_mem _ member)
    simp only [place, if_neg notBefore, if_neg apart, behind, List.cons_append]

/-- Entries that ascend behind those of a map are added at its end. -/
theorem entries_foldl_insert {entries : List (String × α)} {map : Keyed α}
    (ascending : (map.entries ++ entries).Pairwise fun left right => left.1 < right.1) :
    (entries.foldl (fun map entry => map.insert entry.1 entry.2) map).entries =
      map.entries ++ entries := by
  induction entries generalizing map with
  | nil => simp
  | cons entry entries ih =>
    have last : ∀ before ∈ map.entries, before.1 < entry.1 := fun before member =>
      (List.pairwise_append.mp ascending).2.2 before member entry List.mem_cons_self
    have placed : (map.insert entry.1 entry.2).entries = map.entries ++ [entry] := place_last last
    have moved : map.entries ++ entry :: entries =
        (map.insert entry.1 entry.2).entries ++ entries := by
      rw [placed, List.append_assoc, List.singleton_append]
    rw [moved] at ascending
    rw [List.foldl_cons, ih ascending, moved]

/-- The map of entries that ascend has just these. -/
theorem entries_ofList {entries : List (String × α)}
    (ascending : entries.Pairwise fun left right => left.1 < right.1) :
    (ofList entries).entries = entries :=
  @entries_foldl_insert α entries empty ascending

/-- A map is the map of its entries. -/
theorem ofList_entries (map : Keyed α) : ofList map.entries = map := by
  obtain ⟨entries, ascending⟩ := map
  have same := entries_ofList ascending
  generalize ofList entries = made at same
  obtain ⟨_, _⟩ := made
  subst same
  rfl

/-- Entries that are added one after another are all that a map gains. -/
theorem mem_foldl_insert {entries : List (String × α)} {map : Keyed α} {entry : String × α}
    (member : entry ∈ (entries.foldl (fun map entry => map.insert entry.1 entry.2) map).entries) :
    entry ∈ map.entries ∨ entry ∈ entries := by
  induction entries generalizing map with
  | nil => exact .inl member
  | cons first entries ih =>
    rcases ih member with before | later
    · rcases mem_place before with here | before
      · exact .inr (here ▸ List.mem_cons_self)
      · exact .inl before
    · exact .inr (List.mem_cons_of_mem _ later)

/-- The entries of the map of a list are from that list. -/
theorem mem_of_mem_ofList {entries : List (String × α)} {entry : String × α}
    (member : entry ∈ (ofList entries).entries) : entry ∈ entries :=
  (mem_foldl_insert member).resolve_left List.not_mem_nil

end Keyed

namespace Json

/-- A value is restored when its form reads it back from what it writes. -/
def Restored {α : Type} [Form α] (value : α) : Prop := decode (encode value) = some value

variable {α : Type} [Form α]

/-- What is made of a value is read back when the value is. -/
theorem Restored.map {β : Type} {value : α} (restored : Restored value) (make : α → β) :
    (decode (encode value)).map make = some (make value) := by
  have read : decode (encode value) = some value := restored
  rw [read, Option.map_some]

/-- Truth values are restored. -/
@[simp] theorem restored_bool (value : Bool) : Restored value := rfl

/-- Texts are restored. -/
@[simp] theorem restored_string (value : String) : Restored value := rfl

/-- Natural numbers are restored. -/
@[simp] theorem restored_nat (value : Nat) : Restored value := by
  simp [Restored, encode, decode]

/-- Words of 64 bits are restored. -/
@[simp] theorem restored_word (value : UInt64) : Restored value := by
  have fits : value.toNat < UInt64.size := value.toNat_lt
  simp [Restored, encode, decode, fits]

/-- Bytes are restored. -/
@[simp] theorem restored_byte (value : UInt8) : Restored value := by
  have fits : (value.toNat : Int) < 256 := by
    have below := value.toNat_lt
    omega
  simp [Restored, encode, decode, fits]

/-- Signed integers are restored. -/
@[simp] theorem restored_integer (value : Int64) : Restored value := by
  have low : Int64.minValue.toInt ≤ value.toInt := Int64.le_toInt value
  have high : value.toInt ≤ Int64.maxValue.toInt := Int64.toInt_le value
  simp only [Restored, encode, decode, low, high, and_self, ↓reduceIte, Int64.ofInt_toInt]

/-- A missing value is restored. -/
@[simp] theorem restored_none : Restored (none : Option α) := rfl

/-- A present value is restored with its content, when that is not written as null. -/
theorem restored_some {value : α} (written : encode value ≠ .null) (content : Restored value) :
    Restored (some value) := by
  have opened : ∀ json : Json, json ≠ .null →
      (decode json : Option (Option α)) = (decode json).map some := by
    intro json present
    cases json with
    | null => exact absurd rfl present
    | _ => rfl
  have given := opened (encode value) written
  rw [content] at given
  exact given

/-- An optional text is restored. -/
@[simp] theorem restored_optional_string (value : Option String) : Restored value := by
  cases value with
  | none => exact restored_none
  | some text => exact restored_some (by simp [encode]) (restored_string text)

/-- A list is restored with its items. -/
@[simp] theorem restored_list {items : List α} (each : ∀ item ∈ items, Restored item) :
    Restored items := by
  have read : items.mapM (decode ∘ encode) = some (items.map id) := Option.mapM_eq_map each
  rwa [← List.mapM_map, List.map_id] at read

/-- A map is restored with its values. -/
theorem restored_keyed {map : Keyed α} (each : ∀ entry ∈ map.entries, Restored entry.2) :
    Restored map := by
  have members : (map.entries.map fun entry => (entry.1, encode entry.2)).mapM
      (fun member => (decode member.2).map (member.1, ·)) = some (map.entries.map id) := by
    rw [List.mapM_map]
    refine Option.mapM_eq_map fun entry member => ?_
    have value : decode (encode entry.2) = some entry.2 := each entry member
    simp [value]
  change Option.map Keyed.ofList (List.mapM _ _) = some map
  rw [members, List.map_id, Option.map_some, Keyed.ofList_entries]

/-- Of fields with distinct names, one alone has the name of each. -/
theorem slot_record {fields : List (String × Json)} (distinct : (fields.map Prod.fst).Nodup)
    {field : String × Json} (member : field ∈ fields) :
    slot? fields field.1 = some (some field.2) := by
  have only : fields.filter (·.1 == field.1) = [field] := by
    obtain ⟨before, after, rfl⟩ := List.append_of_mem member
    rw [List.map_append, List.map_cons, List.nodup_middle, List.nodup_cons,
      ← List.map_append] at distinct
    have others : ∀ other ∈ before ++ after, (other.1 == field.1) = false := by
      intro other there
      have apart : other.1 ≠ field.1 := fun same =>
        distinct.1 (same ▸ List.mem_map_of_mem there)
      simpa using apart
    have left : before.filter (·.1 == field.1) = [] := List.filter_eq_nil_iff.mpr
      fun other there => by simp [others other (List.mem_append_left _ there)]
    have right : after.filter (·.1 == field.1) = [] := List.filter_eq_nil_iff.mpr
      fun other there => by simp [others other (List.mem_append_right _ there)]
    simp [left, right]
  simp [slot?, only]

/-- Each field of a record is found under its name. -/
theorem slots_record {fields : List (String × Json)} (distinct : (fields.map Prod.fst).Nodup) :
    slots? (fields.map Prod.fst) (record fields) = some (fields.map fun field => some field.2) := by
  change (fields.map Prod.fst).mapM (slot? fields) = _
  rw [List.mapM_map]
  exact Option.mapM_eq_map fun _ member => slot_record distinct member

/-- A record is restored when its fields, in order, make it up again. -/
theorem restored_record {β : Type} {names : List String} {fields : List (String × Json)}
    {read : List (Option Json) → Option β} {value : β} (named : fields.map Prod.fst = names)
    (distinct : names.Nodup) (made : read (fields.map fun field => some field.2) = some value) :
    (slots? names (record fields) >>= read) = some value := by
  subst named
  rw [slots_record distinct]
  exact made

/-- A field that must be present is read from what was written of it. -/
@[simp] theorem required_encode {value : α} (restored : Restored value) :
    required (some (encode value)) = some value := restored

/-- A field that may be missing is read from what was written of it. -/
@[simp] theorem nullable_encode {value : Option α} (restored : Restored value) :
    nullable (some (encode value)) = some value := restored

/-- A field with a default is read from what was written of it. -/
@[simp] theorem withDefault_encode {value : α} (default : α) (restored : Restored value) :
    withDefault default (some (encode value)) = some value := restored

/-- A listed value is found by its name, when names are distinct. -/
theorem named_found {β : Type} {name : β → String} {values : List β} {value : β}
    (distinct : (values.map name).Nodup) (listed : value ∈ values) :
    named? name values (.string (name value)) = some value :=
  (find_keyed_iff distinct).mpr ⟨listed, rfl⟩

/-- A form keeps the values with a property: it reads no others, it reads each of them back from
what it writes, and it writes no two of them alike. -/
structure Lossless (α : Type) [Form α] (holds : α → Prop) : Prop where
  admitted : ∀ {json : Json} {value : α}, decode json = some value → holds value
  restored : ∀ {value : α}, holds value → Restored value
  apart : ∀ {left right : α}, holds left → holds right → encode left = encode right → left = right

namespace Lossless

variable {holds : α → Prop}

/-- Values that are read back are not written alike. -/
theorem of (admitted : ∀ {json : Json} {value : α}, decode json = some value → holds value)
    (restored : ∀ {value : α}, holds value → Restored value) : Lossless α holds := by
  refine ⟨admitted, restored, fun {left right} holdsLeft holdsRight same => ?_⟩
  have read : decode (encode left) = some left := restored holdsLeft
  have again : decode (encode right) = some right := restored holdsRight
  rw [same, again] at read
  exact (Option.some.inj read).symm

/-- A field that must be present holds what its form admits. -/
theorem of_required (lossless : Lossless α holds) {slot : Option Json} {value : α}
    (read : required slot = some value) : holds value := by
  obtain ⟨json, _, found⟩ := Option.bind_eq_some_iff.mp read
  exact lossless.admitted found

/-- Lists of values that are kept are kept. -/
theorem list (lossless : Lossless α holds) :
    Lossless (List α) fun items => ∀ item ∈ items, holds item := by
  refine .of ?_ fun all => restored_list fun item member => lossless.restored (all item member)
  intro json items found item member
  cases json with
  | array written =>
    obtain ⟨part, _, read⟩ := exists_of_forall₂ (Option.mapM_eq_some.mp found) member
    exact lossless.admitted read
  | _ => cases found

/-- Maps of values that are kept are kept. -/
theorem keyed (lossless : Lossless α holds) :
    Lossless (Keyed α) fun map => ∀ entry ∈ map.entries, holds entry.2 := by
  refine .of ?_ fun all => restored_keyed fun entry member => lossless.restored (all entry member)
  intro json map found entry member
  cases json with
  | object members =>
    obtain ⟨entries, read, rfl⟩ := Option.map_eq_some_iff.mp found
    obtain ⟨part, _, given⟩ :=
      exists_of_forall₂ (Option.mapM_eq_some.mp read) (Keyed.mem_of_mem_ofList member)
    obtain ⟨value, made, rfl⟩ := Option.map_eq_some_iff.mp given
    exact lossless.admitted made
  | _ => cases found

/-- Optional values that are kept, and never written as null, are kept. -/
theorem option (lossless : Lossless α holds) (written : ∀ value : α, encode value ≠ .null) :
    Lossless (Option α) fun optional => ∀ value, optional = some value → holds value := by
  refine .of ?_ ?_
  · intro json optional found value present
    have read : (decode json : Option α).map some = some (some value) := by
      cases json with
      | null =>
        cases found
        cases present
      | _ => exact present ▸ found
    obtain ⟨other, given, same⟩ := Option.map_eq_some_iff.mp read
    cases same
    exact lossless.admitted given
  · intro optional all
    cases optional with
    | none => exact restored_none
    | some value => exact restored_some (written value) (lossless.restored (all value rfl))

/-- An optional field holds what its form admits, and what holds of a missing value. -/
theorem of_nullable {optional : Option α → Prop} (lossless : Lossless (Option α) optional)
    (missing : optional none) {slot : Option Json} {value : Option α}
    (read : nullable slot = some value) : optional value := by
  cases slot with
  | none =>
    cases read
    exact missing
  | some json => exact lossless.admitted read

end Lossless

end Json

end DomainFactory
