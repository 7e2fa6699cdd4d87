import DomainFactory.Proofs.Assembly

/-!
# Joining dispatch tables

Tables that have no identity in common can be joined in any order: the result is the same, and it
holds what each of them held. Maps are sorted by key, so maps in which the same is found are equal.
-/
namespace DomainFactory

variable {σ : Type}

namespace Keyed

variable {α : Type}

/-- The keys of a map are distinct. -/
theorem keys_nodup (map : Keyed α) : (map.entries.map Prod.fst).Nodup :=
  List.pairwise_map.mpr (map.ascending.imp fun {left right} (less : left.1 < right.1) same => by
    rw [same] at less
    exact String.lt_irrefl _ less)

/-- A value is found under its key exactly when the map holds the two together. -/
theorem get_eq_some_iff {map : Keyed α} {key : String} {value : α} :
    map.get? key = some value ↔ (key, value) ∈ map.entries := by
  refine ⟨mem_entries, fun member => ?_⟩
  have found := (find_keyed_iff map.keys_nodup).mpr ⟨member, rfl⟩
  exact Option.map_eq_some_iff.mpr ⟨(key, value), found, rfl⟩

/-- A key has a value exactly when it is listed. -/
theorem contains_iff {map : Keyed α} {key : String} :
    map.contains key = true ↔ key ∈ map.keys := by
  unfold contains keys
  rw [Option.isSome_iff_exists, List.mem_map]
  constructor
  · rintro ⟨value, found⟩
    exact ⟨(key, value), get_eq_some_iff.mp found, rfl⟩
  · rintro ⟨⟨_, value⟩, member, rfl⟩
    exact ⟨value, get_eq_some_iff.mpr member⟩

/-- Maps in which the same is found under every key are equal. -/
theorem ext_get {left right : Keyed α} (same : ∀ key, left.get? key = right.get? key) :
    left = right := by
  have entries : left.entries = right.entries := by
    refine List.Perm.eq_of_pairwise ?_ left.ascending right.ascending ?_
    · intro first second _ _ less more
      exact absurd (String.lt_trans less more) (String.lt_irrefl _)
    · refine (List.perm_ext_iff_of_nodup left.keys_nodup.of_map right.keys_nodup.of_map).mpr ?_
      intro entry
      exact get_eq_some_iff.symm.trans ((same entry.1).symm ▸ get_eq_some_iff)
  cases left
  cases right
  cases entries
  rfl

end Keyed

namespace DispatchTable

/-- Of two paths under an identity that of the joined table counts, and nothing is lost. -/
theorem merge_get (table other : DispatchTable σ) (id : String) :
    (table.merge other).paths.get? id =
      (other.paths.get? id).or (table.paths.get? id) := by
  have joined (entries : List (String × Path σ)) (distinct : (entries.map Prod.fst).Nodup)
      (table : DispatchTable σ) :
      (entries.foldl (fun table entry => table.insert entry.1 entry.2) table).paths.get? id =
        ((entries.find? (·.1 == id)).map Prod.snd).or (table.paths.get? id) := by
    induction entries generalizing table with
    | nil => rfl
    | cons entry entries ih =>
      obtain ⟨fresh, apart⟩ := List.nodup_cons.mp distinct
      rw [List.foldl_cons, ih apart, List.find?_cons]
      by_cases same : entry.1 = id
      · have missing : entries.find? (·.1 == id) = none := by
          refine List.find?_eq_none.mpr fun later member taken => fresh ?_
          rw [same, ← beq_iff_eq.mp taken]
          exact List.mem_map_of_mem member
        rw [missing, same]
        simp only [insert, Keyed.get_insert_same, Option.map_none, Option.none_or,
          beq_self_eq_true, Option.map_some, Option.some_or]
      · simp only [insert, Keyed.get_insert_other _ _ same, beq_eq_false_iff_ne.mpr same]
  exact joined other.paths.entries other.paths.keys_nodup table

/-- The tables that are joined to an empty one, one after another. -/
def joined (tables : List (DispatchTable σ)) : DispatchTable σ := tables.foldl merge .empty

/-- Two tables have no identity in common. -/
def Apart (left right : DispatchTable σ) : Prop :=
  ∀ id, left.contains id = true → right.contains id = false

/-- What has a path is contained. -/
theorem contains_of_get {table : DispatchTable σ} {id : String} {path : Path σ}
    (found : table.paths.get? id = some path) : table.contains id = true := by
  unfold contains Keyed.contains
  rw [found]
  rfl

/-- Tables that are apart stay so the other way round. -/
theorem Apart.symm {left right : DispatchTable σ} (apart : left.Apart right) : right.Apart left :=
  fun id there => Bool.eq_false_iff.mpr fun here =>
    absurd there (Bool.eq_false_iff.mp (apart id here))

/-- Joining tables that are apart keeps every path of each and adds none. -/
theorem joined_get {tables : List (DispatchTable σ)} (apart : tables.Pairwise Apart)
    {id : String} {path : Path σ} :
    (joined tables).paths.get? id = some path ↔
      ∃ table ∈ tables, table.paths.get? id = some path := by
  have folded (tables : List (DispatchTable σ)) (start : DispatchTable σ)
      (apart : (start :: tables).Pairwise Apart) :
      (tables.foldl merge start).paths.get? id = some path ↔
        ∃ table ∈ start :: tables, table.paths.get? id = some path := by
    induction tables generalizing start with
    | nil => simp only [List.foldl_nil, List.mem_singleton, exists_eq_left]
    | cons table tables ih =>
      obtain ⟨fromStart, rest⟩ := List.pairwise_cons.mp apart
      obtain ⟨fromTable, rest⟩ := List.pairwise_cons.mp rest
      have split {id : String} {path : Path σ} :
          (start.merge table).paths.get? id = some path ↔
            start.paths.get? id = some path ∨ table.paths.get? id = some path := by
        rw [merge_get, Option.or_eq_some_iff]
        constructor
        · rintro (found | ⟨_, found⟩)
          · exact Or.inr found
          · exact Or.inl found
        · rintro (found | found)
          · refine Or.inr ⟨?_, found⟩
            have missing := fromStart table List.mem_cons_self id (contains_of_get found)
            exact Option.not_isSome_iff_eq_none.mp (Bool.eq_false_iff.mp missing)
          · exact Or.inl found
      have joins : ((start.merge table) :: tables).Pairwise Apart := by
        refine List.pairwise_cons.mpr ⟨fun other member id here => ?_, rest⟩
        obtain ⟨path, found⟩ := Option.isSome_iff_exists.mp here
        rcases split.mp found with found | found
        · exact fromStart other (List.mem_cons_of_mem _ member) id (contains_of_get found)
        · exact fromTable other member id (contains_of_get found)
      rw [List.foldl_cons, ih _ joins]
      simp only [List.exists_mem_cons_iff, split, or_assoc]
  have started : (.empty :: tables).Pairwise (Apart (σ := σ)) :=
    List.pairwise_cons.mpr ⟨fun _ _ _ none => absurd none Bool.false_ne_true, apart⟩
  rw [joined, folded tables .empty started]
  simp only [List.exists_mem_cons_iff, empty, Keyed.get_empty, reduceCtorEq, false_or]

/-- Tables that are apart join to the same table in any order. -/
theorem joined_perm {tables others : List (DispatchTable σ)} (apart : tables.Pairwise Apart)
    (order : others.Perm tables) : joined others = joined tables := by
  have others_apart : others.Pairwise Apart :=
    (order.pairwise_iff fun {_ _} => Apart.symm).mpr apart
  have same : (joined others).paths = (joined tables).paths := by
    refine Keyed.ext_get fun id => Option.ext fun path => ?_
    rw [joined_get others_apart, joined_get apart]
    simp only [order.mem_iff]
  exact congrArg mk same

end DispatchTable

end DomainFactory
