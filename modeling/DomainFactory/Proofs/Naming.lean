import Mathlib.Data.List.Nodup
import Mathlib.Data.List.Perm.Subperm
import Std.Data.String.ToNat
import DomainFactory.Method.Naming

/-!
# Names of methods are distinct

A claimed name is free, since more candidates are tried than names are taken. Naming therefore keeps
one invariant: the taken names are those of the methods named so far, each taken once. Apart from
names, naming changes nothing.
-/
namespace DomainFactory

/-- The method without its names. -/
def MethodSpec.unnamed : MethodSpec → MethodSpec
  | .read _ bound => .read "" bound
  | .write _ bound => .write "" bound
  | .save spec => .save { spec with name := "", tryName := none }
  | .probe spec => .probe { spec with name := "" }

namespace MethodSpec

/-- A named method has its new name. -/
@[simp] theorem name_named (name : String) (spec : MethodSpec) : (spec.named name).name = name := by
  cases spec <;> rfl

/-- Naming a method changes nothing but its name. -/
@[simp] theorem unnamed_named (name : String) (spec : MethodSpec) :
    (spec.named name).unnamed = spec.unnamed := by
  cases spec <;> rfl

/-- A method is a probe with and without its names. -/
@[simp] theorem isProbe_unnamed (spec : MethodSpec) : spec.unnamed.isProbe = spec.isProbe := by
  cases spec <;> rfl

/-- A method has its operation and bindings with and without its names. -/
@[simp] theorem bound_unnamed (spec : MethodSpec) : spec.unnamed.bound? = spec.bound? := by
  cases spec <;> rfl

/-- What differs from a probe in its name is a probe with another name. -/
theorem probe_of_unnamed {spec : MethodSpec} {probe : ProbeSpec}
    (same : spec.unnamed = (MethodSpec.probe probe).unnamed) :
    ∃ name, spec = .probe { probe with name } := by
  cases spec with
  | probe other =>
    simp only [unnamed, MethodSpec.probe.injEq, ProbeSpec.mk.injEq, true_and] at same
    obtain ⟨wraps, operation, bindings, remote⟩ := same
    refine ⟨other.name, congrArg MethodSpec.probe ?_⟩
    cases other
    simp_all
  | _ => cases same

end MethodSpec

namespace Naming

/-- Candidates with different numbers are different. -/
theorem candidate_injective (base : String) {left right : Nat}
    (same : base ++ toString left = base ++ toString right) : left = right := by
  have digits : toString left = toString right := (String.append_right_inj base).mp same
  exact Nat.repr_inj.mp digits

/-- Numbered names are free when every name from one up to the number before the first candidate
is taken and steps are left for the rest of the taken names. -/
theorem numbered_fresh {taken : List String} {base : String} {fuel number : Nat}
    (passed : ∀ earlier < number, base ++ toString (earlier + 1) ∈ taken)
    (steps : taken.length ≤ number + fuel) :
    numbered taken base fuel (number + 1) ∉ taken := by
  induction fuel generalizing number with
  | zero =>
    intro present
    -- The candidates up to this one are more distinct names than are taken.
    let candidates := (List.range (number + 1)).map fun earlier => base ++ toString (earlier + 1)
    have distinct : candidates.Nodup := by
      refine List.Nodup.map ?_ List.nodup_range
      intro left right same
      have equal := candidate_injective base same
      omega
    have within : candidates ⊆ taken := by
      intro name member
      obtain ⟨earlier, bound, rfl⟩ := List.mem_map.mp member
      rw [List.mem_range] at bound
      by_cases last : earlier = number
      · rw [last]
        exact present
      · exact passed earlier (by omega)
    have count := (List.subperm_of_subset distinct within).length_le
    have size : candidates.length = number + 1 := by
      rw [List.length_map, List.length_range]
    omega
  | succ fuel ih =>
    unfold numbered
    by_cases present : base ++ toString (number + 1) ∈ taken
    · have next : ∀ earlier < number + 1, base ++ toString (earlier + 1) ∈ taken := by
        intro earlier bound
        by_cases last : earlier = number
        · rw [last]
          exact present
        · exact passed earlier (by omega)
      have rest := ih next (by omega)
      simpa only [List.contains_eq_mem, present, decide_true, ↓reduceIte] using rest
    · simpa only [List.contains_eq_mem, present, decide_false, Bool.false_eq_true, ↓reduceIte]
        using present

/-- A claimed name is free. -/
theorem claim_fresh (taken : List String) (base : String) : claim taken base ∉ taken := by
  unfold claim
  by_cases present : base ∈ taken
  · have free : numbered taken base taken.length 1 ∉ taken :=
      numbered_fresh (fun _ bound => absurd bound (Nat.not_lt_zero _)) (by omega)
    simpa only [List.contains_eq_mem, present, decide_true, ↓reduceIte] using free
  · simpa only [List.contains_eq_mem, present, decide_false, Bool.false_eq_true, ↓reduceIte]
      using present

/-- A base that is free is claimed as it is. -/
theorem claim_free {taken : List String} {base : String} (free : base ∉ taken) :
    claim taken base = base := by
  unfold claim
  simp only [List.contains_eq_mem, free, decide_false, Bool.false_eq_true, ↓reduceIte]

/-- The name of the method at a position. -/
def nameOf (specs : List MethodSpec) (position : Nat) : String :=
  (specs[position]?.map MethodSpec.name).getD ""

/-- Names are those of the methods at all positions. -/
theorem names_positions (specs : List MethodSpec) :
    specs.map MethodSpec.name = (List.range specs.length).map (nameOf specs) := by
  apply List.ext_getElem
  · rw [List.length_map, List.length_map, List.length_range]
  · intro position left right
    have bound : position < specs.length := by simpa using left
    simp only [List.getElem_map, List.getElem_range, nameOf, List.getElem?_eq_getElem bound,
      Option.map_some, Option.getD_some]

/-- Of two lists that differ in names the second has at each position the method of the first. -/
theorem exists_unnamed {specs others : List MethodSpec}
    (same : others.map MethodSpec.unnamed = specs.map MethodSpec.unnamed) {position : Nat}
    {spec : MethodSpec} (found : specs[position]? = some spec) :
    ∃ other, others[position]? = some other ∧ other.unnamed = spec.unnamed := by
  have here := congrArg (fun list => list[position]?) same
  simp only [List.getElem?_map, found, Option.map_some] at here
  exact Option.map_eq_some_iff.mp here

/-- Of two lists that differ in names the second has every method of the first. -/
theorem exists_mem_unnamed {specs others : List MethodSpec}
    (same : others.map MethodSpec.unnamed = specs.map MethodSpec.unnamed) {spec : MethodSpec}
    (member : spec ∈ specs) : ∃ other ∈ others, other.unnamed = spec.unnamed :=
  List.mem_map.mp (same ▸ List.mem_map_of_mem member)

/-- The state of naming after the methods at some positions: methods have changed in nothing but
names, and the taken names are those of the named methods, each taken once. -/
structure Kept (specs : List MethodSpec) (done : List Nat) (state : Named) : Prop where
  same : state.1.map MethodSpec.unnamed = specs.map MethodSpec.unnamed
  taken : state.2 = done.map (nameOf state.1)
  distinct : state.2.Nodup

/-- Naming keeps the number of methods. -/
theorem Kept.length {specs : List MethodSpec} {done : List Nat} {state : Named}
    (kept : Kept specs done state) : state.1.length = specs.length := by
  simpa only [List.length_map] using congrArg List.length kept.same

/-- Naming keeps which methods are probes. -/
theorem Kept.isProbe {specs : List MethodSpec} {done : List Nat} {state : Named}
    (kept : Kept specs done state) (position : Nat) :
    state.1[position]?.map MethodSpec.isProbe = specs[position]?.map MethodSpec.isProbe := by
  have plain := congrArg (fun list => (list[position]?).map MethodSpec.isProbe) kept.same
  simpa only [List.getElem?_map, Option.map_map, Function.comp_def, MethodSpec.isProbe_unnamed]
    using plain

/-- Before any naming no name is taken. -/
theorem kept_start (specs : List MethodSpec) : Kept specs [] (specs, []) :=
  ⟨rfl, rfl, List.nodup_nil⟩

/-- Naming a method changes the name at its position. -/
theorem nameOf_modify_same {specs : List MethodSpec} {position : Nat} (name : String)
    (bound : position < specs.length) :
    nameOf (specs.modify position (·.named name)) position = name := by
  simp only [nameOf, List.getElem?_modify_eq, List.getElem?_eq_getElem bound, Option.map_eq_map,
    Option.map_some, MethodSpec.name_named, Option.getD_some]

/-- Naming a method keeps the names at other positions. -/
theorem nameOf_modify_other {specs : List MethodSpec} {position other : Nat} (name : String)
    (apart : other ≠ position) :
    nameOf (specs.modify position (·.named name)) other = nameOf specs other := by
  simp only [nameOf, List.getElem?_modify_ne _ _ apart.symm]

/-- Naming a method changes nothing but names. -/
theorem unnamed_modify (specs : List MethodSpec) (position : Nat) (name : String) :
    (specs.modify position (·.named name)).map MethodSpec.unnamed =
      specs.map MethodSpec.unnamed := by
  apply List.ext_getElem?
  intro place
  by_cases here : position = place
  · rw [here]
    cases found : specs[place]? <;>
      simp only [List.getElem?_map, List.getElem?_modify_eq, found, Option.map_eq_map,
        Option.map_some, Option.map_none, MethodSpec.unnamed_named]
  · simp only [List.getElem?_map, List.getElem?_modify_ne _ _ here]

/-- Naming one more method keeps the state of naming. -/
theorem nameAt_kept {specs : List MethodSpec} {done : List Nat} {state : Named}
    (kept : Kept specs done state) {position : Nat} (bound : position < specs.length)
    (apart : position ∉ done) (base : String) :
    Kept specs (position :: done) (nameAt state position base) := by
  have within : position < state.1.length := kept.length.symm ▸ bound
  refine ⟨?_, ?_, ?_⟩
  · exact (unnamed_modify _ _ _).trans kept.same
  · have earlier : done.map (nameOf (state.1.modify position (·.named (claim state.2 base)))) =
        done.map (nameOf state.1) := by
      apply List.map_congr_left
      intro other member
      apply nameOf_modify_other
      intro equal
      exact apart (equal ▸ member)
    rw [List.map_cons]
    unfold nameAt
    rw [earlier, ← kept.taken, nameOf_modify_same _ within]
  · exact List.nodup_cons.mpr ⟨claim_fresh state.2 base, kept.distinct⟩

/-- Naming methods one after another keeps the state of naming. -/
theorem foldl_kept {α : Type} {specs : List MethodSpec} (position : α → Nat) (chosen : α → Bool)
    (base : Named → α → String) {step : Named → α → Named}
    (steps : ∀ state item, step state item =
      if chosen item then nameAt state (position item) (base state item) else state)
    {items : List α} {done : List Nat} {state : Named} (kept : Kept specs done state)
    (bound : ∀ item ∈ items, position item < specs.length)
    (fresh : ((items.filter chosen).map position ++ done).Nodup) :
    Kept specs (((items.filter chosen).map position).reverse ++ done)
      (items.foldl step state) := by
  induction items generalizing done state with
  | nil => exact kept
  | cons item items ih =>
    have later : ∀ item ∈ items, position item < specs.length :=
      fun item member => bound item (List.mem_cons_of_mem _ member)
    rw [List.foldl_cons, steps]
    by_cases now : chosen item
    · rw [List.filter_cons_of_pos now, List.map_cons, List.cons_append] at fresh
      obtain ⟨apart, rest⟩ := List.nodup_cons.mp fresh
      have apartDone : position item ∉ done :=
        fun member => apart (List.mem_append_right _ member)
      have next := nameAt_kept kept (bound item List.mem_cons_self) apartDone (base state item)
      have shuffled : ((items.filter chosen).map position ++ position item :: done).Nodup :=
        (List.perm_middle.nodup_iff).mpr fresh
      rw [if_pos now, List.filter_cons_of_pos now, List.map_cons, List.reverse_cons,
        List.append_assoc, List.singleton_append]
      exact ih next later shuffled
    · rw [List.filter_cons_of_neg now] at fresh
      rw [if_neg now, List.filter_cons_of_neg now]
      exact ih kept later fresh

/-- A method is listed with a position when it stands there. -/
theorem mem_positioned {specs : List MethodSpec} {position : Nat} {spec : MethodSpec} :
    (position, spec) ∈ positioned specs ↔ specs[position]? = some spec := by
  unfold positioned
  constructor
  · intro member
    obtain ⟨place, found⟩ := List.mem_iff_getElem?.mp member
    obtain ⟨index, here⟩ := List.getElem?_zip_eq_some.mp found
    obtain ⟨bound, equal⟩ := List.getElem?_eq_some_iff.mp index
    rw [List.getElem_range] at equal
    change place = position at equal
    rw [← equal]
    exact here
  · intro here
    obtain ⟨bound, _⟩ := List.getElem?_eq_some_iff.mp here
    refine List.mem_iff_getElem?.mpr ⟨position, List.getElem?_zip_eq_some.mpr ⟨?_, here⟩⟩
    exact List.getElem?_range bound

/-- Every position is listed once. -/
theorem positioned_positions (specs : List MethodSpec) :
    (positioned specs).map Prod.fst = List.range specs.length :=
  List.map_fst_zip (Nat.le_of_eq List.length_range)

/-- Methods are listed with positions below their number. -/
theorem positioned_bound {specs : List MethodSpec} {item : Nat × MethodSpec}
    (member : item ∈ positioned specs) : item.1 < specs.length :=
  (List.getElem?_eq_some_iff.mp (mem_positioned.mp member)).1

/-- Reads, writes and saves with their positions in the order in which they are named. -/
abbrev primary (specs : List MethodSpec) : List (Nat × MethodSpec) :=
  ((positioned specs).filter (!·.2.isProbe)).mergeSort namedBefore

/-- Probes with their positions. -/
abbrev probes (specs : List MethodSpec) : List (Nat × MethodSpec) :=
  (positioned specs).filter (·.2.isProbe)

/-- The positions of some of the methods are distinct. -/
theorem positions_nodup (specs : List MethodSpec) (chosen : Nat × MethodSpec → Bool) :
    (((positioned specs).filter chosen).map Prod.fst).Nodup := by
  have all : ((positioned specs).map Prod.fst).Nodup := by
    rw [positioned_positions]
    exact List.nodup_range
  exact all.sublist (List.filter_sublist.map Prod.fst)

/-- Reads, writes and saves are named before probes. -/
theorem mem_primary_positions {specs : List MethodSpec} {position : Nat} :
    position ∈ (primary specs).map Prod.fst ↔
      specs[position]?.map MethodSpec.isProbe = some false := by
  simp only [List.mem_map, (List.mergeSort_perm _ _).mem_iff, List.mem_filter, Prod.exists,
    mem_positioned, Bool.not_eq_eq_eq_not, Bool.not_true, exists_and_right, exists_eq_right,
    Option.map_eq_some_iff]

/-- Probes are named last. -/
theorem mem_probes_positions {specs : List MethodSpec} {position : Nat} :
    position ∈ (probes specs).map Prod.fst ↔
      specs[position]?.map MethodSpec.isProbe = some true := by
  simp only [List.mem_map, List.mem_filter, Prod.exists, mem_positioned, exists_and_right,
    exists_eq_right, Option.map_eq_some_iff]

/-- Naming reads, writes and saves keeps the state of naming. -/
theorem namePrimary_kept (config : Config) (specs : List MethodSpec) :
    Kept specs ((primary specs).map Prod.fst).reverse (namePrimary config specs) := by
  have order : (primary specs).Perm ((positioned specs).filter (!·.2.isProbe)) :=
    List.mergeSort_perm _ _
  have every : (primary specs).filter (fun _ => true) = primary specs :=
    List.filter_eq_self.mpr fun _ _ => rfl
  have fresh : (((primary specs).filter fun _ => true).map Prod.fst ++ []).Nodup := by
    rw [every, List.append_nil]
    exact ((order.map Prod.fst).nodup_iff).mpr (positions_nodup specs _)
  have bound : ∀ item ∈ primary specs, item.1 < specs.length :=
    fun item member => positioned_bound (List.mem_of_mem_filter (order.mem_iff.mp member))
  have kept := foldl_kept Prod.fst (fun _ => true)
    (fun _ item => if item.2.isSave then config.saveName else item.2.baseName)
    (fun _ _ => rfl) (kept_start specs) bound fresh
  rw [every, List.append_nil] at kept
  exact kept

/-- Reads, writes and saves that stand in the order of naming are named as they stand. -/
theorem namePrimary_ordered (config : Config) {specs : List MethodSpec}
    (ordered : ((positioned specs).filter (!·.2.isProbe)).Pairwise fun left right =>
      namedBefore left right = true) :
    namePrimary config specs = ((positioned specs).filter (!·.2.isProbe)).foldl
      (fun state item => nameAt state item.1
        (if item.2.isSave then config.saveName else item.2.baseName)) (specs, []) := by
  unfold namePrimary
  rw [List.mergeSort_of_pairwise ordered]

/-- The base after which a probe is named. -/
def probeBase (config : Config) (state : Named) : MethodSpec → String
  | .probe probe =>
    config.probePrefix ++ (state.1[probe.wraps]?.map MethodSpec.name).getD ""
  | _ => ""

/-- Naming probes keeps the state of naming. -/
theorem nameProbes_kept (config : Config) {specs : List MethodSpec} {done : List Nat}
    {state : Named} (kept : Kept specs done state)
    (fresh : ((probes state.1).map Prod.fst ++ done).Nodup) :
    Kept specs (((probes state.1).map Prod.fst).reverse ++ done) (nameProbes config state) := by
  refine foldl_kept Prod.fst (·.2.isProbe) (fun state item => probeBase config state item.2) ?_
    kept ?_ fresh
  · intro state item
    obtain ⟨position, spec⟩ := item
    cases spec <;> rfl
  · intro item member
    rw [← kept.length]
    exact positioned_bound member

/-- Naming saves that report denial keeps every name. -/
theorem nameAttempts_names (config : Config) (taken : List String) (specs : List MethodSpec) :
    (nameAttempts config taken specs).map MethodSpec.name = specs.map MethodSpec.name := by
  fun_induction nameAttempts config taken specs with
  | case1 => rfl
  | case2 taken spec specs gated name ih =>
    rw [List.map_cons, List.map_cons, ih]
    rfl
  | case3 taken spec specs gated ih => rw [List.map_cons, List.map_cons, ih]
  | case4 taken spec specs other ih => rw [List.map_cons, List.map_cons, ih]

/-- Naming saves that report denial changes nothing but names. -/
theorem nameAttempts_unnamed (config : Config) (taken : List String) (specs : List MethodSpec) :
    (nameAttempts config taken specs).map MethodSpec.unnamed = specs.map MethodSpec.unnamed := by
  fun_induction nameAttempts config taken specs with
  | case1 => rfl
  | case2 taken spec specs gated name ih =>
    rw [List.map_cons, List.map_cons, ih]
    rfl
  | case3 taken spec specs gated ih => rw [List.map_cons, List.map_cons, ih]
  | case4 taken spec specs other ih => rw [List.map_cons, List.map_cons, ih]

/-- The positions of methods in the order in which they are named, the last one first. -/
def namedPositions (config : Config) (specs : List MethodSpec) : List Nat :=
  ((probes (namePrimary config specs).1).map Prod.fst).reverse ++
    ((primary specs).map Prod.fst).reverse

/-- The probes that are named behind reads, writes and saves are those of the list. -/
theorem mem_later_probes {config : Config} {specs : List MethodSpec} {position : Nat} :
    position ∈ (probes (namePrimary config specs).1).map Prod.fst ↔
      specs[position]?.map MethodSpec.isProbe = some true := by
  rw [mem_probes_positions, (namePrimary_kept config specs).isProbe]

/-- No method is named twice. -/
theorem namedPositions_nodup (config : Config) (specs : List MethodSpec) :
    ((probes (namePrimary config specs).1).map Prod.fst ++
      ((primary specs).map Prod.fst).reverse).Nodup := by
  have primaryNodup : ((primary specs).map Prod.fst).Nodup :=
    (((List.mergeSort_perm _ _).map Prod.fst).nodup_iff).mpr (positions_nodup specs _)
  refine List.nodup_append.mpr ⟨positions_nodup _ _, List.nodup_reverse.mpr primaryNodup, ?_⟩
  intro position probe other named equal
  rw [← equal, List.mem_reverse, mem_primary_positions] at named
  rw [mem_later_probes, named] at probe
  cases probe

/-- Every method is named once. -/
theorem namedPositions_perm (config : Config) (specs : List MethodSpec) :
    (namedPositions config specs).Perm (List.range specs.length) := by
  have complete : (namedPositions config specs).Nodup :=
    (((List.reverse_perm _).append_right _).nodup_iff).mpr (namedPositions_nodup config specs)
  rw [List.perm_ext_iff_of_nodup complete List.nodup_range]
  intro position
  rw [namedPositions, List.mem_append, List.mem_reverse, List.mem_reverse, mem_primary_positions,
    mem_later_probes, List.mem_range]
  constructor
  · intro present
    by_cases bound : position < specs.length
    · exact bound
    · rw [List.getElem?_eq_none (Nat.le_of_not_lt bound)] at present
      cases present <;> contradiction
  · intro bound
    rw [List.getElem?_eq_getElem bound, Option.map_some]
    cases specs[position].isProbe
    · exact Or.inr rfl
    · exact Or.inl rfl

/-- When probes are named behind the other methods, every method is named. -/
theorem named_kept (config : Config) (specs : List MethodSpec) :
    Kept specs (namedPositions config specs) (nameProbes config (namePrimary config specs)) :=
  nameProbes_kept config (namePrimary_kept config specs) (namedPositions_nodup config specs)

/-- Naming changes nothing but names. -/
theorem resolve_unnamed (config : Config) (specs : List MethodSpec) :
    (resolve config specs).map MethodSpec.unnamed = specs.map MethodSpec.unnamed :=
  (nameAttempts_unnamed config _ _).trans (named_kept config specs).same

/-- Methods of a factory have distinct names. -/
theorem resolve_names_nodup (config : Config) (specs : List MethodSpec) :
    ((resolve config specs).map MethodSpec.name).Nodup := by
  have kept := named_kept config specs
  unfold resolve
  rw [nameAttempts_names, names_positions, kept.length]
  have taken := kept.distinct
  rw [kept.taken] at taken
  exact (((namedPositions_perm config specs).map _).nodup_iff).mp taken

end Naming

end DomainFactory
