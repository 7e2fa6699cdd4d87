import DomainFactory.Proofs.Aggregation
import DomainFactory.Proofs.Numbering

/-!
# Names of synthesized methods

Resolving names claims a name for every synthesized method, and a second one for every gated save.
Each of the three passes claims names for bases that can be told from the final names: a probe only
asks about methods that an earlier pass named, and no later pass names those again.
-/
namespace DomainFactory

namespace MethodSpec

/-- Naming a method keeps the name under which it reports denial. -/
@[simp] theorem tryName_named (name : String) (spec : MethodSpec) :
    (spec.named name).tryName? = spec.tryName? := by
  cases spec <;> rfl

/-- A method with an operation is no probe. -/
theorem isProbe_of_bound {spec : MethodSpec} {bound : BoundOperation}
    (has : spec.bound? = some bound) : spec.isProbe = false := by
  cases spec with
  | probe probe => cases has
  | _ => rfl

end MethodSpec

namespace Naming

/-- Naming methods one after another, each for a base that nothing before it changes, claims a name
for each of these bases. -/
theorem foldl_taken {α : Type} (position : α → Nat) (chosen : α → Bool) (base : α → String)
    (keeps : Named → Prop) {step : Named → α → Named} {items : List α}
    (steps : ∀ item ∈ items, ∀ state, keeps state →
      step state item = if chosen item then nameAt state (position item) (base item) else state)
    (stays : ∀ item ∈ items, chosen item = true → ∀ state, keeps state → ∀ asked,
      keeps (nameAt state (position item) asked))
    {state : Named} (start : keeps state) :
    (items.foldl step state).2 =
        (claimAll state.2 ((items.filter chosen).map base)).reverse ++ state.2 ∧
      keeps (items.foldl step state) := by
  induction items generalizing state with
  | nil => exact ⟨rfl, start⟩
  | cons item items ih =>
    have laterSteps := fun other member => steps other (List.mem_cons_of_mem item member)
    have laterStays := fun other member => stays other (List.mem_cons_of_mem item member)
    rw [List.foldl_cons, steps item List.mem_cons_self state start]
    by_cases now : chosen item
    · rw [if_pos now, List.filter_cons_of_pos now, List.map_cons]
      obtain ⟨taken, kept⟩ :=
        ih laterSteps laterStays (stays item List.mem_cons_self now state start (base item))
      refine ⟨?_, kept⟩
      rw [taken]
      simp only [nameAt, claimAll, List.reverse_cons, List.append_assoc, List.singleton_append]
    · rw [if_neg now, List.filter_cons_of_neg now]
      exact ih laterSteps laterStays start

/-- What naming keeps: the names under which saves report denial, and the names at some
positions. -/
structure Keeps (start : Named) (fixed : Nat → Prop) (state : Named) : Prop where
  attempts : state.1.map MethodSpec.tryName? = start.1.map MethodSpec.tryName?
  names : ∀ position, fixed position → nameOf state.1 position = nameOf start.1 position

/-- Naming a method keeps what is said of other positions. -/
theorem Keeps.nameAt {start state : Named} {fixed : Nat → Prop} (keeps : Keeps start fixed state)
    {position : Nat} (free : ¬ fixed position) (base : String) :
    Keeps start fixed (Naming.nameAt state position base) := by
  refine ⟨?_, ?_⟩
  · rw [← keeps.attempts]
    apply List.ext_getElem?
    intro place
    unfold Naming.nameAt
    by_cases here : position = place
    · rw [here]
      cases found : state.1[place]? <;>
        simp only [List.getElem?_map, List.getElem?_modify_eq, found, Option.map_eq_map,
          Option.map_some, Option.map_none, MethodSpec.tryName_named]
    · simp only [List.getElem?_map, List.getElem?_modify_ne _ _ here]
  · intro other isFixed
    have apart : other ≠ position := by
      rintro rfl
      exact free isFixed
    exact (nameOf_modify_other _ apart).trans (keeps.names other isFixed)

/-- The base of a method that is no probe. -/
def primaryBase (config : Config) (spec : MethodSpec) : String :=
  if spec.isSave then config.saveName else spec.baseName

/-- Whether every probe asks about a method with its operation. -/
def WrapsMethods (specs : List MethodSpec) : Prop :=
  ∀ probe, .probe probe ∈ specs → ∃ spec bound, specs[probe.wraps]? = some spec ∧
    spec.bound? = some bound ∧ bound.operation = probe.operation

/-- What a probe asks about is no probe. -/
theorem WrapsMethods.isProbe {specs : List MethodSpec} (wraps : WrapsMethods specs)
    {probe : ProbeSpec} (member : .probe probe ∈ specs) :
    specs[probe.wraps]?.map MethodSpec.isProbe = some false := by
  obtain ⟨spec, bound, found, has, _⟩ := wraps probe member
  rw [found, Option.map_some, MethodSpec.isProbe_of_bound has]

/-- Which methods probes ask about has nothing to do with names. -/
theorem WrapsMethods.of_unnamed {specs others : List MethodSpec} (wraps : WrapsMethods specs)
    (same : others.map MethodSpec.unnamed = specs.map MethodSpec.unnamed) :
    WrapsMethods others := by
  intro probe member
  obtain ⟨position, found⟩ := List.mem_iff_getElem?.mp member
  obtain ⟨spec, there, plain⟩ := exists_unnamed same.symm found
  obtain ⟨name, rfl⟩ := MethodSpec.probe_of_unnamed plain
  obtain ⟨method, bound, placed, has, operation⟩ := wraps _ (List.mem_of_getElem? there)
  obtain ⟨other, otherPlaced, otherPlain⟩ := exists_unnamed same placed
  refine ⟨other, bound, otherPlaced, ?_, operation⟩
  rw [← MethodSpec.bound_unnamed, otherPlain, MethodSpec.bound_unnamed, has]

/-- The names of reads, writes and saves are claimed for their bases, and nothing else changes. -/
theorem namePrimary_taken (config : Config) (specs : List MethodSpec) :
    (namePrimary config specs).2 =
        (claimAll [] ((primary specs).map (primaryBase config ·.2))).reverse ∧
      (namePrimary config specs).1.map MethodSpec.tryName? = specs.map MethodSpec.tryName? := by
  have every : (primary specs).filter (fun _ => true) = primary specs :=
    List.filter_eq_self.mpr fun _ _ => rfl
  have named : (namePrimary config specs).2 = (claimAll []
        (((primary specs).filter fun _ => true).map (primaryBase config ·.2))).reverse ++ [] ∧
      Keeps (specs, []) (fun _ => False) (namePrimary config specs) :=
    foldl_taken Prod.fst (fun _ => true) (primaryBase config ·.2)
      (Keeps (specs, []) fun _ => False) (fun _ _ _ _ => rfl)
      (fun _ _ _ _ keeps asked => keeps.nameAt id asked) ⟨rfl, fun _ none => none.elim⟩
  rw [every, List.append_nil] at named
  exact ⟨named.1, named.2.attempts⟩

/-- The names of probes are claimed for the names of the methods they ask about, and nothing else
changes. -/
theorem nameProbes_taken (config : Config) {state : Named} (wraps : WrapsMethods state.1) :
    (nameProbes config state).2 =
        (claimAll state.2 ((probes state.1).map (probeBase config state ·.2))).reverse ++
          state.2 ∧
      Keeps state (fun position => state.1[position]?.map MethodSpec.isProbe = some false)
        (nameProbes config state) := by
  refine foldl_taken Prod.fst (·.2.isProbe) (probeBase config state ·.2)
    (Keeps state fun position => state.1[position]?.map MethodSpec.isProbe = some false)
    ?_ ?_ ⟨rfl, fun _ _ => rfl⟩
  · rintro ⟨position, spec⟩ member current keeps
    cases spec with
    | probe probe =>
      have here := List.mem_of_getElem? (mem_positioned.mp member)
      have wrapped := keeps.names _ (wraps.isProbe here)
      simp only [nameOf] at wrapped
      simp only [MethodSpec.isProbe, probeBase, wrapped, ↓reduceIte]
    | read name bound => rfl
    | write name bound => rfl
    | save save => rfl
  · rintro ⟨position, spec⟩ member probe current keeps asked
    refine keeps.nameAt ?_ asked
    intro isFixed
    rw [mem_positioned.mp member, Option.map_some, probe] at isFixed
    cases isFixed

/-- The base of the name under which a method reports denial. -/
def attemptBase (config : Config) (spec : MethodSpec) : String :=
  config.tryPrefix ++ spec.name

/-- Names under which saves report denial are claimed for their names. -/
theorem nameAttempts_taken (config : Config) (taken : List String) {specs : List MethodSpec}
    (bare : ∀ spec ∈ specs, spec.tryName? = none) :
    (nameAttempts config taken specs).filterMap MethodSpec.tryName? =
      claimAll taken (((nameAttempts config taken specs).filter (·.tryName?.isSome)).map
        (attemptBase config)) := by
  fun_induction nameAttempts config taken specs with
  | case1 => rfl
  | case2 taken save specs gated name ih =>
    have rest := ih fun spec member => bare spec (List.mem_cons_of_mem _ member)
    simp only [List.filterMap_cons, MethodSpec.tryName?, List.filter_cons, Option.isSome_some,
      ↓reduceIte, List.map_cons, attemptBase, MethodSpec.name, claimAll]
    exact congrArg (_ :: ·) rest
  | case3 taken save specs gated ih =>
    have rest := ih fun spec member => bare spec (List.mem_cons_of_mem _ member)
    have none := bare _ List.mem_cons_self
    rw [List.filterMap_cons_none none, List.filter_cons_of_neg (by simp only [none]; decide)]
    exact rest
  | case4 taken spec specs other ih =>
    have rest := ih fun spec member => bare spec (List.mem_cons_of_mem _ member)
    have none := bare _ List.mem_cons_self
    rw [List.filterMap_cons_none none, List.filter_cons_of_neg (by simp only [none]; decide)]
    exact rest

/-- Exactly the gated saves get a name under which they report denial. -/
theorem nameAttempts_gated (config : Config) (taken : List String) {specs : List MethodSpec}
    (bare : ∀ spec ∈ specs, spec.tryName? = none) {save : SaveSpec}
    (member : .save save ∈ nameAttempts config taken specs) :
    save.tryName.isSome = save.gated := by
  fun_induction nameAttempts config taken specs with
  | case1 => cases member
  | case2 taken first specs gated name ih =>
    rcases List.mem_cons.mp member with same | later
    · cases same
      exact gated.symm
    · exact ih (fun spec member => bare spec (List.mem_cons_of_mem _ member)) later
  | case3 taken first specs gated ih =>
    rcases List.mem_cons.mp member with same | later
    · cases same
      have none : save.tryName = none := bare _ List.mem_cons_self
      rw [none, Bool.eq_false_iff.mpr gated]
      rfl
    · exact ih (fun spec member => bare spec (List.mem_cons_of_mem _ member)) later
  | case4 taken first specs other ih =>
    rcases List.mem_cons.mp member with same | later
    · exact absurd same.symm (other save)
    · exact ih (fun spec member => bare spec (List.mem_cons_of_mem _ member)) later

/-- The base of a method that is no probe depends on nothing but the method. -/
theorem wanted_primary {config : Config} {specs : List MethodSpec} {spec other : MethodSpec}
    (same : other.unnamed = spec.unnamed) (primary : spec.isProbe = false) :
    wanted config specs other = primaryBase config spec := by
  have bounds : other.bound? = spec.bound? := by
    rw [← MethodSpec.bound_unnamed, same, MethodSpec.bound_unnamed]
  cases spec with
  | read name bound =>
    cases other with
    | read other bound => cases bounds; rfl
    | _ => cases same
  | write name bound =>
    cases other with
    | write other bound => cases bounds; rfl
    | _ => cases same
  | save spec =>
    cases other with
    | save other => rfl
    | _ => cases same
  | probe probe => cases primary

section Slots

variable (config : Config) (specs : List MethodSpec)

/-- The slots of the own names of methods, in the order in which they are filled. -/
def ownSlots : List NameSlot :=
  (namedPositions config specs).reverse.map NameSlot.own

/-- The bases for which the own names of methods are claimed. -/
def ownBases : List String :=
  (primary specs).map (primaryBase config ·.2) ++
    (probes (namePrimary config specs).1).map (probeBase config (namePrimary config specs) ·.2)

/-- The slots of the names under which saves report denial. -/
def attemptSlots (named : List MethodSpec) : List NameSlot :=
  ((positioned named).filter (·.2.tryName?.isSome)).map (NameSlot.attempt ·.1)

/-- The bases for which the names under which saves report denial are claimed. -/
def attemptBases (named : List MethodSpec) : List String :=
  (named.filter (·.tryName?.isSome)).map (attemptBase config)

/-- Methods are named in the order in which the passes name them. -/
theorem namedPositions_reverse : (namedPositions config specs).reverse =
    (primary specs).map Prod.fst ++ (probes (namePrimary config specs).1).map Prod.fst := by
  simp only [namedPositions, List.reverse_append, List.reverse_reverse]

/-- Own names are final when probes are named. -/
theorem nameOf_resolve : nameOf (resolve config specs) =
    nameOf (nameProbes config (namePrimary config specs)).1 := by
  funext position
  unfold nameOf resolve
  rw [← List.getElem?_map, ← List.getElem?_map, nameAttempts_names]

/-- Choosing among methods with their positions chooses the same methods. -/
theorem positioned_filter (chosen : MethodSpec → Bool) :
    ((positioned specs).filter (chosen ·.2)).map Prod.snd = specs.filter chosen := by
  have methods : (positioned specs).map Prod.snd = specs :=
    List.map_snd_zip (Nat.le_of_eq List.length_range.symm)
  conv_rhs => rw [← methods, List.filter_map]
  rfl

variable {config specs}

/-- The names taken by methods are claimed for their bases. -/
theorem nameProbes_claims (wraps : WrapsMethods specs) :
    (nameProbes config (namePrimary config specs)).2 =
      (claimAll [] (ownBases config specs)).reverse := by
  have first := (namePrimary_taken config specs).1
  have later := (nameProbes_taken config
    (wraps.of_unnamed (namePrimary_kept config specs).same)).1
  rw [later, first, ownBases, claimAll_append, List.append_nil, List.reverse_append]

/-- Methods have the names that are claimed for them. -/
theorem ownSlots_named (wraps : WrapsMethods specs) :
    (ownSlots config specs).map (NameSlot.name? (resolve config specs)) =
      (claimAll [] (ownBases config specs)).map some := by
  have taken : claimAll [] (ownBases config specs) =
      (namedPositions config specs).reverse.map (nameOf (resolve config specs)) := by
    have claims : (nameProbes config (namePrimary config specs)).2 =
        (claimAll [] (ownBases config specs)).reverse := nameProbes_claims wraps
    rw [(named_kept config specs).taken] at claims
    rw [nameOf_resolve, List.map_reverse, claims, List.reverse_reverse]
  rw [taken, ownSlots, List.map_map, List.map_map]
  apply List.map_congr_left
  intro position member
  have bound : position < specs.length :=
    List.mem_range.mp ((namedPositions_perm config specs).mem_iff.mp (List.mem_reverse.mp member))
  obtain ⟨other, found, _⟩ := exists_unnamed (resolve_unnamed config specs)
    (List.getElem?_eq_getElem bound)
  simp only [Function.comp_apply, NameSlot.name?, nameOf, found, Option.map_some, Option.getD_some]

/-- The bases of methods are those for which their names are claimed. -/
theorem ownSlots_based (wraps : WrapsMethods specs) :
    (ownSlots config specs).map (NameSlot.base? config (resolve config specs)) =
      (ownBases config specs).map some := by
  have firstKept := namePrimary_kept config specs
  rw [ownSlots, namedPositions_reverse, ownBases]
  simp only [List.map_append, List.map_map]
  congr 1
  · apply List.map_congr_left
    intro item member
    obtain ⟨among, plain⟩ := List.mem_filter.mp ((List.mergeSort_perm _ _).mem_iff.mp member)
    obtain ⟨other, found, same⟩ := exists_unnamed (resolve_unnamed config specs)
      (mem_positioned.mp among)
    have isPrimary : item.2.isProbe = false := by simpa using plain
    simp only [Function.comp_apply, NameSlot.base?, found, Option.map_some,
      wanted_primary same isPrimary]
  · apply List.map_congr_left
    rintro ⟨position, spec⟩ member
    obtain ⟨among, isProbe⟩ := List.mem_filter.mp member
    cases spec with
    | probe probe =>
      have here := mem_positioned.mp among
      have laterWraps := wraps.of_unnamed firstKept.same
      obtain ⟨other, found, same⟩ := exists_unnamed
        ((resolve_unnamed config specs).trans firstKept.same.symm) here
      obtain ⟨name, rfl⟩ := MethodSpec.probe_of_unnamed same
      -- The method asked about was named in the first pass, and the second one leaves it alone.
      have settled : nameOf (resolve config specs) probe.wraps =
          nameOf (namePrimary config specs).1 probe.wraps := by
        rw [nameOf_resolve]
        exact (nameProbes_taken config laterWraps).2.names _
          (laterWraps.isProbe (List.mem_of_getElem? here))
      simp only [Function.comp_apply, NameSlot.base?, found, Option.map_some, wanted, settled]
      rfl
    | read name bound => cases isProbe
    | write name bound => cases isProbe
    | save save => cases isProbe

/-- Saves have the names under which they report denial. -/
theorem attemptSlots_named (named : List MethodSpec) :
    (attemptSlots named).map (NameSlot.name? named) =
      (named.filterMap MethodSpec.tryName?).map some := by
  have some_of (specs : List MethodSpec) :
      (specs.filter (·.tryName?.isSome)).map MethodSpec.tryName? =
        (specs.filterMap MethodSpec.tryName?).map some := by
    induction specs with
    | nil => rfl
    | cons spec specs ih =>
      cases found : spec.tryName? with
      | none => simp only [List.filter_cons, List.filterMap_cons, found, Option.isSome_none,
          Bool.false_eq_true, ↓reduceIte, ih]
      | some name => simp only [List.filter_cons, List.filterMap_cons, found, Option.isSome_some,
          ↓reduceIte, List.map_cons, ih]
  rw [← some_of, ← positioned_filter, attemptSlots, List.map_map, List.map_map]
  apply List.map_congr_left
  intro item member
  have found := mem_positioned.mp (List.mem_filter.mp member).1
  simp only [Function.comp_apply, NameSlot.name?, found, Option.bind_some]

/-- The bases of saves that report denial are those for which their names are claimed. -/
theorem attemptSlots_based (config : Config) (named : List MethodSpec) :
    (attemptSlots named).map (NameSlot.base? config named) =
      (attemptBases config named).map some := by
  rw [attemptBases, ← positioned_filter, attemptSlots, List.map_map, List.map_map, List.map_map]
  apply List.map_congr_left
  intro item member
  have found := mem_positioned.mp (List.mem_filter.mp member).1
  simp only [Function.comp_apply, NameSlot.base?, found, Option.map_some, attemptBase]

/-- Before saves that report denial are named, no method has a name for that. -/
theorem named_bare (wraps : WrapsMethods specs) (bare : ∀ spec ∈ specs, spec.tryName? = none) :
    ∀ spec ∈ (nameProbes config (namePrimary config specs)).1, spec.tryName? = none := by
  have later := wraps.of_unnamed (namePrimary_kept config specs).same
  have same := (nameProbes_taken config later).2.attempts.trans (namePrimary_taken config specs).2
  intro spec member
  have among := List.mem_map_of_mem (f := MethodSpec.tryName?) member
  rw [same] at among
  obtain ⟨other, present, equal⟩ := List.mem_map.mp among
  rw [← equal, bare other present]

/-- Slots have the names that are claimed for their bases, own names first. -/
theorem slots_named (wraps : WrapsMethods specs)
    (bare : ∀ spec ∈ specs, spec.tryName? = none) :
    (ownSlots config specs ++ attemptSlots (resolve config specs)).map
        (NameSlot.name? (resolve config specs)) =
      (claimAll [] (ownBases config specs ++ attemptBases config (resolve config specs))).map
        some := by
  have given : (resolve config specs).filterMap MethodSpec.tryName? =
      claimAll (claimAll [] (ownBases config specs)).reverse
        (attemptBases config (resolve config specs)) := by
    rw [← nameProbes_claims wraps]
    exact nameAttempts_taken config _ (named_bare wraps bare)
  rw [List.map_append, ownSlots_named wraps, attemptSlots_named, claimAll_append,
    List.map_append, List.append_nil, given]

/-- Every slot that has a name is filled. -/
theorem slots_every (slot : NameSlot) :
    slot ∈ ownSlots config specs ++ attemptSlots (resolve config specs) ↔
      (slot.name? (resolve config specs)).isSome = true := by
  have length : (resolve config specs).length = specs.length := by
    simpa only [List.length_map] using congrArg List.length (resolve_unnamed config specs)
  cases slot with
  | own position =>
    have apart : NameSlot.own position ∉ attemptSlots (resolve config specs) := by
      intro member
      obtain ⟨_, _, other⟩ := List.mem_map.mp member
      cases other
    have named : position ∈ namedPositions config specs ↔ position < specs.length := by
      rw [(namedPositions_perm config specs).mem_iff, List.mem_range]
    simp only [List.mem_append, apart, or_false, ownSlots, List.mem_map, List.mem_reverse, named,
      NameSlot.own.injEq, exists_eq_right, NameSlot.name?, Option.isSome_map, isSome_getElem?,
      length]
  | attempt position =>
    have apart : NameSlot.attempt position ∉ ownSlots config specs := by
      intro member
      obtain ⟨_, _, other⟩ := List.mem_map.mp member
      cases other
    simp only [List.mem_append, apart, false_or, attemptSlots, List.mem_map, List.mem_filter,
      Prod.exists, mem_positioned, NameSlot.attempt.injEq, NameSlot.name?]
    constructor
    · rintro ⟨_, spec, ⟨found, named⟩, rfl⟩
      rw [found]
      exact named
    · intro named
      obtain ⟨name, given⟩ := Option.isSome_iff_exists.mp named
      obtain ⟨spec, found, named⟩ := Option.bind_eq_some_iff.mp given
      exact ⟨position, spec, ⟨found, by rw [named]; rfl⟩, rfl⟩

/-- The rank of a slot has nothing to do with names. -/
theorem rank_own {others : List MethodSpec}
    (same : others.map MethodSpec.unnamed = specs.map MethodSpec.unnamed) {position : Nat}
    {spec : MethodSpec} (found : specs[position]? = some spec) :
    (NameSlot.own position).rank others = spec.rank position := by
  obtain ⟨other, there, plain⟩ := exists_unnamed same found
  simp only [NameSlot.rank, there, Option.map_some, Option.getD_some]
  rw [← MethodSpec.rank_unnamed, plain, MethodSpec.rank_unnamed]

/-- Slots are filled in the order of their ranks. -/
theorem slots_ascending :
    (ownSlots config specs ++ attemptSlots (resolve config specs)).Pairwise fun left right =>
      left.rank (resolve config specs) < right.rank (resolve config specs) := by
  have same := resolve_unnamed config specs
  have firstKept := (namePrimary_kept config specs).same
  have primaryRank : ∀ item ∈ primary specs,
      (NameSlot.own item.1).rank (resolve config specs) = item.2.rank item.1 ∧
        ∃ rest, item.2.rank item.1 = 0 :: rest := by
    intro item member
    obtain ⟨among, plain⟩ := List.mem_filter.mp ((List.mergeSort_perm _ _).mem_iff.mp member)
    exact ⟨rank_own same (mem_positioned.mp among), _, MethodSpec.rank_primary plain item.1⟩
  have probeRank : ∀ item ∈ probes (namePrimary config specs).1,
      (NameSlot.own item.1).rank (resolve config specs) = [1, item.1] := by
    intro item member
    obtain ⟨among, isProbe⟩ := List.mem_filter.mp member
    rw [rank_own (same.trans firstKept.symm) (mem_positioned.mp among), MethodSpec.rank,
      if_pos isProbe]
  have behind {pass left right : Nat} (less : left < right) : [pass, left] < [pass, right] :=
    List.cons_lt_cons_iff.mpr (Or.inr ⟨rfl, List.cons_lt_cons_iff.mpr (Or.inl less)⟩)
  rw [ownSlots, namedPositions_reverse, List.map_append, List.map_map, List.map_map]
  refine List.pairwise_append.mpr ⟨List.pairwise_append.mpr ⟨?_, ?_, ?_⟩, ?_, ?_⟩
  · refine List.pairwise_map.mpr ((primary_ascending specs).imp_of_mem ?_)
    intro left right leftMember rightMember less
    simp only [Function.comp_apply, (primaryRank left leftMember).1,
      (primaryRank right rightMember).1]
    exact less
  · refine List.pairwise_map.mpr ((positioned_ascending _ _).imp_of_mem ?_)
    intro left right leftMember rightMember less
    simp only [Function.comp_apply, probeRank left leftMember, probeRank right rightMember]
    exact behind less
  · intro left leftMember right rightMember
    obtain ⟨first, among, rfl⟩ := List.mem_map.mp leftMember
    obtain ⟨second, amongProbes, rfl⟩ := List.mem_map.mp rightMember
    obtain ⟨firstRank, _, isPrimary⟩ := primaryRank first among
    simp only [Function.comp_apply, firstRank, isPrimary, probeRank second amongProbes]
    exact List.cons_lt_cons_iff.mpr (Or.inl Nat.zero_lt_one)
  · exact List.pairwise_map.mpr ((positioned_ascending _ _).imp behind)
  · intro left leftMember right rightMember
    obtain ⟨item, _, rfl⟩ := List.mem_map.mp rightMember
    rcases List.mem_append.mp leftMember with fromPrimary | fromProbe
    · obtain ⟨first, among, rfl⟩ := List.mem_map.mp fromPrimary
      obtain ⟨firstRank, _, isPrimary⟩ := primaryRank first among
      simp only [Function.comp_apply, firstRank, isPrimary]
      exact List.cons_lt_cons_iff.mpr (Or.inl Nat.zero_lt_two)
    · obtain ⟨second, among, rfl⟩ := List.mem_map.mp fromProbe
      simp only [Function.comp_apply, probeRank second among]
      exact List.cons_lt_cons_iff.mpr (Or.inl Nat.one_lt_two)

end Slots

end Naming

/-- A probe among the methods of a factory asks about a method with its operation. -/
theorem Synthesis.synthesize_wraps (typeName : String) (bounds : List BoundOperation) :
    Naming.WrapsMethods (synthesize typeName bounds).result := by
  intro probe member
  have listed : probe ∈ (synthesize typeName bounds).result.filterMap MethodSpec.probe? :=
    List.mem_filterMap.mpr ⟨_, member, rfl⟩
  rw [synthesize_probes] at listed
  obtain ⟨⟨bound, position⟩, present, made⟩ := List.mem_filterMap.mp listed
  obtain ⟨_, rfl⟩ := probeOf_eq_some.mp made
  have placed := synthesize_bound_at typeName bounds position
  rw [List.mem_zipIdx_iff_getElem?.mp present] at placed
  obtain ⟨spec, found, bounds⟩ := Option.bind_eq_some_iff.mp placed
  exact ⟨spec, bound, found, bounds, rfl⟩

/-- No method of a factory has a name yet under which it reports denial. -/
theorem Synthesis.synthesize_bare (typeName : String) (bounds : List BoundOperation) :
    ∀ spec ∈ (synthesize typeName bounds).result, spec.tryName? = none := by
  intro spec member
  cases spec with
  | save save => exact (synthesize_saves member).1
  | _ => rfl

namespace Naming

/-- What is settled about methods that got their names: they are the given methods in their order,
with all that does not depend on names; all names are distinct; each is claimed in turn, the base
with the smallest number that makes it free; of two methods that are no probes and have one base,
the one in front has the smaller number; a probe is named after the final name of the method it asks
about; and the gated saves are those that have a name under which they report denial. -/
structure Settled (config : Config) (given specs : List MethodSpec) : Prop where
  kept : specs.map MethodSpec.unnamed = given.map MethodSpec.unnamed
  distinct : (specs.map MethodSpec.name ++ specs.filterMap MethodSpec.tryName?).Nodup
  claimed : ∃ slots, ClaimedInOrder config specs slots
  precedence : ∀ {left right : Nat} {first second : MethodSpec},
    specs[left]? = some first → specs[right]? = some second → first.isProbe = false →
    second.isProbe = false → wanted config specs first = wanted config specs second →
    first.rank left < second.rank right → ∃ leftNumber rightNumber,
      first.name = suffixed (wanted config specs first) leftNumber ∧
      second.name = suffixed (wanted config specs second) rightNumber ∧ leftNumber < rightNumber
  probes : ∀ {probe : ProbeSpec}, .probe probe ∈ specs → ∃ wrapped number,
    specs[probe.wraps]? = some wrapped ∧
      wrapped.bound?.map BoundOperation.operation = some probe.operation ∧
      probe.name = suffixed (config.probePrefix ++ wrapped.name) number
  attempts : ∀ {save : SaveSpec}, .save save ∈ specs → save.tryName.isSome = save.gated

/-- Names that are claimed in turn are numbered bases. -/
theorem ClaimedInOrder.suffixed {config : Config} {specs : List MethodSpec} {slots : List NameSlot}
    (ordered : ClaimedInOrder config specs slots) {position : Nat} {spec : MethodSpec}
    (found : specs[position]? = some spec) :
    ∃ number, spec.name = Naming.suffixed (wanted config specs spec) number := by
  have named : (NameSlot.own position).name? specs = some spec.name := by
    rw [NameSlot.name?, found, Option.map_some]
  have based : (NameSlot.own position).base? config specs = some (wanted config specs spec) := by
    rw [NameSlot.base?, found, Option.map_some]
  obtain ⟨_, number, suffix, _⟩ := ordered.claims based named
  exact ⟨number, suffix⟩

/-- Resolving names settles them. -/
theorem resolve_settled (config : Config) {specs : List MethodSpec} (wraps : WrapsMethods specs)
    (bare : ∀ spec ∈ specs, spec.tryName? = none) :
    Settled config specs (resolve config specs) := by
  have ordered : ClaimedInOrder config (resolve config specs)
      (ownSlots config specs ++ attemptSlots (resolve config specs)) := by
    refine claimedInOrder_of_names ?_ (slots_named wraps bare) slots_every slots_ascending
    rw [List.map_append, ownSlots_based wraps, attemptSlots_based, List.map_append]
  refine ⟨resolve_unnamed config specs, ordered.names_nodup, ⟨_, ordered⟩, ?_, ?_, ?_⟩
  · intro left right first second leftFound rightFound _ _ oneBase before
    obtain ⟨leftNumber, leftSuffix⟩ := ordered.suffixed leftFound
    obtain ⟨rightNumber, rightSuffix⟩ := ordered.suffixed rightFound
    refine ⟨leftNumber, rightNumber, leftSuffix, rightSuffix, ?_⟩
    have leftBase : (NameSlot.own left).base? config (resolve config specs) =
        some (wanted config (resolve config specs) first) := by
      rw [NameSlot.base?, leftFound, Option.map_some]
    have rightBase : (NameSlot.own right).base? config (resolve config specs) =
        some (wanted config (resolve config specs) first) := by
      rw [NameSlot.base?, rightFound, Option.map_some, oneBase]
    refine ordered.number_lt leftBase rightBase ?_ ?_ ?_ leftSuffix (oneBase ▸ rightSuffix)
    · rw [NameSlot.name?, leftFound, Option.map_some]
    · rw [NameSlot.name?, rightFound, Option.map_some]
    · simpa only [NameSlot.rank, leftFound, rightFound, Option.map_some, Option.getD_some]
        using before
  · intro probe member
    obtain ⟨wrapped, bound, found, has, operation⟩ :=
      wraps.of_unnamed (resolve_unnamed config specs) probe member
    obtain ⟨position, there⟩ := List.mem_iff_getElem?.mp member
    obtain ⟨number, suffix⟩ := ordered.suffixed there
    refine ⟨wrapped, number, found, by rw [has, Option.map_some, operation], ?_⟩
    rw [wanted, nameOf, found, Option.map_some, Option.getD_some] at suffix
    exact suffix
  · intro save member
    exact nameAttempts_gated config _ (named_bare wraps bare) member

/-- The names of the methods of a factory are settled, whatever operations are bound. -/
theorem resolve_synthesize_settled (config : Config) (typeName : String)
    (bounds : List BoundOperation) :
    Settled config (Synthesis.synthesize typeName bounds).result
      (resolve config (Synthesis.synthesize typeName bounds).result) :=
  resolve_settled config (Synthesis.synthesize_wraps typeName bounds)
    (Synthesis.synthesize_bare typeName bounds)

/-- An operation of a type with some parameters and checks. -/
def sampleBound (kind : Kind) (method : String) (index : Nat) (parameters : List Parameter)
    (bindings : List Binding) : BoundOperation where
  operation := { kind, declaringType := "Person", method, handler := "Person::" ++ method,
                 publicName := method, shape := .value, remote := false, parameters, index }
  bindings

/-- Operations that ask for names which others ask for, or which are those of the save, of its
probe and of the save that reports denial. -/
def sampleClashes : List BoundOperation :=
  [sampleBound .create "create" 0 [] [],
    sampleBound .fetch "create1" 1 [] [],
    sampleBound .fetch "can_save" 2 [] [],
    sampleBound .fetch "try_save1" 3 [] [],
    sampleBound .create "create" 4 [⟨"name", "String", .business⟩] [],
    sampleBound .insert "save" 5 [⟨"target", "Self", .selfReference⟩] [⟨0, []⟩]]

/-- The names of the methods of these operations, and those of the saves that report denial. -/
theorem sampleClashes_settled :
    ((resolve {} (Synthesis.synthesize "Person" sampleClashes).result).map fun spec =>
      (spec.name, spec.tryName?)) =
      [("create", none), ("create1", none), ("can_save", none), ("try_save1", none),
        ("create2", none), ("save", none), ("save1", some "try_save11"), ("can_save1", none)] ∧
    Settled {} (Synthesis.synthesize "Person" sampleClashes).result
      (resolve {} (Synthesis.synthesize "Person" sampleClashes).result) := by
  have ordered : ((positioned (Synthesis.synthesize "Person" sampleClashes).result).filter
      (!·.2.isProbe)).Pairwise fun left right => namedBefore left right = true := by
    decide +kernel
  refine ⟨?_, resolve_synthesize_settled {} "Person" sampleClashes⟩
  simp only [resolve, namePrimary_ordered {} ordered]
  decide +kernel

end Naming

namespace Generation

/-- The names of the methods of a plan are settled. -/
theorem resolved_settled (config : Config) (typeName : String) (found : Findings) :
    Naming.Settled config (Synthesis.synthesize typeName found.bound).result
      (resolved config typeName found) :=
  Naming.resolve_settled config (Synthesis.synthesize_wraps typeName found.bound)
    (Synthesis.synthesize_bare typeName found.bound)

end Generation

end DomainFactory
