import DomainFactory.Proofs.Gating
import DomainFactory.Proofs.Running
import DomainFactory.Signature

/-!
# Markers of methods

An attribute says what its list says: every kind, flag and unknown name in it is recorded. Of
several attributes that mark one method in the same way only the last is recorded, so a marker of an
earlier one is kept only where the last one lists it too. Where one name marks operations and checks
every attribute of that name marks an operation.
-/
namespace DomainFactory

namespace Marker

/-- The kind that a marker names. -/
def kind? (marker : Marker) : Option Kind := Kind.ofMarker? marker.name

/-- The flag that a marker names. -/
def flag? (marker : Marker) : Option Mask := Mask.ofMarker? marker.name

/-- Whether a marker says that the method runs on another side. -/
def isRemote (marker : Marker) : Bool := marker.name == "remote"

/-- The callable that a marker names for an execution. -/
def callable? (marker : Marker) : Option String :=
  if marker.kind? = some .execute && !marker.isBare then marker.string? else none

/-- The name of a marker that means nothing to an operation. -/
def strangeKind? (marker : Marker) : Option String :=
  if marker.isRemote || marker.kind?.isSome then none else some marker.name

/-- The name of a marker that means nothing to a check. -/
def strangeFlag? (marker : Marker) : Option String :=
  if marker.isRemote || marker.flag?.isSome then none else some marker.name

end Marker

namespace Attribute

/-- The markers that an attribute lists. -/
def markers (given : Attribute) : List Marker :=
  match given.input with
  | .list tokens => (Marker.list? tokens).getD []
  | .none | .value => []

/-- The kinds that an attribute lists. -/
def kinds (given : Attribute) : List Kind := given.markers.filterMap Marker.kind?

/-- The flags that an attribute lists. -/
def flags (given : Attribute) : List Mask := given.markers.filterMap Marker.flag?

/-- Whether an attribute lists that the method runs on another side. -/
def isRemote (given : Attribute) : Bool := given.markers.any Marker.isRemote

/-- The callable that an attribute names last. -/
def callable? (given : Attribute) : Option String :=
  (given.markers.filterMap Marker.callable?).getLast?

/-- The names that an attribute lists and that mean nothing to an operation; a bare attribute lists
the empty one. -/
def strangeKinds (given : Attribute) : List String :=
  match given.input with
  | .none => [""]
  | .list _ | .value => given.markers.filterMap Marker.strangeKind?

/-- The names that an attribute lists and that mean nothing to a check. -/
def strangeFlags (given : Attribute) : List String :=
  given.markers.filterMap Marker.strangeFlag?

end Attribute

namespace Mask

/-- Masks meet each other. -/
theorem meets_comm (left right : Mask) : left.meets right = right.meets left := by
  unfold meets
  rw [UInt32.and_comm]

/-- The flags that markers name. -/
def named : List Mask :=
  [ofFamily .read, ofFamily .write] ++ Kind.all.map ofKind

/-- A marker names one of the named flags. -/
theorem mem_named {marker : String} {flag : Mask} (names : ofMarker? marker = some flag) :
    flag ∈ named := by
  unfold ofMarker? at names
  split at names
  · cases names
    decide
  · split at names
    · cases names
      decide
    · obtain ⟨kind, _, rfl⟩ := Option.map_eq_some_iff.mp names
      exact List.mem_append_right _ (List.mem_map_of_mem (Kind.mem_all kind))

/-- Named flags share no bit. -/
theorem named_meets : ∀ left ∈ named, ∀ right ∈ named, left.meets right = true ↔ left = right := by
  decide

/-- A mask of named flags meets a named flag when that is among them. -/
theorem foldl_meets {flags : List Mask} (names : ∀ flag ∈ flags, flag ∈ named) {flag : Mask}
    (name : flag ∈ named) :
    (flags.foldl union empty).meets flag = true ↔ flag ∈ flags := by
  have folded (start : Mask) : flag.meets (flags.foldl union start) =
      (flag.meets start || flags.any flag.meets) := by
    induction flags generalizing start with
    | nil => rw [List.foldl_nil, List.any_nil, Bool.or_false]
    | cons first flags ih =>
      have later := ih (fun other member => names other (List.mem_cons_of_mem _ member))
      rw [List.foldl_cons, later, meets_union, List.any_cons, Bool.or_assoc]
  have nothing : flag.meets empty = false := by
    unfold meets empty
    simp
  rw [meets_comm, folded, nothing, Bool.false_or, List.any_eq_true]
  constructor
  · rintro ⟨other, member, meets⟩
    rw [(named_meets flag name other (names other member)).mp meets]
    exact member
  · intro member
    exact ⟨flag, member, (named_meets flag name flag name).mpr rfl⟩

end Mask

/-- Markers of an operation say what an attribute lists. -/
structure OperationMarkers.Says (markers : OperationMarkers) (given : Attribute) : Prop where
  kinds : markers.kinds = given.kinds
  remote : markers.remote = given.isRemote
  callable : markers.callable = given.callable?
  unknown : markers.unknown = given.strangeKinds

/-- Markers of a check say what an attribute lists. -/
structure CheckMarkers.Says (markers : CheckMarkers) (given : Attribute) : Prop where
  mask : markers.mask = given.flags.foldl Mask.union .empty
  remote : markers.remote = given.isRemote
  unknown : markers.unknown = given.strangeFlags

/-- Markers of an operation keep whatever an attribute lists. -/
structure OperationMarkers.Keeps (markers : OperationMarkers) (given : Attribute) : Prop where
  kinds : given.kinds ⊆ markers.kinds
  remote : given.isRemote = true → markers.remote = true
  unknown : given.strangeKinds ⊆ markers.unknown

/-- Markers of a check keep whatever an attribute lists. -/
structure CheckMarkers.Keeps (markers : CheckMarkers) (given : Attribute) : Prop where
  flags : ∀ flag ∈ given.flags, markers.mask.meets flag = true
  remote : given.isRemote = true → markers.remote = true
  unknown : given.strangeFlags ⊆ markers.unknown

namespace OperationMarkers

/-- What one more marker adds. -/
theorem add_eq_some {markers next : OperationMarkers} {marker : Marker}
    (added : markers.add? marker = some next) :
    next.kinds = markers.kinds ++ marker.kind?.toList ∧
      next.remote = (markers.remote || marker.isRemote) ∧
      next.callable = marker.callable?.or markers.callable ∧
      next.unknown = markers.unknown ++ marker.strangeKind?.toList := by
  unfold add? at added
  cases remote : marker.name == "remote" with
  | true =>
    have named : marker.name = "remote" := beq_iff_eq.mp remote
    have kind : marker.kind? = none := by
      rw [Marker.kind?, named]
      decide
    rw [if_pos remote] at added
    split at added
    · cases added
      simp [Marker.isRemote, Marker.callable?, Marker.strangeKind?, kind, remote]
    · cases added
  | false =>
    rw [remote, if_neg Bool.false_ne_true] at added
    have found : Kind.ofMarker? marker.name = marker.kind? := rfl
    rw [found] at added
    cases kind : marker.kind? with
    | none =>
      rw [kind] at added
      cases added
      simp [Marker.isRemote, Marker.callable?, Marker.strangeKind?, kind, remote]
    | some kinds =>
      rw [kind] at added
      dsimp only at added
      cases bare : marker.isBare with
      | true =>
        rw [if_pos bare] at added
        cases added
        simp [Marker.isRemote, Marker.callable?, Marker.strangeKind?, kind, remote, bare]
      | false =>
        rw [bare, if_neg Bool.false_ne_true] at added
        split at added
        next execute =>
          subst execute
          obtain ⟨callable, named, rfl⟩ := Option.map_eq_some_iff.mp added
          simp [Marker.isRemote, Marker.callable?, Marker.strangeKind?, kind, remote, bare, named]
        next => cases added

/-- What a list of markers adds, one after another. -/
theorem foldlM_add {list : List Marker} {start result : OperationMarkers}
    (added : list.foldlM add? start = some result) :
    result.kinds = start.kinds ++ list.filterMap Marker.kind? ∧
      result.remote = (start.remote || list.any Marker.isRemote) ∧
      result.callable = (list.filterMap Marker.callable?).getLast?.or start.callable ∧
      result.unknown = start.unknown ++ list.filterMap Marker.strangeKind? := by
  induction list generalizing start with
  | nil =>
    cases added
    simp
  | cons marker list ih =>
    rw [List.foldlM_cons] at added
    obtain ⟨next, first, added⟩ := Option.bind_eq_some_iff.mp added
    obtain ⟨kinds, remote, callable, unknown⟩ := add_eq_some first
    obtain ⟨restKinds, restRemote, restCallable, restUnknown⟩ := ih added
    refine ⟨?_, ?_, ?_, ?_⟩
    · rw [restKinds, kinds, List.append_assoc, List.filterMap_cons]
      cases marker.kind? <;> rfl
    · rw [restRemote, remote, Bool.or_assoc, List.any_cons]
    · rw [restCallable, callable, List.filterMap_cons]
      cases marker.callable? with
      | none => rfl
      | some named =>
        rw [List.getLast?_cons]
        cases (list.filterMap Marker.callable?).getLast? <;> rfl
    · rw [restUnknown, unknown, List.append_assoc, List.filterMap_cons]
      cases marker.strangeKind? <;> rfl

/-- Markers that are read from an attribute say what it lists. -/
theorem says_of_input {given : Attribute} {markers : OperationMarkers}
    (read : ofInput? given.input = some markers) : markers.Says given := by
  unfold ofInput? at read
  cases input : given.input with
  | none =>
    rw [input] at read
    cases read
    refine ⟨?_, ?_, ?_, ?_⟩ <;>
      simp [Attribute.kinds, Attribute.isRemote, Attribute.callable?, Attribute.strangeKinds,
        Attribute.markers, input]
  | value =>
    rw [input] at read
    cases read
  | list tokens =>
    rw [input] at read
    obtain ⟨list, listed, read⟩ := Option.bind_eq_some_iff.mp read
    obtain ⟨kinds, remote, callable, unknown⟩ := foldlM_add read
    have markers_eq : given.markers = list := by
      rw [Attribute.markers, input]
      simp only [listed, Option.getD_some]
    refine ⟨?_, ?_, ?_, ?_⟩
    · rw [kinds, Attribute.kinds, markers_eq, List.nil_append]
    · rw [remote, Attribute.isRemote, markers_eq, Bool.false_or]
    · rw [callable, Attribute.callable?, markers_eq, Option.or_none]
    · rw [unknown, Attribute.strangeKinds, input, markers_eq, List.nil_append]

end OperationMarkers

namespace CheckMarkers

/-- What one more marker adds. -/
theorem add_eq_some {markers next : CheckMarkers} {marker : Marker}
    (added : markers.add? marker = some next) :
    next.mask = marker.flag?.toList.foldl Mask.union markers.mask ∧
      next.remote = (markers.remote || marker.isRemote) ∧
      next.unknown = markers.unknown ++ marker.strangeFlag?.toList := by
  unfold add? at added
  cases remote : marker.name == "remote" with
  | true =>
    have named : marker.name = "remote" := beq_iff_eq.mp remote
    have flag : marker.flag? = none := by
      rw [Marker.flag?, named]
      decide
    rw [if_pos remote] at added
    split at added
    · cases added
      simp [Marker.isRemote, Marker.strangeFlag?, flag, remote]
    · cases added
  | false =>
    rw [remote, if_neg Bool.false_ne_true] at added
    have found : Mask.ofMarker? marker.name = marker.flag? := rfl
    rw [found] at added
    cases flag : marker.flag? with
    | none =>
      rw [flag] at added
      cases added
      simp [Marker.isRemote, Marker.strangeFlag?, flag, remote]
    | some flags =>
      rw [flag] at added
      dsimp only at added
      split at added
      · cases added
        simp [Marker.isRemote, Marker.strangeFlag?, flag, remote]
      · cases added

/-- What a list of markers adds, one after another. -/
theorem foldlM_add {list : List Marker} {start result : CheckMarkers}
    (added : list.foldlM add? start = some result) :
    result.mask = (list.filterMap Marker.flag?).foldl Mask.union start.mask ∧
      result.remote = (start.remote || list.any Marker.isRemote) ∧
      result.unknown = start.unknown ++ list.filterMap Marker.strangeFlag? := by
  induction list generalizing start with
  | nil =>
    cases added
    simp
  | cons marker list ih =>
    rw [List.foldlM_cons] at added
    obtain ⟨next, first, added⟩ := Option.bind_eq_some_iff.mp added
    obtain ⟨mask, remote, unknown⟩ := add_eq_some first
    obtain ⟨restMask, restRemote, restUnknown⟩ := ih added
    refine ⟨?_, ?_, ?_⟩
    · rw [restMask, mask, List.filterMap_cons]
      cases marker.flag? <;> rfl
    · rw [restRemote, remote, Bool.or_assoc, List.any_cons]
    · rw [restUnknown, unknown, List.append_assoc, List.filterMap_cons]
      cases marker.strangeFlag? <;> rfl

/-- Markers that are read from an attribute say what it lists. -/
theorem says_of_input {given : Attribute} {markers : CheckMarkers}
    (read : ofInput? given.input = some markers) : markers.Says given := by
  unfold ofInput? at read
  cases input : given.input with
  | none =>
    rw [input] at read
    cases read
    refine ⟨?_, ?_, ?_⟩ <;>
      simp [Attribute.flags, Attribute.isRemote, Attribute.strangeFlags, Attribute.markers, input]
  | value =>
    rw [input] at read
    cases read
  | list tokens =>
    rw [input] at read
    obtain ⟨list, listed, read⟩ := Option.bind_eq_some_iff.mp read
    obtain ⟨mask, remote, unknown⟩ := foldlM_add read
    have markers_eq : given.markers = list := by
      rw [Attribute.markers, input]
      simp only [listed, Option.getD_some]
    refine ⟨?_, ?_, ?_⟩
    · rw [mask, Attribute.flags, markers_eq]
    · rw [remote, Attribute.isRemote, markers_eq, Bool.false_or]
    · rw [unknown, Attribute.strangeFlags, markers_eq, List.nil_append]

end CheckMarkers

namespace Attribute

/-- Whether an attribute has the name that marks operations. -/
def marksOperation (config : Config) (given : Attribute) : Bool :=
  given.isNamed config.factoryMarker

/-- Whether an attribute has the name that marks checks. -/
def marksCheck (config : Config) (given : Attribute) : Bool :=
  given.isNamed config.authorizeMarker

/-- Where the names differ, what marks operations marks no checks. -/
theorem not_marksCheck {config : Config} {given : Attribute}
    (apart : config.factoryMarker ≠ config.authorizeMarker)
    (operates : given.marksOperation config = true) : ¬ given.marksCheck config = true := by
  intro checks
  have operation : given.name = some config.factoryMarker := beq_iff_eq.mp operates
  have check : given.name = some config.authorizeMarker := beq_iff_eq.mp checks
  exact apart (Option.some.inj (operation.symm.trans check))

/-- An attribute lists for operations whatever another one lists. -/
structure CoversOperation (last given : Attribute) : Prop where
  kinds : given.kinds ⊆ last.kinds
  remote : given.isRemote = true → last.isRemote = true
  unknown : given.strangeKinds ⊆ last.strangeKinds

/-- An attribute lists for checks whatever another one lists. -/
structure CoversCheck (last given : Attribute) : Prop where
  flags : given.flags ⊆ last.flags
  remote : given.isRemote = true → last.isRemote = true
  unknown : given.strangeFlags ⊆ last.strangeFlags

instance {last given : Attribute} : Decidable (last.CoversOperation given) :=
  decidable_of_iff (given.kinds ⊆ last.kinds ∧ (given.isRemote = true → last.isRemote = true) ∧
      given.strangeKinds ⊆ last.strangeKinds)
    ⟨fun ⟨kinds, remote, unknown⟩ => ⟨kinds, remote, unknown⟩,
      fun ⟨kinds, remote, unknown⟩ => ⟨kinds, remote, unknown⟩⟩

instance {last given : Attribute} : Decidable (last.CoversCheck given) :=
  decidable_of_iff (given.flags ⊆ last.flags ∧ (given.isRemote = true → last.isRemote = true) ∧
      given.strangeFlags ⊆ last.strangeFlags)
    ⟨fun ⟨flags, remote, unknown⟩ => ⟨flags, remote, unknown⟩,
      fun ⟨flags, remote, unknown⟩ => ⟨flags, remote, unknown⟩⟩

/-- The flags that an attribute lists are named. -/
theorem flags_named {given : Attribute} {flag : Mask} (member : flag ∈ given.flags) :
    flag ∈ Mask.named := by
  obtain ⟨marker, _, names⟩ := List.mem_filterMap.mp member
  exact Mask.mem_named names

end Attribute

/-- What an attribute says is kept of another one when it lists that too. -/
theorem OperationMarkers.Says.keeps_iff {markers : OperationMarkers} {last given : Attribute}
    (tells : markers.Says last) : markers.Keeps given ↔ last.CoversOperation given := by
  constructor
  · rintro ⟨kinds, remote, unknown⟩
    rw [tells.kinds] at kinds
    rw [tells.remote] at remote
    rw [tells.unknown] at unknown
    exact ⟨kinds, remote, unknown⟩
  · rintro ⟨kinds, remote, unknown⟩
    rw [← tells.kinds] at kinds
    rw [← tells.remote] at remote
    rw [← tells.unknown] at unknown
    exact ⟨kinds, remote, unknown⟩

/-- What an attribute says is kept of another one when it lists that too. -/
theorem CheckMarkers.Says.keeps_iff {markers : CheckMarkers} {last given : Attribute}
    (tells : markers.Says last) : markers.Keeps given ↔ last.CoversCheck given := by
  have meets_iff {flag : Mask} (listed : flag ∈ given.flags) :
      markers.mask.meets flag = true ↔ flag ∈ last.flags := by
    rw [tells.mask]
    exact Mask.foldl_meets (fun _ => Attribute.flags_named) (Attribute.flags_named listed)
  constructor
  · rintro ⟨flags, remote, unknown⟩
    rw [tells.remote] at remote
    rw [tells.unknown] at unknown
    exact ⟨fun flag listed => (meets_iff listed).mp (flags flag listed), remote, unknown⟩
  · rintro ⟨flags, remote, unknown⟩
    rw [← tells.remote] at remote
    rw [← tells.unknown] at unknown
    exact ⟨fun flag listed => (meets_iff listed).mpr (flags listed), remote, unknown⟩

/-- What was found says what the last of some attributes lists; without any attribute it is what was
there before. -/
def SaysLast {μ : Type} (tells : μ → Attribute → Prop) (attributes : List Attribute)
    (before found : Option μ) : Prop :=
  match attributes.getLast? with
  | none => found = before
  | some last => ∃ markers, found = some markers ∧ tells markers last

/-- Without any attribute nothing is found, and only then. -/
theorem SaysLast.eq_none_iff {μ : Type} {tells : μ → Attribute → Prop}
    {attributes : List Attribute} {found : Option μ}
    (said : SaysLast tells attributes none found) : found = none ↔ attributes = [] := by
  unfold SaysLast at said
  cases ends : attributes.getLast? with
  | none =>
    rw [ends] at said
    simp only [said, List.getLast?_eq_none_iff.mp ends]
  | some last =>
    rw [ends] at said
    obtain ⟨markers, rfl, _⟩ := said
    have listed : attributes ≠ [] := by
      rintro rfl
      cases ends
    simp only [reduceCtorEq, listed]

/-- What an attribute lists is overwritten by those behind it. -/
theorem SaysLast.cons {μ : Type} {tells : μ → Attribute → Prop} {first : Attribute}
    {attributes : List Attribute} {markers : μ} {before found : Option μ}
    (rest : SaysLast tells attributes (some markers) found) (told : tells markers first) :
    SaysLast tells (first :: attributes) before found := by
  unfold SaysLast at rest ⊢
  rw [List.getLast?_cons]
  cases last : attributes.getLast? with
  | none =>
    rw [last] at rest
    exact ⟨markers, rest, told⟩
  | some later =>
    rw [last] at rest
    exact rest

/-- All attributes are kept when the last of them lists whatever they list. -/
theorem SaysLast.keeps_iff {μ : Type} {tells : μ → Attribute → Prop} {attributes : List Attribute}
    {found : Option μ} (said : SaysLast tells attributes none found)
    (keeps : μ → Attribute → Prop) (covers : Attribute → Attribute → Prop)
    (told : ∀ {markers : μ} {last given : Attribute}, tells markers last →
      (keeps markers given ↔ covers last given)) :
    (∀ given ∈ attributes, ∃ markers, found = some markers ∧ keeps markers given) ↔
      ∀ last ∈ attributes.getLast?, ∀ given ∈ attributes, covers last given := by
  unfold SaysLast at said
  cases ends : attributes.getLast? with
  | none =>
    rw [List.getLast?_eq_none_iff.mp ends]
    simp
  | some last =>
    rw [ends] at said
    obtain ⟨markers, rfl, tells⟩ := said
    constructor
    · intro kept other same given member
      cases same
      obtain ⟨_, ⟨⟩, keeps⟩ := kept given member
      exact (told tells).mp keeps
    · intro covered given member
      exact ⟨markers, rfl, (told tells).mpr (covered last rfl given member)⟩

namespace Signature

/-- The attributes of a method text. -/
def attributes (text : String) : List Attribute :=
  match Syntax.parse? .method (completed text) with
  | some trees => Attribute.allOf trees
  | none => []

/-- Of several attributes that mark a method in the same way only the last is recorded. Under one
name for both sorts of markers all of them mark operations. -/
theorem foldlM_last {config : Config} {attributes : List Attribute} {start result : Markers}
    (read : attributes.foldlM (addAttribute? config) start = some result) :
    SaysLast OperationMarkers.Says (attributes.filter (·.marksOperation config)) start.1 result.1 ∧
      (config.factoryMarker ≠ config.authorizeMarker →
        SaysLast CheckMarkers.Says (attributes.filter (·.marksCheck config)) start.2 result.2) ∧
      (config.factoryMarker = config.authorizeMarker → result.2 = start.2) := by
  induction attributes generalizing start with
  | nil =>
    cases read
    exact ⟨rfl, fun _ => rfl, fun _ => rfl⟩
  | cons given attributes ih =>
    rw [List.foldlM_cons] at read
    obtain ⟨next, first, read⟩ := Option.bind_eq_some_iff.mp read
    obtain ⟨operation, check, merged⟩ := ih read
    unfold addAttribute? at first
    change (if given.marksOperation config = true then _ else
      if given.marksCheck config = true then _ else _) = some next at first
    by_cases operates : given.marksOperation config = true
    · rw [if_pos operates] at first
      obtain ⟨markers, found, rfl⟩ := Option.map_eq_some_iff.mp first
      rw [List.filter_cons_of_pos operates]
      refine ⟨operation.cons (OperationMarkers.says_of_input found), fun apart => ?_, merged⟩
      rw [List.filter_cons_of_neg (Attribute.not_marksCheck apart operates)]
      exact check apart
    · rw [if_neg operates] at first
      rw [List.filter_cons_of_neg operates]
      by_cases checks : given.marksCheck config = true
      · rw [if_pos checks] at first
        obtain ⟨markers, found, rfl⟩ := Option.map_eq_some_iff.mp first
        rw [List.filter_cons_of_pos checks]
        refine ⟨operation, fun apart => ?_, fun same => ?_⟩
        · exact (check apart).cons (CheckMarkers.says_of_input found)
        · rw [Attribute.marksOperation, same] at operates
          exact absurd checks operates
      · rw [if_neg checks] at first
        cases first
        rw [List.filter_cons_of_neg checks]
        exact ⟨operation, check, merged⟩

/-- A signature keeps whatever the attributes of its text list. -/
structure Accumulates (config : Config) (attributes : List Attribute) (signature : Signature) :
    Prop where
  operation : ∀ given ∈ attributes.filter (·.marksOperation config),
    ∃ markers, signature.operation = some markers ∧ markers.Keeps given
  check : ∀ given ∈ attributes.filter (·.marksCheck config),
    ∃ markers, signature.check = some markers ∧ markers.Keeps given

/-- The last attribute of each sort lists whatever the others of its sort list, and no attribute
that marks a check marks an operation for want of a second name. -/
structure EndsComplete (config : Config) (attributes : List Attribute) : Prop where
  operation : ∀ last ∈ (attributes.filter (·.marksOperation config)).getLast?,
    ∀ given ∈ attributes.filter (·.marksOperation config), last.CoversOperation given
  check : ∀ last ∈ (attributes.filter (·.marksCheck config)).getLast?,
    ∀ given ∈ attributes.filter (·.marksCheck config), last.CoversCheck given
  apart : config.factoryMarker = config.authorizeMarker →
    attributes.filter (·.marksCheck config) = []

/-- What a parsed signature says of its markers. -/
theorem says_of_parse {config : Config} {text : String} {signature : Signature}
    (parsed : parse config text = .ok signature) :
    SaysLast OperationMarkers.Says ((attributes text).filter (·.marksOperation config)) none
        signature.operation ∧
      (config.factoryMarker ≠ config.authorizeMarker →
        SaysLast CheckMarkers.Says ((attributes text).filter (·.marksCheck config)) none
          signature.check) ∧
      (config.factoryMarker = config.authorizeMarker → signature.check = none) := by
  unfold parse at parsed
  unfold attributes
  cases tree : Syntax.parse? .method (completed text) with
  | none =>
    rw [tree] at parsed
    cases parsed
  | some trees =>
    rw [tree] at parsed
    obtain ⟨markers, read, parsed⟩ := Except.bind_eq_ok parsed
    obtain ⟨parameters, _, parsed⟩ := Except.bind_eq_ok parsed
    cases parsed
    cases folded : (Attribute.allOf trees).foldlM (addAttribute? config) (none, none) with
    | none =>
      rw [folded] at read
      cases read
    | some result =>
      rw [folded] at read
      cases read
      exact foldlM_last folded

/-- A signature records what the last attribute of each sort lists, and nothing that only an earlier
one lists; under one name for both sorts it records nothing for checks. So it keeps whatever its
attributes list exactly when the last one of each sort lists it all and the names of the sorts tell
them apart. -/
theorem parse_says_last {config : Config} {text : String} {signature : Signature}
    (parsed : parse config text = .ok signature) :
    SaysLast OperationMarkers.Says ((attributes text).filter (·.marksOperation config)) none
        signature.operation ∧
      (config.factoryMarker ≠ config.authorizeMarker →
        SaysLast CheckMarkers.Says ((attributes text).filter (·.marksCheck config)) none
          signature.check) ∧
      (config.factoryMarker = config.authorizeMarker → signature.check = none) ∧
      (signature.Accumulates config (attributes text) ↔ EndsComplete config (attributes text)) := by
  obtain ⟨operation, check, merged⟩ := says_of_parse parsed
  have operations := operation.keeps_iff OperationMarkers.Keeps Attribute.CoversOperation
    OperationMarkers.Says.keeps_iff
  refine ⟨operation, check, merged, ?_⟩
  by_cases same : config.factoryMarker = config.authorizeMarker
  · constructor
    · intro accumulates
      have unmarked : (attributes text).filter (·.marksCheck config) = [] := by
        refine List.eq_nil_iff_forall_not_mem.mpr fun given member => ?_
        obtain ⟨markers, found, _⟩ := accumulates.check given member
        cases (merged same).symm.trans found
      refine ⟨operations.mp accumulates.operation, ?_, fun _ => unmarked⟩
      rw [unmarked]
      exact fun _ none => absurd none (Option.not_mem_none _)
    · intro complete
      refine ⟨operations.mpr complete.operation, ?_⟩
      rw [complete.apart same]
      exact fun _ member => absurd member List.not_mem_nil
  · have checks := (check same).keeps_iff CheckMarkers.Keeps Attribute.CoversCheck
      CheckMarkers.Says.keeps_iff
    constructor
    · intro accumulates
      exact ⟨operations.mp accumulates.operation, checks.mp accumulates.check,
        fun equal => absurd equal same⟩
    · intro complete
      exact ⟨operations.mpr complete.operation, checks.mpr complete.check⟩

/-- A method text whose last attribute lists what the one before it lists. -/
def markedAgain : String := "#[authorize(read)] #[authorize(write, read)] fn can(&self)"

/-- Both flags of that text are recorded. -/
theorem markedAgain_accumulates : ∃ signature, parse {} markedAgain = .ok signature ∧
    signature.Accumulates {} (attributes markedAgain) := by
  have readable : (parse {} markedAgain).isOk = true := by decide +kernel
  cases parsed : parse {} markedAgain with
  | error error =>
    rw [parsed] at readable
    cases readable
  | ok signature =>
    obtain ⟨_, _, _, accumulates⟩ := parse_says_last parsed
    exact ⟨signature, rfl, accumulates.mpr
      ⟨by decide +kernel, by decide +kernel, fun same => absurd same (by decide)⟩⟩

/-- A method text whose last attribute does not list what the one before it lists. -/
def markedApart : String := "#[authorize(read)] #[authorize(write)] fn can(&self)"

/-- The first flag of that text is lost, and nothing tells. -/
theorem markedApart_drops : ∃ signature, parse {} markedApart = .ok signature ∧
    signature.check = some { mask := .ofFamily .write } ∧
    ¬ signature.Accumulates {} (attributes markedApart) := by
  have recorded : (parse {} markedApart).toOption.map (·.check) =
      some (some { mask := .ofFamily .write }) := by decide +kernel
  have listed : ((attributes markedApart).filter (·.marksCheck {})).map Attribute.flags =
      [[.ofFamily .read], [.ofFamily .write]] := by decide +kernel
  cases parsed : parse {} markedApart with
  | error error =>
    rw [parsed] at recorded
    cases recorded
  | ok signature =>
    rw [parsed] at recorded
    have check : signature.check = some { mask := .ofFamily .write } := Option.some.inj recorded
    refine ⟨signature, rfl, check, ?_⟩
    intro accumulates
    have reads : [Mask.ofFamily .read] ∈
        ((attributes markedApart).filter (·.marksCheck {})).map Attribute.flags := by
      rw [listed]
      exact List.mem_cons_self
    obtain ⟨given, member, flags⟩ := List.mem_map.mp reads
    obtain ⟨markers, found, keeps⟩ := accumulates.check given member
    have meets := keeps.flags (.ofFamily .read) (by rw [flags]; exact List.mem_cons_self)
    cases check.symm.trans found
    exact absurd meets (by decide)

end Signature

end DomainFactory
