import Mathlib.Data.List.Induction
import DomainFactory.Proofs.Assembly

/-!
# Registrations

A registry is filled by registrations, of services under any name and of factories under their own.
It keeps services by name, services by type, and the order of names, and one registration changes
all three: it becomes the last one under its name and the last one of its type, and its name is
listed unless it was before. So after any registrations the registry answers what was registered
last, and lists each name once.
-/
namespace DomainFactory

/-- Whether an item is the last one of a list with a property. -/
def IsLast {α : Type} (holds : α → Prop) (item : α) (list : List α) : Prop :=
  ∃ before behind, list = before ++ item :: behind ∧ holds item ∧ ∀ later ∈ behind, ¬ holds later

/-- The last item with a property is the new one behind a list, or the last one before. -/
theorem isLast_concat {α : Type} {holds : α → Prop} {item new : α} {list : List α} :
    IsLast holds item (list ++ [new]) ↔
      holds new ∧ item = new ∨ ¬ holds new ∧ IsLast holds item list := by
  constructor
  · rintro ⟨before, behind, split, has, others⟩
    rcases List.eq_nil_or_concat behind with rfl | ⟨front, last, rfl⟩
    · obtain ⟨_, same⟩ := List.append_inj' split rfl
      cases same
      exact .inl ⟨has, rfl⟩
    · rw [List.concat_eq_append, ← List.cons_append, ← List.append_assoc] at split
      obtain ⟨rfl, same⟩ := List.append_inj' split rfl
      cases same
      rw [List.concat_eq_append] at others
      refine .inr ⟨others new (by simp), before, front, rfl, has, fun later member => ?_⟩
      exact others later (List.mem_append_left _ member)
  · rintro (⟨has, rfl⟩ | ⟨lacks, before, behind, rfl, has, others⟩)
    · exact ⟨list, [], rfl, has, fun _ none => absurd none List.not_mem_nil⟩
    · refine ⟨before, behind ++ [new], by simp, has, fun later member => ?_⟩
      rcases List.mem_append.mp member with old | last
      · exact others later old
      · exact List.mem_singleton.mp last ▸ lacks

/-- Some item is the last one with a property exactly when some item has it. -/
theorem exists_isLast_iff {α : Type} {holds : α → Prop} {list : List α} :
    (∃ item, IsLast holds item list) ↔ ∃ item ∈ list, holds item := by
  constructor
  · rintro ⟨item, before, behind, rfl, has, _⟩
    exact ⟨item, by simp, has⟩
  · rintro ⟨item, member, has⟩
    induction list using List.reverseRecOn with
    | nil => exact absurd member List.not_mem_nil
    | append_singleton list new ih =>
      by_cases last : holds new
      · exact ⟨new, isLast_concat.mpr (.inl ⟨last, rfl⟩)⟩
      · have old : item ∈ list := by
          rcases List.mem_append.mp member with old | same
          · exact old
          · exact absurd (List.mem_singleton.mp same ▸ has) last
        obtain ⟨found, isLast⟩ := ih old
        exact ⟨found, isLast_concat.mpr (.inr ⟨last, isLast⟩)⟩

namespace ServiceRegistry

variable {τ : Type} {family : τ → Type}

/-- What a registry keeps of services that were registered under names, the oldest first. -/
structure Keeps (registry : ServiceRegistry family) (entries : List (String × Service family)) :
    Prop where
  /-- The names under which something was registered are listed. -/
  listed : ∀ name, name ∈ registry.names ↔ name ∈ entries.map Prod.fst
  /-- They are listed by their first registrations. -/
  ordered : registry.names.Pairwise fun earlier later =>
    (entries.map Prod.fst).idxOf earlier < (entries.map Prod.fst).idxOf later
  /-- Under a name is what was registered last under it. -/
  named : ∀ name service, registry.byName? name = some service ↔
    IsLast (·.1 = name) (name, service) entries
  /-- Of a type is what was registered last of it. -/
  typed : ∀ type value, registry.byType? type = some value ↔
    ∃ name, IsLast (·.2.1 = type) (name, ⟨type, value⟩) entries

/-- The empty registry keeps nothing. -/
theorem keeps_empty : (empty : ServiceRegistry family).Keeps [] := by
  have nothing {holds : String × Service family → Prop} {entry : String × Service family} :
      ¬ IsLast holds entry [] := by
    rintro ⟨before, behind, split, _⟩
    simp at split
  refine ⟨fun name => Iff.rfl, .nil, fun name service => ?_, fun type value => ?_⟩
  · exact iff_of_false (by simp [byName?, empty]) nothing
  · exact iff_of_false (by simp [byType?, empty]) fun ⟨_, last⟩ => nothing last

variable {registry : ServiceRegistry family} {entries : List (String × Service family)}

/-- A name is listed exactly when something is found under it. -/
theorem Keeps.mem_names_iff (keeps : registry.Keeps entries) (name : String) :
    name ∈ registry.names ↔ ∃ service, registry.byName? name = some service := by
  rw [keeps.listed, List.mem_map]
  constructor
  · rintro ⟨⟨name, service⟩, member, rfl⟩
    obtain ⟨⟨other, last⟩, isLast⟩ :=
      (@exists_isLast_iff _ (·.1 = name) _).mpr ⟨(name, service), member, rfl⟩
    have same : other = name := isLast.choose_spec.choose_spec.2.1
    subst same
    exact ⟨last, (keeps.named _ last).mpr isLast⟩
  · rintro ⟨service, found⟩
    obtain ⟨before, behind, rfl, _⟩ := (keeps.named name service).mp found
    exact ⟨(name, service), by simp, rfl⟩

variable [DecidableEq τ]

/-- A service has its own type and no other. -/
theorem as_eq_some {service : Service family} {type : τ} {value : family type} :
    service.as? type = some value ↔ service = ⟨type, value⟩ := by
  obtain ⟨own, held⟩ := service
  unfold Service.as?
  by_cases same : own = type
  · subst same
    simp
  · have apart : (⟨own, held⟩ : Service family) ≠ ⟨type, value⟩ :=
      fun equal => same (congrArg Sigma.fst equal)
    simp [same, apart]

/-- One more registration is kept as the last one. -/
theorem Keeps.register (keeps : registry.Keeps entries) (name : String)
    (service : Service family) :
    (registry.register name service).Keeps (entries ++ [(name, service)]) := by
  have known : registry.named.contains name = true ↔ name ∈ entries.map Prod.fst := by
    rw [← keeps.listed, keeps.mem_names_iff]
    exact Option.isSome_iff_exists
  refine ⟨fun other => ?_, ?_, fun other found => ?_, fun type value => ?_⟩
  · rw [List.map_append, List.mem_append, ← keeps.listed]
    unfold names ServiceRegistry.register
    by_cases old : registry.named.contains name = true
    · have present : name ∈ registry.order := (keeps.listed name).mpr (known.mp old)
      rw [if_pos old, List.map_singleton, List.mem_singleton]
      exact ⟨.inl, fun known => known.elim id fun same => same ▸ present⟩
    · rw [if_neg old, List.mem_append]
      rfl
  · have kept : registry.names.Pairwise fun earlier later =>
        ((entries ++ [(name, service)]).map Prod.fst).idxOf earlier <
          ((entries ++ [(name, service)]).map Prod.fst).idxOf later := by
      refine keeps.ordered.imp_of_mem fun here there before => ?_
      rw [List.map_append, List.idxOf_append_of_mem ((keeps.listed _).mp here),
        List.idxOf_append_of_mem ((keeps.listed _).mp there)]
      exact before
    unfold names ServiceRegistry.register at *
    by_cases old : registry.named.contains name = true
    · rw [if_pos old]
      exact kept
    · rw [if_neg old]
      refine List.pairwise_append.mpr ⟨kept, List.pairwise_singleton _ _, ?_⟩
      intro earlier here later there
      rw [List.mem_singleton.mp there, List.map_append,
        List.idxOf_append_of_mem ((keeps.listed _).mp here),
        List.idxOf_append_of_notMem (fun member => old (known.mpr member))]
      have bound := List.idxOf_lt_length_iff.mpr ((keeps.listed earlier).mp here)
      omega
  · have found_iff : (registry.register name service).byName? other = some found ↔
        name = other ∧ service = found ∨ name ≠ other ∧ registry.byName? other = some found := by
      unfold byName? ServiceRegistry.register
      rw [Keyed.get_insert]
      by_cases same : name = other
      · simp [same]
      · simp [same]
    rw [found_iff, isLast_concat, keeps.named]
    refine or_congr_left (and_congr_right fun same => ?_)
    rw [same, Prod.mk.injEq, and_iff_right rfl, eq_comm]
  · have found_iff : (registry.register name service).byType? type = some value ↔
        service = ⟨type, value⟩ ∨ service.1 ≠ type ∧ registry.byType? type = some value := by
      unfold byType? ServiceRegistry.register
      rw [Option.or_eq_some_iff, as_eq_some]
      refine or_congr_right (and_congr_left fun _ => ?_)
      unfold Service.as?
      split <;> simp_all
    rw [found_iff, keeps.typed]
    simp only [isLast_concat, Prod.mk.injEq, exists_or, exists_and_left, exists_eq_left]
    refine or_congr_left ⟨fun same => ⟨same ▸ rfl, same.symm⟩, fun both => both.2.symm⟩

end ServiceRegistry

/-- A registration. -/
inductive Registration (σ : Type) {τ : Type} (services : τ → Type) where
  /-- A service is registered under a name. -/
  | service (name : String) (held : Service services)
  /-- A factory is registered under its own name. -/
  | factory (built : Factory σ)

namespace Registration

variable {σ τ : Type} {services : τ → Type}

/-- The name under which something is registered, and what it is. -/
def entry : Registration σ services → String × Service (Factory.family σ services)
  | .service name held => (name, ⟨some held.1, held.2⟩)
  | .factory built => (built.plan.factoryName, ⟨none, built⟩)

variable [DecidableEq τ]

/-- The registry after a registration. -/
def perform (registry : ServiceRegistry (Factory.family σ services)) :
    Registration σ services → ServiceRegistry (Factory.family σ services)
  | .service name held => registry.register name ⟨some held.1, held.2⟩
  | .factory built => built.register registry

/-- A registration puts its service under its name. -/
theorem perform_eq (registry : ServiceRegistry (Factory.family σ services))
    (registration : Registration σ services) :
    registration.perform registry =
      registry.register registration.entry.1 registration.entry.2 := by
  cases registration <;> rfl

end Registration

namespace ServiceRegistry

variable {σ τ : Type} {services : τ → Type} [DecidableEq τ]

/-- The registry after some registrations, one after another. -/
def filled (registrations : List (Registration σ services)) :
    ServiceRegistry (Factory.family σ services) :=
  registrations.foldl Registration.perform empty

/-- A registry keeps its registrations. -/
theorem filled_keeps (registrations : List (Registration σ services)) :
    (filled registrations).Keeps (registrations.map Registration.entry) := by
  unfold filled
  induction registrations using List.reverseRecOn with
  | nil => exact keeps_empty
  | append_singleton registrations last ih =>
    rw [List.foldl_append, List.foldl_cons, List.foldl_nil, List.map_append, List.map_singleton,
      Registration.perform_eq]
    exact ih.register last.entry.1 last.entry.2

/-- What a registry tells of its entries, the oldest first. -/
structure Tells (registry : ServiceRegistry (Factory.family σ services))
    (entries : List (String × Service (Factory.family σ services))) : Prop where
  /-- No name is listed twice. -/
  distinct : registry.names.Nodup
  /-- Names are listed by their first registrations. -/
  ordered : registry.names.Pairwise fun earlier later =>
    (entries.map Prod.fst).idxOf earlier < (entries.map Prod.fst).idxOf later
  /-- They are the names under which something was registered. -/
  listed : ∀ name, name ∈ registry.names ↔ ∃ service, (name, service) ∈ entries
  /-- They are the names under which something is found. -/
  found : ∀ name, name ∈ registry.names ↔ ∃ service, registry.byName? name = some service
  /-- Under a name is the service registered last under it. -/
  named : ∀ name service, registry.byName? name = some service ↔
    IsLast (·.1 = name) (name, service) entries
  /-- A name resolves to the service under it. -/
  resolved : ∀ name service, registry.resolve name = .ok service ↔
    registry.byName? name = some service
  /-- A name that is not listed is refused. -/
  refused : ∀ name, name ∉ registry.names →
    registry.resolve name = .error (.plain ("no service registered for \x60" ++ name ++ "\x60"))
  /-- Of a type is the service of that type registered last, under whatever name. -/
  typed : ∀ type value, registry.byType? type = some value ↔
    ∃ name, IsLast (·.2.1 = type) (name, ⟨type, value⟩) entries
  /-- Nothing is of a type of which nothing was registered. -/
  untyped : ∀ type, registry.byType? type = none ↔ ∀ entry ∈ entries, entry.2.1 ≠ type

/-- After any registrations a registry tells what was registered last under each name and of each
type, and lists each name once in the order of first registrations. -/
theorem filled_tells (registrations : List (Registration σ services)) :
    (filled registrations).Tells (registrations.map Registration.entry) := by
  have keeps := filled_keeps registrations
  generalize filled registrations = registry at keeps ⊢
  generalize registrations.map Registration.entry = entries at keeps ⊢
  have resolved (name : String) (service : Service (Factory.family σ services)) :
      registry.resolve name = .ok service ↔ registry.byName? name = some service := by
    unfold resolve
    cases registry.byName? name <;> simp
  refine ⟨?_, keeps.ordered, fun name => ?_, keeps.mem_names_iff, keeps.named, resolved,
    fun name missing => ?_, keeps.typed, fun type => ?_⟩
  · exact keeps.ordered.imp fun less same => absurd (same ▸ less) (Nat.lt_irrefl _)
  · rw [keeps.listed, List.mem_map]
    exact ⟨fun ⟨entry, member, same⟩ => ⟨entry.2, same ▸ member⟩, fun ⟨_, member⟩ =>
      ⟨_, member, rfl⟩⟩
  · have nothing : registry.byName? name = none :=
      Option.eq_none_iff_forall_not_mem.mpr fun service found =>
        missing ((keeps.mem_names_iff name).mpr ⟨service, found⟩)
    rw [resolve, nothing]
  · rw [← not_iff_not, ← ne_eq, Option.ne_none_iff_exists']
    push Not
    rw [← exists_isLast_iff]
    simp only [keeps.typed]
    constructor
    · rintro ⟨value, name, last⟩
      exact ⟨_, last⟩
    · rintro ⟨⟨name, own, value⟩, last⟩
      have same : own = type := last.choose_spec.choose_spec.2.1
      subst same
      exact ⟨value, name, last⟩

/-- A name that is registered again keeps its place. -/
example : (filled [.service "b" ⟨(), 1⟩, .service "a" ⟨(), 2⟩, .service "b" ⟨(), 3⟩] :
    ServiceRegistry (Factory.family Unit fun (_ : Unit) => Nat)).names = ["b", "a"] := by
  decide +kernel

end ServiceRegistry

end DomainFactory
