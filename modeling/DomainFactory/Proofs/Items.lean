import DomainFactory.CommandLine.Program
import DomainFactory.Proofs.Casing
import DomainFactory.Proofs.Filling
import DomainFactory.Proofs.Functions

/-!
# Items of facades

The text of a facade declares a struct, which has the name of the factory, and a function beside its
implementation, which registers the factory. The texts of facades are printed one after another. The
types of a catalog are distinct and so are the names of their factories; but two types have one hook
when their names have the same words up to case. So no struct is printed twice, and no function is
exactly when the words of all types are distinct in lower case.
-/
namespace DomainFactory

open Syntax Text

namespace Facade

/-- The names of the items that tokens declare with a keyword: the words behind it. -/
def itemNames (keyword : String) : List Token → List String
  | .word first :: .word name :: tokens =>
    if first = keyword then name :: itemNames keyword tokens
    else itemNames keyword (.word name :: tokens)
  | _ :: tokens => itemNames keyword tokens
  | [] => []

variable {keyword : String}

/-- No item is declared with another token. -/
theorem itemNames_cons {token : Token} (other : isOther keyword token = true)
    (tokens : List Token) : itemNames keyword (token :: tokens) = itemNames keyword tokens := by
  rw [itemNames.eq_def]
  split
  next first name rest same =>
    cases same
    rw [if_neg (by simpa only [isOther, bne_iff_ne, ne_eq] using other)]
  next same =>
    cases same
    rfl
  next same => cases same

/-- Items are declared behind all other tokens. -/
theorem itemNames_behind {front : List Token} (others : front.all (isOther keyword) = true)
    (tokens : List Token) : itemNames keyword (front ++ tokens) = itemNames keyword tokens := by
  induction front with
  | nil => rfl
  | cons token front ih =>
    rw [List.all_cons, Bool.and_eq_true] at others
    rw [List.cons_append, itemNames_cons others.1, ih others.2]

/-- The word behind the keyword names an item. -/
theorem itemNames_item (name : String) (tokens : List Token) :
    itemNames keyword (.word keyword :: .word name :: tokens) =
      name :: itemNames keyword tokens := by
  rw [itemNames, if_pos rfl]

/-- A word in front of a group names no item. -/
theorem itemNames_group (name : String) (delimiter : Delimiter) (inner tokens : List Token) :
    itemNames keyword (.word name :: .group delimiter inner :: tokens) =
      itemNames keyword tokens := rfl

/-- A facade declares one struct, and one function beside its implementation. -/
theorem itemNames_tokens (facade : Facade) :
    itemNames "struct" facade.tokens = [facade.name] ∧
      itemNames "fn" facade.tokens = [facade.hook] := by
  obtain ⟨title, fields, parameters, body, split⟩ : ∃ title fields parameters body,
      facade.tokens =
        (attributeTokens title ++ attributeTokens [.word "derive", .group .paren [.word "Clone"]] ++
          pieces "pub") ++ .word "struct" :: .word facade.name :: .group .brace fields ::
            .word "impl" :: .word facade.name :: .group .brace (tokens.members facade) ::
              ((remark " Stores the factory in the registry under its factory name." ++
                pieces "pub") ++ .word "fn" :: .word facade.hook ::
                  [.group .paren parameters, .group .brace body]) := ⟨_, _, _, _, rfl⟩
  rw [split]
  constructor
  · rw [itemNames_behind rfl, itemNames_item, itemNames_cons rfl, itemNames_cons rfl,
      itemNames_group, itemNames_behind rfl, itemNames_cons rfl, itemNames_group]
    rfl
  · rw [itemNames_behind rfl, itemNames_cons rfl, itemNames_group, itemNames_cons rfl,
      itemNames_group, itemNames_behind rfl, itemNames_item]
    rfl

end Facade

namespace CommandLine

/-- The plans whose facades are printed: those in front of the first that has no text. -/
def printed (plans : List Plan) : List Plan :=
  plans.takeWhile fun plan => (Facade.ofPlan plan).text?.isSome

/-- The texts of the facades are printed one after another. -/
theorem printFacades_output (exit : UInt32) (front : String) (plans : List Plan) :
    (printFacades exit front plans).output =
      front ++ String.join ((printed plans).map fun plan =>
        Token.textAll (Facade.ofPlan plan).tokens ++ "\n") := by
  induction plans generalizing front with
  | nil => exact (String.append_empty).symm
  | cons plan plans ih =>
    unfold printFacades printed
    cases given : (Facade.ofPlan plan).text? with
    | none =>
      rw [List.takeWhile_cons_of_neg (by simp [given])]
      exact (String.append_empty).symm
    | some text =>
      have whole : text = Token.textAll (Facade.ofPlan plan).tokens := by
        unfold Facade.text? at given
        split at given
        · exact (Option.some.inj given).symm
        · cases given
      rw [List.takeWhile_cons_of_pos (by simp [given]), List.map_cons, String.join_cons, ← whole]
      dsimp only
      rw [ih, String.append_assoc, String.append_assoc, String.append_assoc]
      rfl

end CommandLine

/-- When the names of the items of a facade are words, they are plain words. -/
theorem items_plain {typeName : String} (factory : IsWord (typeName ++ "Factory"))
    (hook : IsWord ("register_" ++ (snakeCase typeName ++ "_factory"))) :
    IsPlainWord (typeName ++ "Factory") ∧
      IsPlainWord ("register_" ++ (snakeCase typeName ++ "_factory")) := by
  have parts := (isWord_behind (by decide) (by decide)).mp hook
  refine ⟨factory.isPlainWord fun mark => ?_,
    (isPlainWord_append (by decide) parts).mpr (by decide)⟩
  -- The mark of a raw name would stand in its snake case, too.
  have among : '#' ∈ typeName.toList := by
    rw [String.toList_append, List.mem_append] at mark
    exact mark.resolve_right (by decide)
  refine absurd (parts '#' ?_) (by decide)
  rw [String.toList_append, snakeCase, String.toList_ofList]
  exact List.mem_append_left _ (mem_snakeFrom (by decide) among false)

/-- When the items in the facades of some plans have names of their own. -/
structure DeclaresItems (plans : List Plan) : Prop where
  /-- The factories have distinct names. -/
  factories : (plans.map Plan.factoryName).Nodup
  /-- Two plans have one hook when their types have the same words up to case, -/
  hooks : ∀ plan ∈ plans, ∀ other ∈ plans, plan.registrationHook = other.registrationHook ↔
    loweredWords plan.typeName = loweredWords other.typeName
  /-- so the hooks are distinct when the words of all types are, up to case; -/
  apart : (plans.map Plan.registrationHook).Nodup ↔ (plans.map (loweredWords ·.typeName)).Nodup
  /-- and those of types with names in camel case are. -/
  camel : ((plans.filter (isCamelCase ·.typeName)).map Plan.registrationHook).Nodup
  /-- The texts of facades are printed one after another, each on a line of its own. -/
  output : ∀ exit, (CommandLine.printFacades exit "" plans).output =
    String.join ((CommandLine.printed plans).map fun plan =>
      Token.textAll (Facade.ofPlan plan).tokens ++ "\n")
  /-- Their structs have distinct names. -/
  structs : ((CommandLine.printed plans).flatMap fun plan =>
    Facade.itemNames "struct" (Facade.ofPlan plan).tokens).Nodup
  /-- Their functions have distinct names when the words of their types are distinct up to case. -/
  functions : ((CommandLine.printed plans).flatMap fun plan =>
      Facade.itemNames "fn" (Facade.ofPlan plan).tokens).Nodup ↔
    ((CommandLine.printed plans).map (loweredWords ·.typeName)).Nodup
  /-- None of these names is a raw one. -/
  plain : ∀ plan ∈ CommandLine.printed plans,
    IsPlainWord plan.factoryName ∧ IsPlainWord plan.registrationHook

/-- Whether the items of a plan are named for its type, and its methods fit their roles. -/
structure Plan.NamesItems (plan : Plan) : Prop where
  factory : plan.factoryName = plan.typeName ++ "Factory"
  hook : plan.registrationHook = "register_" ++ (snakeCase plan.typeName ++ "_factory")
  fits : ∀ method ∈ plan.methods, method.Fits

/-- Items have distinct images under two functions alike when both tell the same ones apart. -/
theorem nodup_map_congr {α β γ : Type} {first : α → β} {second : α → γ} {items : List α}
    (same : ∀ left ∈ items, ∀ right ∈ items,
      first left = first right ↔ second left = second right) :
    (items.map first).Nodup ↔ (items.map second).Nodup := by
  rw [List.Nodup, List.Nodup, List.pairwise_map, List.pairwise_map]
  exact List.Pairwise.iff_of_mem fun here there => not_congr (same _ here _ there)

/-- When the items have names of their own in the facades of plans of distinct types. -/
theorem Plan.NamesItems.declares {plans : List Plan} (types : (plans.map Plan.typeName).Nodup)
    (named : ∀ plan ∈ plans, plan.NamesItems) : DeclaresItems plans := by
  have hooks : ∀ plan ∈ plans, ∀ other ∈ plans, plan.registrationHook = other.registrationHook ↔
      loweredWords plan.typeName = loweredWords other.typeName := by
    intro plan here other there
    rw [(named plan here).hook, (named other there).hook, String.append_right_inj,
      String.append_left_inj, snakeCase_eq_iff]
  have factories : (plans.map Plan.factoryName).Nodup := by
    refine (nodup_map_congr fun plan here other there => ?_).mpr types
    rw [(named plan here).factory, (named other there).factory, String.append_left_inj]
  have front : (CommandLine.printed plans).Sublist plans := List.takeWhile_sublist _
  have structs : ((CommandLine.printed plans).flatMap fun plan =>
      Facade.itemNames "struct" (Facade.ofPlan plan).tokens) =
        (CommandLine.printed plans).map Plan.factoryName := by
    simp only [(Facade.itemNames_tokens _).1]
    exact List.map_eq_flatMap.symm
  have functions : ((CommandLine.printed plans).flatMap fun plan =>
      Facade.itemNames "fn" (Facade.ofPlan plan).tokens) =
        (CommandLine.printed plans).map Plan.registrationHook := by
    simp only [(Facade.itemNames_tokens _).2]
    exact List.map_eq_flatMap.symm
  constructor
  case factories => exact factories
  case hooks => exact hooks
  case apart => exact nodup_map_congr hooks
  case camel =>
    have camel : ((plans.filter (isCamelCase ·.typeName)).map Plan.typeName).Nodup :=
      types.sublist (List.filter_sublist.map _)
    refine (nodup_map_congr fun plan here other there => ?_).mpr camel
    obtain ⟨member, cased⟩ := List.mem_filter.mp here
    obtain ⟨among, casedToo⟩ := List.mem_filter.mp there
    rw [hooks plan member other among]
    exact ⟨camelCase_injective cased casedToo, congrArg loweredWords⟩
  case output =>
    intro exit
    rw [CommandLine.printFacades_output, String.empty_append]
  case structs =>
    rw [structs]
    exact factories.sublist (front.map _)
  case functions =>
    rw [functions]
    exact nodup_map_congr fun plan here other there =>
      hooks plan (front.subset here) other (front.subset there)
  case plain =>
    intro plan member
    have names := named plan (front.subset member)
    have text : (Facade.ofPlan plan).text?.isSome = true :=
      List.mem_takeWhile_imp (p := fun plan => (Facade.ofPlan plan).text?.isSome) member
    obtain ⟨⟨factory, hook⟩, _⟩ := (Facade.text_isSome_iff names.fits).mp text
    rw [names.factory] at factory ⊢
    rw [names.hook] at hook ⊢
    exact items_plain factory hook

/-- The surfaces of a catalog that is keyed by name have distinct names. -/
theorem Catalog.KeyedByName.factoryTypes_nodup {catalog : Catalog} (keyed : catalog.KeyedByName) :
    catalog.factoryTypes.Nodup := by
  have names : catalog.types.values.map Surface.name = catalog.types.entries.map Prod.fst := by
    unfold Keyed.values
    rw [List.map_map]
    refine List.map_congr_left fun entry member => ?_
    exact keyed entry.1 entry.2 (Keyed.get_eq_some_iff.mpr member)
  have distinct := Keyed.keys_nodup catalog.types
  rw [← names] at distinct
  exact distinct.sublist (List.filter_sublist.map Surface.name)

namespace Generation

variable {config : Config} {catalog : Catalog} {plan : Plan}

/-- What is generated for a catalog are the plans of types. -/
theorem of_mem_plansOf (member : plan ∈ CommandLine.plansOf (generateAll config catalog)) :
    ∃ typeName found, plan = planOf config typeName found := by
  obtain ⟨generated, made, ready⟩ := List.mem_filterMap.mp member
  obtain ⟨typeName, _, rfl⟩ := List.mem_map.mp made
  split at ready
  next plan generated =>
    cases ready
    obtain ⟨chain, _, rfl⟩ := of_generate_ready generated
    exact ⟨typeName, _, rfl⟩
  next => cases ready

/-- No type has two plans. -/
theorem plansOf_types_sublist (config : Config) (catalog : Catalog) :
    ((CommandLine.plansOf (generateAll config catalog)).map Plan.typeName).Sublist
      catalog.factoryTypes := by
  unfold generateAll CommandLine.plansOf
  induction catalog.factoryTypes with
  | nil => exact List.Sublist.slnil
  | cons typeName typeNames ih =>
    rw [List.map_cons, List.filterMap_cons]
    cases made : generate config catalog typeName with
    | inert name error => exact ih.cons typeName
    | ready plan =>
      obtain ⟨chain, _, rfl⟩ := of_generate_ready made
      exact ih.cons_cons typeName

/-- When the items have names of their own in the facades of a catalog that was filled. -/
theorem generateAll_declares_items (config : Config) (steps : List Catalog.Step) :
    DeclaresItems (CommandLine.plansOf (generateAll config (Catalog.empty.fill steps))) := by
  have types := (Catalog.empty_keyedByName.fill steps).factoryTypes_nodup.sublist
    (plansOf_types_sublist config (Catalog.empty.fill steps))
  refine Plan.NamesItems.declares types fun plan member => ?_
  obtain ⟨typeName, found, rfl⟩ := of_mem_plansOf member
  exact ⟨rfl, String.append_assoc, fun _ => planOf_fits config typeName found⟩

/-- A catalog with two types whose names have the same words up to case. -/
def alikeCatalog : Catalog :=
  Catalog.empty.fill
    [.put { name := "OAuthToken", factory := true }, .put { name := "OauthToken", factory := true }]

/-- The plans of these two types have distinct factories and one hook, and both facades are printed,
so the function with its name is printed twice. -/
theorem alike_share_hook : ∃ plan other : Plan,
    CommandLine.plansOf (generateAll {} alikeCatalog) = [plan, other] ∧
      plan.factoryName = "OAuthTokenFactory" ∧ other.factoryName = "OauthTokenFactory" ∧
      plan.registrationHook = other.registrationHook ∧
      ((CommandLine.printed [plan, other]).flatMap fun plan =>
        Facade.itemNames "fn" (Facade.ofPlan plan).tokens) =
          ["register_oauth_token_factory", "register_oauth_token_factory"] := by
  refine ⟨_, _, rfl, ?_⟩
  decide +kernel

end Generation

end DomainFactory
