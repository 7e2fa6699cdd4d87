import DomainFactory.Proofs.Chains
import DomainFactory.Proofs.Joining
import DomainFactory.Proofs.Reading

/-!
# Filling catalogs

A catalog is filled in steps: a surface is put, or those of a source text or of a JSON list. A step
that fails leaves the catalog as it was, so only the steps that succeed count: the catalog holds
what they read, of surfaces of one name the last.
-/
namespace DomainFactory.Catalog

/-- A step in which a catalog is filled. -/
inductive Step where
  /-- A surface is put. -/
  | put (surface : Surface)
  /-- The traits of a source text are put. -/
  | source (config : Config) (text : String)
  /-- The surfaces of a JSON list are put. -/
  | json (text : String)

namespace Step

/-- The edit of a step. -/
def edit : Step → Edit Nat
  | .put surface => do
    discard (Edit.put surface)
    return 1
  | .source config text => Edit.source config text
  | .json text => Edit.json text

/-- What a step reads, told by its surface or text alone. -/
inductive Reads : Step → Except SurfaceError (List Surface) → Prop where
  /-- A surface that is put is what is read. -/
  | put (surface : Surface) : Reads (.put surface) (.ok [surface])
  /-- A source text is read trait by trait. -/
  | source {config : Config} {text : String} {result : Except SurfaceError (List Surface)}
    (read : Surface.SourceRead config text result) : Reads (.source config text) result
  /-- A JSON text is read item by item. -/
  | json {text : String} {result : Except SurfaceError (List Surface)}
    (read : ListRead text result) : Reads (.json text) result

/-- What the edit of a step reads. -/
def read : Step → Except SurfaceError (List Surface)
  | .put surface => .ok [surface]
  | .source config text => Surface.parseFile config text
  | .json text => listed text

/-- What a step reads is what its edit reads. -/
theorem reads_iff {step : Step} {result : Except SurfaceError (List Surface)} :
    step.Reads result ↔ step.read = result := by
  constructor
  · rintro (surface | read | read)
    · rfl
    · exact Surface.sourceRead_iff.mp read
    · exact listRead_iff.mp read
  · intro same
    cases step with
    | put surface => exact same ▸ .put surface
    | source config text => exact .source (Surface.sourceRead_iff.mpr same)
    | json text => exact .json (listRead_iff.mpr same)

/-- A step puts what it reads. -/
theorem edit_puts (step : Step) : step.edit.Puts step.read := by
  cases step with
  | put surface => exact fun _ => rfl
  | source config text => exact Edit.source_puts config text
  | json text => exact Edit.json_puts text

end Step

/-- The catalog that steps leave behind, failing ones included. -/
def fill (catalog : Catalog) (steps : List Step) : Catalog :=
  steps.foldl (fun catalog step => (step.edit.on catalog).2) catalog

/-- The steps that do not fail when they are made one after another. -/
def succeeding : Catalog → List Step → List Step
  | _, [] => []
  | catalog, step :: steps =>
    match step.edit.on catalog with
    | (.ok _, later) => step :: succeeding later steps
    | (.error _, later) => succeeding later steps

/-- What the steps that can read their texts read. -/
def readBy (steps : List Step) : List Surface :=
  (steps.filterMap fun step => step.read.toOption).flatten

variable {catalog : Catalog}

/-- The surface of a name after insertions is the last one of that name, or else the one before. -/
theorem get_insertAll (catalog : Catalog) (surfaces : List Surface) (name : String) :
    (catalog.insertAll surfaces).get? name =
      (surfaces.reverse.find? (·.name == name)).or (catalog.get? name) := by
  unfold insertAll
  induction surfaces generalizing catalog with
  | nil => rfl
  | cons surface surfaces ih =>
    rw [List.foldl_cons, ih, get_insert, List.reverse_cons, List.find?_append, Option.or_assoc]
    by_cases same : surface.name = name
    · simp [same]
    · simp [same]

/-- What a first step reads is put, and the other steps go on from there. -/
theorem fill_cons (step : Step) (steps : List Step) :
    catalog.fill (step :: steps) =
      (match step.read with
        | .ok surfaces => catalog.insertAll surfaces
        | .error _ => catalog).fill steps := by
  unfold fill
  rw [List.foldl_cons, step.edit_puts catalog]
  cases step.read <;> rfl

/-- A first step succeeds when it reads something, and the other steps go on from there. -/
theorem succeeding_cons (step : Step) (steps : List Step) :
    catalog.succeeding (step :: steps) =
      match step.read with
      | .ok surfaces => step :: (catalog.insertAll surfaces).succeeding steps
      | .error _ => catalog.succeeding steps := by
  rw [succeeding, step.edit_puts catalog]
  cases step.read <;> rfl

/-- What a first step reads stands in front of what the others read. -/
theorem readBy_cons (step : Step) (steps : List Step) :
    readBy (step :: steps) = (step.read.toOption.getD []) ++ readBy steps := by
  unfold readBy
  rw [List.filterMap_cons]
  cases step.read <;> rfl

/-- A catalog is filled with what the steps read. -/
theorem fill_eq (steps : List Step) : catalog.fill steps = catalog.insertAll (readBy steps) := by
  induction steps generalizing catalog with
  | nil => rfl
  | cons step steps ih =>
    rw [fill_cons, ih, readBy_cons]
    cases step.read with
    | error error => rfl
    | ok surfaces =>
      unfold insertAll
      exact List.foldl_append.symm

/-- The steps that succeed are those that read something. -/
theorem succeeding_eq (steps : List Step) :
    catalog.succeeding steps = steps.filter fun step => step.read.isOk := by
  induction steps generalizing catalog with
  | nil => rfl
  | cons step steps ih =>
    rw [succeeding_cons, List.filter_cons]
    cases step.read with
    | error error => exact ih
    | ok surfaces => exact congrArg (step :: ·) ih

/-- The steps that succeed read all that is read. -/
theorem readBy_succeeding (steps : List Step) :
    readBy (catalog.succeeding steps) = readBy steps := by
  unfold readBy
  rw [succeeding_eq, List.filterMap_filter]
  congr 1
  refine List.filterMap_congr fun step _ => ?_
  cases step.read <;> rfl

/-- Filling keeps a catalog keyed by name. -/
theorem KeyedByName.fill (keyed : catalog.KeyedByName) (steps : List Step) :
    (catalog.fill steps).KeyedByName := by
  rw [fill_eq]
  exact keyed.insertAll _

/-- What the steps read that can read their texts, step by step. -/
theorem readBy_reads (steps : List Step) :
    ∃ readings, List.Forall₂ (fun (step : Step) surfaces => step.Reads (.ok surfaces))
      (catalog.succeeding steps) readings ∧ readings.flatten = readBy steps := by
  refine ⟨_, ?_, rfl⟩
  rw [succeeding_eq]
  induction steps with
  | nil => exact .nil
  | cons step steps ih =>
    rw [List.filter_cons, List.filterMap_cons]
    cases read : step.read with
    | error error => exact ih
    | ok surfaces => exact .cons (Step.reads_iff.mpr read) ih

/-- All or nothing of what a step reads is put. -/
structure AllOrNothing (catalog : Catalog) (step : Step) : Prop where
  /-- A step reads something or fails to, and in one way only. -/
  reads : ∃! result, step.Reads result
  /-- A step that cannot read something fails and leaves the catalog as it was. -/
  fails : ∀ error, step.Reads (.error error) → step.edit.on catalog = (.error error, catalog)
  /-- Any other step succeeds with the number of the surfaces that it reads, and leaves the catalog
  with these inserted one after another. -/
  loads : ∀ surfaces, step.Reads (.ok surfaces) →
    step.edit.on catalog = (.ok surfaces.length, surfaces.foldl insert catalog)
  /-- Of surfaces of one name the last one counts, and any other name keeps its surface. -/
  found : ∀ surfaces, step.Reads (.ok surfaces) → ∀ name,
    (step.edit.on catalog).2.get? name =
      (surfaces.reverse.find? (·.name == name)).or (catalog.get? name)

/-- Only the steps that succeed count. -/
structure FilledBySuccess (catalog : Catalog) (steps : List Step) : Prop where
  /-- The steps that succeed leave the same catalog when they alone are made. -/
  same : catalog.fill (catalog.succeeding steps) = catalog.fill steps
  /-- They succeed then, too. -/
  again : catalog.succeeding (catalog.succeeding steps) = catalog.succeeding steps
  /-- That catalog holds what they read, inserted one after another. -/
  holds : ∃ readings, List.Forall₂ (fun (step : Step) surfaces => step.Reads (.ok surfaces))
    (catalog.succeeding steps) readings ∧
      catalog.fill steps = readings.flatten.foldl insert catalog

/-- Loading is all or nothing: what a step reads is put as a whole or not at all, so a catalog is
that of the steps that succeed; and each surface is kept under its own name. -/
theorem loading_whole :
    (∀ catalog step, AllOrNothing catalog step) ∧
    (∀ catalog steps, FilledBySuccess catalog steps) ∧
    ∀ steps, ∀ entry ∈ (Catalog.empty.fill steps).types.entries, entry.1 = entry.2.name := by
  refine ⟨fun catalog step => ?_, fun catalog steps => ?_, fun steps entry member => ?_⟩
  · have put := step.edit_puts catalog
    refine ⟨⟨step.read, Step.reads_iff.mpr rfl, fun other read => (Step.reads_iff.mp read).symm⟩,
      fun error failed => ?_, fun surfaces ok => ?_, fun surfaces ok name => ?_⟩
    · rw [put, Step.reads_iff.mp failed]
    · rw [put, Step.reads_iff.mp ok]
      rfl
    · rw [put, Step.reads_iff.mp ok]
      exact get_insertAll catalog surfaces name
  · refine ⟨?_, ?_, ?_⟩
    · rw [fill_eq, fill_eq, readBy_succeeding]
    · rw [succeeding_eq, succeeding_eq, List.filter_filter]
      simp only [Bool.and_self]
    · obtain ⟨readings, reads, all⟩ := catalog.readBy_reads steps
      exact ⟨readings, reads, all ▸ fill_eq steps⟩
  · have keyed := empty_keyedByName.fill steps
    exact (keyed entry.1 entry.2 (Keyed.get_eq_some_iff.mpr member)).symm

end DomainFactory.Catalog
