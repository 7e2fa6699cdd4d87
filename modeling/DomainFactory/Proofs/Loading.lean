import DomainFactory.Catalog

/-!
# Loading declarations

An edit that loads declarations reads all of them before it changes the catalog: a text that cannot
be read, a trait that is malformed or a name that is no identifier stops it while the catalog is
still as it was. So an edit is known by what it reads: nothing is put, or all of it in order.
-/
namespace DomainFactory.Catalog

/-- The surfaces of a JSON list, when the names that they mention are identifiers. -/
def listed (text : String) : Except SurfaceError (List Surface) :=
  match (Json.read? text).bind Json.decode with
  | none => .error .badJson
  | some surfaces => do
    surfaces.forM checkNames
    return surfaces

namespace Edit

variable {α β : Type}

/-- An edit behind another one sees the catalog that the first leaves, and is not made when the
first fails. -/
theorem on_bind (edit : Edit α) (next : α → Edit β) (catalog : Catalog) :
    (edit >>= next).on catalog =
      match edit.on catalog with
      | (.ok value, later) => (next value).on later
      | (.error error, later) => (.error error, later) := by
  change (match edit.on catalog with | (result, later) => (ExceptT.bindCont next result).run later)
    = _
  rcases edit.on catalog with ⟨_ | _, later⟩ <;> rfl

/-- A known result leaves the catalog as it is. -/
@[simp] theorem on_liftExcept (result : Except SurfaceError α) (catalog : Catalog) :
    on (liftExcept result) catalog = (result, catalog) := by
  cases result <;> rfl

/-- Surfaces are put in order, and counted. -/
@[simp] theorem on_putAll (surfaces : List Surface) (catalog : Catalog) :
    (putAll surfaces).on catalog = (.ok surfaces.length, catalog.insertAll surfaces) := by
  have puts : on (surfaces.forM fun surface => discard (put surface)) catalog =
      (.ok (), catalog.insertAll surfaces) := by
    induction surfaces generalizing catalog with
    | nil => rfl
    | cons surface surfaces ih =>
      change on (discard (put surface) >>= fun _ => _) catalog = _
      rw [on_bind]
      exact ih (catalog.insert surface)
  unfold putAll
  rw [on_bind, puts]
  rfl

/-- Looking at names leaves the catalog as it is. -/
theorem on_checkNames (surfaces : List Surface) (catalog : Catalog) :
    on (surfaces.forM fun surface => liftExcept (checkNames surface)) catalog =
      (surfaces.forM checkNames, catalog) := by
  induction surfaces with
  | nil => rfl
  | cons surface surfaces ih =>
    change on (liftExcept (checkNames surface) >>= fun _ => _) catalog =
      (checkNames surface >>= fun _ => surfaces.forM checkNames, catalog)
    rw [on_bind, on_liftExcept]
    cases checkNames surface with
    | error error => rfl
    | ok => exact ih

/-- An edit that puts what it reads, all or nothing. -/
def Puts (edit : Edit Nat) (read : Except SurfaceError (List Surface)) : Prop :=
  ∀ catalog, edit.on catalog =
    match read with
    | .ok surfaces => (.ok surfaces.length, catalog.insertAll surfaces)
    | .error error => (.error error, catalog)

/-- Source text is read before its traits are put. -/
theorem source_puts (config : Config) (text : String) :
    (source config text).Puts (Surface.parseFile config text) := by
  intro catalog
  unfold source
  rw [on_bind, on_liftExcept]
  cases Surface.parseFile config text with
  | error error => rfl
  | ok surfaces => exact on_putAll surfaces catalog

/-- A JSON list is read and its names are looked at before its surfaces are put. -/
theorem json_puts (text : String) : (json text).Puts (listed text) := by
  intro catalog
  unfold json listed
  cases ((Json.read? text).bind Json.decode : Option (List Surface)) with
  | none => rfl
  | some surfaces =>
    dsimp only
    rw [on_bind, on_checkNames]
    cases surfaces.forM checkNames with
    | error error => rfl
    | ok => exact on_putAll surfaces catalog

/-- When an edit that puts what it reads does not fail, it has read something, and put that. -/
theorem Puts.onSuccess_eq_ok {edit : Edit Nat} {read : Except SurfaceError (List Surface)}
    (puts : edit.Puts read) {catalog later : Catalog} {count : Nat}
    (made : edit.onSuccess catalog = .ok (later, count)) :
    ∃ surfaces, read = .ok surfaces ∧ later = catalog.insertAll surfaces ∧
      count = surfaces.length := by
  unfold onSuccess at made
  rw [puts catalog] at made
  cases read with
  | error error => cases made
  | ok surfaces =>
    cases made
    exact ⟨surfaces, rfl, rfl, rfl⟩

end Edit

end DomainFactory.Catalog
