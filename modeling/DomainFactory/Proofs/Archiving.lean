import DomainFactory.Catalog
import DomainFactory.Proofs.Flags
import DomainFactory.Proofs.Restoring

/-!
# Plans and catalogs that are stored

Whatever a plan holds, generated or not, is read back from its JSON as it was: its methods with
their bodies and bindings, its checks with every bit of their masks, and its diagnostics. So are
surfaces and catalogs.
-/
namespace DomainFactory

open Json

/-- Kinds are restored. -/
@[simp] theorem Kind.restored (kind : Kind) : Restored kind :=
  named_found (by decide) (mem_all kind)

/-- Roles of parameters are restored. -/
@[simp] theorem Role.restored (role : Role) : Restored role :=
  named_found (by decide) (by cases role <;> decide)

/-- Return shapes are restored. -/
@[simp] theorem ReturnShape.restored (shape : ReturnShape) : Restored shape :=
  named_found (by decide) (by cases shape <;> decide)

/-- Roles of methods are restored. -/
@[simp] theorem MethodRole.restored (role : MethodRole) : Restored role :=
  named_found (by decide) (by cases role <;> decide)

/-- Constructions are restored. -/
@[simp] theorem Construction.restored (construction : Construction) : Restored construction :=
  named_found (by decide) (by cases construction <;> decide)

/-- Problems are restored. -/
@[simp] theorem Problem.restored (problem : Problem) : Restored problem :=
  named_found (by decide) (by cases problem <;> decide)

/-- The names of governed operations can be read back. -/
theorem Mask.names_readable : Mask.names.Readable :=
  ⟨by decide, by decide, by decide, by decide⟩

/-- Masks are restored, bits without a name included. -/
@[simp] theorem Mask.restored (mask : Mask) : Restored mask := by
  have read : names.read? mask.text = some mask.bits.toNat :=
    FlagNames.read_write names_readable mask.bits.toNat_lt
  change (names.read? mask.text).map (fun bits => (⟨.ofNat bits⟩ : Mask)) = some mask
  rw [read, Option.map_some, UInt32.ofNat_toNat]

/-- Bits without a name stand as one number behind the names. -/
example : (⟨0x30082⟩ : Mask).text = "FETCH | WRITE | 0x30000" := by cbv

/-- The names of call paths can be read back. -/
theorem Paths.names_readable : Paths.names.Readable :=
  ⟨by decide, by decide, by decide, by decide⟩

/-- Sets of call paths are restored, bits without a name included. -/
@[simp] theorem Paths.restored (paths : Paths) : Restored paths := by
  have read : names.read? paths.text = some paths.bits.toNat :=
    FlagNames.read_write names_readable paths.bits.toNat_lt
  change (names.read? paths.text).map (fun bits => (⟨.ofNat bits⟩ : Paths)) = some paths
  rw [read, Option.map_some, UInt8.ofNat_toNat]

/-- Parameters are restored. -/
@[simp] theorem Parameter.restored (parameter : Parameter) : Restored parameter :=
  restored_record rfl (by decide) (by simp)

/-- Operations are restored. -/
@[simp] theorem Operation.restored (operation : Operation) : Restored operation :=
  restored_record rfl (by decide) (by simp)

/-- Checks are restored. -/
@[simp] theorem Check.restored (check : Check) : Restored check :=
  restored_record rfl (by decide) (by simp)

/-- Sources of arguments are restored. -/
@[simp] theorem ArgumentSource.restored (source : ArgumentSource) : Restored source := by
  cases source with
  | target => rfl
  | parameter position => exact (restored_nat position).map parameter

/-- Bindings are restored. -/
@[simp] theorem Binding.restored (binding : Binding) : Restored binding :=
  restored_record rfl (by decide) (by simp)

/-- Bodies of methods are restored. -/
@[simp] theorem MethodBody.restored (body : MethodBody) : Restored body := by
  cases body with
  | run operation bindings => exact restored_record rfl (by decide) (by simp)
  | save insert update delete tryName => exact restored_record rfl (by decide) (by simp)
  | probe wraps operation bindings => exact restored_record rfl (by decide) (by simp)

/-- Planned methods are restored. -/
@[simp] theorem PlannedMethod.restored (method : PlannedMethod) : Restored method :=
  restored_record rfl (by decide) (by simp)

/-- Dispatch entries are restored. -/
@[simp] theorem DispatchEntry.restored (entry : DispatchEntry) : Restored entry :=
  restored_record rfl (by decide) (by simp)

/-- Diagnostics are restored. -/
@[simp] theorem Diagnostic.restored (diagnostic : Diagnostic) : Restored diagnostic :=
  restored_record rfl (by decide) (by simp)

/-- Plans are restored. -/
theorem Plan.restored (plan : Plan) : Restored plan :=
  restored_record rfl (by decide) (by simp)

/-- Surfaces are restored. -/
@[simp] theorem Surface.restored (surface : Surface) : Restored surface :=
  restored_record rfl (by decide) (by simp)

/-- Maps of surfaces are restored. -/
theorem Surface.restored_types (types : Keyed Surface) : Restored types :=
  restored_keyed fun entry _ => Surface.restored entry.2

/-- Catalogs are restored. -/
theorem Catalog.restored (catalog : Catalog) : Restored catalog := by
  have types : decode (encode catalog.types) = some catalog.types :=
    Surface.restored_types catalog.types
  change (decode (encode catalog.types)).bind Catalog.ofTypes? = some catalog
  rw [types, Option.bind_some, Catalog.ofTypes?, dif_pos catalog.named]

/-- Every plan, whether it was generated or not, is read back from its JSON as it was, and so are
every catalog, every map of surfaces, be it a catalog or not, and every surface. -/
theorem plans_restored :
    (∀ plan : Plan, decode (encode plan) = some plan) ∧
      (∀ catalog : Catalog, decode (encode catalog) = some catalog) ∧
      (∀ types : Keyed Surface, decode (encode types) = some types) ∧
      ∀ surface : Surface, decode (encode surface) = some surface :=
  ⟨Plan.restored, Catalog.restored, Surface.restored_types, Surface.restored⟩

end DomainFactory
