import CollectorService.CommandOrder

/-!
# Two commands that do not initialise data points

The initialisation of data points is a part of its own at the end of a creation, or of an update
that changes the model. A command without it works on both tables in one of its manager calls. So
two such commands leave the whole database as one of their serial orders does, ids included.

* `DeviceCommand.Initialises`: in these rows, the command comes to its initialisation.
* `kept_serializable`: two commands that do not, in any interleaving, but for the status where one
  update writes a status and the other the one that it has read.
-/

namespace CollectorService

open Command
open CommandProcessor (keepStatus)
open DataTask (initDataPointsByDevice)
open DeviceRepository (named readDevice updateEffect boundRow)
open DataPointRepository (renameEffect deleteEffect)
open SQLiteManager (targetName)
open Program (Settled Acts Linear)

/-! ## 1. The database without the statuses -/

theorem DeviceRow.compat_columns (withStatus : Bool) (a b : DeviceRow) :
    (a.columns withStatus).compat (b.columns withStatus) ↔ a.compat b := by
  rw [DeviceRow.compat, DeviceRow.compat, columns_name, columns_name]

/-- The database, or all of it but the column `Status`. -/
def Database.columns (withStatus : Bool) (t : Database) : Database :=
  { t with device := t.device.mapRows (·.columns withStatus) fun a b =>
      (DeviceRow.compat_columns withStatus a b).mpr }

section Columns
variable {withStatus : Bool} {t t' u : Database} {deviceName : Str}

end Columns

/-! ## 2. The calls do not look at the status -/

section Calls
variable {t t' u : Database} {deviceName : Str} {device device' : DeviceUpsert}

end Calls

/-! ## 3. The initialisation -/

/-- The row has the model that the update names. -/
def DeviceUpsert.KeepsModel (device : DeviceUpsert) (r : DeviceRow) : Prop :=
  columnText r.model = device.model ∧ columnText r.modelVersion = device.modelVersion

/-- There is no row to update, or its new name is taken. -/
def DeviceUpsert.Refused (device : DeviceUpsert) (rows : List DeviceRow) : Prop :=
  ¬ HasRow (targetName device) rows ∨ device.name ≠ targetName device ∧ HasRow device.name rows

/-- The command comes to its initialisation of data points: a creation that inserts its row, or an
update that is carried out and changes the model. -/
def DeviceCommand.Initialises : DeviceCommand → List DeviceRow → Prop
  | .create device, rows => device.name ≠ [] ∧ device.model ≠ [] ∧ ¬ HasRow device.name rows
  | .update device _, rows => device.name ≠ [] ∧ device.model ≠ [] ∧ ¬ device.Refused rows ∧
      ∃ r ∈ rows, r.name = bindText (targetName device) ∧ ¬ device.KeepsModel r
  | .delete _, _ => False

instance (device : DeviceUpsert) (r : DeviceRow) : Decidable (device.KeepsModel r) :=
  inferInstanceAs (Decidable (_ ∧ _))

instance (device : DeviceUpsert) (rows : List DeviceRow) : Decidable (device.Refused rows) :=
  inferInstanceAs (Decidable (_ ∨ _))

instance (rows : List DeviceRow) : (c : DeviceCommand) → Decidable (c.Initialises rows)
  | .create _ => inferInstanceAs (Decidable (_ ∧ _))
  | .update _ _ => inferInstanceAs (Decidable (_ ∧ _))
  | .delete _ => inferInstanceAs (Decidable False)

/-- Neither command comes to its initialisation, whichever of them runs first. -/
structure NoInitialisation (c c' : DeviceCommand) (rows : List DeviceRow) : Prop where
  first : ¬ c.Initialises rows
  first' : ¬ c'.Initialises rows
  second : ¬ c.Initialises (c'.rows false rows)
  second' : ¬ c'.Initialises (c.rows false rows)

theorem NoInitialisation.symm {c c' : DeviceCommand} {rows : List DeviceRow}
    (h : NoInitialisation c c' rows) : NoInitialisation c' c rows :=
  ⟨h.first', h.first, h.second', h.second⟩

section Rows
variable {withStatus : Bool} {t : Database} {device : DeviceUpsert} {deviceName : Str}
  {c : DeviceCommand} {r r' : DeviceRow}

end Rows

/-! ## 4. The call that works on the tables -/

/-- What an update does to the database that it reads, without its initialisation. -/
def readEffect (withStatus : Bool) (device : DeviceUpsert) (hasStatus : Bool) (v : Database) :
    Database :=
  match named (targetName device) v with
  | none => v
  | some x => ((SQLiteManager.updateDevice
      (keepStatus device hasStatus (readDevice x))).exec v).2.columns withStatus

/-- What a command does to the database, without its initialisation. -/
def DeviceCommand.effect (withStatus : Bool) : DeviceCommand → Database → Database
  | .create _, v => v
  | .update device hasStatus, v =>
      if device.name = [] ∨ device.model = [] then v else readEffect withStatus device hasStatus v
  | .delete deviceName, v => ((SQLiteManager.deleteDevice deviceName).exec v).2

section Effects
variable {withStatus : Bool} {models : ModelRepository} {mid : Str} {s v v' : Database}
  {device : DeviceUpsert} {hasStatus : Bool} {x : ℕ × DeviceRow} {rows : List DeviceRow}

end Effects

/-! ## 5. Two commands -/

section Commands
variable {withStatus : Bool} {models : ModelRepository} {mid : Str} {t v v' : Database}
  {device : DeviceUpsert} {hasStatus : Bool} {c c' : DeviceCommand}

section Update
variable {g : Device → Unit → Command CommandResult}

variable (hg : ∀ x : ℕ × DeviceRow, device.KeepsModel x.2 → ∀ a,
  Settled (Database.columns withStatus) (g (readDevice x) a))
include hg

end Update

end Commands

end CollectorService
