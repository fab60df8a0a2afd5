import CollectorService.Database
import CollectorService.Ranking
import Mathlib.Data.Prod.Lex

/-!
# Repositories and the manager

The SQL statements of the repositories as effects on the tables, and the operations that
`SQLiteManager` offers to the commands, each under the mutex of its connection.

The last section gives each operation its outcome on a healthy connection (`exec_*`). What a device
command reads and writes is stated through these outcomes only.
-/

namespace CollectorService

/-! ## 1. Devices -/

namespace DeviceRepository

/-- `FROM Device WHERE Name = ? LIMIT 1`. -/
def named (deviceName : Str) (t : Database) : Option (ℕ × DeviceRow) :=
  t.device.rows.find? fun x => x.2.name = bindText deviceName

theorem named_eq_some {deviceName : Str} {t : Database} {x : ℕ × DeviceRow} :
    named deviceName t = some x ↔ x ∈ t.device.rows ∧ x.2.name = bindText deviceName := by
  constructor
  · intro h
    exact ⟨List.mem_of_find?_eq_some h, by simpa using List.find?_some h⟩
  · rintro ⟨hx, hname⟩
    cases h : named deviceName t with
    | none =>
      have hnot := List.find?_eq_none.mp h x hx
      exact absurd hname (by simpa using hnot)
    | some y =>
      have hy : y ∈ t.device.rows := List.mem_of_find?_eq_some h
      have hyname : y.2.name = bindText deviceName := by simpa using List.find?_some h
      by_contra hne
      exact AutoTable.compat_of_ne hy hx (fun heq => hne (congrArg some heq))
        (hyname.trans hname.symm)

theorem named_eq_none {deviceName : Str} {t : Database} :
    named deviceName t = none ↔ ∀ x ∈ t.device.rows, x.2.name ≠ bindText deviceName := by
  simp [named]

def readDevice (x : ℕ × DeviceRow) : Device where
  id := columnInt (some x.1)
  name := columnText (some x.2.name)
  ip := columnText x.2.ipAddr
  port := columnInt x.2.port
  sampleIntervalMs := columnInt x.2.sampleInterval
  status := columnInt (some x.2.status)
  model := columnText x.2.model
  modelVersion := columnText x.2.modelVersion
  driverPath := columnText x.2.driverPath

theorem name_of_named {name : SqlText} {t : Database} {x : ℕ × DeviceRow}
    (h : named name.bytes t = some x) : (readDevice x).name = name.bytes := by
  simp [readDevice, columnText, (named_eq_some.mp h).2]

/-- The column values that `create` and `update` bind. -/
def boundRow (device : DeviceUpsert) : DeviceRow where
  name := bindText device.name
  ipAddr := some (bindText device.ip)
  port := some device.port
  sampleInterval := some device.sampleIntervalMs
  status := device.status
  model := some (bindText device.model)
  modelVersion := some (bindText device.modelVersion)
  driverPath := some (bindText device.driverPath)

/-- `exists`. -/
def existsByName (deviceName : Str) : Sql Bool := do
  prepare
  return (← firstRow (named deviceName)).isSome

def getByName (deviceName : Str) : Sql Device := do
  prepare
  match ← firstRow (named deviceName) with
  | some x => return readDevice x
  | none => Sql.throw (lit "device not found: " ++ deviceName)

/-- `INSERT INTO Device`. -/
def createEffect (device : DeviceUpsert) (t : Database) : Except Str Database :=
  match t.device.insert? (boundRow device) with
  | some u => .ok { t with device := u }
  | none => .error (lit "UNIQUE constraint failed: Device.Name")

def create (device : DeviceUpsert) : Sql Unit := do
  prepare
  stepDone (createEffect device)

/-- `UPDATE Device SET ... WHERE Name = ?`. -/
def updateEffect (device : DeviceUpsert) (targetName : Str) (t : Database) :
    Except Str Database :=
  match t.device.update? (fun r => r.name = bindText targetName) fun _ => boundRow device with
  | some u => .ok { t with device := u }
  | none => .error (lit "UNIQUE constraint failed: Device.Name")

def update (device : DeviceUpsert) (targetName : Str) : Sql Unit := do
  prepare
  stepDone (updateEffect device targetName)

/-- `DELETE FROM Device WHERE Name = ?`. -/
def removeEffect (deviceName : Str) (t : Database) : Database :=
  { t with device := t.device.deleteWhere fun x => x.2.name = bindText deviceName }

def remove (deviceName : Str) : Sql Unit := do
  prepare
  stepDone fun t => .ok (removeEffect deviceName t)

def getAll : Sql (List Device) := do
  prepare
  return (← allRows (·.device.rows)).map readDevice

end DeviceRepository

/-! ## 2. Data points -/

namespace DataPointRepository

/-- `DELETE FROM DataPoint WHERE DName = ?`. -/
def deleteEffect (deviceName : Str) (t : Database) : Database :=
  { t with dataPoint := t.dataPoint.deleteWhere fun x => x.2.dName = some (bindText deviceName) }

def deleteByDeviceName (deviceName : Str) : Sql Unit := do
  prepare
  stepDone fun t => .ok (deleteEffect deviceName t)

/-- `UPDATE DataPoint SET DName = ? WHERE DName = ?`. -/
def renameEffect (oldName newName : Str) (t : Database) : Except Str Database :=
  match t.dataPoint.update? (fun r => r.dName = some (bindText oldName))
      fun r => { r with dName := some (bindText newName) } with
  | some u => .ok { t with dataPoint := u }
  | none => .error (lit "UNIQUE constraint failed: DataPoint.DName, DataPoint.NamePath")

def renameDevice (oldName newName : Str) : Sql Unit := do
  prepare
  stepDone (renameEffect oldName newName)

/-- The column values that `replaceForDevice` binds. -/
def boundRow (device : Device) (point : DataPoint) : DataPointRow where
  did := some device.id
  dName := some (bindText device.name)
  namePath := some (bindText point.namePath)
  itemPath := some (bindText point.itemPath)
  itemName := some (bindText point.itemName)
  itemDescription := some (bindText point.itemDescription)

/-- `INSERT INTO DataPoint`. -/
def insertEffect (device : Device) (point : DataPoint) (t : Database) : Except Str Database :=
  match t.dataPoint.insert? (boundRow device point) with
  | some u => .ok { t with dataPoint := u }
  | none => .error (lit "UNIQUE constraint failed: DataPoint.DName, DataPoint.NamePath")

def replaceForDevice (device : Device) (points : List DataPoint) : Sql Unit := do
  deleteByDeviceName device.name
  prepare
  stepEach (insertEffect device) points

def readPoint (x : ℕ × DataPointRow) : DataPoint where
  id := columnInt (some x.1)
  deviceId := columnInt x.2.did
  deviceName := columnText x.2.dName
  namePath := columnText x.2.namePath
  itemPath := columnText x.2.itemPath
  itemName := columnText x.2.itemName
  itemDescription := columnText x.2.itemDescription

def getByDeviceName (deviceName : Str) : Sql (List DataPoint) := do
  prepare
  let rows ← allRows fun t => t.dataPoint.select fun r => r.dName = some (bindText deviceName)
  return rows.map readPoint

section Stored
variable {device : Device} {points : List DataPoint} {t : Database} {u : DataPointTable}

/-- Points replace those of their own device exactly when their paths are distinct. -/
theorem insertAll?_boundRow_isSome (device : Device) (points : List DataPoint) (t : Database) :
    (∃ u, (deleteEffect device.name t).dataPoint.insertAll? (points.map (boundRow device)) = some u) ↔
    (points.map fun point => bindText point.namePath).Nodup := by
  have hcompat : ∀ a b : DataPoint, DataPointRow.compat (boundRow device a) (boundRow device b) ↔
      bindText a.namePath ≠ bindText b.namePath := by
    intro a b
    simp [DataPointRow.compat, boundRow]
  constructor
  · rintro ⟨u, hu⟩
    have hpair := (AutoTable.insertAll?_compat hu).2
    rw [List.pairwise_map] at hpair
    rw [List.Nodup, List.pairwise_map]
    exact hpair.imp fun {a b} hab => (hcompat a b).mp hab
  · intro hnodup
    rw [List.Nodup, List.pairwise_map] at hnodup
    refine AutoTable.insertAll?_isSome (fun y hy r hr => ?_) ?_
    · obtain ⟨point, -, rfl⟩ := List.mem_map.mp hr
      have hname := (AutoTable.mem_deleteWhere.mp hy).2
      rw [decide_eq_false_iff_not] at hname
      exact .inr (.inr (.inl hname))
    · rw [List.pairwise_map]
      exact hnodup.imp fun {a b} hab => (hcompat a b).mpr hab

/-- After a replacement the rows of the device are those of the points, in their order. -/
theorem select_insertAll?_boundRow
    (hu : (deleteEffect device.name t).dataPoint.insertAll? (points.map (boundRow device)) = some u) :
    (u.select fun r => r.dName = some (bindText device.name)).map (·.2) =
      points.map (boundRow device) := by
  obtain ⟨new, hselect, hnew⟩ := AutoTable.select_insertAll?
    (q := fun r => r.dName = some (bindText device.name)) hu
  have hold : (deleteEffect device.name t).dataPoint.select
      (fun r => r.dName = some (bindText device.name)) = [] := by
    rw [deleteEffect, AutoTable.select_deleteWhere, List.filter_eq_nil_iff]
    intro y hy
    simp [of_decide_eq_true (AutoTable.mem_select.mp hy).2]
  rw [hselect, hold, List.nil_append, hnew, List.filter_eq_self]
  intro r hr
  obtain ⟨point, -, rfl⟩ := List.mem_map.mp hr
  exact decide_eq_true rfl

end Stored

end DataPointRepository

/-! ## 3. Resources -/

namespace ResourceRepository

/-- The column values that `insert` binds. -/
def boundRow (record : ResourceRecord) : ResourceRow where
  deviceName := some (bindText record.deviceName)
  dataItemNamePath := some (bindText record.dataItemNamePath)
  data := some (bindText record.data)
  devTime := bindDouble record.devTime
  svrTime := bindDouble record.svrTime
  dataItemPath := some (bindText record.dataItemPath)
  dataItemName := some (bindText record.dataItemName)
  dataItemDescription := some (bindText record.dataItemDescription)

/-- `INSERT INTO Resources`. -/
def insertEffect (record : ResourceRecord) (t : Database) : Except Str Database :=
  match t.resources.insert? (boundRow record) with
  | some u => .ok { t with resources := u }
  | none => .error (lit "constraint failed")

def insert (records : List ResourceRecord) : Sql Unit := do
  prepare
  stepEach insertEffect records

/-- `ORDER BY SvrTime DESC, Id DESC` is the descending order of this key. -/
def rankKey (x : ℕ × ResourceRow) : Lex (SqlReal × ℕ) := toLex (x.2.svrTime, x.1)

/-- `FROM Resources WHERE DeviceName = ?`. -/
def ofDevice (deviceName : Str) (t : Database) : List (ℕ × ResourceRow) :=
  t.resources.select fun r => r.deviceName = some (bindText deviceName)

def readRecord (x : ℕ × ResourceRow) : ResourceRecord where
  deviceName := columnText x.2.deviceName
  dataItemNamePath := columnText x.2.dataItemNamePath
  data := columnText x.2.data
  devTime := columnDouble x.2.devTime
  svrTime := columnDouble x.2.svrTime
  dataItemPath := columnText x.2.dataItemPath
  dataItemName := columnText x.2.dataItemName
  dataItemDescription := columnText x.2.dataItemDescription

def getLatest (deviceName : Str) : Sql (List ResourceRecord) := do
  prepare
  let rows ← allRows fun t => Ranking.top rankKey 100 (ofDevice deviceName t)
  return rows.map readRecord

end ResourceRepository

namespace ResourceRetentionService

open ResourceRepository (rankKey ofDevice)

/-- The rows of a partition whose `ROW_NUMBER()` exceeds `maxRows`. -/
def rowsBeyond (maxRows : ℤ) (partition : List (ℕ × ResourceRow)) : List (ℕ × ResourceRow) :=
  (Ranking.ranked rankKey partition).drop maxRows.toNat

/-- `DELETE FROM Resources WHERE Id IN (...)`, partitioned by `DeviceName`. -/
def cleanupEffect (maxRows : ℤ) (t : Database) : Database :=
  let beyond := t.resources.rows.filter fun x =>
    x ∈ rowsBeyond maxRows (t.resources.select fun r => r.deviceName = x.2.deviceName)
  { t with resources := t.resources.deleteWhere fun x => x.1 ∈ beyond.map (·.1) }

/-- `DELETE FROM Resources WHERE Id IN (...)`, for one device. -/
def cleanupDeviceEffect (deviceName : Str) (maxRows : ℤ) (t : Database) : Database :=
  let beyond := rowsBeyond maxRows (ofDevice deviceName t)
  { t with resources := t.resources.deleteWhere fun x => x.1 ∈ beyond.map (·.1) }

def cleanupResources (maxRowsPerDevice : ℤ) : Sql Unit :=
  if maxRowsPerDevice ≤ 0 then return ()
  else do
    prepare
    stepDone fun t => .ok (cleanupEffect maxRowsPerDevice t)

def cleanupResourcesForDevice (deviceName : Str) (maxRows : ℤ) : Sql Unit :=
  if maxRows ≤ 0 ∨ deviceName = [] then return ()
  else do
    prepare
    stepDone fun t => .ok (cleanupDeviceEffect deviceName maxRows t)

end ResourceRetentionService

/-! ## 4. The manager -/

namespace SQLiteManager

def deviceExists (deviceName : Str) : Sql Bool := DeviceRepository.existsByName deviceName

def getDeviceByName (deviceName : Str) : Sql Device := DeviceRepository.getByName deviceName

def createDevice (device : DeviceUpsert) : Sql Unit := do
  if ← DeviceRepository.existsByName device.name then
    Sql.throw (lit "device already exists: " ++ device.name)
  DeviceRepository.create device

/-- The name whose row `updateDevice` updates. -/
def targetName (device : DeviceUpsert) : Str :=
  if device.oldName ≠ [] then device.oldName else device.name

def updateDevice (device : DeviceUpsert) : Sql Unit := do
  let target := targetName device
  let existing ← DeviceRepository.getByName target
  if device.name ≠ target then
    if ← DeviceRepository.existsByName device.name then
      Sql.throw (lit "device already exists: " ++ device.name)
  -- no transaction spans the statements below
  DeviceRepository.update device target
  if device.name ≠ target then
    DataPointRepository.renameDevice target device.name
  if existing.model ≠ device.model ∨ existing.modelVersion ≠ device.modelVersion then
    DataPointRepository.deleteByDeviceName device.name

def deleteDevice (deviceName : Str) : Sql Unit := do
  if !(← DeviceRepository.existsByName deviceName) then
    Sql.throw (lit "device not found: " ++ deviceName)
  withTransaction do
    DataPointRepository.deleteByDeviceName deviceName
    DeviceRepository.remove deviceName

def replaceDataPointsForDevice (device : Device) (points : List DataPoint) : Sql Unit :=
  withTransaction (DataPointRepository.replaceForDevice device points)

def getDevices : Sql (List Device) := DeviceRepository.getAll

def getDataPointsByDeviceName (deviceName : Str) : Sql (List DataPoint) :=
  DataPointRepository.getByDeviceName deviceName

def insertResources (records : List ResourceRecord) : Sql Unit :=
  withTransaction (ResourceRepository.insert records)

def getLatestResources (deviceName : Str) : Sql (List ResourceRecord) :=
  ResourceRepository.getLatest deviceName

def cleanupResources (maxRowsPerDevice : ℤ) : Sql Unit :=
  withTransaction (ResourceRetentionService.cleanupResources maxRowsPerDevice)

def cleanupResourcesForDevice (deviceName : Str) (maxRows : ℤ) : Sql Unit :=
  withTransaction (ResourceRetentionService.cleanupResourcesForDevice deviceName maxRows)

/-! ## 5. What the statements do -/

section Effects
open DeviceRepository (named updateEffect)
open DataPointRepository (renameEffect)

variable {device : DeviceUpsert} {x : ℕ × DeviceRow}

theorem updateEffect_error {t : Database} {target : Str} (hx : named target t = some x) :
    (∃ e, updateEffect device target t = .error e) ↔
      ∃ y ∈ t.device.rows, y.2.name = bindText device.name ∧ y ≠ x := by
  have hnone : (∃ e, updateEffect device target t = .error e) ↔
      t.device.update? (fun r => r.name = bindText target)
        (fun _ => DeviceRepository.boundRow device) = none := by
    unfold updateEffect
    split
    · next h => simp [h]
    · next h => simp [h]
  obtain ⟨hmem, hname⟩ := DeviceRepository.named_eq_some.mp hx
  have honly : ∀ y ∈ t.device.rows, y.2.name = bindText target → y = x := fun y hy hyname =>
    Option.some.inj ((DeviceRepository.named_eq_some.mpr ⟨hy, hyname⟩).symm.trans hx)
  rw [hnone, AutoTable.update?_eq_none]
  simp only [AutoTable.updateRow, decide_eq_true_eq, DeviceRow.compat]
  constructor
  · rintro ⟨a, ha, b, hb, hne, hbad⟩
    have hcompat : a.2.name ≠ b.2.name := AutoTable.compat_of_ne ha hb hne
    by_cases haold : a.2.name = bindText target
    · exact ⟨b, hb, by grind [DeviceRepository.boundRow], by grind⟩
    · exact ⟨a, ha, by grind [DeviceRepository.boundRow], by grind⟩
  · rintro ⟨y, hy, hyname, hne⟩
    have hyold : y.2.name ≠ bindText target := fun h => hne (honly y hy h)
    refine ⟨x, hmem, y, hy, hne.symm, ?_⟩
    rw [if_pos hname, if_neg hyold]
    exact fun h => h hyname.symm

/-- The statement passes when the new name is the old one, or free. -/
theorem exists_updateEffect {t : Database} {target : Str} (hx : named target t = some x)
    (hfree : device.name = target ∨ named device.name t = none) :
    ∃ u, updateEffect device target t = .ok u := by
  cases hu : updateEffect device target t with
  | ok u => exact ⟨u, rfl⟩
  | error e =>
    obtain ⟨y, hy, hyname, hne⟩ := (updateEffect_error hx).mp ⟨e, hu⟩
    rcases hfree with hsame | hnone
    · rw [hsame] at hyname
      have hfound := hx.symm.trans (DeviceRepository.named_eq_some.mpr ⟨hy, hyname⟩)
      exact absurd (Option.some.inj hfound).symm hne
    · exact absurd hyname (DeviceRepository.named_eq_none.mp hnone y hy)

/-- The row that the statement leaves. -/
theorem named_updateEffect {t u : Database} {target : Str} (hx : named target t = some x)
    (h : updateEffect device target t = .ok u) :
    named device.name u = some (x.1, DeviceRepository.boundRow device) := by
  obtain ⟨hmem, hname⟩ := DeviceRepository.named_eq_some.mp hx
  unfold updateEffect at h
  split at h
  · next v hv =>
    cases h
    obtain ⟨-, hrows, -⟩ := AutoTable.update?_eq_some.mp hv
    refine DeviceRepository.named_eq_some.mpr ⟨?_, rfl⟩
    rw [hrows]
    refine List.mem_map.mpr ⟨x, hmem, ?_⟩
    rw [AutoTable.updateRow, if_pos (decide_eq_true hname)]
  · cases h

theorem updateEffect_dataPoint {t u : Database} {target : Str}
    (h : updateEffect device target t = .ok u) : u.dataPoint = t.dataPoint := by
  unfold updateEffect at h
  split at h <;> cases h
  rfl

theorem updateEffect_ok {t u : Database} {target : Str} (hx : named target t = some x)
    (h : updateEffect device target t = .ok u) :
    (u.device = t.device ↔ DeviceRepository.boundRow device = x.2) ∧
      (u.device = t.device → u = t) := by
  unfold updateEffect at h
  split at h
  · next v hv =>
    cases h
    obtain ⟨hmem, hname⟩ := DeviceRepository.named_eq_some.mp hx
    obtain ⟨-, hrows, hseq⟩ := AutoTable.update?_eq_some.mp hv
    refine ⟨⟨fun hsame => ?_, fun hrow => ?_⟩, fun hsame => by cases t; cases hsame; rfl⟩
    · have hnew : (x.1, DeviceRepository.boundRow device) ∈ v.rows := by
        rw [hrows]
        refine List.mem_map.mpr ⟨x, hmem, ?_⟩
        simp [AutoTable.updateRow, hname]
      have hold : (x.1, DeviceRepository.boundRow device) ∈ t.device.rows := hsame ▸ hnew
      exact congrArg Prod.snd (AutoTable.eq_of_id_eq hold hmem rfl)
    · refine AutoTable.ext ?_ hseq
      rw [hrows]
      refine (List.map_congr_left fun y hy => ?_).trans (List.map_id _)
      by_cases hyname : y.2.name = bindText target
      · have hyx : y = x :=
          Option.some.inj ((DeviceRepository.named_eq_some.mpr ⟨hy, hyname⟩).symm.trans hx)
        simp [AutoTable.updateRow, hrow, hyx]
      · simp [AutoTable.updateRow, hyname]
  · cases h

/-- A row under the old name and one under the new name have one path. -/
def RenameConflict (oldName newName : Str) (t : Database) : Prop :=
  bindText oldName ≠ bindText newName ∧ ∃ a ∈ t.dataPoint.rows, ∃ b ∈ t.dataPoint.rows,
    a.2.dName = some (bindText oldName) ∧ b.2.dName = some (bindText newName) ∧
      a.2.namePath ≠ none ∧ a.2.namePath = b.2.namePath

theorem renameEffect_error {oldName newName : Str} {t : Database} :
    (∃ e, renameEffect oldName newName t = .error e) ↔ RenameConflict oldName newName t := by
  have hnone : (∃ e, renameEffect oldName newName t = .error e) ↔
      t.dataPoint.update? (fun r => r.dName = some (bindText oldName))
        (fun r => { r with dName := some (bindText newName) }) = none := by
    unfold renameEffect
    split
    · next h => simp [h]
    · next h => simp [h]
  rw [hnone, AutoTable.update?_eq_none]
  constructor
  · rintro ⟨a, ha, b, hb, hne, hbad⟩
    have hcompat : DataPointRow.compat a.2 b.2 := AutoTable.compat_of_ne ha hb hne
    simp only [AutoTable.updateRow, decide_eq_true_eq] at hbad
    unfold DataPointRow.compat at hcompat hbad
    unfold RenameConflict
    by_cases haold : a.2.dName = some (bindText oldName) <;>
      by_cases hbold : b.2.dName = some (bindText oldName) <;>
      simp only [haold, hbold, if_true, if_false] at hbad
    · grind
    · exact ⟨by grind, a, ha, b, hb, haold, by grind, by grind, by grind⟩
    · exact ⟨by grind, b, hb, a, ha, hbold, by grind, by grind, by grind⟩
    · grind
  · rintro ⟨hname, a, ha, b, hb, haold, hbnew, hsome, hpath⟩
    have hne : a ≠ b := by
      rintro rfl
      rw [haold] at hbnew
      exact hname (Option.some.inj hbnew)
    have hbold : b.2.dName ≠ some (bindText oldName) := by
      rw [hbnew]
      exact fun h => hname (Option.some.inj h).symm
    refine ⟨a, ha, b, hb, hne, ?_⟩
    simp only [AutoTable.updateRow, haold, hbold, DataPointRow.compat, decide_true, decide_false]
    grind

theorem renameEffect_device {oldName newName : Str} {t u : Database}
    (h : renameEffect oldName newName t = .ok u) : u.device = t.device := by
  unfold renameEffect at h
  split at h <;> cases h
  rfl

/-- Whether the statement passes depends on the data points only. -/
theorem renameEffect_isOk {oldName newName : Str} {t t' : Database}
    (h : t'.dataPoint = t.dataPoint) :
    (renameEffect oldName newName t').isOk = (renameEffect oldName newName t).isOk := by
  unfold renameEffect
  rw [h]
  cases t.dataPoint.update? (fun r => r.dName = some (bindText oldName))
    fun r => { r with dName := some (bindText newName) } <;> rfl

/-- Renaming to a name that is the same in the database changes nothing. -/
theorem renameEffect_same {oldName newName : Str} {t u : Database}
    (hname : bindText oldName = bindText newName) (h : renameEffect oldName newName t = .ok u) :
    u = t := by
  unfold renameEffect at h
  split at h
  · next v hv =>
    cases h
    obtain ⟨-, hrows, hseq⟩ := AutoTable.update?_eq_some.mp hv
    have hmap : v.rows = t.dataPoint.rows := by
      rw [hrows]
      refine (List.map_congr_left fun y _ => ?_).trans (List.map_id _)
      obtain ⟨id, row⟩ := y
      by_cases hy : row.dName = some (bindText oldName)
      · have hsame : { row with dName := some (bindText newName) } = row := by
          rw [← hname, ← hy]
        simp [AutoTable.updateRow, hy, hsame]
      · simp [AutoTable.updateRow, hy]
    rw [AutoTable.ext hmap hseq]
  · cases h

/-- An update of one row keeps every id, and every name but the one it is about. -/
theorem updateEffect_rows {t u : Database} {target : Str} (h : updateEffect device target t = .ok u)
    {y : ℕ × DeviceRow} (hy : y ∈ t.device.rows) : ∃ z ∈ u.device.rows, z.1 = y.1 ∧
      z.2.name = if y.2.name = bindText target then bindText device.name else y.2.name := by
  unfold updateEffect at h
  split at h
  · next v hv =>
    cases h
    obtain ⟨-, hrows, -⟩ := AutoTable.update?_eq_some.mp hv
    refine ⟨_, hrows ▸ List.mem_map_of_mem hy, by simp, ?_⟩
    by_cases hname : y.2.name = bindText target
    · simp [AutoTable.updateRow, hname, DeviceRepository.boundRow]
    · simp [AutoTable.updateRow, hname]
  · cases h

/-- A rename of data points touches nothing but the name. -/
theorem renameEffect_rows {oldName newName : Str} {t u : Database}
    (h : renameEffect oldName newName t = .ok u) {r : ℕ × DataPointRow} (hr : r ∈ u.dataPoint.rows) :
    ∃ s ∈ t.dataPoint.rows, r.2.did = s.2.did ∧ r.2.dName =
      if s.2.dName = some (bindText oldName) then some (bindText newName) else s.2.dName := by
  unfold renameEffect at h
  split at h
  · next v hv =>
    cases h
    obtain ⟨-, hrows, -⟩ := AutoTable.update?_eq_some.mp hv
    obtain ⟨s, hs, rfl⟩ := List.mem_map.mp (hrows ▸ hr)
    by_cases hname : s.2.dName = some (bindText oldName)
    · exact ⟨s, hs, by simp [AutoTable.updateRow, hname], by simp [AutoTable.updateRow, hname]⟩
    · exact ⟨s, hs, by simp [AutoTable.updateRow, hname], by simp [AutoTable.updateRow, hname]⟩
  · cases h

end Effects

/-! ## 6. Outcomes on a healthy connection -/

open DeviceRepository (named readDevice updateEffect createEffect removeEffect)
open DataPointRepository (renameEffect deleteEffect insertEffect)

section Outcomes
variable {t t' : Database} {n m : ℕ} {saved : Option Database} {deviceName : Str}
  {device : DeviceUpsert}

theorem existsByName_healthy : DeviceRepository.existsByName deviceName (healthy t saved n) =
    (.ok (named deviceName t).isSome, healthy t saved (n + 1 + 1)) := rfl

theorem getByName_healthy {x : ℕ × DeviceRow} (h : named deviceName t = some x) :
    DeviceRepository.getByName deviceName (healthy t saved n) =
      (.ok (readDevice x), healthy t saved (n + 1 + 1)) := by
  simp [DeviceRepository.getByName, Sql.bind_apply, h]

theorem getByName_healthy_none (h : named deviceName t = none) :
    DeviceRepository.getByName deviceName (healthy t saved n) =
      (.error (lit "device not found: " ++ deviceName), healthy t saved (n + 1 + 1)) := by
  simp [DeviceRepository.getByName, Sql.bind_apply, h]

theorem update_healthy {target : Str} : DeviceRepository.update device target (healthy t saved n) =
    match updateEffect device target t with
    | .ok t' => (.ok (), healthy t' saved (n + 1 + 1))
    | .error e => (.error e, healthy t saved (n + 1 + 1)) := rfl

theorem renameDevice_healthy {oldName newName : Str} :
    DataPointRepository.renameDevice oldName newName (healthy t saved n) =
      match renameEffect oldName newName t with
      | .ok t' => (.ok (), healthy t' saved (n + 1 + 1))
      | .error e => (.error e, healthy t saved (n + 1 + 1)) := rfl

theorem exec_deviceExists :
    (deviceExists deviceName).exec t = (.ok (named deviceName t).isSome, t) := rfl

theorem exec_getDeviceByName : (getDeviceByName deviceName).exec t =
    (match named deviceName t with
      | some x => .ok (readDevice x)
      | none => .error (lit "device not found: " ++ deviceName), t) := by
  rw [Sql.exec_eq]
  cases h : named deviceName t with
  | none => simp [getDeviceByName, getByName_healthy_none h]
  | some x => simp [getDeviceByName, getByName_healthy h]

theorem exec_createDevice : (createDevice device).exec t =
    match named device.name t with
    | some _ => (.error (lit "device already exists: " ++ device.name), t)
    | none => match createEffect device t with
      | .ok t' => (.ok (), t')
      | .error e => (.error e, t) := by
  rw [Sql.exec_eq]
  cases h : named device.name t with
  | some x => simp [createDevice, Sql.bind_apply, existsByName_healthy, h]
  | none =>
    cases heff : createEffect device t <;>
      simp [createDevice, DeviceRepository.create, Sql.bind_apply, existsByName_healthy, h,
        stepDone_healthy, heff]

/-- The tables after `createDevice`: as they were, or with the row of the device at the end. -/
theorem exec_createDevice_tables (device : DeviceUpsert) (t : Database) :
    ((createDevice device).exec t).2 = t ∨ ∃ v : DeviceTable, named device.name t = none ∧
      v.rows = t.device.rows ++ [(t.device.seq + 1, DeviceRepository.boundRow device)] ∧
      ((createDevice device).exec t).2 = { t with device := v } := by
  rw [exec_createDevice]
  cases hname : named device.name t with
  | some x => exact .inl rfl
  | none =>
    unfold createEffect
    cases hins : t.device.insert? (DeviceRepository.boundRow device) with
    | none => exact .inl rfl
    | some v => exact .inr ⟨v, rfl, (AutoTable.insert?_eq_some.mp hins).2.1, rfl⟩

/-- What `updateDevice` does once its checks have passed: its statements, one after the other. -/
def updateOutcome (device : DeviceUpsert) (existing : Device) (t : Database) :
    Except Str Unit × Database :=
  match updateEffect device (targetName device) t with
  | .error e => (.error e, t)
  | .ok t₁ =>
    match if device.name ≠ targetName device then renameEffect (targetName device) device.name t₁
      else .ok t₁ with
    | .error e => (.error e, t₁)
    | .ok t₂ => (.ok (),
        if existing.model ≠ device.model ∨ existing.modelVersion ≠ device.modelVersion then
          deleteEffect device.name t₂
        else t₂)

theorem exec_updateDevice : (updateDevice device).exec t =
    match named (targetName device) t with
    | none => (.error (lit "device not found: " ++ targetName device), t)
    | some x =>
      if device.name ≠ targetName device ∧ (named device.name t).isSome then
        (.error (lit "device already exists: " ++ device.name), t)
      else updateOutcome device (readDevice x) t := by
  rw [Sql.exec_eq]
  cases hx : named (targetName device) t with
  | none => simp [updateDevice, Sql.bind_apply, getByName_healthy_none hx]
  | some x =>
    by_cases hname : device.name = targetName device
    · simp only [updateDevice, updateOutcome, Sql.bind_apply, getByName_healthy hx, hname,
        ne_eq, not_true_eq_false, false_and, if_false, update_healthy]
      cases updateEffect device (targetName device) t with
      | error e => rfl
      | ok t₁ => split_ifs <;> rfl
    · simp only [updateDevice, updateOutcome, Sql.bind_apply, getByName_healthy hx, hname,
        ne_eq, not_false_eq_true, true_and, if_true, existsByName_healthy]
      cases hnew : named device.name t with
      | some y => rfl
      | none =>
        simp only [Option.isSome_none, Bool.false_eq_true, if_false, Sql.bind_apply,
          update_healthy]
        cases updateEffect device (targetName device) t with
        | error e => rfl
        | ok t₁ =>
          simp only [renameDevice_healthy]
          cases renameEffect (targetName device) device.name t₁ with
          | error e => rfl
          | ok t₂ => split_ifs <;> rfl

/-- The points of a device whose model has changed are dropped. -/
def dropStalePoints (device : DeviceUpsert) (existing : Device) (t : Database) : Database :=
  if existing.model ≠ device.model ∨ existing.modelVersion ≠ device.modelVersion then
    deleteEffect device.name t
  else t

/-- The ways in which `updateDevice` ends. -/
inductive UpdateOutcome (device : DeviceUpsert) (t : Database) : Except Str Unit → Database → Prop
  | refused (e : Str) : UpdateOutcome device t (.error e) t
  | kept {x : ℕ × DeviceRow} {t₁ : Database} : named (targetName device) t = some x →
      device.name = targetName device → updateEffect device (targetName device) t = .ok t₁ →
      UpdateOutcome device t (.ok ()) (dropStalePoints device (readDevice x) t₁)
  | renamed {x : ℕ × DeviceRow} {t₁ t₂ : Database} : named (targetName device) t = some x →
      device.name ≠ targetName device → named device.name t = none →
      updateEffect device (targetName device) t = .ok t₁ →
      renameEffect (targetName device) device.name t₁ = .ok t₂ →
      UpdateOutcome device t (.ok ()) (dropStalePoints device (readDevice x) t₂)
  | renameFailed {t₁ : Database} {e : Str} : device.name ≠ targetName device →
      named device.name t = none → updateEffect device (targetName device) t = .ok t₁ →
      renameEffect (targetName device) device.name t₁ = .error e →
      UpdateOutcome device t (.error e) t₁

theorem updateOutcome_exec (device : DeviceUpsert) (t : Database) :
    UpdateOutcome device t ((updateDevice device).exec t).1 ((updateDevice device).exec t).2 := by
  rw [exec_updateDevice]
  cases hx : named (targetName device) t with
  | none => exact .refused _
  | some x =>
    dsimp only
    split
    · exact .refused _
    next hfree =>
    unfold updateOutcome
    cases hupdate : updateEffect device (targetName device) t with
    | error e => exact .refused e
    | ok t₁ =>
      by_cases hname : device.name = targetName device
      · simpa [hname, dropStalePoints] using UpdateOutcome.kept hx hname hupdate
      · have hnew : named device.name t = none := by
          simpa [hname, Option.isSome_iff_ne_none] using hfree
        cases hrename : renameEffect (targetName device) device.name t₁ with
        | error e => simpa [hname, hrename] using UpdateOutcome.renameFailed hname hnew hupdate hrename
        | ok t₂ =>
          simpa [hname, hrename, dropStalePoints] using
            UpdateOutcome.renamed hx hname hnew hupdate hrename

theorem exec_deleteDevice : (deleteDevice deviceName).exec t =
    match named deviceName t with
    | none => (.error (lit "device not found: " ++ deviceName), t)
    | some _ => (.ok (), removeEffect deviceName (deleteEffect deviceName t)) := by
  rw [Sql.exec_eq]
  cases h : named deviceName t with
  | none => simp [deleteDevice, Sql.bind_apply, existsByName_healthy, h]
  | some x =>
    simp only [deleteDevice, Sql.bind_apply, existsByName_healthy, h, Option.isSome_some,
      Bool.not_true, Bool.false_eq_true, if_false]
    rfl

theorem foldlM_insertEffect (owner : Device) (points : List DataPoint) :
    points.foldlM (fun t point => insertEffect owner point t) t =
      match t.dataPoint.insertAll? (points.map (DataPointRepository.boundRow owner)) with
      | some u => .ok { t with dataPoint := u }
      | none => .error (lit "UNIQUE constraint failed: DataPoint.DName, DataPoint.NamePath") := by
  induction points generalizing t with
  | nil => rfl
  | cons point rest ih =>
    rw [List.foldlM_cons, List.map_cons, AutoTable.insertAll?_cons]
    cases hins : t.dataPoint.insert? (DataPointRepository.boundRow owner point) with
    | none =>
      simp only [insertEffect, hins]
      rfl
    | some u =>
      simp only [insertEffect, hins]
      exact ih

theorem replaceDataPointsForDevice_healthy (owner : Device) (points : List DataPoint)
    (t : Database) (n : ℕ) : ∃ m, replaceDataPointsForDevice owner points (healthy t none n) =
      match (deleteEffect owner.name t).dataPoint.insertAll?
          (points.map (DataPointRepository.boundRow owner)) with
      | some u => (.ok (), healthy { t with dataPoint := u } none m)
      | none => (.error (lit "UNIQUE constraint failed: DataPoint.DName, DataPoint.NamePath"),
          healthy t none m) := by
  have hfold := foldlM_insertEffect (t := deleteEffect owner.name t) owner points
  have hloop := @stepEach_healthy _ (deleteEffect owner.name t) (some t) (n + 1 + 3)
    (insertEffect owner) points
  have hbody : DataPointRepository.replaceForDevice owner points (healthy t (some t) (n + 1)) =
      stepEach (insertEffect owner) points
        (healthy (deleteEffect owner.name t) (some t) (n + 1 + 3)) := rfl
  cases hins : (deleteEffect owner.name t).dataPoint.insertAll?
      (points.map (DataPointRepository.boundRow owner)) with
  | some u =>
    rw [hins] at hfold
    exact ⟨_, withTransaction_ok (hbody.trans (hloop.1 _ hfold))⟩
  | none =>
    rw [hins] at hfold
    obtain ⟨t', m, hrun⟩ := hloop.2 _ hfold
    exact ⟨_, withTransaction_error (hbody.trans hrun)⟩

theorem exec_replaceDataPointsForDevice {owner : Device} {points : List DataPoint} :
    (replaceDataPointsForDevice owner points).exec t =
      match (deleteEffect owner.name t).dataPoint.insertAll?
          (points.map (DataPointRepository.boundRow owner)) with
      | some u => (.ok (), { t with dataPoint := u })
      | none =>
        (.error (lit "UNIQUE constraint failed: DataPoint.DName, DataPoint.NamePath"), t) := by
  obtain ⟨m, hrun⟩ := replaceDataPointsForDevice_healthy owner points t 0
  rw [Sql.exec_eq, hrun]
  cases (deleteEffect owner.name t).dataPoint.insertAll?
    (points.map (DataPointRepository.boundRow owner)) <;> rfl

theorem exec_getDevices :
    getDevices.exec t = (.ok (t.device.rows.map readDevice), t) := by
  rw [Sql.exec_eq]
  simp [getDevices, DeviceRepository.getAll, Sql.bind_apply]

theorem exec_getDataPointsByDeviceName : (getDataPointsByDeviceName deviceName).exec t =
    (.ok ((t.dataPoint.select fun r => r.dName = some (bindText deviceName)).map
      DataPointRepository.readPoint), t) := by
  rw [Sql.exec_eq]
  simp [getDataPointsByDeviceName, DataPointRepository.getByDeviceName, Sql.bind_apply]

theorem foldlM_insertResource (records : List ResourceRecord) :
    ∃ u, t.resources.insertAll? (records.map ResourceRepository.boundRow) = some u ∧
      records.foldlM (fun t record => ResourceRepository.insertEffect record t) t =
        .ok { t with resources := u } := by
  induction records generalizing t with
  | nil => exact ⟨t.resources, rfl, rfl⟩
  | cons record rest ih =>
    cases hins : t.resources.insert? (ResourceRepository.boundRow record) with
    | none =>
      obtain ⟨x, -, hx⟩ := AutoTable.insert?_eq_none.mp hins
      exact absurd trivial hx
    | some v =>
      obtain ⟨u, hu, hfold⟩ := ih (t := { t with resources := v })
      refine ⟨u, by simp [hins, hu], ?_⟩
      rw [List.foldlM_cons]
      simp only [ResourceRepository.insertEffect, hins]
      exact hfold

theorem exec_insertResources (t : Database) (records : List ResourceRecord) :
    ∃ u, t.resources.insertAll? (records.map ResourceRepository.boundRow) = some u ∧
      (insertResources records).exec t = (.ok (), { t with resources := u }) := by
  obtain ⟨u, hu, hfold⟩ := foldlM_insertResource (t := t) records
  have hloop := (@stepEach_healthy _ t (some t) 2 ResourceRepository.insertEffect records).1 _ hfold
  have hbody : ResourceRepository.insert records (healthy t (some t) 1) =
      stepEach ResourceRepository.insertEffect records (healthy t (some t) 2) := rfl
  refine ⟨u, hu, ?_⟩
  rw [Sql.exec_eq, insertResources, withTransaction_ok (hbody.trans hloop)]
  rfl

theorem exec_getLatestResources : (getLatestResources deviceName).exec t =
    (.ok ((Ranking.top ResourceRepository.rankKey 100
      (ResourceRepository.ofDevice deviceName t)).map ResourceRepository.readRecord), t) := by
  rw [Sql.exec_eq]
  simp [getLatestResources, ResourceRepository.getLatest, Sql.bind_apply]

theorem exec_cleanupResources {maxRows : ℤ} (h : 0 < maxRows) : (cleanupResources maxRows).exec t =
    (.ok (), ResourceRetentionService.cleanupEffect maxRows t) := by
  have hpos : ¬ maxRows ≤ 0 := by omega
  rw [Sql.exec_eq, cleanupResources, ResourceRetentionService.cleanupResources, if_neg hpos]
  rfl

theorem exec_cleanupResourcesForDevice {maxRows : ℤ} (h : 0 < maxRows) (hname : deviceName ≠ []) :
    (cleanupResourcesForDevice deviceName maxRows).exec t =
      (.ok (), ResourceRetentionService.cleanupDeviceEffect deviceName maxRows t) := by
  have hpos : ¬ (maxRows ≤ 0 ∨ deviceName = []) := by
    rintro (hle | hnil)
    · omega
    · exact hname hnil
  rw [Sql.exec_eq, cleanupResourcesForDevice, ResourceRetentionService.cleanupResourcesForDevice,
    if_neg hpos]
  rfl

/-- A limit that is not positive is none. -/
theorem exec_cleanupResources_of_nonpos {maxRows : ℤ} (h : maxRows ≤ 0) :
    (cleanupResources maxRows).exec t = (.ok (), t) := by
  rw [Sql.exec_eq, cleanupResources, ResourceRetentionService.cleanupResources, if_pos h]
  rfl

theorem exec_cleanupResourcesForDevice_of_nonpos {maxRows : ℤ} (h : maxRows ≤ 0) :
    (cleanupResourcesForDevice deviceName maxRows).exec t = (.ok (), t) := by
  rw [Sql.exec_eq, cleanupResourcesForDevice, ResourceRetentionService.cleanupResourcesForDevice,
    if_pos (Or.inl h)]
  rfl

/-- Without a name there is nothing to clean up. -/
theorem exec_cleanupResourcesForDevice_nil {maxRows : ℤ} :
    (cleanupResourcesForDevice [] maxRows).exec t = (.ok (), t) := by
  rw [Sql.exec_eq, cleanupResourcesForDevice, ResourceRetentionService.cleanupResourcesForDevice,
    if_pos (Or.inr rfl)]
  rfl

end Outcomes

end SQLiteManager

end CollectorService
