import CollectorService.Integrity
import CollectorService.Owners
import CollectorService.Start

/-!
# The devices as a catalogue

What the tables `Device` and `DataPoint` are for: a list of devices in the order of their creation,
each with its configuration and with its own data points. The catalogue has no foreign names and no
statements, so a rename moves nothing and a deletion cannot leave a point behind.

* `Catalogue.request`, `start`, `startAll`, `collect`: what the events of the service do to it.
* `catalogue_of_run`: in every run the tables answer as the catalogue does, and stand for it.
-/

namespace CollectorService

open CommandProcessor (DeviceCategory handleDevice errorResult afterInit keepStatus namesStatus)
open DataTask (failure)
open DeviceRepository (named readDevice)
open SQLiteManager (targetName)

/-! ## 1. The catalogue -/

/-- The columns of a data point that do not repeat its device. -/
structure PointColumns where
  namePath : Option SqlText
  itemPath : Option SqlText
  itemName : Option SqlText
  itemDescription : Option SqlText
  deriving DecidableEq

def DataPointRow.columns (r : DataPointRow) : PointColumns :=
  ⟨r.namePath, r.itemPath, r.itemName, r.itemDescription⟩

/-- What is kept of a point of a model. -/
def DataPoint.columns (point : DataPoint) : PointColumns where
  namePath := some (bindText point.namePath)
  itemPath := some (bindText point.itemPath)
  itemName := some (bindText point.itemName)
  itemDescription := some (bindText point.itemDescription)

/-- A device and its data points. -/
abbrev CatalogueEntry := Owner DeviceRow PointColumns

def CatalogueEntry.device (e : CatalogueEntry) : Device := readDevice (e.id, e.row)

/-- A point of a device, as a reader of the points gets it; their ids are not in the catalogue. -/
def CatalogueEntry.point (e : CatalogueEntry) (columns : PointColumns) : DataPoint where
  deviceId := e.device.id
  deviceName := e.device.name
  namePath := columnText columns.namePath
  itemPath := columnText columns.itemPath
  itemName := columnText columns.itemName
  itemDescription := columnText columns.itemDescription

@[ext] structure Catalogue where
  entries : List CatalogueEntry
  /-- The number of devices that have been created. -/
  lastId : ℕ
  deriving DecidableEq

namespace Catalogue

/-- The catalogue of a new store. -/
def empty : Catalogue := ⟨[], 0⟩

variable (c : Catalogue) (models : ModelRepository) (deviceName mid : Str)

def find : Option CatalogueEntry := Owner.find DeviceRow.name (bindText deviceName) c.entries

def add (row : DeviceRow) : Catalogue :=
  ⟨Owner.add (c.lastId + 1) row c.entries, c.lastId + 1⟩

def remove : Catalogue :=
  { c with entries := Owner.remove DeviceRow.name (bindText deviceName) c.entries }

def setRow (row : DeviceRow) : Catalogue :=
  { c with entries := Owner.setRow DeviceRow.name (bindText deviceName) row c.entries }

def setPoints (points : List PointColumns) : Catalogue :=
  { c with entries := Owner.setParts DeviceRow.name (bindText deviceName) points c.entries }

/-- The device gets the points of its model, unless two of them have one path. -/
def configure : CommandResult × Catalogue :=
  match c.find deviceName with
  | none => (failure mid (lit "device not found: " ++ cString deviceName), c)
  | some e => match modelPoints models e.device with
    | .error message => (failure mid (cString message), c)
    | .ok points =>
      if (points.map fun point => bindText point.namePath).Nodup then
        ({ msg := lit "DataPoint initialized for device: " ++ deviceName, mid },
          c.setPoints deviceName (points.map (·.columns)))
      else
        (failure mid (lit "UNIQUE constraint failed: DataPoint.DName, DataPoint.NamePath"), c)

/-- A new device; it stays when its model gives it no points. -/
def create (device : DeviceUpsert) : CommandResult × Catalogue :=
  if device.name = [] then (errorResult mid (lit "device_name is empty"), c)
  else if device.model = [] then (errorResult mid (lit "model is empty"), c)
  else if (c.find device.name).isSome then
    (errorResult mid (lit "device already exists: " ++ device.name), c)
  else
    let (initResult, c) :=
      (c.add (DeviceRepository.boundRow device)).configure models device.name mid
    (afterInit (lit "device created: " ++ device.name) mid initResult, c)

def delete : CommandResult × Catalogue :=
  if (c.find deviceName).isSome then
    ({ msg := lit "device deleted: " ++ deviceName, mid }, c.remove deviceName)
  else (errorResult mid (lit "device not found: " ++ deviceName), c)

/-- A new configuration under the old name or a new one; a new model brings new points, or none. -/
def update (device : DeviceUpsert) (hasStatus : Bool) : CommandResult × Catalogue :=
  if device.name = [] then (errorResult mid (lit "device_name is empty"), c)
  else if device.model = [] then (errorResult mid (lit "model is empty"), c)
  else match c.find (targetName device) with
    | none => (errorResult mid (lit "device not found: " ++ device.name), c)
    | some e =>
      if device.name ≠ targetName device ∧ (c.find device.name).isSome then
        (errorResult mid (lit "device already exists: " ++ cString device.name), c)
      else
        let row := DeviceRepository.boundRow (keepStatus device hasStatus e.device)
        let c := c.setRow (targetName device) row
        let done := lit "device updated: " ++ device.name
        if e.device.model ≠ device.model ∨ e.device.modelVersion ≠ device.modelVersion then
          let (initResult, c) := (c.setPoints device.name []).configure models device.name mid
          (afterInit done mid initResult, c)
        else ({ msg := done, mid }, c)

/-- A device command. -/
def request (category : DeviceCategory) (requestText : Str) : CommandResult × Catalogue :=
  let mid := extractStringField requestText (lit "mid")
  match category with
  | .createDevice => match CommandParser.parseDeviceUpsert requestText with
    | .error message => (errorResult mid (cString message), c)
    | .ok device => c.create models mid device
  | .deleteDevice => c.delete (extractStringField requestText (lit "device_name")) mid
  | .updateDevice => match CommandParser.parseDeviceUpsert requestText with
    | .error message => (errorResult mid (cString message), c)
    | .ok device => c.update models mid device (namesStatus requestText)

/-- A device that is about to be collected and has no points gets those of its model. -/
def ensurePoints (e : CatalogueEntry) : Except Str Unit × Catalogue :=
  if e.parts ≠ [] then (.ok (), c)
  else
    let (initResult, c) := c.configure models deviceName mid
    (if initResult.ok then .ok () else .error initResult.msg, c)

/-- What a start checks. -/
def start : Except Str Device × Catalogue :=
  match c.find deviceName with
  | none => (.error (lit "device not found: " ++ deviceName), c)
  | some e =>
    if e.device.status = 0 then (.error (lit "device is offline: " ++ deviceName), c)
    else
      let (checked, c) := c.ensurePoints models deviceName mid e
      (checked.map fun _ => e.device, c)

def startAll : Catalogue :=
  c.entries.foldl
    (fun c e => if e.device.status ≠ 0 then (c.start models e.device.name []).2 else c) c

/-- A collection cycle. -/
def collect : Catalogue :=
  match c.find deviceName with
  | none => c
  | some e => if e.device.status = 0 then c else (c.ensurePoints models e.device.name [] e).2

end Catalogue

/-- What a client of the service learns from an event. -/
inductive Outcome where
  | answered (result : CommandResult)
  | checked (device : Except Str Device)
  | silent

/-- An event on the tables. -/
def Event.run (t : Database) : Event → Outcome × Database
  | request models category requestText =>
    let (result, t) := (handleDevice models category requestText).run t
    (.answered result, t)
  | startDeviceCollect models deviceName mid =>
    let (device, t) := (DataTask.startChecks models deviceName mid).run t
    (.checked device, t)
  | startAll models => (.silent, ((DataTask.startAllChecks models).run t).2)
  | collectionCycle models env deviceName =>
    (.silent, ((DataTask.collectionCycle models env deviceName).run t).2)

/-- An event on the catalogue. -/
def Event.runCatalogue (c : Catalogue) : Event → Outcome × Catalogue
  | request models category requestText =>
    let (result, c) := c.request models category requestText
    (.answered result, c)
  | startDeviceCollect models deviceName mid =>
    let (device, c) := c.start models deviceName mid
    (.checked device, c)
  | startAll models => (.silent, c.startAll models)
  | collectionCycle models _ deviceName => (.silent, c.collect models deviceName)

/-- The outcomes of a list of events and where they lead, for either kind of state. -/
def Event.trace {σ : Type} (run : σ → Event → Outcome × σ) (s : σ) :
    List Event → List Outcome × σ
  | [] => ([], s)
  | event :: rest =>
    let (outcome, s) := run s event
    let (outcomes, s) := Event.trace run s rest
    (outcome :: outcomes, s)

/-! ## 2. What the tables stand for -/

/-- The catalogue that the tables stand for. -/
def catalogue (t : Database) : Catalogue :=
  ⟨Owner.nest DeviceRow.name DataPointRow.dName DataPointRow.columns t.device t.dataPoint,
    t.device.seq⟩

section Tables
variable {t u : Database} {deviceName : Str} {x : ℕ × DeviceRow}

/-- The points under a name. -/
def columnsOf (t : Database) (name : SqlText) : List PointColumns :=
  Owner.partsOf DataPointRow.dName DataPointRow.columns t.dataPoint name

/-- The entry of a row. -/
def catalogueEntry (t : Database) (x : ℕ × DeviceRow) : CatalogueEntry :=
  ⟨x.1, x.2, columnsOf t x.2.name⟩

@[simp] theorem catalogueEntry_device : (catalogueEntry t x).device = readDevice x := rfl

theorem catalogue_entries : (catalogue t).entries = t.device.rows.map (catalogueEntry t) := rfl

theorem catalogue_find : (catalogue t).find deviceName = (named deviceName t).map (catalogueEntry t) :=
  Owner.find?_nest

theorem catalogue_of_tables (hdevice : u.device = t.device) (hpoint : u.dataPoint = t.dataPoint) :
    catalogue u = catalogue t := by
  rw [catalogue, hdevice, hpoint, catalogue]

theorem Integrity.linked (h : Integrity t) :
    Owner.Linked DeviceRow.name DataPointRow.dName t.device t.dataPoint := by
  intro r hr
  obtain ⟨x, hx, hname, -⟩ := h r hr
  exact ⟨x, hx, hname⟩

/-- A name that no device has has no points. -/
theorem Integrity.columnsOf_eq_nil (h : Integrity t) (hnew : named deviceName t = none) :
    columnsOf t (bindText deviceName) = [] :=
  h.linked.partsOf_eq_nil fun x hx => DeviceRepository.named_eq_none.mp hnew x hx

end Tables

/-! ## 3. Statements -/

section Statements
variable {t u : Database} {device : DeviceUpsert} {deviceName : Str} {points : List DataPoint}

theorem catalogue_create (h : Integrity t) (hnew : named device.name t = none) :
    ∃ u, DeviceRepository.createEffect device t = .ok u ∧
      catalogue u = (catalogue t).add (DeviceRepository.boundRow device) := by
  cases hins : t.device.insert? (DeviceRepository.boundRow device) with
  | none =>
    obtain ⟨x, hx, hsame⟩ := AutoTable.insert?_eq_none.mp hins
    exact absurd (DeviceRepository.named_eq_none.mp hnew x hx) hsame
  | some v =>
    refine ⟨{ t with device := v }, by rw [DeviceRepository.createEffect, hins], ?_⟩
    obtain ⟨-, -, hseq⟩ := AutoTable.insert?_eq_some.mp hins
    exact Catalogue.ext (Owner.nest_insert? hins (h.columnsOf_eq_nil hnew)) hseq

theorem catalogue_clear :
    catalogue (DataPointRepository.deleteEffect deviceName t) =
      (catalogue t).setPoints deviceName [] :=
  Catalogue.ext Owner.nest_clear rfl

theorem catalogue_remove :
    catalogue (DeviceRepository.removeEffect deviceName
      (DataPointRepository.deleteEffect deviceName t)) = (catalogue t).remove deviceName :=
  Catalogue.ext Owner.nest_remove rfl

/-- The points of a device are replaced when their paths are distinct. -/
theorem catalogue_replace {owner : Device} {v : DataPointTable}
    (h : (DataPointRepository.deleteEffect owner.name t).dataPoint.insertAll?
      (points.map (DataPointRepository.boundRow owner)) = some v) :
    catalogue { t with dataPoint := v } =
      (catalogue t).setPoints owner.name (points.map (·.columns)) := by
  have hlink : ∀ r ∈ points.map (DataPointRepository.boundRow owner),
      r.dName = some (bindText owner.name) := by
    intro r hr
    obtain ⟨point, -, rfl⟩ := List.mem_map.mp hr
    rfl
  have hcolumns : (points.map (DataPointRepository.boundRow owner)).map DataPointRow.columns =
      points.map (·.columns) := List.map_map
  refine Catalogue.ext ?_ rfl
  exact (Owner.nest_replace h hlink).trans
    (congrArg (fun parts => Owner.setParts _ _ parts (catalogue t).entries) hcolumns)

/-- A row is rewritten under its own name. -/
theorem catalogue_update (h : DeviceRepository.updateEffect device device.name t = .ok u) :
    catalogue u = (catalogue t).setRow device.name (DeviceRepository.boundRow device) := by
  unfold DeviceRepository.updateEffect at h
  split at h
  · next v hv =>
    cases h
    obtain ⟨-, -, hseq⟩ := AutoTable.update?_eq_some.mp hv
    exact Catalogue.ext (Owner.nest_update? hv rfl) hseq
  · cases h

/-- A row is rewritten under a new name, and the points follow it. -/
theorem catalogue_rename {target : Str} {t₁ : Database} (hintegrity : Integrity t)
    (hnew : named device.name t = none)
    (hupdate : DeviceRepository.updateEffect device target t = .ok t₁)
    (hrename : DataPointRepository.renameEffect target device.name t₁ = .ok u) :
    catalogue u = (catalogue t).setRow target (DeviceRepository.boundRow device) := by
  have hpoint := SQLiteManager.updateEffect_dataPoint hupdate
  unfold DeviceRepository.updateEffect at hupdate
  split at hupdate
  · next v hv =>
    cases hupdate
    unfold DataPointRepository.renameEffect at hrename
    split at hrename
    · next w hw =>
      cases hrename
      obtain ⟨-, -, hseq⟩ := AutoTable.update?_eq_some.mp hv
      exact Catalogue.ext (Owner.nest_rename hv hw (fun _ => rfl) (fun _ => rfl)
        (DeviceRepository.named_eq_none.mp hnew) (hintegrity.columnsOf_eq_nil hnew)) hseq
    · cases hrename
  · cases hupdate

/-- The update of a device whose checks have passed. -/
theorem catalogue_updateDevice (h : Integrity t) {x : ℕ × DeviceRow}
    (hx : named (targetName device) t = some x)
    (hfree : ¬ (device.name ≠ targetName device ∧ (named device.name t).isSome)) :
    ∃ u, (SQLiteManager.updateDevice device).exec t = (.ok (), u) ∧
      catalogue u =
        let c := (catalogue t).setRow (targetName device) (DeviceRepository.boundRow device)
        if (readDevice x).model ≠ device.model ∨ (readDevice x).modelVersion ≠ device.modelVersion
        then c.setPoints device.name [] else c := by
  have hdrop : ∀ {t₂ : Database} {c : Catalogue}, catalogue t₂ = c →
      catalogue (SQLiteManager.dropStalePoints device (readDevice x) t₂) =
        if (readDevice x).model ≠ device.model ∨ (readDevice x).modelVersion ≠ device.modelVersion
        then c.setPoints device.name [] else c := by
    rintro t₂ _ rfl
    unfold SQLiteManager.dropStalePoints
    split
    · exact catalogue_clear
    · rfl
  rw [SQLiteManager.exec_updateDevice, hx]
  simp only [if_neg hfree]
  unfold SQLiteManager.updateOutcome
  have hfree' : device.name = targetName device ∨ named device.name t = none := by
    rw [← Option.not_isSome_iff_eq_none]
    tauto
  obtain ⟨t₁, hupdate⟩ := SQLiteManager.exists_updateEffect hx hfree'
  by_cases hname : device.name = targetName device
  · have hrow : catalogue t₁ =
        (catalogue t).setRow (targetName device) (DeviceRepository.boundRow device) := by
      rw [← hname] at hupdate ⊢
      exact catalogue_update hupdate
    simp only [hupdate, if_neg (not_not.mpr hname)]
    exact ⟨_, rfl, hdrop hrow⟩
  · have hnew : named device.name t = none := by simpa [hname] using hfree
    obtain ⟨t₂, hrename⟩ := h.renameEffect_ok (targetName device) hnew
      (SQLiteManager.updateEffect_dataPoint hupdate)
    simp only [hupdate, if_pos hname, hrename]
    exact ⟨_, rfl, hdrop (catalogue_rename h hnew hupdate hrename)⟩

end Statements

/-! ## 4. Commands and tasks -/

section Commands
variable {models : ModelRepository} {deviceName mid : Str} {t : Database} {x : ℕ × DeviceRow}

/-- A name matters to the catalogue as the database stores it. -/
theorem Catalogue.setPoints_congr {c : Catalogue} {deviceName' : Str} {points : List PointColumns}
    (h : bindText deviceName' = bindText deviceName) :
    c.setPoints deviceName' points = c.setPoints deviceName points := by
  rw [setPoints, h, setPoints]

theorem refines_configure (models : ModelRepository) (deviceName mid : Str) :
    (DataTask.initDataPointsByDevice models deviceName mid).Refines Integrity catalogue
      fun c => c.configure models deviceName mid := by
  intro t _
  show _ = (catalogue t).configure models deviceName mid
  rw [DataTask.initDataPointsByDevice_run, Catalogue.configure, catalogue_find]
  cases hx : named deviceName t with
  | none => rfl
  | some x =>
    simp only [Option.map_some, catalogueEntry_device]
    cases hpoints : modelPoints models (readDevice x) with
    | error e => rfl
    | ok points =>
      have hiff := DataPointRepository.insertAll?_boundRow_isSome (readDevice x) points t
      simp only
      cases hins : (DataPointRepository.deleteEffect (readDevice x).name t).dataPoint.insertAll?
          (points.map (DataPointRepository.boundRow (readDevice x))) with
      | none =>
        rw [if_neg fun hnodup => by simpa [hins] using hiff.mpr hnodup]
      | some v =>
        rw [if_pos (hiff.mp ⟨v, hins⟩)]
        simp only [catalogue_replace hins,
          Catalogue.setPoints_congr (DataTask.bindText_readDevice_name hx)]

theorem refines_create (models : ModelRepository) (device : DeviceUpsert) (mid : Str) :
    (Command.tryCatch (CommandProcessor.createDevice models device mid)
      (errorResult mid)).Refines Integrity catalogue fun c => c.create models mid device := by
  intro t h
  show _ = (catalogue t).create models mid device
  rw [Command.run_tryCatch, CommandProcessor.createDevice_run, Catalogue.create, catalogue_find]
  by_cases hname : device.name = []
  · simp only [if_pos hname]
  by_cases hmodel : device.model = []
  · simp only [if_neg hname, if_pos hmodel]
  simp only [if_neg hname, if_neg hmodel]
  cases hx : named device.name t with
  | some x => rfl
  | none =>
    obtain ⟨u, hcreate, hadd⟩ := catalogue_create h hx
    have hu : Integrity u := by
      have hkept : Integrity ((SQLiteManager.createDevice device).exec t).2 := h.createDevice
      rwa [SQLiteManager.exec_createDevice, hx, hcreate] at hkept
    have hinit := refines_configure models device.name mid
    simp only [hcreate, Option.map_none, Option.isSome_none, Bool.false_eq_true, if_false, ← hadd,
      hinit.fst hu, hinit.snd hu]

theorem refines_delete (deviceName mid : Str) :
    (Command.tryCatch (CommandProcessor.deleteDevice deviceName mid)
      (errorResult mid)).Refines Integrity catalogue fun c => c.delete deviceName mid := by
  intro t _
  show _ = (catalogue t).delete deviceName mid
  rw [Command.run_tryCatch, CommandProcessor.deleteDevice_run, Catalogue.delete, catalogue_find]
  cases hx : named deviceName t with
  | none => rfl
  | some x => simp only [Option.map_some, Option.isSome_some, if_true, catalogue_remove]

theorem refines_update (models : ModelRepository) (device : DeviceUpsert) (hasStatus : Bool)
    (mid : Str) : (Command.tryCatch (CommandProcessor.updateDevice models device hasStatus mid)
      (errorResult mid)).Refines Integrity catalogue
        fun c => c.update models mid device hasStatus := by
  intro t h
  show _ = (catalogue t).update models mid device hasStatus
  rw [Command.run_tryCatch, CommandProcessor.updateDevice_run, Catalogue.update, catalogue_find]
  by_cases hname : device.name = []
  · simp only [if_pos hname]
  by_cases hmodel : device.model = []
  · simp only [if_neg hname, if_pos hmodel]
  simp only [if_neg hname, if_neg hmodel]
  cases hx : named (targetName device) t with
  | none => rfl
  | some x =>
    simp only [Option.map_some, catalogueEntry_device, catalogue_find, Option.isSome_map]
    have htarget := CommandProcessor.targetName_keepStatus device hasStatus (readDevice x)
    by_cases hfree : device.name ≠ targetName device ∧ (named device.name t).isSome = true
    · have hrun : (SQLiteManager.updateDevice (keepStatus device hasStatus (readDevice x))).exec t =
          (.error (lit "device already exists: " ++ device.name), t) := by
        rw [SQLiteManager.exec_updateDevice, htarget, hx]
        simp only [CommandProcessor.keepStatus_name, if_pos hfree]
      simp only [hrun, if_pos hfree, cString_append (show (0 : UInt8) ∉ lit "device already exists: " by
        decide)]
    · have hnotfree : ¬ ((keepStatus device hasStatus (readDevice x)).name ≠
          targetName (keepStatus device hasStatus (readDevice x)) ∧
          (named (keepStatus device hasStatus (readDevice x)).name t).isSome = true) := by
        rwa [htarget, CommandProcessor.keepStatus_name]
      obtain ⟨u, hrun, hu⟩ := catalogue_updateDevice h (by rwa [htarget]) hnotfree
      have hkept : Integrity u := by
        have hkept : Integrity ((SQLiteManager.updateDevice
          (keepStatus device hasStatus (readDevice x))).exec t).2 := h.updateDevice
        rwa [hrun] at hkept
      simp only [htarget, CommandProcessor.keepStatus_name, CommandProcessor.keepStatus_model,
        CommandProcessor.keepStatus_modelVersion] at hu
      have hinit := refines_configure models device.name mid
      simp only [hrun, if_neg hfree]
      by_cases hchanged : (readDevice x).model ≠ device.model ∨
          (readDevice x).modelVersion ≠ device.modelVersion
      · rw [if_pos hchanged] at hu
        simp only [if_pos hchanged, ← hu, hinit.fst hkept, hinit.snd hkept]
      · rw [if_neg hchanged] at hu
        simp only [hchanged, if_false, hu]

theorem refines_request (models : ModelRepository) (category : DeviceCategory)
    (requestText : Str) : (handleDevice models category requestText).Refines Integrity catalogue
      fun c => c.request models category requestText := by
  intro t h
  cases category with
  | createDevice =>
    simp only [handleDevice, Catalogue.request, CommandProcessor.handleCreateDevice]
    cases hparse : CommandParser.parseDeviceUpsert requestText with
    | error e => rfl
    | ok device => exact refines_create models device _ t h
  | deleteDevice => exact refines_delete _ _ t h
  | updateDevice =>
    simp only [handleDevice, Catalogue.request, CommandProcessor.handleUpdateDevice]
    cases hparse : CommandParser.parseDeviceUpsert requestText with
    | error e => rfl
    | ok device => exact refines_update models device _ _ t h

theorem select_eq_nil_iff :
    (t.dataPoint.select fun r => r.dName = some (bindText deviceName)) = [] ↔
      columnsOf t (bindText deviceName) = [] :=
  List.map_eq_nil_iff.symm

/-- Loading the points of a device: what matters to the catalogue is whether it succeeds. -/
theorem loadDataPoints_catalogue (models : ModelRepository) (mid : Str) (h : Integrity t)
    (hx : named deviceName t = some x) :
    let r := (DataTask.loadDataPoints models deviceName mid).run t
    (r.1.map fun _ => (), catalogue r.2) =
      (catalogue t).ensurePoints models deviceName mid (catalogueEntry t x) := by
  have hname : x.2.name = bindText deviceName := (DeviceRepository.named_eq_some.mp hx).2
  have hstored : (catalogueEntry t x).parts = columnsOf t (bindText deviceName) := by rw [← hname]; rfl
  unfold Catalogue.ensurePoints
  by_cases hnil : columnsOf t (bindText deviceName) = []
  · have hselect := select_eq_nil_iff.mpr hnil
    have hrefines : _ = (catalogue t).configure models deviceName mid :=
      refines_configure models deviceName mid t h
    simp only [hstored, hnil, ne_eq, not_true_eq_false, if_false]
    rw [← hrefines]
    rcases DataTask.initDataPointsByDevice_cases models deviceName mid t with
      ⟨e, hrun⟩ | ⟨x', points, u, hx', hpoints, hins, hrun⟩
    · rw [DataTask.loadDataPoints_error (DataTask.storedDataPoints_error hselect hrun), hrun]
      rfl
    · have hne := DataTask.select_ne_nil_of_insertAll? (modelPoints_ne_nil hpoints) hins
      rw [DataTask.bindText_readDevice_name hx'] at hne
      rw [DataTask.loadDataPoints_ok (by simpa using hne)
        (DataTask.storedDataPoints_ok hselect hrun rfl), hrun]
      rfl
  · have hselect := mt select_eq_nil_iff.mp hnil
    rw [DataTask.loadDataPoints_ok (by simpa using hselect)
      (DataTask.storedDataPoints_ne_nil hselect)]
    simp only [hstored, ne_eq, hnil, not_false_eq_true, if_true]
    rfl

theorem refines_start (models : ModelRepository) (deviceName mid : Str) :
    (DataTask.startChecks models deviceName mid).Refines Integrity catalogue
      fun c => c.start models deviceName mid := by
  intro t h
  show _ = (catalogue t).start models deviceName mid
  rw [DataTask.startChecks, Command.run_bind, Command.run_call, SQLiteManager.exec_deviceExists,
    Catalogue.start, catalogue_find]
  cases hx : named deviceName t with
  | none => rfl
  | some x =>
    have hget : (Command.call (SQLiteManager.getDeviceByName deviceName)).run t =
        (.ok (readDevice x), t) := by
      rw [Command.run_call, SQLiteManager.exec_getDeviceByName, hx]
    have hload := loadDataPoints_catalogue models mid h hx
    simp only [Option.isSome_some, Bool.not_true, Bool.false_eq_true, if_false,
      Command.run_bind_ok hget, Option.map_some, catalogueEntry_device]
    by_cases hstatus : (readDevice x).status = 0
    · simp only [hstatus, if_true]
      rfl
    · simp only [hstatus, if_false, ← hload]
      rw [Command.run_bind]
      rcases (DataTask.loadDataPoints models deviceName mid).run t with ⟨e | points, t'⟩ <;> rfl

theorem refines_startAll (models : ModelRepository) (h : Integrity t) :
    catalogue ((DataTask.startAllChecks models).run t).2 = (catalogue t).startAll models := by
  have hall : (Command.call SQLiteManager.getDevices).run t =
      (.ok (t.device.rows.map readDevice), t) := by
    rw [Command.run_call, SQLiteManager.exec_getDevices]
  rw [DataTask.startAllChecks, Command.run_bind_ok hall, Catalogue.startAll, catalogue_entries]
  -- the devices are those that the call has found, whatever the starts change
  generalize hentry : catalogueEntry t = entry
  have hdevice : ∀ x, (entry x).device = readDevice x := by
    rw [← hentry]
    exact fun _ => rfl
  clear hentry hall
  induction t.device.rows generalizing t with
  | nil => rfl
  | cons x rest ih =>
    simp only [List.map_cons, List.foldl_cons, hdevice]
    unfold DataTask.startAllChecks.startEach
    split
    · have hstart := refines_start models (readDevice x).name []
      rw [Command.run_bind_ok (Command.run_noThrow _ _),
        ih (keeps_startChecks Integrity.keeps_init _ _ t h), hstart.snd h]
    · exact ih h

/-- A cycle is seen in the catalogue when it has to get the points. -/
theorem refines_collect (models : ModelRepository) (env : DataTask.CycleEnvironment)
    (deviceName : Str) (h : Integrity t) :
    catalogue ((DataTask.collectionCycle models env deviceName).run t).2 =
      (catalogue t).collect models deviceName := by
  rw [DataTask.collectionCycle, Command.run_bind, Command.run_call,
    SQLiteManager.exec_getDeviceByName, Catalogue.collect, catalogue_find]
  cases hx : named deviceName t with
  | none => rfl
  | some x =>
    by_cases hstatus : (readDevice x).status = 0
    · simp only [Option.map_some, catalogueEntry_device, hstatus, if_true]
      rfl
    have hx' : named (readDevice x).name t = some x := by
      rw [named, DataTask.bindText_readDevice_name hx, ← named, hx]
    simp only [Option.map_some, catalogueEntry_device, hstatus, if_false,
      ← loadDataPoints_catalogue models [] h hx']
    rw [Command.run_bind]
    rcases (DataTask.loadDataPoints models (readDevice x).name []).run t with ⟨e | points, t'⟩
    · rfl
    -- behind the points, a cycle writes to `Resources` only
    exact keeps_collectRecords (P := fun u => catalogue u = catalogue t')
      (fun hu hdevice hpoint => (catalogue_of_tables hdevice hpoint).trans hu) env _ points t' rfl

end Commands

/-! ## 5. Whole runs -/

/-- An event on the tables is the event on the catalogue that they stand for. -/
theorem Event.run_catalogue {t : Database} (h : Integrity t) (event : Event) :
    ((event.run t).1, catalogue (event.run t).2) = event.runCatalogue (catalogue t) := by
  cases event with
  | request models category requestText =>
    have hrequest := refines_request models category requestText
    simp only [Event.run, Event.runCatalogue, hrequest.fst h, hrequest.snd h]
  | startDeviceCollect models deviceName mid =>
    have hstart := refines_start models deviceName mid
    simp only [Event.run, Event.runCatalogue, hstart.fst h, hstart.snd h]
  | startAll models => exact congrArg (Prod.mk _) (refines_startAll models h)
  | collectionCycle models env deviceName =>
    exact congrArg (Prod.mk _) (refines_collect models env deviceName h)

theorem Event.run_integrity {t : Database} (h : Integrity t) (event : Event) :
    Integrity (event.run t).2 := by
  have hkept := event.apply_integrity h
  cases event <;> exact hkept

/-- Every list of events has the same outcomes on the tables and on the catalogue. -/
theorem trace_catalogue {t : Database} (h : Integrity t) (events : List Event) :
    Integrity (Event.trace Event.run t events).2 ∧
      ((Event.trace Event.run t events).1, catalogue (Event.trace Event.run t events).2) =
        Event.trace Event.runCatalogue (catalogue t) events := by
  induction events generalizing t with
  | nil => exact ⟨h, rfl⟩
  | cons event rest ih =>
    have hstep := event.run_catalogue h
    obtain ⟨hintegrity, hrest⟩ := ih (event.run_integrity h)
    refine ⟨hintegrity, ?_⟩
    simp only [Event.trace, ← hstep, ← hrest]

/-- The points under a name in the catalogue, as they are read without their ids. -/
def Catalogue.points (c : Catalogue) (deviceName : Str) : List DataPoint :=
  ((c.find deviceName).map fun e => e.parts.map e.point).getD []

theorem getDataPoints_catalogue {t : Database} (h : Integrity t) (deviceName : Str) :
    ∃ points, (SQLiteManager.getDataPointsByDeviceName deviceName).exec t = (.ok points, t) ∧
      points.map (fun point => { point with id := 0 }) = (catalogue t).points deviceName := by
  refine ⟨_, SQLiteManager.exec_getDataPointsByDeviceName, ?_⟩
  rw [Catalogue.points, catalogue_find]
  cases hx : named deviceName t with
  | none => simp [select_eq_nil_iff.mpr (h.columnsOf_eq_nil hx)]
  | some x =>
    obtain ⟨hmem, hname⟩ := DeviceRepository.named_eq_some.mp hx
    simp only [Option.map_some, Option.getD_some, catalogueEntry, columnsOf, Owner.partsOf, List.map_map,
      hname]
    refine List.map_congr_left fun r hr => ?_
    -- integrity ties the point to the row of its device
    obtain ⟨hrow, hrname⟩ := AutoTable.mem_select.mp hr
    rw [decide_eq_true_eq] at hrname
    obtain ⟨y, hy, hyname, hydid⟩ := h r hrow
    have hyx : y = x := by
      refine Option.some.inj ((DeviceRepository.named_eq_some.mpr ⟨hy, ?_⟩).symm.trans hx)
      exact Option.some.inj (hyname.symm.trans hrname)
    subst hyx
    simp [DataPointRepository.readPoint, CatalogueEntry.point, CatalogueEntry.device, readDevice,
      DataPointRow.columns, hydid, hyname, columnInt_columnInt]

/-- In every run from the empty database the tables answer as the catalogue does: each event has the
same outcome, and the devices and points that are read back at the end are those of the catalogue. -/
theorem catalogue_of_run (events : List Event) :
    let tables := Event.trace Event.run .empty events
    let abstract := Event.trace Event.runCatalogue .empty events
    tables.1 = abstract.1 ∧ catalogue tables.2 = abstract.2 ∧
      SQLiteManager.getDevices.exec tables.2 =
        (.ok (abstract.2.entries.map (·.device)), tables.2) ∧
      ∀ deviceName, ∃ points,
        (SQLiteManager.getDataPointsByDeviceName deviceName).exec tables.2 =
          (.ok points, tables.2) ∧
        points.map (fun point => { point with id := 0 }) = abstract.2.points deviceName := by
  intro tables abstract
  obtain ⟨hintegrity, htrace⟩ := trace_catalogue integrity_empty events
  have habstract : (tables.1, catalogue tables.2) = abstract := htrace
  refine ⟨congrArg Prod.fst habstract, congrArg Prod.snd habstract, ?_, fun deviceName => ?_⟩
  · rw [SQLiteManager.exec_getDevices, ← habstract, catalogue_entries, List.map_map]
    rfl
  · rw [← habstract]
    exact getDataPoints_catalogue hintegrity deviceName

end CollectorService
