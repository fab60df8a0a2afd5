import CollectorService.CommandProcessor

/-!
# Integrity of the store

Nothing in the schema ties `DataPoint` to `Device`: the commands keep the two tables together by
hand.

* `Integrity`: every data point belongs to a device, by name and by id.
* `runEvents_integrity`: every sequence of device commands, starts and collection cycles keeps it.
* `Integrity.renameEffect_ok`: so the rename inside `updateDevice` never meets a conflict.
-/

namespace CollectorService

open DeviceRepository (named readDevice)
open DataPointRepository (deleteEffect renameEffect)
open CommandProcessor (DeviceCategory handleDevice)

/-! ## 1. Runs -/

/-- What may change the tables; the model files may change between two events. -/
inductive Event where
  | request (models : ModelRepository) (category : DeviceCategory) (requestText : Str)
  | startDeviceCollect (models : ModelRepository) (deviceName mid : Str)
  | startAll (models : ModelRepository)
  | collectionCycle (models : ModelRepository) (env : DataTask.CycleEnvironment) (deviceName : Str)

/-- The tables after an event that runs alone. -/
def Event.apply (t : Database) : Event → Database
  | request models category requestText => ((handleDevice models category requestText).run t).2
  | startDeviceCollect models deviceName mid =>
    ((DataTask.startChecks models deviceName mid).run t).2
  | startAll models => ((DataTask.startAllChecks models).run t).2
  | collectionCycle models env deviceName =>
    ((DataTask.collectionCycle models env deviceName).run t).2

def runEvents (t : Database) (events : List Event) : Database := events.foldl Event.apply t

theorem runEvents_append (t : Database) (events events' : List Event) :
    runEvents t (events ++ events') = runEvents (runEvents t events) events' := List.foldl_append

theorem runEvents_singleton (t : Database) (event : Event) :
    runEvents t [event] = event.apply t := rfl

theorem runEvents_pair (t : Database) (event event' : Event) :
    runEvents t [event, event'] = event'.apply (event.apply t) := rfl

/-- Every data point carries the name of a device and, as the service's `int` reads it, its id. -/
def Integrity (t : Database) : Prop :=
  ∀ r ∈ t.dataPoint.rows, ∃ x ∈ t.device.rows,
    r.2.dName = some x.2.name ∧ r.2.did = some (columnInt (some x.1))

/-! ## 2. Manager calls -/

section Calls
variable {t u : Database} {device : DeviceUpsert}

theorem Integrity.of_tables (h : Integrity t) (hdevice : u.device = t.device)
    (hpoint : u.dataPoint = t.dataPoint) : Integrity u := by
  unfold Integrity
  rwa [hdevice, hpoint]

/-- Removing data points keeps the others. -/
theorem Integrity.deleteEffect (h : Integrity t) (deviceName : Str) :
    Integrity (deleteEffect deviceName t) :=
  fun r hr => h r (AutoTable.mem_deleteWhere.mp hr).1

theorem Integrity.createDevice (h : Integrity t) :
    Integrity ((SQLiteManager.createDevice device).exec t).2 := by
  rcases SQLiteManager.exec_createDevice_tables device t with hsame | ⟨v, -, hrows, hrun⟩
  · rwa [hsame]
  · rw [hrun]
    intro r hr
    obtain ⟨x, hx, hrx⟩ := h r hr
    refine ⟨x, ?_, hrx⟩
    show x ∈ v.rows
    rw [hrows]
    exact List.mem_append_left _ hx

theorem Integrity.deleteDevice (h : Integrity t) (deviceName : Str) :
    Integrity ((SQLiteManager.deleteDevice deviceName).exec t).2 := by
  rw [SQLiteManager.exec_deleteDevice]
  cases named deviceName t with
  | none => exact h
  | some y =>
    intro r hr
    obtain ⟨hmem, hname⟩ := AutoTable.mem_deleteWhere.mp hr
    obtain ⟨x, hx, hrx⟩ := h r hmem
    refine ⟨x, AutoTable.mem_deleteWhere.mpr ⟨hx, ?_⟩, hrx⟩
    rw [decide_eq_false_iff_not] at hname ⊢
    intro hxname
    exact hname (hrx.1.trans (congrArg some hxname))

/-- No data point carries a name that no device has. -/
theorem Integrity.dName_ne (h : Integrity t) {deviceName : Str} (hnew : named deviceName t = none)
    {r : ℕ × DataPointRow} (hr : r ∈ t.dataPoint.rows) : r.2.dName ≠ some (bindText deviceName) := by
  obtain ⟨x, hx, hname, -⟩ := h r hr
  rw [hname]
  exact fun heq => DeviceRepository.named_eq_none.mp hnew x hx (Option.some.inj heq)

/-- With integrity, a rename to a name that no device has meets no conflict. -/
theorem Integrity.renameEffect_ok (h : Integrity t) (oldName : Str) {newName : Str}
    (hnew : named newName t = none) (hpoint : u.dataPoint = t.dataPoint) :
    ∃ v, renameEffect oldName newName u = .ok v := by
  cases heff : renameEffect oldName newName u with
  | ok v => exact ⟨v, rfl⟩
  | error e =>
    obtain ⟨-, a, -, b, hb, -, hbname, -⟩ := SQLiteManager.renameEffect_error.mp ⟨e, heff⟩
    exact absurd hbname (h.dName_ne hnew (hpoint ▸ hb))

/-- The update of a device's row, followed by the rename of its points when the name changes. -/
theorem Integrity.updateRename (h : Integrity t) {target : Str} {t₁ t₂ : Database}
    (hupdate : DeviceRepository.updateEffect device target t = .ok t₁)
    (hpoint : t₁.dataPoint = t.dataPoint)
    (hrename : ∀ r ∈ t₂.dataPoint.rows, ∃ s ∈ t₁.dataPoint.rows, r.2.did = s.2.did ∧ r.2.dName =
      if s.2.dName = some (bindText target) then some (bindText device.name) else s.2.dName)
    (hdevice : t₂.device = t₁.device) : Integrity t₂ := by
  intro r hr
  obtain ⟨s, hs, hdid, hname⟩ := hrename r hr
  obtain ⟨y, hy, hsname, hsdid⟩ := h s (hpoint ▸ hs)
  obtain ⟨z, hz, hzid, hzname⟩ := SQLiteManager.updateEffect_rows hupdate hy
  refine ⟨z, hdevice ▸ hz, ?_, ?_⟩
  · rw [hname, hzname, hsname]
    by_cases hold : y.2.name = bindText target <;> simp [hold]
  · rw [hdid, hsdid, hzid]

theorem Integrity.dropStalePoints (h : Integrity t) (existing : Device) :
    Integrity (SQLiteManager.dropStalePoints device existing t) := by
  unfold SQLiteManager.dropStalePoints
  split
  · exact h.deleteEffect _
  · exact h

theorem Integrity.updateDevice (h : Integrity t) :
    Integrity ((SQLiteManager.updateDevice device).exec t).2 := by
  have hout := SQLiteManager.updateOutcome_exec device t
  generalize (SQLiteManager.updateDevice device).exec t = out at hout ⊢
  obtain ⟨r, u⟩ := out
  cases hout with
  | refused => exact h
  | kept hx hname hupdate =>
    have hpoint := SQLiteManager.updateEffect_dataPoint hupdate
    refine Integrity.dropStalePoints ?_ _
    refine h.updateRename hupdate hpoint (fun r hr => ⟨r, hr, rfl, ?_⟩) rfl
    rw [hname]
    split
    · next hold => exact hold
    · rfl
  | renamed hx hname hnew hupdate hrename =>
    exact (h.updateRename hupdate (SQLiteManager.updateEffect_dataPoint hupdate)
      (fun r hr => SQLiteManager.renameEffect_rows hrename hr)
      (SQLiteManager.renameEffect_device hrename)).dropStalePoints _
  | renameFailed hname hnew hupdate hrename =>
    obtain ⟨t₂, hok⟩ := h.renameEffect_ok (SQLiteManager.targetName device) hnew
      (SQLiteManager.updateEffect_dataPoint hupdate)
    rw [hrename] at hok
    cases hok

/-- The points of a device that is in the table, under its own name and id. -/
theorem Integrity.replace (h : Integrity t) {deviceName : Str} {x : ℕ × DeviceRow}
    (hx : named deviceName t = some x) {points : List DataPoint} {v : DataPointTable}
    (hins : (DataPointRepository.deleteEffect (readDevice x).name t).dataPoint.insertAll?
      (points.map (DataPointRepository.boundRow (readDevice x))) = some v) :
    Integrity { t with dataPoint := v } := by
  obtain ⟨new, hrows, hmap, -⟩ := AutoTable.insertAll?_rows hins
  intro r hr
  rw [show ({ t with dataPoint := v } : Database).dataPoint.rows = v.rows from rfl, hrows] at hr
  rcases List.mem_append.mp hr with hold | hnew
  · exact h r (AutoTable.mem_deleteWhere.mp hold).1
  · obtain ⟨point, -, hpoint⟩ := List.mem_map.mp (hmap ▸ List.mem_map_of_mem hnew)
    refine ⟨x, (DeviceRepository.named_eq_some.mp hx).1, ?_, ?_⟩
    · rw [← hpoint]
      simp [DataPointRepository.boundRow, readDevice, columnText]
    · rw [← hpoint]
      simp only [DataPointRepository.boundRow, readDevice]

end Calls

/-! ## 3. Commands and tasks -/

section Commands
open Command

variable {models : ModelRepository} {P : Database → Prop}

/-- An initialisation keeps what every replacement of a device's points keeps. -/
theorem keeps_initDataPointsByDevice
    (hreplace : ∀ {t : Database} {deviceName : Str} {x : ℕ × DeviceRow} {points : List DataPoint}
      {u : DataPointTable}, P t → named deviceName t = some x →
      modelPoints models (readDevice x) = .ok points →
      (deleteEffect (readDevice x).name t).dataPoint.insertAll?
        (points.map (DataPointRepository.boundRow (readDevice x))) = some u →
      P { t with dataPoint := u }) (deviceName mid : Str) :
    (DataTask.initDataPointsByDevice models deviceName mid).Keeps P := by
  intro t h
  rcases DataTask.initDataPointsByDevice_cases models deviceName mid t with
    ⟨e, hrun⟩ | ⟨x, points, u, hx, hpoints, hins, hrun⟩
  · rwa [hrun]
  · rw [hrun]
    exact hreplace h hx hpoints hins

variable (hinit : ∀ deviceName mid, (DataTask.initDataPointsByDevice models deviceName mid).Keeps P)
include hinit

theorem keeps_loadDataPoints (deviceName mid : Str) :
    (DataTask.loadDataPoints models deviceName mid).Keeps P := by
  have hread : (call (SQLiteManager.getDataPointsByDeviceName deviceName)).Keeps P :=
    keeps_query fun t => by rw [SQLiteManager.exec_getDataPointsByDeviceName]
  refine keeps_bind (keeps_bind hread fun points => ?_) fun points => ?_
  · split
    · refine keeps_bind (keeps_noThrow (hinit deviceName mid)) fun r => ?_
      split
      · exact keeps_bind (keeps_throw _) fun _ => hread
      · exact hread
    · exact keeps_pure points
  · split
    · exact keeps_bind (keeps_throw _) fun _ => keeps_pure points
    · exact keeps_pure points

theorem keeps_startChecks (deviceName mid : Str) :
    (DataTask.startChecks models deviceName mid).Keeps P := by
  refine keeps_bind (keeps_query fun t => rfl) fun found => ?_
  split
  · exact keeps_throw _
  · refine keeps_bind (keeps_query fun t => by rw [SQLiteManager.exec_getDeviceByName])
      fun device => ?_
    split
    · exact keeps_throw _
    · exact keeps_bind (keeps_loadDataPoints hinit deviceName mid) fun _ => keeps_pure device

theorem keeps_startAllChecks : (DataTask.startAllChecks models).Keeps P := by
  refine keeps_bind (keeps_query fun t => by rw [SQLiteManager.exec_getDevices]) fun devices => ?_
  induction devices with
  | nil => exact keeps_pure ()
  | cons device rest ih =>
    unfold DataTask.startAllChecks.startEach
    split
    · exact keeps_bind (keeps_noThrow (keeps_startChecks hinit device.name [])) fun _ => ih
    · exact ih

omit hinit in
/-- Behind the points, a cycle keeps what depends on the devices and their points only. -/
theorem keeps_collectRecords
    (htables : ∀ {t u : Database}, P t → u.device = t.device → u.dataPoint = t.dataPoint → P u)
    (env : DataTask.CycleEnvironment) (device : Device) (points : List DataPoint) : (do
      let records ← lift (env.collect device points)
      call (SQLiteManager.insertResources records)
      if env.cleanupDue then
        noThrow (Command.tryCatch (call (SQLiteManager.cleanupResourcesForDevice device.name
          DataTask.kMaxRowsPerDevice)) fun _ => ()) : Command Unit).Keeps P := by
  have hinsert (records : List ResourceRecord) :
      (call (SQLiteManager.insertResources records)).Keeps P := by
    refine keeps_call fun t h => ?_
    obtain ⟨u, -, hrun⟩ := SQLiteManager.exec_insertResources t records
    rw [hrun]
    exact htables h rfl rfl
  have hcleanup (deviceName : Str) : (call (SQLiteManager.cleanupResourcesForDevice deviceName
      DataTask.kMaxRowsPerDevice)).Keeps P := by
    refine keeps_call fun t h => ?_
    cases deviceName with
    | nil => rwa [SQLiteManager.exec_cleanupResourcesForDevice_nil]
    | cons ch rest =>
      rw [SQLiteManager.exec_cleanupResourcesForDevice (by decide) (List.cons_ne_nil ch rest)]
      exact htables h rfl rfl
  refine keeps_bind (keeps_lift _) fun records => keeps_bind (hinsert records) fun _ => ?_
  split
  · exact keeps_noThrow (keeps_tryCatch (hcleanup _))
  · exact keeps_pure ()

/-- A cycle keeps what depends on the devices and their points only. -/
theorem keeps_collectionCycle
    (htables : ∀ {t u : Database}, P t → u.device = t.device → u.dataPoint = t.dataPoint → P u)
    (env : DataTask.CycleEnvironment) (deviceName : Str) :
    (DataTask.collectionCycle models env deviceName).Keeps P := by
  refine keeps_bind (keeps_query fun t => by rw [SQLiteManager.exec_getDeviceByName])
    fun device => ?_
  dsimp only
  split
  · exact keeps_throw _
  · exact keeps_bind (keeps_loadDataPoints hinit _ _) fun points =>
      keeps_collectRecords htables env device points

theorem keeps_createDevice (device : DeviceUpsert) (mid : Str)
    (hcreate : ∀ t, P t → P ((SQLiteManager.createDevice device).exec t).2) :
    (CommandProcessor.createDevice models device mid).Keeps P := by
  unfold CommandProcessor.createDevice
  split
  · exact keeps_pure _
  split
  · exact keeps_pure _
  refine keeps_bind (keeps_query fun t => rfl) fun found => ?_
  split
  · exact keeps_pure _
  refine keeps_bind (keeps_call hcreate) fun _ =>
    keeps_bind (keeps_noThrow (hinit _ _)) fun result => ?_
  split <;> exact keeps_pure _

omit hinit in
theorem keeps_deleteDevice (deviceName mid : Str)
    (hdelete : ∀ t, P t → P ((SQLiteManager.deleteDevice deviceName).exec t).2) :
    (CommandProcessor.deleteDevice deviceName mid).Keeps P := by
  refine keeps_bind (keeps_query fun t => rfl) fun found => ?_
  split
  · exact keeps_pure _
  · exact keeps_bind (keeps_call hdelete) fun _ => keeps_pure _

/-- What holds before an update, and after its call of the manager, holds at its end. -/
theorem updateDevice_of_call {device : DeviceUpsert} {t : Database} (hasStatus : Bool) (mid : Str)
    (h : P t) (hcall : device.name ≠ [] → device.model ≠ [] → ∀ x : ℕ × DeviceRow,
      P ((SQLiteManager.updateDevice
        (CommandProcessor.keepStatus device hasStatus (readDevice x))).exec t).2) :
    P ((CommandProcessor.updateDevice models device hasStatus mid).run t).2 := by
  rw [CommandProcessor.updateDevice_run]
  split
  · exact h
  next hname =>
  split
  · exact h
  next hmodel =>
  cases named (SQLiteManager.targetName device) t with
  | none => exact h
  | some x =>
    have hdone := hcall hname hmodel x
    rcases hrun : (SQLiteManager.updateDevice
      (CommandProcessor.keepStatus device hasStatus (readDevice x))).exec t with ⟨e | a, t₁⟩
    · rw [hrun] at hdone
      simpa only [hrun] using hdone
    · rw [hrun] at hdone
      simp only [hrun]
      split
      · exact hinit _ _ _ hdone
      · exact hdone

theorem keeps_updateDevice (device : DeviceUpsert) (hasStatus : Bool) (mid : Str)
    (hupdate : ∀ device t, P t → P ((SQLiteManager.updateDevice device).exec t).2) :
    (CommandProcessor.updateDevice models device hasStatus mid).Keeps P :=
  fun t h => updateDevice_of_call hinit hasStatus mid h fun _ _ _ => hupdate _ t h

end Commands

theorem Integrity.keeps_init {models : ModelRepository} (deviceName mid : Str) :
    (DataTask.initDataPointsByDevice models deviceName mid).Keeps Integrity :=
  keeps_initDataPointsByDevice (fun h hx _ hins => h.replace hx hins) deviceName mid

theorem Integrity.keeps_handleDevice {models : ModelRepository} (category : DeviceCategory)
    (requestText : Str) : (handleDevice models category requestText).Keeps Integrity := by
  refine Command.keeps_tryCatch ?_
  cases category with
  | createDevice =>
    exact Command.keeps_bind (Command.keeps_lift _) fun device =>
      keeps_createDevice keeps_init device _ fun t h => h.createDevice
  | deleteDevice => exact keeps_deleteDevice _ _ fun t h => h.deleteDevice _
  | updateDevice =>
    exact Command.keeps_bind (Command.keeps_lift _) fun device =>
      keeps_updateDevice keeps_init device _ _ fun device t h => h.updateDevice

/-! ## 4. Whole runs -/

theorem Event.apply_integrity {t : Database} (h : Integrity t) (event : Event) :
    Integrity (event.apply t) := by
  cases event with
  | request models category requestText =>
    exact Integrity.keeps_handleDevice category requestText t h
  | startDeviceCollect models deviceName mid =>
    exact keeps_startChecks Integrity.keeps_init deviceName mid t h
  | startAll models => exact keeps_startAllChecks Integrity.keeps_init t h
  | collectionCycle models env deviceName =>
    exact keeps_collectionCycle Integrity.keeps_init Integrity.of_tables env deviceName t h

/-- Every run of events keeps the tables together. -/
theorem runEvents_integrity {t : Database} (h : Integrity t) (events : List Event) :
    Integrity (runEvents t events) := by
  induction events generalizing t with
  | nil => exact h
  | cons event rest ih => exact ih (event.apply_integrity h)

theorem integrity_empty : Integrity .empty := fun r hr => by cases hr

theorem columnInt_natCast {n : ℕ} (h : n < 2 ^ 31) : columnInt (some (n : ℤ)) = n := by
  simp only [columnInt, Option.getD_some]
  rw [Int.bmod_eq_of_le] <;> omega

/-- After every run from the empty database each data point carries the name of a device and, as the
service's `int` reads it, its id, which is the id itself up to id `2 ^ 31 - 1`; device names are
distinct; and `updateDevice`, its checks passed, renames the data points without a conflict. -/
theorem integrity_of_run (events : List Event) :
    Integrity (runEvents .empty events) ∧
    ((runEvents .empty events).device.seq < 2 ^ 31 →
      ∀ r ∈ (runEvents .empty events).dataPoint.rows, ∃ x ∈ (runEvents .empty events).device.rows,
        r.2.dName = some x.2.name ∧ r.2.did = some (x.1 : ℤ)) ∧
    ((runEvents .empty events).device.rows.map (·.2.name)).Nodup ∧
    ∀ (device : DeviceUpsert) (t₁ : Database),
      (device.name ≠ SQLiteManager.targetName device →
        named device.name (runEvents .empty events) = none) →
      DeviceRepository.updateEffect device (SQLiteManager.targetName device)
        (runEvents .empty events) = .ok t₁ →
      device.name ≠ SQLiteManager.targetName device →
      ∃ t₂, renameEffect (SQLiteManager.targetName device) device.name t₁ = .ok t₂ := by
  have h := runEvents_integrity integrity_empty events
  refine ⟨h, fun hseq r hr => ?_, ?_, fun device t₁ hfresh hupdate hname => ?_⟩
  · obtain ⟨x, hx, hname, hdid⟩ := h r hr
    have hid : x.1 < 2 ^ 31 := Nat.lt_of_le_of_lt
      ((runEvents .empty events).device.bounded x hx) hseq
    exact ⟨x, hx, hname, hdid.trans (congrArg some (columnInt_natCast hid))⟩
  · rw [List.Nodup, List.pairwise_map]
    exact (runEvents .empty events).device.ordered.imp And.right
  · exact h.renameEffect_ok _ (hfresh hname) (SQLiteManager.updateEffect_dataPoint hupdate)

/-! ## 5. Ids beyond `int` -/

/-- A repository with the one model file `M.yaml`. -/
def oneModel : ModelRepository where
  fileExists path := .ok (path = lit "config/models/M.yaml")
  contents _ := some (lit "DataItem:\n        - Name: X\n")

def createText : Str :=
  lit "\x7b\"category\":\"create_device\",\"params\":\x7b\"device_name\":\"A\",\"model\":\"M\"\x7d\x7d"

def deleteText : Str :=
  lit "\x7b\"category\":\"delete_device\",\"params\":\x7b\"device_name\":\"A\"\x7d\x7d"

def createA : Event := .request oneModel .createDevice createText

def deleteA : Event := .request oneModel .deleteDevice deleteText

/-- The device that `createText` describes. -/
def deviceA : DeviceUpsert where
  name := lit "A"
  ip := lit "127.0.0.1"
  port := 9001
  sampleIntervalMs := 1000
  model := lit "M"

theorem parse_createText : CommandParser.parseDeviceUpsert createText = .ok deviceA := by
  decide +kernel

theorem createA_apply {t : Database} (h : t.device.rows = []) : ∃ u : DeviceTable,
    u.rows = [(t.device.seq + 1, DeviceRepository.boundRow deviceA)] ∧ u.seq = t.device.seq + 1 ∧
    createA.apply t = ((DataTask.initDataPointsByDevice oneModel (lit "A") []).run
      { t with device := u }).2 := by
  have hnone : named deviceA.name t = none := by simp [named, h]
  have hmid : extractStringField createText (lit "mid") = [] := by decide +kernel
  cases hins : t.device.insert? (DeviceRepository.boundRow deviceA) with
  | none =>
    obtain ⟨x, hx, -⟩ := AutoTable.insert?_eq_none.mp hins
    rw [h] at hx
    cases hx
  | some u =>
    obtain ⟨-, hrows, hseq⟩ := AutoTable.insert?_eq_some.mp hins
    refine ⟨u, by rw [hrows, h]; rfl, hseq, ?_⟩
    have hname : deviceA.name ≠ [] := by decide
    have hmodel : deviceA.model ≠ [] := by decide
    simp only [createA, Event.apply, handleDevice, CommandProcessor.handleCreateDevice,
      parse_createText, hmid, Command.run_tryCatch, Command.run_bind, Command.run_lift,
      CommandProcessor.createDevice_run, hname, hmodel, if_false, hnone,
      DeviceRepository.createEffect, hins]
    rfl

theorem deleteA_apply {t : Database} : (deleteA.apply t).device.seq = t.device.seq ∧
    ∀ x ∈ (deleteA.apply t).device.rows, x ∈ t.device.rows ∧ x.2.name ≠ bindText (lit "A") := by
  have hname : extractStringField deleteText (lit "device_name") = lit "A" := by decide +kernel
  simp only [deleteA, Event.apply, handleDevice, CommandProcessor.handleDeleteDevice, hname,
    Command.run_tryCatch, CommandProcessor.deleteDevice_run]
  cases hx : named (lit "A") t with
  | none => exact ⟨rfl, fun x hx' => ⟨hx', DeviceRepository.named_eq_none.mp hx x hx'⟩⟩
  | some y =>
    refine ⟨rfl, fun x hx' => ?_⟩
    obtain ⟨hmem, hne⟩ := AutoTable.mem_deleteWhere.mp hx'
    exact ⟨hmem, by simpa using hne⟩

/-- Creating and deleting `A` over and over uses up one id each time. -/
theorem rounds_device (n : ℕ) :
    (runEvents .empty (List.replicate n [createA, deleteA]).flatten).device.rows = [] ∧
    (runEvents .empty (List.replicate n [createA, deleteA]).flatten).device.seq = n := by
  induction n with
  | zero => exact ⟨rfl, rfl⟩
  | succ n ih =>
    obtain ⟨hrows, hseq⟩ := ih
    obtain ⟨u, hurows, huseq, hcreate⟩ := createA_apply hrows
    rw [List.replicate_succ', List.flatten_append, runEvents_append, List.flatten_singleton,
      runEvents_pair]
    generalize runEvents .empty (List.replicate n [createA, deleteA]).flatten = t at *
    have hdevice : (createA.apply t).device = u := by
      rw [hcreate, DataTask.initDataPointsByDevice_device]
    obtain ⟨hdseq, hdrows⟩ := deleteA_apply (t := createA.apply t)
    refine ⟨List.eq_nil_iff_forall_not_mem.mpr fun x hx => ?_, ?_⟩
    · obtain ⟨hmem, hne⟩ := hdrows x hx
      rw [hdevice, hurows] at hmem
      cases List.mem_singleton.mp hmem
      exact hne rfl
    · rw [hdseq, hdevice, huseq, hseq]

/-- The data point of `A` after `n` devices carries what `int` keeps of the id `n + 1`. -/
theorem createA_after_rounds {n : ℕ} {point : DataPoint}
    (hpoints : modelPoints oneModel (readDevice (n + 1, DeviceRepository.boundRow deviceA)) =
      .ok [point]) :
    let t := runEvents .empty ((List.replicate n [createA, deleteA]).flatten ++ [createA])
    (∃ r ∈ t.dataPoint.rows, r.2.did = some (columnInt (some ((n + 1 : ℕ) : ℤ)))) ∧
      ∀ x ∈ t.device.rows, x.1 = n + 1 := by
  obtain ⟨hrows, hseq⟩ := rounds_device n
  have hold := runEvents_integrity integrity_empty (List.replicate n [createA, deleteA]).flatten
  dsimp only
  rw [runEvents_append, runEvents_singleton]
  generalize runEvents .empty (List.replicate n [createA, deleteA]).flatten = t at *
  obtain ⟨u, hurows, -, hcreate⟩ := createA_apply hrows
  rw [hseq] at hurows
  have hdevice : (createA.apply t).device = u := by
    rw [hcreate, DataTask.initDataPointsByDevice_device]
  refine ⟨?_, fun x hx => ?_⟩
  · have hnamed : named (lit "A") { t with device := u } =
        some (n + 1, DeviceRepository.boundRow deviceA) :=
      DeviceRepository.named_eq_some.mpr ⟨by simp [hurows], rfl⟩
    have hempty : t.dataPoint.rows = [] := by
      refine List.eq_nil_iff_forall_not_mem.mpr fun r hr => ?_
      obtain ⟨x, hx, -⟩ := hold r hr
      rw [hrows] at hx
      cases hx
    have hfit : ∀ x ∈ (DataPointRepository.deleteEffect
        (readDevice (n + 1, DeviceRepository.boundRow deviceA)).name
        { t with device := u }).dataPoint.rows,
        ∀ r ∈ [point].map (DataPointRepository.boundRow
          (readDevice (n + 1, DeviceRepository.boundRow deviceA))), DataPointRow.compat x.2 r := by
      intro x hx
      have hmem : x ∈ t.dataPoint.rows := (AutoTable.mem_deleteWhere.mp hx).1
      rw [hempty] at hmem
      cases hmem
    obtain ⟨v, hv⟩ := AutoTable.insertAll?_isSome hfit (List.pairwise_singleton _ _)
    obtain ⟨new, hnew, hmap, -⟩ := AutoTable.insertAll?_rows hv
    rw [hcreate, DataTask.initDataPointsByDevice_run, hnamed]
    simp only [hpoints, hv]
    obtain ⟨r, hr, hrow⟩ := List.mem_map.mp (hmap ▸ List.mem_map_of_mem List.mem_cons_self)
    refine ⟨r, by rw [hnew]; exact List.mem_append_right _ hr, ?_⟩
    rw [hrow]
    simp only [DataPointRepository.boundRow, readDevice]
  · rw [hdevice, hurows] at hx
    cases List.mem_singleton.mp hx
    rfl

/-- After `2 ^ 31 - 1` devices, the next one is created with data points that carry another id. -/
theorem did_ne_id_of_many_creations :
    ∃ r ∈ (runEvents .empty ((List.replicate (2 ^ 31 - 1) [createA, deleteA]).flatten ++
        [createA])).dataPoint.rows,
      ∀ x ∈ (runEvents .empty ((List.replicate (2 ^ 31 - 1) [createA, deleteA]).flatten ++
        [createA])).device.rows, r.2.did ≠ some (x.1 : ℤ) := by
  obtain ⟨point, hpoints⟩ : ∃ point, modelPoints oneModel
      (readDevice (2 ^ 31 - 1 + 1, DeviceRepository.boundRow deviceA)) = .ok [point] :=
    ⟨{ deviceId := -2 ^ 31, deviceName := lit "A", namePath := lit "//X",
       itemPath := lit "/DV:A/CP:/DT:X", itemName := lit "X" }, by decide +kernel⟩
  obtain ⟨⟨r, hr, hdid⟩, hid⟩ := createA_after_rounds hpoints
  refine ⟨r, hr, fun x hx => ?_⟩
  have hx' := hid x hx
  rw [hdid, hx']
  decide +kernel

end CollectorService
