import CollectorService.CollectionQueryBuilder
import CollectorService.CollectionResponseParser
import CollectorService.Hoare
import CollectorService.OnConnection
import CollectorService.Start

/-!
# `runDeviceTask`

One turn of the loop of a collection worker. Every call of the SQLite API may fail, the driver may
refuse the connection or answer with any text, and an exception at any stage ends in the one `catch`
block, which keeps what had been done by then.

* `collect`: the `try` block, stage by stage.
* `cycle`: the turn of the loop.
* `insertNext_ends`: what a cycle has done when it has inserted its records, or failed before.
* `runCycle_step`: how a cycle ends.
-/

namespace CollectorService

namespace DeviceTask

open DataTask (kMaxRowsPerDevice)
open CollectionQueryBuilder (makeCid buildQuery)
open CollectionResponseParser (processResponse extractBoolField)

/-! ## 1. The loop -/

/-- `kCleanupIntervalMs`, in nanoseconds of the steady clock. -/
def kCleanupInterval : ℤ := 60000 * 1000000

/-- The local variables of `runDeviceTask`. -/
structure TaskState where
  device : Device
  status : DeviceStatus
  failCount : ℤ := 0
  lastCleanupTime : ℤ
  stage : Str := []
  deriving DecidableEq

/-- The variables when the loop is entered; `now` is a time of the steady clock. -/
def TaskState.enter (device : Device) (now : ℤ) : TaskState where
  device
  status := { deviceName := device.name }
  lastCleanupTime := now - kCleanupInterval

/-- What a cycle meets outside the service. -/
structure CycleInput where
  /-- The outcome of `connect` for a host and a port. -/
  connect : Str → ℤ → Bool
  /-- The answer to a query, or what the exception of the connection says. -/
  answer : Str → Except Str Str
  /-- `nowMilliseconds()` of the query's cid. -/
  cidTime : ℤ
  /-- `nowSeconds()` of the response. -/
  responseTime : Double
  /-- The steady clock behind the insertion. -/
  now : ℤ
  /-- `nowSeconds()` of the status. -/
  statusTime : Double

/-- What a cycle reads and writes: the connection, the registry and its own variables. -/
structure CycleState where
  conn : Conn
  registry : DeviceStatusStore
  task : TaskState

abbrev Cycle := EStateM Str CycleState

/-- A manager call. -/
def onDatabase {α : Type} (m : Sql α) : Cycle α := fun s =>
  match m s.conn with
  | (.ok a, c) => .ok a { s with conn := c }
  | (.error e, c) => .error e { s with conn := c }

/-- A computation that may throw, without access to the state. -/
def ofExcept {α : Type} (r : Except Str α) : Cycle α :=
  match r with
  | .ok a => pure a
  | .error e => throw e

def modifyTask (f : TaskState → TaskState) : Cycle Unit :=
  modify fun s => { s with task := f s.task }

/-- The state with another stage. -/
def CycleState.at (s : CycleState) (stage : String) : CycleState :=
  { s with task := { s.task with stage := lit stage } }

def setStage (stage : String) : Cycle Unit := modify (·.at stage)

/-- Stage `loadDevice`. -/
def loadDevice : Cycle Device := do
  setStage "loadDevice"
  let device ← onDatabase (SQLiteManager.getDeviceByName (← get).task.device.name)
  modifyTask fun task => { task with device }
  if device.status = 0 then
    throw (lit "device is offline: " ++ device.name)
  return device

/-- Stages `loadDataPoints` and `initDataPoints`. -/
def storedDataPoints (models : ModelRepository) (device : Device) : Cycle (List DataPoint) := do
  setStage "loadDataPoints"
  let points ← onDatabase (SQLiteManager.getDataPointsByDeviceName device.name)
  if points = [] then
    setStage "initDataPoints"
    let initResult ← onDatabase (OnConnection.initDataPointsByDevice models device.name [])
    if !initResult.ok then
      throw initResult.msg
    setStage "loadDataPoints"
    onDatabase (SQLiteManager.getDataPointsByDeviceName device.name)
  else return points

def loadDataPoints (models : ModelRepository) (device : Device) : Cycle (List DataPoint) := do
  let points ← storedDataPoints models device
  if points = [] then
    throw (lit "device has no configured data points: " ++ device.name)
  return points

/-- `DriverClient::sendQuery` of a connected client. -/
def sendQuery (input : CycleInput) (device : Device) (query : Str) : Except Str Str :=
  match input.answer query with
  | .ok response => .ok response
  | .error e => .error (lit "DriverClient sendQuery failed for ws://" ++ device.ip ++ lit ":" ++
      decimal device.port ++ lit ": " ++ e)

/-- Stages `buildQuery`, `connect` and `sendQuery`. -/
def queryDriver (input : CycleInput) (device : Device) (points : List DataPoint) : Cycle Str := do
  setStage "buildQuery"
  let query ← ofExcept (buildQuery (makeCid device.name input.cidTime) points)
  setStage "connect"
  let connected := input.connect device.ip device.port
  modifyTask fun task => { task with status := { task.status with connected } }
  if !connected then
    throw (lit "DriverClient connect failed for " ++ device.name ++ lit " at ws://" ++ device.ip ++
      lit ":" ++ decimal device.port)
  setStage "sendQuery"
  let response ← ofExcept (sendQuery input device query)
  if response = [] then
    throw (lit "response is empty")
  return response

/-- Stage `processResponse`. -/
def storeRecords (input : CycleInput) (device : Device) (points : List DataPoint) (response : Str) :
    Cycle (List ResourceRecord) := do
  setStage "processResponse"
  let records ← ofExcept (processResponse device points response input.responseTime)
  onDatabase (SQLiteManager.insertResources records)
  return records

/-- The `try` block up to the insertion: the response, and the records that were inserted. -/
def insertNext (models : ModelRepository) (input : CycleInput) :
    Cycle (Str × List ResourceRecord) := do
  let device ← loadDevice
  let points ← loadDataPoints models device
  let response ← queryDriver input device points
  let records ← storeRecords input device points response
  return (response, records)

/-- The cleanup of a cycle, when it is due; a cleanup that fails is logged only. -/
def cleanup (now : ℤ) : Cycle Unit := do
  let task := (← get).task
  if kCleanupInterval ≤ now - task.lastCleanupTime then
    tryCatch (do
        onDatabase (SQLiteManager.cleanupResourcesForDevice task.device.name kMaxRowsPerDevice)
        modifyTask fun task => { task with lastCleanupTime := now })
      fun _ => return ()

/-- `status` after a successful cycle. -/
def succeededStatus (response : Str) (statusTime : Double) (status : DeviceStatus) : DeviceStatus :=
  { status with
    connected := true
    machineConnected := extractBoolField response (lit "machineConnected")
    failCount := 0
    lastSuccessTime := statusTime
    error := [] }

/-- The state behind a successful cycle. -/
def CycleState.succeed (response : Str) (statusTime : Double) (s : CycleState) : CycleState :=
  let status := succeededStatus response statusTime s.task.status
  { s with
    task := { s.task with failCount := 0, status }
    registry := s.registry.setLatestStatus status }

/-- The `try` block; the result is the records that it has inserted. -/
def collect (models : ModelRepository) (input : CycleInput) : Cycle (List ResourceRecord) := do
  let (response, records) ← insertNext models input
  setStage "close"
  cleanup input.now
  modify (·.succeed response input.statusTime)
  return records

/-- `status` after a failed cycle. -/
def failedStatus (e : Str) (task : TaskState) : DeviceStatus :=
  { task.status with
    connected := false
    machineConnected := false
    failCount := task.failCount + 1
    error := task.stage ++ lit " failed: " ++ cString e }

/-- The state behind a failed cycle. -/
def CycleState.fail (e : Str) (s : CycleState) : CycleState :=
  let status := failedStatus e s.task
  { s with
    task := { s.task with failCount := s.task.failCount + 1, status }
    registry := s.registry.setLatestStatus status }

/-- How a cycle ends. -/
inductive CycleResult where
  | succeeded (records : List ResourceRecord)
  | failed
  /-- The fifth failure in a row: the worker leaves its loop. -/
  | gaveUp
  deriving DecidableEq

/-- The `catch` block. -/
def catchFailure (e : Str) : Cycle CycleResult := do
  modify (·.fail e)
  return if 5 ≤ (← get).task.failCount then .gaveUp else .failed

/-- One turn of the loop, up to the sleep. -/
def cycle (models : ModelRepository) (input : CycleInput) : Cycle CycleResult := do
  setStage "prepare"
  tryCatch (do return .succeeded (← collect models input)) catchFailure

/-- A cycle as a function: no exception leaves it, see `cycle_step`. -/
def runCycle (models : ModelRepository) (input : CycleInput) (s : CycleState) :
    CycleResult × CycleState :=
  match cycle models input s with
  | .ok result s' => (result, s')
  | .error _ s' => (.gaveUp, s')

/-! ## 2. Rules -/

open Hoare (Ends)

/-- A property of the tables, the registry and the variables. -/
def Over (p : Database → DeviceStatusStore → TaskState → Prop) (s : CycleState) : Prop :=
  p s.conn.tables s.registry s.task

theorem onDatabase_ok {α : Type} {m : Sql α} {s : CycleState} {a : α} {c : Conn}
    (h : m s.conn = (.ok a, c)) : onDatabase m s = .ok a { s with conn := c } := by
  rw [onDatabase, h]

theorem onDatabase_error {α : Type} {m : Sql α} {s : CycleState} {e : Str} {c : Conn}
    (h : m s.conn = (.error e, c)) : onDatabase m s = .error e { s with conn := c } := by
  rw [onDatabase, h]

section Rules
variable {α : Type} {p q : Database → DeviceStatusStore → TaskState → Prop} {m : Sql α}
  {P : CycleState → Prop} {Q : Unit → CycleState → Prop} {E : Str → CycleState → Prop}

theorem ends_reads {R : α → Prop} (hm : m.Reads) (hret : m.Returns R) :
    Ends (Over p) (onDatabase m) (fun a s => R a ∧ Over p s) fun _ => Over p := by
  intro s hs
  have hsame := hm s.conn
  unfold onDatabase
  rcases hrun : m s.conn with ⟨e | a, c⟩
  · rw [hrun] at hsame
    show p c.tables s.registry s.task
    rw [hsame]
    exact hs
  · rw [hrun] at hsame
    refine ⟨hret s.conn a (by rw [hrun]), ?_⟩
    show p c.tables s.registry s.task
    rw [hsame]
    exact hs

theorem ends_changes {R : Database → Database → Prop} (hm : m.Changes R)
    (h : ∀ t u r task, R t u → p t r task → q u r task) :
    Ends (Over p) (onDatabase m) (fun _ => Over q) fun _ => Over q := by
  intro s hs
  have hc := hm s.conn
  unfold onDatabase
  rcases hrun : m s.conn with ⟨e | a, c⟩ <;> rw [hrun] at hc <;> exact h _ _ _ _ hc hs

theorem ends_writes {m : Sql Unit} {f : Database → Except Str Database} (hm : m.Writes f)
    (h : ∀ t u r task, f t = .ok u → p t r task → q u r task) :
    Ends (Over p) (onDatabase m) (fun _ => Over q) fun _ => Over p := by
  intro s hs
  have hc := hm s.conn
  unfold onDatabase
  rcases hrun : m s.conn with ⟨e | a, c⟩
  · rw [hrun] at hc
    obtain ⟨-, -, hsame⟩ | ⟨hfalse, -⟩ := hc
    · show p c.tables s.registry s.task
      rw [hsame]
      exact hs
    · cases hfalse
  · rw [hrun] at hc
    obtain ⟨e, hfalse, -⟩ | ⟨-, heffect⟩ := hc
    · cases hfalse
    · exact h _ _ _ _ heffect hs

theorem ends_modifyTask {f : TaskState → TaskState} (h : ∀ t r task, p t r task → q t r (f task)) :
    Ends (Over p) (modifyTask f) (fun _ => Over q) E :=
  .modify fun s hs => h s.conn.tables s.registry s.task hs

theorem ends_ofExcept {R : α → Prop} {r : Except Str α} (h : ∀ a, r = .ok a → R a) :
    Ends P (ofExcept r) (fun a s => R a ∧ P s) fun _ => P := by
  cases r with
  | error e => exact .throw fun _ hs => hs
  | ok a => exact .pure fun _ hs => ⟨h a rfl, hs⟩

end Rules

/-! ## 3. What a cycle does -/

/-- What the variables keep until the end of the `try` block. -/
structure TaskState.Same (task task' : TaskState) : Prop where
  name : task'.device.name = task.device.name
  statusName : task'.status.deviceName = task.status.deviceName
  lastSuccessTime : task'.status.lastSuccessTime = task.status.lastSuccessTime
  failCount : task'.failCount = task.failCount
  lastCleanupTime : task'.lastCleanupTime = task.lastCleanupTime

/-- The cycle has started in `s₀`; nothing but the tables, of which `T` holds, has changed. -/
def At (s₀ : CycleState) (T : Database → Prop) : CycleState → Prop :=
  Over fun t r task => T t ∧ r = s₀.registry ∧ s₀.task.Same task

section Cycle
open OnConnection (Initialised)

variable {models : ModelRepository} {input : CycleInput} {s₀ : CycleState} {T : Database → Prop}
  {name : SqlText} {E : Str → CycleState → Prop}

theorem setStage_ends (stage : String) :
    Ends (At s₀ T) (setStage stage) (fun _ => At s₀ T) E :=
  .modify fun _ ⟨ht, hr, htask⟩ =>
    ⟨ht, hr, htask.name, htask.statusName, htask.lastSuccessTime, htask.failCount,
      htask.lastCleanupTime⟩

theorem loadDevice_ends (hname : s₀.task.device.name = name.bytes) :
    Ends (At s₀ T) loadDevice (fun device s => device.name = name.bytes ∧ At s₀ T s)
      fun _ => At s₀ T := by
  refine .bind (setStage_ends _) fun _ => .bind (.get (Q := fun s s' =>
    s.task.device.name = name.bytes ∧ At s₀ T s') fun s hs => ⟨hs.2.2.name.trans hname, hs⟩)
    fun s => .given fun hs => ?_
  rw [hs]
  refine .bind (ends_reads SQLiteManager.reads_getDeviceByName
    SQLiteManager.returns_getDeviceByName) fun device => .given fun hdevice => ?_
  rw [cString_of_notMem name.noNul] at hdevice
  refine .bind (Q := fun _ => At s₀ T) (ends_modifyTask fun t r task ⟨ht, hr, htask⟩ =>
    ⟨ht, hr, hdevice.trans hname.symm, htask.statusName, htask.lastSuccessTime, htask.failCount,
      htask.lastCleanupTime⟩) fun _ => ?_
  split
  · exact .throw_bind fun _ hs => hs
  · exact .pure fun _ hs => ⟨hdevice, hs⟩

theorem storedDataPoints_ends {device : Device} (hdevice : device.name = name.bytes) :
    Ends (At s₀ (· = s₀.conn.tables)) (storedDataPoints models device)
      (fun _ => At s₀ (Initialised name.bytes s₀.conn.tables))
      fun _ => At s₀ (Initialised name.bytes s₀.conn.tables) := by
  have hstart : ∀ s, At s₀ (· = s₀.conn.tables) s →
      At s₀ (Initialised name.bytes s₀.conn.tables) s :=
    fun s ⟨ht, hr, htask⟩ => ⟨.inl ht, hr, htask⟩
  have hread : ∀ T, Ends (At s₀ T) (onDatabase (SQLiteManager.getDataPointsByDeviceName device.name))
      (fun _ => At s₀ T) fun _ => At s₀ T := fun T =>
    (ends_reads SQLiteManager.reads_getDataPointsByDeviceName (.any _)).weaken
      (fun _ hs => hs) (fun _ _ hs => hs.2) fun _ _ hs => hs
  refine .bind (setStage_ends _) fun _ => .bind ((hread _).weaken (fun _ hs => hs)
    (fun _ _ hs => hs) fun _ s hs => hstart s hs) fun points => ?_
  split
  · refine .bind (setStage_ends _) fun _ => ?_
    rw [hdevice] at hread ⊢
    have hinit := OnConnection.initDataPointsByDevice_changes models name.bytes []
    rw [cString_of_notMem name.noNul] at hinit
    refine .bind (ends_changes hinit fun t u r task htu ⟨ht, hr, htask⟩ => ⟨ht ▸ htu, hr, htask⟩)
      fun initResult => ?_
    cases initResult.ok with
    | false => exact .throw_bind fun _ hs => hs
    | true => exact .bind (setStage_ends _) fun _ => hread _
  · exact .pure hstart

theorem loadDataPoints_ends {device : Device} (hdevice : device.name = name.bytes) :
    Ends (At s₀ (· = s₀.conn.tables)) (loadDataPoints models device)
      (fun _ => At s₀ (Initialised name.bytes s₀.conn.tables))
      fun _ => At s₀ (Initialised name.bytes s₀.conn.tables) := by
  refine .bind (storedDataPoints_ends hdevice) fun points => ?_
  split
  · exact .throw_bind fun _ hs => hs
  · exact .pure fun _ hs => hs

theorem queryDriver_ends (device : Device) (points : List DataPoint) :
    Ends (At s₀ T) (queryDriver input device points) (fun _ => At s₀ T) fun _ => At s₀ T := by
  refine .bind (setStage_ends _) fun _ => .bind (ends_ofExcept fun _ _ => trivial) fun query => ?_
  refine .given fun _ => .bind (setStage_ends _) fun _ => ?_
  refine .bind (Q := fun _ => At s₀ T) (ends_modifyTask fun t r task ⟨ht, hr, htask⟩ =>
    ⟨ht, hr, htask.name, htask.statusName, htask.lastSuccessTime, htask.failCount,
      htask.lastCleanupTime⟩) fun _ => ?_
  cases input.connect device.ip device.port with
  | false => exact .throw_bind fun _ hs => hs
  | true =>
    refine .bind (setStage_ends _) fun _ => .bind (ends_ofExcept fun _ _ => trivial) fun response =>
      .given fun _ => ?_
    split
    · exact .throw_bind fun _ hs => hs
    · exact .pure fun _ hs => hs

/-- The points may have been initialised, and then the records have been inserted. -/
def Inserted (name : Str) (records : List ResourceRecord) (t u : Database) : Prop :=
  ∃ t₁ v, Initialised name t t₁ ∧
    t₁.resources.insertAll? (records.map ResourceRepository.boundRow) = some v ∧
    u = { t₁ with resources := v }

theorem storeRecords_ends {device : Device} {points : List DataPoint} {response : Str} :
    Ends (At s₀ (Initialised name.bytes s₀.conn.tables)) (storeRecords input device points response)
      (fun records s => processResponse device points response input.responseTime = .ok records ∧
        At s₀ (Inserted name.bytes records s₀.conn.tables) s)
      fun _ => At s₀ (Initialised name.bytes s₀.conn.tables) := by
  refine .bind (setStage_ends _) fun _ => .bind (ends_ofExcept fun _ h => h) fun records =>
    .given fun hrecords => ?_
  refine .bind (ends_writes SQLiteManager.writes_insertResources
    fun t u r task htu ⟨ht, hr, htask⟩ => (⟨?_, hr, htask⟩ :
      _ ∧ _ ∧ _)) fun _ => .pure fun _ hs => ⟨hrecords, hs⟩
  obtain ⟨v, hv, hfold⟩ := SQLiteManager.foldlM_insertResource (t := t) records
  rw [hfold] at htu
  cases htu
  exact ⟨t, v, ht, hv, rfl⟩

theorem insertNext_ends (models : ModelRepository) (input : CycleInput) (s₀ : CycleState)
    (name : SqlText) (hname : s₀.task.device.name = name.bytes) :
    Ends (· = s₀) (insertNext models input)
      (fun r s => (∀ record ∈ r.2, record.deviceName = name.bytes) ∧
        At s₀ (Inserted name.bytes r.2 s₀.conn.tables) s)
      fun _ => At s₀ (Initialised name.bytes s₀.conn.tables) := by
  have hstart : ∀ s, s = s₀ → At s₀ (· = s₀.conn.tables) s := by
    rintro s rfl
    exact ⟨rfl, rfl, rfl, rfl, rfl, rfl, rfl⟩
  refine .bind ((loadDevice_ends hname).weaken hstart (fun _ _ hs => hs) fun _ s ⟨ht, hr, htask⟩ =>
    ⟨.inl ht, hr, htask⟩) fun device => .given fun hdevice => ?_
  refine .bind (loadDataPoints_ends hdevice) fun points => .bind (queryDriver_ends _ _) fun response =>
    .bind storeRecords_ends fun records => .given fun hrecords => .pure fun s hs => ⟨?_, hs⟩
  rw [← hdevice]
  exact CollectionResponseParser.processResponse_deviceName hrecords

/-- What the cleanup of a cycle does. -/
inductive CleanupStep (now : ℤ) (s : CycleState) : CycleState → Prop
  | notDue : now - s.task.lastCleanupTime < kCleanupInterval → CleanupStep now s s
  | done {c : Conn} : kCleanupInterval ≤ now - s.task.lastCleanupTime →
      SQLiteManager.cleanupResourcesForDevice s.task.device.name kMaxRowsPerDevice s.conn =
        (.ok (), c) →
      CleanupStep now s { s with conn := c, task := { s.task with lastCleanupTime := now } }
  | failed {c : Conn} {e : Str} : kCleanupInterval ≤ now - s.task.lastCleanupTime →
      SQLiteManager.cleanupResourcesForDevice s.task.device.name kMaxRowsPerDevice s.conn =
        (.error e, c) →
      CleanupStep now s { s with conn := c }

/-- A cleanup never throws. -/
theorem cleanup_step (now : ℤ) (s : CycleState) : ∃ s', cleanup now s = .ok () s' ∧
    CleanupStep now s s' := by
  have hcleanup : cleanup now s = (if kCleanupInterval ≤ now - s.task.lastCleanupTime then
      tryCatch (do
          onDatabase (SQLiteManager.cleanupResourcesForDevice s.task.device.name kMaxRowsPerDevice)
          modifyTask fun task => { task with lastCleanupTime := now })
        fun _ => return ()
      else pure () : Cycle Unit) s := rfl
  rw [hcleanup]
  cases Int.decLe kCleanupInterval (now - s.task.lastCleanupTime) with
  | isFalse hnot =>
    rw [if_neg hnot]
    exact ⟨s, rfl, .notDue (not_le.mp hnot)⟩
  | isTrue hdue =>
    rw [if_pos hdue]
    rcases hcall : SQLiteManager.cleanupResourcesForDevice s.task.device.name kMaxRowsPerDevice
      s.conn with ⟨e | u, c⟩
    · exact ⟨_, Hoare.tryCatch_error (Hoare.bind_eq_error.mpr (.inl (onDatabase_error hcall))),
        .failed hdue hcall⟩
    · exact ⟨_, Hoare.tryCatch_ok (Hoare.bind_eq_ok.mpr ⟨(), _, onDatabase_ok hcall, rfl⟩),
        .done hdue hcall⟩

/-- A successful cycle: its insertion, the cleanup, and the new status. -/
theorem collect_eq_ok {records : List ResourceRecord} {s' : CycleState} :
    collect models input s₀ = .ok records s' → ∃ response s₁ s₂,
      insertNext models input s₀ = .ok (response, records) s₁ ∧
      CleanupStep input.now (s₁.at "close") s₂ ∧
      s' = s₂.succeed response input.statusTime := by
  intro h
  obtain ⟨⟨response, records'⟩, s₁, hinsert, h⟩ := Hoare.bind_eq_ok.mp h
  obtain ⟨u, s₂, hstage, h⟩ := Hoare.bind_eq_ok.mp h
  cases hstage
  obtain ⟨u, s₃, hcleanup, h⟩ := Hoare.bind_eq_ok.mp h
  obtain ⟨s₄, hrun, hstep⟩ := cleanup_step input.now (s₁.at "close")
  rw [show cleanup input.now _ = _ from hrun] at hcleanup
  cases hcleanup
  cases h
  exact ⟨response, s₁, s₃, hinsert, hstep, rfl⟩

/-- A cycle that fails has failed before its insertion. -/
theorem collect_eq_error {e : Str} {s' : CycleState} (h : collect models input s₀ = .error e s') :
    insertNext models input s₀ = .error e s' := by
  rcases Hoare.bind_eq_error.mp h with hinsert | ⟨⟨response, records⟩, s₁, hinsert, h⟩
  · exact hinsert
  obtain ⟨s₂, hrun, -⟩ := cleanup_step input.now (s₁.at "close")
  rcases Hoare.bind_eq_error.mp h with hstage | ⟨u, s₂, hstage, h⟩
  · cases hstage
  cases hstage
  rcases Hoare.bind_eq_error.mp h with hcleanup | ⟨u, s₃, hcleanup, h⟩
  · rw [show cleanup input.now _ = _ from hrun] at hcleanup
    cases hcleanup
  · rcases Hoare.bind_eq_error.mp h with hlast | ⟨u, s₄, -, h⟩
    · cases hlast
    · cases h

/-- What one turn of the loop does. -/
inductive CycleStep (models : ModelRepository) (input : CycleInput) (s : CycleState) :
    CycleResult → CycleState → Prop
  | succeeded {response : Str} {records : List ResourceRecord} {s₁ s₂ : CycleState} :
      insertNext models input (s.at "prepare") = .ok (response, records) s₁ →
      CleanupStep input.now (s₁.at "close") s₂ →
      CycleStep models input s (.succeeded records) (s₂.succeed response input.statusTime)
  | failed {e : Str} {s₁ : CycleState} :
      insertNext models input (s.at "prepare") = .error e s₁ → s₁.task.failCount + 1 < 5 →
      CycleStep models input s .failed (s₁.fail e)
  | gaveUp {e : Str} {s₁ : CycleState} :
      insertNext models input (s.at "prepare") = .error e s₁ → 5 ≤ s₁.task.failCount + 1 →
      CycleStep models input s .gaveUp (s₁.fail e)

/-- No exception leaves the loop. -/
theorem cycle_step (models : ModelRepository) (input : CycleInput) (s : CycleState) :
    ∃ result s', cycle models input s = .ok result s' ∧ CycleStep models input s result s' := by
  rcases hcollect : collect models input (s.at "prepare") with ⟨records, s₁⟩ | ⟨e, s₁⟩
  · obtain ⟨response, s₂, s₃, hinsert, hcleanup, rfl⟩ := collect_eq_ok hcollect
    have hrun := Hoare.tryCatch_ok (h := catchFailure)
      (Hoare.bind_eq_ok.mpr ⟨records, _, hcollect, rfl⟩ :
        (do return .succeeded (← collect models input) : Cycle CycleResult) _ = _)
    exact ⟨_, _, hrun, .succeeded hinsert hcleanup⟩
  · have hinsert := collect_eq_error hcollect
    have hrun := Hoare.tryCatch_error (h := catchFailure)
      (Hoare.bind_eq_error.mpr (.inl hcollect) :
        (do return .succeeded (← collect models input) : Cycle CycleResult) _ = _)
    refine ⟨_, _, hrun, ?_⟩
    show CycleStep models input s
      (if 5 ≤ s₁.task.failCount + 1 then .gaveUp else .failed) (s₁.fail e)
    split
    · next hlimit => exact .gaveUp hinsert hlimit
    · next hbelow => exact .failed hinsert (not_le.mp hbelow)

theorem runCycle_step (models : ModelRepository) (input : CycleInput) (s : CycleState) :
    CycleStep models input s (runCycle models input s).1 (runCycle models input s).2 := by
  obtain ⟨result, s', hrun, hstep⟩ := cycle_step models input s
  rwa [runCycle, hrun]

end Cycle

/-! ## 4. Without failures -/

/-- No call on the connection fails, and no transaction is open. -/
def Healthy (c : Conn) : Prop := ∃ n, c = healthy c.tables none n

/-- From states with `P`, on a connection where no call fails, the computation does to the tables
what the program does alone, and establishes `Q`. -/
def Alone {α : Type} (P : TaskState → Prop) (m : Cycle α) (p : Command α)
    (Q : α → TaskState → Prop) : Prop :=
  ∀ s, Healthy s.conn → P s.task → match m s with
    | .ok a s' => p.run s.conn.tables = (.ok a, s'.conn.tables) ∧ Healthy s'.conn ∧ Q a s'.task
    | .error e s' => p.run s.conn.tables = (.error e, s'.conn.tables) ∧ Healthy s'.conn

namespace Alone

variable {α β : Type} {P P' : TaskState → Prop} {m : Cycle α} {p : Command α}
  {Q : α → TaskState → Prop} {k : α → Cycle β} {q : α → Command β} {R : β → TaskState → Prop}

theorem pure (a : α) (h : ∀ task, P task → Q a task) : Alone P (pure a) (pure a) Q :=
  fun s hs hP => ⟨rfl, hs, h s.task hP⟩

theorem throw_bind (e : Str) : Alone P ((throw e : Cycle α) >>= k) (Command.throw e >>= q) R :=
  fun _ hs _ => ⟨rfl, hs⟩

theorem ofExcept (r : Except Str α) : Alone P (ofExcept r) (Command.lift r) fun _ => P := by
  cases r with
  | ok a => exact fun s hs hP => ⟨rfl, hs, hP⟩
  | error e => exact fun s hs _ => ⟨rfl, hs⟩

theorem ofExcept_bind {a : α} {q : Command β} (h : Alone P (k a) q R) :
    Alone P (DeviceTask.ofExcept (.ok a) >>= k) q R := h

theorem get_bind {k : CycleState → Cycle β} {q : Command β}
    (h : ∀ s, P s.task → Alone P (k s) q R) : Alone P (get >>= k) q R := fun s hs hP =>
  h s hP s hs hP

theorem given {fact : Prop} (h : fact → Alone P m p Q) : Alone (fun task => fact ∧ P task) m p Q :=
  fun s hs hP => h hP.1 s hs hP.2

theorem onDatabase_returns {m : Sql α} {S : α → Prop} (h : Sql.Alone m p) (hret : m.Returns S) :
    Alone P (DeviceTask.onDatabase m) p fun a task => S a ∧ P task := by
  intro s ⟨n, hs⟩ hP
  obtain ⟨n', hrun⟩ := h s.conn.tables n
  rw [← hs] at hrun
  rcases hp : p.run s.conn.tables with ⟨e | a, t⟩
  · rw [hp] at hrun
    rw [onDatabase_error hrun]
    exact ⟨rfl, n', rfl⟩
  · rw [hp] at hrun
    rw [onDatabase_ok hrun]
    exact ⟨rfl, ⟨n', rfl⟩, hret s.conn a (by rw [hrun]), hP⟩

theorem onDatabase {m : Sql α} (h : Sql.Alone m p) :
    Alone P (DeviceTask.onDatabase m) p fun _ => P := by
  intro s hs hP
  have hm := onDatabase_returns h (.any m) s hs hP
  cases hrun : DeviceTask.onDatabase m s with
  | ok a s' =>
    rw [hrun] at hm
    exact ⟨hm.1, hm.2.1, hm.2.2.2⟩
  | error e s' =>
    rw [hrun] at hm
    exact hm

theorem bind (hm : Alone P m p Q) (hk : ∀ a, Alone (Q a) (k a) (q a) R) :
    Alone P (m >>= k) (p >>= q) R := by
  intro s hs hP
  have hm' := hm s hs hP
  show match EStateM.bind m k s with
    | .ok a s' => _
    | .error e s' => _
  unfold EStateM.bind
  cases hrun : m s with
  | ok a s' =>
    rw [hrun] at hm'
    obtain ⟨hp, hs', hQ⟩ := hm'
    rw [Command.run_bind_ok hp]
    exact hk a s' hs' hQ
  | error e s' =>
    rw [hrun] at hm'
    rw [Command.run_bind_error hm'.1]
    exact ⟨rfl, hm'.2⟩

/-- Only what the program does when it runs counts. -/
theorem congr {p' : Command α} (hp : ∀ t, p'.run t = p.run t) (h : Alone P m p Q) :
    Alone P m p' Q := by
  intro s hs hP
  rw [hp]
  exact h s hs hP

/-- A step on the variables of the worker has no counterpart in the program. -/
theorem modify_bind {Q : TaskState → Prop} {f : CycleState → CycleState} {k : Unit → Cycle β}
    {q : Command β} (hconn : ∀ s, (f s).conn = s.conn) (hP : ∀ s, P s.task → Q (f s).task)
    (hk : Alone Q (k ()) q R) : Alone P (modify f >>= k) q R := by
  intro s hs hPs
  have hk' := hk (f s) (by rwa [hconn]) (hP s hPs)
  rwa [hconn] at hk'

end Alone

/-- The response, or why there is none. -/
def CycleInput.respond (input : CycleInput) (device : Device) (points : List DataPoint) :
    Except Str Str :=
  match buildQuery (makeCid device.name input.cidTime) points with
  | .error e => .error e
  | .ok query =>
    if input.connect device.ip device.port then
      match sendQuery input device query with
      | .error e => .error e
      | .ok response => if response = [] then .error (lit "response is empty") else .ok response
    else .error (lit "DriverClient connect failed for " ++ device.name ++ lit " at ws://" ++
      device.ip ++ lit ":" ++ decimal device.port)

/-- What a cycle meets, as the program of a cycle takes it. -/
def CycleInput.environment (input : CycleInput) (lastCleanupTime : ℤ) :
    DataTask.CycleEnvironment where
  collect device points := (input.respond device points).bind fun response =>
    processResponse device points response input.responseTime
  cleanupDue := kCleanupInterval ≤ input.now - lastCleanupTime

section AloneCycle
variable {models : ModelRepository} {input : CycleInput} {name : Str} {last : ℤ}

/-- The device and the timer of the worker. -/
def Runs (name : Str) (last : ℤ) (task : TaskState) : Prop :=
  task.device.name = name ∧ task.lastCleanupTime = last

theorem setStage_bind {β : Type} {P : TaskState → Prop} {stage : String} {k : Unit → Cycle β}
    {q : Command β} {R : β → TaskState → Prop}
    (hP : ∀ task : TaskState, P task → P { task with stage := lit stage })
    (hk : Alone P (k ()) q R) : Alone P (setStage stage >>= k) q R :=
  .modify_bind (fun _ => rfl) (fun s hs => hP s.task hs) hk

theorem storedDataPoints_alone (models : ModelRepository) (device : Device) :
    Alone (Runs name last) (storedDataPoints models device)
      (DataTask.storedDataPoints models device.name []) fun _ => Runs name last := by
  refine setStage_bind (fun _ h => h) (.bind (.onDatabase
    SQLiteManager.alone_getDataPointsByDeviceName) fun points => ?_)
  split
  · refine setStage_bind (fun _ h => h) (.bind (.onDatabase
      (OnConnection.initDataPointsByDevice_alone models device.name [])) fun initResult => ?_)
    cases initResult.ok with
    | false => exact .throw_bind _
    | true =>
      exact setStage_bind (fun _ h => h) (.onDatabase SQLiteManager.alone_getDataPointsByDeviceName)
  · exact .pure _ fun _ h => h

theorem loadDataPoints_alone (models : ModelRepository) (device : Device) :
    Alone (Runs name last) (loadDataPoints models device)
      (DataTask.loadDataPoints models device.name []) fun _ => Runs name last := by
  refine .bind (storedDataPoints_alone models device) fun points => ?_
  split
  · exact .throw_bind _
  · exact .pure _ fun _ h => h

theorem queryDriver_alone (device : Device) (points : List DataPoint) :
    Alone (Runs name last) (queryDriver input device points)
      (Command.lift (input.respond device points)) fun _ => Runs name last := by
  unfold queryDriver CycleInput.respond
  refine setStage_bind (fun _ h => h) ?_
  cases buildQuery (makeCid device.name input.cidTime) points with
  | error e => exact fun s hs _ => ⟨rfl, hs⟩
  | ok query =>
    refine .ofExcept_bind (setStage_bind (fun _ h => h) (.modify_bind (Q := Runs name last)
      (fun _ => rfl) (fun _ h => h) ?_))
    cases input.connect device.ip device.port with
    | false => exact fun s hs _ => ⟨rfl, hs⟩
    | true =>
      refine setStage_bind (fun _ h => h) ?_
      cases hanswer : sendQuery input device query with
      | error e =>
        simp only [hanswer]
        exact fun s hs _ => ⟨rfl, hs⟩
      | ok response =>
        simp only [hanswer]
        refine .ofExcept_bind ?_
        cases decEq response [] with
        | isTrue hempty =>
          simp only [hempty, if_true]
          exact fun s hs _ => ⟨rfl, hs⟩
        | isFalse hresponse =>
          simp only [hresponse, if_false]
          exact fun s hs hP => ⟨rfl, hs, hP⟩

/-- The end of a cycle: its cleanup, and nothing more on the database. -/
theorem cleanup_alone {name : Str} {last now : ℤ} {f : CycleState → CycleState}
    (hconn : ∀ s, (f s).conn = s.conn) :
    Alone (Runs name last) (do
        cleanup now
        modify f)
      (if decide (kCleanupInterval ≤ now - last) = true then
        Command.noThrow (Command.tryCatch
          (Command.call (SQLiteManager.cleanupResourcesForDevice name kMaxRowsPerDevice))
          fun _ => ())
        else pure ()) fun _ _ => True := by
  intro s ⟨n, hs⟩ ⟨hname, hlast⟩
  obtain ⟨s', hrun, hstep⟩ := cleanup_step now s
  obtain ⟨n', hcall⟩ := SQLiteManager.alone_cleanupResourcesForDevice
    name kMaxRowsPerDevice s.conn.tables n
  rw [← hs] at hcall
  have hrun' : (do
      cleanup now
      modify f : Cycle Unit) s = .ok () (f s') := Hoare.bind_eq_ok.mpr ⟨(), s', hrun, rfl⟩
  rw [hrun']
  show Program.run _ s.conn.tables = (Except.ok (), (f s').conn.tables) ∧ Healthy (f s').conn ∧ True
  rw [hconn]
  cases hstep with
  | notDue hnot =>
    rw [if_neg (by simpa [hlast] using hnot)]
    exact ⟨rfl, ⟨n, hs⟩, trivial⟩
  | done hdue hdone =>
    rw [if_pos (by simpa [hlast] using hdue), Command.run_noThrow, Command.run_tryCatch]
    rw [hname, hcall, Prod.mk.injEq] at hdone
    obtain ⟨hok, rfl⟩ := hdone
    rcases hp : (Command.call (SQLiteManager.cleanupResourcesForDevice name kMaxRowsPerDevice)).run
      s.conn.tables with ⟨e | u, t⟩
    · rw [hp] at hok
      cases hok
    · exact ⟨rfl, ⟨n', rfl⟩, trivial⟩
  | failed hdue hfailed =>
    rw [if_pos (by simpa [hlast] using hdue), Command.run_noThrow, Command.run_tryCatch]
    rw [hname, hcall, Prod.mk.injEq] at hfailed
    obtain ⟨herror, rfl⟩ := hfailed
    rcases hp : (Command.call (SQLiteManager.cleanupResourcesForDevice name kMaxRowsPerDevice)).run
      s.conn.tables with ⟨e | u, t⟩
    · exact ⟨rfl, ⟨n', rfl⟩, trivial⟩
    · rw [hp] at herror
      cases herror

/-- The program of a cycle up to the insertion. -/
def insertProgram (models : ModelRepository) (input : CycleInput) (deviceName : Str) :
    Command (Str × List ResourceRecord) := do
  let device ← Command.call (SQLiteManager.getDeviceByName deviceName)
  if device.status = 0 then
    Command.throw (lit "device is offline: " ++ device.name)
  let points ← DataTask.loadDataPoints models device.name []
  let response ← Command.lift (input.respond device points)
  let records ← Command.lift (processResponse device points response input.responseTime)
  Command.call (SQLiteManager.insertResources records)
  return (response, records)

theorem insertNext_alone (models : ModelRepository) (input : CycleInput) (name : SqlText)
    (last : ℤ) : Alone (Runs name.bytes last) (insertNext models input)
      (insertProgram models input name.bytes) fun _ => Runs name.bytes last := by
  simp only [insertNext, loadDevice, storeRecords, bind_assoc, pure_bind, insertProgram]
  refine setStage_bind (fun _ h => h) (.get_bind fun s hs => ?_)
  rw [hs.1]
  refine .bind (.onDatabase_returns SQLiteManager.alone_getDeviceByName
    SQLiteManager.returns_getDeviceByName) fun device => .given fun hdevice => ?_
  rw [cString_of_notMem name.noNul] at hdevice
  refine .modify_bind (Q := Runs name.bytes last) (fun _ => rfl) (fun _ h => ⟨hdevice, h.2⟩) ?_
  cases decEq device.status 0 with
  | isTrue hoffline =>
    simp only [hoffline, if_true, bind_assoc]
    exact .throw_bind _
  | isFalse honline =>
    simp only [honline, if_false, pure_bind]
    refine .bind (loadDataPoints_alone models device) fun points => .bind
      (queryDriver_alone device points) fun response => setStage_bind (fun _ h => h)
      (.bind (.ofExcept _) fun records => ?_)
    exact .bind (.onDatabase (SQLiteManager.alone_insertResources records)) fun _ =>
      .pure _ fun _ h => h

/-- The program of a cycle, cut behind the insertion. -/
theorem collectionCycle_run (models : ModelRepository) (input : CycleInput) (name : SqlText)
    (last : ℤ) (t : Database) :
    (DataTask.collectionCycle models (input.environment last) name.bytes).run t =
      (insertProgram models input name.bytes >>= fun _ =>
        if decide (kCleanupInterval ≤ input.now - last) = true then
          Command.noThrow (Command.tryCatch
            (Command.call (SQLiteManager.cleanupResourcesForDevice name.bytes kMaxRowsPerDevice))
            fun _ => ())
        else pure ()).run t := by
  rw [insertProgram, Command.run_bind_assoc, DataTask.collectionCycle, Command.run_bind,
    Command.run_bind, Command.run_call, SQLiteManager.exec_getDeviceByName]
  cases hx : DeviceRepository.named name.bytes t with
  | none => rfl
  | some x =>
    have hname : (DeviceRepository.readDevice x).name = name.bytes := by
      simp [DeviceRepository.readDevice, columnText, (DeviceRepository.named_eq_some.mp hx).2]
    simp only [hname]
    cases decEq (DeviceRepository.readDevice x).status 0 with
    | isTrue hoffline =>
      simp only [hoffline, if_true]
      rfl
    | isFalse honline =>
      simp only [honline, if_false, Command.run_bind_assoc]
      rw [Command.run_bind, Command.run_bind (DataTask.loadDataPoints models name.bytes [])]
      rcases (DataTask.loadDataPoints models name.bytes []).run t with ⟨e | points, t'⟩
      · rfl
      · simp only [CycleInput.environment, Command.run_bind, Command.run_lift]
        cases input.respond (DeviceRepository.readDevice x) points with
        | error e => rfl
        | ok response =>
          simp only [Except.bind]
          cases processResponse (DeviceRepository.readDevice x) points response input.responseTime with
          | error e => rfl
          | ok records =>
            simp only
            rcases (Command.call (SQLiteManager.insertResources records)).run t' with ⟨e | u, t''⟩ <;>
              rfl

/-- A cycle on a connection where no call fails does to the tables what its program does alone. -/
theorem collect_alone (models : ModelRepository) (input : CycleInput) (name : SqlText) (last : ℤ) :
    Alone (Runs name.bytes last) (do let _ ← collect models input)
      (DataTask.collectionCycle models (input.environment last) name.bytes) fun _ _ => True := by
  simp only [collect, bind_assoc, pure_bind]
  refine .congr (collectionCycle_run models input name last) (.bind
    (insertNext_alone models input name last) fun r => ?_)
  exact setStage_bind (fun _ h => h) (cleanup_alone fun _ => rfl)

end AloneCycle

end DeviceTask

end CollectorService
