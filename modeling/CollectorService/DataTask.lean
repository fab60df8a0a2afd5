import CollectorService.Command
import CollectorService.ModelFiles

/-!
# Database side of `DataTask`

The initialisation of a device's data points, what a start reads before it touches the registry, and
one cycle of a collection worker, as programs of manager calls.
-/

namespace CollectorService.DataTask

open Command

/-- `catch (const std::exception& ex)` of the task functions. -/
def failure (mid message : Str) : CommandResult := { code := 500, msg := message, mid }

def initDataPointsByDevice (models : ModelRepository) (deviceName mid : Str) :
    Program Database CommandResult :=
  Command.tryCatch (do
      if !(← call (SQLiteManager.deviceExists deviceName)) then
        Command.throw (lit "device not found: " ++ deviceName)
      let device ← call (SQLiteManager.getDeviceByName deviceName)
      let points ← lift (modelPoints models device)
      call (SQLiteManager.replaceDataPointsForDevice device points)
      return { msg := lit "DataPoint initialized for device: " ++ deviceName, mid })
    (failure mid)

/-- The stored data points of a device, or the initialised ones when there are none. -/
def storedDataPoints (models : ModelRepository) (deviceName mid : Str) :
    Command (List DataPoint) := do
  let points ← call (SQLiteManager.getDataPointsByDeviceName deviceName)
  if points = [] then
    let initResult ← noThrow (initDataPointsByDevice models deviceName mid)
    if !initResult.ok then
      Command.throw initResult.msg
    call (SQLiteManager.getDataPointsByDeviceName deviceName)
  else return points

/-- The data points of a device that is about to be collected. -/
def loadDataPoints (models : ModelRepository) (deviceName mid : Str) : Command (List DataPoint) := do
  let points ← storedDataPoints models deviceName mid
  if points = [] then
    Command.throw (lit "device has no configured data points: " ++ deviceName)
  return points

/-- `startDeviceCollect`, before it looks at the registry. -/
def startChecks (models : ModelRepository) (deviceName mid : Str) : Command Device := do
  if !(← call (SQLiteManager.deviceExists deviceName)) then
    Command.throw (lit "device not found: " ++ deviceName)
  let device ← call (SQLiteManager.getDeviceByName deviceName)
  if device.status = 0 then
    Command.throw (lit "device is offline: " ++ deviceName)
  let _ ← loadDataPoints models deviceName mid
  return device

/-- What `startAll` reads: the devices, and for each one that is online what its start reads. -/
def startAllChecks (models : ModelRepository) : Command Unit := do
  let devices ← call SQLiteManager.getDevices
  startEach devices
where
  startEach : List Device → Command Unit
    | [] => return ()
    | device :: rest => do
      if device.status ≠ 0 then
        let _ ← noThrow (startChecks models device.name [])
      startEach rest

/-- The most rows of `Resources` that a cleanup leaves a device. -/
def kMaxRowsPerDevice : ℤ := 5000

/-- What a cycle meets outside the database: the records that the driver's response gives for the
device and its points, or the failure of a stage on the way to them, and whether the cleanup
interval has passed. -/
structure CycleEnvironment where
  collect : Device → List DataPoint → Except Str (List ResourceRecord)
  cleanupDue : Bool

/-- The `try` block of one cycle of `runDeviceTask`. -/
def collectionCycle (models : ModelRepository) (env : CycleEnvironment) (deviceName : Str) :
    Command Unit := do
  let device ← call (SQLiteManager.getDeviceByName deviceName)
  if device.status = 0 then
    Command.throw (lit "device is offline: " ++ device.name)
  let points ← loadDataPoints models device.name []
  let records ← lift (env.collect device points)
  call (SQLiteManager.insertResources records)
  if env.cleanupDue then
    -- a cleanup that fails is logged only
    noThrow (Command.tryCatch
      (call (SQLiteManager.cleanupResourcesForDevice device.name kMaxRowsPerDevice)) fun _ => ())

/-! ## Outcomes of a task that runs alone -/

section Outcomes
variable {models : ModelRepository} {deviceName mid : Str} {t : Database}

open DeviceRepository (named readDevice)

theorem initDataPointsByDevice_run (models : ModelRepository) (deviceName mid : Str) (t : Database) :
    (initDataPointsByDevice models deviceName mid).run t =
      match named deviceName t with
      | none => (failure mid (lit "device not found: " ++ cString deviceName), t)
      | some x => match modelPoints models (readDevice x) with
        | .error e => (failure mid (cString e), t)
        | .ok points =>
          match (DataPointRepository.deleteEffect (readDevice x).name t).dataPoint.insertAll?
              (points.map (DataPointRepository.boundRow (readDevice x))) with
          | none => (failure mid
              (lit "UNIQUE constraint failed: DataPoint.DName, DataPoint.NamePath"), t)
          | some u => ({ msg := lit "DataPoint initialized for device: " ++ deviceName, mid },
              { t with dataPoint := u }) := by
  rw [initDataPointsByDevice, run_tryCatch, run_bind, run_call, SQLiteManager.exec_deviceExists]
  cases hx : named deviceName t with
  | none =>
    show (failure mid (cString (lit "device not found: " ++ deviceName)), t) = _
    rw [cString_append (by decide)]
  | some x =>
    have hget : (call (SQLiteManager.getDeviceByName deviceName)).run t = (.ok (readDevice x), t) := by
      rw [run_call, SQLiteManager.exec_getDeviceByName, hx]
    simp only [Option.isSome_some, Bool.not_true, Bool.false_eq_true, if_false, run_bind_ok hget]
    cases hpoints : modelPoints models (readDevice x) with
    | error e => rfl
    | ok points =>
      rw [run_bind_ok (run_lift _ _), run_bind, run_call,
        SQLiteManager.exec_replaceDataPointsForDevice]
      dsimp only
      cases (DataPointRepository.deleteEffect (readDevice x).name t).dataPoint.insertAll?
        (points.map (DataPointRepository.boundRow (readDevice x))) with
      | none => exact congrArg (fun e => (failure mid e, t)) (cString_of_notMem (by decide))
      | some u => rfl

/-- The initialisation fails and changes nothing, or replaces the points of the named device by those
of its model. -/
theorem initDataPointsByDevice_cases (models : ModelRepository) (deviceName mid : Str)
    (t : Database) :
    (∃ e, (initDataPointsByDevice models deviceName mid).run t = (failure mid e, t)) ∨
    ∃ x points u, named deviceName t = some x ∧ modelPoints models (readDevice x) = .ok points ∧
      (DataPointRepository.deleteEffect (readDevice x).name t).dataPoint.insertAll?
        (points.map (DataPointRepository.boundRow (readDevice x))) = some u ∧
      (initDataPointsByDevice models deviceName mid).run t =
        ({ msg := lit "DataPoint initialized for device: " ++ deviceName, mid },
          { t with dataPoint := u }) := by
  rw [initDataPointsByDevice_run]
  cases hx : named deviceName t with
  | none => exact .inl ⟨_, rfl⟩
  | some x =>
    cases hpoints : modelPoints models (readDevice x) with
    | error e => exact .inl ⟨cString e, by simp only [hpoints]⟩
    | ok points =>
      simp only [hpoints]
      cases hins : (DataPointRepository.deleteEffect (readDevice x).name t).dataPoint.insertAll?
          (points.map (DataPointRepository.boundRow (readDevice x))) with
      | none => exact .inl ⟨_, rfl⟩
      | some u => exact .inr ⟨x, points, u, rfl, hpoints, hins, rfl⟩

/-- A failed initialisation changes nothing. -/
theorem initDataPointsByDevice_failed
    (h : ((initDataPointsByDevice models deviceName mid).run t).1.ok = false) :
    ((initDataPointsByDevice models deviceName mid).run t).2 = t := by
  rcases initDataPointsByDevice_cases models deviceName mid t with
    ⟨e, hrun⟩ | ⟨x, points, u, -, -, -, hrun⟩
  · rw [hrun]
  · rw [hrun] at h
    cases h

/-- The initialisation writes to `DataPoint` only. -/
theorem initDataPointsByDevice_device :
    ((initDataPointsByDevice models deviceName mid).run t).2.device = t.device := by
  rcases initDataPointsByDevice_cases models deviceName mid t with
    ⟨e, hrun⟩ | ⟨x, points, u, -, -, -, hrun⟩ <;> rw [hrun]

end Outcomes

end CollectorService.DataTask
