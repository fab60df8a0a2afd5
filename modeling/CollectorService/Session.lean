import CollectorService.CommandProcessor
import CollectorService.Isolation
import CollectorService.Serializers

/-!
# Commands in the service

`CommandProcessor::handle` as one session of the server runs it: on the connection, where every call
may fail, and on the registry. Other sessions and the workers wait while it runs, except that a
`join` lets its worker run to its end.

* `Session`: a computation of the service.
* `handle`: the dispatch on the category, and its one `catch` block.
* `createDevice_alone`, `deleteDevice_alone`, `updateDevice_alone`: without failures the device
  commands do what their programs do that run alone.
-/

namespace CollectorService

/-! ## 1. Computations of the service -/

/-- The process: its connection and its registry. -/
structure Process where
  conn : Conn
  registry : DeviceStatusStore

/-- A computation that returns, throws an exception with a message, or terminates the process. -/
abbrev Session (α : Type) := Process → Option (Except Str α × Process)

namespace Session

variable {α β : Type} {m : Session α} {k : α → Session β} {p p' : Process}

protected def pure (a : α) : Session α := fun p => some (.ok a, p)

protected def bind (m : Session α) (k : α → Session β) : Session β := fun p =>
  match m p with
  | some (.ok a, p') => k a p'
  | some (.error e, p') => some (.error e, p')
  | none => none

instance : Monad Session where
  pure := Session.pure
  bind := Session.bind

/-- `throw std::runtime_error(message)`. -/
def throw (message : Str) : Session α := fun p => some (.error message, p)

/-- `try { ... } catch (const std::exception& ex) { ... }`; the handler reads `ex.what()`, a C string. -/
def tryCatch (m : Session α) (handler : Str → α) : Session α := fun p =>
  match m p with
  | some (.error e, p') => some (.ok (handler (cString e)), p')
  | r => r

/-- A computation on the connection. -/
def onConnection (m : Sql α) : Session α := fun p =>
  match m p.conn with
  | (r, c) => some (r, { p with conn := c })

/-- A computation on the registry, which throws nothing. -/
def onRegistry (f : DeviceStatusStore → α × DeviceStatusStore) : Session α := fun p =>
  match f p.registry with
  | (a, s) => some (.ok a, { p with registry := s })

@[simp] theorem pure_apply (a : α) (p : Process) : (pure a : Session α) p = some (.ok a, p) := rfl

theorem bind_apply (m : Session α) (k : α → Session β) (p : Process) :
    (m >>= k) p = match m p with
      | some (.ok a, p') => k a p'
      | some (.error e, p') => some (.error e, p')
      | none => none := rfl

theorem bind_ok {a : α} (h : m p = some (.ok a, p')) : (m >>= k) p = k a p' := by
  rw [bind_apply, h]

theorem bind_error {e : Str} (h : m p = some (.error e, p')) :
    (m >>= k) p = some (.error e, p') := by
  rw [bind_apply, h]

theorem bind_none (h : m p = none) : (m >>= k) p = none := by
  rw [bind_apply, h]

end Session

/-! ## 2. Device commands -/

namespace OnConnection

open CommandProcessor (errorResult keepStatus namesStatus)
open SQLiteManager (targetName)

/-- `handleCreateDevice`, behind the parser. -/
def createDevice (models : ModelRepository) (device : DeviceUpsert) (mid : Str) :
    Sql CommandResult := do
  if device.name = [] then return errorResult mid (lit "device_name is empty")
  if device.model = [] then return errorResult mid (lit "model is empty")
  if ← SQLiteManager.deviceExists device.name then
    return errorResult mid (lit "device already exists: " ++ device.name)
  SQLiteManager.createDevice device
  let initResult ← initDataPointsByDevice models device.name mid
  if !initResult.ok then return initResult
  return { msg := lit "device created: " ++ device.name, mid }

/-- `handleDeleteDevice`, behind the parser. -/
def deleteDevice (deviceName mid : Str) : Sql CommandResult := do
  if !(← SQLiteManager.deviceExists deviceName) then
    return errorResult mid (lit "device not found: " ++ deviceName)
  SQLiteManager.deleteDevice deviceName
  return { msg := lit "device deleted: " ++ deviceName, mid }

/-- `handleUpdateDevice`, behind the parser; `hasStatus` tells whether the request names a status. -/
def updateDevice (models : ModelRepository) (device : DeviceUpsert) (hasStatus : Bool) (mid : Str) :
    Sql CommandResult := do
  if device.name = [] then return errorResult mid (lit "device_name is empty")
  if device.model = [] then return errorResult mid (lit "model is empty")
  if !(← SQLiteManager.deviceExists (targetName device)) then
    return errorResult mid (lit "device not found: " ++ device.name)
  let before ← SQLiteManager.getDeviceByName (targetName device)
  let device := keepStatus device hasStatus before
  SQLiteManager.updateDevice device
  if before.model ≠ device.model ∨ before.modelVersion ≠ device.modelVersion then
    let initResult ← initDataPointsByDevice models device.name mid
    if !initResult.ok then return initResult
  return { msg := lit "device updated: " ++ device.name, mid }

def handleCreateDevice (models : ModelRepository) (requestText mid : Str) : Sql CommandResult := do
  let device ← Sql.ofExcept (CommandParser.parseDeviceUpsert requestText)
  createDevice models device mid

def handleDeleteDevice (requestText mid : Str) : Sql CommandResult :=
  deleteDevice (extractStringField requestText (lit "device_name")) mid

def handleUpdateDevice (models : ModelRepository) (requestText mid : Str) : Sql CommandResult := do
  let device ← Sql.ofExcept (CommandParser.parseDeviceUpsert requestText)
  updateDevice models device (namesStatus requestText) mid

end OnConnection

/-! ## 3. Tasks -/

namespace Session

def startDeviceCollect (models : ModelRepository) (deviceName mid : Str) :
    Session CommandResult := fun p =>
  (OnConnection.startDeviceCollect models deviceName mid p.conn p.registry).map
    fun (r, c, s) => (.ok r, ⟨c, s⟩)

def stopDeviceCollect (deviceName mid : Str) : Session CommandResult := fun p =>
  match OnConnection.stopDeviceCollect deviceName mid p.conn p.registry with
  | (r, c, s) => some (r, ⟨c, s⟩)

/-- The loop of `startAll`; what the starts answer is logged only. -/
def startEachDevice (models : ModelRepository) : List Device → Session Unit
  | [] => return ()
  | device :: rest => do
    if device.status ≠ 0 then
      let _ ← startDeviceCollect models device.name []
    startEachDevice models rest

def startAll (models : ModelRepository) : Session Unit := do
  startEachDevice models (← onConnection SQLiteManager.getDevices)

def stopAll : Session Unit := onRegistry fun s => ((), DataTask.stopAll s)

def getStatus : Session (List DeviceStatus) := onRegistry fun s => (s.getStatus, s)

end Session

/-! ## 4. `CommandProcessor::handle` -/

/-- What `handle` passes to the serializer. -/
inductive Answer where
  | result (result : CommandResult)
  | statuses (statuses : List DeviceStatus) (mid : Str)

def Answer.toJson : Answer → Str
  | .result r => r.toJson
  | .statuses items mid => statusesToJson items mid

namespace CommandProcessor

open Session (onConnection)

def handleStartDeviceCollect (models : ModelRepository) (requestText mid : Str) :
    Session CommandResult :=
  Session.startDeviceCollect models (extractStringField requestText (lit "device_name")) mid

def handleStopDeviceCollect (requestText mid : Str) : Session CommandResult :=
  Session.stopDeviceCollect (extractStringField requestText (lit "device_name")) mid

def handleStartAll (models : ModelRepository) (mid : Str) : Session CommandResult := do
  Session.startAll models
  return { msg := lit "all online device collections started", mid }

def handleStopAll (mid : Str) : Session CommandResult := do
  Session.stopAll
  return { msg := lit "all device collections stopped", mid }

/-- The `try` block of `handle`. -/
def dispatch (models : ModelRepository) (requestText mid category : Str) : Session Answer := do
  if category = lit "create_device" then
    return .result (← onConnection (OnConnection.handleCreateDevice models requestText mid))
  if category = lit "delete_device" then
    return .result (← onConnection (OnConnection.handleDeleteDevice requestText mid))
  if category = lit "update_device" then
    return .result (← onConnection (OnConnection.handleUpdateDevice models requestText mid))
  if category = lit "start_device_collect" then
    return .result (← handleStartDeviceCollect models requestText mid)
  if category = lit "stop_device_collect" then
    return .result (← handleStopDeviceCollect requestText mid)
  if category = lit "start_all" then
    return .result (← handleStartAll models mid)
  if category = lit "stop_all" then
    return .result (← handleStopAll mid)
  if category = lit "get_status" then
    return .statuses (← Session.getStatus) mid
  return .result (errorResult mid (lit "unknown cmd category: " ++ category))

/-- `handle`, before the answer is written as JSON. -/
def answer (models : ModelRepository) (requestText : Str) : Session Answer :=
  let mid := extractStringField requestText (lit "mid")
  let category := extractStringField requestText (lit "category")
  Session.tryCatch (dispatch models requestText mid category)
    fun e => .result (errorResult mid e)

def handle (models : ModelRepository) (requestText : Str) : Session Str := do
  return (← answer models requestText).toJson

end CommandProcessor

/-! ## 5. Without failures -/

namespace Sql

variable {α β : Type} {m : Sql α} {k : α → Sql β}

/-- What a call does without failures does not depend on the calls before it. -/
def Steady (m : Sql α) : Prop := Alone m (Command.call m)

namespace Steady

theorem bind (hm : m.Steady) (hk : ∀ a, (k a).Steady) : (m >>= k).Steady := by
  intro t n
  obtain ⟨n₀, hrun₀⟩ := hm t 0
  obtain ⟨n₁, hrun⟩ := hm t n
  rw [Command.run_call] at hrun₀ hrun ⊢
  rcases hexec : m.exec t with ⟨e | a, u⟩
  · rw [hexec] at hrun₀ hrun
    refine ⟨n₁, ?_⟩
    rw [exec_eq, bind_error hrun, bind_error hrun₀]
    rfl
  · rw [hexec] at hrun₀ hrun
    obtain ⟨n₂, hk₂⟩ := hk a u n₀
    obtain ⟨n₃, hk₃⟩ := hk a u n₁
    refine ⟨n₃, ?_⟩
    rw [exec_eq, bind_ok hrun, bind_ok hrun₀, hk₂, hk₃]
    rfl

theorem pure (a : α) : (pure a : Sql α).Steady := fun _ n => ⟨n, rfl⟩

theorem throw (e : Str) : (Sql.throw e : Sql α).Steady := fun _ n => ⟨n, rfl⟩

theorem ite {condition : Prop} [Decidable condition] {m' : Sql α} (hm : m.Steady) (hm' : m'.Steady) :
    (if condition then m else m').Steady := by
  split
  · exact hm
  · exact hm'

theorem prepare : CollectorService.prepare.Steady := fun _ n => ⟨n + 1, rfl⟩

theorem stepDone (effect : Database → Except Str Database) :
    (CollectorService.stepDone effect).Steady := by
  intro t n
  rw [Command.run_call, exec_eq, stepDone_healthy, stepDone_healthy]
  cases effect t <;> exact ⟨n + 1, rfl⟩

theorem statement (effect : Database → Except Str Database) :
    (CollectorService.prepare >>= fun _ => CollectorService.stepDone effect).Steady :=
  .bind .prepare fun _ => .stepDone effect

end Steady

end Sql

namespace SQLiteManager

open Sql (Alone Steady)

variable (device : DeviceUpsert) (deviceName : Str)

theorem alone_createDevice :
    Alone (createDevice device) (Command.call (createDevice device)) := by
  refine Steady.bind alone_deviceExists fun found => ?_
  cases found with
  | true => exact .bind (.throw _) fun _ => .statement _
  | false => exact .statement _

theorem alone_updateDevice :
    Alone (updateDevice device) (Command.call (updateDevice device)) := by
  have hpoints (existing : Device) : Steady (if existing.model ≠ device.model ∨
      existing.modelVersion ≠ device.modelVersion then
        DataPointRepository.deleteByDeviceName device.name else return ()) :=
    .ite (.statement _) (.pure ())
  have hrows (existing : Device) : Steady (do
      DeviceRepository.update device (targetName device)
      if device.name ≠ targetName device then
        DataPointRepository.renameDevice (targetName device) device.name
      if existing.model ≠ device.model ∨ existing.modelVersion ≠ device.modelVersion then
        DataPointRepository.deleteByDeviceName device.name) :=
    .bind (.statement _) fun _ => .ite (.bind (.statement _) fun _ => hpoints existing)
      (hpoints existing)
  refine Steady.bind alone_getDeviceByName fun existing => .ite ?_ (hrows existing)
  refine .bind alone_deviceExists fun found => ?_
  cases found with
  | true => exact .bind (.throw _) fun _ => hrows existing
  | false => exact hrows existing

theorem alone_deleteDevice :
    Alone (deleteDevice deviceName) (Command.call (deleteDevice deviceName)) := by
  refine Steady.bind alone_deviceExists fun found => ?_
  cases found with
  | true => exact fun _ n => ⟨n + 1 + 2 + 2 + 1, rfl⟩
  | false => exact .bind (.throw _) fun _ _ n => ⟨n + 1 + 2 + 2 + 1, rfl⟩

end SQLiteManager

namespace OnConnection

open Sql (Alone)

variable (models : ModelRepository) (device : DeviceUpsert) (hasStatus : Bool)
  (deviceName mid : Str)

theorem createDevice_alone : Alone (createDevice models device mid)
    (CommandProcessor.createDevice models device mid) := by
  unfold createDevice CommandProcessor.createDevice
  split
  · exact .pure _
  split
  · exact .pure _
  refine SQLiteManager.alone_deviceExists.bind fun found => ?_
  cases found with
  | true => exact .pure _
  | false =>
    refine (SQLiteManager.alone_createDevice device).bind fun _ => ?_
    refine (initDataPointsByDevice_alone models device.name mid).bind fun initResult => ?_
    cases initResult.ok <;> exact .pure _

theorem deleteDevice_alone : Alone (deleteDevice deviceName mid)
    (CommandProcessor.deleteDevice deviceName mid) := by
  refine SQLiteManager.alone_deviceExists.bind fun found => ?_
  cases found with
  | true => exact (SQLiteManager.alone_deleteDevice deviceName).bind fun _ => .pure _
  | false => exact .pure _

theorem updateDevice_alone : Alone (updateDevice models device hasStatus mid)
    (CommandProcessor.updateDevice models device hasStatus mid) := by
  unfold updateDevice CommandProcessor.updateDevice
  split
  · exact .pure _
  split
  · exact .pure _
  refine SQLiteManager.alone_deviceExists.bind fun found => ?_
  cases found with
  | false => exact .pure _
  | true =>
    refine SQLiteManager.alone_getDeviceByName.bind fun existing => ?_
    refine (SQLiteManager.alone_updateDevice _).bind fun _ => ?_
    split
    · refine (initDataPointsByDevice_alone models _ mid).bind fun initResult => ?_
      cases initResult.ok <;> exact .pure _
    · exact .pure _

end OnConnection

end CollectorService
