import CollectorService.CommandParser
import CollectorService.DataTask

/-!
# Device commands

The handlers of `create_device`, `delete_device` and `update_device`. Each is a sequence of manager
calls: between two of them another session may call the manager.
-/

namespace CollectorService.CommandProcessor

open Command
open DataTask (initDataPointsByDevice)
open SQLiteManager (targetName)

def errorResult (mid msg : Str) : CommandResult := { code := 500, msg, mid }

/-- `handleCreateDevice`, behind the parser. -/
def createDevice (models : ModelRepository) (device : DeviceUpsert) (mid : Str) :
    Command CommandResult := do
  if device.name = [] then return errorResult mid (lit "device_name is empty")
  if device.model = [] then return errorResult mid (lit "model is empty")
  if ← call (SQLiteManager.deviceExists device.name) then
    return errorResult mid (lit "device already exists: " ++ device.name)
  call (SQLiteManager.createDevice device)
  let initResult ← noThrow (initDataPointsByDevice models device.name mid)
  if !initResult.ok then return initResult
  return { msg := lit "device created: " ++ device.name, mid }

/-- `handleDeleteDevice`, behind the parser. -/
def deleteDevice (deviceName mid : Str) : Command CommandResult := do
  if !(← call (SQLiteManager.deviceExists deviceName)) then
    return errorResult mid (lit "device not found: " ++ deviceName)
  call (SQLiteManager.deleteDevice deviceName)
  return { msg := lit "device deleted: " ++ deviceName, mid }

/-- A request that names no status keeps the stored one. -/
def keepStatus (device : DeviceUpsert) (hasStatus : Bool) (before : Device) : DeviceUpsert :=
  if hasStatus then device else { device with status := before.status }

@[simp] theorem keepStatus_name (device : DeviceUpsert) (hasStatus : Bool) (before : Device) :
    (keepStatus device hasStatus before).name = device.name := by
  cases hasStatus <;> rfl

@[simp] theorem keepStatus_model (device : DeviceUpsert) (hasStatus : Bool) (before : Device) :
    (keepStatus device hasStatus before).model = device.model := by
  cases hasStatus <;> rfl

@[simp] theorem keepStatus_modelVersion (device : DeviceUpsert) (hasStatus : Bool)
    (before : Device) : (keepStatus device hasStatus before).modelVersion = device.modelVersion := by
  cases hasStatus <;> rfl

@[simp] theorem targetName_keepStatus (device : DeviceUpsert) (hasStatus : Bool) (before : Device) :
    targetName (keepStatus device hasStatus before) = targetName device := by
  cases hasStatus <;> rfl

/-- `handleUpdateDevice`, behind the parser; `hasStatus` tells whether the request names a status. -/
def updateDevice (models : ModelRepository) (device : DeviceUpsert) (hasStatus : Bool) (mid : Str) :
    Command CommandResult := do
  if device.name = [] then return errorResult mid (lit "device_name is empty")
  if device.model = [] then return errorResult mid (lit "model is empty")
  if !(← call (SQLiteManager.deviceExists (targetName device))) then
    return errorResult mid (lit "device not found: " ++ device.name)
  let before ← call (SQLiteManager.getDeviceByName (targetName device))
  let device := keepStatus device hasStatus before
  call (SQLiteManager.updateDevice device)
  if before.model ≠ device.model ∨ before.modelVersion ≠ device.modelVersion then
    let initResult ← noThrow (initDataPointsByDevice models device.name mid)
    if !initResult.ok then return initResult
  return { msg := lit "device updated: " ++ device.name, mid }

def handleCreateDevice (models : ModelRepository) (requestText mid : Str) :
    Command CommandResult := do
  let device ← lift (CommandParser.parseDeviceUpsert requestText)
  createDevice models device mid

def handleDeleteDevice (requestText mid : Str) : Command CommandResult :=
  deleteDevice (extractStringField requestText (lit "device_name")) mid

/-- Whether a request names a status, under either of the two keys. -/
def namesStatus (requestText : Str) : Bool :=
  hasField requestText (lit "status") || hasField requestText (lit "Status")

def handleUpdateDevice (models : ModelRepository) (requestText mid : Str) :
    Command CommandResult := do
  let device ← lift (CommandParser.parseDeviceUpsert requestText)
  updateDevice models device (namesStatus requestText) mid

/-- The categories of requests that change devices. -/
inductive DeviceCategory where
  | createDevice
  | deleteDevice
  | updateDevice
  deriving DecidableEq

/-- `handle` for a request of one of these categories, before the answer is written as JSON. -/
def handleDevice (models : ModelRepository) (category : DeviceCategory) (requestText : Str) :
    Program Database CommandResult :=
  let mid := extractStringField requestText (lit "mid")
  Command.tryCatch (match category with
      | .createDevice => handleCreateDevice models requestText mid
      | .deleteDevice => handleDeleteDevice requestText mid
      | .updateDevice => handleUpdateDevice models requestText mid)
    (errorResult mid)

/-! ## Outcomes of a command that runs alone -/

section Outcomes
variable {models : ModelRepository} {device : DeviceUpsert} {deviceName mid : Str}
  {hasStatus : Bool} {t : Database}

open DeviceRepository (named readDevice)

/-- The answer to a command whose row has been written. -/
def afterInit (done : Str) (mid : Str) (initResult : CommandResult) : CommandResult :=
  if initResult.ok then { msg := done, mid } else initResult

theorem createDevice_run : (createDevice models device mid).run t =
    if device.name = [] then (.ok (errorResult mid (lit "device_name is empty")), t)
    else if device.model = [] then (.ok (errorResult mid (lit "model is empty")), t)
    else match named device.name t with
      | some _ => (.ok (errorResult mid (lit "device already exists: " ++ device.name)), t)
      | none => match DeviceRepository.createEffect device t with
        | .error e => (.error e, t)
        | .ok t₁ =>
          let r := (initDataPointsByDevice models device.name mid).run t₁
          (.ok (afterInit (lit "device created: " ++ device.name) mid r.1), r.2) := by
  unfold createDevice
  split
  · rfl
  split
  · rfl
  rw [run_bind, run_call, SQLiteManager.exec_deviceExists]
  cases hx : named device.name t with
  | some x => rfl
  | none =>
    simp only [Option.isSome_none, Bool.false_eq_true, if_false]
    rw [run_bind, run_call, SQLiteManager.exec_createDevice, hx]
    cases DeviceRepository.createEffect device t with
    | error e => rfl
    | ok t₁ =>
      simp only [run_bind, run_noThrow, afterInit]
      cases ((initDataPointsByDevice models device.name mid).run t₁).1.ok <;> rfl

theorem deleteDevice_run : (deleteDevice deviceName mid).run t =
    match named deviceName t with
    | none => (.ok (errorResult mid (lit "device not found: " ++ deviceName)), t)
    | some _ => (.ok { msg := lit "device deleted: " ++ deviceName, mid },
        DeviceRepository.removeEffect deviceName
          (DataPointRepository.deleteEffect deviceName t)) := by
  rw [deleteDevice, run_bind, run_call, SQLiteManager.exec_deviceExists]
  cases hx : named deviceName t with
  | none => rfl
  | some x =>
    simp only [Option.isSome_some, Bool.not_true, Bool.false_eq_true, if_false]
    rw [run_bind, run_call, SQLiteManager.exec_deleteDevice, hx]
    rfl

theorem updateDevice_run : (updateDevice models device hasStatus mid).run t =
    if device.name = [] then (.ok (errorResult mid (lit "device_name is empty")), t)
    else if device.model = [] then (.ok (errorResult mid (lit "model is empty")), t)
    else match named (targetName device) t with
      | none => (.ok (errorResult mid (lit "device not found: " ++ device.name)), t)
      | some x =>
        match (SQLiteManager.updateDevice (keepStatus device hasStatus (readDevice x))).exec t with
        | (.error e, t₁) => (.error e, t₁)
        | (.ok _, t₁) =>
          if (readDevice x).model ≠ device.model ∨
              (readDevice x).modelVersion ≠ device.modelVersion then
            let r := (initDataPointsByDevice models device.name mid).run t₁
            (.ok (afterInit (lit "device updated: " ++ device.name) mid r.1), r.2)
          else (.ok { msg := lit "device updated: " ++ device.name, mid }, t₁) := by
  unfold updateDevice
  split
  · rfl
  split
  · rfl
  rw [run_bind, run_call, SQLiteManager.exec_deviceExists]
  cases hx : named (targetName device) t with
  | none => rfl
  | some x =>
    simp only [Option.isSome_some, Bool.not_true, Bool.false_eq_true, if_false]
    rw [run_bind, run_call, SQLiteManager.exec_getDeviceByName, hx]
    simp only [run_bind, run_call, keepStatus_name, keepStatus_model, keepStatus_modelVersion]
    rcases (SQLiteManager.updateDevice (keepStatus device hasStatus (readDevice x))).exec t with
      ⟨e | u, t₁⟩
    · rfl
    · simp only
      split
      · simp only [run_bind, run_noThrow, afterInit]
        cases ((initDataPointsByDevice models device.name mid).run t₁).1.ok <;> rfl
      · rfl

end Outcomes

end CollectorService.CommandProcessor
