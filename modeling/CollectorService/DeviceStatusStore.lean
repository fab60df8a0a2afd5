import CollectorService.Models
import Std.Data.ExtTreeMap
import Std.Data.ExtTreeSet

/-!
# `DeviceStatusStore`

The registry of the collection workers: four ordered containers under one mutex. A worker is a
thread and a stop flag that it shares with the registry; both are named by the number of the worker.
The store keeps the objects behind these numbers too, so that a call can set a flag.

Each operation below is one critical section.
-/

namespace CollectorService

/-- A collection worker: the thread that runs `runDeviceTask`, and its stop flag. -/
structure Worker where
  /-- `device.name` of the thread, the name that its last `markStopped` is called with. -/
  deviceName : Str
  stopFlag : Bool := false
  finished : Bool := false
  deriving DecidableEq

/-- The containers of the store, and every worker created so far, by number. -/
structure DeviceStatusStore where
  statuses : Std.ExtTreeMap Str DeviceStatus := ∅
  activeDevices : Std.ExtTreeSet Str := ∅
  workerThreads : Std.ExtTreeMap Str ℕ := ∅
  stopFlags : Std.ExtTreeMap Str ℕ := ∅
  workers : List Worker := []

namespace DeviceStatusStore

/-! ## 1. Workers -/

/-- Set the stop flag of a worker. -/
def setFlag (workers : List Worker) (id : ℕ) : List Worker :=
  workers.modify id fun w => { w with stopFlag := true }

/-- A thread of a new worker, which has not run yet. -/
def spawn (s : DeviceStatusStore) (deviceName : Str) : DeviceStatusStore :=
  { s with workers := s.workers ++ [{ deviceName }] }

/-- The number of the next worker. -/
def nextWorker (s : DeviceStatusStore) : ℕ := s.workers.length

/-- `join` returns at once. -/
def hasFinished (s : DeviceStatusStore) (id : ℕ) : Bool :=
  (s.workers[id]?.map (·.finished)).getD true

/-! ## 2. The operations of the store -/

def requestStopAll (s : DeviceStatusStore) : DeviceStatusStore :=
  { s with workers := (s.stopFlags.toList.map (·.2)).foldl setFlag s.workers }

def takeAllThreads (s : DeviceStatusStore) : List ℕ × DeviceStatusStore :=
  (s.workerThreads.toList.map (·.2), { s with workerThreads := ∅ })

def clearAllWorkers (s : DeviceStatusStore) : DeviceStatusStore :=
  { s with stopFlags := ∅, activeDevices := ∅ }

def getStatus (s : DeviceStatusStore) : List DeviceStatus := s.statuses.toList.map (·.2)

def isActive (s : DeviceStatusStore) (deviceName : Str) : Bool :=
  s.activeDevices.contains deviceName

def takeThread (s : DeviceStatusStore) (deviceName : Str) : Option ℕ × DeviceStatusStore :=
  (s.workerThreads[deviceName]?, { s with workerThreads := s.workerThreads.erase deviceName })

def eraseStopFlag (s : DeviceStatusStore) (deviceName : Str) : DeviceStatusStore :=
  { s with stopFlags := s.stopFlags.erase deviceName }

/-- `addWorker`; assigning to an entry whose thread can still be joined terminates the process. -/
def addWorker (s : DeviceStatusStore) (deviceName : Str) (id : ℕ) : Option DeviceStatusStore :=
  if s.workerThreads[deviceName]? = none then
    some { s with
      activeDevices := s.activeDevices.insert deviceName
      stopFlags := s.stopFlags.insert deviceName id
      workerThreads := s.workerThreads.insert deviceName id }
  else none

def markStartFailed (s : DeviceStatusStore) (deviceName : Str) : DeviceStatusStore :=
  { s with
    activeDevices := s.activeDevices.erase deviceName
    stopFlags := s.stopFlags.erase deviceName }

def requestStop (s : DeviceStatusStore) (deviceName : Str) : Bool × DeviceStatusStore :=
  if !s.activeDevices.contains deviceName then (false, s)
  else match s.stopFlags[deviceName]? with
    | some id => (true, { s with workers := setFlag s.workers id })
    | none => (true, s)

def markStopped (s : DeviceStatusStore) (deviceName : Str) : DeviceStatusStore :=
  { s with
    activeDevices := s.activeDevices.erase deviceName
    stopFlags := s.stopFlags.erase deviceName }

def setLatestStatus (s : DeviceStatusStore) (status : DeviceStatus) : DeviceStatusStore :=
  { s with statuses := s.statuses.insert status.deviceName status }

/-! ## 3. What a device sees of an operation -/

/-- The entries of one device, and the workers that were there, are the same in both stores. -/
structure SameDevice (deviceName : Str) (s s' : DeviceStatusStore) : Prop where
  active : deviceName ∈ s'.activeDevices ↔ deviceName ∈ s.activeDevices
  stopFlag : s'.stopFlags[deviceName]? = s.stopFlags[deviceName]?
  thread : s'.workerThreads[deviceName]? = s.workerThreads[deviceName]?
  workers : s.workers <+: s'.workers

namespace SameDevice

variable {deviceName other : Str} {s s' s'' : DeviceStatusStore}

theorem refl (deviceName : Str) (s : DeviceStatusStore) : SameDevice deviceName s s :=
  ⟨Iff.rfl, rfl, rfl, List.prefix_rfl⟩

theorem trans (h : SameDevice deviceName s s') (h' : SameDevice deviceName s' s'') :
    SameDevice deviceName s s'' :=
  ⟨h'.active.trans h.active, h'.stopFlag.trans h.stopFlag, h'.thread.trans h.thread,
    h.workers.trans h'.workers⟩

theorem markStartFailed (hne : deviceName ≠ other) (s : DeviceStatusStore) :
    SameDevice deviceName s (s.markStartFailed other) := by
  refine ⟨?_, ?_, rfl, List.prefix_rfl⟩
  · simp [DeviceStatusStore.markStartFailed, hne.symm]
  · simp [DeviceStatusStore.markStartFailed, Std.ExtTreeMap.getElem?_erase, hne.symm]

theorem takeThread (hne : deviceName ≠ other) (s : DeviceStatusStore) :
    SameDevice deviceName s (s.takeThread other).2 := by
  refine ⟨Iff.rfl, rfl, ?_, List.prefix_rfl⟩
  simp [DeviceStatusStore.takeThread, Std.ExtTreeMap.getElem?_erase, hne.symm]

theorem eraseStopFlag (hne : deviceName ≠ other) (s : DeviceStatusStore) :
    SameDevice deviceName s (s.eraseStopFlag other) := by
  refine ⟨Iff.rfl, ?_, rfl, List.prefix_rfl⟩
  simp [DeviceStatusStore.eraseStopFlag, Std.ExtTreeMap.getElem?_erase, hne.symm]

theorem spawn (s : DeviceStatusStore) : SameDevice deviceName s (s.spawn other) :=
  ⟨Iff.rfl, rfl, rfl, List.prefix_append _ _⟩

theorem addWorker (hne : deviceName ≠ other) {id : ℕ} (h : s.addWorker other id = some s') :
    SameDevice deviceName s s' := by
  unfold DeviceStatusStore.addWorker at h
  split at h
  · cases h
    refine ⟨?_, ?_, ?_, List.prefix_rfl⟩
    · simp [hne.symm]
    · simp [Std.ExtTreeMap.getElem?_insert, hne.symm]
    · simp [Std.ExtTreeMap.getElem?_insert, hne.symm]
  · cases h

end SameDevice

end DeviceStatusStore

end CollectorService
