import CollectorService.DataTask
import CollectorService.DeviceStatusStore

/-!
# Starting a device

`startDeviceCollect` checks the device in the database, then works on the registry, and one `catch`
block serves every failure: `markStartFailed`.

* `startChecks_ok_iff`: a start passes its checks exactly for a `Startable` device.
* `rejectedStart_unchanged_iff`: when a rejected start leaves the registry as it was.
* `startAll_sameDevice`: when `startAll` leaves a device that is being collected as it was.
-/

namespace CollectorService

open DeviceRepository (named readDevice)

/-- The process: its database and its registry. -/
structure Service where
  database : Database
  registry : DeviceStatusStore

namespace DataTask

open Command

/-! ## 1. The commands -/

/-- `startDeviceCollect`; `none` when it waits in `join` for a worker that has not finished. The thread
can be created. -/
def startDeviceCollect (models : ModelRepository) (deviceName mid : Str) (w : Service) :
    Option (CommandResult × Service) :=
  match (startChecks models deviceName mid).run w.database with
  | (.error e, t) => some (failure mid (cString e), ⟨t, w.registry.markStartFailed deviceName⟩)
  | (.ok device, t) =>
    if w.registry.isActive deviceName then
      some (failure mid (cString (lit "device collection is already running: " ++ deviceName)),
        ⟨t, w.registry.markStartFailed deviceName⟩)
    else
      let (staleThread, s) := w.registry.takeThread deviceName
      let s := s.eraseStopFlag deviceName
      if staleThread.any fun id => !s.hasFinished id then none
      else
        let id := s.nextWorker
        ((s.spawn device.name).addWorker deviceName id).map fun s =>
          ({ msg := lit "device collection started: " ++ deviceName, mid }, ⟨t, s⟩)

/-- The loop of `startAll`. -/
def startEachDevice (models : ModelRepository) : List Device → Service → Option Service
  | [], w => some w
  | device :: rest, w =>
    if device.status = 0 then startEachDevice models rest w
    else (startDeviceCollect models device.name [] w).bind fun r => startEachDevice models rest r.2

def startAll (models : ModelRepository) (w : Service) : Option Service :=
  match SQLiteManager.getDevices.exec w.database with
  | (.ok devices, t) => startEachDevice models devices { w with database := t }
  | (.error _, t) => some { w with database := t }

/-! ## 2. The checks of a start -/

/-- The device is in the table and online, and it has data points, or its model gives it some whose
paths are distinct. -/
def Startable (models : ModelRepository) (t : Database) (deviceName : Str) : Prop :=
  ∃ x, named deviceName t = some x ∧ (readDevice x).status ≠ 0 ∧
    ((t.dataPoint.select fun r => r.dName = some (bindText deviceName)) ≠ [] ∨
      ∃ points, modelPoints models (readDevice x) = .ok points ∧
        (points.map fun point => bindText point.namePath).Nodup)

section Checks
variable {models : ModelRepository} {deviceName mid : Str} {t : Database} {x : ℕ × DeviceRow}

theorem bindText_readDevice_name (hx : named deviceName t = some x) :
    bindText (readDevice x).name = bindText deviceName := by
  simpa [readDevice, columnText] using (DeviceRepository.named_eq_some.mp hx).2

/-- The points of a device that has just been initialised can be read back. -/
theorem select_ne_nil_of_insertAll? {device : Device} {points : List DataPoint} {t : Database}
    {u : DataPointTable} (hpoints : points ≠ [])
    (hu : (DataPointRepository.deleteEffect device.name t).dataPoint.insertAll?
      (points.map (DataPointRepository.boundRow device)) = some u) :
    u.select (fun r => r.dName = some (bindText device.name)) ≠ [] := by
  intro hnil
  have hrows := DataPointRepository.select_insertAll?_boundRow hu
  rw [hnil] at hrows
  exact hpoints (List.map_eq_nil_iff.mp hrows.symm)

theorem storedDataPoints_error {t' : Database} {e : Str}
    (hstored : (t.dataPoint.select fun r => r.dName = some (bindText deviceName)) = [])
    (hinit : (initDataPointsByDevice models deviceName mid).run t = (failure mid e, t')) :
    (storedDataPoints models deviceName mid).run t = (.error e, t') := by
  rw [storedDataPoints, run_bind, run_call, SQLiteManager.exec_getDataPointsByDeviceName, hstored]
  simp only [List.map_nil, if_true, run_bind, run_noThrow, hinit]
  rfl

theorem storedDataPoints_ok {t' : Database} {r : CommandResult}
    (hstored : (t.dataPoint.select fun r => r.dName = some (bindText deviceName)) = [])
    (hinit : (initDataPointsByDevice models deviceName mid).run t = (r, t')) (hok : r.ok = true) :
    (storedDataPoints models deviceName mid).run t =
      (.ok ((t'.dataPoint.select fun r => r.dName = some (bindText deviceName)).map
        DataPointRepository.readPoint), t') := by
  rw [storedDataPoints, run_bind, run_call, SQLiteManager.exec_getDataPointsByDeviceName, hstored]
  simp only [List.map_nil, if_true, run_bind, run_noThrow, hinit, hok, Bool.not_true,
    Bool.false_eq_true, if_false, run_call, SQLiteManager.exec_getDataPointsByDeviceName]

theorem storedDataPoints_ne_nil
    (hstored : (t.dataPoint.select fun r => r.dName = some (bindText deviceName)) ≠ []) :
    (storedDataPoints models deviceName mid).run t =
      (.ok ((t.dataPoint.select fun r => r.dName = some (bindText deviceName)).map
        DataPointRepository.readPoint), t) := by
  rw [storedDataPoints, run_bind, run_call, SQLiteManager.exec_getDataPointsByDeviceName]
  simp only [List.map_eq_nil_iff, hstored, if_false]
  rfl

theorem loadDataPoints_error {t' : Database} {e : Str}
    (h : (storedDataPoints models deviceName mid).run t = (.error e, t')) :
    (loadDataPoints models deviceName mid).run t = (.error e, t') := by
  rw [loadDataPoints, run_bind_error h]

theorem loadDataPoints_ok {t' : Database} {points : List DataPoint} (hne : points ≠ [])
    (h : (storedDataPoints models deviceName mid).run t = (.ok points, t')) :
    (loadDataPoints models deviceName mid).run t = (.ok points, t') := by
  rw [loadDataPoints, run_bind_ok h, if_neg hne]
  rfl

/-- Loading the points of a device that is in the table. -/
theorem loadDataPoints_ok_iff (hx : named deviceName t = some x) :
    (∃ points, ((loadDataPoints models deviceName mid).run t).1 = .ok points) ↔
      (t.dataPoint.select fun r => r.dName = some (bindText deviceName)) ≠ [] ∨
        ∃ points, modelPoints models (readDevice x) = .ok points ∧
          (points.map fun point => bindText point.namePath).Nodup := by
  by_cases hstored : (t.dataPoint.select fun r => r.dName = some (bindText deviceName)) = []
  · have hinit := initDataPointsByDevice_run models deviceName mid t
    simp only [hx] at hinit
    cases hpoints : modelPoints models (readDevice x) with
    | error e =>
      simp only [hpoints] at hinit
      rw [loadDataPoints_error (storedDataPoints_error hstored hinit)]
      simp [hstored]
    | ok points =>
      simp only [hpoints] at hinit
      have hiff := DataPointRepository.insertAll?_boundRow_isSome (readDevice x) points t
      cases hins : (DataPointRepository.deleteEffect (readDevice x).name t).dataPoint.insertAll?
          (points.map (DataPointRepository.boundRow (readDevice x))) with
      | none =>
        simp only [hins] at hinit
        rw [hins] at hiff
        rw [loadDataPoints_error (storedDataPoints_error hstored hinit)]
        simpa [hstored] using hiff
      | some u =>
        simp only [hins] at hinit
        have hnodup := hiff.mp ⟨u, hins⟩
        have hne := select_ne_nil_of_insertAll? (modelPoints_ne_nil hpoints) hins
        rw [bindText_readDevice_name hx] at hne
        rw [loadDataPoints_ok (by simpa using hne) (storedDataPoints_ok hstored hinit rfl)]
        exact iff_of_true ⟨_, rfl⟩ (.inr ⟨points, rfl, hnodup⟩)
  · rw [loadDataPoints_ok (by simpa using hstored) (storedDataPoints_ne_nil hstored)]
    exact iff_of_true ⟨_, rfl⟩ (.inl hstored)

theorem startChecks_ok_iff :
    (∃ device, ((startChecks models deviceName mid).run t).1 = .ok device) ↔
      Startable models t deviceName := by
  rw [startChecks, run_bind, run_call, SQLiteManager.exec_deviceExists]
  cases hx : named deviceName t with
  | none =>
    refine iff_of_false ?_ ?_
    · rintro ⟨device, ⟨⟩⟩
    · rintro ⟨x, hx', -⟩
      rw [hx] at hx'
      cases hx'
  | some x =>
    have hget : (call (SQLiteManager.getDeviceByName deviceName)).run t = (.ok (readDevice x), t) := by
      rw [run_call, SQLiteManager.exec_getDeviceByName, hx]
    have hload := @loadDataPoints_ok_iff models deviceName mid t x hx
    simp only [Option.isSome_some, Bool.not_true, Bool.false_eq_true, if_false, run_bind_ok hget,
      Startable, hx, Option.some.injEq, exists_eq_left']
    by_cases hstatus : (readDevice x).status = 0
    · refine iff_of_false ?_ fun h => h.1 hstatus
      rw [if_pos hstatus]
      rintro ⟨device, ⟨⟩⟩
    · rw [if_neg hstatus, run_bind, ← hload]
      rcases (loadDataPoints models deviceName mid).run t with ⟨e | points, t'⟩
      · simp
      · exact iff_of_true ⟨_, rfl⟩ ⟨hstatus, _, rfl⟩

/-- The device that a start has checked has the name as the database stores it. -/
theorem startChecks_name {device : Device} {t' : Database}
    (h : (startChecks models deviceName mid).run t = (.ok device, t')) :
    device.name = cString deviceName := by
  obtain ⟨x, hx, hstatus, -⟩ := startChecks_ok_iff.mp ⟨device, congrArg Prod.fst h⟩
  have hget : (call (SQLiteManager.getDeviceByName deviceName)).run t = (.ok (readDevice x), t) := by
    rw [run_call, SQLiteManager.exec_getDeviceByName, hx]
  rw [startChecks, run_bind, run_call, SQLiteManager.exec_deviceExists, hx] at h
  simp only [Option.isSome_some, Bool.not_true, Bool.false_eq_true, if_false, run_bind_ok hget,
    if_neg hstatus] at h
  rw [run_bind] at h
  rcases hload : (loadDataPoints models deviceName mid).run t with ⟨e | points, t₁⟩
  · simp only [hload, Prod.mk.injEq, reduceCtorEq, false_and] at h
  · simp only [hload, run_pure, Prod.mk.injEq, Except.ok.injEq] at h
    rw [← h.1]
    exact congrArg SqlText.bytes (DeviceRepository.named_eq_some.mp hx).2

end Checks

/-! ## 3. What a start does to the database -/

section Tables
variable {models : ModelRepository} {deviceName mid : Str} {w w' : Service} {r : CommandResult}

theorem startDeviceCollect_database
    (h : startDeviceCollect models deviceName mid w = some (r, w')) :
    w'.database = ((startChecks models deviceName mid).run w.database).2 := by
  unfold startDeviceCollect at h
  rcases hrun : (startChecks models deviceName mid).run w.database with ⟨e | device, t⟩
  · simp only [hrun] at h
    cases h
    rfl
  · simp only [hrun] at h
    split at h
    · cases h
      rfl
    · split at h
      · cases h
      · obtain ⟨s, -, heq⟩ := Option.map_eq_some_iff.mp h
        cases heq
        rfl

theorem startEachDevice_database : ∀ {devices : List Device} {w w' : Service},
    startEachDevice models devices w = some w' →
    w'.database = ((startAllChecks.startEach models devices).run w.database).2
  | [], w, w', h => by
    cases h
    rfl
  | device :: rest, w, w', h => by
    unfold startEachDevice at h
    unfold startAllChecks.startEach
    split at h
    · next hstatus =>
      simp only [hstatus, ne_eq, not_true_eq_false, if_false]
      exact startEachDevice_database h
    · next hstatus =>
      obtain ⟨⟨r, w₁⟩, hstart, hloop⟩ := Option.bind_eq_some_iff.mp h
      simp only [hstatus, ne_eq, not_false_eq_true, if_true, run_bind, run_noThrow]
      rw [startEachDevice_database hloop, startDeviceCollect_database hstart]

/-- To the database, `startAll` is `startAllChecks`. -/
theorem startAll_database (h : startAll models w = some w') :
    w'.database = ((startAllChecks models).run w.database).2 := by
  rw [startAll, SQLiteManager.exec_getDevices] at h
  rw [startAllChecks, run_bind, run_call, SQLiteManager.exec_getDevices]
  exact startEachDevice_database h

end Tables

/-! ## 4. What a start does to the registry -/

section Registry
open DeviceStatusStore (SameDevice)

variable {models : ModelRepository} {deviceName other mid : Str} {w w' : Service}
  {r : CommandResult}

/-- A start of a device that is being collected, or cannot be started, is rejected. -/
theorem startDeviceCollect_rejected
    (h : deviceName ∈ w.registry.activeDevices ∨ ¬ Startable models w.database deviceName) :
    ∃ r t, startDeviceCollect models deviceName mid w =
      some (r, ⟨t, w.registry.markStartFailed deviceName⟩) ∧ r.code = 500 := by
  rw [← @startChecks_ok_iff models deviceName mid] at h
  unfold startDeviceCollect
  rcases hrun : (startChecks models deviceName mid).run w.database with ⟨e | device, t⟩
  · exact ⟨_, t, rfl, rfl⟩
  · have hactive : w.registry.isActive deviceName = true := by
      rw [hrun] at h
      simpa [DeviceStatusStore.isActive] using h
    refine ⟨failure mid (cString (lit "device collection is already running: " ++ deviceName)), t, ?_,
      rfl⟩
    simp only [hactive, if_true]

/-- A start of any other device returns with a new worker, registered under the name. -/
theorem startDeviceCollect_accepted (hactive : deviceName ∉ w.registry.activeDevices)
    (hstart : Startable models w.database deviceName)
    (h : startDeviceCollect models deviceName mid w = some (r, w')) :
    r.code = 200 ∧ ∃ workerName, ((((w.registry.takeThread deviceName).2).eraseStopFlag
      deviceName).spawn workerName).addWorker deviceName w.registry.nextWorker =
        some w'.registry := by
  obtain ⟨device, hrun⟩ := (@startChecks_ok_iff models deviceName mid _).mpr hstart
  have hinactive : w.registry.isActive deviceName = false :=
    Bool.eq_false_iff.mpr (by simpa [DeviceStatusStore.isActive] using hactive)
  unfold startDeviceCollect at h
  rcases hchecks : (startChecks models deviceName mid).run w.database with ⟨e | device', t⟩
  · rw [hchecks] at hrun
    cases hrun
  · simp only [hchecks, hinactive, Bool.false_eq_true, if_false] at h
    split at h
    · cases h
    · obtain ⟨s, hadd, heq⟩ := Option.map_eq_some_iff.mp h
      cases heq
      exact ⟨rfl, device'.name, hadd⟩

/-- A start does nothing to the other devices. -/
theorem startDeviceCollect_sameDevice (hne : other ≠ deviceName)
    (h : startDeviceCollect models deviceName mid w = some (r, w')) :
    SameDevice other w.registry w'.registry := by
  by_cases hrejected : deviceName ∈ w.registry.activeDevices ∨
      ¬ Startable models w.database deviceName
  · obtain ⟨r', t, hstart, -⟩ := @startDeviceCollect_rejected models deviceName mid w hrejected
    rw [hstart] at h
    cases h
    exact .markStartFailed hne w.registry
  · push Not at hrejected
    obtain ⟨-, workerName, hadd⟩ := startDeviceCollect_accepted hrejected.1 hrejected.2 h
    exact (((SameDevice.takeThread hne _).trans (.eraseStopFlag hne _)).trans (.spawn _)).trans
      (.addWorker hne hadd)

/-- `markStartFailed` changes nothing exactly for a device without entries. -/
theorem markStartFailed_eq_self {s : DeviceStatusStore} : s.markStartFailed deviceName = s ↔
    deviceName ∉ s.activeDevices ∧ s.stopFlags[deviceName]? = none := by
  constructor
  · intro h
    constructor
    · rw [← h]
      simp [DeviceStatusStore.markStartFailed]
    · rw [← h]
      simp [DeviceStatusStore.markStartFailed]
  · rintro ⟨hactive, hflag⟩
    have hset : s.activeDevices.erase deviceName = s.activeDevices := by
      refine Std.ExtTreeSet.ext_mem fun k => ?_
      rw [Std.ExtTreeSet.mem_erase]
      grind
    have hmap : s.stopFlags.erase deviceName = s.stopFlags := by
      refine Std.ExtTreeMap.ext_getElem? fun k => ?_
      rw [Std.ExtTreeMap.getElem?_erase]
      grind
    rw [DeviceStatusStore.markStartFailed, hset, hmap]

theorem startEachDevice_sameDevice : ∀ {devices : List Device} {w w' : Service},
    (∀ device ∈ devices, device.name = other → device.status = 0) →
    startEachDevice models devices w = some w' → SameDevice other w.registry w'.registry
  | [], w, w', _, h => by
    cases h
    exact .refl other w.registry
  | device :: rest, w, w', hoff, h => by
    obtain ⟨hdevice, hrest⟩ := List.forall_mem_cons.mp hoff
    unfold startEachDevice at h
    split at h
    · exact startEachDevice_sameDevice hrest h
    · next hstatus =>
      obtain ⟨⟨r, w₁⟩, hstart, hloop⟩ := Option.bind_eq_some_iff.mp h
      have hne : other ≠ device.name := fun heq => hstatus (hdevice heq.symm)
      exact (startDeviceCollect_sameDevice hne hstart).trans (startEachDevice_sameDevice hrest hloop)

/-- A device that is online and being collected is taken out of the registry. -/
theorem startEachDevice_inactive : ∀ {devices : List Device} {w w' : Service},
    (devices.map (·.name)).Nodup → other ∈ w.registry.activeDevices →
    (∃ device ∈ devices, device.name = other ∧ device.status ≠ 0) →
    startEachDevice models devices w = some w' → other ∉ w'.registry.activeDevices
  | [], _, _, _, _, hon, _ => by
    obtain ⟨device, hmem, -⟩ := hon
    cases hmem
  | device :: rest, w, w', hnodup, hactive, ⟨found, hfound, hname, hstatus⟩, h => by
    obtain ⟨hhead, htail⟩ := List.nodup_cons.mp hnodup
    unfold startEachDevice at h
    by_cases heq : device.name = other
    · -- this is its row: the start is rejected, and no later row has the name
      have hrest : ∀ d ∈ rest, d.name ≠ other := fun d hd hdname =>
        hhead (List.mem_map.mpr ⟨d, hd, hdname.trans heq.symm⟩)
      have hon : device.status ≠ 0 := by
        rcases List.mem_cons.mp hfound with rfl | hin
        · exact hstatus
        · exact absurd hname (hrest found hin)
      rw [if_neg hon] at h
      obtain ⟨⟨r, w₁⟩, hstart, hloop⟩ := Option.bind_eq_some_iff.mp h
      obtain ⟨r', t, hrejected, -⟩ := @startDeviceCollect_rejected models device.name [] w
        (.inl (heq ▸ hactive))
      rw [hrejected] at hstart
      cases hstart
      have hsame := startEachDevice_sameDevice (fun d hd hdname => absurd hdname (hrest d hd)) hloop
      rw [hsame.active]
      simp [DeviceStatusStore.markStartFailed, heq]
    · have hon : ∃ d ∈ rest, d.name = other ∧ d.status ≠ 0 := by
        rcases List.mem_cons.mp hfound with rfl | hin
        · exact absurd hname heq
        · exact ⟨found, hin, hname, hstatus⟩
      split at h
      · exact startEachDevice_inactive htail hactive hon h
      · obtain ⟨⟨r, w₁⟩, hstart, hloop⟩ := Option.bind_eq_some_iff.mp h
        have hsame := startDeviceCollect_sameDevice (Ne.symm heq) hstart
        exact startEachDevice_inactive htail (hsame.active.mpr hactive) hon hloop

theorem names_nodup (t : Database) : ((t.device.rows.map readDevice).map (·.name)).Nodup := by
  rw [List.map_map, List.Nodup, List.pairwise_map]
  refine t.device.ordered.imp fun {a b} hab hname => hab.2 ?_
  simpa [readDevice, columnText] using congrArg bindText hname

/-- `startAll` leaves a device that is being collected as it was exactly when no row of an online
device has its name. -/
theorem startAll_sameDevice (h : startAll models w = some w')
    (hactive : other ∈ w.registry.activeDevices) :
    SameDevice other w.registry w'.registry ↔ ∀ x ∈ w.database.device.rows,
      (readDevice x).name = other → (readDevice x).status = 0 := by
  rw [startAll, SQLiteManager.exec_getDevices] at h
  constructor
  · intro hsame
    by_contra hon
    push Not at hon
    obtain ⟨x, hx, hname, hstatus⟩ := hon
    exact startEachDevice_inactive (names_nodup _) hactive
      ⟨readDevice x, List.mem_map_of_mem hx, hname, hstatus⟩ h (hsame.active.mpr hactive)
  · intro hoff
    exact startEachDevice_sameDevice (fun device hdevice hname => by
      obtain ⟨x, hx, rfl⟩ := List.mem_map.mp hdevice
      exact hoff x hx hname) h

end Registry

/-! ## 5. Rejected starts -/

/-- A rejected start leaves the registry as it was exactly when the device is not being collected
and has no stop flag left or can be started. Every `startAll` that returns leaves the devices that
are being collected as they were, except exactly those that an online row names. -/
theorem rejectedStart_unchanged_iff (models : ModelRepository) (deviceName mid : Str) (w : Service) :
    ((∀ r w', startDeviceCollect models deviceName mid w = some (r, w') → r.code = 500 →
        w'.registry = w.registry) ↔
      deviceName ∉ w.registry.activeDevices ∧
        (w.registry.stopFlags[deviceName]? = none ∨ Startable models w.database deviceName)) ∧
    ∀ w', startAll models w = some w' → ∀ other ∈ w.registry.activeDevices,
      (DeviceStatusStore.SameDevice other w.registry w'.registry ↔
        ∀ x ∈ w.database.device.rows, (readDevice x).name = other → (readDevice x).status = 0) := by
  refine ⟨⟨fun hsame => ?_, fun hquiet r w' hstart hcode => ?_⟩,
    fun w' h other hactive => startAll_sameDevice h hactive⟩
  · by_cases hrejected : deviceName ∈ w.registry.activeDevices ∨
        ¬ Startable models w.database deviceName
    · obtain ⟨r, t, hstart, hcode⟩ := @startDeviceCollect_rejected models deviceName mid w hrejected
      obtain ⟨hactive, hflag⟩ := markStartFailed_eq_self.mp (hsame r _ hstart hcode)
      exact ⟨hactive, .inl hflag⟩
    · push Not at hrejected
      exact ⟨hrejected.1, .inr hrejected.2⟩
  · obtain ⟨hactive, hflag⟩ := hquiet
    by_cases hstartable : Startable models w.database deviceName
    · have hok := (startDeviceCollect_accepted hactive hstartable hstart).1
      rw [hok] at hcode
      cases hcode
    · obtain ⟨r', t, hrejected, -⟩ := @startDeviceCollect_rejected models deviceName mid w
        (.inr hstartable)
      rw [hrejected] at hstart
      cases hstart
      exact markStartFailed_eq_self.mpr ⟨hactive, by tauto⟩

/-- A device whose model is written into its row, started once. -/
def startedA : Service :=
  let device : DeviceUpsert := { name := lit "A", model := lit "DataItem:\n        - Name: X" }
  let t := ((SQLiteManager.createDevice device).exec .empty).2
  ((startDeviceCollect noModels (lit "A") [] ⟨t, {}⟩).map (·.2)).getD ⟨t, {}⟩

/-- Starting `A` again is rejected, and takes the running worker out of the registry. -/
theorem startDeviceCollect_startedA :
    ∃ r w', startDeviceCollect noModels (lit "A") [] startedA = some (r, w') ∧ r.code = 500 ∧
      lit "A" ∈ startedA.registry.activeDevices ∧ lit "A" ∉ w'.registry.activeDevices := by
  have hactive : lit "A" ∈ startedA.registry.activeDevices := by decide +kernel
  obtain ⟨r, t, hstart, hcode⟩ := @startDeviceCollect_rejected noModels (lit "A") [] startedA
    (.inl hactive)
  exact ⟨r, _, hstart, hcode, hactive, by simp [DeviceStatusStore.markStartFailed]⟩

end DataTask

end CollectorService
