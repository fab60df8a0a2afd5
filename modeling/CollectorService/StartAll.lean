import CollectorService.Isolation
import CollectorService.ReplacePoints

/-!
# All devices, started at once

`startAll` starts the devices one after the other: it looks a device up, may initialise its data
points, and registers a worker or takes the failure for an answer. Meanwhile the workers that it has
created run their cycles.

Whether a device can be started depends on the devices and on its own data points only
(`startable_congr`), and neither the start nor the worker of another device touches these. So each
start finds what it would have found in the beginning (`StartsEach.started`).

* `startAll_exact_iff`: when the devices that are started are exactly those that should be.
-/

namespace CollectorService

open DeviceRepository (named readDevice)
open DeviceTask (CycleInput TaskState runCycle WorksFor)

namespace DataTask

/-! ## 1. The call, and the workers that run meanwhile -/

/-- A cycle of a worker. -/
def workerCycle (models : ModelRepository) (input : CycleInput) (fault : ℕ → Option Str)
    (task : TaskState) (w : Service) : Service :=
  let st := (runCycle models input
    { conn := { tables := w.database, fault }, registry := w.registry, task }).2
  ⟨st.conn.tables, st.registry⟩

/-- The loop of `startAll`, where the workers of active devices may run cycles between two starts. No
worker gets to its last `markStopped`. -/
inductive StartsEach (models : ModelRepository) : List Device → Service → Service → Prop
  | done (w : Service) : StartsEach models [] w w
  | offline {device : Device} {rest : List Device} {w w' : Service} : device.status = 0 →
      StartsEach models rest w w' → StartsEach models (device :: rest) w w'
  | start {device : Device} {rest : List Device} {w w₁ w' : Service} {r : CommandResult} :
      device.status ≠ 0 → startDeviceCollect models device.name [] w = some (r, w₁) →
      StartsEach models rest w₁ w' → StartsEach models (device :: rest) w w'
  | cycle {devices : List Device} {w w' : Service} {name : SqlText} (input : CycleInput)
      (fault : ℕ → Option Str) {task : TaskState} : name.bytes ∈ w.registry.activeDevices →
      WorksFor name.bytes task →
      StartsEach models devices (workerCycle models input fault task w) w' →
      StartsEach models devices w w'

/-- `startAll`, with the cycles of the workers. -/
def StartsAll (models : ModelRepository) (w w' : Service) : Prop :=
  ∃ devices t, SQLiteManager.getDevices.exec w.database = (.ok devices, t) ∧
    StartsEach models devices { w with database := t } w'

section Alone
variable {models : ModelRepository} {w w' : Service}

theorem startsEach_of_startEachDevice {devices : List Device}
    (h : startEachDevice models devices w = some w') : StartsEach models devices w w' := by
  induction devices generalizing w with
  | nil =>
    cases h
    exact .done _
  | cons device rest ih =>
    unfold startEachDevice at h
    split at h
    · next hstatus => exact .offline hstatus (ih h)
    · next hstatus =>
      obtain ⟨⟨r, w₁⟩, hstart, hloop⟩ := Option.bind_eq_some_iff.mp h
      exact .start hstatus hstart (ih hloop)

/-- A call during which no worker gets to run. -/
theorem startsAll_of_startAll (h : startAll models w = some w') : StartsAll models w w' := by
  rw [startAll, SQLiteManager.exec_getDevices] at h
  exact ⟨_, _, SQLiteManager.exec_getDevices, startsEach_of_startEachDevice h⟩

end Alone

/-! ## 2. One start -/

section Start
variable {models : ModelRepository} {A B : SqlText} {t t' : Database} {w w' : Service}
  {r : CommandResult} {mid : Str}

/-- A device can be started or not whatever happens to the points of other devices. -/
theorem startable_congr (h : SameRows B t t') :
    Startable models t' B.bytes ↔ Startable models t B.bytes := by
  have hselect := h.dataPoint
  unfold Startable named
  rw [h.device, bindText_bytes, hselect]

/-- Nothing is registered under the name. -/
structure Unregistered (s : DeviceStatusStore) (d : Str) : Prop where
  active : d ∉ s.activeDevices
  stopFlag : s.stopFlags[d]? = none
  thread : s.workerThreads[d]? = none

theorem Unregistered.of_sameDevice {s s' : DeviceStatusStore} {d : Str} (h : Unregistered s d)
    (hsame : DeviceStatusStore.SameDevice d s s') : Unregistered s' d :=
  ⟨fun hactive => h.active (hsame.active.mp hactive), hsame.stopFlag.trans h.stopFlag,
    hsame.thread.trans h.thread⟩

/-- A new worker is registered under the name. -/
structure Registered (d : Str) (s s' : DeviceStatusStore) : Prop where
  active : ∀ other, other ∈ s'.activeDevices ↔ other = d ∨ other ∈ s.activeDevices
  stopFlag : s'.stopFlags[d]? = some s.workers.length
  thread : s'.workerThreads[d]? = some s.workers.length
  workers : s'.workers = s.workers ++ [{ deviceName := d }]

theorem start_database (h : startDeviceCollect models A.bytes mid w = some (r, w')) :
    OnConnection.Initialised A.bytes w.database w'.database := by
  have hrun := (OnConnection.startChecks_alone models A.bytes mid).exec w.database
  have hchanges := OnConnection.startChecks_changes models A.bytes mid
    { tables := w.database, fault := fun _ => none }
  rw [cString_of_notMem A.noNul] at hchanges
  rw [startDeviceCollect_database h, ← hrun]
  exact hchanges

/-- The start of a device that has no entries succeeds exactly when the device can be started. -/
theorem start_unregistered (h : Unregistered w.registry A.bytes) :
    ∃ r w', startDeviceCollect models A.bytes mid w = some (r, w') ∧
      (Startable models w.database A.bytes ∧ Registered A.bytes w.registry w'.registry ∨
        ¬ Startable models w.database A.bytes ∧ w'.registry = w.registry) := by
  by_cases hstartable : Startable models w.database A.bytes
  · obtain ⟨device, hok⟩ := (@startChecks_ok_iff models A.bytes mid _).mpr hstartable
    rcases hrun : (startChecks models A.bytes mid).run w.database with ⟨e | device', t⟩
    · rw [hrun] at hok
      cases hok
    have hname : device'.name = A.bytes := (startChecks_name hrun).trans (cString_of_notMem A.noNul)
    have hinactive : w.registry.isActive A.bytes = false :=
      Bool.eq_false_iff.mpr (by simpa [DeviceStatusStore.isActive] using h.active)
    have herased : (w.registry.workerThreads.erase A.bytes)[A.bytes]? = none :=
      Std.ExtTreeMap.getElem?_erase_self
    let s : DeviceStatusStore := { w.registry with
      activeDevices := w.registry.activeDevices.insert A.bytes
      stopFlags := (w.registry.stopFlags.erase A.bytes).insert A.bytes w.registry.workers.length
      workerThreads :=
        (w.registry.workerThreads.erase A.bytes).insert A.bytes w.registry.workers.length
      workers := w.registry.workers ++ [{ deviceName := A.bytes }] }
    have hstart : startDeviceCollect models A.bytes mid w =
        some ({ msg := lit "device collection started: " ++ A.bytes, mid }, ⟨t, s⟩) := by
      unfold startDeviceCollect
      simp only [hrun, hinactive, Bool.false_eq_true, if_false, DeviceStatusStore.takeThread, h.thread,
        Option.any_none, DeviceStatusStore.eraseStopFlag, DeviceStatusStore.spawn,
        DeviceStatusStore.addWorker, herased, if_true, Option.map_some, hname]
      rfl
    refine ⟨_, _, hstart, .inl ⟨hstartable, fun other => ?_, ?_, ?_, rfl⟩⟩
    · rw [Std.ExtTreeSet.mem_insert, Std.compare_eq_iff_eq, eq_comm]
    · exact Std.ExtTreeMap.getElem?_insert_self
    · exact Std.ExtTreeMap.getElem?_insert_self
  · obtain ⟨r, t, hstart, -⟩ := @startDeviceCollect_rejected models A.bytes mid w (.inr hstartable)
    exact ⟨r, _, hstart, .inr ⟨hstartable, markStartFailed_eq_self.mpr ⟨h.active, h.stopFlag⟩⟩⟩

end Start

/-! ## 3. One cycle -/

section Cycle
open DeviceStatusStore (SameDevice)

variable {models : ModelRepository} {input : CycleInput} {fault : ℕ → Option Str} {task : TaskState}
  {A B : SqlText} {w : Service} {d : Str}

/-- A cycle publishes a status, and does nothing else to the registry. -/
theorem workerCycle_registry (hworker : WorksFor A.bytes task) :
    ∃ status, (workerCycle models input fault task w).registry = w.registry.setLatestStatus status := by
  let st : DeviceTask.CycleState :=
    { conn := { tables := w.database, fault }, registry := w.registry, task }
  obtain ⟨-, status, -, hregistry⟩ := @runCycle_publishes A models input st hworker
  exact ⟨status, hregistry⟩

theorem workerCycle_sameDevice (hworker : WorksFor A.bytes task) (d : Str) :
    SameDevice d w.registry (workerCycle models input fault task w).registry := by
  obtain ⟨status, hregistry⟩ := @workerCycle_registry models input fault task A w hworker
  rw [hregistry]
  exact ⟨Iff.rfl, rfl, rfl, List.prefix_rfl⟩

theorem workerCycle_sameRows (hne : A ≠ B) (hworker : WorksFor A.bytes task) :
    SameRows B w.database (workerCycle models input fault task w).database :=
  let st : DeviceTask.CycleState :=
    { conn := { tables := w.database, fault }, registry := w.registry, task }
  @cycle_sameRows A B models hne input st hworker

end Cycle

/-! ## 4. The loop -/

section Loop
open DeviceStatusStore (SameDevice)

variable {models : ModelRepository} {devices : List Device} {w w' : Service} {d : Str}

/-- The loop does nothing to the entries of a device that it does not come to. -/
theorem StartsEach.sameDevice (h : StartsEach models devices w w') (hd : d ∉ devices.map (·.name)) :
    SameDevice d w.registry w'.registry := by
  induction h with
  | done w => exact .refl d w.registry
  | offline _ _ ih => exact ih (List.not_mem_of_not_mem_cons hd)
  | start _ hstart _ ih =>
    have hne : d ≠ _ := List.ne_of_not_mem_cons hd
    exact (startDeviceCollect_sameDevice hne hstart).trans (ih (List.not_mem_of_not_mem_cons hd))
  | cycle _ _ _ hworker _ ih => exact (workerCycle_sameDevice hworker d).trans (ih hd)

/-- The devices of the list that are online and can be started. -/
def ToStart (models : ModelRepository) (devices : List Device) (t : Database) (d : Str) : Prop :=
  ∃ device ∈ devices, device.name = d ∧ device.status ≠ 0 ∧ Startable models t d

theorem toStart_congr {t t' : Database} (h : ∀ device ∈ devices, ∃ name : SqlText,
    device.name = name.bytes ∧ SameRows name t t') (d : Str) :
    ToStart models devices t' d ↔ ToStart models devices t d := by
  refine exists_congr fun device => and_congr_right fun hdevice => and_congr_right fun hname =>
    and_congr_right fun _ => ?_
  obtain ⟨name, hbytes, hsame⟩ := h device hdevice
  rw [← hname, hbytes]
  exact startable_congr hsame

theorem toStart_cons {device : Device} {rest : List Device} {t : Database}
    (hstatus : device.status ≠ 0) (d : Str) : ToStart models (device :: rest) t d ↔
      d = device.name ∧ Startable models t device.name ∨ ToStart models rest t d := by
  simp only [ToStart, List.mem_cons, exists_eq_or_imp]
  refine or_congr_left ⟨?_, ?_⟩
  · rintro ⟨rfl, -, hstartable⟩
    exact ⟨rfl, hstartable⟩
  · rintro ⟨rfl, hstartable⟩
    exact ⟨rfl, hstatus, hstartable⟩

/-- The loop has started the devices with these names: each has a new worker with a clear flag, and
there are no other new workers. -/
structure StartedAs (models : ModelRepository) (devices : List Device) (w w' : Service)
    (names : List Str) : Prop where
  nodup : names.Nodup
  mem : ∀ d, d ∈ names ↔ ToStart models devices w.database d
  active : ∀ d, d ∈ w'.registry.activeDevices ↔ d ∈ names ∨ d ∈ w.registry.activeDevices
  workers : w'.registry.workers = w.registry.workers ++ names.map fun d => { deviceName := d }
  registered : ∀ d ∈ names, ∃ id, w.registry.workers.length ≤ id ∧
    w'.registry.workerThreads[d]? = some id ∧ w'.registry.stopFlags[d]? = some id ∧
    w'.registry.workers[id]? = some { deviceName := d }

/-- A device whose start has registered a worker is the first of those that have been started. -/
theorem StartedAs.cons_registered {device : Device} {rest : List Device} {w₁ : Service}
    {names : List Str} (hnames : StartedAs models rest w₁ w' names) (hstatus : device.status ≠ 0)
    (hmem : ∀ d, d ∈ names ↔ ToStart models rest w.database d)
    (hstartable : Startable models w.database device.name)
    (hnotin : device.name ∉ rest.map (·.name))
    (hregistered : Registered device.name w.registry w₁.registry)
    (hkeep : SameDevice device.name w₁.registry w'.registry) :
    StartedAs models (device :: rest) w w' (device.name :: names) := by
  have hnew : w₁.registry.workers[w.registry.workers.length]? =
      some { deviceName := device.name } := by
    rw [hregistered.workers, List.getElem?_concat_length]
  refine ⟨List.nodup_cons.mpr ⟨fun h => ?_, hnames.nodup⟩, fun d => ?_, fun d => ?_, ?_, fun d hd => ?_⟩
  · obtain ⟨other, hother, hname, -⟩ := (hmem device.name).mp h
    exact hnotin (List.mem_map.mpr ⟨other, hother, hname⟩)
  · rw [List.mem_cons, hmem, toStart_cons hstatus]
    exact or_congr_left (and_iff_left hstartable).symm
  · rw [hnames.active, hregistered.active, List.mem_cons]
    tauto
  · rw [hnames.workers, hregistered.workers, List.append_assoc]
    rfl
  · rcases List.mem_cons.mp hd with rfl | hd
    · refine ⟨w.registry.workers.length, le_rfl, hkeep.thread.trans hregistered.thread,
        hkeep.stopFlag.trans hregistered.stopFlag, ?_⟩
      obtain ⟨later, hlater⟩ := hkeep.workers
      rw [← hlater, List.getElem?_append_left (List.getElem?_eq_some_iff.mp hnew).1]
      exact hnew
    · obtain ⟨id, hle, hentries⟩ := hnames.registered d hd
      rw [hregistered.workers, List.length_append] at hle
      exact ⟨id, Nat.le_of_add_right_le hle, hentries⟩

/-- Every device that the loop comes to without entries is started exactly when it could be started in
the beginning. -/
theorem StartsEach.started (h : StartsEach models devices w w')
    (hnodup : (devices.map (·.name)).Nodup)
    (hplain : ∀ device ∈ devices, ∃ name : SqlText, device.name = name.bytes)
    (hfree : ∀ device ∈ devices, Unregistered w.registry device.name) :
    ∃ names, StartedAs models devices w w' names := by
  induction h with
  | done w => exact ⟨[], .nil, by simp [ToStart], by simp, by simp, by simp⟩
  | @offline device rest w w' hstatus _ ih =>
    obtain ⟨names, hnames⟩ := ih (List.nodup_cons.mp hnodup).2
      (fun other hother => hplain other (List.mem_cons_of_mem _ hother))
      (fun other hother => hfree other (List.mem_cons_of_mem _ hother))
    refine ⟨names, hnames.nodup, fun d => (hnames.mem d).trans ?_, hnames.active, hnames.workers,
      hnames.registered⟩
    simp [ToStart, hstatus]
  | @start device rest w w₁ w' r hstatus hstart hloop ih =>
    obtain ⟨hnotin, hrest⟩ : device.name ∉ rest.map (·.name) ∧ (rest.map (·.name)).Nodup :=
      List.nodup_cons.mp hnodup
    obtain ⟨A, hA⟩ := hplain device List.mem_cons_self
    -- the other devices find the tables and the registry as before
    have hothers : ∀ other ∈ rest, ∃ name : SqlText, other.name = name.bytes ∧
        SameRows name w.database w₁.database := by
      intro other hother
      obtain ⟨B, hB⟩ := hplain other (List.mem_cons_of_mem _ hother)
      refine ⟨B, hB, Initialised.sameRows ?_ (start_database (hA ▸ hstart))⟩
      rintro rfl
      exact hnotin (List.mem_map.mpr ⟨other, hother, hB.trans hA.symm⟩)
    have hfree' : ∀ other ∈ rest, Unregistered w₁.registry other.name := by
      intro other hother
      refine (hfree other (List.mem_cons_of_mem _ hother)).of_sameDevice
        (startDeviceCollect_sameDevice ?_ hstart)
      intro hname
      exact hnotin (List.mem_map.mpr ⟨other, hother, hname⟩)
    obtain ⟨names, hnames⟩ := ih hrest
      (fun other hother => hplain other (List.mem_cons_of_mem _ hother)) hfree'
    have hmem : ∀ d, d ∈ names ↔ ToStart models rest w.database d := fun d =>
      (hnames.mem d).trans (toStart_congr hothers d)
    have hstarted := @start_unregistered models A w [] (hA ▸ hfree device List.mem_cons_self)
    rw [← hA] at hstarted
    obtain ⟨r', w₁', hstart', hcases⟩ := hstarted
    rw [hstart] at hstart'
    cases hstart'
    rcases hcases with ⟨hstartable, hregistered⟩ | ⟨hnot, hsame⟩
    · exact ⟨_, hnames.cons_registered hstatus hmem hstartable hnotin hregistered
        (hloop.sameDevice hnotin)⟩
    · -- a start that fails leaves the registry as it was
      refine ⟨names, hnames.nodup, fun d => ?_, hsame ▸ hnames.active, hsame ▸ hnames.workers,
        hsame ▸ hnames.registered⟩
      rw [hmem, toStart_cons hstatus]
      exact (or_iff_right fun h => hnot h.2).symm
  | @cycle devices w w' A input fault task hactive hworker _ ih =>
    -- `A` is active, so the loop is past it
    have hothers : ∀ device ∈ devices, ∃ name : SqlText, device.name = name.bytes ∧
        SameRows name w.database (workerCycle models input fault task w).database := by
      intro device hdevice
      obtain ⟨B, hB⟩ := hplain device hdevice
      refine ⟨B, hB, workerCycle_sameRows ?_ hworker⟩
      rintro rfl
      exact (hfree device hdevice).active (hB ▸ hactive)
    obtain ⟨names, hnames⟩ := ih hnodup hplain fun device hdevice =>
      (hfree device hdevice).of_sameDevice (workerCycle_sameDevice hworker _)
    obtain ⟨status, hregistry⟩ := @workerCycle_registry models input fault task A w hworker
    refine ⟨names, hnames.nodup, fun d => (hnames.mem d).trans (toStart_congr hothers d), fun d => ?_,
      ?_, ?_⟩
    · exact (hnames.active d).trans (by rw [hregistry]; rfl)
    · exact hnames.workers.trans (by rw [hregistry]; rfl)
    · intro d hd
      obtain ⟨id, hle, hentries⟩ := hnames.registered d hd
      rw [hregistry] at hle
      exact ⟨id, hle, hentries⟩

theorem startEachDevice_isSome (hnodup : (devices.map (·.name)).Nodup)
    (hplain : ∀ device ∈ devices, ∃ name : SqlText, device.name = name.bytes)
    (hfree : ∀ device ∈ devices, Unregistered w.registry device.name) :
    ∃ w', startEachDevice models devices w = some w' := by
  induction devices generalizing w with
  | nil => exact ⟨w, rfl⟩
  | cons device rest ih =>
    obtain ⟨hnotin, hrest⟩ : device.name ∉ rest.map (·.name) ∧ (rest.map (·.name)).Nodup :=
      List.nodup_cons.mp hnodup
    have hplain' := (List.forall_mem_cons.mp hplain).2
    have hfree' := (List.forall_mem_cons.mp hfree).2
    unfold startEachDevice
    split
    · exact ih hrest hplain' hfree'
    · obtain ⟨A, hA⟩ := hplain device List.mem_cons_self
      have hstarted := @start_unregistered models A w [] (hA ▸ hfree device List.mem_cons_self)
      rw [← hA] at hstarted
      obtain ⟨r, w₁, hstart, -⟩ := hstarted
      rw [hstart]
      refine ih hrest hplain' fun other hother => (hfree' other hother).of_sameDevice
        (startDeviceCollect_sameDevice (fun hname => ?_) hstart)
      exact hnotin (List.mem_map.mpr ⟨other, hother, hname⟩)

end Loop

/-! ## 5. The devices that should be started -/

/-- The row of a device that is not offline, and that has data points or a model that can be loaded
and gives it points with distinct paths. -/
def ShouldStart (models : ModelRepository) (t : Database) (x : ℕ × DeviceRow) : Prop :=
  x.2.status ≠ 0 ∧
    ((t.dataPoint.select fun r => r.dName = some x.2.name) ≠ [] ∨
      ∃ points, modelPoints models (readDevice x) = .ok points ∧
        (points.map (·.namePath)).Nodup)

/-- After the call exactly the devices that should be started are active, and each has one new worker
with a clear flag. -/
structure StartedExactly (models : ModelRepository) (w w' : Service) : Prop where
  active : ∀ d, d ∈ w'.registry.activeDevices ↔
    ∃ x ∈ w.database.device.rows, x.2.name.bytes = d ∧ ShouldStart models w.database x
  workers : ∃ names : List Str, names.Nodup ∧
    (∀ d, d ∈ names ↔ d ∈ w'.registry.activeDevices) ∧
    w'.registry.workers = w.registry.workers ++ names.map fun d => { deviceName := d }
  registered : ∀ d ∈ w'.registry.activeDevices, ∃ id, w.registry.workers.length ≤ id ∧
    w'.registry.workerThreads[d]? = some id ∧ w'.registry.stopFlags[d]? = some id ∧
    w'.registry.workers[id]? = some { deviceName := d }

/-- The row is read as it stands: its status does not become zero in 32 bits, and paths that the
model would be initialised with differ before a NUL byte. -/
def ReadAsStored (models : ModelRepository) (t : Database) (x : ℕ × DeviceRow) : Prop :=
  (readDevice x).status ≠ 0 ∧
    ((t.dataPoint.select fun r => r.dName = some x.2.name) = [] → ∀ points,
      modelPoints models (readDevice x) = .ok points →
        (points.map fun point => bindText point.namePath).Nodup)

section Exact
variable {models : ModelRepository} {t : Database} {x : ℕ × DeviceRow}

theorem named_readDevice (hx : x ∈ t.device.rows) : named (readDevice x).name t = some x :=
  DeviceRepository.named_eq_some.mpr ⟨hx, (bindText_bytes x.2.name).symm⟩

theorem startable_row (hx : x ∈ t.device.rows) : Startable models t x.2.name.bytes ↔
    (readDevice x).status ≠ 0 ∧
      ((t.dataPoint.select fun r => r.dName = some x.2.name) ≠ [] ∨
        ∃ points, modelPoints models (readDevice x) = .ok points ∧
          (points.map fun point => bindText point.namePath).Nodup) := by
  have hnamed : named x.2.name.bytes t = some x := named_readDevice hx
  simp only [Startable, hnamed, Option.some.injEq, exists_eq_left', bindText_bytes]

/-- A device that can be started should be; the converse needs that its row is read as it stands. -/
theorem startable_iff_shouldStart (hx : x ∈ t.device.rows) :
    (Startable models t x.2.name.bytes ↔ ShouldStart models t x) ↔
      (ShouldStart models t x → ReadAsStored models t x) := by
  rw [startable_row hx]
  constructor
  · intro h hshould
    obtain ⟨hstatus, hpoints⟩ := h.mpr hshould
    refine ⟨hstatus, fun hnone points hmodel => ?_⟩
    rcases hpoints with hstored | ⟨points', hmodel', hnodup⟩
    · exact absurd hnone hstored
    · rw [hmodel] at hmodel'
      cases hmodel'
      exact hnodup
  · intro hread
    constructor
    · rintro ⟨hstatus, hpoints⟩
      refine ⟨fun hzero => hstatus ?_, hpoints.imp_right fun ⟨points, hmodel, hnodup⟩ =>
        ⟨points, hmodel, nodup_of_bindText hnodup⟩⟩
      simp [readDevice, hzero, columnInt]
    · intro hshould
      obtain ⟨hstatus, hbound⟩ := hread hshould
      refine ⟨hstatus, ?_⟩
      by_cases hnone : (t.dataPoint.select fun r => r.dName = some x.2.name) = []
      · obtain ⟨points, hmodel, -⟩ := hshould.2.resolve_left (not_not.mpr hnone)
        exact .inr ⟨points, hmodel, hbound hnone points hmodel⟩
      · exact .inl hnone

/-- The devices that the loop starts, as rows. -/
theorem toStart_rows (d : Str) : ToStart models (t.device.rows.map readDevice) t d ↔
    ∃ x ∈ t.device.rows, x.2.name.bytes = d ∧ Startable models t x.2.name.bytes := by
  simp only [ToStart, List.mem_map, exists_exists_and_eq_and]
  refine exists_congr fun x => and_congr_right fun hx => ?_
  constructor
  · rintro ⟨rfl, -, hstartable⟩
    exact ⟨rfl, hstartable⟩
  · rintro ⟨rfl, hstartable⟩
    exact ⟨rfl, ((startable_row hx).mp hstartable).1, hstartable⟩

/-- The name of a row determines it. -/
theorem row_eq_of_name {y : ℕ × DeviceRow} (hx : x ∈ t.device.rows) (hy : y ∈ t.device.rows)
    (hname : y.2.name.bytes = x.2.name.bytes) : y = x := by
  have hx' : named x.2.name.bytes t = some x := named_readDevice hx
  have hy' : named y.2.name.bytes t = some y := named_readDevice hy
  rw [hname, hx'] at hy'
  exact (Option.some.inj hy').symm

/-- From any database and with nothing registered, `startAll` returns. Whatever cycles the workers run
meanwhile, it has started exactly the devices that should be started if and only if the rows of these
devices are read as they stand. -/
theorem startAll_exact_iff (models : ModelRepository) (t : Database)
    (statuses : Std.ExtTreeMap Str DeviceStatus) (workers : List Worker) :
    let w : Service := ⟨t, { statuses, workers }⟩
    (∃ w', startAll models w = some w' ∧ StartsAll models w w') ∧
    ∀ w', StartsAll models w w' → (StartedExactly models w w' ↔
      ∀ x ∈ t.device.rows, ShouldStart models t x → ReadAsStored models t x) := by
  intro w
  have hplain : ∀ device ∈ t.device.rows.map readDevice, ∃ name : SqlText,
      device.name = name.bytes := by
    intro device hdevice
    obtain ⟨x, -, rfl⟩ := List.mem_map.mp hdevice
    exact ⟨x.2.name, rfl⟩
  have hfree : ∀ device ∈ t.device.rows.map readDevice, Unregistered w.registry device.name :=
    fun device _ => ⟨by simp [w], by simp [w], by simp [w]⟩
  constructor
  · obtain ⟨w', hloop⟩ := @startEachDevice_isSome models _ w (names_nodup t) hplain hfree
    have hstart : startAll models w = some w' := by
      rw [startAll, SQLiteManager.exec_getDevices]
      exact hloop
    exact ⟨w', hstart, startsAll_of_startAll hstart⟩
  · rintro w' ⟨devices, t', hdevices, hloop⟩
    rw [SQLiteManager.exec_getDevices] at hdevices
    cases hdevices
    obtain ⟨names, hnames⟩ := hloop.started (names_nodup t) hplain hfree
    have hactive : ∀ d, d ∈ w'.registry.activeDevices ↔ d ∈ names := fun d =>
      (hnames.active d).trans (or_iff_left (by simp [w]))
    have hrow : ∀ x ∈ t.device.rows, x.2.name.bytes ∈ w'.registry.activeDevices ↔
        Startable models t x.2.name.bytes := by
      intro x hx
      rw [hactive, hnames.mem, toStart_rows]
      constructor
      · rintro ⟨y, hy, hname, hstartable⟩
        rwa [row_eq_of_name hx hy hname] at hstartable
      · exact fun hstartable => ⟨x, hx, rfl, hstartable⟩
    constructor
    · intro h x hx
      refine (startable_iff_shouldStart hx).mp ((hrow x hx).symm.trans ((h.active _).trans ?_))
      constructor
      · rintro ⟨y, hy, hname, hshould⟩
        rwa [row_eq_of_name hx hy hname] at hshould
      · exact fun hshould => ⟨x, hx, rfl, hshould⟩
    · intro hread
      refine ⟨fun d => ?_, ⟨names, hnames.nodup, fun d => (hactive d).symm, hnames.workers⟩,
        fun d hd => hnames.registered d ((hactive d).mp hd)⟩
      rw [hactive, hnames.mem, toStart_rows]
      exact exists_congr fun x => and_congr_right fun hx => and_congr_right fun _ =>
        (startable_iff_shouldStart hx).mpr (hread x hx)

end Exact

/-- The file of the model `N`: two data items whose names differ behind a NUL byte. -/
def nulModel : ModelRepository where
  fileExists path := .ok (path = lit "config/models/N.yaml")
  contents path := if path = lit "config/models/N.yaml" then
    some (lit "DataItem:\n        - Name: X" ++ 0 :: lit "Y\n        - Name: X" ++ 0 :: lit "Z")
  else none

/-- The device `A` has the model `N`, and is not started. -/
theorem not_startedExactly_nulModel :
    let t := ((SQLiteManager.createDevice { name := lit "A", model := lit "N" }).exec .empty).2
    ∃ w', startAll nulModel ⟨t, {}⟩ = some w' ∧ ¬ StartedExactly nulModel ⟨t, {}⟩ w' := by
  intro t
  let x : ℕ × DeviceRow := (1, DeviceRepository.boundRow { name := lit "A", model := lit "N" })
  have hx : x ∈ t.device.rows := by decide
  have hstart : (startAll nulModel ⟨t, {}⟩).any (fun w' => lit "A" ∉ w'.registry.activeDevices) =
      true := by decide +kernel
  have hpoints : (modelPoints nulModel (readDevice x)).toOption.any
      (fun points => (points.map (·.namePath)).Nodup) = true := by decide +kernel
  obtain ⟨w', hw', hinactive⟩ := (Option.any_eq_true _ _).mp hstart
  obtain ⟨points, hmodel, hnodup⟩ := (Option.any_eq_true _ _).mp hpoints
  refine ⟨w', hw', fun h => of_decide_eq_true hinactive ((h.active _).mpr
    ⟨x, hx, rfl, by decide, .inr ⟨points, ?_, of_decide_eq_true hnodup⟩⟩)⟩
  cases hresult : modelPoints nulModel (readDevice x) with
  | error e =>
    rw [hresult] at hmodel
    cases hmodel
  | ok points' =>
    rw [hresult] at hmodel
    cases hmodel
    rfl

end DataTask

end CollectorService
