import CollectorService.Growth
import CollectorService.Stop

/-!
# Isolation of devices

All devices share one connection, three tables and one registry. What the worker of a device does in
a cycle, and what the start and the stop of a device do, leaves the rows and the entries of every
other device as they are, whatever the driver answers and whichever calls fail; unless the device is
named with a NUL byte, and the part before it is the name of the other device.

* `Untouched`: the rows and the entries of one device are the same in two states.
* `device_isolated_iff`: the cycle, the start and the stop of `A` leave `B` untouched exactly when `B` is
  not the name that the tables find for `A`.
-/

namespace CollectorService

open DataTask (failure)
open DeviceTask (CycleInput CycleState)

/-! ## 1. Commands on a connection that may fail -/

namespace OnConnection

/-- `startDeviceCollect`; `none` when `addWorker` terminates the process. The thread can be created. -/
def startDeviceCollect (models : ModelRepository) (deviceName mid : Str) (c : Conn)
    (s : DeviceStatusStore) : Option (CommandResult × Conn × DeviceStatusStore) :=
  match startChecks models deviceName mid c with
  | (.error e, c) => some (failure mid (cString e), c, s.markStartFailed deviceName)
  | (.ok device, c) =>
    if s.isActive deviceName then
      some (failure mid (cString (lit "device collection is already running: " ++ deviceName)), c,
        s.markStartFailed deviceName)
    else
      let (staleThread, s) := s.takeThread deviceName
      let s := (s.eraseStopFlag deviceName).join staleThread
      ((s.spawn device.name).addWorker deviceName s.nextWorker).map fun s =>
        ({ msg := lit "device collection started: " ++ deviceName, mid }, c, s)

def stopDeviceCollect (deviceName mid : Str) (c : Conn) (s : DeviceStatusStore) :
    Except Str CommandResult × Conn × DeviceStatusStore :=
  match SQLiteManager.deviceExists deviceName c with
  | (.error e, c) => (.error e, c, s)
  | (.ok false, c) => (.ok (failure mid (lit "device not found: " ++ deviceName)), c, s)
  | (.ok true, c) =>
    let (result, s) := DataTask.stopRegistered deviceName mid s
    (.ok result, c, s)

end OnConnection

/-! ## 2. What a device owns -/

/-- The value of the stop flag that is registered for a device. -/
def DeviceStatusStore.flagValue (s : DeviceStatusStore) (d : Str) : Option Bool :=
  s.stopFlags[d]?.bind fun id => s.workers[id]?.map (·.stopFlag)

/-- The entries of a device in the four containers, and the value of its flag. -/
structure SameEntries (d : Str) (s s' : DeviceStatusStore) : Prop where
  status : s'.statuses[d]? = s.statuses[d]?
  active : d ∈ s'.activeDevices ↔ d ∈ s.activeDevices
  stopFlag : s'.stopFlags[d]? = s.stopFlags[d]?
  thread : s'.workerThreads[d]? = s.workerThreads[d]?
  flagValue : s'.flagValue d = s.flagValue d

/-- All devices, and the data points and records of the device `name`. -/
structure SameRows (name : SqlText) (t t' : Database) : Prop where
  device : t'.device = t.device
  dataPoint : t'.dataPoint.select (fun r => r.dName = some name) =
    t.dataPoint.select fun r => r.dName = some name
  resources : t'.resources.select (fun r => r.deviceName = some name) =
    t.resources.select fun r => r.deviceName = some name

/-! ## 3. Rows -/

section Rows
open OnConnection (Initialised)
open DeviceTask (Inserted)

variable {A B : SqlText} {t u v : Database}

theorem SameRows.refl (name : SqlText) (t : Database) : SameRows name t t := ⟨rfl, rfl, rfl⟩

theorem SameRows.trans (h : SameRows B t u) (h' : SameRows B u v) : SameRows B t v :=
  ⟨h'.device.trans h.device, h'.dataPoint.trans h.dataPoint, h'.resources.trans h.resources⟩

/-- New data points of `A` are not among those of `B`. -/
theorem Initialised.sameRows (hne : A ≠ B) (h : Initialised A.bytes t u) : SameRows B t u := by
  rcases h with rfl | ⟨owner, points, v, hname, hv, rfl⟩
  · exact .refl B _
  refine ⟨rfl, ?_, rfl⟩
  rw [AutoTable.select_insertAll?_of_disjoint hv, DataPointRepository.deleteEffect,
    AutoTable.select_deleteWhere_of_disjoint]
  · intro x hx
    simp only [bindText_bytes, decide_eq_true_eq] at hx
    simpa [hx] using hne
  · intro r hr
    obtain ⟨point, -, rfl⟩ := List.mem_map.mp hr
    simpa [DataPointRepository.boundRow, hname] using hne

/-- New records of `A` are not among those of `B`. -/
theorem Inserted.sameRows (hne : A ≠ B) {records : List ResourceRecord}
    (hnames : ∀ record ∈ records, record.deviceName = A.bytes)
    (h : Inserted A.bytes records t u) : SameRows B t u := by
  obtain ⟨t₁, v, hinit, hv, rfl⟩ := h
  have hinit' := Initialised.sameRows hne hinit
  refine ⟨hinit'.device, hinit'.dataPoint, Eq.trans ?_ hinit'.resources⟩
  refine AutoTable.select_insertAll?_of_disjoint hv fun r hr => ?_
  obtain ⟨record, hrecord, rfl⟩ := List.mem_map.mp hr
  simpa [ResourceRepository.boundRow, hnames record hrecord] using hne

/-- A cleanup of `A`, whether it returns or throws, leaves the records of `B`. -/
theorem cleanup_sameRows (hne : A ≠ B) {deviceName : Str} {maxRows : ℤ} {c c' : Conn}
    {r : Except Str Unit} (hdevice : deviceName = A.bytes)
    (hcall : SQLiteManager.cleanupResourcesForDevice deviceName maxRows c = (r, c')) :
    SameRows B c.tables c'.tables := by
  have hwrites := SQLiteManager.writes_cleanupResourcesForDevice deviceName maxRows c
  rw [hcall, hdevice] at hwrites
  rcases hwrites with ⟨e, -, hsame⟩ | ⟨-, heffect⟩
  · rw [hsame]
    exact .refl B _
  · rw [Except.ok.injEq] at heffect
    rw [← heffect]
    split
    · exact .refl B _
    · have hclean := cleanupDevice_newest maxRows A.bytes c.tables
      refine ⟨hclean.device, by rw [hclean.dataPoint], hclean.others (some B) ?_⟩
      simpa [bindText_bytes] using hne.symm

end Rows

/-! ## 4. Entries -/

section Entries
open DeviceStatusStore (SameDevice Named)

variable {d other : Str} {s s' s'' : DeviceStatusStore}

theorem SameEntries.refl (d : Str) (s : DeviceStatusStore) : SameEntries d s s :=
  ⟨rfl, Iff.rfl, rfl, rfl, rfl⟩

theorem SameEntries.trans (h : SameEntries d s s') (h' : SameEntries d s' s'') :
    SameEntries d s s'' :=
  ⟨h'.status.trans h.status, h'.active.trans h.active, h'.stopFlag.trans h.stopFlag,
    h'.thread.trans h.thread, h'.flagValue.trans h.flagValue⟩

/-- Where no status changes and workers are only added, the flag keeps its value. -/
theorem SameEntries.of_sameDevice (hs : s.Named) (h : SameDevice d s s')
    (hstatus : s'.statuses = s.statuses) : SameEntries d s s' := by
  refine ⟨by rw [hstatus], h.active, h.stopFlag, h.thread, ?_⟩
  rw [DeviceStatusStore.flagValue, DeviceStatusStore.flagValue, h.stopFlag]
  cases hid : s.stopFlags[d]? with
  | none => rfl
  | some id =>
    obtain ⟨worker, hworker, -⟩ := Option.map_eq_some_iff.mp (hs.flag d id hid)
    obtain ⟨rest, hrest⟩ := h.workers
    rw [Option.bind_some, Option.bind_some, ← hrest,
      List.getElem?_append_left (List.getElem?_eq_some_iff.mp hworker).1]

theorem SameEntries.setLatestStatus {status : DeviceStatus} (hne : d ≠ status.deviceName)
    (s : DeviceStatusStore) : SameEntries d s (s.setLatestStatus status) := by
  refine ⟨?_, Iff.rfl, rfl, rfl, rfl⟩
  simp [DeviceStatusStore.setLatestStatus, Std.ExtTreeMap.getElem?_insert, hne.symm]

theorem SameEntries.markStopped (hne : d ≠ other) (s : DeviceStatusStore) :
    SameEntries d s (s.markStopped other) := by
  have h := SameDevice.markStartFailed hne s
  refine ⟨rfl, h.active, h.stopFlag, rfl, ?_⟩
  rw [DeviceStatusStore.flagValue, DeviceStatusStore.flagValue]
  exact congrArg (fun id : Option ℕ => id.bind _) h.stopFlag

/-- A worker that finishes keeps the value of its flag. -/
theorem SameEntries.finish (hne : d ≠ other) (id : ℕ) (s : DeviceStatusStore) :
    SameEntries d s (s.finish id other) := by
  refine (SameEntries.markStopped hne s).trans ⟨rfl, Iff.rfl, rfl, rfl, ?_⟩
  refine congrArg (Option.bind _) (funext fun i => ?_)
  show (s.workers.modify id _)[i]?.map _ = s.workers[i]?.map _
  rw [List.getElem?_modify]
  split <;> cases s.workers[i]? <;> rfl

theorem SameEntries.join (hne : d ≠ other) {thread : Option ℕ}
    (hthread : ∀ id ∈ thread, s.nameOf id = some other) : SameEntries d s (s.join thread) := by
  unfold DeviceStatusStore.join
  cases thread with
  | none => exact .refl d s
  | some id =>
    obtain ⟨worker, hworker, hname⟩ := Option.map_eq_some_iff.mp (hthread id rfl)
    simp only [hworker]
    split
    · exact .refl d s
    · rw [hname]
      exact .finish hne id s

/-- The flag that a stop of `other` sets is not that of `d`. -/
theorem SameEntries.requestStop (hs : s.FlagsApart) (hne : d ≠ other) :
    SameEntries d s (s.requestStop other).2 := by
  unfold DeviceStatusStore.requestStop
  split
  · exact .refl d s
  · split
    · next id hid =>
      refine ⟨rfl, Iff.rfl, rfl, rfl, ?_⟩
      rw [DeviceStatusStore.flagValue, DeviceStatusStore.flagValue]
      cases hflag : s.stopFlags[d]? with
      | none => rfl
      | some i =>
        have hi : id ≠ i := fun heq => hne (hs d other i hflag (heq ▸ hid))
        rw [Option.bind_some, Option.bind_some, DeviceStatusStore.setFlag, List.getElem?_modify]
        simp only [hi, if_false]
        cases s.workers[i]? <;> rfl
    · exact .refl d s

theorem Named.join (hs : s.Named) (thread : Option ℕ) : (s.join thread).Named := by
  unfold DeviceStatusStore.join
  split
  · exact hs
  · split
    · split
      · exact hs
      · exact hs.finish _ _
    · exact hs

end Entries

/-! ## 5. The cycle, the start and the stop of a device -/

/-- All device rows are the same, and so are the other rows of the device `name` and its entries. -/
structure Untouched (name : Str) (t t' : Database) (s s' : DeviceStatusStore) : Prop where
  device : t'.device = t.device
  rows : ∀ row : SqlText, row.bytes = name → SameRows row t t'
  entries : SameEntries name s s'

instance : Nontrivial SqlText := ⟨⟨bindText [], bindText (lit "A"), by decide⟩⟩

/-- What leaves the rows of all other devices leaves those of `name`. -/
theorem Untouched.of_others {A : SqlText} {name : Str} {t t' : Database} {s s' : DeviceStatusStore}
    (hne : A.bytes ≠ name) (hrows : ∀ row, A ≠ row → SameRows row t t')
    (hentries : SameEntries name s s') : Untouched name t t' s s' := by
  obtain ⟨other, hother⟩ := exists_ne A
  exact ⟨(hrows other hother.symm).device, fun row hrow => hrows row fun heq => hne (heq ▸ hrow), hentries⟩

section Steps
open DeviceStatusStore (SameDevice Named)
open DeviceTask (runCycle)

variable {A B : SqlText} {deviceName other : Str} {models : ModelRepository} {mid : Str} {c c' : Conn}
  {s s' : DeviceStatusStore}

/-- The worker collects the device, and publishes its status under this name. -/
structure DeviceTask.WorksFor (deviceName : Str) (task : DeviceTask.TaskState) : Prop where
  device : task.device.name = deviceName
  status : task.status.deviceName = deviceName

/-- The registry behind a cycle of worker `id`: one that gives up leaves its loop. -/
def DeviceTask.registryAfter (models : ModelRepository) (input : CycleInput) (id : ℕ)
    (st : CycleState) : DeviceStatusStore :=
  let (result, st') := runCycle models input st
  if result = .gaveUp then st'.registry.finish id st'.task.device.name else st'.registry

/-- Whatever its outcome, a cycle publishes a status of the worker's device, and does nothing else to
the registry. -/
theorem runCycle_publishes {input : CycleInput} {st : CycleState}
    (hworker : DeviceTask.WorksFor A.bytes st.task) :
    DeviceTask.WorksFor A.bytes (runCycle models input st).2.task ∧
      ∃ status : DeviceStatus, status.deviceName = A.bytes ∧
        (runCycle models input st).2.registry = st.registry.setLatestStatus status := by
  have hends := DeviceTask.insertNext_ends models input (st.at "prepare") A hworker.device _ rfl
  have hstep := DeviceTask.runCycle_step models input st
  rcases hrun : runCycle models input st with ⟨result, st'⟩
  rw [hrun] at hstep
  cases hstep with
  | @failed e s₁ hinsert hbelow | @gaveUp e s₁ hinsert hlimit =>
    rw [hinsert] at hends
    obtain ⟨-, hregistry, htask⟩ := hends
    have hstatus := htask.statusName.trans hworker.status
    refine ⟨⟨htask.name.trans hworker.device, hstatus⟩, DeviceTask.failedStatus e s₁.task, hstatus, ?_⟩
    show s₁.registry.setLatestStatus _ = _
    rw [hregistry]
    rfl
  | @succeeded response records s₁ s₂ hinsert hcleanup =>
    rw [hinsert] at hends
    obtain ⟨-, -, hregistry, htask⟩ := hends
    -- the cleanup changes neither the registry nor the names
    have hclose : s₂.registry = s₁.registry ∧ s₂.task.status = s₁.task.status ∧
        s₂.task.device = s₁.task.device := by
      cases hcleanup <;> exact ⟨rfl, rfl, rfl⟩
    have hstatus : s₂.task.status.deviceName = A.bytes :=
      hclose.2.1 ▸ htask.statusName.trans hworker.status
    refine ⟨⟨?_, hstatus⟩, DeviceTask.succeededStatus response input.statusTime s₂.task.status,
      hstatus, ?_⟩
    · show s₂.task.device.name = _
      rw [hclose.2.2]
      exact htask.name.trans hworker.device
    · show s₂.registry.setLatestStatus _ = _
      rw [hclose.1, hregistry]
      rfl

/-- The worker may leave its loop after the cycle. -/
theorem registryAfter_publishes {input : CycleInput} {id : ℕ} {st : CycleState}
    (hworker : DeviceTask.WorksFor A.bytes st.task) :
    ∃ status : DeviceStatus, status.deviceName = A.bytes ∧
      (DeviceTask.registryAfter models input id st = st.registry.setLatestStatus status ∨
        DeviceTask.registryAfter models input id st =
          (st.registry.setLatestStatus status).finish id A.bytes) := by
  obtain ⟨hworks, status, hstatus, hregistry⟩ := @runCycle_publishes A models input st hworker
  refine ⟨status, hstatus, ?_⟩
  have hafter : DeviceTask.registryAfter models input id st =
      if (runCycle models input st).1 = .gaveUp then
        (runCycle models input st).2.registry.finish id (runCycle models input st).2.task.device.name
      else (runCycle models input st).2.registry := rfl
  rw [hafter, hworks.device, hregistry]
  split
  · exact .inr rfl
  · exact .inl rfl

/-- A cycle of a worker of `A` leaves the rows of `B`. -/
theorem cycle_sameRows (hne : A ≠ B) {input : CycleInput} {st : CycleState}
    (hworker : DeviceTask.WorksFor A.bytes st.task) :
    SameRows B st.conn.tables (runCycle models input st).2.conn.tables := by
  have hends := DeviceTask.insertNext_ends models input (st.at "prepare") A hworker.device _ rfl
  have hstep := DeviceTask.runCycle_step models input st
  rcases hrun : runCycle models input st with ⟨result, st'⟩
  rw [hrun] at hstep
  cases hstep with
  | failed hinsert hbelow | gaveUp hinsert hlimit =>
    rw [hinsert] at hends
    exact Initialised.sameRows hne hends.1
  | succeeded hinsert hcleanup =>
    rw [hinsert] at hends
    obtain ⟨hnames, hinserted, -, htask⟩ := hends
    have hrows := Inserted.sameRows hne hnames hinserted
    have hdevice := htask.name.trans hworker.device
    cases hcleanup with
    | notDue hnot => exact hrows
    | done hdue hcall | failed hdue hcall =>
      exact hrows.trans (cleanup_sameRows hne hdevice hcall)

/-- The worker `id` of `A` may end with its cycle. -/
theorem cycle_untouched (hne : A.bytes ≠ other) {input : CycleInput} {id : ℕ} {st : CycleState}
    (hworker : DeviceTask.WorksFor A.bytes st.task) :
    Untouched other st.conn.tables (runCycle models input st).2.conn.tables st.registry
      (DeviceTask.registryAfter models input id st) := by
  refine .of_others hne (fun row hrow => cycle_sameRows hrow hworker) ?_
  obtain ⟨status, hstatus, hregistry⟩ := @registryAfter_publishes A models input id st hworker
  have hpublished : SameEntries other st.registry (st.registry.setLatestStatus status) :=
    .setLatestStatus (by rw [hstatus]; exact hne.symm) _
  rcases hregistry with hregistry | hregistry
  · rw [hregistry]
    exact hpublished
  · rw [hregistry]
    exact hpublished.trans (.finish hne.symm id _)

theorem addWorker_statuses {d : Str} {id : ℕ} (h : s.addWorker d id = some s') :
    s'.statuses = s.statuses := by
  unfold DeviceStatusStore.addWorker at h
  split at h
  · cases h
    rfl
  · cases h

/-- The registry part of a start. The thread that it joins has the name that the tables find. -/
theorem start_sameEntries (hne : other ≠ deviceName) (hname : other ≠ cString deviceName)
    (hs : s.Named) {workerName : Str}
    (h : (((((s.takeThread deviceName).2.eraseStopFlag deviceName).join
      (s.takeThread deviceName).1).spawn workerName).addWorker deviceName
        (((s.takeThread deviceName).2.eraseStopFlag deviceName).join
          (s.takeThread deviceName).1).nextWorker) = some s') : SameEntries other s s' := by
  have htake := hs.takeThread deviceName
  have herase := htake.eraseStopFlag deviceName
  have hjoin := Named.join herase (s.takeThread deviceName).1
  have hstatuses := addWorker_statuses h
  have hthread : ∀ id ∈ (s.takeThread deviceName).1,
      ((s.takeThread deviceName).2.eraseStopFlag deviceName).nameOf id = some (cString deviceName) :=
    fun id hid => hs.thread deviceName id hid
  exact (((SameEntries.of_sameDevice hs (.takeThread hne s) rfl).trans
    (.of_sameDevice htake (.eraseStopFlag hne _) rfl)).trans (.join hname hthread)).trans
    ((SameEntries.of_sameDevice hjoin (.spawn _) rfl).trans
      (.of_sameDevice (hjoin.spawn workerName) (.addWorker hne h) hstatuses))

/-- The registry part of a stop. -/
theorem stop_sameEntries (hne : other ≠ deviceName) (hname : other ≠ cString deviceName)
    (hs : s.Named) (hflags : s.FlagsApart) :
    SameEntries other s (DataTask.stopRegistered deviceName mid s).2 := by
  have hstop := hs.requestStop deviceName
  have htake := hstop.takeThread deviceName
  have hrequest : SameEntries other s (s.requestStop deviceName).2 := .requestStop hflags hne
  have hthread : ∀ id ∈ ((s.requestStop deviceName).2.takeThread deviceName).1,
      ((((s.requestStop deviceName).2.takeThread deviceName).2).eraseStopFlag deviceName).nameOf id =
        some (cString deviceName) := fun id hid => hstop.thread deviceName id hid
  unfold DataTask.stopRegistered
  dsimp only
  split
  · exact hrequest
  · exact (((hrequest.trans (.of_sameDevice hstop (.takeThread hne _) rfl)).trans
      (.of_sameDevice htake (.eraseStopFlag hne _) rfl)).trans (.join hname hthread)).trans
      (.markStopped hne _)

theorem start_untouched (hne : deviceName ≠ other) (hname : cString deviceName ≠ other)
    (hs : s.Named) {r : CommandResult}
    (h : OnConnection.startDeviceCollect models deviceName mid c s = some (r, c', s')) :
    Untouched other c.tables c'.tables s s' := by
  have hinit := OnConnection.startChecks_changes models deviceName mid c
  have hrows : ∀ row, bindText deviceName ≠ row → SameRows row c.tables
      (OnConnection.startChecks models deviceName mid c).2.tables :=
    fun row hrow => Initialised.sameRows hrow hinit
  unfold OnConnection.startDeviceCollect at h
  rcases hrun : OnConnection.startChecks models deviceName mid c with ⟨e | device, c₁⟩
  · rw [hrun] at hrows
    simp only [hrun] at h
    cases h
    exact .of_others hname hrows (.markStopped hne.symm s)
  · rw [hrun] at hrows
    simp only [hrun] at h
    split at h
    · cases h
      exact .of_others hname hrows (.markStopped hne.symm s)
    · obtain ⟨s₁, hadd, heq⟩ := Option.map_eq_some_iff.mp h
      cases heq
      exact .of_others hname hrows (start_sameEntries hne.symm hname.symm hs hadd)

theorem stop_untouched (hne : deviceName ≠ other) (hname : cString deviceName ≠ other)
    (hs : s.Named) (hflags : s.FlagsApart) :
    Untouched other c.tables (OnConnection.stopDeviceCollect deviceName mid c s).2.1.tables s
      (OnConnection.stopDeviceCollect deviceName mid c s).2.2 := by
  have hsame := @SQLiteManager.reads_deviceExists deviceName c
  have huntouched : ∀ {c₁ : Conn} {s' : DeviceStatusStore}, c₁.tables = c.tables →
      SameEntries other s s' → Untouched other c.tables c₁.tables s s' := fun htables hentries =>
    ⟨congrArg Database.device htables, fun row _ => htables ▸ .refl row _, hentries⟩
  unfold OnConnection.stopDeviceCollect
  rcases hrun : SQLiteManager.deviceExists deviceName c with ⟨e | found, c₁⟩
  · rw [hrun] at hsame
    exact huntouched hsame (.refl _ s)
  · rw [hrun] at hsame
    cases found with
    | false => exact huntouched hsame (.refl _ s)
    | true => exact huntouched hsame (stop_sameEntries hne.symm hname.symm hs hflags)

end Steps

/-- Whatever is stored, whatever the driver answers and whichever calls fail: a cycle of a worker of `A`,
the end of its loop included, leaves `B` untouched, and so do the start and the stop of `A` in every
registry that the service reaches. A worker of `A` has the name of the row that `A` finds. -/
def Isolated (A B : Str) : Prop :=
  ∀ models : ModelRepository,
    (∀ (input : CycleInput) (id : ℕ) (st : CycleState), DeviceTask.WorksFor (cString A) st.task →
      DeviceTask.WorksFor (cString A) (DeviceTask.runCycle models input st).2.task ∧
      Untouched B st.conn.tables (DeviceTask.runCycle models input st).2.conn.tables st.registry
        (DeviceTask.registryAfter models input id st)) ∧
    ∀ s : System, Steps.Reach System.step (fun _ _ => True) .initial s → ∀ (mid : Str) (c : Conn),
      (∀ r c' s', OnConnection.startDeviceCollect models A mid c s.registry = some (r, c', s') →
        Untouched B c.tables c'.tables s.registry s') ∧
      Untouched B c.tables (OnConnection.stopDeviceCollect A mid c s.registry).2.1.tables
        s.registry (OnConnection.stopDeviceCollect A mid c s.registry).2.2

section Isolated
variable {A B : Str}

theorem isolated_of_ne (hne : A ≠ B) (hname : cString A ≠ B) : Isolated A B := by
  intro models
  refine ⟨fun input id st hworker => ?_, fun s hs mid c => ⟨fun r c' s' h => ?_, ?_⟩⟩
  · exact ⟨(runCycle_publishes (A := bindText A) hworker).1, cycle_untouched (A := bindText A) hname hworker⟩
  · exact start_untouched hne hname (named_of_reach hs) h
  · exact stop_untouched hne hname (named_of_reach hs) (flagsApart_of_reach hs)

/-- A worker under the name of another device publishes the status of that device. -/
theorem cString_ne_of_isolated (h : Isolated A B) : cString A ≠ B := by
  rintro rfl
  let st : CycleState :=
    { conn := { tables := .empty, fault := fun _ => none }
      registry := {}
      task := .enter { name := cString A } 0 }
  have hworker : DeviceTask.WorksFor (bindText A).bytes st.task := ⟨rfl, rfl⟩
  obtain ⟨status, hstatus, hregistry⟩ :=
    @registryAfter_publishes (bindText A) oneModel oneValue 0 st hworker
  have hsame := ((h oneModel).1 oneValue 0 st hworker).2.entries.status
  have hnew : (st.registry.setLatestStatus status).statuses[cString A]? = some status := by
    have hname : status.deviceName = cString A := hstatus
    rw [← hname]
    exact Std.ExtTreeMap.getElem?_insert_self
  have hnone : st.registry.statuses[cString A]? = none := Std.ExtTreeMap.getElem?_empty
  rcases hregistry with hregistry | hregistry <;>
  · rw [hregistry, hnone] at hsame
    exact Option.some_ne_none status (hnew.symm.trans hsame)

/-- Two names are isolated exactly when `B` is not the part of `A` before its first NUL byte. -/
theorem device_isolated_iff (hne : A ≠ B) : Isolated A B ↔ cString A ≠ B :=
  ⟨cString_ne_of_isolated, isolated_of_ne hne⟩

end Isolated

/-- The worker of `A` begins a cycle. -/
def cycleA : CycleState := startedRunA.cycleState (.enter { name := lit "A" } 0) fun _ => none

theorem device_isolated_iff_AB :
    Untouched (lit "B") cycleA.conn.tables
      (DeviceTask.runCycle oneModel oneValue cycleA).2.conn.tables cycleA.registry
      (DeviceTask.registryAfter oneModel oneValue 0 cycleA) := by
  have hne : lit "A" ≠ lit "B" := by decide
  have hworker : DeviceTask.WorksFor (cString (lit "A")) cycleA.task := ⟨by decide, by decide⟩
  exact (((device_isolated_iff hne).mpr (by decide) oneModel).1 oneValue 0 cycleA hworker).2

/-- A device whose data points have not been initialised. -/
def withoutPointsB : Database :=
  ((SQLiteManager.createDevice { name := lit "B", model := lit "M" }).exec .empty).2

/-- A start under a name with a NUL byte initialises the data points of the device before it. -/
theorem startNul_not_isolated : lit "B\x00x" ≠ lit "B" ∧ ¬ Isolated (lit "B\x00x") (lit "B") ∧
    ∃ r c' s', OnConnection.startDeviceCollect oneModel (lit "B\x00x") []
        { tables := withoutPointsB, fault := fun _ => none } {} = some (r, c', s') ∧
      r.code = 200 ∧ ¬ SameRows (bindText (lit "B")) withoutPointsB c'.tables := by
  have hrun : (OnConnection.startDeviceCollect oneModel (lit "B\x00x") []
      { tables := withoutPointsB, fault := fun _ => none } {}).map (fun r => (r.1.code,
        (r.2.1.tables.dataPoint.select fun row => row.dName = some (bindText (lit "B"))).length)) =
      some (200, 1) := by decide +kernel
  obtain ⟨⟨r, c', s'⟩, hstart, hresult⟩ := Option.map_eq_some_iff.mp hrun
  obtain ⟨hcode, hlength⟩ := Prod.mk.inj hresult
  have hchanged : ¬ SameRows (bindText (lit "B")) withoutPointsB c'.tables := by
    intro hsame
    rw [hsame.dataPoint] at hlength
    exact absurd hlength (by decide +kernel)
  have hne : lit "B\x00x" ≠ lit "B" := by decide
  refine ⟨hne, fun hisolated => ?_, r, c', s', hstart, hcode, hchanged⟩
  exact hchanged ((((hisolated oneModel).2 .initial .start [] _).1 r c' s' hstart).rows _ rfl)

end CollectorService
