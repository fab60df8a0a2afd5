import CollectorService.NamesInUse
import CollectorService.TaskRoutes

/-!
# Devices that the registry refers to

The whole service, command by command and cycle by cycle: the database, the registry, and the
variables of every worker.

* `Runtime.step`: a whole command, a whole cycle of one worker, or the end of a worker.
* `liveDevices_of_reach`: as long as every command is safe, every name in use is that of a device,
  and a device that has been deleted or renamed is not found.
* `deleted_while_active`: the deletion of a device that is active leaves its worker behind.
-/

namespace CollectorService

open DeviceTask (CycleInput CycleState TaskState WorksFor runCycle registryAfter)

/-! ## 1. The service -/

/-- The service between two commands or cycles; the tasks are numbered like the workers. -/
structure Runtime where
  database : Database
  registry : DeviceStatusStore := {}
  tasks : List TaskState := []

inductive RuntimeEvent where
  /-- A command; `now` is a time of the steady clock, for the workers that it creates. -/
  | command (models : ModelRepository) (requestText : Str) (fault : ℕ → Option Str) (now : ℤ)
  /-- Worker `id` makes one turn of its loop. -/
  | cycle (id : ℕ) (models : ModelRepository) (input : CycleInput) (fault : ℕ → Option Str)
  /-- Worker `id` finds its flag set, and leaves its loop. -/
  | leave (id : ℕ)

namespace Runtime

/-- The process that a command finds. -/
def process (s : Runtime) (fault : ℕ → Option Str) : Process :=
  ⟨{ tables := s.database, fault }, s.registry⟩

/-- The variables of the new workers: of the device that a start has read, a worker uses the name
only, before it reads the device again. -/
def newTasks (s : Runtime) (registry : DeviceStatusStore) (now : ℤ) : List TaskState :=
  (registry.workers.drop s.tasks.length).map fun w => .enter { name := w.deviceName } now

/-- A step of the service. -/
def step (s : Runtime) : RuntimeEvent → Option Runtime
  | .command models requestText fault now =>
    (CommandProcessor.handle models requestText (s.process fault)).map fun (_, p) =>
      ⟨p.conn.tables, p.registry, s.tasks ++ s.newTasks p.registry now⟩
  | .cycle id models input fault => do
    let worker ← s.registry.workers[id]?
    let task ← s.tasks[id]?
    if worker.Running then
      let st : CycleState := ⟨{ tables := s.database, fault }, s.registry, task⟩
      let st' := (runCycle models input st).2
      some ⟨st'.conn.tables, registryAfter models input id st, s.tasks.set id st'.task⟩
    else none
  | .leave id => do
    let worker ← s.registry.workers[id]?
    let task ← s.tasks[id]?
    if !worker.finished && worker.stopFlag then
      some { s with registry := s.registry.finish id task.device.name }
    else none

/-- The commands are safe. -/
def Admitted (s : Runtime) : RuntimeEvent → Prop
  | .command _ requestText fault _ => CommandProcessor.Safe (s.process fault) requestText
  | .cycle .. | .leave _ => True

/-- The service refers to existing devices only. -/
structure Sound (s : Runtime) : Prop where
  live : ∀ d, s.registry.InUse d → d ∈ s.database.deviceNames
  /-- A status is stored under its own name. -/
  keys : ∀ (d : Str) (status : DeviceStatus), s.registry.statuses[d]? = some status →
    status.deviceName = d
  tasks : s.tasks.length = s.registry.workers.length
  works : ∀ (id : ℕ) (task : TaskState), s.tasks[id]? = some task →
    ∃ name, s.registry.nameOf id = some name ∧ WorksFor name task

end Runtime

/-! ## 2. Cycles -/

section Cycle
variable {models : ModelRepository} {input : CycleInput} {st : CycleState} {A : SqlText} {id : ℕ}

theorem sameDevices_cleanup {deviceName : Str} {maxRows : ℤ} :
    (SQLiteManager.cleanupResourcesForDevice deviceName maxRows).Changes SameDevices :=
  (SQLiteManager.writes_cleanupResourcesForDevice deviceName maxRows).changes .refl fun t u hu => by
    rw [Except.ok.injEq] at hu
    rw [← hu]
    split
    · exact .refl t
    · exact (cleanupDevice_newest maxRows deviceName t).device

theorem cycle_sameDevices (hworker : WorksFor A.bytes st.task) :
    SameDevices st.conn.tables (runCycle models input st).2.conn.tables := by
  have hends := DeviceTask.insertNext_ends models input (st.at "prepare") A hworker.device _ rfl
  have hstep := DeviceTask.runCycle_step models input st
  rcases hrun : runCycle models input st with ⟨result, st'⟩
  rw [hrun] at hstep
  cases hstep with
  | failed hinsert _ | gaveUp hinsert _ =>
    rw [hinsert] at hends
    exact .of_initialised hends.1
  | @succeeded response records s₁ s₂ hinsert hcleanup =>
    rw [hinsert] at hends
    obtain ⟨-, ⟨t₁, v, hinit, -, htables⟩, -, -⟩ := hends
    have hinserted : SameDevices st.conn.tables s₁.conn.tables := by
      have hpoints : SameDevices st.conn.tables t₁ := .of_initialised hinit
      unfold SameDevices
      rw [htables]
      exact hpoints
    cases hcleanup with
    | notDue hnot => exact hinserted
    | done hdue hcall | failed hdue hcall =>
      have hdevices := @sameDevices_cleanup (s₁.at "close").task.device.name
        DataTask.kMaxRowsPerDevice (s₁.at "close").conn
      rw [hcall] at hdevices
      exact hdevices.trans hinserted

end Cycle

/-! ## 3. Every step -/

namespace Runtime

open DeviceStatusStore (nameOf KeepsNames)

variable {s s' : Runtime} {t : Database} {event : RuntimeEvent}

theorem Sound.start (t : Database) : Sound { database := t } where
  live d hd := by
    cases hd with
    | active h => exact absurd h Std.ExtTreeSet.not_mem_empty
    | status h => exact absurd h Std.ExtTreeMap.not_mem_empty
    | worker h => cases h
  keys d status h := by simp at h
  tasks := rfl
  works id task h := by cases h

theorem nameOf_eq_some {r : DeviceStatusStore} {id : ℕ} {w : Worker} (h : r.workers[id]? = some w) :
    r.nameOf id = some w.deviceName := by
  rw [nameOf, h]
  rfl

/-- Workers that keep their names keep their numbers. -/
theorem length_le_of_keepsNames {r r' : DeviceStatusStore} (h : KeepsNames r r') :
    r.workers.length ≤ r'.workers.length := by
  by_contra hlt
  have hlt := not_le.mp hlt
  have hname := h r'.workers.length _ (nameOf_eq_some (List.getElem?_eq_getElem hlt))
  rw [nameOf, List.getElem?_eq_none le_rfl] at hname
  cases hname

/-- The new workers have tasks of their own. -/
theorem Sound.newTasks (h : s.Sound) {r : DeviceStatusStore} (hnames : KeepsNames s.registry r)
    (now : ℤ) : (s.tasks ++ s.newTasks r now).length = r.workers.length ∧
      ∀ (id : ℕ) (task : TaskState), (s.tasks ++ s.newTasks r now)[id]? = some task →
        ∃ name, r.nameOf id = some name ∧ WorksFor name task := by
  have hlength := length_le_of_keepsNames hnames
  constructor
  · simp only [Runtime.newTasks, List.length_append, List.length_map, List.length_drop, h.tasks]
    omega
  · intro id task htask
    rcases lt_or_ge id s.tasks.length with hold | hnew
    · rw [List.getElem?_append_left hold] at htask
      obtain ⟨name, hname, hworks⟩ := h.works id task htask
      exact ⟨name, hnames id name hname, hworks⟩
    · rw [List.getElem?_append_right hnew, Runtime.newTasks, List.getElem?_map, List.getElem?_drop,
        Nat.add_sub_cancel' hnew] at htask
      obtain ⟨worker, hworker, rfl⟩ := Option.map_eq_some_iff.mp htask
      exact ⟨worker.deviceName, nameOf_eq_some hworker, rfl, rfl⟩

/-- Workers with the same names have the same numbers. -/
theorem length_eq_of_nameOf {r r' : DeviceStatusStore} (h : ∀ id, r'.nameOf id = r.nameOf id) :
    r'.workers.length = r.workers.length :=
  le_antisymm (length_le_of_keepsNames fun id _ hid => (h id).symm.trans hid)
    (length_le_of_keepsNames fun id _ hid => (h id).trans hid)

theorem Sound.retires (h : s.Sound) {r : DeviceStatusStore} (hretires : s.registry.Retires r) :
    Sound { s with registry := r } where
  live d hd := h.live d (hretires.inUse hd)
  keys d status hd := h.keys d status (hretires.statuses ▸ hd)
  tasks := h.tasks.trans (length_eq_of_nameOf hretires.names).symm
  works id task htask := by
    obtain ⟨name, hname, hworks⟩ := h.works id task htask
    exact ⟨name, (hretires.names id).trans hname, hworks⟩

theorem Sound.setLatestStatus (h : s.Sound) {status : DeviceStatus}
    (hname : status.deviceName ∈ s.database.deviceNames) :
    Sound { s with registry := s.registry.setLatestStatus status } where
  live d hd := by
    rcases DeviceStatusStore.InUse.of_setLatestStatus hd with hd | rfl
    · exact h.live d hd
    · exact hname
  keys d status' hd := by
    rw [DeviceStatusStore.setLatestStatus, Std.ExtTreeMap.getElem?_insert] at hd
    split at hd
    · next heq =>
      cases hd
      exact Std.LawfulEqCmp.eq_of_compare heq
    · exact h.keys d status' hd
  tasks := h.tasks
  works := h.works

/-- A cycle leaves the devices, and a worker works for the same device. -/
theorem Sound.cycle (h : s.Sound) (hdevices : SameDevices s.database t) {id : ℕ} {name : Str}
    {task : TaskState} (hname : s.registry.nameOf id = some name) (hworks : WorksFor name task) :
    Sound { s with database := t, tasks := s.tasks.set id task } where
  live d hd := hdevices.names.ge (h.live d hd)
  keys := h.keys
  tasks := (List.length_set ..).trans h.tasks
  works i task' htask := by
    rw [List.getElem?_set] at htask
    split at htask
    · next heq =>
      split at htask
      · cases htask
        exact ⟨name, heq ▸ hname, hworks⟩
      · cases htask
    · exact h.works i task' htask

theorem Sound.step (h : s.Sound) (hok : s.Admitted event) (hstep : s.step event = some s') :
    s'.Sound := by
  cases event with
  | command models requestText fault now =>
    obtain ⟨⟨r, p⟩, hrun, rfl⟩ := Option.map_eq_some_iff.mp hstep
    have hfollows := CommandProcessor.handle_follows hok _ _ hrun
    obtain ⟨htasks, hworks⟩ := h.newTasks hfollows.names now
    exact ⟨hfollows.live h.live, fun d status hd => h.keys d status (hfollows.statuses ▸ hd), htasks,
      hworks⟩
  | cycle id models input fault =>
    obtain ⟨worker, hworker, hstep⟩ := Option.bind_eq_some_iff.mp hstep
    obtain ⟨task, htask, hstep⟩ := Option.bind_eq_some_iff.mp hstep
    split at hstep
    · next hrunning =>
      cases hstep
      obtain ⟨name, hname, hworks⟩ := h.works id task htask
      obtain rfl : worker.deviceName = name :=
        Option.some.inj ((nameOf_eq_some hworker).symm.trans hname)
      -- the name of a running worker is in use, so it is that of a device
      have hmem := h.live _ (.worker (List.mem_of_getElem? hworker) rfl hrunning)
      let A : SqlText := ⟨worker.deviceName, notMem_of_mem_deviceNames hmem⟩
      have hworks' : WorksFor A.bytes task := hworks
      let st : CycleState := ⟨{ tables := s.database, fault }, s.registry, task⟩
      have hdevices := @cycle_sameDevices models input st A hworks'
      obtain ⟨status, hstatus, hregistry⟩ :=
        @registryAfter_publishes A models input id st hworks'
      have hpublished := h.setLatestStatus (show status.deviceName ∈ _ from hstatus ▸ hmem)
      have htask' := (@runCycle_publishes A models input st hworks').1
      rcases hregistry with hregistry | hregistry
      · rw [hregistry]
        exact hpublished.cycle hdevices hname htask'
      · rw [hregistry]
        have hleft := hpublished.retires (.finish _ id A.bytes)
        exact hleft.cycle hdevices ((DeviceStatusStore.nameOf_finish id).trans hname) htask'
    · cases hstep
  | leave id =>
    obtain ⟨worker, hworker, hstep⟩ := Option.bind_eq_some_iff.mp hstep
    obtain ⟨task, htask, hstep⟩ := Option.bind_eq_some_iff.mp hstep
    split at hstep
    · cases hstep
      exact h.retires (.finish s.registry id task.device.name)
    · cases hstep

theorem sound_of_reach (hs : Steps.Reach Runtime.step Admitted { database := t } s) : s.Sound :=
  hs.invariant (Sound.start t) fun _ _ _ h hok hstep => h.step hok hstep

end Runtime

/-! ## 4. Deleted and renamed devices -/

/-- The command deletes `d`, or gives it another name. -/
def CommandProcessor.TakesAway (requestText d : Str) : Prop :=
  (extractStringField requestText (lit "category") = lit "delete_device" ∧
    extractStringField requestText (lit "device_name") = d) ∨
  (extractStringField requestText (lit "category") = lit "update_device" ∧
    ∃ device, CommandParser.parseDeviceUpsert requestText = .ok device ∧
      SQLiteManager.targetName device = d ∧ cString device.name ≠ cString d)

section Answer
open CommandProcessor (answer errorResult TakesAway)
open Session (onConnection)

variable {models : ModelRepository} {requestText mid d : Str} {p p' : Process} {r : CommandResult}

/-- A device command that answers 200 has returned. -/
theorem answer_onConnection {n : Sql CommandResult}
    (h : Session.tryCatch (do return Answer.result (← onConnection n))
      (fun e => Answer.result (errorResult mid e)) p = some (.ok (Answer.result r), p'))
    (hcode : r.code = 200) :
    n p.conn = (.ok r, p'.conn) := by
  simp only [Session.tryCatch, Session.bind_apply, Session.onConnection, Session.pure_apply] at h
  rcases hrun : n p.conn with ⟨e | r', c⟩
  · rw [hrun] at h
    cases h
    cases hcode
  · rw [hrun] at h
    cases h
    rfl

/-- When such a command answers 200, the name is gone. -/
theorem takesAway_removes (htakes : TakesAway requestText d)
    (h : answer models requestText p = some (.ok (.result r), p')) (hcode : r.code = 200) :
    cString d ∉ p'.conn.tables.deviceNames := by
  unfold answer at h
  rcases htakes with ⟨hcategory, rfl⟩ | ⟨hcategory, device, hparse, rfl, hrename⟩
  · rw [hcategory] at h
    exact OnConnection.deleteDevice_removes (answer_onConnection h hcode) hcode
  · rw [hcategory] at h
    have hupdate := answer_onConnection
      (n := OnConnection.handleUpdateDevice models requestText _) h hcode
    unfold OnConnection.handleUpdateDevice at hupdate
    rw [hparse] at hupdate
    exact OnConnection.updateDevice_removes hrename hupdate hcode

end Answer

/-- `GET /status?device=...`, with the name of the device percent encoded. -/
def statusRequest (deviceName : Str) (version : ℕ) (keepAlive : Bool) : HttpRequest where
  method := .get
  target := lit "/status" ++
    byte '?' :: (lit "device" ++ lit "=" ++ HttpRouter.percentEncode deviceName)
  version
  keepAlive

/-- The answer to a status request for a device that is neither in the table nor in the store. -/
theorem statusRequest_notFound {models : ModelRepository} {t : Database} {n : ℕ}
    {s : DeviceStatusStore} {d : Str} {version : ℕ} {keepAlive : Bool} (hd : d ≠ [])
    (hname : cString d ∉ t.deviceNames) (hstatus : ∀ status ∈ s.getStatus, status.deviceName ≠ d) :
    HttpRouter.route models (statusRequest d version keepAlive) ⟨healthy t none n, s⟩ =
      some (.ok (makeResponse .internalServerError (jsonError (lit "device not found: " ++ cString d))
        version keepAlive), ⟨healthy t none (n + 2), s⟩) := by
  have hpath : HttpRouter.pathOnly (statusRequest d version keepAlive).target = lit "/status" :=
    HttpRouter.pathOnly_append (by decide) _
  have hquery : HttpRouter.queryParam (statusRequest d version keepAlive).target (lit "device") = d :=
    HttpRouter.queryParam_single (by decide) (by decide) d
  have hother : lit "/status" ≠ lit "/health" ∧ lit "/status" ≠ lit "/devices" := by decide
  have hdispatch : HttpRouter.dispatch models (statusRequest d version keepAlive) =
      HttpRouter.statusRoute (statusRequest d version keepAlive).target := by
    have hmethod : (statusRequest d version keepAlive).method = .get := rfl
    simp only [HttpRouter.dispatch, hmethod, hpath, true_and, hother.1, hother.2, if_false, true_or,
      if_true]
  have hmissing : DeviceRepository.named d t = none := by
    cases hnamed : DeviceRepository.named d t with
    | none => rfl
    | some x => exact absurd (cString_mem_deviceNames.mpr ⟨x, hnamed⟩) hname
  have hfind : s.getStatus.find? (·.deviceName = d) = none :=
    List.find?_eq_none.mpr fun status hmem => by simpa using hstatus status hmem
  have hexists : SQLiteManager.deviceExists d (healthy t none n) =
      (.ok false, healthy t none (n + 2)) := by
    rw [SQLiteManager.deviceExists, SQLiteManager.existsByName_healthy, hmissing]
    rfl
  have hfindStatus : HttpRouter.findStatusOrDefault s.getStatus d ⟨healthy t none n, s⟩ =
      some (.error (lit "device not found: " ++ d), ⟨healthy t none (n + 2), s⟩) := by
    unfold HttpRouter.findStatusOrDefault
    simp only [hfind, Session.bind_apply, Session.onConnection, hexists]
    rfl
  unfold HttpRouter.route
  rw [hdispatch, HttpRouter.statusRoute, hquery]
  simp only [Session.bind_apply, Session.tryCatch, Session.getStatus, Session.onRegistry, hd, if_false,
    hfindStatus, cString_append (show (0 : UInt8) ∉ lit "device not found: " by decide)]
  rfl

namespace Runtime

variable {s : Runtime} {t : Database}

theorem Sound.getStatus_mem (h : s.Sound) {status : DeviceStatus}
    (hmem : status ∈ s.registry.getStatus) : status.deviceName ∈ s.registry.statuses := by
  obtain ⟨⟨d, status⟩, hentry, rfl⟩ := List.mem_map.mp hmem
  have hd := Std.ExtTreeMap.mem_toList_iff_getElem?_eq_some.mp hentry
  rw [show status.deviceName = d from h.keys d status hd]
  exact Std.ExtTreeMap.mem_iff_isSome_getElem?.mpr (by simp [hd])

end Runtime

/-- In every run whose commands are all safe, whatever the workers meet and whichever calls fail,
the active names and those with a status are names of devices. When a safe command that deletes or
renames a device answers 200, its name is in no use any more, and a status request for it says that
the device is not found. -/
theorem liveDevices_of_reach {t : Database} {s : Runtime}
    (hs : Steps.Reach Runtime.step Runtime.Admitted { database := t } s) :
    (∀ d, d ∈ s.registry.activeDevices ∨ d ∈ s.registry.statuses → d ∈ s.database.deviceNames) ∧
    ∀ (models : ModelRepository) (requestText : Str) (fault : ℕ → Option Str) (d : Str)
      (r : CommandResult) (p : Process),
      CommandProcessor.Safe (s.process fault) requestText →
      CommandProcessor.TakesAway requestText d →
      CommandProcessor.answer models requestText (s.process fault) = some (.ok (.result r), p) →
      r.code = 200 → ¬ p.registry.InUse d ∧
        (d ≠ [] → ∀ (version : ℕ) (keepAlive : Bool) (n : ℕ), ∃ p',
          HttpRouter.route models (statusRequest d version keepAlive)
            ⟨healthy p.conn.tables none n, p.registry⟩ =
          some (.ok (makeResponse .internalServerError
            (jsonError (lit "device not found: " ++ cString d)) version keepAlive), p')) := by
  have hsound := Runtime.sound_of_reach hs
  refine ⟨fun d hd => hsound.live d (hd.elim .active .status), ?_⟩
  intro models requestText fault d r p hsafe htakes hanswer hcode
  have hremoved := takesAway_removes htakes hanswer hcode
  have hhandle : CommandProcessor.handle models requestText (s.process fault) =
      some (.ok (Answer.result r).toJson, p) := Session.bind_ok hanswer
  have hstep : s.step (.command models requestText fault 0) =
      some ⟨p.conn.tables, p.registry, s.tasks ++ s.newTasks p.registry 0⟩ := by
    rw [Runtime.step, hhandle]
    rfl
  have hadmitted : s.Admitted (.command models requestText fault 0) := hsafe
  have hsound' := hsound.step hadmitted hstep
  have hunused : ¬ p.registry.InUse d := fun huse => by
    have hmem := hsound'.live d huse
    rw [← cString_of_notMem (notMem_of_mem_deviceNames hmem)] at hmem
    exact hremoved hmem
  refine ⟨hunused, fun hd version keepAlive n => ⟨_, statusRequest_notFound hd hremoved ?_⟩⟩
  rintro status hstatus rfl
  exact hunused (.status (hsound'.getStatus_mem hstatus))

/-! ## 5. Two devices -/

instance (t : Database) (d : Str) : Decidable (d ∈ t.deviceNames) :=
  inferInstanceAs (Decidable (∃ x ∈ t.device.rows, x.2.name.bytes = d))

/-- A command on a connection where no call fails. -/
def deviceCommand (category deviceName : String) : RuntimeEvent :=
  .command noModels (HttpRouter.commandEnvelope (lit category) (lit deviceName) []) (fun _ => none) 0

/-- The devices `A` and `B`. -/
def twoDevices : Runtime where
  database := ((SQLiteManager.createDevice { name := lit "B", model := lit "M" }).exec
    (TaskRoutes.oneDevice "A")).2

/-- `A` is started. -/
def collectingAB : Runtime := (twoDevices.step (deviceCommand "start_device_collect" "A")).getD {
  database := .empty }

def Answer.result? : Answer → Option CommandResult
  | .result r => some r
  | .statuses _ _ => none

/-- While `A` is collected, `B` is deleted. -/
theorem liveDevices_of_reach_collectingAB :
    lit "A" ∈ collectingAB.registry.activeDevices ∧ lit "A" ∈ collectingAB.database.deviceNames ∧
    ∃ r p, CommandProcessor.answer noModels
        (HttpRouter.commandEnvelope (lit "delete_device") (lit "B") [])
        (collectingAB.process fun _ => none) = some (.ok (.result r), p) ∧
      r.code = 200 ∧ ¬ p.registry.InUse (lit "B") := by
  have hstart : twoDevices.Admitted (deviceCommand "start_device_collect" "A") :=
    ⟨fun h => absurd h (by decide +kernel), fun h => absurd h (by decide +kernel),
      fun _ _ _ _ => by decide +kernel⟩
  have hreach : Steps.Reach Runtime.step Runtime.Admitted twoDevices collectingAB :=
    .step .start hstart (Option.getD_of_ne_none (fun h => absurd (congrArg Option.isSome h)
      (by decide +kernel)) _).symm
  obtain ⟨hlive, hdeleted⟩ := liveDevices_of_reach hreach
  have hactive : lit "A" ∈ collectingAB.registry.activeDevices := by decide +kernel
  refine ⟨hactive, hlive _ (.inl hactive), ?_⟩
  have hanswer : ((CommandProcessor.answer noModels
      (HttpRouter.commandEnvelope (lit "delete_device") (lit "B") [])
      (collectingAB.process fun _ => none)).bind fun x => x.1.toOption.bind Answer.result?).map
        (·.code) = some 200 := by decide +kernel
  obtain ⟨r, hresult, hcode⟩ := Option.map_eq_some_iff.mp hanswer
  obtain ⟨⟨e | r' | items, p⟩, hrun, hr⟩ := Option.bind_eq_some_iff.mp hresult
  · cases hr
  · cases hr
    refine ⟨r, p, hrun, hcode, (hdeleted _ _ _ _ r p ?_ ?_ hrun hcode).1⟩
    · exact ⟨fun _ => by decide +kernel, fun h => absurd h (by decide +kernel),
        fun h => absurd h (by decide +kernel)⟩
    · exact .inl ⟨by decide +kernel, by decide +kernel⟩
  · cases hr

/-- A device that is deleted while its worker runs stays active and keeps its status, and the status
request still finds it. A start with a NUL byte activates a name that no device has. -/
theorem deleted_while_active : (∃ s,
    Steps.Reach Runtime.step (fun _ _ => True) { database := TaskRoutes.oneDevice "A" } s ∧
    lit "A" ∈ s.registry.activeDevices ∧ lit "A" ∈ s.registry.statuses ∧
    lit "A" ∉ s.database.deviceNames ∧
    ((HttpRouter.route noModels (statusRequest (lit "A") 11 true) (s.process fun _ => none)).map
      fun r => r.1.toOption.map (·.status)) = some (some .ok)) ∧
    ∃ s, Steps.Reach Runtime.step (fun _ _ => True) { database := TaskRoutes.oneDevice "A" } s ∧
      lit "A\x00" ∈ s.registry.activeDevices ∧ lit "A\x00" ∉ s.database.deviceNames :=
  ⟨Steps.exists_reach_of_run
    [deviceCommand "start_device_collect" "A", .cycle 0 oneModel oneValue fun _ => none,
      deviceCommand "delete_device" "A"] (by decide +kernel),
    Steps.exists_reach_of_run [deviceCommand "start_device_collect" "A\x00"] (by decide +kernel)⟩

end CollectorService
