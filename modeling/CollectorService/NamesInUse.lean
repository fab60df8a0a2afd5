import CollectorService.DeviceNames

/-!
# Names in use

The registry keeps names: of the devices that are active, of those that have a status, and of the
workers. The device commands know nothing of it. This module follows the names in use through the
commands of a session, whichever calls fail.

* `Retires`: an operation of the registry that brings no name into use.
* `Safe`: no name in use is deleted or renamed, and none with a NUL byte is started.
* `handle_follows`: a safe command leaves every name in use a name of a device.
-/

namespace CollectorService

open DeviceStatusStore (setFlag KeepsNames)

/-! ## 1. Names in use -/

/-- The worker is about to begin a cycle. -/
def Worker.Running (w : Worker) : Prop := w.finished = false ∧ w.stopFlag = false

instance Worker.decidableRunning (w : Worker) : Decidable w.Running :=
  inferInstanceAs (Decidable (_ ∧ _))

namespace DeviceStatusStore

/-- The runtime layer refers to the name. -/
inductive InUse (s : DeviceStatusStore) (d : Str) : Prop
  | active : d ∈ s.activeDevices → InUse s d
  | status : d ∈ s.statuses → InUse s d
  | worker {w : Worker} : w ∈ s.workers → w.deviceName = d → w.Running → InUse s d

theorem inUse_iff {s : DeviceStatusStore} {d : Str} : s.InUse d ↔ d ∈ s.activeDevices ∨
    d ∈ s.statuses ∨ ∃ w ∈ s.workers, w.deviceName = d ∧ w.Running := by
  constructor
  · rintro (h | h | ⟨hw, hname, hrunning⟩)
    · exact .inl h
    · exact .inr (.inl h)
    · exact .inr (.inr ⟨_, hw, hname, hrunning⟩)
  · rintro (h | h | ⟨w, hw, hname, hrunning⟩)
    · exact .active h
    · exact .status h
    · exact .worker hw hname hrunning

instance (s : DeviceStatusStore) (d : Str) : Decidable (s.InUse d) := decidable_of_iff' _ inUse_iff

/-- No name has come into use, and no worker is new. -/
structure Retires (s s' : DeviceStatusStore) : Prop where
  statuses : s'.statuses = s.statuses
  active : ∀ d ∈ s'.activeDevices, d ∈ s.activeDevices
  names : ∀ id, s'.nameOf id = s.nameOf id
  running : ∀ (id : ℕ) (w' : Worker), s'.workers[id]? = some w' → w'.Running →
    ∃ w, s.workers[id]? = some w ∧ w.Running

section Retires
variable {s s' s'' : DeviceStatusStore} {d : Str}

/-- A worker that is changed does not come to run. -/
theorem running_modify {f : Worker → Worker} (hf : ∀ w, ¬ (f w).Running) {workers : List Worker}
    {i id : ℕ} {w' : Worker} (h : (workers.modify i f)[id]? = some w') (hrunning : w'.Running) :
    ∃ w, workers[id]? = some w ∧ w.Running := by
  rw [List.getElem?_modify] at h
  split at h
  · obtain ⟨w, -, rfl⟩ := Option.map_eq_some_iff.mp h
    exact absurd hrunning (hf w)
  · exact ⟨w', by simpa using h, hrunning⟩

theorem not_running_setFlag (w : Worker) : ¬ ({ w with stopFlag := true } : Worker).Running :=
  fun h => Bool.noConfusion h.2

theorem not_running_finished (w : Worker) : ¬ ({ w with finished := true } : Worker).Running :=
  fun h => Bool.noConfusion h.1

namespace Retires

/-- The workers have not changed. -/
theorem of_workers (hstatuses : s'.statuses = s.statuses)
    (hactive : ∀ d ∈ s'.activeDevices, d ∈ s.activeDevices) (hworkers : s'.workers = s.workers) :
    Retires s s' :=
  ⟨hstatuses, hactive, fun _ => by rw [nameOf, hworkers, nameOf], fun _ w' h hrunning =>
    ⟨w', hworkers ▸ h, hrunning⟩⟩

theorem refl (s : DeviceStatusStore) : Retires s s := .of_workers rfl (fun _ h => h) rfl

theorem trans (h : Retires s s') (h' : Retires s' s'') : Retires s s'' where
  statuses := h'.statuses.trans h.statuses
  active d hd := h.active d (h'.active d hd)
  names id := (h'.names id).trans (h.names id)
  running id w'' hw hrunning := by
    obtain ⟨w', hw', hrunning'⟩ := h'.running id w'' hw hrunning
    exact h.running id w' hw' hrunning'

theorem takeThread (s : DeviceStatusStore) (d : Str) : Retires s (s.takeThread d).2 :=
  .of_workers rfl (fun _ h => h) rfl

theorem eraseStopFlag (s : DeviceStatusStore) (d : Str) : Retires s (s.eraseStopFlag d) :=
  .of_workers rfl (fun _ h => h) rfl

theorem markStopped (s : DeviceStatusStore) (d : Str) : Retires s (s.markStopped d) :=
  .of_workers rfl (fun _ h => Std.ExtTreeSet.mem_of_mem_erase h) rfl

theorem requestStop (s : DeviceStatusStore) (d : Str) : Retires s (s.requestStop d).2 := by
  refine ⟨?_, ?_, nameOf_requestStop d, ?_⟩ <;> unfold DeviceStatusStore.requestStop <;> split
  · rfl
  · split <;> rfl
  · exact fun _ h => h
  · split <;> exact fun _ h => h
  · exact fun _ w h hrunning => ⟨w, h, hrunning⟩
  · split
    · exact fun _ _ => running_modify not_running_setFlag
    · exact fun _ w h hrunning => ⟨w, h, hrunning⟩

theorem finish (s : DeviceStatusStore) (id : ℕ) (d : Str) : Retires s (s.finish id d) :=
  ⟨rfl, (markStopped s d).active, nameOf_finish, fun _ _ => running_modify not_running_finished⟩

theorem join (s : DeviceStatusStore) (thread : Option ℕ) : Retires s (s.join thread) := by
  unfold DeviceStatusStore.join
  split
  · exact refl s
  · split
    · split
      · exact refl s
      · exact finish s _ _
    · exact refl s

theorem requestStopAll (s : DeviceStatusStore) : Retires s s.requestStopAll := by
  refine ⟨rfl, fun _ h => h, nameOf_foldl_setFlag _ _, ?_⟩
  have hflags : ∀ (ids : List ℕ) (workers : List Worker) (id : ℕ) (w' : Worker),
      (ids.foldl setFlag workers)[id]? = some w' → w'.Running →
        ∃ w, workers[id]? = some w ∧ w.Running := by
    intro ids
    induction ids with
    | nil => exact fun _ _ w h hrunning => ⟨w, h, hrunning⟩
    | cons i ids ih =>
      intro workers id w' h hrunning
      obtain ⟨w, hw, hrunning'⟩ := ih _ id w' h hrunning
      exact running_modify not_running_setFlag hw hrunning'
  exact hflags _ _

theorem takeAllThreads (s : DeviceStatusStore) : Retires s s.takeAllThreads.2 :=
  .of_workers rfl (fun _ h => h) rfl

theorem clearAllWorkers (s : DeviceStatusStore) : Retires s s.clearAllWorkers :=
  .of_workers rfl (fun _ h => absurd h Std.ExtTreeSet.not_mem_empty) rfl

theorem stopRegistered (s : DeviceStatusStore) (d mid : Str) :
    Retires s (DataTask.stopRegistered d mid s).2 := by
  unfold DataTask.stopRegistered
  dsimp only
  split
  · exact requestStop s d
  · exact ((((requestStop s d).trans (takeThread _ d)).trans (eraseStopFlag _ d)).trans
      (join _ _)).trans (markStopped _ d)

theorem stopAll (s : DeviceStatusStore) : Retires s (DataTask.stopAll s) := by
  have hjoins : ∀ (threads : List ℕ) (s : DeviceStatusStore),
      Retires s (threads.foldl (fun s id => s.join (some id)) s) := by
    intro threads
    induction threads with
    | nil => exact refl
    | cons id threads ih => exact fun s => (join s (some id)).trans (ih _)
  unfold DataTask.stopAll
  exact (((requestStopAll s).trans (takeAllThreads _)).trans (hjoins _ _)).trans (clearAllWorkers _)

theorem inUse (h : Retires s s') (hd : s'.InUse d) : s.InUse d := by
  cases hd with
  | active hactive => exact .active (h.active d hactive)
  | status hstatus => exact .status (h.statuses ▸ hstatus)
  | @worker w' hw hname hrunning =>
    obtain ⟨id, hid⟩ := List.mem_iff_getElem?.mp hw
    obtain ⟨w, hwid, hrunning'⟩ := h.running id w' hid hrunning
    have hnames := h.names id
    rw [nameOf, nameOf, hid, hwid] at hnames
    exact .worker (List.mem_of_getElem? hwid) ((Option.some.inj hnames).symm.trans hname) hrunning'

end Retires

/-- A new thread puts its name into use. -/
theorem InUse.of_spawn {name : Str} (h : (s.spawn name).InUse d) : s.InUse d ∨ d = name := by
  cases h with
  | active hactive => exact .inl (.active hactive)
  | status hstatus => exact .inl (.status hstatus)
  | worker hw hname hrunning =>
    rcases List.mem_append.mp hw with hw | hw
    · exact .inl (.worker hw hname hrunning)
    · rw [List.mem_singleton] at hw
      exact .inr (hname.symm.trans (congrArg _ hw))

theorem InUse.of_addWorker {name : Str} {id : ℕ} (hadd : s.addWorker name id = some s')
    (h : s'.InUse d) : s.InUse d ∨ d = name := by
  unfold DeviceStatusStore.addWorker at hadd
  split at hadd
  · cases hadd
    cases h with
    | active hactive =>
      rcases Std.ExtTreeSet.mem_insert.mp hactive with heq | hactive
      · exact .inr (Std.LawfulEqCmp.eq_of_compare heq).symm
      · exact .inl (.active hactive)
    | status hstatus => exact .inl (.status hstatus)
    | worker hw hname hrunning => exact .inl (.worker hw hname hrunning)
  · cases hadd

theorem nameOf_addWorker {name : Str} {id : ℕ} (hadd : s.addWorker name id = some s') (i : ℕ) :
    s'.nameOf i = s.nameOf i := by
  unfold DeviceStatusStore.addWorker at hadd
  split at hadd
  · cases hadd
    rfl
  · cases hadd

/-- A published status puts its name into use. -/
theorem InUse.of_setLatestStatus {status : DeviceStatus} (h : (s.setLatestStatus status).InUse d) :
    s.InUse d ∨ d = status.deviceName := by
  cases h with
  | active hactive => exact .inl (.active hactive)
  | status hstatus =>
    rcases Std.ExtTreeMap.mem_insert.mp hstatus with heq | hstatus
    · exact .inr (Std.LawfulEqCmp.eq_of_compare heq).symm
    · exact .inl (.status hstatus)
  | worker hw hname hrunning => exact .inl (.worker hw hname hrunning)

end Retires

end DeviceStatusStore

/-! ## 2. What a session does -/

/-- Every name in use is that of a device. -/
def Process.Live (p : Process) : Prop := ∀ d, p.registry.InUse d → d ∈ p.conn.tables.deviceNames

/-- What a command does to the names. -/
structure Process.Follows (p p' : Process) : Prop where
  live : p.Live → p'.Live
  statuses : p'.registry.statuses = p.registry.statuses
  names : KeepsNames p.registry p'.registry

namespace Process.Follows

variable {p p' p'' : Process}

theorem refl (p : Process) : p.Follows p := ⟨fun h => h, rfl, fun _ _ h => h⟩

theorem trans (h : p.Follows p') (h' : p'.Follows p'') : p.Follows p'' :=
  ⟨fun hlive => h'.live (h.live hlive), h'.statuses.trans h.statuses, fun id name hid =>
    h'.names id name (h.names id name hid)⟩

/-- Devices may come, and names go out of use. -/
theorem of_retires {t : Database} {s s' : DeviceStatusStore} {c : Conn}
    (hdevices : t.deviceNames ⊆ c.tables.deviceNames) (h : s.Retires s') {c₀ : Conn}
    (hc : c₀.tables = t) : Process.Follows ⟨c₀, s⟩ ⟨c, s'⟩ where
  live hlive d hd := hdevices (hc ▸ hlive d (h.inUse hd))
  statuses := h.statuses
  names id _ hid := (h.names id).trans hid

end Process.Follows

namespace Session

variable {α β : Type} {m : Session α} {k : α → Session β} {R : Process → Process → Prop}
  {p : Process}

/-- Whatever the outcome, the process behind the computation is related to `p`. -/
def Keeps (R : Process → Process → Prop) (p : Process) (m : Session α) : Prop :=
  ∀ r p', m p = some (r, p') → R p p'

theorem Keeps.pure (hrefl : ∀ p, R p p) (a : α) : Keeps R p (pure a : Session α) := by
  rintro r p' h
  cases h
  exact hrefl p

theorem Keeps.bind (htrans : ∀ p q r, R p q → R q r → R p r) (hm : Keeps R p m)
    (hk : ∀ a p₁ , m p = some (.ok a, p₁) → Keeps R p₁ (k a)) : Keeps R p (m >>= k) := by
  intro r p' h
  rcases hrun : m p with _ | ⟨e | a, p₁⟩
  · rw [bind_none hrun] at h
    cases h
  · rw [bind_error hrun] at h
    cases h
    exact hm _ _ hrun
  · rw [bind_ok hrun] at h
    exact htrans p p₁ p' (hm _ _ hrun) (hk a p₁ hrun r p' h)

/-- A value that is made of the result. -/
theorem Keeps.map {f : α → β} (hm : Keeps R p m) : Keeps R p (do return f (← m)) := by
  intro r p' h
  rcases hrun : m p with _ | ⟨e | a, p₁⟩
  · rw [bind_none hrun] at h
    cases h
  · rw [bind_error hrun] at h
    cases h
    exact hm _ _ hrun
  · rw [bind_ok hrun] at h
    cases h
    exact hm _ _ hrun

theorem Keeps.ite {condition : Prop} [Decidable condition] {m' : Session α}
    (hm : condition → Keeps R p m) (hm' : ¬ condition → Keeps R p m') :
    Keeps R p (if condition then m else m') := by
  split
  · next h => exact hm h
  · next h => exact hm' h

theorem Keeps.tryCatch {handler : Str → α} (hm : Keeps R p m) :
    Keeps R p (Session.tryCatch m handler) := by
  intro r p' h
  unfold Session.tryCatch at h
  split at h
  · next e p₁ hrun =>
    cases h
    exact hm _ _ hrun
  · exact hm r p' h

open Process (Follows)

/-- A device command leaves the registry. -/
theorem onConnection_follows {n : Sql α}
    (hdevices : ∀ d, p.registry.InUse d → d ∈ p.conn.tables.deviceNames →
      d ∈ (n p.conn).2.tables.deviceNames) : Keeps Follows p (onConnection n) := by
  intro r p' h
  cases h
  exact ⟨fun hlive d hd => hdevices d hd (hlive d hd), rfl, fun _ _ hid => hid⟩

theorem onRegistry_follows {f : DeviceStatusStore → α × DeviceStatusStore}
    (h : p.registry.Retires (f p.registry).2) : Keeps Follows p (onRegistry f) := by
  rintro r p' ⟨⟩
  exact .of_retires (fun _ hd => hd) h rfl

end Session

/-! ## 3. Starting and stopping -/

namespace SQLiteManager

variable {deviceName : Str} {c c' : Conn}

/-- The device that is found is the row of the name. -/
theorem getDeviceByName_eq_ok {device : Device} (h : getDeviceByName deviceName c = (.ok device, c')) :
    ∃ x, DeviceRepository.named deviceName c.tables = some x ∧
      device = DeviceRepository.readDevice x := by
  obtain ⟨u, c₁, hprepare, h⟩ := Sql.bind_eq_ok.mp h
  obtain ⟨found, c₂, hrow, h⟩ := Sql.bind_eq_ok.mp h
  have hsame := Sql.Reads.prepare c
  rw [hprepare] at hsame
  cases found with
  | none => cases h
  | some x =>
    have hdevice : DeviceRepository.readDevice x = device := Except.ok.inj (congrArg Prod.fst h)
    refine ⟨x, ?_, hdevice.symm⟩
    unfold firstRow at hrow
    split at hrow
    · rw [← hsame]
      exact Except.ok.inj (congrArg Prod.fst hrow)
    · cases hrow

/-- The names that are read have no NUL byte. -/
theorem returns_getDevices :
    getDevices.Returns fun devices => ∀ device ∈ devices, (0 : UInt8) ∉ device.name := by
  intro c devices h
  have hbind : getDevices c = (.ok devices, (getDevices c).2) := Prod.ext h rfl
  obtain ⟨u, c₁, -, hbind⟩ := Sql.bind_eq_ok.mp hbind
  obtain ⟨rows, c₂, -, hbind⟩ := Sql.bind_eq_ok.mp hbind
  cases hbind
  intro device hdevice
  obtain ⟨x, -, rfl⟩ := List.mem_map.mp hdevice
  exact x.2.name.noNul

end SQLiteManager

/-- A name that finds an online device has no NUL byte. -/
def PlainIfOnline (t : Database) (deviceName : Str) : Prop :=
  ∀ x, DeviceRepository.named deviceName t = some x → (DeviceRepository.readDevice x).status ≠ 0 →
    cString deviceName = deviceName

/-- A start that has passed its checks has found an online device. -/
theorem OnConnection.startChecks_eq_ok {models : ModelRepository} {deviceName mid : Str}
    {c c' : Conn} {device : Device} (h : startChecks models deviceName mid c = (.ok device, c')) :
    ∃ x, DeviceRepository.named deviceName c.tables = some x ∧
      device = DeviceRepository.readDevice x ∧ device.status ≠ 0 := by
  obtain ⟨found, c₁, hexists, h⟩ := Sql.bind_eq_ok.mp h
  have hsame := @SQLiteManager.reads_deviceExists deviceName c
  rw [hexists] at hsame
  cases found with
  | false => cases h
  | true =>
    obtain ⟨device', c₂, hget, h⟩ := Sql.bind_eq_ok.mp h
    obtain ⟨x, hx, hdevice⟩ := SQLiteManager.getDeviceByName_eq_ok hget
    cases decEq device'.status 0 with
    | isTrue hoffline =>
      simp only [hoffline, if_true] at h
      cases h
    | isFalse honline =>
      simp only [honline, if_false] at h
      obtain ⟨points, c₃, -, h⟩ := Sql.bind_eq_ok.mp h
      cases h
      exact ⟨x, hsame ▸ hx, hdevice, honline⟩

namespace Session

open Process (Follows)

variable {models : ModelRepository} {deviceName mid : Str} {p : Process}

theorem startDeviceCollect_follows (hplain : PlainIfOnline p.conn.tables deviceName) :
    Keeps Follows p (startDeviceCollect models deviceName mid) := by
  intro r p' h
  obtain ⟨⟨result, c, s⟩, hstart, heq⟩ := Option.map_eq_some_iff.mp h
  cases heq
  have hinit := OnConnection.startChecks_changes models deviceName mid p.conn
  have hfailed := DeviceStatusStore.Retires.markStopped p.registry deviceName
  unfold OnConnection.startDeviceCollect at hstart
  rcases hchecks : OnConnection.startChecks models deviceName mid p.conn with ⟨e | device, c₁⟩
  · rw [hchecks] at hinit hstart
    cases hstart
    exact .of_retires (SameDevices.of_initialised hinit).names.ge hfailed rfl
  · rw [hchecks] at hinit
    have hnames := (SameDevices.of_initialised hinit).names
    simp only [hchecks] at hstart
    split at hstart
    · cases hstart
      exact .of_retires hnames.ge hfailed rfl
    · -- the new worker has the name of the row, and is registered under the name of the command
      obtain ⟨x, hx, hdevice, honline⟩ := OnConnection.startChecks_eq_ok hchecks
      obtain ⟨s', hadd, heq⟩ := Option.map_eq_some_iff.mp hstart
      have hkey : cString deviceName = deviceName := hplain x hx (hdevice ▸ honline)
      have hmem : deviceName ∈ c₁.tables.deviceNames := by
        rw [hnames, ← hkey]
        exact cString_mem_deviceNames.mpr ⟨x, hx⟩
      have hname : device.name = deviceName := by
        rw [hdevice]
        exact (name_eq_bindText.mp (DeviceRepository.named_eq_some.mp hx).2).trans hkey
      cases heq
      have hretires := ((DeviceStatusStore.Retires.takeThread p.registry deviceName).trans
        (.eraseStopFlag _ deviceName)).trans (.join _ (p.registry.takeThread deviceName).1)
      refine ⟨fun hlive d hd => ?_, ?_, fun id name hid => ?_⟩
      · rcases DeviceStatusStore.InUse.of_addWorker hadd hd with hd | rfl
        · rcases DeviceStatusStore.InUse.of_spawn hd with hd | rfl
          · exact hnames.ge (hlive d (hretires.inUse hd))
          · exact hname ▸ hmem
        · exact hmem
      · exact (addWorker_statuses hadd).trans hretires.statuses
      · rw [DeviceStatusStore.nameOf_addWorker hadd]
        exact DeviceStatusStore.nameOf_spawn ((hretires.names id).trans hid)

theorem stopDeviceCollect_follows : Keeps Follows p (stopDeviceCollect deviceName mid) := by
  intro r p' h
  have hsame := @SQLiteManager.reads_deviceExists deviceName p.conn
  simp only [stopDeviceCollect, OnConnection.stopDeviceCollect] at h
  rcases hrun : SQLiteManager.deviceExists deviceName p.conn with ⟨e | found, c₁⟩
  · rw [hrun] at hsame h
    cases h
    exact .of_retires (hsame ▸ subset_rfl) (.refl p.registry) rfl
  · rw [hrun] at hsame h
    cases found with
    | false =>
      cases h
      exact .of_retires (hsame ▸ subset_rfl) (.refl p.registry) rfl
    | true =>
      cases h
      exact .of_retires (hsame ▸ subset_rfl) (.stopRegistered p.registry deviceName mid) rfl

theorem startEachDevice_follows : ∀ {devices : List Device} {p : Process},
    (∀ device ∈ devices, (0 : UInt8) ∉ device.name) → Keeps Follows p (startEachDevice models devices)
  | [], _, _ => .pure Follows.refl ()
  | device :: rest, p, hnul => by
    obtain ⟨hdevice, hrest⟩ := List.forall_mem_cons.mp hnul
    have hplain : PlainIfOnline p.conn.tables device.name := fun _ _ _ => cString_of_notMem hdevice
    unfold startEachDevice
    split
    · exact .bind (fun _ _ _ => Follows.trans) (startDeviceCollect_follows hplain) fun _ _ _ =>
        startEachDevice_follows hrest
    · exact startEachDevice_follows hrest

theorem startAll_follows : Keeps Follows p (startAll models) := by
  refine .bind (fun _ _ _ => Follows.trans) (onConnection_follows fun d _ hd => ?_)
    fun devices p₁ hread => startEachDevice_follows ?_
  · rwa [SQLiteManager.reads_getDevices]
  · exact SQLiteManager.returns_getDevices p.conn devices
      (congrArg Prod.fst (Option.some.inj hread))

end Session

/-! ## 4. Commands -/

namespace CommandProcessor

open Process (Follows)
open Session (onConnection)
open SQLiteManager (targetName)

/-- No name in use is deleted or renamed, and no name with a NUL byte is started. -/
structure Safe (p : Process) (requestText : Str) : Prop where
  delete : extractStringField requestText (lit "category") = lit "delete_device" →
    ¬ p.registry.InUse (cString (extractStringField requestText (lit "device_name")))
  update : extractStringField requestText (lit "category") = lit "update_device" →
    ∀ device, CommandParser.parseDeviceUpsert requestText = .ok device →
      Renames device p.conn.tables → ¬ p.registry.InUse (cString (targetName device))
  start : extractStringField requestText (lit "category") = lit "start_device_collect" →
    PlainIfOnline p.conn.tables (extractStringField requestText (lit "device_name"))

variable {models : ModelRepository} {requestText mid : Str} {p : Process}

/-- A command that loses at most names that are not in use. -/
theorem follows_of_keepsDevices {α : Type} {n : Sql α} {lost : Set Str}
    (hkeeps : KeepsDevices lost p.conn.tables (n p.conn).2.tables)
    (hunused : ∀ d ∈ lost, ¬ p.registry.InUse d) :
    Session.Keeps Follows p (onConnection n) :=
  Session.onConnection_follows fun d huse hd => (hkeeps d hd).resolve_right fun hlost =>
    hunused d hlost huse

theorem dispatch_follows (h : Safe p requestText) : Session.Keeps Follows p
    (dispatch models requestText mid (extractStringField requestText (lit "category"))) := by
  unfold dispatch
  refine .ite (fun _ => .map ?_) fun _ => .ite (fun hdelete => .map ?_) fun _ =>
    .ite (fun hupdate => .map ?_) fun _ => .ite (fun hstart => .map ?_) fun _ =>
    .ite (fun _ => .map Session.stopDeviceCollect_follows) fun _ => .ite (fun _ => .map ?_) fun _ =>
    .ite (fun _ => .map ?_) fun _ => .ite (fun _ => .map ?_) fun _ => .pure Follows.refl _
  · refine @follows_of_keepsDevices _ _ _ ∅ ?_ fun d hd => hd.elim
    unfold OnConnection.handleCreateDevice
    cases CommandParser.parseDeviceUpsert requestText with
    | error e => exact .refl _ _
    | ok device => exact OnConnection.createDevice_keeps p.conn
  · refine follows_of_keepsDevices (OnConnection.deleteDevice_keeps p.conn) ?_
    rintro d rfl
    exact h.delete hdelete
  · unfold OnConnection.handleUpdateDevice
    cases hparse : CommandParser.parseDeviceUpsert requestText with
    | error e => exact @follows_of_keepsDevices _ _ _ ∅ (.refl _ _) fun d hd => hd.elim
    | ok device =>
      refine follows_of_keepsDevices (OnConnection.updateDevice_keeps p.conn) ?_
      rintro d ⟨rfl, hrenames⟩
      exact h.update hupdate device hparse hrenames
  · exact Session.startDeviceCollect_follows (h.start hstart)
  · exact .map Session.startAll_follows
  · exact .map (Session.onRegistry_follows (.stopAll p.registry))
  · exact Session.onRegistry_follows (.refl p.registry)

/-- A safe command, whichever calls fail. -/
theorem handle_follows (h : Safe p requestText) :
    Session.Keeps Follows p (handle models requestText) := by
  unfold handle answer
  exact .map (.tryCatch (dispatch_follows h))

end CommandProcessor

end CollectorService
