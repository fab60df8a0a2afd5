import CollectorService.LiveDevices
import CollectorService.ModelItems
import CollectorService.Replies

/-!
# The store when calls fail

Any call of SQLite may fail, in any command and any cycle. Every command but `update_device` changes
the devices and their points in one statement or one transaction, so what each of these effects keeps is
kept by the whole service.

* `KeptByCommands`, `Maintained`: what a property of the tables needs from the effects.
* `Maintained.step`: then every command and every cycle keeps it, whichever of its calls fail.
* `itemised_of_reach`: so every data point belongs to a device and is an item of its model, as long as no
  call fails in an `update_device`.

A command and a cycle run to their ends before the next step.
-/

namespace CollectorService

open DeviceRepository (named readDevice createEffect removeEffect)
open DataPointRepository (deleteEffect boundRow readPoint)
open CollectionQueryBuilder (makeCid buildQuery)
open DeviceTask (CycleState CycleInput Over runCycle)
open Hoare (Ends)

/-- What holds of the tables holds behind the call too, whatever its outcome. -/
def Sql.KeepsTables {α : Type} (P : Database → Prop) (m : Sql α) : Prop :=
  m.Changes fun t u => P t → P u

/-- An initialisation of data points keeps `P`. -/
structure KeptByInit (models : ModelRepository) (P : Database → Prop) : Prop where
  initialised : ∀ {t : Database} {deviceName : Str} {x : ℕ × DeviceRow} {points : List DataPoint}
    {u : DataPointTable}, P t → named deviceName t = some x →
      modelPoints models (readDevice x) = .ok points →
      (deleteEffect (readDevice x).name t).dataPoint.insertAll?
        (points.map (boundRow (readDevice x))) = some u → P { t with dataPoint := u }

/-- So do the commands, an `update_device` where it meets no failing call. -/
structure KeptByCommands (models : ModelRepository) (P : Database → Prop) : Prop
    extends KeptByInit models P where
  created : ∀ {t u : Database} {device : DeviceUpsert}, P t → createEffect device t = .ok u → P u
  deleted : ∀ {t : Database} (deviceName : Str), P t →
    P (removeEffect deviceName (deleteEffect deviceName t))
  updated : ∀ (device : DeviceUpsert) (hasStatus : Bool) (mid : Str),
    (CommandProcessor.updateDevice models device hasStatus mid).Keeps P

/-- So does whatever writes to the resources only. -/
structure Maintained (models : ModelRepository) (P : Database → Prop) : Prop
    extends KeptByCommands models P where
  tables : ∀ {t u : Database}, P t → u.device = t.device → u.dataPoint = t.dataPoint → P u

/-! ## 1. Calls -/

namespace Sql.KeepsTables

variable {α β : Type} {P : Database → Prop} {m : Sql α} {k : α → Sql β}

theorem reads (h : m.Reads) : m.KeepsTables P := fun c hc => by rwa [h c]

theorem bind (hm : m.KeepsTables P) (hk : ∀ a, (k a).KeepsTables P) : (m >>= k).KeepsTables P :=
  .followed (fun _ _ _ h h' ht => h' (h ht)) hm hk

theorem pure (a : α) : (pure a : Sql α).KeepsTables P := reads (.pure a)

theorem throw_bind (e : Str) : (Sql.throw e >>= k).KeepsTables P := fun _ hc => hc

theorem writes {m : Sql Unit} {f : Database → Except Str Database} (h : m.Writes f)
    (hf : ∀ t u, P t → f t = .ok u → P u) : m.KeepsTables P :=
  h.changes (fun _ ht => ht) fun t u heffect ht => hf t u ht heffect

end Sql.KeepsTables

section Calls
open Sql (KeepsTables)

variable {models : ModelRepository} {P : Database → Prop} {deviceName mid : Str} {device : DeviceUpsert}

/-- The points that are stored are those of the row that has been read. -/
theorem KeptByInit.initDataPointsByDevice (h : KeptByInit models P) (deviceName mid : Str) :
    (OnConnection.initDataPointsByDevice models deviceName mid).KeepsTables P := by
  refine .tryCatch (KeepsTables.bind (.reads SQLiteManager.reads_deviceExists) fun found => ?_)
  cases found with
  | false => exact .throw_bind _
  | true =>
    intro c hc
    have hsame := @SQLiteManager.reads_getDeviceByName deviceName c
    rcases hget : SQLiteManager.getDeviceByName deviceName c with ⟨e | device, c₁⟩
    · rw [hget] at hsame
      show P ((SQLiteManager.getDeviceByName deviceName >>= _) c).2.tables
      rw [Sql.bind_error hget, hsame]
      exact hc
    · rw [hget] at hsame
      obtain ⟨x, hx, rfl⟩ := SQLiteManager.getDeviceByName_eq_ok hget
      show P ((SQLiteManager.getDeviceByName deviceName >>= _) c).2.tables
      rw [Sql.bind_ok hget]
      cases hpoints : modelPoints models (readDevice x) with
      | error e =>
        show P c₁.tables
        rwa [hsame]
      | ok points =>
        have hreplace : (SQLiteManager.replaceDataPointsForDevice (readDevice x) points).Changes
            fun t u => P t ∧ t = c.tables → P u := by
          refine SQLiteManager.writes_replaceDataPointsForDevice.changes (fun _ ht => ht.1)
            fun t u hu ht => ?_
          rw [SQLiteManager.foldlM_insertEffect] at hu
          split at hu
          · next v hv =>
            cases hu
            show P { t with dataPoint := v }
            exact h.initialised ht.1 (ht.2 ▸ hx) hpoints hv
          · cases hu
        exact Sql.Changes.bind_reads hreplace (fun _ => .pure _) c₁ ⟨hsame ▸ hc, hsame⟩

theorem KeptByInit.storedDataPoints (h : KeptByInit models P) :
    (OnConnection.storedDataPoints models deviceName mid).KeepsTables P := by
  refine .bind (.reads SQLiteManager.reads_getDataPointsByDeviceName) fun points => ?_
  split
  · refine .bind (h.initDataPointsByDevice deviceName mid) fun initResult => ?_
    cases initResult.ok with
    | false => exact .throw_bind _
    | true => exact .reads SQLiteManager.reads_getDataPointsByDeviceName
  · exact .pure _

theorem KeptByInit.startChecks (h : KeptByInit models P) :
    (OnConnection.startChecks models deviceName mid).KeepsTables P := by
  refine .bind (.reads SQLiteManager.reads_deviceExists) fun found => ?_
  cases found with
  | false => exact .throw_bind _
  | true =>
    refine .bind (.reads SQLiteManager.reads_getDeviceByName) fun device => ?_
    have hload : (OnConnection.loadDataPoints models deviceName mid).KeepsTables P := by
      refine .bind h.storedDataPoints fun points => ?_
      split
      · exact .throw_bind _
      · exact .pure _
    cases decEq device.status 0 with
    | isTrue hoffline =>
      simp only [hoffline, if_true]
      exact .throw_bind _
    | isFalse honline =>
      simp only [honline, if_false]
      exact .bind hload fun _ => .pure device

theorem KeptByCommands.createDevice (h : KeptByCommands models P) :
    (OnConnection.createDevice models device mid).KeepsTables P := by
  unfold OnConnection.createDevice
  split
  · exact .pure _
  split
  · exact .pure _
  refine .bind (.reads SQLiteManager.reads_deviceExists) fun found => ?_
  cases found with
  | true => exact .pure _
  | false =>
    refine .bind ?_ fun _ => .bind (h.initDataPointsByDevice _ _) fun initResult => ?_
    · refine .bind (.reads SQLiteManager.reads_deviceExists) fun found => ?_
      cases found with
      | true => exact .throw_bind _
      | false => exact .writes (.statement _) fun t u ht hu => h.created ht hu
    · cases initResult.ok <;> exact .pure _

theorem KeptByCommands.deleteDevice (h : KeptByCommands models P) :
    (OnConnection.deleteDevice deviceName mid).KeepsTables P := by
  refine .bind (.reads SQLiteManager.reads_deviceExists) fun found => ?_
  cases found with
  | false => exact .pure _
  | true =>
    refine .bind (.bind (.reads SQLiteManager.reads_deviceExists) fun found => ?_) fun _ => .pure _
    cases found with
    | false => exact .throw_bind _
    | true =>
      refine .writes SQLiteManager.writes_deleteRows fun t u ht hu => ?_
      cases hu
      exact h.deleted deviceName ht

end Calls

/-! ## 2. Cycles -/

/-- The point is a row of the table. -/
def IsStored (deviceName : Str) (t : Database) (point : DataPoint) : Prop :=
  ∃ x ∈ t.dataPoint.rows, x.2.dName = some (bindText deviceName) ∧ point = readPoint x

theorem SQLiteManager.getDataPointsByDeviceName_read {deviceName : Str} {points : List DataPoint}
    {c c' : Conn} (h : getDataPointsByDeviceName deviceName c = (.ok points, c')) :
    ∀ point ∈ points, IsStored deviceName c.tables point := by
  obtain ⟨_, c₁, hprepare, h⟩ := Sql.bind_eq_ok.mp h
  obtain ⟨rows, c₂, hrows, h⟩ := Sql.bind_eq_ok.mp h
  have hsame := Sql.Reads.prepare c
  rw [hprepare] at hsame
  cases h
  intro point hpoint
  obtain ⟨x, hx, rfl⟩ := List.mem_map.mp hpoint
  obtain ⟨hmem, hname⟩ := AutoTable.mem_select.mp (stepRows_subset hrows hx)
  exact ⟨x, hsame ▸ hmem, of_decide_eq_true hname, rfl⟩

namespace DeviceTask

/-- A query of the tables, whose rows need not all be returned. -/
theorem ends_query {α : Type} {p : Database → DeviceStatusStore → TaskState → Prop} {m : Sql α}
    {R : α → Database → Prop} (hm : m.Reads) (hret : ∀ {c c' : Conn} {a : α}, m c = (.ok a, c') →
      R a c.tables) :
    Ends (Over p) (onDatabase m) (fun a => Over fun t r task => R a t ∧ p t r task) fun _ => Over p := by
  intro s hs
  have hsame := hm s.conn
  unfold onDatabase
  rcases hrun : m s.conn with ⟨e | a, c⟩
  · rw [hrun] at hsame
    show p c.tables s.registry s.task
    rw [hsame]
    exact hs
  · rw [hrun] at hsame
    show R a c.tables ∧ p c.tables s.registry s.task
    rw [hsame]
    exact ⟨hret hrun, hs⟩

end DeviceTask

namespace KeptByInit

variable {models : ModelRepository} {P : Database → Prop} {input : CycleInput}
  {E : Str → CycleState → Prop}

theorem setStage_ends (stage : String) :
    Ends (Over fun t _ _ => P t) (DeviceTask.setStage stage) (fun _ => Over fun t _ _ => P t) E :=
  .modify fun _ hs => hs

theorem loadDevice_ends : Ends (Over fun t _ _ => P t) DeviceTask.loadDevice
    (fun _ => Over fun t _ _ => P t) fun _ => Over fun t _ _ => P t := by
  refine .bind (setStage_ends _) fun _ => .bind (.get (Q := fun _ => Over fun t _ _ => P t)
    fun _ hs => hs) fun s => ?_
  refine .bind (DeviceTask.ends_reads SQLiteManager.reads_getDeviceByName (.any _)) fun device =>
    .given fun _ => .bind (Q := fun _ => Over fun t _ _ => P t)
      (DeviceTask.ends_modifyTask fun _ _ _ ht => ht) fun _ => ?_
  split
  · exact .throw_bind fun _ hs => hs
  · exact .pure fun _ hs => hs

theorem storedDataPoints_ends (h : KeptByInit models P) (device : Device) :
    Ends (Over fun t _ _ => P t) (DeviceTask.storedDataPoints models device)
      (fun points => Over fun t _ _ => (∀ point ∈ points, IsStored device.name t point) ∧ P t)
      fun _ => Over fun t _ _ => P t := by
  have hread : Ends (Over fun t _ _ => P t)
      (DeviceTask.onDatabase (SQLiteManager.getDataPointsByDeviceName device.name))
      (fun points => Over fun t _ _ => (∀ point ∈ points, IsStored device.name t point) ∧ P t)
      fun _ => Over fun t _ _ => P t :=
    DeviceTask.ends_query SQLiteManager.reads_getDataPointsByDeviceName
      SQLiteManager.getDataPointsByDeviceName_read
  refine .bind (setStage_ends _) fun _ => .bind hread fun points => ?_
  split
  · refine .bind (Q := fun _ => Over fun t _ _ => P t) (.modify fun _ hs => hs.2) fun _ => ?_
    refine .bind (DeviceTask.ends_changes (h.initDataPointsByDevice device.name [])
      fun t u r task htu ht => htu ht) fun initResult => ?_
    cases initResult.ok with
    | false => exact .throw_bind fun _ hs => hs
    | true => exact .bind (setStage_ends _) fun _ => hread
  · exact .pure fun _ hs => hs

theorem loadDataPoints_ends (h : KeptByInit models P) (device : Device) :
    Ends (Over fun t _ _ => P t) (DeviceTask.loadDataPoints models device)
      (fun points => Over fun t _ _ =>
        (points ≠ [] ∧ ∀ point ∈ points, IsStored device.name t point) ∧ P t)
      fun _ => Over fun t _ _ => P t := by
  refine .bind (h.storedDataPoints_ends device) fun points => ?_
  split
  · exact .throw_bind fun _ hs => hs.2
  · next hne => exact .pure fun s hs => ⟨⟨hne, hs.1⟩, hs.2⟩

theorem queryDriver_ends (device : Device) (points : List DataPoint) :
    Ends (Over fun t _ _ => P t) (DeviceTask.queryDriver input device points)
      (fun response s => (∃ query, buildQuery (makeCid device.name input.cidTime) points = .ok query ∧
        input.connect device.ip device.port = true ∧ input.answer query = .ok response) ∧
        Over (fun t _ _ => P t) s) fun _ => Over fun t _ _ => P t := by
  refine .bind (setStage_ends _) fun _ => .bind (DeviceTask.ends_ofExcept fun _ h => h) fun query => ?_
  refine .given fun hquery => .bind (setStage_ends _) fun _ => ?_
  refine .bind (Q := fun _ => Over fun t _ _ => P t) (DeviceTask.ends_modifyTask fun _ _ _ ht => ht)
    fun _ => ?_
  cases hconnect : input.connect device.ip device.port with
  | false => exact .throw_bind fun _ hs => hs
  | true =>
    refine .bind (setStage_ends _) fun _ => .bind (DeviceTask.ends_ofExcept fun _ h => h)
      fun response => .given fun hresponse => ?_
    have hanswer : input.answer query = .ok response := by
      unfold DeviceTask.sendQuery at hresponse
      split at hresponse
      · next answer hanswer =>
        cases hresponse
        exact hanswer
      · cases hresponse
    split
    · exact .throw_bind fun _ hs => hs
    · exact .pure fun _ hs => ⟨⟨query, hquery, rfl, hanswer⟩, hs⟩

end KeptByInit

namespace Maintained

open KeptByInit (setStage_ends loadDevice_ends queryDriver_ends)

variable {models : ModelRepository} {P : Database → Prop} {input : CycleInput}

theorem insertNext_ends (h : Maintained models P) :
    Ends (Over fun t _ _ => P t) (DeviceTask.insertNext models input)
      (fun _ => Over fun t _ _ => P t) fun _ => Over fun t _ _ => P t := by
  refine .bind loadDevice_ends fun device => .bind ((h.loadDataPoints_ends device).weaken
    (fun _ hs => hs) (fun _ _ hs => hs.2) fun _ _ hs => hs) fun points => ?_
  refine .bind (queryDriver_ends _ _) fun response => .given fun _ => .bind ?_ fun records =>
    .pure fun _ hs => hs
  refine .bind (setStage_ends _) fun _ => .bind (DeviceTask.ends_ofExcept fun _ _ => trivial)
    fun records => .given fun _ => ?_
  refine .bind (DeviceTask.ends_writes SQLiteManager.writes_insertResources
    fun t u r task htu ht => ?_) fun _ => .pure fun _ hs => hs
  obtain ⟨v, -, hfold⟩ := SQLiteManager.foldlM_insertResource (t := t) records
  rw [hfold] at htu
  cases htu
  exact h.tables ht rfl rfl

/-- A cycle keeps it, whatever the driver answers and whichever calls fail. -/
theorem cycle (h : Maintained models P) {s : CycleState} (hs : P s.conn.tables) :
    P (runCycle models input s).2.conn.tables := by
  have hends := @insertNext_ends models P input h (s.at "prepare") hs
  have hstep := DeviceTask.runCycle_step models input s
  rcases hrun : runCycle models input s with ⟨result, s'⟩
  rw [hrun] at hstep
  cases hstep with
  | failed hinsert _ | gaveUp hinsert _ =>
    rw [hinsert] at hends
    exact hends
  | @succeeded response records s₁ s₂ hinsert hcleanup =>
    rw [hinsert] at hends
    have hinserted : P s₁.conn.tables := hends
    cases hcleanup with
    | notDue hnot => exact hinserted
    | done hdue hcall | failed hdue hcall =>
      have hclean := (SQLiteManager.writes_cleanupResourcesForDevice (s₁.at "close").task.device.name
        DataTask.kMaxRowsPerDevice).changes (R := fun t u => P t → P u) (fun _ ht => ht)
        (fun t u hu ht => ?_) (s₁.at "close").conn hinserted
      · rw [hcall] at hclean
        exact hclean
      · rw [Except.ok.injEq] at hu
        subst hu
        split
        · exact ht
        · exact h.tables ht (cleanupDevice_newest _ _ t).device (cleanupDevice_newest _ _ t).dataPoint

end Maintained

/-! ## 3. Commands -/

/-- No call of an `update_device` fails. -/
def Process.SteadyUpdate (p : Process) (requestText : Str) : Prop :=
  extractStringField requestText (lit "category") = lit "update_device" → DeviceTask.Healthy p.conn

/-- What holds of the tables holds behind the step. -/
def Process.Maintains (P : Database → Prop) (p p' : Process) : Prop :=
  P p.conn.tables → P p'.conn.tables

namespace KeptByCommands

open Process (Maintains SteadyUpdate)
open Session (Keeps)

variable {models : ModelRepository} {P : Database → Prop} {deviceName mid requestText : Str}
  {p : Process}

theorem onConnection {α : Type} {n : Sql α} (hn : n.KeepsTables P) :
    Keeps (Maintains P) p (Session.onConnection n) := by
  rintro r p' ⟨⟩
  exact hn p.conn

theorem startDeviceCollect (h : KeptByCommands models P) :
    Keeps (Maintains P) p (Session.startDeviceCollect models deviceName mid) := by
  intro r p' hrun hp
  obtain ⟨⟨result, c, s⟩, hstart, heq⟩ := Option.map_eq_some_iff.mp hrun
  cases heq
  have hchecked : P (OnConnection.startChecks models deviceName mid p.conn).2.tables :=
    h.startChecks p.conn hp
  unfold OnConnection.startDeviceCollect at hstart
  rcases hchecks : OnConnection.startChecks models deviceName mid p.conn with ⟨e | device, c₁⟩
  · rw [hchecks] at hchecked hstart
    cases hstart
    exact hchecked
  · rw [hchecks] at hchecked
    simp only [hchecks] at hstart
    split at hstart
    · cases hstart
      exact hchecked
    · obtain ⟨s', -, heq⟩ := Option.map_eq_some_iff.mp hstart
      cases heq
      exact hchecked

theorem stopDeviceCollect : Keeps (Maintains P) p (Session.stopDeviceCollect deviceName mid) := by
  intro r p' hstop hp
  have hsame := @SQLiteManager.reads_deviceExists deviceName p.conn
  simp only [Session.stopDeviceCollect, OnConnection.stopDeviceCollect] at hstop
  rcases hrun : SQLiteManager.deviceExists deviceName p.conn with ⟨e | found, c₁⟩
  · rw [hrun] at hsame hstop
    cases hstop
    exact hsame ▸ hp
  · rw [hrun] at hsame hstop
    cases found <;> cases hstop <;> exact hsame ▸ hp

theorem startEachDevice (h : KeptByCommands models P) : ∀ {devices : List Device} {p : Process},
    Keeps (Maintains P) p (Session.startEachDevice models devices)
  | [], _ => .pure (fun _ hp => hp) ()
  | device :: rest, p => by
    unfold Session.startEachDevice
    split
    · exact .bind (fun _ _ _ h h' hp => h' (h hp)) h.startDeviceCollect fun _ _ _ => h.startEachDevice
    · exact h.startEachDevice

theorem startAll (h : KeptByCommands models P) : Keeps (Maintains P) p (Session.startAll models) :=
  .bind (fun _ _ _ h h' hp => h' (h hp)) (onConnection (.reads SQLiteManager.reads_getDevices))
    fun _ _ _ => h.startEachDevice

theorem onRegistry {α : Type} {f : DeviceStatusStore → α × DeviceStatusStore} :
    Keeps (Maintains P) p (Session.onRegistry f) := by
  rintro r p' ⟨⟩
  exact fun hp => hp

/-- The statements of an update are not in one transaction. -/
theorem updateDevice (h : KeptByCommands models P) (hhealthy : DeviceTask.Healthy p.conn)
    (device : DeviceUpsert) (hasStatus : Bool) : Keeps (Maintains P) p
      (Session.onConnection (OnConnection.updateDevice models device hasStatus mid)) := by
  rintro r p' ⟨⟩ hp
  obtain ⟨n, hconn⟩ := hhealthy
  obtain ⟨n', hrun⟩ := OnConnection.updateDevice_alone models device hasStatus mid p.conn.tables n
  show P (OnConnection.updateDevice models device hasStatus mid p.conn).2.tables
  rw [hconn, hrun]
  exact h.updated device hasStatus mid p.conn.tables hp

theorem dispatch (h : KeptByCommands models P) (hsteady : p.SteadyUpdate requestText) :
    Keeps (Maintains P) p (CommandProcessor.dispatch models requestText mid
      (extractStringField requestText (lit "category"))) := by
  have hrefl : ∀ p, Maintains P p p := fun _ hp => hp
  unfold CommandProcessor.dispatch
  refine .ite (fun _ => .map (onConnection ?_)) fun _ => .ite (fun _ => .map (onConnection ?_)) fun _ =>
    .ite (fun hupdate => .map ?_) fun _ => .ite (fun _ => .map h.startDeviceCollect) fun _ =>
    .ite (fun _ => .map stopDeviceCollect) fun _ => .ite (fun _ => .map (.map h.startAll)) fun _ =>
    .ite (fun _ => .map (.map onRegistry)) fun _ => .ite (fun _ => .map onRegistry) fun _ =>
    .pure hrefl _
  · unfold OnConnection.handleCreateDevice
    cases CommandParser.parseDeviceUpsert requestText with
    | error e => exact .throw_bind e
    | ok device => exact h.createDevice
  · exact h.deleteDevice
  · unfold OnConnection.handleUpdateDevice
    cases CommandParser.parseDeviceUpsert requestText with
    | error e => exact onConnection (.throw_bind e)
    | ok device => exact h.updateDevice (hsteady hupdate) device _

theorem handle (h : KeptByCommands models P) (hsteady : p.SteadyUpdate requestText) :
    Keeps (Maintains P) p (CommandProcessor.handle models requestText) := by
  unfold CommandProcessor.handle CommandProcessor.answer
  exact .map (.tryCatch (h.dispatch hsteady))

end KeptByCommands

/-! ## 4. The service -/

namespace Runtime

/-- The model files are fixed, and no call of an `update_device` fails. Every other call may. -/
def SteadyUpdates (models : ModelRepository) (s : Runtime) : RuntimeEvent → Prop
  | .command models' requestText fault _ =>
    models' = models ∧ (s.process fault).SteadyUpdate requestText
  | .cycle _ models' _ _ => models' = models
  | .leave _ => True

end Runtime

section Service
variable {models : ModelRepository} {P : Database → Prop} {s s' : Runtime} {event : RuntimeEvent}
  {t : Database}

theorem Maintained.step (h : Maintained models P) (hs : P s.database)
    (hok : s.SteadyUpdates models event) (hstep : s.step event = some s') : P s'.database := by
  cases event with
  | command models' requestText fault now =>
    obtain ⟨rfl, hsteady⟩ := hok
    obtain ⟨⟨r, p⟩, hrun, rfl⟩ := Option.map_eq_some_iff.mp hstep
    exact h.handle hsteady r p hrun hs
  | cycle id models' input fault =>
    cases hok
    obtain ⟨worker, -, hstep⟩ := Option.bind_eq_some_iff.mp hstep
    obtain ⟨task, -, hstep⟩ := Option.bind_eq_some_iff.mp hstep
    split at hstep
    · cases hstep
      exact h.cycle hs
    · cases hstep
  | leave id =>
    obtain ⟨worker, -, hstep⟩ := Option.bind_eq_some_iff.mp hstep
    obtain ⟨task, -, hstep⟩ := Option.bind_eq_some_iff.mp hstep
    split at hstep
    · cases hstep
      exact hs
    · cases hstep

theorem Maintained.of_reach (h : Maintained models P) (ht : P t)
    (hs : Steps.Reach Runtime.step (Runtime.SteadyUpdates models) { database := t } s) :
    P s.database :=
  hs.invariant ht fun _ _ _ hs hok hstep => h.step hs hok hstep

/-! ## 5. Items of the models -/

theorem Itemised.created (h : Itemised models t) {u : Database} {device : DeviceUpsert}
    (hu : createEffect device t = .ok u) : Itemised models u := by
  have hexec : ((SQLiteManager.createDevice device).exec t).2 = u := by
    have hnew : named device.name t = none := by
      unfold createEffect at hu
      split at hu
      · next v hv =>
        exact DeviceRepository.named_eq_none.mpr (AutoTable.insert?_eq_some.mp hv).1
      · cases hu
    rw [SQLiteManager.exec_createDevice, hnew, hu]
  exact hexec ▸ ⟨h.1.createDevice, h.2.createDevice h.1⟩

theorem Itemised.deleted (h : Itemised models t) (deviceName : Str) :
    Itemised models (removeEffect deviceName (deleteEffect deviceName t)) := by
  have hkept : Itemised models ((SQLiteManager.deleteDevice deviceName).exec t).2 :=
    ⟨h.1.deleteDevice deviceName, h.2.deleteDevice deviceName⟩
  cases hname : named deviceName t with
  | some x => rwa [SQLiteManager.exec_deleteDevice, hname] at hkept
  | none =>
    -- with integrity, a name without a device has no points either
    have hpoints : deleteEffect deviceName t = t := by
      refine Database.ext rfl (AutoTable.deleteWhere_eq_self fun r hr => ?_) rfl
      exact decide_eq_false (h.1.dName_ne hname hr)
    have hdevices : removeEffect deviceName t = t := by
      refine Database.ext (AutoTable.deleteWhere_eq_self fun x hx => ?_) rfl rfl
      exact decide_eq_false (DeviceRepository.named_eq_none.mp hname x hx)
    rwa [hpoints, hdevices]

theorem maintained_itemised (models : ModelRepository) : Maintained models (Itemised models) where
  created h := h.created
  deleted deviceName h := h.deleted deviceName
  initialised h hx hpoints hins := ⟨h.1.replace hx hins, h.2.replace hx hpoints hins⟩
  tables h := h.of_tables
  updated device hasStatus mid :=
    keeps_updateDevice Itemised.keeps_init device hasStatus mid fun _ _ h =>
      ⟨h.1.updateDevice, h.2.updateDevice h.1⟩

theorem itemised_empty (models : ModelRepository) : Itemised models .empty :=
  ⟨integrity_empty, fun x hx => by cases hx⟩

/-- In every run with fixed model files, where any call of any command or cycle may fail but those of an
`update_device`, from tables where a device has no points or those that its model gives under some name:
every data point belongs to a device, with its name and its id, and a device has no points or the items
of the model that it has now. -/
theorem itemised_of_reach (ht : Itemised models t)
    (hs : Steps.Reach Runtime.step (Runtime.SteadyUpdates models) { database := t } s) :
    (∀ r ∈ s.database.dataPoint.rows, ∃ x ∈ s.database.device.rows,
      r.2.dName = some x.2.name ∧ r.2.did = some (columnInt (some x.1))) ∧
    ∀ x ∈ s.database.device.rows, pointsOf s.database x.2.name = [] ∨
      ∃ points, modelPoints models (readDevice x) = .ok points ∧
        (pointsOf s.database x.2.name).map DataPointRow.unnamed =
          points.map fun point => (boundRow (readDevice x) point).unnamed := by
  obtain ⟨hintegrity, hitems⟩ := (maintained_itemised models).of_reach ht hs
  exact ⟨hintegrity, fun x hx => (hitems x hx).imp_right DerivedUnder.items⟩

end Service

/-- The creation of `A`, where the insertion of its data point fails. -/
def createFails : RuntimeEvent :=
  .command oneModel createText (fun n => if n = 14 then some (lit "disk I/O error") else none) 0

/-- `A` is there, without points. -/
def withoutPointA : Runtime :=
  (({ database := .empty } : Runtime).step createFails).getD { database := .empty }

def startOfA : RuntimeEvent :=
  .command oneModel (HttpRouter.commandEnvelope (lit "start_device_collect") (lit "A") [])
    (fun _ => none) 0

/-- A start stores the point that is missing. -/
def withPointA : Runtime := (withoutPointA.step startOfA).getD { database := .empty }

theorem reach_withPointA :
    Steps.Reach Runtime.step (Runtime.SteadyUpdates oneModel) { database := .empty } withPointA := by
  have hsteady : ∀ {s : Runtime}, s.SteadyUpdates oneModel createFails ∧
      s.SteadyUpdates oneModel startOfA := by
    intro s
    exact ⟨⟨rfl, fun h => absurd h (by decide +kernel)⟩, ⟨rfl, fun h => absurd h (by decide +kernel)⟩⟩
  have hcreate : ({ database := .empty } : Runtime).step createFails = some withoutPointA :=
    (Option.getD_of_ne_none (fun h => absurd (congrArg Option.isSome h) (by decide +kernel)) _).symm
  have hstart : withoutPointA.step startOfA = some withPointA :=
    (Option.getD_of_ne_none (fun h => absurd (congrArg Option.isSome h) (by decide +kernel)) _).symm
  exact .step (.step .start hsteady.1 hcreate) hsteady.2 hstart

theorem itemised_of_reach_withPointA : withoutPointA.database.dataPoint.rows = [] ∧
    withPointA.database.dataPoint.rows ≠ [] ∧
    ∀ r ∈ withPointA.database.dataPoint.rows, ∃ x ∈ withPointA.database.device.rows,
      r.2.dName = some x.2.name ∧ r.2.did = some (columnInt (some x.1)) :=
  ⟨by decide +kernel, by decide +kernel,
    (itemised_of_reach (itemised_empty oneModel) reach_withPointA).1⟩

end CollectorService
