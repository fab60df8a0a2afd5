import CollectorService.Cleanup
import CollectorService.DeviceTask
import CollectorService.Integrity
import CollectorService.Steps
import Mathlib.Algebra.Order.BigOperators.Group.List

/-!
# Growth of `Resources`

A run of the worker of one device: cycles that succeed or fail, stops and restarts, and between them
whatever others do to the rest of the database. The run remembers what each successful cycle has
inserted, and when the last cleanup succeeded.

* `TaskRun.Bounded.step`: the invariant, which ties the worker's timer, the table and the history.
* `growth_bounded`: after each successful cycle of a device with a name, `Resources` holds at most
  the limit of the cleanup and what the last interval has brought.
* `growth_unbounded_nameless`: a device without a name is never cleaned up.
-/

namespace CollectorService

open DataTask (kMaxRowsPerDevice)
open DeviceTask
open ResourceRepository (ofDevice)
open DeviceRepository (named readDevice)

/-! ## 1. Runs -/

/-- The worker of a device, the database and the registry it works on, and the past. -/
structure TaskRun where
  database : Database
  registry : DeviceStatusStore
  /-- The variables of the worker, while there is one. -/
  worker : Option TaskState := none
  /-- The latest reading of the clock. -/
  clock : ℤ
  /-- For each successful cycle, the latest first: its reading of the clock, and the number of
  records it has inserted. -/
  inserted : List (ℤ × ℕ) := []
  /-- The reading of the clock in the last successful cleanup. -/
  lastCleanup : Option ℤ := none

inductive TaskEvent where
  | start (device : Device) (now : ℤ)
  | cycle (models : ModelRepository) (input : CycleInput) (fault : ℕ → Option Str)
  | stop
  /-- What others do to the database and the registry. -/
  | elsewhere (database : Database) (registry : DeviceStatusStore)

namespace TaskRun

/-- The state in which a cycle of the worker begins; `fault` tells which calls are going to fail. -/
def cycleState (run : TaskRun) (task : TaskState) (fault : ℕ → Option Str) : CycleState where
  conn := { tables := run.database, fault }
  registry := run.registry
  task

/-- Whether the cleanup of a cycle returns; `none` for a cycle that does not call it. -/
def cleanupOutcome (models : ModelRepository) (input : CycleInput) (s : CycleState) : Option Bool :=
  match insertNext models input (s.at "prepare") with
  | .ok _ s₁ =>
    if kCleanupInterval ≤ input.now - s₁.task.lastCleanupTime then
      some (SQLiteManager.cleanupResourcesForDevice s₁.task.device.name kMaxRowsPerDevice
        s₁.conn).1.isOk
    else none
  | .error _ _ => none

/-- The run after a cycle of the worker. -/
def afterCycle (run : TaskRun) (task : TaskState) (models : ModelRepository) (input : CycleInput)
    (fault : ℕ → Option Str) : TaskRun :=
  let s := run.cycleState task fault
  let (result, s') := runCycle models input s
  { database := s'.conn.tables
    registry := s'.registry
    worker := if result = .gaveUp then none else some s'.task
    clock := input.now
    inserted := match result with
      | .succeeded records => (input.now, records.length) :: run.inserted
      | .failed | .gaveUp => run.inserted
    lastCleanup :=
      if cleanupOutcome models input s = some true then some input.now else run.lastCleanup }

def step (run : TaskRun) : TaskEvent → Option TaskRun
  | .start device now =>
    if run.worker.isSome then none
    else some { run with worker := some (.enter device now), clock := now }
  | .cycle models input fault => run.worker.map fun task =>
    run.afterCycle task models input fault
  | .stop => some { run with worker := none }
  | .elsewhere database registry => some { run with database, registry }

/-- The worker is one for `name`, the clock does not go back, no cleanup fails, and others leave the
records of the device alone. -/
def Admitted (name : SqlText) (run : TaskRun) : TaskEvent → Prop
  | .start device now => device.name = name.bytes ∧ run.clock ≤ now
  | .cycle models input fault => run.clock ≤ input.now ∧
    ∀ task ∈ run.worker, cleanupOutcome models input (run.cycleState task fault) ≠ some false
  | .stop => True
  | .elsewhere database _ => ofDevice name.bytes database = ofDevice name.bytes run.database

/-- Nothing has happened yet. -/
structure Fresh (run : TaskRun) : Prop where
  worker : run.worker = none
  inserted : run.inserted = []
  lastCleanup : run.lastCleanup = none

/-! ## 2. The invariant -/

/-- The records of the cycles from `since` on. -/
def insertedSince (since : ℤ) (inserted : List (ℤ × ℕ)) : ℕ :=
  ((inserted.filter fun cycle => since ≤ cycle.1).map (·.2)).sum

/-- The timer of the worker is that of the last cleanup, or the next success cleans up; since the
last cleanup the table has grown by what was inserted. -/
structure Bounded (name : SqlText) (run : TaskRun) : Prop where
  named : ∀ task ∈ run.worker, task.device.name = name.bytes
  timer : ∀ task ∈ run.worker, kCleanupInterval ≤ run.clock - task.lastCleanupTime ∨
    run.lastCleanup = some task.lastCleanupTime
  past : ∀ cycle ∈ run.inserted, cycle.1 ≤ run.clock
  cleanup : ∀ time ∈ run.lastCleanup, time ≤ run.clock ∧
    (ofDevice name.bytes run.database).length ≤ 5000 + insertedSince time run.inserted

section Step
open OnConnection (Initialised)

variable {name : SqlText} {run run' : TaskRun} {task : TaskState} {models : ModelRepository}
  {input : CycleInput} {fault : ℕ → Option Str}

theorem insertedSince_cons (since now : ℤ) (n : ℕ) (inserted : List (ℤ × ℕ)) :
    insertedSince since ((now, n) :: inserted) =
      (if since ≤ now then n else 0) + insertedSince since inserted := by
  unfold insertedSince
  rw [List.filter_cons]
  split <;> simp_all

theorem ofDevice_initialised {t u : Database} (h : Initialised name.bytes t u) :
    ofDevice name.bytes u = ofDevice name.bytes t := by
  rcases h with rfl | ⟨owner, points, v, -, -, rfl⟩ <;> rfl

/-- An insertion adds its records to those of the device. -/
theorem length_ofDevice_inserted {t u : Database} {records : List ResourceRecord}
    (hnames : ∀ record ∈ records, record.deviceName = name.bytes)
    (h : Inserted name.bytes records t u) :
    (ofDevice name.bytes u).length = (ofDevice name.bytes t).length + records.length := by
  obtain ⟨t₁, v, hinit, hv, rfl⟩ := h
  rw [← ofDevice_initialised hinit]
  obtain ⟨new, hselect, hmap⟩ := AutoTable.select_insertAll?
    (q := fun r => r.deviceName = some (bindText name.bytes)) hv
  rw [List.filter_eq_self.mpr] at hmap
  · have hlength := congrArg List.length hmap
    rw [List.length_map, List.length_map] at hlength
    show (v.select _).length = _
    rw [hselect, List.length_append, hlength]
    rfl
  · intro r hr
    obtain ⟨record, hrecord, rfl⟩ := List.mem_map.mp hr
    simp [ResourceRepository.boundRow, hnames record hrecord]

/-- A cleanup that returns leaves the device at most the limit. -/
theorem length_ofDevice_cleanup (hname : name.bytes ≠ []) {deviceName : Str} {c c' : Conn}
    (hdevice : deviceName = name.bytes)
    (h : SQLiteManager.cleanupResourcesForDevice deviceName kMaxRowsPerDevice c = (.ok (), c')) :
    (ofDevice name.bytes c'.tables).length ≤ 5000 := by
  rw [hdevice] at h
  have hwrites := SQLiteManager.writes_cleanupResourcesForDevice name.bytes kMaxRowsPerDevice c
  rw [h] at hwrites
  obtain ⟨e, hfalse, -⟩ | ⟨-, heffect⟩ := hwrites
  · cases hfalse
  · have hclean : ¬ (kMaxRowsPerDevice ≤ 0 ∨ name.bytes = []) := by
      rintro (hle | hnil)
      · exact absurd hle (by decide)
      · exact hname hnil
    simp only [if_neg hclean, Except.ok.injEq] at heffect
    rw [← heffect, (cleanupDevice_newest kMaxRowsPerDevice name.bytes c.tables).newest.length]
    exact min_le_left _ _

/-- What a cycle does to the run: it fails, or inserts and the cleanup is not due, or inserts and
cleans up. -/
inductive CycleEffect (name : SqlText) (run : TaskRun) (task : TaskState) (now : ℤ)
    (run' : TaskRun) : Prop
  | failed
    (rows : (ofDevice name.bytes run'.database).length = (ofDevice name.bytes run.database).length)
    (inserted : run'.inserted = run.inserted) (lastCleanup : run'.lastCleanup = run.lastCleanup)
    (timer : ∀ task' ∈ run'.worker, task'.lastCleanupTime = task.lastCleanupTime)
  | stored (n : ℕ) (notDue : now - task.lastCleanupTime < kCleanupInterval)
    (rows : (ofDevice name.bytes run'.database).length =
      (ofDevice name.bytes run.database).length + n)
    (inserted : run'.inserted = (now, n) :: run.inserted)
    (lastCleanup : run'.lastCleanup = run.lastCleanup)
    (timer : ∀ task' ∈ run'.worker, task'.lastCleanupTime = task.lastCleanupTime)
  | cleaned (n : ℕ) (rows : (ofDevice name.bytes run'.database).length ≤ 5000)
    (inserted : run'.inserted = (now, n) :: run.inserted) (lastCleanup : run'.lastCleanup = some now)
    (timer : ∀ task' ∈ run'.worker, task'.lastCleanupTime = now)

theorem cleanupOutcome_error {s s₁ : CycleState} {e : Str}
    (h : insertNext models input (s.at "prepare") = .error e s₁) :
    cleanupOutcome models input s = none := by
  rw [cleanupOutcome, h]

theorem cleanupOutcome_ok {s s₁ : CycleState} {r : Str × List ResourceRecord}
    (h : insertNext models input (s.at "prepare") = .ok r s₁) : cleanupOutcome models input s =
      if kCleanupInterval ≤ input.now - (s₁.at "close").task.lastCleanupTime then
        some (SQLiteManager.cleanupResourcesForDevice (s₁.at "close").task.device.name
          kMaxRowsPerDevice (s₁.at "close").conn).1.isOk
      else none := by
  rw [cleanupOutcome, h]
  rfl

/-- A cycle whose cleanup does not fail. -/
theorem afterCycle_effect (hname : name.bytes ≠ []) (hnamed : task.device.name = name.bytes)
    (hok : cleanupOutcome models input (run.cycleState task fault) ≠ some false) :
    (∀ task' ∈ (run.afterCycle task models input fault).worker, task'.device.name = name.bytes) ∧
    CycleEffect name run task input.now (run.afterCycle task models input fault) := by
  have hends := insertNext_ends models input ((run.cycleState task fault).at "prepare") name
    hnamed _ rfl
  have hstep := runCycle_step models input (run.cycleState task fault)
  rcases hrun : runCycle models input (run.cycleState task fault) with ⟨result, s'⟩
  rw [hrun] at hstep
  cases hstep with
  | failed hinsert hbelow =>
    rw [hinsert] at hends
    obtain ⟨hinit, -, htask⟩ := hends
    simp only [afterCycle, hrun, cleanupOutcome_error hinsert]
    refine ⟨?_, .failed ?_ rfl rfl ?_⟩
    · rintro _ ⟨⟩
      exact htask.name.trans hnamed
    · exact congrArg List.length (ofDevice_initialised hinit)
    · rintro _ ⟨⟩
      exact htask.lastCleanupTime
  | gaveUp hinsert hlimit =>
    rw [hinsert] at hends
    obtain ⟨hinit, -, htask⟩ := hends
    simp only [afterCycle, hrun, cleanupOutcome_error hinsert]
    refine ⟨?_, .failed ?_ rfl rfl ?_⟩
    · rintro _ ⟨⟩
    · exact congrArg List.length (ofDevice_initialised hinit)
    · rintro _ ⟨⟩
  | succeeded hinsert hcleanup =>
    rw [hinsert] at hends
    obtain ⟨hnames, hinserted, -, htask⟩ := hends
    have houtcome := cleanupOutcome_ok hinsert
    cases hcleanup with
    | notDue hnot =>
      have hrows := length_ofDevice_inserted hnames hinserted
      rw [if_neg (not_le.mpr hnot)] at houtcome
      simp only [afterCycle, hrun, houtcome]
      refine ⟨?_, .stored _ (htask.lastCleanupTime ▸ hnot) hrows rfl rfl ?_⟩
      · rintro _ ⟨⟩
        exact htask.name.trans hnamed
      · rintro _ ⟨⟩
        exact htask.lastCleanupTime
    | done hdue hcall =>
      have hrows := length_ofDevice_cleanup hname (htask.name.trans hnamed) hcall
      rw [if_pos hdue, hcall] at houtcome
      have htrue : cleanupOutcome models input (run.cycleState task fault) = some true := houtcome
      simp only [afterCycle, hrun, htrue, if_true]
      refine ⟨?_, .cleaned _ hrows rfl rfl ?_⟩
      · rintro _ ⟨⟩
        exact htask.name.trans hnamed
      · rintro _ ⟨⟩
        rfl
    | failed hdue hcall =>
      rw [if_pos hdue, hcall] at houtcome
      exact absurd houtcome hok

theorem Fresh.bounded (h : Fresh run) : Bounded name run := by
  refine ⟨?_, ?_, ?_, ?_⟩ <;> simp [h.worker, h.inserted, h.lastCleanup]

/-- While no cleanup is due, the timer of the worker is that of the last cleanup. -/
theorem Bounded.lastCleanup_of_notDue (h : Bounded name run) (htask : task ∈ run.worker)
    (hclock : run.clock ≤ input.now) (hnot : input.now - task.lastCleanupTime < kCleanupInterval) :
    run.lastCleanup = some task.lastCleanupTime := by
  rcases h.timer task htask with hdue | hlast
  · omega
  · exact hlast

theorem Bounded.step (hname : name.bytes ≠ []) (h : Bounded name run) {event : TaskEvent}
    (hok : Admitted name run event) (hstep : run.step event = some run') : Bounded name run' := by
  cases event with
  | start device now =>
    simp only [TaskRun.step] at hstep
    split at hstep
    · cases hstep
    · cases hstep
      obtain ⟨hdevice, hclock⟩ := hok
      refine ⟨?_, ?_, fun cycle hcycle => (h.past cycle hcycle).trans hclock, fun time htime =>
        ⟨(h.cleanup time htime).1.trans hclock, (h.cleanup time htime).2⟩⟩
      · rintro _ ⟨⟩
        exact hdevice
      · -- the timer of a new worker is one interval in the past
        rintro _ ⟨⟩
        exact .inl (le_of_eq (sub_sub_cancel now kCleanupInterval).symm)
  | stop =>
    cases hstep
    exact ⟨(fun _ hnone => nomatch hnone), (fun _ hnone => nomatch hnone), h.past, h.cleanup⟩
  | elsewhere database registry =>
    cases hstep
    exact ⟨h.named, h.timer, h.past, fun time htime => by
      have hcleanup := h.cleanup time htime
      rwa [← show ofDevice name.bytes database = ofDevice name.bytes run.database from hok]
        at hcleanup⟩
  | cycle models input fault =>
    obtain ⟨hclock, hcleanup⟩ := hok
    obtain ⟨task, htask, rfl⟩ := Option.map_eq_some_iff.mp hstep
    obtain ⟨hnamed, heffect⟩ :=
      afterCycle_effect hname (h.named task htask) (hcleanup task htask)
    have hnow : (run.afterCycle task models input fault).clock = input.now := rfl
    cases heffect with
    | failed hrows hinserted hlast htimer =>
      refine ⟨hnamed, fun task' htask' => ?_, fun cycle hcycle => ?_, fun time htime => ?_⟩
      · rw [htimer task' htask', hlast, hnow]
        exact (h.timer task htask).imp_left fun hdue => hdue.trans (by omega)
      · rw [hinserted] at hcycle
        exact (h.past cycle hcycle).trans hclock
      · rw [hlast] at htime
        rw [hrows, hinserted]
        exact ⟨(h.cleanup time htime).1.trans hclock, (h.cleanup time htime).2⟩
    | stored n hnot hrows hinserted hlast htimer =>
      have hlast' := h.lastCleanup_of_notDue htask hclock hnot
      refine ⟨hnamed, fun task' htask' => ?_, fun cycle hcycle => ?_, fun time htime => ?_⟩
      · rw [htimer task' htask', hlast]
        exact .inr hlast'
      · rw [hinserted] at hcycle
        rcases List.mem_cons.mp hcycle with rfl | hcycle
        · exact le_rfl
        · exact (h.past cycle hcycle).trans hclock
      · rw [hlast] at htime
        obtain ⟨htime, hbound⟩ := h.cleanup time htime
        rw [hrows, hinserted, insertedSince_cons, if_pos (htime.trans hclock)]
        exact ⟨htime.trans hclock, by omega⟩
    | cleaned n hrows hinserted hlast htimer =>
      refine ⟨hnamed, fun task' htask' => ?_, fun cycle hcycle => ?_, fun time htime => ?_⟩
      · rw [htimer task' htask', hlast]
        exact .inr rfl
      · rw [hinserted] at hcycle
        rcases List.mem_cons.mp hcycle with rfl | hcycle
        · exact le_rfl
        · exact (h.past cycle hcycle).trans hclock
      · rw [hlast] at htime
        cases htime
        exact ⟨le_rfl, Nat.le_add_right_of_le hrows⟩

end Step

end TaskRun

/-! ## 3. Whole runs -/

/-- In every run of the worker of a device with a name, after each successful cycle: the last cleanup
lies less than one interval before its reading of the clock, or at it, and the device has at most
5000 rows of `Resources` and those that the successful cycles of the last interval have inserted. -/
theorem growth_bounded (name : SqlText) (hname : name.bytes ≠ []) {start run run' : TaskRun}
    (hstart : start.Fresh)
    (hrun : Steps.Reach TaskRun.step (TaskRun.Admitted name) start run)
    {models : ModelRepository} {input : CycleInput} {fault : ℕ → Option Str} {n : ℕ}
    (hok : TaskRun.Admitted name run (.cycle models input fault))
    (hstep : run.step (.cycle models input fault) = some run')
    (hsuccess : run'.inserted = (input.now, n) :: run.inserted) :
    (∃ time, run'.lastCleanup = some time ∧ time ≤ input.now ∧
      input.now - time < kCleanupInterval) ∧
    (ofDevice name.bytes run'.database).length ≤ 5000 + ((run'.inserted.filter fun cycle =>
      input.now - kCleanupInterval < cycle.1 ∧ cycle.1 ≤ input.now).map (·.2)).sum := by
  have h : TaskRun.Bounded name run :=
    hrun.invariant hstart.bounded fun _ _ _ h hok hstep => h.step hname hok hstep
  have h' := h.step hname hok hstep
  have hlast : ∃ time, run'.lastCleanup = some time ∧ input.now - time < kCleanupInterval := by
    obtain ⟨task, htask, rfl⟩ := Option.map_eq_some_iff.mp hstep
    obtain ⟨-, heffect⟩ :=
      TaskRun.afterCycle_effect hname (h.named task htask) (hok.2 task htask)
    cases heffect with
    | failed hrows hinserted hlast htimer =>
      rw [hsuccess] at hinserted
      exact absurd hinserted (List.cons_ne_self _ _)
    | stored m hnot hrows hinserted hlast htimer =>
      exact ⟨_, hlast.trans (h.lastCleanup_of_notDue htask hok.1 hnot), hnot⟩
    | cleaned m hrows hinserted hlast htimer =>
      exact ⟨input.now, hlast, by rw [sub_self]; decide⟩
  have hnow : run'.clock = input.now := by
    obtain ⟨task, -, rfl⟩ := Option.map_eq_some_iff.mp hstep
    rfl
  obtain ⟨time, htime, hrecent⟩ := hlast
  obtain ⟨hpast, hrows⟩ := h'.cleanup time htime
  rw [hnow] at hpast
  refine ⟨⟨time, htime, hpast, hrecent⟩, hrows.trans (Nat.add_le_add_left ?_ 5000)⟩
  -- a cycle since that cleanup lies in the last interval
  have hwindow : ∀ cycle ∈ run'.inserted, time ≤ cycle.1 →
      input.now - kCleanupInterval < cycle.1 ∧ cycle.1 ≤ input.now := by
    intro cycle hcycle hsince
    have := h'.past cycle hcycle
    omega
  have hfilter : run'.inserted.filter (fun cycle => decide (time ≤ cycle.1)) =
      (run'.inserted.filter fun cycle => decide (input.now - kCleanupInterval < cycle.1 ∧
        cycle.1 ≤ input.now)).filter fun cycle => decide (time ≤ cycle.1) := by
    rw [List.filter_filter]
    refine List.filter_congr fun cycle hcycle => ?_
    cases Int.decLe time cycle.1 with
    | isTrue hsince => simp [hsince, hwindow cycle hcycle hsince]
    | isFalse hbefore => simp [hbefore]
  rw [TaskRun.insertedSince, hfilter]
  exact (List.filter_sublist.map _).sum_le_sum fun n _ => Nat.zero_le n

/-- The device `A` and a worker of it that is about to start. -/
def runA : TaskRun where
  database := createA.apply .empty
  registry := {}
  clock := 0

/-- The worker of `A` has started. -/
def startedRunA : TaskRun := { runA with worker := some (.enter { name := lit "A" } 0) }

/-- A driver that answers every query with one value. -/
def oneValue : CycleInput where
  connect _ _ := true
  answer _ := .ok (lit "\x7b\"//X\":\x7b\"value\":[1]\x7d\x7d")
  cidTime := 0
  responseTime := default
  now := 10
  statusTime := default

theorem growth_bounded_runA :
    let run' := startedRunA.afterCycle (.enter { name := lit "A" } 0) oneModel oneValue fun _ => none
    (∃ time, run'.lastCleanup = some time ∧ time ≤ 10 ∧ 10 - time < kCleanupInterval) ∧
    (ofDevice (lit "A") run'.database).length ≤ 5000 + ((run'.inserted.filter fun cycle =>
      10 - kCleanupInterval < cycle.1 ∧ cycle.1 ≤ 10).map (·.2)).sum := by
  have hstart : Steps.Reach TaskRun.step (TaskRun.Admitted (bindText (lit "A"))) runA startedRunA :=
    Steps.Reach.step (a := .start { name := lit "A" } 0) .start ⟨by decide, le_rfl⟩ rfl
  have hcleanup : TaskRun.cleanupOutcome oneModel oneValue
      (startedRunA.cycleState (.enter { name := lit "A" } 0) fun _ => none) ≠ some false := by
    decide +kernel
  refine @growth_bounded (bindText (lit "A")) (by decide) runA startedRunA _ ⟨rfl, rfl, rfl⟩ hstart
    oneModel oneValue (fun _ => none) 1 ⟨by decide, ?_⟩ rfl (by decide +kernel)
  rintro task ⟨⟩
  exact hcleanup

/-! ## 4. A device without a name -/

/-- A name whose first byte is NUL passes the check for the empty name and is stored as it. -/
def nameless : Database :=
  ((CommandProcessor.createDevice oneModel { name := [0], model := lit "M" } []).run .empty).2

/-- A cycle of a device whose points are stored, and whose driver gives records, inserts them. -/
theorem insertProgram_ok {models : ModelRepository} {input : CycleInput} {deviceName response : Str}
    {t : Database} {x : ℕ × DeviceRow} {points : List DataPoint} {records : List ResourceRecord}
    (hx : named deviceName t = some x) (hname : (readDevice x).name = deviceName)
    (honline : (readDevice x).status ≠ 0) (hpoints : points ≠ [])
    (hstored : (t.dataPoint.select fun r => r.dName = some (bindText deviceName)).map
      DataPointRepository.readPoint = points)
    (hresponse : input.respond (readDevice x) points = .ok response)
    (hrecords : CollectionResponseParser.processResponse (readDevice x) points response
      input.responseTime = .ok records) :
    ∃ u, (insertProgram models input deviceName).run t =
      (.ok (response, records), { t with resources := u }) := by
  have hget : (Command.call (SQLiteManager.getDeviceByName deviceName)).run t =
      (.ok (readDevice x), t) := by
    rw [Command.run_call, SQLiteManager.exec_getDeviceByName, hx]
  have hne : (t.dataPoint.select fun r => r.dName = some (bindText deviceName)) ≠ [] := by
    rintro hnil
    rw [hnil] at hstored
    exact hpoints hstored.symm
  have hload := @DataTask.loadDataPoints_ok models deviceName [] _ _ _ (by simpa using hne)
    (DataTask.storedDataPoints_ne_nil hne)
  obtain ⟨u, -, hinsert⟩ := SQLiteManager.exec_insertResources t records
  have hinsert' : (Command.call (SQLiteManager.insertResources records)).run t =
      (.ok (), { t with resources := u }) := hinsert
  refine ⟨u, ?_⟩
  rw [insertProgram, Command.run_bind_ok hget]
  simp only [honline, if_false]
  rw [hname, Command.run_bind_ok hload, hstored, hresponse,
    Command.run_bind_ok (Command.run_lift (.ok response) t), hrecords,
    Command.run_bind_ok (Command.run_lift (.ok records) t), Command.run_bind_ok hinsert']
  rfl

/-- The row of the device in `nameless`. -/
def namelessDevice : ℕ × DeviceRow := (1, DeviceRepository.boundRow { name := [0], model := lit "M" })

/-- The data points in `nameless`. -/
def namelessPoints : List DataPoint :=
  (nameless.dataPoint.select fun r => r.dName = some (bindText [])).map
    DataPointRepository.readPoint

/-- Whatever `Resources` holds, the nameless device gets a record. -/
theorem insertProgram_nameless (table : ResourceTable) : ∃ response records u,
    (insertProgram oneModel oneValue []).run { nameless with resources := table } =
      (.ok (response, records), { nameless with resources := u }) := by
  have hx : named [] nameless = some namelessDevice := by decide +kernel
  have hpoints : namelessPoints ≠ [] := by decide +kernel
  have hrecords : ((oneValue.respond (readDevice namelessDevice) namelessPoints).bind fun response =>
      CollectionResponseParser.processResponse (readDevice namelessDevice) namelessPoints response
        oneValue.responseTime).isOk = true := by decide +kernel
  rcases hrespond : oneValue.respond (readDevice namelessDevice) namelessPoints with e | response
  · rw [hrespond] at hrecords
    cases hrecords
  rw [hrespond] at hrecords
  rcases hprocess : CollectionResponseParser.processResponse (readDevice namelessDevice)
    namelessPoints response oneValue.responseTime with e | records
  · rw [Except.bind, hprocess] at hrecords
    cases hrecords
  obtain ⟨u, hu⟩ := @insertProgram_ok oneModel _ _ _
    { nameless with resources := table } _ _ _ hx (by decide +kernel) (by decide +kernel) hpoints rfl
    hrespond hprocess
  exact ⟨response, records, u, hu⟩

/-- A cycle of the nameless device succeeds and cleans nothing up. -/
theorem afterCycle_nameless {run : TaskRun} {task : TaskState} {table : ResourceTable}
    (hdatabase : run.database = { nameless with resources := table })
    (hname : task.device.name = []) :
    TaskRun.cleanupOutcome oneModel oneValue (run.cycleState task fun _ => none) ≠ some false ∧
    ∃ n, (run.afterCycle task oneModel oneValue fun _ => none).inserted =
        (oneValue.now, n) :: run.inserted ∧
      (ofDevice [] (run.afterCycle task oneModel oneValue fun _ => none).database).length =
        (ofDevice [] run.database).length + n := by
  obtain ⟨response, records, u, hprogram⟩ := insertProgram_nameless table
  have hagrees := insertNext_alone oneModel oneValue (bindText []) task.lastCleanupTime
    ((run.cycleState task fun _ => none).at "prepare") ⟨0, rfl⟩ ⟨hname, rfl⟩
  have hends := insertNext_ends oneModel oneValue
    ((run.cycleState task fun _ => none).at "prepare") (bindText []) hname _ rfl
  have htables : ((run.cycleState task fun _ => none).at "prepare").conn.tables =
      { nameless with resources := table } := hdatabase
  rw [htables, show (bindText []).bytes = [] from rfl] at hagrees
  rcases hinsert : insertNext oneModel oneValue ((run.cycleState task fun _ => none).at "prepare")
    with ⟨r, s₁⟩ | ⟨e, s₁⟩
  · rw [hinsert] at hagrees hends
    obtain ⟨-, ⟨m, hhealthy⟩, hname₁, -⟩ := hagrees
    obtain ⟨hnames, hinserted, -, -⟩ := hends
    have hrows := TaskRun.length_ofDevice_inserted hnames hinserted
    obtain ⟨m', hcall⟩ := SQLiteManager.alone_cleanupResourcesForDevice [] kMaxRowsPerDevice
      s₁.conn.tables m
    rw [← hhealthy, Command.run_call, SQLiteManager.exec_cleanupResourcesForDevice_nil] at hcall
    constructor
    · rw [TaskRun.cleanupOutcome_ok hinsert]
      split
      · show some (SQLiteManager.cleanupResourcesForDevice s₁.task.device.name kMaxRowsPerDevice
          s₁.conn).1.isOk ≠ some false
        rw [hname₁, hcall]
        exact fun h => by cases h
      · exact fun h => by cases h
    · have hstep := runCycle_step oneModel oneValue (run.cycleState task fun _ => none)
      rcases hrun : runCycle oneModel oneValue (run.cycleState task fun _ => none) with ⟨result, s'⟩
      rw [hrun] at hstep
      have hcall' : SQLiteManager.cleanupResourcesForDevice (s₁.at "close").task.device.name
          kMaxRowsPerDevice (s₁.at "close").conn = (.ok (), healthy s₁.conn.tables none m') := by
        show SQLiteManager.cleanupResourcesForDevice s₁.task.device.name _ s₁.conn = _
        rw [hname₁]
        exact hcall
      simp only [TaskRun.afterCycle, hrun]
      cases hstep with
      | succeeded hinsert' hclean =>
        rw [hinsert] at hinsert'
        cases hinsert'
        refine ⟨_, rfl, ?_⟩
        cases hclean with
        | notDue hnot => exact hrows
        | done hdue hdone =>
          rw [hcall'] at hdone
          cases hdone
          exact hrows
        | failed hdue hfailed =>
          rw [hcall'] at hfailed
          cases hfailed
      | failed hinsert' hbelow =>
        rw [hinsert] at hinsert'
        cases hinsert'
      | gaveUp hinsert' hlimit =>
        rw [hinsert] at hinsert'
        cases hinsert'
  · rw [hinsert] at hagrees
    rw [hprogram] at hagrees
    cases hagrees.1

/-- The nameless device starts with 5001 rows. Its first successful cycle calls the cleanup, which
returns and leaves all of them. -/
theorem growth_unbounded_nameless : ∃ (start run run' : TaskRun) (n : ℕ), start.Fresh ∧
    Steps.Reach TaskRun.step (TaskRun.Admitted (bindText [])) start run ∧
    TaskRun.Admitted (bindText []) run (.cycle oneModel oneValue fun _ => none) ∧
    run.step (.cycle oneModel oneValue fun _ => none) = some run' ∧
    run'.inserted = (oneValue.now, n) :: run.inserted ∧
    5000 + ((run'.inserted.filter fun cycle => oneValue.now - kCleanupInterval < cycle.1 ∧
      cycle.1 ≤ oneValue.now).map (·.2)).sum < (ofDevice [] run'.database).length := by
  obtain ⟨table, htable⟩ := @AutoTable.insertAll?_isSome _ _ _
    (List.replicate 5001 (ResourceRepository.boundRow {})) nameless.resources (fun _ _ _ _ => trivial)
    (List.pairwise_of_forall fun _ _ => trivial)
  obtain ⟨new, hselect, hmap⟩ := AutoTable.select_insertAll?
    (q := fun r => r.deviceName = some (bindText [])) htable
  let start : TaskRun :=
    { database := { nameless with resources := table }, registry := {}, clock := 0 }
  let task : TaskState := .enter {} 0
  let run : TaskRun := { start with worker := some task }
  obtain ⟨hcleanup, n, hinserted, hrows⟩ := @afterCycle_nameless run task _ rfl rfl
  have hreach : Steps.Reach TaskRun.step (TaskRun.Admitted (bindText [])) start run :=
    Steps.Reach.step (a := .start {} 0) .start ⟨rfl, le_rfl⟩ rfl
  refine ⟨start, run, _, n, ⟨rfl, rfl, rfl⟩, hreach, ⟨show (0 : ℤ) ≤ 10 by decide, ?_⟩, rfl,
    hinserted, ?_⟩
  · rintro task ⟨⟩
    exact hcleanup
  · rw [hrows, hinserted]
    have hcount : (ofDevice [] run.database).length = 5001 := by
      have hlength := congrArg List.length hmap
      rw [List.length_map, List.filter_eq_self.mpr fun r hr => by
        rw [List.eq_of_mem_replicate hr]
        decide, List.length_replicate] at hlength
      have hempty : nameless.resources.select (fun r => r.deviceName = some (bindText [])) = [] := by
        decide +kernel
      show (table.select _).length = _
      rw [hselect, List.length_append, hlength, hempty]
      rfl
    have hwindow : oneValue.now - kCleanupInterval < oneValue.now ∧ oneValue.now ≤ oneValue.now := by
      decide
    rw [hcount, List.filter_cons, if_pos (by simpa using hwindow)]
    show 5000 + (n + 0) < 5001 + n
    omega

end CollectorService
