import CollectorService.Growth
import CollectorService.Stop
import CollectorService.WorkerLoop
import Mathlib.Logic.Function.Basic

/-!
# Statuses across restarts

Starts, stops and cycles of the workers, each run to completion. A start creates a worker with a
status of its own, and a cycle publishes the status of its worker under the name of the device.

* `publishesOwn_of_reach`: in every run, what a cycle publishes is what its worker has come to since
  its start; starts and stops leave the published statuses alone.
* `restartA_forgets`: after a restart a failed cycle takes the time of the last success away.
-/

namespace CollectorService

open DeviceTask

/-! ## 1. Runs -/

/-- The process, the variables of its workers by number, and the past. -/
structure ServiceRun where
  service : Service
  tasks : ℕ → Option TaskState := fun _ => none
  /-- The outcomes of all cycles with the numbers of their workers, the latest first. -/
  past : List (ℕ × CycleOutcome) := []

inductive ServiceEvent where
  | start (models : ModelRepository) (deviceName mid : Str) (now : ℤ)
  | stop (deviceName mid : Str)
  | cycle (id : ℕ) (models : ModelRepository) (input : CycleInput) (fault : ℕ → Option Str)
  /-- What other commands do to the database. -/
  | elsewhere (database : Database)

namespace ServiceRun

/-- The worker has not been stopped. -/
def running (run : ServiceRun) (id : ℕ) : Bool :=
  run.service.registry.workers[id]?.any fun worker => !worker.finished && !worker.stopFlag

/-- The variables of the worker that a start creates. -/
def startedTask (models : ModelRepository) (deviceName mid : Str) (now : ℤ) (database : Database) :
    Option TaskState :=
  match (DataTask.startChecks models deviceName mid).run database with
  | (.ok device, _) => some (.enter device now)
  | (.error _, _) => none

/-- The run after a cycle; behind the fifth failure in a row the worker marks its device stopped. -/
def afterCycle (run : ServiceRun) (id : ℕ) (task : TaskState) (models : ModelRepository)
    (input : CycleInput) (fault : ℕ → Option Str) : ServiceRun :=
  let (result, s) := runCycle models input
    { conn := { tables := run.service.database, fault }, registry := run.service.registry, task }
  { service := {
      database := s.conn.tables
      registry := if result = .gaveUp then s.registry.finish id s.task.device.name else s.registry }
    tasks := Function.update run.tasks id (some s.task)
    past := (id, result.outcome input.statusTime) :: run.past }

def step (run : ServiceRun) : ServiceEvent → Option ServiceRun
  | .start models deviceName mid now =>
    (DataTask.startDeviceCollect models deviceName mid run.service).map fun (result, service) =>
      { run with
        service
        tasks := if result.ok then Function.update run.tasks run.service.registry.nextWorker
            (startedTask models deviceName mid now run.service.database)
          else run.tasks }
  | .stop deviceName mid =>
    some { run with service := (DataTask.stopDeviceCollect deviceName mid run.service).2 }
  | .cycle id models input fault =>
    if run.running id then (run.tasks id).map fun task => run.afterCycle id task models input fault
    else none
  | .elsewhere database => some { run with service := { run.service with database } }

/-- The process has just started. -/
def initial (database : Database) : ServiceRun := { service := ⟨database, {}⟩ }

/-- The outcomes of the cycles of one worker. -/
def outcomesOf (run : ServiceRun) (id : ℕ) : List CycleOutcome :=
  (run.past.filter (·.1 = id)).map (·.2)

/-- The outcomes of the cycles of all workers of a device. -/
def outcomesOfDevice (run : ServiceRun) (deviceName : Str) : List CycleOutcome :=
  (run.past.filter fun cycle => run.service.registry.nameOf cycle.1 = some deviceName).map (·.2)

/-! ## 2. What the commands do to the workers -/

section Commands
variable {models : ModelRepository} {deviceName mid : Str} {w w' : Service} {r : CommandResult}

theorem startDeviceCollect_workers
    (h : DataTask.startDeviceCollect models deviceName mid w = some (r, w')) :
    w'.registry.statuses = w.registry.statuses ∧
    (r.ok = false ∧ w'.registry.workers = w.registry.workers ∨
      ∃ device t, r.ok = true ∧
        (DataTask.startChecks models deviceName mid).run w.database = (.ok device, t) ∧
        w'.registry.workers = (w.registry.spawn device.name).workers) := by
  unfold DataTask.startDeviceCollect at h
  split at h
  · cases h
    exact ⟨rfl, .inl ⟨rfl, rfl⟩⟩
  · next device t hchecks =>
    split at h
    · cases h
      exact ⟨rfl, .inl ⟨rfl, rfl⟩⟩
    · simp only at h
      split at h
      · cases h
      · obtain ⟨s, hadd, heq⟩ := Option.map_eq_some_iff.mp h
        cases heq
        unfold DeviceStatusStore.addWorker at hadd
        split at hadd
        · cases hadd
          exact ⟨rfl, .inr ⟨device, t, rfl, hchecks, rfl⟩⟩
        · cases hadd

theorem statuses_requestStop (s : DeviceStatusStore) (d : Str) :
    (s.requestStop d).2.statuses = s.statuses := by
  unfold DeviceStatusStore.requestStop
  split
  · rfl
  split <;> rfl

theorem join_keeps (s : DeviceStatusStore) (thread : Option ℕ) :
    (s.join thread).statuses = s.statuses ∧ ∀ i, (s.join thread).nameOf i = s.nameOf i := by
  unfold DeviceStatusStore.join
  split
  · exact ⟨rfl, fun _ => rfl⟩
  split
  · split
    · exact ⟨rfl, fun _ => rfl⟩
    · exact ⟨rfl, DeviceStatusStore.nameOf_finish⟩
  · exact ⟨rfl, fun _ => rfl⟩

theorem stopRegistered_keeps (deviceName mid : Str) (s : DeviceStatusStore) :
    (DataTask.stopRegistered deviceName mid s).2.statuses = s.statuses ∧
    ∀ i, (DataTask.stopRegistered deviceName mid s).2.nameOf i = s.nameOf i := by
  have hstatuses := statuses_requestStop s deviceName
  have hnames := DeviceStatusStore.nameOf_requestStop (s := s) deviceName
  unfold DataTask.stopRegistered
  rcases hstop : s.requestStop deviceName with ⟨active, s₁⟩
  rw [hstop] at hstatuses hnames
  cases active with
  | false => exact ⟨hstatuses, hnames⟩
  | true =>
    obtain ⟨hjoin, hjoined⟩ := join_keeps ((s₁.takeThread deviceName).2.eraseStopFlag deviceName)
      (s₁.takeThread deviceName).1
    exact ⟨hjoin.trans hstatuses, fun i => (hjoined i).trans (hnames i)⟩

theorem stopDeviceCollect_keeps (deviceName mid : Str) (w : Service) :
    (DataTask.stopDeviceCollect deviceName mid w).2.registry.statuses = w.registry.statuses ∧
    ∀ i, (DataTask.stopDeviceCollect deviceName mid w).2.registry.nameOf i =
      w.registry.nameOf i := by
  unfold DataTask.stopDeviceCollect
  split
  · exact ⟨rfl, fun _ => rfl⟩
  · exact ⟨rfl, fun _ => rfl⟩
  · exact stopRegistered_keeps deviceName mid w.registry

end Commands

/-! ## 3. Every run -/

/-- The variables of every worker count the outcomes of its own cycles. -/
structure Tracked (run : ServiceRun) : Prop where
  counted : ∀ id task, run.tasks id = some task → ∃ name : SqlText,
    run.service.registry.nameOf id = some name.bytes ∧
      Counted name.bytes (run.outcomesOf id) task
  fresh : ∀ id, run.service.registry.nameOf id = none → run.outcomesOf id = []

/-- What an event publishes. -/
structure PublishesOwn (run : ServiceRun) : Prop where
  /-- A cycle publishes the time of the latest success of its worker, or 0. -/
  cycle : ∀ (id : ℕ) (models : ModelRepository) (input : CycleInput) (fault : ℕ → Option Str)
    (run' : ServiceRun), run.step (.cycle id models input fault) = some run' →
    ∃ outcome name status, run'.past = (id, outcome) :: run.past ∧
      run'.service.registry.nameOf id = some name ∧
      run'.service.registry.statuses[name]? = some status ∧
      status.lastSuccessTime = lastSuccess (run'.outcomesOf id)
  start : ∀ (models : ModelRepository) (deviceName mid : Str) (now : ℤ) (run' : ServiceRun),
    run.step (.start models deviceName mid now) = some run' →
      run'.service.registry.statuses = run.service.registry.statuses
  stop : ∀ (deviceName mid : Str) (run' : ServiceRun), run.step (.stop deviceName mid) = some run' →
    run'.service.registry.statuses = run.service.registry.statuses

section Step
variable {run run' : ServiceRun} {event : ServiceEvent} {id i : ℕ} {task : TaskState}
  {name : SqlText} {outcome : CycleOutcome}

theorem outcomesOf_cons (h : run'.past = (id, outcome) :: run.past) : run'.outcomesOf i =
    if i = id then outcome :: run.outcomesOf i else run.outcomesOf i := by
  rw [outcomesOf, h, List.filter_cons]
  by_cases hid : i = id
  · simp [hid, outcomesOf]
  · simp [hid, Ne.symm hid, outcomesOf]

/-- A cycle of a worker whose variables count its outcomes. -/
theorem afterCycle_published (models : ModelRepository) (input : CycleInput)
    (fault : ℕ → Option Str) (h : Counted name.bytes (run.outcomesOf id) task) :
    let run' := run.afterCycle id task models input fault
    ∃ outcome task', run'.past = (id, outcome) :: run.past ∧
      run'.tasks = Function.update run.tasks id (some task') ∧
      (∀ i, run'.service.registry.nameOf i = run.service.registry.nameOf i) ∧
      Counted name.bytes (outcome :: run.outcomesOf id) task' ∧
      run'.service.registry.statuses[name.bytes]? = some task'.status := by
  rcases hrun : runCycle models input
    ⟨{ tables := run.service.database, fault }, run.service.registry, task⟩ with ⟨result, s'⟩
  obtain ⟨hpublished, -⟩ := Counted.cycle h hrun
  simp only [afterCycle, hrun]
  refine ⟨_, _, rfl, rfl, fun i => ?_, hpublished.counted, ?_⟩
  · have hname : s'.registry.nameOf i = run.service.registry.nameOf i := by
      rw [hpublished.registry]
      rfl
    split
    · rw [DeviceStatusStore.nameOf_finish, hname]
    · exact hname
  · split <;> exact hpublished.statuses

theorem Tracked.step (h : Tracked run) (hstep : run.step event = some run') : Tracked run' := by
  cases event with
  | start models deviceName mid now =>
    obtain ⟨⟨r, w'⟩, hstart, heq⟩ := Option.map_eq_some_iff.mp hstep
    cases heq
    obtain ⟨-, ⟨hok, hworkers⟩ | ⟨device, t, hok, hchecks, hworkers⟩⟩ :=
      startDeviceCollect_workers hstart
    · have hnames (i : ℕ) : w'.registry.nameOf i = run.service.registry.nameOf i := by
        rw [DeviceStatusStore.nameOf, hworkers, DeviceStatusStore.nameOf]
      simp only [hok, Bool.false_eq_true, if_false]
      refine ⟨fun id task htask => ?_, fun id hid => h.fresh id ((hnames id).symm.trans hid)⟩
      obtain ⟨name, hname, hcounted⟩ := h.counted id task htask
      exact ⟨name, (hnames id).trans hname, hcounted⟩
    · have hname : device.name = (bindText deviceName).bytes := DataTask.startChecks_name hchecks
      have hnames (i : ℕ) :
          w'.registry.nameOf i = (run.service.registry.spawn device.name).nameOf i := by
        rw [DeviceStatusStore.nameOf, hworkers, DeviceStatusStore.nameOf]
      have htask : startedTask models deviceName mid now run.service.database =
          some (.enter device now) := by
        rw [startedTask, hchecks]
      simp only [hok, if_true, htask]
      refine ⟨fun id task hid => ?_, fun id hid => h.fresh id ?_⟩
      · replace hid : Function.update run.tasks run.service.registry.nextWorker
          (some (.enter device now)) id = some task := hid
        rcases eq_or_ne id run.service.registry.nextWorker with rfl | hne
        · -- the new worker has had no cycle
          rw [Function.update_self] at hid
          cases hid
          have hfresh : run.outcomesOf run.service.registry.nextWorker = [] :=
            h.fresh _ (by simp [DeviceStatusStore.nameOf, DeviceStatusStore.nextWorker])
          refine ⟨bindText deviceName, ?_, ?_⟩
          · rw [hnames, DeviceStatusStore.nameOf_spawn_nextWorker, hname]
          · show Counted _ (run.outcomesOf _) _
            rw [hfresh]
            exact counted_enter hname
        · rw [Function.update_of_ne hne] at hid
          obtain ⟨name, hname', hcounted⟩ := h.counted id task hid
          exact ⟨name, (hnames id).trans (DeviceStatusStore.nameOf_spawn hname'), hcounted⟩
      · cases hold : run.service.registry.nameOf id with
        | none => rfl
        | some name =>
          have hnew : w'.registry.nameOf id = some name :=
            (hnames id).trans (DeviceStatusStore.nameOf_spawn hold)
          cases hid.symm.trans hnew
  | stop deviceName mid =>
    cases hstep
    obtain ⟨-, hnames⟩ := stopDeviceCollect_keeps deviceName mid run.service
    refine ⟨fun id task htask => ?_, fun id hid => h.fresh id ((hnames id).symm.trans hid)⟩
    obtain ⟨name, hname, hcounted⟩ := h.counted id task htask
    exact ⟨name, (hnames id).trans hname, hcounted⟩
  | cycle id models input fault =>
    simp only [ServiceRun.step] at hstep
    split at hstep
    · obtain ⟨task, htask, rfl⟩ := Option.map_eq_some_iff.mp hstep
      obtain ⟨name, hname, hcounted⟩ := h.counted id task htask
      obtain ⟨outcome, task', hpast, htasks, hnames, hcounted', -⟩ :=
        afterCycle_published models input fault hcounted
      refine ⟨fun i task'' htask'' => ?_, fun i hi => ?_⟩
      · rw [outcomesOf_cons hpast]
        rw [htasks] at htask''
        rcases eq_or_ne i id with rfl | hne
        · rw [Function.update_self] at htask''
          cases htask''
          rw [if_pos rfl]
          exact ⟨name, (hnames _).trans hname, hcounted'⟩
        · rw [Function.update_of_ne hne] at htask''
          obtain ⟨name', hname', hcounted''⟩ := h.counted i task'' htask''
          rw [if_neg hne]
          exact ⟨name', (hnames i).trans hname', hcounted''⟩
      · rw [hnames] at hi
        have hne : i ≠ id := by
          rintro rfl
          rw [hname] at hi
          cases hi
        rw [outcomesOf_cons hpast, if_neg hne]
        exact h.fresh i hi
    · cases hstep
  | elsewhere database =>
    cases hstep
    exact ⟨h.counted, h.fresh⟩

theorem Tracked.publishesOwn (h : Tracked run) : PublishesOwn run where
  cycle id models input fault run' hstep := by
    simp only [ServiceRun.step] at hstep
    split at hstep
    · obtain ⟨task, htask, rfl⟩ := Option.map_eq_some_iff.mp hstep
      obtain ⟨name, hname, hcounted⟩ := h.counted id task htask
      obtain ⟨outcome, task', hpast, -, hnames, hcounted', hstatus⟩ :=
        afterCycle_published models input fault hcounted
      refine ⟨outcome, name.bytes, _, hpast, (hnames id).trans hname, hstatus, ?_⟩
      rw [outcomesOf_cons hpast, if_pos rfl]
      exact hcounted'.lastSuccessTime
    · cases hstep
  start models deviceName mid now run' hstep := by
    obtain ⟨⟨r, w'⟩, hstart, heq⟩ := Option.map_eq_some_iff.mp hstep
    cases heq
    exact (startDeviceCollect_workers hstart).1
  stop deviceName mid run' hstep := by
    cases hstep
    exact (stopDeviceCollect_keeps deviceName mid run.service).1

theorem tracked_initial (database : Database) : Tracked (initial database) where
  counted id task htask := by cases htask
  fresh _ _ := rfl

/-- In every run of starts, stops and cycles, each cycle publishes under the name of the device the
time of the latest success of its own worker, or 0 when this worker has had none; starts and stops
leave every published status as it is. -/
theorem publishesOwn_of_reach {database : Database}
    (hrun : Steps.Reach ServiceRun.step (fun _ _ => True) (initial database) run) :
    PublishesOwn run :=
  (hrun.invariant (tracked_initial database) fun _ _ _ h _ hstep => h.step hstep).publishesOwn

end Step

/-! ## 4. A restart -/

/-- Every cycle publishes the time of the latest success of any worker of its device. -/
def RemembersSuccess (run : ServiceRun) : Prop :=
  ∀ (id : ℕ) (models : ModelRepository) (input : CycleInput) (fault : ℕ → Option Str)
    (run' : ServiceRun), run.step (.cycle id models input fault) = some run' →
    ∀ name status, run'.service.registry.nameOf id = some name →
      run'.service.registry.statuses[name]? = some status →
      status.lastSuccessTime = lastSuccess (run'.outcomesOfDevice name)

/-- `A` is started, collects once at the time 10, is stopped and started again. -/
def restartA : List ServiceEvent :=
  [.start oneModel (lit "A") [] 0,
    .cycle 0 oneModel { oneValue with statusTime := .ofRat 10 } fun _ => none,
    .stop (lit "A") [], .start oneModel (lit "A") [] 20]

theorem publishesOwn_restartA : ∃ run, run.past = [(0, .succeeded (.ofRat 10))] ∧
    PublishesOwn run := by
  obtain ⟨run, hrun, hpast⟩ := @Steps.exists_reach_of_run _ _ ServiceRun.step
    (fun _ _ => True) (initial (createA.apply .empty)) _
    (fun run => run.past = [(0, .succeeded (.ofRat 10))]) _ restartA (by decide +kernel)
  exact ⟨run, hpast, publishesOwn_of_reach hrun⟩

/-- The run after a cycle of the second worker, for which no driver listens. -/
def afterRestart (run : ServiceRun) : Option ServiceRun :=
  run.step (.cycle 1 oneModel WorkerLoop.noDriver fun _ => none)

/-- The failed cycle publishes 0, and the device has collected at the time 10. -/
def Forgets (run : ServiceRun) : Prop :=
  (afterRestart run).any fun run' =>
    run'.service.registry.nameOf 1 = some (lit "A") ∧
    (run'.service.registry.statuses[lit "A"]?).map (·.lastSuccessTime) = some (.ofRat 0) ∧
    lastSuccess (run'.outcomesOfDevice (lit "A")) = .ofRat 10

instance : DecidablePred Forgets := fun run =>
  inferInstanceAs (Decidable ((afterRestart run).any _ = true))

theorem restartA_forgets : ∃ run, Steps.Reach ServiceRun.step (fun _ _ => True)
    (initial (createA.apply .empty)) run ∧ Forgets run ∧ ¬ RemembersSuccess run := by
  obtain ⟨run, hrun, hforgets⟩ := @Steps.exists_reach_of_run _ _ ServiceRun.step
    (fun _ _ => True) (initial (createA.apply .empty)) _ Forgets _ restartA (by decide +kernel)
  refine ⟨run, hrun, hforgets, fun h => ?_⟩
  obtain ⟨run', hstep, hforgets⟩ := (Option.any_eq_true _ _).mp hforgets
  obtain ⟨hname, hstatus, hlast⟩ := of_decide_eq_true hforgets
  obtain ⟨status, hget, htime⟩ := Option.map_eq_some_iff.mp hstatus
  have hremembers := h 1 oneModel WorkerLoop.noDriver (fun _ => none) run' hstep _ status hname hget
  rw [htime, hlast] at hremembers
  exact absurd hremembers (by decide)

end ServiceRun

end CollectorService
