import CollectorService.Start
import CollectorService.Steps
import Mathlib.Logic.Relation

/-!
# Commands and workers, step by step

Every session runs on its own thread, and so does every collection worker. This module gives the
system in which the calls of `startDeviceCollect`, `stopDeviceCollect`, `startAll` and `stopAll` and
the workers take turns at the registry: one step is one critical section of the store, one `join`
that returns, or the creation of a thread.

The database decides only whether the checks in front of the registry pass. Other sessions may
change it at any time, so both outcomes are possible at every such step; and a thread may be created
or not.

* `Call.advance`: the next step of a call, line by line.
* `CallStep`: what a step of a call can do, one constructor for each outcome.
* `System.step`: a step of the whole system.
-/

namespace CollectorService

open DeviceStatusStore

/-! ## 1. Calls -/

/-- Where `startDeviceCollect` is. -/
inductive StartPc where
  | checks
  | isActive
  | takeThread
  | eraseStopFlag (staleThread : Option ℕ)
  | join (staleThread : Option ℕ)
  | createThread
  | addWorker (id : ℕ)
  | markStartFailed
  | done
  /-- `addWorker` has assigned to a thread that could still be joined. -/
  | terminated
  deriving DecidableEq

/-- Where `stopDeviceCollect` is. -/
inductive StopPc where
  | deviceExists
  | requestStop
  | takeThread
  | eraseStopFlag (threadToJoin : Option ℕ)
  | join (threadToJoin : Option ℕ)
  | markStopped
  | done
  deriving DecidableEq

/-- Where `stopAll` is. -/
inductive StopAllPc where
  | requestStopAll
  | takeAllThreads
  | join (threads : List ℕ)
  | clearAllWorkers
  | done
  deriving DecidableEq

/-- A call in progress. `startAll` is a start with the names that are still to be started. -/
inductive Call where
  | start (deviceName : Str) (pc : StartPc) (rest : List Str)
  | stop (deviceName : Str) (pc : StopPc)
  | stopAll (pc : StopAllPc)
  deriving DecidableEq

/-- The call has returned. -/
def Call.isDone : Call → Bool
  | .start _ .done [] => true
  | .stop _ .done => true
  | .stopAll .done => true
  | _ => false

/-- The next step of a call on the registry; `passed` is the outcome of the database checks, where
the step makes them, and of the creation of a thread. No step is possible while a `join` waits. -/
def Call.advance (s : DeviceStatusStore) (passed : Bool) : Call → Option (Call × DeviceStatusStore)
  | .start d pc rest => match pc with
    | .checks => some (.start d (if passed then .isActive else .markStartFailed) rest, s)
    | .isActive =>
      some (.start d (if s.isActive d then .markStartFailed else .takeThread) rest, s)
    | .takeThread =>
      some (.start d (.eraseStopFlag (s.takeThread d).1) rest, (s.takeThread d).2)
    | .eraseStopFlag stale => some (.start d (.join stale) rest, s.eraseStopFlag d)
    | .join stale =>
      if stale.all fun id => s.hasFinished id then some (.start d .createThread rest, s) else none
    | .createThread =>
      -- `device` was read from the row that the name found
      if passed then some (.start d (.addWorker s.nextWorker) rest, s.spawn (cString d))
      else some (.start d .markStartFailed rest, s)
    | .addWorker id => match s.addWorker d id with
      | some s' => some (.start d .done rest, s')
      | none => some (.start d .terminated rest, s)
    | .markStartFailed => some (.start d .done rest, s.markStartFailed d)
    | .done => match rest with
      | next :: rest => some (.start next .checks rest, s)
      | [] => none
    | .terminated => none
  | .stop d pc => match pc with
    | .deviceExists => some (.stop d (if passed then .requestStop else .done), s)
    | .requestStop =>
      some (.stop d (if (s.requestStop d).1 then .takeThread else .done), (s.requestStop d).2)
    | .takeThread => some (.stop d (.eraseStopFlag (s.takeThread d).1), (s.takeThread d).2)
    | .eraseStopFlag thread => some (.stop d (.join thread), s.eraseStopFlag d)
    | .join thread =>
      if thread.all fun id => s.hasFinished id then some (.stop d .markStopped, s) else none
    | .markStopped => some (.stop d .done, s.markStopped d)
    | .done => none
  | .stopAll pc => match pc with
    | .requestStopAll => some (.stopAll .takeAllThreads, s.requestStopAll)
    | .takeAllThreads => some (.stopAll (.join s.takeAllThreads.1), s.takeAllThreads.2)
    | .join [] => some (.stopAll .clearAllWorkers, s)
    | .join (id :: threads) =>
      if s.hasFinished id then some (.stopAll (.join threads), s) else none
    | .clearAllWorkers => some (.stopAll .done, s.clearAllWorkers)
    | .done => none

/-- What one step of a call can do. -/
inductive CallStep : Call → DeviceStatusStore → Call → DeviceStatusStore → Prop
  | nextStart {d next rest s} : CallStep (.start d .done (next :: rest)) s (.start next .checks rest) s
  | checksPassed {d rest s} : CallStep (.start d .checks rest) s (.start d .isActive rest) s
  | checksFailed {d rest s} : CallStep (.start d .checks rest) s (.start d .markStartFailed rest) s
  | alreadyRunning {d rest s} : d ∈ s.activeDevices →
    CallStep (.start d .isActive rest) s (.start d .markStartFailed rest) s
  | notRunning {d rest s} : d ∉ s.activeDevices →
    CallStep (.start d .isActive rest) s (.start d .takeThread rest) s
  | takeStale {d rest s} : CallStep (.start d .takeThread rest) s
    (.start d (.eraseStopFlag s.workerThreads[d]?) rest) (s.takeThread d).2
  | eraseStale {d rest stale s} : CallStep (.start d (.eraseStopFlag stale) rest) s
    (.start d (.join stale) rest) (s.eraseStopFlag d)
  | joinStale {d rest stale s} : (∀ id, stale = some id → s.hasFinished id = true) →
    CallStep (.start d (.join stale) rest) s (.start d .createThread rest) s
  | createThread {d rest s} : CallStep (.start d .createThread rest) s
    (.start d (.addWorker s.nextWorker) rest) (s.spawn (cString d))
  | noThread {d rest s} : CallStep (.start d .createThread rest) s (.start d .markStartFailed rest) s
  | addWorker {d rest id s s'} : s.addWorker d id = some s' →
    CallStep (.start d (.addWorker id) rest) s (.start d .done rest) s'
  | terminate {d rest id s} : s.addWorker d id = none →
    CallStep (.start d (.addWorker id) rest) s (.start d .terminated rest) s
  | markStartFailed {d rest s} : CallStep (.start d .markStartFailed rest) s (.start d .done rest)
    (s.markStartFailed d)
  | deviceFound {d s} : CallStep (.stop d .deviceExists) s (.stop d .requestStop) s
  | deviceMissing {d s} : CallStep (.stop d .deviceExists) s (.stop d .done) s
  | stopNotRunning {d s} : d ∉ s.activeDevices →
    CallStep (.stop d .requestStop) s (.stop d .done) s
  | requestStop {d s} : d ∈ s.activeDevices →
    CallStep (.stop d .requestStop) s (.stop d .takeThread) (s.requestStop d).2
  | takeThread {d s} : CallStep (.stop d .takeThread) s
    (.stop d (.eraseStopFlag s.workerThreads[d]?)) (s.takeThread d).2
  | eraseStopFlag {d thread s} : CallStep (.stop d (.eraseStopFlag thread)) s
    (.stop d (.join thread)) (s.eraseStopFlag d)
  | join {d thread s} : (∀ id, thread = some id → s.hasFinished id = true) →
    CallStep (.stop d (.join thread)) s (.stop d .markStopped) s
  | markStopped {d s} : CallStep (.stop d .markStopped) s (.stop d .done) (s.markStopped d)
  | requestStopAll {s} : CallStep (.stopAll .requestStopAll) s (.stopAll .takeAllThreads)
    s.requestStopAll
  | takeAllThreads {s} : CallStep (.stopAll .takeAllThreads) s
    (.stopAll (.join s.takeAllThreads.1)) s.takeAllThreads.2
  | joinNext {id threads s} : s.hasFinished id = true →
    CallStep (.stopAll (.join (id :: threads))) s (.stopAll (.join threads)) s
  | joinedAll {s} : CallStep (.stopAll (.join [])) s (.stopAll .clearAllWorkers) s
  | clearAllWorkers {s} : CallStep (.stopAll .clearAllWorkers) s (.stopAll .done) s.clearAllWorkers

theorem Call.advance_step {s s' : DeviceStatusStore} {passed : Bool} {c c' : Call}
    (h : c.advance s passed = some (c', s')) : CallStep c s c' s' := by
  cases c with
  | start d pc rest =>
    cases pc with
    | checks =>
      cases h
      cases passed
      · exact .checksFailed
      · exact .checksPassed
    | isActive =>
      cases h
      by_cases hactive : d ∈ s.activeDevices
      · simpa [isActive, hactive] using CallStep.alreadyRunning hactive
      · simpa [isActive, hactive] using CallStep.notRunning hactive
    | takeThread =>
      cases h
      exact .takeStale
    | eraseStopFlag stale =>
      cases h
      exact .eraseStale
    | join stale =>
      simp only [Call.advance] at h
      split at h
      · next hall =>
        cases h
        exact .joinStale (by simpa [Option.all_eq_true] using hall)
      · cases h
    | createThread =>
      cases passed
      · cases h
        exact .noThread
      · cases h
        exact .createThread
    | addWorker id =>
      simp only [Call.advance] at h
      split at h
      · next hadd =>
        cases h
        exact .addWorker hadd
      · next hadd =>
        cases h
        exact .terminate hadd
    | markStartFailed =>
      cases h
      exact .markStartFailed
    | done =>
      cases rest with
      | nil => cases h
      | cons next rest =>
        cases h
        exact .nextStart
    | terminated => cases h
  | stop d pc =>
    cases pc with
    | deviceExists =>
      cases h
      cases passed
      · exact .deviceMissing
      · exact .deviceFound
    | requestStop =>
      cases h
      by_cases hactive : d ∈ s.activeDevices
      · have hcontains : s.activeDevices.contains d = true := by simpa using hactive
        have htrue : (s.requestStop d).1 = true := by
          simp only [DeviceStatusStore.requestStop, hcontains, Bool.not_true, Bool.false_eq_true,
            if_false]
          split <;> rfl
        rw [htrue]
        exact .requestStop hactive
      · have hfalse : s.requestStop d = (false, s) := by
          simp [DeviceStatusStore.requestStop, hactive]
        rw [hfalse]
        exact .stopNotRunning hactive
    | takeThread =>
      cases h
      exact .takeThread
    | eraseStopFlag thread =>
      cases h
      exact .eraseStopFlag
    | join thread =>
      simp only [Call.advance] at h
      split at h
      · next hall =>
        cases h
        exact .join (by simpa [Option.all_eq_true] using hall)
      · cases h
    | markStopped =>
      cases h
      exact .markStopped
    | done => cases h
  | stopAll pc =>
    cases pc with
    | requestStopAll =>
      cases h
      exact .requestStopAll
    | takeAllThreads =>
      cases h
      exact .takeAllThreads
    | join threads =>
      cases threads with
      | nil =>
        cases h
        exact .joinedAll
      | cons id threads =>
        simp only [Call.advance] at h
        split at h
        · next hdone =>
          cases h
          exact .joinNext hdone
        · cases h
    | clearAllWorkers =>
      cases h
      exact .clearAllWorkers
    | done => cases h

/-- The steps of a call that runs alone, with any outcomes of its checks. -/
def Call.Alone (x y : Call × DeviceStatusStore) : Prop :=
  ∃ passed, x.1.advance x.2 passed = some y

/-- The start command of a service does what the call does alone. -/
theorem DataTask.startDeviceCollect_alone {models : ModelRepository} {d mid : Str} {w w' : Service}
    {r : CommandResult} (h : DataTask.startDeviceCollect models d mid w = some (r, w')) :
    Relation.ReflTransGen Call.Alone (.start d .checks [], w.registry)
      (.start d .done [], w'.registry) := by
  have hfail : ∀ s : DeviceStatusStore, Relation.ReflTransGen Call.Alone
      (.start d .markStartFailed [], s) (.start d .done [], s.markStartFailed d) :=
    fun s => .single ⟨true, rfl⟩
  unfold DataTask.startDeviceCollect at h
  rcases hrun : (DataTask.startChecks models d mid).run w.database with ⟨e | device, t⟩
  · simp only [hrun] at h
    cases h
    exact .head ⟨false, rfl⟩ (hfail w.registry)
  · simp only [hrun] at h
    refine .head (b := (.start d .isActive [], w.registry)) ⟨true, rfl⟩ ?_
    split at h
    · next hactive =>
      cases h
      refine .head ⟨true, ?_⟩ (hfail w.registry)
      simp only [Call.advance, hactive, if_true]
    · next hactive =>
      split at h
      · cases h
      · next hjoin =>
        obtain ⟨s, hadd, heq⟩ := Option.map_eq_some_iff.mp h
        cases heq
        rw [DataTask.startChecks_name hrun] at hadd
        have htake : Call.Alone (.start d .isActive [], w.registry)
            (.start d .takeThread [], w.registry) := by
          refine ⟨true, ?_⟩
          simp only [Call.advance, Bool.eq_false_iff.mpr hactive, Bool.false_eq_true, if_false]
        have hjoined : Call.Alone
            (.start d (.join (w.registry.takeThread d).1) [],
              (w.registry.takeThread d).2.eraseStopFlag d)
            (.start d .createThread [], (w.registry.takeThread d).2.eraseStopFlag d) := by
          refine ⟨true, ?_⟩
          have hall : ((w.registry.takeThread d).1.all fun id =>
              ((w.registry.takeThread d).2.eraseStopFlag d).hasFinished id) = true := by
            cases hthread : (w.registry.takeThread d).1 <;> simp_all
          simp only [Call.advance, hall, if_true]
        have hadded : Call.Alone
            (.start d (.addWorker ((w.registry.takeThread d).2.eraseStopFlag d).nextWorker) [],
              ((w.registry.takeThread d).2.eraseStopFlag d).spawn (cString d))
            (.start d .done [], s) := by
          refine ⟨true, ?_⟩
          simp only [Call.advance, hadd]
        exact .head htake (.head ⟨true, rfl⟩ (.head ⟨true, rfl⟩ (.head hjoined
          (.head ⟨true, rfl⟩ (.single hadded)))))

/-- The device whose start is about to be marked as failed. -/
def Call.failing : Call → Option Str
  | .start d .markStartFailed _ => some d
  | _ => none

/-- The worker that a start has created and not registered yet. -/
def Call.created : Call → Option ℕ
  | .start _ (.addWorker id) _ => some id
  | _ => none

/-! ## 2. The system -/

/-- The registry and the calls on it, the latest first. -/
structure System where
  registry : DeviceStatusStore
  calls : List Call

/-- What a session can ask for. The names of a `startAll` are those of the rows it has read. -/
inductive WorkerCommand where
  | startDeviceCollect (deviceName : Str)
  | startAll (deviceNames : List Str)
  | stopDeviceCollect (deviceName : Str)
  | stopAll
  deriving DecidableEq

/-- The call at its first line. -/
def WorkerCommand.begin : WorkerCommand → Call
  | .startDeviceCollect d => .start d .checks []
  | .startAll names => .start [] .done names
  | .stopDeviceCollect d => .stop d .deviceExists
  | .stopAll => .stopAll .requestStopAll

/-- The names to be started have no NUL byte. -/
def WorkerCommand.Plain : WorkerCommand → Prop
  | .startDeviceCollect d => cString d = d
  | .startAll names => ∀ d ∈ names, cString d = d
  | .stopDeviceCollect _ | .stopAll => True

instance : DecidablePred WorkerCommand.Plain
  | .startDeviceCollect d => inferInstanceAs (Decidable (cString d = d))
  | .startAll names => inferInstanceAs (Decidable (∀ d ∈ names, cString d = d))
  | .stopDeviceCollect _ | .stopAll => .isTrue trivial

inductive Action where
  | call (command : WorkerCommand)
  /-- Call `i` makes its next step; `passed` is the outcome of its database checks. -/
  | advance (i : ℕ) (passed : Bool)
  /-- Worker `id` leaves its loop. -/
  | finish (id : ℕ)
  /-- Worker `id` ends a cycle. -/
  | publish (id : ℕ) (status : DeviceStatus)
  deriving DecidableEq

/-- The last call of a worker, and the end of its thread. -/
def DeviceStatusStore.finish (s : DeviceStatusStore) (id : ℕ) (deviceName : Str) :
    DeviceStatusStore :=
  { s.markStopped deviceName with
    workers := s.workers.modify id fun worker => { worker with finished := true } }

/-- The registry after a step of the worker `id`; `none` when there is no such worker, or it has
finished. -/
def DeviceStatusStore.workerStep (s : DeviceStatusStore) (id : ℕ)
    (f : Worker → DeviceStatusStore) : Option DeviceStatusStore :=
  match s.workers[id]? with
  | some worker => if worker.finished then none else some (f worker)
  | none => none

def System.step (s : System) : Action → Option System
  | .call command => some { s with calls := command.begin :: s.calls }
  | .advance i passed => do
    let (c, r) ← (← s.calls[i]?).advance s.registry passed
    some ⟨r, s.calls.set i c⟩
  | .finish id => do
    some { s with registry := ← s.registry.workerStep id fun w => s.registry.finish id w.deviceName }
  | .publish id status => do
    some { s with registry := ← s.registry.workerStep id fun w =>
      s.registry.setLatestStatus { status with deviceName := w.deviceName } }

/-- No call has been made yet. -/
def System.initial : System := ⟨{}, []⟩

/-- No command is executing. -/
def System.Idle (s : System) : Prop := ∀ c ∈ s.calls, c.isDone = true

instance (s : System) : Decidable s.Idle := inferInstanceAs (Decidable (∀ c ∈ s.calls, _))

/-- What one step of the system can do. -/
inductive System.Step : System → Action → System → Prop
  | call {s command} : Step s (.call command) { s with calls := command.begin :: s.calls }
  | advance {s i passed c c' r} : s.calls[i]? = some c → CallStep c s.registry c' r →
    Step s (.advance i passed) ⟨r, s.calls.set i c'⟩
  | finish {s id worker} : s.registry.workers[id]? = some worker → worker.finished = false →
    Step s (.finish id) { s with registry := s.registry.finish id worker.deviceName }
  | publish {s id status status'} :
    Step s (.publish id status) { s with registry := s.registry.setLatestStatus status' }

theorem workerStep_eq_some {s s' : DeviceStatusStore} {id : ℕ} {f : Worker → DeviceStatusStore}
    (h : s.workerStep id f = some s') :
    ∃ worker, s.workers[id]? = some worker ∧ worker.finished = false ∧ s' = f worker := by
  unfold workerStep at h
  split at h
  · next worker hworker =>
    split at h
    · cases h
    · next hfinished =>
      cases h
      exact ⟨worker, hworker, by simpa using hfinished, rfl⟩
  · cases h

theorem System.step_cases {s s' : System} {a : Action} (h : s.step a = some s') :
    System.Step s a s' := by
  cases a with
  | call command =>
    cases h
    exact .call
  | advance i passed =>
    obtain ⟨c, hc, h⟩ := Option.bind_eq_some_iff.mp h
    obtain ⟨⟨c', r⟩, hadvance, h⟩ := Option.bind_eq_some_iff.mp h
    cases h
    exact .advance hc (Call.advance_step hadvance)
  | finish id =>
    obtain ⟨r, hr, h⟩ := Option.bind_eq_some_iff.mp h
    obtain ⟨worker, hworker, hfinished, rfl⟩ := workerStep_eq_some hr
    cases h
    exact .finish hworker hfinished
  | publish id status =>
    obtain ⟨r, hr, h⟩ := Option.bind_eq_some_iff.mp h
    obtain ⟨worker, -, -, rfl⟩ := workerStep_eq_some hr
    cases h
    exact .publish

end CollectorService
