import CollectorService.DeviceTask
import CollectorService.Shutdown

/-!
# The loop of a worker

`runDeviceTask` around its cycles: the test of the stop flag, the cycle, the sleep in slices, and the
last `markStopped`. Other threads change the database and the registry between any two steps, of which
a cycle is one; they set stop flags and clear none (`flagged_step`).

* `Counted.cycle`: what a cycle counts and publishes.
* `countsFailures_of_reach`: in every run of a worker, each status that it publishes is what the
  outcomes so far come to, and it leaves its loop at the fifth failure in a row.
-/

namespace CollectorService

open DeviceTask

/-! ## 1. The loop -/

/-- Where the worker stands. -/
inductive LoopPc where
  /-- Before `while (!*stopFlag)`. -/
  | test
  /-- In front of a cycle; the flag was clear. -/
  | cycle
  /-- In `sleepUntilNextCycle`, after so many milliseconds. -/
  | sleep (slept : ℤ)
  /-- Behind the loop. -/
  | leaving
  /-- Behind `markStopped`. -/
  | stopped
  deriving DecidableEq

/-- How a cycle has ended: with a success at this time, or with an exception. -/
inductive CycleOutcome where
  | succeeded (time : Double)
  | failed
  deriving DecidableEq

def DeviceTask.CycleResult.outcome (time : Double) : CycleResult → CycleOutcome
  | .succeeded _ => .succeeded time
  | .failed | .gaveUp => .failed

/-- A worker and what it shares with other threads. -/
structure WorkerLoop where
  id : ℕ
  database : Database
  registry : DeviceStatusStore
  task : TaskState
  pc : LoopPc := .test
  /-- The outcomes of its cycles, the latest first. -/
  past : List CycleOutcome := []

inductive LoopAction where
  | test
  | cycle (models : ModelRepository) (input : CycleInput) (fault : ℕ → Option Str)
  | sleep
  | markStopped
  /-- What other threads do to the database and the registry. -/
  | elsewhere (database : Database) (registry : DeviceStatusStore)

/-- One turn of the loop of `sleepUntilNextCycle`; `none` when it is over. -/
def sleepUntilNextCycle (sampleIntervalMs : ℤ) (stopFlag : Bool) (slept : ℤ) : Option ℤ :=
  let interval := max sampleIntervalMs 100
  if stopFlag = false ∧ slept < interval then
    let remaining := interval - slept
    some (slept + if remaining < 100 then remaining else 100)
  else none

namespace WorkerLoop

def stopFlag (run : WorkerLoop) : Bool := run.registry.workers[run.id]?.any (·.stopFlag)

/-- The run after a cycle; the fifth failure in a row leaves the loop without a sleep. -/
def afterCycle (run : WorkerLoop) (models : ModelRepository) (input : CycleInput)
    (fault : ℕ → Option Str) : WorkerLoop :=
  let (result, s) := runCycle models input
    { conn := { tables := run.database, fault }, registry := run.registry, task := run.task }
  { run with
    database := s.conn.tables
    registry := s.registry
    task := s.task
    pc := if result = .gaveUp then .leaving else .sleep 0
    past := result.outcome input.statusTime :: run.past }

def step (run : WorkerLoop) : LoopAction → Option WorkerLoop
  | .test => match run.pc with
    | .test => some { run with pc := if run.stopFlag then .leaving else .cycle }
    | _ => none
  | .cycle models input fault => match run.pc with
    | .cycle => some (run.afterCycle models input fault)
    | _ => none
  | .sleep => match run.pc with
    | .sleep slept =>
      match sleepUntilNextCycle run.task.device.sampleIntervalMs run.stopFlag slept with
      | some slept => some { run with pc := .sleep slept }
      | none => some { run with pc := .test }
    | _ => none
  | .markStopped => match run.pc with
    | .leaving => some { run with
        registry := run.registry.finish run.id run.task.device.name
        pc := .stopped }
    | _ => none
  | .elsewhere database registry => some { run with database, registry }

/-- The steps of the worker itself. -/
def ownStep (run : WorkerLoop) : LoopAction → Option WorkerLoop
  | .elsewhere _ _ => none
  | action => run.step action

/-- Other threads do not clear the stop flag. -/
def Admitted (run : WorkerLoop) : LoopAction → Prop
  | .elsewhere _ registry => run.registry.Flagged run.id → registry.Flagged run.id
  | _ => True

/-- A worker that a start has created for the device it has checked. -/
structure Started (start : WorkerLoop) : Prop where
  checked : ∃ (models : ModelRepository) (deviceName mid : Str) (t t' : Database),
    (DataTask.startChecks models deviceName mid).run t = (.ok start.task.device, t')
  entered : ∃ now, start.task = .enter start.task.device now
  pc : start.pc = .test
  past : start.past = []

end WorkerLoop

/-! ## 2. What is counted -/

/-- The length of the run of failures at the end. -/
def failures (past : List CycleOutcome) : ℕ := (past.takeWhile (· = .failed)).length

/-- The time of the latest successful cycle, or 0. -/
def lastSuccess : List CycleOutcome → Double
  | [] => .ofRat 0
  | .succeeded time :: _ => time
  | .failed :: past => lastSuccess past

/-- The latest cycle succeeded. -/
def Succeeded (past : List CycleOutcome) : Prop := ∃ time, past.head? = some (.succeeded time)

/-- A status shows what the outcomes of the cycles come to. -/
structure Shows (past : List CycleOutcome) (status : DeviceStatus) : Prop where
  failCount : status.failCount = failures past
  error : status.error = [] ↔ Succeeded past
  connected : status.connected = true ↔ Succeeded past
  lastSuccessTime : status.lastSuccessTime = lastSuccess past

/-- The variables of the worker count the outcomes. -/
structure Counted (name : Str) (past : List CycleOutcome) (task : TaskState) : Prop where
  deviceName : task.device.name = name
  statusName : task.status.deviceName = name
  failCount : task.failCount = failures past
  lastSuccessTime : task.status.lastSuccessTime = lastSuccess past

/-- A cycle that began with this registry has published what the outcomes come to. -/
structure Published (name : Str) (past : List CycleOutcome) (registry registry' : DeviceStatusStore)
    (task : TaskState) : Prop where
  counted : Counted name past task
  shows : Shows past task.status
  registry : registry' = registry.setLatestStatus task.status

section Cycle
variable {name : SqlText} {registry : DeviceStatusStore} {past : List CycleOutcome}
  {models : ModelRepository} {input : CycleInput}
  {s s' : CycleState} {result : CycleResult} {time : Double} {now : ℤ} {device : Device}

@[simp] theorem failures_succeeded : failures (.succeeded time :: past) = 0 := rfl

@[simp] theorem failures_failed : failures (.failed :: past) = failures past + 1 := rfl

theorem counted_enter (h : device.name = name.bytes) :
    Counted name.bytes [] (.enter device now) := ⟨h, h, rfl, rfl⟩

theorem Counted.at (h : Counted name.bytes past s.task) (stage : String) :
    Counted name.bytes past (s.at stage).task :=
  ⟨h.deviceName, h.statusName, h.failCount, h.lastSuccessTime⟩

/-- A cleanup changes the timer at most. -/
theorem Counted.cleanup (h : Counted name.bytes past s.task) (hstep : CleanupStep now s s') :
    Counted name.bytes past s'.task ∧ s'.registry = s.registry := by
  cases hstep <;>
    exact ⟨⟨h.deviceName, h.statusName, h.failCount, h.lastSuccessTime⟩, rfl⟩

theorem Counted.succeed (h : Counted name.bytes past s.task) (hregistry : s.registry = registry)
    (response : Str) (time : Double) :
    Published name.bytes (.succeeded time :: past) registry (s.succeed response time).registry
      (s.succeed response time).task where
  counted := ⟨h.deviceName, h.statusName, rfl, rfl⟩
  shows := ⟨rfl, iff_of_true rfl ⟨time, rfl⟩, iff_of_true rfl ⟨time, rfl⟩, rfl⟩
  registry := by
    rw [← hregistry]
    rfl

theorem Counted.fail (h : Counted name.bytes past s.task) (hregistry : s.registry = registry)
    (e : Str) : Published name.bytes (.failed :: past) registry (s.fail e).registry
      (s.fail e).task := by
  have hcount : s.task.failCount + 1 = failures (.failed :: past) := by
    rw [h.failCount, failures_failed, Nat.cast_succ]
  have hnot : ¬ Succeeded (.failed :: past) := by
    rintro ⟨time, hhead⟩
    cases hhead
  have herror : (s.fail e).task.status.error ≠ [] := by
    show s.task.stage ++ lit " failed: " ++ cString e ≠ []
    intro hnil
    have hempty : lit " failed: " = [] :=
      (List.append_eq_nil_iff.mp (List.append_eq_nil_iff.mp hnil).1).2
    exact absurd hempty (by decide)
  exact ⟨⟨h.deviceName, h.statusName, hcount, h.lastSuccessTime⟩,
    ⟨hcount, iff_of_false herror hnot, iff_of_false Bool.false_ne_true hnot, h.lastSuccessTime⟩,
    by rw [← hregistry]; rfl⟩

theorem Published.statuses {registry' : DeviceStatusStore} {task : TaskState}
    (h : Published name.bytes past registry registry' task) :
    registry'.statuses[name.bytes]? = some task.status := by
  rw [h.registry, ← h.counted.statusName]
  exact Std.ExtTreeMap.getElem?_insert_self

/-- The variables of a cycle that has come to its end, up to the status. -/
theorem Counted.same {task task' : TaskState} (h : Counted name.bytes past task)
    (hsame : task.Same task') : Counted name.bytes past task' :=
  ⟨hsame.name.trans h.deviceName, hsame.statusName.trans h.statusName,
    hsame.failCount.trans h.failCount, hsame.lastSuccessTime.trans h.lastSuccessTime⟩

/-- A cycle publishes what the outcomes come to, and gives up at the fifth failure in a row. -/
theorem Counted.cycle (h : Counted name.bytes past s.task)
    (hrun : runCycle models input s = (result, s')) :
    let past' := result.outcome input.statusTime :: past
    Published name.bytes past' s.registry s'.registry s'.task ∧
      (result = .gaveUp ↔ 5 ≤ failures past') := by
  have hends := insertNext_ends models input (s.at "prepare") name h.deviceName _ rfl
  have hstep := runCycle_step models input s
  rw [hrun] at hstep
  cases hstep with
  | succeeded hinsert hcleanup =>
    rw [hinsert] at hends
    obtain ⟨-, -, hregistry, hsame⟩ := hends
    obtain ⟨hcounted, hregistry'⟩ :=
      Counted.cleanup (Counted.at ((h.at "prepare").same hsame) "close") hcleanup
    exact ⟨hcounted.succeed (hregistry'.trans hregistry) _ input.statusTime,
      iff_of_false nofun (by simp [CycleResult.outcome])⟩
  | failed hinsert hbelow =>
    rw [hinsert] at hends
    obtain ⟨-, hregistry, hsame⟩ := hends
    have hcounted := (h.at "prepare").same hsame
    refine ⟨hcounted.fail hregistry _, iff_of_false nofun ?_⟩
    rw [hcounted.failCount] at hbelow
    show ¬ 5 ≤ failures past + 1
    omega
  | gaveUp hinsert hlimit =>
    rw [hinsert] at hends
    obtain ⟨-, hregistry, hsame⟩ := hends
    have hcounted := (h.at "prepare").same hsame
    refine ⟨hcounted.fail hregistry _, iff_of_true rfl ?_⟩
    rw [hcounted.failCount] at hlimit
    show 5 ≤ failures past + 1
    omega

end Cycle

/-! ## 3. Runs -/

section Flags
variable {s s' : DeviceStatusStore} {c c' : Call} {i : ℕ} {d : Str}

theorem flagged_requestStop (h : s.Flagged i) : (s.requestStop d).2.Flagged i := by
  unfold DeviceStatusStore.requestStop
  split
  · exact h
  split
  · obtain ⟨worker, hworker, hflag⟩ := h
    refine ⟨_, by rw [DeviceStatusStore.setFlag, List.getElem?_modify, hworker]; rfl, ?_⟩
    split
    · rfl
    · exact hflag
  · exact h

theorem CallStep.flagged (hstep : CallStep c s c' s') (h : s.Flagged i) : s'.Flagged i := by
  cases hstep with
  | createThread =>
    obtain ⟨worker, hworker, hflag⟩ := h
    have hlt := (List.getElem?_eq_some_iff.mp hworker).1
    exact ⟨worker, (List.getElem?_append_left hlt).trans hworker, hflag⟩
  | addWorker hadd =>
    unfold DeviceStatusStore.addWorker at hadd
    split at hadd
    · cases hadd
      exact h
    · cases hadd
  | requestStop => exact flagged_requestStop h
  | requestStopAll =>
    obtain ⟨worker, hworker, hflag⟩ := h
    refine ⟨_, (getElem?_foldl_setFlag _ _ _).trans (by rw [hworker]; rfl), ?_⟩
    show (worker.stopFlag || _) = true
    rw [hflag, Bool.true_or]
  | _ => exact h

/-- No step of the system clears a stop flag. -/
theorem flagged_step {s s' : System} {action : Action} (hstep : s.step action = some s')
    (h : s.registry.Flagged i) : s'.registry.Flagged i := by
  cases System.step_cases hstep with
  | call | publish => exact h
  | advance _ hcall => exact hcall.flagged h
  | finish => exact DeviceStatusStore.flagged_finish h

end Flags

/-- Only the entries of this device, and the worker itself, are taken out of the registry. -/
structure MarksOnly (name : Str) (id : ℕ) (s s' : DeviceStatusStore) : Prop where
  own : name ∉ s'.activeDevices ∧ s'.stopFlags[name]? = none
  others : ∀ d ≠ name, (d ∈ s'.activeDevices ↔ d ∈ s.activeDevices) ∧
    s'.stopFlags[d]? = s.stopFlags[d]?
  workers : ∀ i ≠ id, s'.workers[i]? = s.workers[i]?
  threads : s'.workerThreads = s.workerThreads
  statuses : s'.statuses = s.statuses

/-- The worker has not left its loop. -/
def LoopPc.inLoop : LoopPc → Bool
  | .test | .cycle | .sleep _ => true
  | .leaving | .stopped => false

namespace WorkerLoop

/-- What holds of a worker of this name at any point of its run. -/
structure Sound (name : Str) (run : WorkerLoop) : Prop where
  counted : Counted name run.past run.task
  inLoop : run.pc.inLoop = true → failures run.past < 5
  left : run.pc.inLoop = false → 5 ≤ failures run.past ∨ run.stopFlag = true
  first : ∀ before, before <:+ run.past → before ≠ run.past → failures before < 5

section Step
variable {run run' start : WorkerLoop} {name : SqlText} {action : LoopAction}

theorem stopFlag_iff : run.stopFlag = true ↔ run.registry.Flagged run.id := by
  rw [stopFlag, Option.any_eq_true, DeviceStatusStore.Flagged]

theorem sleepUntilNextCycle_eq_some {sampleIntervalMs slept slept' : ℤ} {flag : Bool}
    (h : sleepUntilNextCycle sampleIntervalMs flag slept = some slept') :
    flag = false ∧ slept < slept' ∧ slept < max sampleIntervalMs 100 := by
  simp only [sleepUntilNextCycle] at h
  split at h
  · next hsleeps =>
    refine ⟨hsleeps.1, ?_, hsleeps.2⟩
    rw [Option.some.injEq] at h
    split at h <;> omega
  · cases h

/-- What one step of the loop can do. -/
inductive Step (run : WorkerLoop) : WorkerLoop → Prop
  | observe : run.pc = .test → run.stopFlag = true → Step run { run with pc := .leaving }
  | enter : run.pc = .test → run.stopFlag = false → Step run { run with pc := .cycle }
  | cycle (models : ModelRepository) (input : CycleInput) (fault : ℕ → Option Str) :
      run.pc = .cycle → Step run (run.afterCycle models input fault)
  | sleep {slept slept' : ℤ} : run.pc = .sleep slept → run.stopFlag = false → slept < slept' →
      slept < max run.task.device.sampleIntervalMs 100 → Step run { run with pc := .sleep slept' }
  | wake {slept : ℤ} : run.pc = .sleep slept → Step run { run with pc := .test }
  | markStopped : run.pc = .leaving → Step run { run with
      registry := run.registry.finish run.id run.task.device.name
      pc := .stopped }

theorem step_cases (h : run.step action = some run') : Step run run' ∨
    ∃ database registry, action = .elsewhere database registry ∧
      run' = { run with database, registry } := by
  cases action with
  | test =>
    simp only [WorkerLoop.step] at h
    split at h
    · next hpc =>
      cases h
      cases hflag : run.stopFlag with
      | true => exact .inl (.observe hpc hflag)
      | false => exact .inl (.enter hpc hflag)
    · cases h
  | cycle models input fault =>
    simp only [WorkerLoop.step] at h
    split at h
    · next hpc =>
      cases h
      exact .inl (.cycle models input fault hpc)
    · cases h
  | sleep =>
    simp only [WorkerLoop.step] at h
    split at h
    · next slept hpc =>
      split at h
      · next slept' hslept =>
        cases h
        obtain ⟨hflag, hlater, hlt⟩ := sleepUntilNextCycle_eq_some hslept
        exact .inl (.sleep hpc hflag hlater hlt)
      · cases h
        exact .inl (.wake hpc)
    · cases h
  | markStopped =>
    simp only [WorkerLoop.step] at h
    split at h
    · next hpc =>
      cases h
      exact .inl (.markStopped hpc)
    · cases h
  | elsewhere database registry =>
    cases h
    exact .inr ⟨database, registry, rfl, rfl⟩

theorem marksOnly_finish (s : DeviceStatusStore) (id : ℕ) (d : Str) :
    MarksOnly d id s (s.finish id d) where
  own := by simp [DeviceStatusStore.finish, DeviceStatusStore.markStopped]
  others e he := by
    simp [DeviceStatusStore.finish, DeviceStatusStore.markStopped, Std.ExtTreeMap.getElem?_erase,
      he.symm]
  workers i hi := List.getElem?_modify_ne _ _ hi.symm
  threads := rfl
  statuses := rfl

/-- A cycle of a worker in its loop. -/
theorem afterCycle_published (h : Counted name.bytes run.past run.task) (models : ModelRepository)
    (input : CycleInput) (fault : ℕ → Option Str) :
    let run' := run.afterCycle models input fault
    ∃ outcome, run'.past = outcome :: run.past ∧
      Published name.bytes run'.past run.registry run'.registry run'.task ∧
      run'.pc = if 5 ≤ failures run'.past then .leaving else .sleep 0 := by
  have hcycle := Counted.cycle (s := ⟨{ tables := run.database, fault }, run.registry, run.task⟩) h
    (Prod.eta (runCycle models input _)).symm
  exact ⟨_, rfl, hcycle.1, if_congr hcycle.2 rfl rfl⟩

theorem stopFlag_afterCycle (h : Counted name.bytes run.past run.task) (models : ModelRepository)
    (input : CycleInput) (fault : ℕ → Option Str) :
    (run.afterCycle models input fault).stopFlag = run.stopFlag := by
  obtain ⟨outcome, -, hpublished, -⟩ := afterCycle_published h models input fault
  rw [stopFlag, hpublished.registry]
  rfl

theorem Started.sound (h : Started start) : ∃ name : SqlText, start.task.device.name = name.bytes ∧
    Sound name.bytes start := by
  obtain ⟨models, deviceName, mid, t, t', hchecks⟩ := h.checked
  obtain ⟨now, htask⟩ := h.entered
  have hname : start.task.device.name = (bindText deviceName).bytes :=
    DataTask.startChecks_name hchecks
  refine ⟨bindText deviceName, hname, ?_, ?_, ?_, ?_⟩
  · rw [h.past, htask]
    exact counted_enter hname
  · intro _
    rw [h.past]
    decide
  · rw [h.pc]
    rintro ⟨⟩
  · intro before hbefore hne
    rw [h.past, List.suffix_nil] at hbefore
    exact absurd (hbefore.trans h.past.symm) hne

theorem Sound.step (h : Sound name.bytes run) (hok : Admitted run action)
    (hstep : run.step action = some run') : Sound name.bytes run' := by
  rcases step_cases hstep with hown | ⟨database, registry, rfl, rfl⟩
  · cases hown with
    | observe hpc hflag => exact ⟨h.counted, nofun, fun _ => .inr hflag, h.first⟩
    | enter hpc hflag => exact ⟨h.counted, fun _ => h.inLoop (by rw [hpc]; rfl), nofun, h.first⟩
    | sleep hpc => exact ⟨h.counted, fun _ => h.inLoop (by rw [hpc]; rfl), nofun, h.first⟩
    | wake hpc => exact ⟨h.counted, fun _ => h.inLoop (by rw [hpc]; rfl), nofun, h.first⟩
    | markStopped hpc =>
      refine ⟨h.counted, nofun, fun _ => ?_, h.first⟩
      exact (h.left (by rw [hpc]; rfl)).imp_right fun hflag =>
        stopFlag_iff.mpr (DeviceStatusStore.flagged_finish (stopFlag_iff.mp hflag))
    | cycle models input fault hpc =>
      obtain ⟨outcome, hpast, hpublished, hpc'⟩ := afterCycle_published h.counted models input fault
      have hbelow := h.inLoop (by rw [hpc]; rfl)
      refine ⟨hpublished.counted, fun hin => ?_, fun hout => ?_, fun before hbefore hne => ?_⟩
      · rw [hpc'] at hin
        split at hin
        · cases hin
        · next hfew => exact not_le.mp hfew
      · rw [hpc'] at hout
        split at hout
        · next hlimit => exact .inl hlimit
        · cases hout
      · -- the cycle was begun before the limit
        rw [hpast] at hbefore hne
        rcases List.suffix_cons_iff.mp hbefore with heq | hsuffix
        · exact absurd heq hne
        · rcases eq_or_ne before run.past with rfl | hne'
          · exact hbelow
          · exact h.first before hsuffix hne'
  · refine ⟨h.counted, h.inLoop, fun hout => (h.left hout).imp_right fun hflag => ?_, h.first⟩
    exact stopFlag_iff.mpr (hok (stopFlag_iff.mp hflag))

end Step

/-! ## 4. Where a worker comes to -/

section Progress
variable {run run' : WorkerLoop} {name : SqlText} {action : LoopAction}

theorem ownStep_cases (h : run.ownStep action = some run') :
    Step run run' ∧ run.step action = some run' ∧ Admitted run action := by
  have hstep : run.step action = some run' ∧ ∀ database registry,
      action ≠ .elsewhere database registry := by
    cases action with
    | elsewhere database registry => cases h
    | test | cycle | sleep | markStopped => exact ⟨h, nofun⟩
  refine ⟨?_, hstep.1, ?_⟩
  · rcases step_cases hstep.1 with hown | ⟨database, registry, helsewhere, -⟩
    · exact hown
    · exact absurd helsewhere (hstep.2 database registry)
  · cases action with
    | elsewhere database registry => exact absurd rfl (hstep.2 database registry)
    | test | cycle | sleep | markStopped => trivial

/-- No driver listens. -/
def noDriver : CycleInput where
  connect _ _ := false
  answer _ := .error []
  cidTime := 0
  responseTime := default
  now := 0
  statusTime := default

/-- A worker can always go on until it has stopped. -/
theorem exists_ownStep (h : run.pc ≠ .stopped) : ∃ action run', run.ownStep action = some run' := by
  cases hpc : run.pc with
  | test =>
    refine ⟨.test, ?_⟩
    simp only [ownStep, WorkerLoop.step, hpc]
    exact ⟨_, rfl⟩
  | cycle =>
    refine ⟨.cycle noModels noDriver fun _ => none, ?_⟩
    simp only [ownStep, WorkerLoop.step, hpc]
    exact ⟨_, rfl⟩
  | sleep slept =>
    refine ⟨.sleep, ?_⟩
    simp only [ownStep, WorkerLoop.step, hpc]
    cases sleepUntilNextCycle run.task.device.sampleIntervalMs run.stopFlag slept <;> exact ⟨_, rfl⟩
  | leaving =>
    refine ⟨.markStopped, ?_⟩
    simp only [ownStep, WorkerLoop.step, hpc]
    exact ⟨_, rfl⟩
  | stopped => exact absurd hpc h

/-- How far the next cycle is. -/
def untilCycle (run : WorkerLoop) : ℕ :=
  match run.pc with
  | .sleep slept => 2 + (max run.task.device.sampleIntervalMs 100 - slept).toNat
  | .test => 1
  | .cycle | .leaving | .stopped => 0

/-- A worker in its loop, whose stop flag is clear, comes to its next cycle. -/
theorem inevitable_cycle (hin : run.pc.inLoop = true) (hflag : run.stopFlag = false) :
    Steps.Inevitable ownStep (fun r => ∃ outcome, r.past = outcome :: run.past) run := by
  refine .of_rank (I := fun r => r.pc.inLoop = true ∧ r.stopFlag = false ∧ r.past = run.past)
    untilCycle ?_ ?_ ⟨hin, hflag, rfl⟩
  · rintro r ⟨hin, -, -⟩ -
    exact exists_ownStep fun hpc => by rw [hpc] at hin; cases hin
  · rintro r action r' ⟨hin, hflag, hpast⟩ - hstep
    obtain ⟨hown, -, -⟩ := ownStep_cases hstep
    cases hown with
    | observe hpc hset =>
      rw [hflag] at hset
      cases hset
    | enter hpc => exact .inr ⟨⟨rfl, hflag, hpast⟩, by simp [untilCycle, hpc]⟩
    | cycle models input fault => exact .inl ⟨_, by rw [← hpast]; rfl⟩
    | sleep hpc _ hlater hlt =>
      refine .inr ⟨⟨rfl, hflag, hpast⟩, ?_⟩
      simp only [untilCycle, hpc]
      omega
    | wake hpc =>
      refine .inr ⟨⟨rfl, hflag, hpast⟩, ?_⟩
      simp only [untilCycle, hpc]
      omega
    | markStopped hpc =>
      rw [hpc] at hin
      cases hin

/-- How far the end is, behind the stop flag. -/
def untilStopped (run : WorkerLoop) : ℕ :=
  match run.pc with
  | .cycle => 4
  | .sleep _ => 3
  | .test => 2
  | .leaving => 1
  | .stopped => 0

/-- A worker that has left its loop, or whose stop flag is set, comes to its end. -/
theorem inevitable_stopped (h : Sound name.bytes run)
    (hends : run.pc.inLoop = false ∨ run.stopFlag = true) :
    Steps.Inevitable ownStep (fun r => r.pc = .stopped) run := by
  refine .of_rank (I := fun r => Sound name.bytes r ∧ (r.pc.inLoop = false ∨ r.stopFlag = true))
    untilStopped (fun r _ hpc => exists_ownStep hpc) ?_ ⟨h, hends⟩
  rintro r action r' ⟨h, hends⟩ - hstep
  obtain ⟨hown, hstep, hok⟩ := ownStep_cases hstep
  have h' := h.step hok hstep
  have hset (hin : r.pc.inLoop = true) : r.stopFlag = true :=
    hends.resolve_left (by rw [hin]; exact Bool.noConfusion)
  cases hown with
  | observe hpc hflag => exact .inr ⟨⟨h', .inl rfl⟩, by simp [untilStopped, hpc]⟩
  | enter hpc hclear =>
    rw [hset (by rw [hpc]; rfl)] at hclear
    cases hclear
  | cycle models input fault hpc =>
    have hflag := hset (by rw [hpc]; rfl)
    refine .inr ⟨⟨h', .inr ((stopFlag_afterCycle h.counted models input fault).trans hflag)⟩, ?_⟩
    obtain ⟨outcome, -, -, hpc'⟩ := afterCycle_published h.counted models input fault
    rw [untilStopped, untilStopped, hpc', hpc]
    cases Nat.decLe 5 (failures (r.afterCycle models input fault).past) with
    | isTrue hlimit =>
      rw [if_pos hlimit]
      decide
    | isFalse hfew =>
      rw [if_neg hfew]
      decide
  | sleep hpc hclear =>
    rw [hset (by rw [hpc]; rfl)] at hclear
    cases hclear
  | wake hpc => exact .inr ⟨⟨h', .inr (hset (by rw [hpc]; rfl))⟩, by simp [untilStopped, hpc]⟩
  | markStopped hpc => exact .inl rfl

/-- Once the stop flag is set, a worker that is not in a cycle begins none. -/
theorem past_of_stopFlag (hflag : run.stopFlag = true) (hpc : run.pc ≠ .cycle)
    (h : Steps.Reach WorkerLoop.step Admitted run run') : run'.past = run.past := by
  have hinv : run'.stopFlag = true ∧ run'.pc ≠ .cycle ∧ run'.past = run.past := by
    refine h.invariant (I := fun r => r.stopFlag = true ∧ r.pc ≠ .cycle ∧ r.past = run.past)
      ⟨hflag, hpc, rfl⟩ ?_
    rintro r action r' ⟨hflag, hpc, hpast⟩ hok hstep
    rcases step_cases hstep with hown | ⟨database, registry, rfl, rfl⟩
    · cases hown with
      | observe => exact ⟨hflag, nofun, hpast⟩
      | enter _ hclear =>
        rw [hflag] at hclear
        cases hclear
      | cycle _ _ _ hcycle => exact absurd hcycle hpc
      | sleep => exact ⟨hflag, nofun, hpast⟩
      | wake => exact ⟨hflag, nofun, hpast⟩
      | markStopped =>
        exact ⟨stopFlag_iff.mpr (DeviceStatusStore.flagged_finish (stopFlag_iff.mp hflag)), nofun, hpast⟩
    · exact ⟨stopFlag_iff.mpr (hok (stopFlag_iff.mp hflag)), hpc, hpast⟩
  exact hinv.2.2

end Progress

/-! ## 5. Failure counting -/

/-- What holds of the worker of a device at any point of its run. -/
structure CountsFailures (name : Str) (run : WorkerLoop) : Prop where
  /-- A cycle adds its outcome, and publishes what the outcomes come to. -/
  published : ∀ (models : ModelRepository) (input : CycleInput) (fault : ℕ → Option Str)
    (run' : WorkerLoop), run.step (.cycle models input fault) = some run' → ∃ outcome status,
      run'.past = outcome :: run.past ∧ run'.registry.statuses[name]? = some status ∧
        Shows run'.past status
  /-- No cycle follows five failures in a row. -/
  first : ∀ before, before <:+ run.past → before ≠ run.past → failures before < 5
  /-- Until then the worker comes to its next cycle, while its stop flag is clear. -/
  continues : failures run.past < 5 → run.stopFlag = false →
    Steps.Inevitable ownStep (fun r => ∃ outcome, r.past = outcome :: run.past) run
  /-- After five failures in a row, and after a stop, the worker comes to its end. -/
  stops : 5 ≤ failures run.past ∨ run.stopFlag = true →
    Steps.Inevitable ownStep (fun r => r.pc = .stopped) run
  marks : ∀ run', run.step .markStopped = some run' →
    MarksOnly name run.id run.registry run'.registry
  /-- Behind the stop flag no cycle begins. -/
  observed : run.stopFlag = true → run.pc ≠ .cycle →
    ∀ run', Steps.Reach WorkerLoop.step Admitted run run' → run'.past = run.past

section Counting
variable {start run : WorkerLoop} {name : SqlText}

theorem Sound.countsFailures (h : Sound name.bytes run) : CountsFailures name.bytes run where
  published models input fault run' hstep := by
    simp only [WorkerLoop.step] at hstep
    split at hstep
    · cases hstep
      obtain ⟨outcome, hpast, hpublished, -⟩ := afterCycle_published h.counted models input fault
      exact ⟨outcome, _, hpast, hpublished.statuses, hpublished.shows⟩
    · cases hstep
  first := h.first
  continues hfew hflag := by
    refine inevitable_cycle ?_ hflag
    cases hin : run.pc.inLoop with
    | true => rfl
    | false =>
      rcases h.left hin with hlimit | hset
      · omega
      · rw [hflag] at hset
        cases hset
  stops hends := by
    refine inevitable_stopped h (hends.imp_left fun hlimit => ?_)
    cases hin : run.pc.inLoop with
    | true =>
      have hfew := h.inLoop hin
      omega
    | false => rfl
  marks run' hstep := by
    simp only [WorkerLoop.step] at hstep
    split at hstep
    · cases hstep
      rw [h.counted.deviceName]
      exact marksOnly_finish run.registry run.id name.bytes
    · cases hstep
  observed hflag hpc run' := past_of_stopFlag hflag hpc

/-- In every run of a worker, whatever other threads do: each cycle publishes a status with the length
of the latest run of failures, the time of the latest success, and no error exactly after a success;
the worker goes on until five cycles in a row have failed and then comes to its end, where it marks
its own device only; and behind its stop flag no cycle begins. -/
theorem countsFailures_of_reach (hstart : start.Started)
    (hrun : Steps.Reach WorkerLoop.step Admitted start run) :
    CountsFailures start.task.device.name run := by
  obtain ⟨name, hname, hsound⟩ := hstart.sound
  rw [hname]
  exact (hrun.invariant hsound fun _ _ _ h hok hstep => h.step hok hstep).countsFailures

/-- The worker of `A` that a start has created. -/
def loopA : WorkerLoop where
  id := 0
  database := DataTask.startedA.database
  registry := DataTask.startedA.registry
  task := .enter
    (((DeviceRepository.named (lit "A") DataTask.startedA.database).map
      DeviceRepository.readDevice).getD {}) 0

theorem started_loopA : loopA.Started := by
  have hchecks : ((DataTask.startChecks noModels (lit "A") []).run loopA.database).1 =
      .ok loopA.task.device := by decide +kernel
  exact ⟨⟨noModels, lit "A", [], loopA.database, _, Prod.ext hchecks rfl⟩, ⟨0, rfl⟩, rfl, rfl⟩

/-- The worker of `A` after a cycle without a driver. -/
theorem countsFailures_loopA :
    (({ loopA with pc := .cycle }).afterCycle noModels noDriver fun _ => none).past = [.failed] ∧
    CountsFailures loopA.task.device.name
      (({ loopA with pc := .cycle }).afterCycle noModels noDriver fun _ => none) := by
  have hflag : loopA.stopFlag = false := by decide +kernel
  have htest : loopA.step .test = some { loopA with pc := .cycle } := by
    show some { loopA with pc := if loopA.stopFlag then .leaving else .cycle } = _
    rw [hflag]
    rfl
  have hpast : (({ loopA with pc := .cycle }).afterCycle noModels noDriver fun _ => none).past =
      [.failed] := by decide +kernel
  exact ⟨hpast, countsFailures_of_reach started_loopA
    (.step (a := .cycle noModels noDriver fun _ => none) (.step (a := .test) .start trivial htest)
      trivial rfl)⟩

end Counting

end WorkerLoop

end CollectorService
