import CollectorService.NamesInUse
import CollectorService.WorkerLoop

/-!
# Workers of devices that are gone

A command that deletes a device, or switches it off, does not tell its worker. The worker finds out in
its next cycle, which fails before anything is asked or stored, and the fifth failure in a row ends it.

* `runCycle_absent`: such a cycle fails, and leaves the tables.
* `givesUp_of_reach`: the worker fails at most until it has failed five times in a row, changes no table
  any more, and comes to its end.

A cycle is one step here, so the device goes between two cycles, and what is said is about the cycles
that begin afterwards. A cycle that is under way may still come to its end as if the device were there.
-/

namespace CollectorService

open DeviceRepository (named readDevice)
open DeviceTask

/-- The device is not in the table, or it is offline. -/
def Absent (name : SqlText) (t : Database) : Prop :=
  ∀ x, named name.bytes t = some x → (readDevice x).status = 0

/-! ## 1. A cycle -/

section Cycle
variable {name : SqlText} {s : CycleState} {models : ModelRepository} {input : CycleInput}

theorem onDatabase_eq_ok {α : Type} {m : Sql α} {a : α} {s' : CycleState}
    (h : onDatabase m s = .ok a s') : ∃ c, m s.conn = (.ok a, c) := by
  rcases hm : m s.conn with ⟨e | b, c⟩
  · rw [onDatabase_error hm] at h
    cases h
  · rw [onDatabase_ok hm] at h
    cases h
    exact ⟨c, rfl⟩

/-- Whichever calls fail, the device is not loaded. -/
theorem loadDevice_absent (hname : s.task.device.name = name.bytes)
    (habsent : Absent name s.conn.tables) :
    ∃ e s', loadDevice s = .error e s' ∧ s'.conn.tables = s.conn.tables := by
  have hends := @loadDevice_ends s (· = s.conn.tables) name hname s
    ⟨rfl, rfl, rfl, rfl, rfl, rfl, rfl⟩
  cases hload : loadDevice s with
  | error e s' =>
    rw [hload] at hends
    exact ⟨e, s', rfl, hends.1⟩
  | ok device s' =>
    obtain ⟨u, s₁, hstage, hload⟩ := Hoare.bind_eq_ok.mp hload
    cases hstage
    obtain ⟨s₂, s₃, hget, hload⟩ := Hoare.bind_eq_ok.mp hload
    cases hget
    obtain ⟨found, s₄, hfound, hload⟩ := Hoare.bind_eq_ok.mp hload
    obtain ⟨u', s₅, -, hload⟩ := Hoare.bind_eq_ok.mp hload
    obtain ⟨c, hcall⟩ := onDatabase_eq_ok hfound
    obtain ⟨x, hx, rfl⟩ := SQLiteManager.getDeviceByName_eq_ok hcall
    have hoffline : (readDevice x).status = 0 := habsent x (hname ▸ hx)
    simp only [hoffline, if_true] at hload
    cases hload

/-- Whatever the driver does, and whichever calls fail: the cycle fails, and leaves the tables. -/
theorem runCycle_absent (hname : s.task.device.name = name.bytes)
    (habsent : Absent name s.conn.tables) (time : Double) :
    (runCycle models input s).1.outcome time = .failed ∧
      (runCycle models input s).2.conn.tables = s.conn.tables := by
  obtain ⟨e, s₁, hload, htables⟩ := @loadDevice_absent name (s.at "prepare") hname habsent
  have hinsert : insertNext models input (s.at "prepare") = .error e s₁ :=
    Hoare.bind_eq_error.mpr (.inl hload)
  have hstep := runCycle_step models input s
  generalize runCycle models input s = out at hstep ⊢
  obtain ⟨result, s'⟩ := out
  cases hstep with
  | succeeded hok =>
    rw [hinsert] at hok
    cases hok
  | failed hfailed =>
    cases hinsert.symm.trans hfailed
    exact ⟨rfl, htables⟩
  | gaveUp hfailed =>
    cases hinsert.symm.trans hfailed
    exact ⟨rfl, htables⟩

end Cycle

/-! ## 2. The loop -/

namespace WorkerLoop

/-- What other threads do does not bring the device back. -/
def StaysAbsent (name : SqlText) : LoopAction → Prop
  | .elsewhere database _ => Absent name database
  | _ => True

/-- Since `start` the device has been absent, and every cycle has failed. -/
structure Failing (name : SqlText) (start run : WorkerLoop) : Prop where
  sound : Sound name.bytes run
  absent : Absent name run.database
  past : ∃ failed, run.past = List.replicate failed .failed ++ start.past

section Run
variable {name : SqlText} {start run run' : WorkerLoop} {action : LoopAction}

/-- A worker changes no table in a step of its own, and each of its cycles fails. -/
theorem Step.absent (hstep : Step run run') (h : Sound name.bytes run)
    (habsent : Absent name run.database) :
    run'.database = run.database ∧ (run'.past = run.past ∨ run'.past = .failed :: run.past) := by
  cases hstep with
  | observe | enter | sleep | wake | markStopped => exact ⟨rfl, .inl rfl⟩
  | cycle models input fault =>
    obtain ⟨houtcome, htables⟩ := @runCycle_absent name
      ⟨{ tables := run.database, fault }, run.registry, run.task⟩ models input h.counted.deviceName
      habsent input.statusTime
    exact ⟨htables, .inr (congrArg (· :: run.past) houtcome)⟩

theorem Failing.own (h : Failing name start run) (hok : Admitted run action)
    (hstep : run.step action = some run') (hown : Step run run') :
    Failing name start run' ∧ run'.database = run.database := by
  obtain ⟨hdatabase, hpast⟩ := hown.absent h.sound h.absent
  obtain ⟨failed, hfailed⟩ := h.past
  refine ⟨⟨h.sound.step hok hstep, hdatabase ▸ h.absent, ?_⟩, hdatabase⟩
  rcases hpast with hsame | hmore
  · exact ⟨failed, hsame.trans hfailed⟩
  · exact ⟨failed + 1, by rw [hmore, hfailed, List.replicate_succ, List.cons_append]⟩

theorem Failing.step (h : Failing name start run) (hok : Admitted run action)
    (hstays : StaysAbsent name action) (hstep : run.step action = some run') :
    Failing name start run' := by
  rcases step_cases hstep with hown | ⟨database, registry, rfl, rfl⟩
  · exact (h.own hok hstep hown).1
  · exact ⟨h.sound.step hok hstep, hstays, h.past⟩

theorem Failing.ownStep (h : Failing name start run) (hstep : run.ownStep action = some run') :
    Failing name start run' ∧ run'.database = run.database := by
  obtain ⟨hown, hstep, hok⟩ := ownStep_cases hstep
  exact h.own hok hstep hown

/-- Counting starts anew. -/
theorem Failing.renew (h : Failing name start run) : Failing name run run :=
  ⟨h.sound, h.absent, 0, rfl⟩

theorem failures_replicate (failed : ℕ) (past : List CycleOutcome) :
    failures (List.replicate failed .failed ++ past) = failed + failures past := by
  induction failed with
  | zero => simp
  | succ failed ih =>
    rw [List.replicate_succ, List.cons_append, failures_failed, ih]
    omega

/-- No worker has failed more than five times in a row. -/
theorem Sound.failures_le (h : Sound name.bytes run) : failures run.past ≤ 5 := by
  cases hpast : run.past with
  | nil => exact Nat.zero_le _
  | cons outcome before =>
    have hbefore := h.first before (hpast ▸ List.suffix_cons _ _) (by simp [hpast])
    cases outcome with
    | succeeded time => exact Nat.zero_le _
    | failed =>
      rw [failures_failed]
      omega

/-- The worker goes on until it has failed five times in a row, and then comes to its end. -/
theorem Failing.inevitable (h : Failing name start run) :
    Steps.Inevitable WorkerLoop.ownStep (fun r => r.pc = .stopped ∧ r.database = run.database) run := by
  induction hleft : 5 - failures run.past using Nat.strongRecOn generalizing start run with
  | _ left ih =>
    subst hleft
    have hkept (r : WorkerLoop) (action : LoopAction) (r' : WorkerLoop)
        (hr : Failing name run r ∧ r.database = run.database) (hstep : r.ownStep action = some r') :
        Failing name run r' ∧ r'.database = run.database :=
      ⟨(hr.1.ownStep hstep).1, (hr.1.ownStep hstep).2.trans hr.2⟩
    by_cases hends : 5 ≤ failures run.past ∨ run.stopFlag = true
    · have hstops := (h.sound.countsFailures.stops hends).with_invariant ⟨h.renew, rfl⟩ hkept
      exact hstops.bind fun r hr => .here ⟨hr.1, hr.2.2⟩
    · push Not at hends
      have hnext := (h.sound.countsFailures.continues hends.1 (by simpa using hends.2)).with_invariant
        ⟨h.renew, rfl⟩ hkept
      refine hnext.bind fun r ⟨⟨outcome, hpast⟩, hfailing, hdatabase⟩ => ?_
      obtain ⟨failed, hfailed⟩ := hfailing.past
      have hone : failed = 1 := by
        have hlength := congrArg List.length (hpast.symm.trans hfailed)
        simp only [List.length_cons, List.length_append, List.length_replicate] at hlength
        omega
      have hcount : failures r.past = 1 + failures run.past := by
        rw [hfailed, hone, failures_replicate]
      have hstops := ih _ (by omega) hfailing rfl
      exact hstops.bind fun r' hr' => .here ⟨hr'.1, hr'.2.trans hdatabase⟩

/-- However the run goes on from between two cycles, with the device absent: each cycle that begins from
there fails, which comes to five failures in a row at most; none of the worker's further steps changes
a table, and it comes to its end. -/
theorem givesUp_of_reach (hstart : start.Started) (hname : start.task.device.name = name.bytes)
    (hrun : Steps.Reach WorkerLoop.step Admitted start run) (habsent : Absent name run.database)
    (hrun' : Steps.Reach WorkerLoop.step (fun r action => Admitted r action ∧ StaysAbsent name action)
      run run') :
    (∃ failed, run'.past = List.replicate failed .failed ++ run.past ∧
      failed + failures run.past ≤ 5) ∧
    (∀ action run'', run'.ownStep action = some run'' → run''.database = run'.database) ∧
    Steps.Inevitable WorkerLoop.ownStep
      (fun r => r.pc = .stopped ∧ r.database = run'.database) run' := by
  obtain ⟨name', hname', hsound⟩ := hstart.sound
  rw [← hname', hname] at hsound
  have hsound' : Sound name.bytes run := hrun.invariant hsound fun _ _ _ h hok hstep => h.step hok hstep
  have hfailing : Failing name run run' := hrun'.invariant ⟨hsound', habsent, 0, rfl⟩
    fun _ _ _ h hok hstep => h.step hok.1 hok.2 hstep
  obtain ⟨failed, hfailed⟩ := hfailing.past
  refine ⟨⟨failed, hfailed, ?_⟩, fun action run'' hstep => (hfailing.ownStep hstep).2,
    hfailing.inevitable⟩
  rw [← failures_replicate, ← hfailed]
  exact hfailing.sound.failures_le

/-- The worker of `A` when `A` is deleted. -/
def deletedA : WorkerLoop := { loopA with database := .empty }

/-- Its next cycle fails. -/
def failedA : WorkerLoop :=
  ({ deletedA with pc := .cycle }).afterCycle noModels noDriver fun _ => none

theorem givesUp_of_reach_deletedA : failedA.past = [.failed] ∧
    (∃ failed, failedA.past = List.replicate failed .failed ++ deletedA.past ∧
      failed + failures deletedA.past ≤ 5) ∧
    Steps.Inevitable WorkerLoop.ownStep
      (fun r => r.pc = .stopped ∧ r.database = failedA.database) failedA := by
  have hflag : deletedA.stopFlag = false := by decide +kernel
  have htest : deletedA.step .test = some { deletedA with pc := .cycle } := by
    show some { deletedA with pc := if deletedA.stopFlag then .leaving else .cycle } = _
    rw [hflag]
    rfl
  have hname : (⟨lit "A", by decide⟩ : SqlText).bytes = lit "A" := rfl
  have hdevice : loopA.task.device.name = lit "A" := by decide +kernel
  have hgone : Absent ⟨lit "A", by decide⟩ deletedA.database := fun x hx => by cases hx
  have hdeleted : Steps.Reach WorkerLoop.step Admitted loopA deletedA :=
    .step (a := .elsewhere .empty loopA.registry) .start (fun hflagged => hflagged) rfl
  obtain ⟨hfailed, -, hstops⟩ := @givesUp_of_reach ⟨lit "A", by decide⟩ loopA deletedA failedA
    started_loopA (hdevice.trans hname.symm) hdeleted hgone
    (.step (a := .cycle noModels noDriver fun _ => none)
      (.step (a := .test) .start ⟨trivial, trivial⟩ htest) ⟨trivial, trivial⟩ rfl)
  exact ⟨by decide +kernel, hfailed, hstops⟩

end Run

end WorkerLoop

end CollectorService
