import CollectorService.DeviceView

/-!
# Coherence of the registry

With one command at a time, and the workers running beside it, a device is in `activeDevices_`
exactly while it has one unfinished worker, and the registry then holds the flag and the thread of
that worker. Three steps break this: `markStartFailed` for a device that is being collected, a
worker that finishes between its creation and `addWorker`, and a name with a NUL byte, under which
the worker does not find its own entries.

* `coherent_of_reach`: every run without these steps is coherent in every idle state.
* `start_twice_not_coherent`: the first of the three, reached by starting a device twice.
-/

namespace CollectorService

open DeviceStatusStore

/-- `d` is active exactly while it has one unfinished worker, whose flag and thread are then the
ones under `d`. -/
structure Coherent (s : DeviceStatusStore) (d : Str) : Prop where
  active_iff : d ∈ s.activeDevices ↔ ∃! id, s.Unfinished id d
  registered : d ∈ s.activeDevices → ∀ id, s.Unfinished id d →
    s.stopFlags[d]? = some id ∧ s.workerThreads[d]? = some id

/-! ## 1. The runs -/

/-- Commands are issued one at a time. -/
def Sequential (s : System) : Action → Prop
  | .call _ => s.Idle
  | _ => True

instance : ∀ s a, Decidable (Sequential s a)
  | s, .call _ => inferInstanceAs (Decidable s.Idle)
  | _, .advance _ _ | _, .finish _ | _, .publish _ _ => .isTrue trivial

/-- No start fails while its device is being collected, no worker finishes before it is registered,
and no name has a NUL byte. -/
def Undisturbed (s : System) : Action → Prop
  | .call command => command.Plain
  | .advance i _ => ∀ d ∈ s.calls[i]?.bind Call.failing, d ∉ s.registry.activeDevices
  | .finish id => ∀ c ∈ s.calls, c.created ≠ some id
  | .publish _ _ => True

instance : ∀ s a, Decidable (Undisturbed s a)
  | _, .call command => inferInstanceAs (Decidable command.Plain)
  | s, .advance i _ => inferInstanceAs (Decidable (∀ d ∈ s.calls[i]?.bind Call.failing, _))
  | s, .finish _ => inferInstanceAs (Decidable (∀ c ∈ s.calls, _))
  | _, .publish _ _ => .isTrue trivial

/-! ## 2. The invariant -/

namespace DeviceView

/-- Every unfinished worker is registered, and an active device has one. -/
structure Registered (v : DeviceView) : Prop where
  nonempty : v.active → v.unfinished.Nonempty
  worker : ∀ id ∈ v.unfinished, v.active ∧ v.stopFlag = some id ∧ v.thread = some id

/-- The device has no worker. -/
structure Quiet (v : DeviceView) : Prop where
  inactive : ¬ v.active
  unfinished : v.unfinished = ∅

variable {v : DeviceView} {i : ℕ}

theorem Registered.unfinished_eq (h : v.Registered) (hi : i ∈ v.unfinished) :
    v.unfinished = {i} := by
  ext j
  refine ⟨fun hj => ?_, fun hj => hj ▸ hi⟩
  have hflag := (h.worker j hj).2.1.symm.trans (h.worker i hi).2.1
  simpa using hflag

theorem Registered.quiet (h : v.Registered) (hactive : ¬ v.active) : v.Quiet := by
  refine ⟨hactive, Set.eq_empty_iff_forall_notMem.mpr fun id hid => hactive (h.worker id hid).1⟩

theorem Quiet.registered (h : v.Quiet) : v.Registered := by
  refine ⟨fun hactive => absurd hactive h.inactive, fun id hid => ?_⟩
  rw [h.unfinished] at hid
  cases hid

end DeviceView

theorem Coherent.of_registered {s : DeviceStatusStore} {d : Str} (h : (s.view d).Registered) :
    Coherent s d := by
  refine ⟨⟨fun hactive => ?_, fun ⟨id, hid, _⟩ => (h.worker id hid).1⟩,
    fun _ id hid => (h.worker id hid).2⟩
  obtain ⟨id, hid⟩ := h.nonempty hactive
  refine ⟨id, hid, fun j hj => ?_⟩
  have hj' : j ∈ (s.view d).unfinished := hj
  rwa [h.unfinished_eq hid] at hj'

/-- What holds of the device of a start while the start is at `pc`. -/
def StartPc.Holds (v : DeviceView) : StartPc → Prop
  | .checks | .isActive | .markStartFailed | .done => v.Registered
  | .takeThread | .eraseStopFlag _ | .join _ | .createThread => v.Quiet
  | .addWorker id => ¬ v.active ∧ v.unfinished = {id}
  | .terminated => True

/-- What holds of the device of a stop while the stop is at `pc`. -/
def StopPc.Holds (v : DeviceView) : StopPc → Prop
  | .deviceExists | .requestStop | .takeThread | .done => v.Registered
  | .eraseStopFlag thread | .join thread => ∀ id ∈ v.unfinished, thread = some id
  | .markStopped => v.unfinished = ∅

/-- What holds of every device while a `stopAll` is at `pc`. -/
def StopAllPc.Holds (v : DeviceView) : StopAllPc → Prop
  | .requestStopAll | .takeAllThreads | .done => v.Registered
  | .join threads => ∀ id ∈ v.unfinished, id ∈ threads
  | .clearAllWorkers => v.unfinished = ∅

/-- What holds of the registry while a call is executing alone. -/
def Call.Holds (s : DeviceStatusStore) : Call → Prop
  | .start d pc rest => (pc.Holds (s.view d) ∧ ∀ e, e ≠ d → (s.view e).Registered) ∧
    ∀ name ∈ d :: rest, cString name = name
  | .stop d pc => pc.Holds (s.view d) ∧ ∀ e, e ≠ d → (s.view e).Registered
  | .stopAll pc => ∀ e, pc.Holds (s.view e)

/-- The latest call is the only one that can be executing. -/
def System.Ordered (s : System) : Prop :=
  s.calls = [] ∧ (∀ d, (s.registry.view d).Registered) ∨
    ∃ c rest, s.calls = c :: rest ∧ (∀ c' ∈ rest, c'.isDone = true) ∧ c.Holds s.registry

/-! ## 3. The steps of the call -/

theorem Call.Holds.registered {s : DeviceStatusStore} {c : Call} (h : c.Holds s)
    (hdone : c.isDone = true) (d : Str) : (s.view d).Registered := by
  cases c with
  | start d' pc rest =>
    obtain ⟨⟨hpc, hothers⟩, -⟩ := h
    cases pc <;> try cases hdone
    by_cases hd : d = d'
    · exact hd ▸ hpc
    · exact hothers d hd
  | stop d' pc =>
    obtain ⟨hpc, hothers⟩ := h
    cases pc <;> try cases hdone
    by_cases hd : d = d'
    · exact hd ▸ hpc
    · exact hothers d hd
  | stopAll pc =>
    cases pc <;> try cases hdone
    exact h d

theorem WorkerCommand.begin_holds {s : DeviceStatusStore} {command : WorkerCommand}
    (hplain : command.Plain) (h : ∀ d, (s.view d).Registered) : command.begin.Holds s := by
  cases command with
  | startDeviceCollect d => exact ⟨⟨h d, fun e _ => h e⟩, List.forall_mem_singleton.mpr hplain⟩
  | startAll names => exact ⟨⟨h [], fun e _ => h e⟩, List.forall_mem_cons.mpr ⟨rfl, hplain⟩⟩
  | stopDeviceCollect d => exact ⟨h d, fun e _ => h e⟩
  | stopAll => exact h

theorem CallStep.isDone_eq_false {s s' : DeviceStatusStore} {c c' : Call} (h : CallStep c s c' s') :
    c.isDone = false := by
  cases h <;> rfl

/-- One step of the call that is executing. -/
theorem CallStep.holds {s s' : DeviceStatusStore} {c c' : Call} (hstep : CallStep c s c' s')
    (h : c.Holds s)
    (hfailed : ∀ d ∈ c.failing, d ∉ s.activeDevices) :
    c'.Holds s' := by
  cases hstep with
  | @nextStart d next rest =>
    obtain ⟨⟨hpc, hothers⟩, hplain⟩ := h
    have hall : ∀ e, (s.view e).Registered := fun e => by
      by_cases he : e = d
      · exact he ▸ hpc
      · exact hothers e he
    exact ⟨⟨hall next, fun e _ => hall e⟩, (List.forall_mem_cons.mp hplain).2⟩
  | checksPassed => exact h
  | checksFailed => exact h
  | alreadyRunning _ => exact h
  | notRunning hactive => exact ⟨⟨h.1.1.quiet hactive, h.1.2⟩, h.2⟩
  | takeStale =>
    obtain ⟨⟨hpc, hothers⟩, hplain⟩ := h
    refine ⟨⟨?_, fun e he => ?_⟩, hplain⟩
    · rw [view_takeThread, if_pos rfl]
      exact ⟨hpc.inactive, hpc.unfinished⟩
    · rw [view_takeThread, if_neg he]
      exact hothers e he
  | eraseStale =>
    obtain ⟨⟨hpc, hothers⟩, hplain⟩ := h
    refine ⟨⟨?_, fun e he => ?_⟩, hplain⟩
    · rw [view_eraseStopFlag, if_pos rfl]
      exact ⟨hpc.inactive, hpc.unfinished⟩
    · rw [view_eraseStopFlag, if_neg he]
      exact hothers e he
  | joinStale _ => exact h
  | noThread => exact ⟨⟨h.1.1.registered, h.1.2⟩, h.2⟩
  | @createThread d rest =>
    obtain ⟨⟨hpc, hothers⟩, hplain⟩ := h
    have hname : cString d = d := hplain d List.mem_cons_self
    refine ⟨⟨⟨?_, ?_⟩, fun e he => ?_⟩, hplain⟩
    · rw [view_spawn, hname, if_pos rfl]
      exact hpc.inactive
    · rw [view_spawn, hname, if_pos rfl, hpc.unfinished]
      exact insert_empty_eq s.nextWorker
    · rw [view_spawn, hname, if_neg he]
      exact hothers e he
  | @addWorker d rest id _ _ hadd =>
    obtain ⟨⟨⟨-, hunfinished⟩, hothers⟩, hplain⟩ := h
    have hview := (addWorker_eq_some hadd).2
    refine ⟨⟨⟨fun _ => ?_, fun i hi => ?_⟩, fun e he => ?_⟩, hplain⟩
    · rw [hview, if_pos rfl, hunfinished]
      exact Set.singleton_nonempty id
    · rw [hview, if_pos rfl] at hi ⊢
      rw [hunfinished] at hi
      exact ⟨trivial, congrArg some hi.symm, congrArg some hi.symm⟩
    · rw [hview, if_neg he]
      exact hothers e he
  | terminate _ => exact ⟨⟨trivial, h.1.2⟩, h.2⟩
  | @markStartFailed d rest =>
    obtain ⟨⟨hpc, hothers⟩, hplain⟩ := h
    refine ⟨⟨?_, fun e he => ?_⟩, hplain⟩
    · have hquiet := hpc.quiet (hfailed d rfl)
      rw [view_markStartFailed, if_pos rfl]
      exact DeviceView.Quiet.registered ⟨fun hfalse => hfalse, hquiet.unfinished⟩
    · rw [view_markStartFailed, if_neg he]
      exact hothers e he
  | deviceFound => exact h
  | deviceMissing => exact h
  | stopNotRunning _ => exact h
  | requestStop _ =>
    refine ⟨?_, fun e he => ?_⟩
    · rw [view_requestStop]
      exact h.1
    · rw [view_requestStop]
      exact h.2 e he
  | takeThread =>
    obtain ⟨hpc, hothers⟩ := h
    refine ⟨fun id hid => ?_, fun e he => ?_⟩
    · rw [view_takeThread, if_pos rfl] at hid
      exact (hpc.worker id hid).2.2
    · rw [view_takeThread, if_neg he]
      exact hothers e he
  | eraseStopFlag =>
    obtain ⟨hpc, hothers⟩ := h
    refine ⟨fun id hid => ?_, fun e he => ?_⟩
    · rw [view_eraseStopFlag, if_pos rfl] at hid
      exact hpc id hid
    · rw [view_eraseStopFlag, if_neg he]
      exact hothers e he
  | join hjoined =>
    -- the thread that was joined was that of the only worker
    refine ⟨Set.eq_empty_iff_forall_notMem.mpr fun id hid => ?_, h.2⟩
    have hfinished := hjoined id (h.1 id hid)
    rw [Unfinished.hasFinished hid] at hfinished
    cases hfinished
  | markStopped =>
    obtain ⟨hpc, hothers⟩ := h
    refine ⟨?_, fun e he => ?_⟩
    · rw [view_markStopped, if_pos rfl]
      exact DeviceView.Quiet.registered ⟨fun hfalse => hfalse, hpc⟩
    · rw [view_markStopped, if_neg he]
      exact hothers e he
  | requestStopAll =>
    intro e
    rw [view_requestStopAll]
    exact h e
  | takeAllThreads =>
    intro e id hid
    rw [view_takeAllThreads] at hid
    exact mem_takeAllThreads.mpr ⟨e, ((h e).worker id hid).2.2⟩
  | @joinNext id threads _ hdone =>
    intro e i hi
    rcases List.mem_cons.mp (h e i hi) with rfl | hmem
    · rw [Unfinished.hasFinished hi] at hdone
      cases hdone
    · exact hmem
  | joinedAll =>
    intro e
    exact Set.eq_empty_iff_forall_notMem.mpr fun id hid => List.not_mem_nil (h e id hid)
  | clearAllWorkers =>
    intro e
    rw [view_clearAllWorkers]
    exact DeviceView.Quiet.registered ⟨fun hfalse => hfalse, h e⟩

/-! ## 4. The steps of the workers -/

namespace DeviceView

/-- What the end of worker `i` does to the view of its device. -/
def finish (v : DeviceView) (i : ℕ) : DeviceView :=
  { v with active := False, stopFlag := none, unfinished := v.unfinished \ {i} }

variable {v : DeviceView} {i : ℕ}

theorem Registered.finish (h : v.Registered) (hi : i ∈ v.unfinished) : (v.finish i).Registered := by
  refine Quiet.registered ⟨fun hfalse => hfalse, ?_⟩
  show v.unfinished \ {i} = ∅
  rw [h.unfinished_eq hi]
  exact Set.sdiff_self

theorem Quiet.notMem (h : v.Quiet) : i ∉ v.unfinished := by
  rw [h.unfinished]
  exact Set.notMem_empty i

end DeviceView

theorem StartPc.Holds.finish {pc : StartPc} {v : DeviceView} {i : ℕ} (h : pc.Holds v)
    (hi : i ∈ v.unfinished) (hadd : pc ≠ .addWorker i) : pc.Holds (v.finish i) := by
  cases pc with
  | checks | isActive | markStartFailed | done => exact DeviceView.Registered.finish h hi
  | takeThread | eraseStopFlag _ | join _ | createThread => exact absurd hi (DeviceView.Quiet.notMem h)
  | addWorker id =>
    rw [h.2, Set.mem_singleton_iff] at hi
    exact absurd (congrArg StartPc.addWorker hi.symm) hadd
  | terminated => trivial

theorem StopPc.Holds.finish {pc : StopPc} {v : DeviceView} {i : ℕ} (h : pc.Holds v)
    (hi : i ∈ v.unfinished) : pc.Holds (v.finish i) := by
  cases pc with
  | deviceExists | requestStop | takeThread | done => exact DeviceView.Registered.finish h hi
  | eraseStopFlag thread | join thread => exact fun id hid => h id hid.1
  | markStopped => exact absurd hi (Set.eq_empty_iff_forall_notMem.mp h i)

theorem StopAllPc.Holds.finish {pc : StopAllPc} {v : DeviceView} {i : ℕ} (h : pc.Holds v)
    (hi : i ∈ v.unfinished) : pc.Holds (v.finish i) := by
  cases pc with
  | requestStopAll | takeAllThreads | done => exact DeviceView.Registered.finish h hi
  | join threads => exact fun id hid => h id hid.1
  | clearAllWorkers => exact absurd hi (Set.eq_empty_iff_forall_notMem.mp h i)

/-- A worker finishes beside the call. -/
theorem Call.Holds.finish {s : DeviceStatusStore} {c : Call} {i : ℕ} {name : Str} (h : c.Holds s)
    (hi : s.Unfinished i name) (hcreated : c.created ≠ some i) :
    c.Holds (s.finish i name) := by
  have hview : ∀ e, (s.finish i name).view e = if e = name then (s.view e).finish i else s.view e :=
    fun e => view_finish_eq hi
  have hregistered : ∀ e, (s.view e).Registered → ((s.finish i name).view e).Registered := by
    intro e he
    rw [hview]
    split
    · next hname => exact he.finish (hname ▸ hi)
    · exact he
  cases c with
  | start d pc rest =>
    refine ⟨⟨?_, fun e he => hregistered e (h.1.2 e he)⟩, h.2⟩
    rw [hview]
    split
    · next hname => exact h.1.1.finish (hname ▸ hi) fun hpc => hcreated (hpc ▸ rfl)
    · exact h.1.1
  | stop d pc =>
    refine ⟨?_, fun e he => hregistered e (h.2 e he)⟩
    rw [hview]
    split
    · next hname => exact h.1.finish (hname ▸ hi)
    · exact h.1
  | stopAll pc =>
    intro e
    rw [hview]
    split
    · next hname => exact (h e).finish (hname ▸ hi)
    · exact h e

/-! ## 5. Runs -/

theorem System.Ordered.step {s s' : System} {a : Action} (h : s.Ordered)
    (hok : Sequential s a ∧ Undisturbed s a) (hstep : s.step a = some s') : s'.Ordered := by
  obtain ⟨hsequential, hundisturbed⟩ := hok
  cases System.step_cases hstep with
  | @call command =>
    refine .inr ⟨command.begin, s.calls, rfl, hsequential, command.begin_holds hundisturbed ?_⟩
    rcases h with ⟨-, hall⟩ | ⟨c, rest, hcalls, -, hc⟩
    · exact hall
    · exact hc.registered (hsequential c (hcalls ▸ List.mem_cons_self))
  | @advance i passed c c' r hget hc =>
    rcases h with ⟨hcalls, -⟩ | ⟨c₀, rest, hcalls, hrest, hc₀⟩
    · rw [hcalls] at hget
      cases hget
    · rw [hcalls] at hget
      cases i with
      | zero =>
        cases hget
        refine .inr ⟨c', rest, by rw [hcalls]; rfl, hrest, hc.holds hc₀ fun d hd => ?_⟩
        exact hundisturbed d (by rw [hcalls]; exact hd)
      | succ i =>
        -- a call that has returned makes no step
        have hdone := hrest c (List.mem_of_getElem? hget)
        rw [hc.isDone_eq_false] at hdone
        cases hdone
  | @finish id worker hworker hfinished =>
    have hid : s.registry.Unfinished id worker.deviceName := ⟨worker, hworker, rfl, hfinished⟩
    rcases h with ⟨hcalls, hall⟩ | ⟨c, rest, hcalls, hrest, hc⟩
    · refine .inl ⟨hcalls, fun d => ?_⟩
      rw [view_finish_eq hid]
      split
      · next hname => exact (hall d).finish (hname ▸ hid)
      · exact hall d
    · have hcreated := hundisturbed c (hcalls ▸ List.mem_cons_self)
      exact .inr ⟨c, rest, hcalls, hrest, hc.finish hid hcreated⟩
  | publish => exact h

theorem System.initial_ordered : System.initial.Ordered := by
  refine .inl ⟨rfl, fun d => DeviceView.Quiet.registered ⟨?_, Set.eq_empty_iff_forall_notMem.mpr ?_⟩⟩
  · exact Std.ExtTreeSet.not_mem_empty
  · rintro id ⟨worker, hworker, -⟩
    cases hworker

/-- In every idle state of a run without the three steps, every device is coherent. -/
theorem coherent_of_reach {s : System}
    (hs : Steps.Reach System.step (fun s a => Sequential s a ∧ Undisturbed s a) .initial s)
    (hidle : s.Idle) (d : Str) : Coherent s.registry d := by
  have hordered : s.Ordered := hs.invariant System.initial_ordered fun _ _ _ h => h.step
  refine .of_registered ?_
  rcases hordered with ⟨-, hall⟩ | ⟨c, rest, hcalls, -, hc⟩
  · exact hall d
  · exact hc.registered (hidle c (hcalls ▸ List.mem_cons_self)) d

/-- A start that passes its checks, uninterrupted. -/
def startSteps (d : Str) : List Action :=
  .call (.startDeviceCollect d) :: List.replicate 7 (.advance 0 true)

/-- `A` and `B` are started, and `A` is stopped. -/
theorem coherent_of_reach_stopped : ∃ s : System,
    s.Idle ∧ lit "A" ∉ s.registry.activeDevices ∧ lit "B" ∈ s.registry.activeDevices ∧
      Coherent s.registry (lit "A") ∧ Coherent s.registry (lit "B") := by
  obtain ⟨s, hs, hidle, hA, hB⟩ := @Steps.exists_reach_of_run _ _ System.step
    (fun s a => Sequential s a ∧ Undisturbed s a) .initial _
    (fun s => s.Idle ∧ lit "A" ∉ s.registry.activeDevices ∧ lit "B" ∈ s.registry.activeDevices) _
    (startSteps (lit "A") ++ startSteps (lit "B") ++
      .call (.stopDeviceCollect (lit "A")) :: (List.replicate 4 (.advance 0 true) ++
        .finish 0 :: List.replicate 2 (.advance 0 true)))
    (by decide +kernel)
  exact ⟨s, hidle, hA, hB, coherent_of_reach hs hidle _, coherent_of_reach hs hidle _⟩

/-- Starting `A` twice leaves its worker running, with `A` not active. -/
theorem start_twice_not_coherent : ∃ s, Steps.Reach System.step Sequential .initial s ∧
    s.Idle ∧ ¬ Coherent s.registry (lit "A") := by
  obtain ⟨s, hs, hidle, hinactive, hworkers⟩ := @Steps.exists_reach_of_run _ _ System.step
    Sequential .initial _
    (fun s => s.Idle ∧ lit "A" ∉ s.registry.activeDevices ∧
      s.registry.workers = [{ deviceName := lit "A" }]) _
    (startSteps (lit "A") ++ (startSteps (lit "A")).take 4) (by decide +kernel)
  refine ⟨s, hs, hidle, fun hcoherent => hinactive (hcoherent.active_iff.mpr ⟨0, ?_, ?_⟩)⟩
  · exact ⟨_, by rw [hworkers]; rfl, rfl, rfl⟩
  · rintro id ⟨worker, hworker, -⟩
    rw [hworkers] at hworker
    have hid := (List.getElem?_eq_some_iff.mp hworker).1
    exact Nat.lt_one_iff.mp hid

end CollectorService
