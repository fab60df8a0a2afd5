import CollectorService.DeviceView
import CollectorService.Pool
import Mathlib.Data.Set.Subsingleton

/-!
# At most one worker for a device

Starts and stops run concurrently. Between its `isActive` check and its `addWorker`, a start holds
no lock: a second start of the device passes the same check, and a stop can take the thread or erase
the flag of a worker that is not its own. A run in which a start passes the check only while no
other call is between two such steps never has two unfinished workers of one name, and `addWorker`
always finds the place of the thread free.

* `oneWorker_of_reach`: both, for every such run.
* `start_race`: two starts in a race reach both defects.
-/

namespace CollectorService

open DeviceStatusStore

/-! ## 1. The runs -/

/-- Between the check and the creation of the thread. -/
@[simp] def StartPc.opening : StartPc → Bool
  | .takeThread | .eraseStopFlag _ | .join _ | .createThread => true
  | _ => false

/-- Between the check and `addWorker`. -/
@[simp] def StartPc.starting : StartPc → Bool
  | .addWorker _ => true
  | pc => pc.opening

/-- Between `takeThread` and `addWorker`. -/
@[simp] def StartPc.emptied : StartPc → Bool
  | .takeThread => false
  | pc => pc.starting

/-- The thread in the call's hands. -/
@[simp] def StartPc.held : StartPc → Option ℕ
  | .eraseStopFlag staleThread | .join staleThread => staleThread
  | .addWorker id => some id
  | _ => none

/-- Between `requestStop` and the return of the `join`. -/
@[simp] def StopPc.stopping : StopPc → Bool
  | .takeThread | .eraseStopFlag _ | .join _ => true
  | _ => false

@[simp] def StopPc.held : StopPc → Option ℕ
  | .eraseStopFlag threadToJoin | .join threadToJoin => threadToJoin
  | _ => none

namespace Call

/-- The call is a start of `d` at a line with `p`. -/
@[simp] def StartAt (p : StartPc → Prop) (d : Str) : Call → Prop
  | .start name pc _ => name = d ∧ p pc
  | _ => False

/-- The call is a stop of `d` at a line with `p`. -/
@[simp] def StopAt (p : StopPc → Prop) (d : Str) : Call → Prop
  | .stop name pc => name = d ∧ p pc
  | _ => False

instance (p : StartPc → Prop) [DecidablePred p] (d : Str) : DecidablePred (StartAt p d)
  | .start name pc _ => inferInstanceAs (Decidable (name = d ∧ p pc))
  | .stop _ _ | .stopAll _ => .isFalse id

instance (p : StopPc → Prop) [DecidablePred p] (d : Str) : DecidablePred (StopAt p d)
  | .stop name pc => inferInstanceAs (Decidable (name = d ∧ p pc))
  | .start _ _ _ | .stopAll _ => .isFalse id

abbrev Opening := StartAt (·.opening)

abbrev Starting := StartAt (·.starting)

abbrev Emptied := StartAt (·.emptied)

abbrev Stopping := StopAt (·.stopping)

/-- The call has the thread of worker `id` of `d` in its hands. -/
@[simp] def Holding (d : Str) (id : ℕ) (c : Call) : Prop :=
  c.StartAt (·.held = some id) d ∨ c.StopAt (·.held = some id) d

/-- The device whose start makes its check next. -/
def checking : Call → Option Str
  | .start d .isActive _ => some d
  | _ => none

end Call

/-- Starts and stops are called. -/
def StartsAndStops : System → Action → Prop
  | _, .call command => command ≠ .stopAll
  | _, _ => True

instance : ∀ s a, Decidable (StartsAndStops s a)
  | _, .call command => inferInstanceAs (Decidable (command ≠ .stopAll))
  | _, .advance _ _ | _, .finish _ | _, .publish _ _ => .isTrue trivial

/-- No unfinished worker has the name. -/
def DeviceStatusStore.NoWorker (s : DeviceStatusStore) (d : Str) : Prop :=
  ∀ worker ∈ s.workers, worker.deviceName = d → worker.finished = true

instance (s : DeviceStatusStore) (d : Str) : Decidable (s.NoWorker d) :=
  inferInstanceAs (Decidable (∀ worker ∈ s.workers, _))

/-- A start passes its `isActive` check only while no other start of the device is between the check
and `addWorker`, and no stop of the device is between its own check and `join` while a worker for
the device is unfinished. No name has a NUL byte. -/
def Unraced (s : System) : Action → Prop
  | .call command => command.Plain
  | .advance i _ => ∀ d ∈ s.calls[i]?.bind Call.checking, d ∉ s.registry.activeDevices →
    ∀ c ∈ s.calls, ¬ c.Starting d ∧ (c.Stopping d → s.registry.NoWorker d)
  | _ => True

instance : ∀ s a, Decidable (Unraced s a)
  | _, .call command => inferInstanceAs (Decidable command.Plain)
  | s, .advance i _ => inferInstanceAs (Decidable (∀ d ∈ s.calls[i]?.bind Call.checking, _ → _))
  | _, .finish _ | _, .publish _ _ => .isTrue trivial

/-! ## 2. The invariant -/

/-- What holds of each device. A worker that has not finished can be joined by whoever has its
thread, and a start creates the next one only when nobody has. -/
structure OneWorker (d : Str) (v : DeviceView) (calls : List Call) : Prop where
  unique : Pool.AtMostOne (Call.Starting d) calls
  inactive : (∃ c ∈ calls, c.Starting d) → ¬ v.active
  emptied : (∃ c ∈ calls, c.Emptied d) → v.thread = none
  quiet : (∃ c ∈ calls, c.Opening d) → (∃ c ∈ calls, c.Stopping d) → v.unfinished = ∅
  held : ∀ id ∈ v.unfinished, v.thread = some id ∨ ∃ c ∈ calls, c.Holding d id
  single : v.unfinished.Subsingleton

/-- The view keeps its thread and gets nothing. -/
structure DeviceView.Loses (v v' : DeviceView) : Prop where
  active : v'.active → v.active
  thread : v'.thread = v.thread
  unfinished : v'.unfinished ⊆ v.unfinished

theorem DeviceView.Loses.refl (v : DeviceView) : v.Loses v := ⟨id, rfl, subset_rfl⟩

section Steps
variable {d : Str} {v v' : DeviceView} {calls : List Call} {c c' : Call} {i : ℕ}

theorem Call.StartAt.starting {p : StartPc → Prop} (hp : ∀ pc, p pc → pc.starting = true)
    (h : c.StartAt p d) : c.Starting d := by
  cases c with
  | start name pc rest => exact ⟨h.1, hp pc h.2⟩
  | stop name pc => cases h
  | stopAll pc => cases h

theorem StartPc.starting_of_opening (pc : StartPc) (h : pc.opening = true) : pc.starting = true := by
  cases pc <;> first | rfl | cases h

theorem StartPc.starting_of_emptied (pc : StartPc) (h : pc.emptied = true) : pc.starting = true := by
  cases pc <;> first | rfl | cases h

/-- A call that goes on without a new role, and a view that only loses. -/
theorem OneWorker.set (h : OneWorker d v calls) (hi : calls[i]? = some c)
    (hv : v.Loses v') (hstarting : c'.Starting d → c.Starting d)
    (hemptied : c'.Emptied d → c.Emptied d) (hopening : c'.Opening d → c.Opening d)
    (hstopping : c'.Stopping d → c.Stopping d)
    (hheld : ∀ id ∈ v'.unfinished, c.Holding d id → c'.Holding d id) :
    OneWorker d v' (calls.set i c') where
  unique := h.unique.set hi hstarting
  inactive hex hactive := h.inactive (Pool.exists_of_set hi hstarting hex) (hv.active hactive)
  emptied hex := hv.thread.trans (h.emptied (Pool.exists_of_set hi hemptied hex))
  quiet hex hex' := by
    have hempty := h.quiet (Pool.exists_of_set hi hopening hex) (Pool.exists_of_set hi hstopping hex')
    exact Set.subset_eq_empty (hempty ▸ hv.unfinished) rfl
  held id hid := by
    rcases h.held id (hv.unfinished hid) with hthread | hex
    · exact .inl (hv.thread.trans hthread)
    · exact .inr (Pool.exists_set hi (hheld id hid) hex)
  single := h.single.anti hv.unfinished

/-- The calls stay, and the view only loses. -/
theorem OneWorker.anti (h : OneWorker d v calls) (hv : v.Loses v') : OneWorker d v' calls where
  unique := h.unique
  inactive hex hactive := h.inactive hex (hv.active hactive)
  emptied hex := hv.thread.trans (h.emptied hex)
  quiet hex hex' := Set.subset_eq_empty (h.quiet hex hex' ▸ hv.unfinished) rfl
  held id hid := (h.held id (hv.unfinished hid)).imp_left hv.thread.trans
  single := h.single.anti hv.unfinished

/-- A new call has no role. -/
theorem OneWorker.cons (h : OneWorker d v calls) (hstarting : ¬ c.Starting d)
    (hemptied : ¬ c.Emptied d) (hopening : ¬ c.Opening d) (hstopping : ¬ c.Stopping d) :
    OneWorker d v (c :: calls) where
  unique := h.unique.cons hstarting
  inactive hex := h.inactive (Pool.exists_of_cons hstarting hex)
  emptied hex := h.emptied (Pool.exists_of_cons hemptied hex)
  quiet hex hex' := h.quiet (Pool.exists_of_cons hopening hex) (Pool.exists_of_cons hstopping hex')
  held id hid := (h.held id hid).imp_right fun ⟨b, hb, hholding⟩ =>
    ⟨b, List.mem_cons_of_mem c hb, hholding⟩
  single := h.single

/-- A start enters. -/
theorem OneWorker.enter {rest : List Str} (h : OneWorker d v calls)
    (hi : calls[i]? = some (.start d .isActive rest)) (hactive : ¬ v.active)
    (hfree : ∀ c ∈ calls, ¬ c.Starting d) (hquiet : (∃ c ∈ calls, c.Stopping d) → v.unfinished = ∅) :
    OneWorker d v (calls.set i (.start d .takeThread rest)) where
  unique := Pool.AtMostOne.set_of_forall hfree
  inactive _ := hactive
  emptied hex := by
    refine h.emptied (Pool.exists_of_set hi ?_ hex)
    simp
  quiet _ hex := hquiet (Pool.exists_of_set hi (by simp) hex)
  held id hid := (h.held id hid).imp_right <| Pool.exists_set hi <| by
    simp
  single := h.single

/-- A start takes the stale thread. -/
theorem OneWorker.takeStale {rest : List Str} (h : OneWorker d v calls)
    (hi : calls[i]? = some (.start d .takeThread rest)) :
    OneWorker d { v with thread := none }
      (calls.set i (.start d (.eraseStopFlag v.thread) rest)) where
  unique := h.unique.set hi (by simp)
  inactive hex := h.inactive (Pool.exists_of_set hi
    (by simp) hex)
  emptied _ := rfl
  quiet hex hex' := h.quiet
    (Pool.exists_of_set hi (by simp) hex)
    (Pool.exists_of_set hi (by simp) hex')
  held id hid := by
    refine .inr ?_
    rcases h.held id hid with hthread | hex
    · refine ⟨_, List.mem_set (List.getElem?_eq_some_iff.mp hi).1 _, .inl ⟨rfl, ?_⟩⟩
      simpa using hthread
    · refine Pool.exists_set hi ?_ hex
      simp
  single := h.single

theorem Call.Holding.starting_or_stopping {id : ℕ} (h : c.Holding d id) :
    c.Starting d ∨ c.Stopping d := by
  cases c with
  | start name pc rest =>
    rcases h with ⟨hname, hheld⟩ | hstop
    · refine .inl ⟨hname, ?_⟩
      cases pc <;> first | rfl | cases hheld
    · cases hstop
  | stop name pc =>
    rcases h with hstart | ⟨hname, hheld⟩
    · cases hstart
    · refine .inr ⟨hname, ?_⟩
      cases pc <;> first | rfl | cases hheld
  | stopAll pc => rcases h with ⟨⟨⟩⟩ | ⟨⟨⟩⟩

/-- When a start is about to create a thread, nobody has a thread of the device, so no worker of the
device is unfinished. -/
theorem OneWorker.unfinished_eq_empty {rest : List Str} (h : OneWorker d v calls)
    (hi : calls[i]? = some (.start d .createThread rest)) : v.unfinished = ∅ := by
  have hmem := List.mem_of_getElem? hi
  by_contra hne
  obtain ⟨id, hid⟩ := Set.nonempty_iff_ne_empty.mpr hne
  rcases h.held id hid with hthread | ⟨b, hb, hholding⟩
  · rw [h.emptied ⟨_, hmem, rfl, rfl⟩] at hthread
    cases hthread
  · rcases hholding.starting_or_stopping with hstarting | hstopping
    · obtain rfl := h.unique.eq hi ⟨rfl, rfl⟩ hb hstarting
      simp at hholding
    · exact hne (h.quiet ⟨_, hmem, rfl, rfl⟩ ⟨b, hb, hstopping⟩)

/-- A start creates the thread, and holds it. -/
theorem OneWorker.createThread {rest : List Str} {id : ℕ} (h : OneWorker d v calls)
    (hi : calls[i]? = some (.start d .createThread rest)) :
    OneWorker d { v with unfinished := insert id v.unfinished }
      (calls.set i (.start d (.addWorker id) rest)) where
  unique := h.unique.set hi (by simp)
  inactive hex := h.inactive (Pool.exists_of_set hi
    (by simp) hex)
  emptied hex := h.emptied (Pool.exists_of_set hi
    (by simp) hex)
  quiet hex _ := by
    -- the only start of the device has left its window
    refine absurd hex (Pool.AtMostOne.not_exists_set ?_ hi ⟨rfl, rfl⟩ ?_)
    · exact h.unique.imp fun b hopening => hopening.starting StartPc.starting_of_opening
    · simp
  held j hj := by
    rw [h.unfinished_eq_empty hi] at hj
    obtain rfl : j = id := by simpa using hj
    exact .inr ⟨_, List.mem_set (List.getElem?_eq_some_iff.mp hi).1 _, .inl ⟨rfl, rfl⟩⟩
  single := by
    rw [h.unfinished_eq_empty hi]
    simp

/-- A start registers the worker that it holds. -/
theorem OneWorker.addWorker {rest : List Str} {id : ℕ} (h : OneWorker d v calls)
    (hi : calls[i]? = some (.start d (.addWorker id) rest)) :
    OneWorker d { v with active := True, stopFlag := some id, thread := some id }
      (calls.set i (.start d .done rest)) := by
  have hnone : ¬ ∃ b ∈ calls.set i (.start d .done rest), b.Starting d := by
    refine h.unique.not_exists_set hi ⟨rfl, rfl⟩ ?_
    simp
  have hthread := h.emptied ⟨_, List.mem_of_getElem? hi, rfl, rfl⟩
  refine ⟨h.unique.set hi fun _ => ⟨rfl, rfl⟩, fun hex => absurd hex hnone, fun ⟨b, hb, hemptied⟩ =>
    absurd ⟨b, hb, hemptied.starting StartPc.starting_of_emptied⟩ hnone, fun ⟨b, hb, hopening⟩ =>
    absurd ⟨b, hb, hopening.starting StartPc.starting_of_opening⟩ hnone, fun j hj => ?_, h.single⟩
  rcases h.held j hj with hthread' | ⟨b, hb, hholding⟩
  · rw [hthread] at hthread'
    cases hthread'
  · by_cases hstarting : b.Starting d
    · -- the start that holds it is this one
      obtain rfl := h.unique.eq hi ⟨rfl, rfl⟩ hb hstarting
      refine .inl ?_
      simpa using hholding
    · obtain ⟨k, hk⟩ := List.mem_iff_getElem?.mp hb
      have hik : i ≠ k := by
        rintro rfl
        rw [hi] at hk
        cases hk
        exact hstarting ⟨rfl, rfl⟩
      refine .inr ⟨b, List.mem_of_getElem? (i := k) ?_, hholding⟩
      rw [List.getElem?_set_ne hik]
      exact hk

/-- A stop enters. -/
theorem OneWorker.requestStop (h : OneWorker d v calls)
    (hi : calls[i]? = some (.stop d .requestStop)) (hactive : v.active) :
    OneWorker d v (calls.set i (.stop d .takeThread)) where
  unique := h.unique.set hi (by simp)
  inactive hex := h.inactive (Pool.exists_of_set hi (by simp) hex)
  emptied hex := h.emptied (Pool.exists_of_set hi (by simp) hex)
  quiet hex _ := by
    -- no start of an active device is in its window
    obtain ⟨b, hb, hopening⟩ := Pool.exists_of_set hi (by simp) hex
    exact absurd hactive (h.inactive ⟨b, hb, hopening.starting StartPc.starting_of_opening⟩)
  held id hid := (h.held id hid).imp_right <| Pool.exists_set hi <| by
    simp
  single := h.single

/-- A stop takes the thread. -/
theorem OneWorker.takeThread (h : OneWorker d v calls)
    (hi : calls[i]? = some (.stop d .takeThread)) :
    OneWorker d { v with thread := none } (calls.set i (.stop d (.eraseStopFlag v.thread))) where
  unique := h.unique.set hi (by simp)
  inactive hex := h.inactive (Pool.exists_of_set hi (by simp) hex)
  emptied _ := rfl
  quiet hex hex' := h.quiet (Pool.exists_of_set hi (by simp) hex)
    (Pool.exists_of_set hi (by simp) hex')
  held id hid := by
    refine .inr ?_
    rcases h.held id hid with hthread | hex
    · refine ⟨_, List.mem_set (List.getElem?_eq_some_iff.mp hi).1 _, .inr ⟨rfl, ?_⟩⟩
      simpa using hthread
    · refine Pool.exists_set hi ?_ hex
      simp
  single := h.single

end Steps

/-! ## 3. The steps of the calls -/

/-- A call as it occurs in these runs. -/
def Call.Sound : Call → Prop
  | .start d pc rest => pc ≠ .terminated ∧ ∀ name ∈ d :: rest, cString name = name
  | .stop _ _ => True
  | .stopAll _ => False

section CallSteps
variable {d e : Str} {s s' : DeviceStatusStore} {v v' : DeviceView} {calls : List Call} {c c' : Call}
  {i : ℕ}

theorem noWorker_iff : s.NoWorker d ↔ (s.view d).unfinished = ∅ := by
  rw [Set.eq_empty_iff_forall_notMem]
  constructor
  · rintro h id ⟨worker, hworker, hname, hfinished⟩
    rw [h worker (List.mem_of_getElem? hworker) hname] at hfinished
    cases hfinished
  · intro h worker hworker hname
    obtain ⟨id, hid⟩ := List.mem_iff_getElem?.mp hworker
    by_contra hfinished
    exact h id ⟨worker, hid, hname, by simpa using hfinished⟩

/-- A call about one device changes nothing for the others. -/
theorem OneWorker.other (h : OneWorker e v calls) (hi : calls[i]? = some c) (hview : v' = v)
    (hc : ∀ p q, ¬ c.StartAt p e ∧ ¬ c.StopAt q e) (hc' : ∀ p q, ¬ c'.StartAt p e ∧ ¬ c'.StopAt q e) :
    OneWorker e v' (calls.set i c') := by
  subst hview
  refine h.set hi (.refl v') ?_ ?_ ?_ ?_ ?_
  · exact fun h' => absurd h' (hc' _ fun _ => False).1
  · exact fun h' => absurd h' (hc' _ fun _ => False).1
  · exact fun h' => absurd h' (hc' _ fun _ => False).1
  · exact fun h' => absurd h' (hc' (fun _ => False) _).2
  · rintro id - (h' | h')
    · exact absurd h' (hc _ fun _ => False).1
    · exact absurd h' (hc (fun _ => False) _).2

theorem CallStep.sound (hstep : CallStep c s c' s') (hc : c.Sound)
    (hthread : ∀ d id rest, c = .start d (.addWorker id) rest → (s.view d).thread = none) :
    c'.Sound := by
  cases hstep with
  | nextStart => exact ⟨by simp, (List.forall_mem_cons.mp hc.2).2⟩
  | terminate hadd => exact absurd (hthread _ _ _ rfl) (addWorker_eq_none hadd)
  | checksPassed | checksFailed | alreadyRunning _ | notRunning _ | takeStale | eraseStale
  | joinStale _ | createThread | noThread | addWorker _ | markStartFailed => exact ⟨by simp, hc.2⟩
  | deviceFound | deviceMissing | stopNotRunning _ | requestStop _ | takeThread | eraseStopFlag
  | join _ | markStopped => trivial
  | requestStopAll | takeAllThreads | joinNext _ | joinedAll | clearAllWorkers => exact hc

theorem loses_markStartFailed : (s.view e).Loses ((s.markStartFailed d).view e) := by
  rw [view_markStartFailed]
  split
  · exact ⟨False.elim, rfl, subset_rfl⟩
  · exact .refl _

theorem loses_eraseStopFlag : (s.view e).Loses ((s.eraseStopFlag d).view e) := by
  rw [view_eraseStopFlag]
  split
  · exact ⟨id, rfl, subset_rfl⟩
  · exact .refl _

/-- One step of one of the calls. -/
theorem CallStep.oneWorker (hstep : CallStep c s c' s') (hi : calls[i]? = some c) (hc : c.Sound)
    (hchecking : ∀ d ∈ c.checking, d ∉ s.activeDevices →
      ∀ b ∈ calls, ¬ b.Starting d ∧ (b.Stopping d → s.NoWorker d))
    (h : ∀ d, OneWorker d (s.view d) calls) (e : Str) :
    OneWorker e (s'.view e) (calls.set i c') := by
  cases hstep with
  | nextStart | checksPassed | checksFailed | alreadyRunning _ | noThread | deviceFound
  | deviceMissing | stopNotRunning _ =>
    refine (h e).set hi (.refl _) ?_ ?_ ?_ ?_ ?_ <;> simp
  | joinStale hjoined | join hjoined =>
    refine (h e).set hi (.refl _) ?_ ?_ ?_ ?_ fun id hid hholding => ?_
    rotate_right
    · -- a thread that could be joined is that of no unfinished worker
      have hid' := hjoined id (by simp at hholding; exact hholding.2)
      rw [Unfinished.hasFinished hid] at hid'
      cases hid'
    all_goals simp
  | @notRunning d rest _ hactive =>
    by_cases he : d = e
    · subst he
      refine (h d).enter hi hactive (fun b hb => (hchecking d rfl hactive b hb).1) ?_
      rintro ⟨b, hb, hstopping⟩
      exact noWorker_iff.mp ((hchecking d rfl hactive b hb).2 hstopping)
    · exact (h e).other hi rfl (by simp [he]) (by simp [he])
  | @takeStale d rest =>
    rw [view_takeThread]
    split
    · next he =>
      subst he
      exact (h e).takeStale hi
    · next he => exact (h e).other hi rfl (by simp [Ne.symm he]) (by simp [Ne.symm he])
  | @createThread d rest =>
    rw [view_spawn, hc.2 d List.mem_cons_self]
    split
    · next he =>
      subst he
      exact (h e).createThread hi
    · next he => exact (h e).other hi rfl (by simp [Ne.symm he]) (by simp [Ne.symm he])
  | @addWorker d rest id _ _ hadd =>
    rw [(addWorker_eq_some hadd).2]
    split
    · next he =>
      subst he
      exact (h e).addWorker hi
    · next he => exact (h e).other hi rfl (by simp [Ne.symm he]) (by simp [Ne.symm he])
  | @terminate d rest id _ hadd =>
    have hthread := (h d).emptied ⟨_, List.mem_of_getElem? hi, rfl, rfl⟩
    exact absurd hthread (addWorker_eq_none hadd)
  | markStartFailed | markStopped =>
    refine (h e).set hi loses_markStartFailed ?_ ?_ ?_ ?_ ?_ <;> simp
  | @requestStop d _ hactive =>
    rw [view_requestStop]
    by_cases he : d = e
    · subst he
      exact (h d).requestStop hi hactive
    · exact (h e).other hi rfl (by simp [he]) (by simp [he])
  | @takeThread d =>
    rw [view_takeThread]
    split
    · next he =>
      subst he
      exact (h e).takeThread hi
    · next he => exact (h e).other hi rfl (by simp [Ne.symm he]) (by simp [Ne.symm he])
  | eraseStale | eraseStopFlag =>
    refine (h e).set hi loses_eraseStopFlag ?_ ?_ ?_ ?_ ?_ <;> simp
  | requestStopAll | takeAllThreads | joinNext _ | joinedAll | clearAllWorkers => cases hc

end CallSteps

/-! ## 4. Runs -/

structure System.OneWorker (s : System) : Prop where
  sound : ∀ c ∈ s.calls, c.Sound
  device : ∀ d, CollectorService.OneWorker d (s.registry.view d) s.calls

theorem System.OneWorker.step {s s' : System} {a : Action} (h : s.OneWorker)
    (hok : StartsAndStops s a ∧ Unraced s a) (hstep : s.step a = some s') : s'.OneWorker := by
  obtain ⟨hcommands, hunraced⟩ := hok
  cases System.step_cases hstep with
  | @call command =>
    cases command with
    | startDeviceCollect d =>
      refine ⟨List.forall_mem_cons.mpr ⟨⟨by simp, List.forall_mem_singleton.mpr hunraced⟩, h.sound⟩,
        fun e => (h.device e).cons ?_ ?_ ?_ ?_⟩ <;> simp [WorkerCommand.begin]
    | startAll names =>
      refine ⟨List.forall_mem_cons.mpr ⟨⟨by simp, List.forall_mem_cons.mpr ⟨rfl, hunraced⟩⟩, h.sound⟩,
        fun e => (h.device e).cons ?_ ?_ ?_ ?_⟩ <;> simp [WorkerCommand.begin]
    | stopDeviceCollect d =>
      refine ⟨List.forall_mem_cons.mpr ⟨trivial, h.sound⟩,
        fun e => (h.device e).cons ?_ ?_ ?_ ?_⟩ <;> simp [WorkerCommand.begin]
    | stopAll => exact absurd rfl hcommands
  | @advance i passed c c' r hget hc =>
    have hsound := h.sound c (List.mem_of_getElem? hget)
    refine ⟨fun b hb => ?_, hc.oneWorker hget hsound (fun d hd => ?_) h.device⟩
    · rcases List.mem_or_eq_of_mem_set hb with hmem | rfl
      · exact h.sound b hmem
      · refine hc.sound hsound fun d id rest hcall => ?_
        exact (h.device d).emptied ⟨c, List.mem_of_getElem? hget, by rw [hcall]; exact ⟨rfl, rfl⟩⟩
    · exact hunraced d (by rw [hget]; exact hd)
  | @finish id worker hworker hfinished =>
    have hid : s.registry.Unfinished id worker.deviceName := ⟨worker, hworker, rfl, hfinished⟩
    refine ⟨h.sound, fun d => (h.device d).anti ?_⟩
    rw [view_finish_eq hid]
    split
    · exact ⟨False.elim, rfl, Set.sdiff_subset⟩
    · exact .refl _
  | publish => exact ⟨h.sound, h.device⟩

theorem System.initial_oneWorker : System.initial.OneWorker := by
  have hnone : ∀ p : Call → Prop, ¬ ∃ c ∈ System.initial.calls, p c := fun p => by
    rintro ⟨c, hc, -⟩
    cases hc
  have hunfinished : ∀ d, (System.initial.registry.view d).unfinished = ∅ := fun d =>
    noWorker_iff.mp fun worker hworker => absurd hworker List.not_mem_nil
  refine ⟨fun c hc => absurd hc List.not_mem_nil, fun d => ⟨?_, fun h => absurd h (hnone _),
    fun h => absurd h (hnone _), fun h => absurd h (hnone _), fun id hid => ?_, ?_⟩⟩
  · intro i j a b ha
    cases ha
  · rw [hunfinished] at hid
    cases hid
  · rw [hunfinished]
    exact Set.subsingleton_empty

/-- In every state of a run of starts and stops without such a race, no two unfinished workers have
one name, and no `addWorker` has met a thread that could be joined. -/
theorem oneWorker_of_reach {s : System}
    (hs : Steps.Reach System.step (fun s a => StartsAndStops s a ∧ Unraced s a) .initial s) :
    (∀ d id id', s.registry.Unfinished id d → s.registry.Unfinished id' d → id = id') ∧
      ∀ d rest, .start d .terminated rest ∉ s.calls := by
  have h : s.OneWorker := hs.invariant System.initial_oneWorker fun _ _ _ h => h.step
  refine ⟨fun d id id' hid hid' => (h.device d).single hid hid', fun d rest hmem => ?_⟩
  exact (h.sound _ hmem).1 rfl

/-- A start of `A` and a stop of `A` overlap, and `A` is started again. -/
theorem oneWorker_of_reach_restarted : ∃ s : System, s.registry.Unfinished 1 (lit "A") ∧
    (∀ id, s.registry.Unfinished id (lit "A") → id = 1) ∧
      ∀ d rest, .start d .terminated rest ∉ s.calls := by
  obtain ⟨s, hs, hworkers⟩ := @Steps.exists_reach_of_run _ _ System.step
    (fun s a => StartsAndStops s a ∧ Unraced s a) .initial _
    (fun s => s.registry.workers[1]? = some { deviceName := lit "A" }) _
    (.call (.startDeviceCollect (lit "A")) :: List.replicate 7 (.advance 0 true) ++
      .call (.stopDeviceCollect (lit "A")) :: List.replicate 2 (.advance 0 true) ++
      .call (.startDeviceCollect (lit "A")) :: .advance 0 true :: .finish 0 ::
        List.replicate 6 (.advance 0 true))
    (by decide +kernel)
  have hone : s.registry.Unfinished 1 (lit "A") := ⟨_, hworkers, rfl, rfl⟩
  obtain ⟨hunique, hterminated⟩ := oneWorker_of_reach hs
  exact ⟨s, hone, fun id hid => hunique _ _ _ hid hone, hterminated⟩

/-- Two starts of `A` pass the check before either registers its worker. -/
theorem start_race : ∃ s, Steps.Reach System.step StartsAndStops .initial s ∧
    s.registry.Unfinished 0 (lit "A") ∧ s.registry.Unfinished 1 (lit "A") ∧
      .start (lit "A") .terminated [] ∈ s.calls := by
  obtain ⟨s, hs, hzero, hone, hterminated⟩ := @Steps.exists_reach_of_run _ _ System.step
    StartsAndStops .initial _
    (fun s => s.registry.workers[0]? = some { deviceName := lit "A" } ∧
      s.registry.workers[1]? = some { deviceName := lit "A" } ∧
      .start (lit "A") .terminated [] ∈ s.calls) _
    (.call (.startDeviceCollect (lit "A")) :: .call (.startDeviceCollect (lit "A")) ::
      List.replicate 6 (.advance 0 true) ++ List.replicate 7 (.advance 1 true) ++ [.advance 0 true])
    (by decide +kernel)
  exact ⟨s, hs, ⟨_, hzero, rfl, rfl⟩, ⟨_, hone, rfl, rfl⟩, hterminated⟩

end CollectorService
