import CollectorService.OneWorker

/-!
# Shutting down

`stopAll` sets the flags, takes the threads, joins them and clears the maps, and starts may run in
between. A start that registers its worker after the flags are set has its thread joined without a
flag, and one that registers after the threads are taken loses its flag to the clearing. So does a
worker whose flag `markStartFailed` or a second start has dropped before.

* `shutdown_of_reach`: a run in which no start is under way while `stopAll` is, and in which nothing
  has dropped a flag before, neither hangs nor leaks.
* `shutdown_race`: a start in each of the two gaps.
-/

namespace CollectorService

open DeviceStatusStore

/-! ## 1. The runs -/

/-- The flags have been set. -/
@[simp] def StopAllPc.requested : StopAllPc → Bool
  | .requestStopAll => false
  | _ => true

/-- Between `requestStopAll` and `clearAllWorkers`. -/
@[simp] def StopAllPc.draining : StopAllPc → Bool
  | .requestStopAll | .done => false
  | _ => true

namespace Call

/-- The call is a `stopAll` at a line with `p`. -/
@[simp] def StopAllAt (p : StopAllPc → Prop) : Call → Prop
  | .stopAll pc => p pc
  | _ => False

instance (p : StopAllPc → Prop) [DecidablePred p] : DecidablePred (StopAllAt p)
  | .stopAll pc => inferInstanceAs (Decidable (p pc))
  | .start _ _ _ | .stop _ _ => .isFalse id

/-- The call is a start between its check and `addWorker`. -/
@[simp] def Busy : Call → Prop
  | .start _ pc _ => pc.starting
  | _ => False

instance : DecidablePred Busy
  | .start _ pc _ => inferInstanceAs (Decidable pc.starting)
  | .stop _ _ | .stopAll _ => .isFalse id

end Call

/-- Starts are called, and `stopAll` once. -/
def StartsAndStopAll (s : System) : Action → Prop
  | .call (.stopDeviceCollect _) => False
  | .call .stopAll => ∀ c ∈ s.calls, ¬ c.StopAllAt fun _ => True
  | _ => True

instance : ∀ s a, Decidable (StartsAndStopAll s a)
  | _, .call (.stopDeviceCollect _) => .isFalse id
  | s, .call .stopAll => inferInstanceAs (Decidable (∀ c ∈ s.calls, _))
  | _, .call (.startDeviceCollect _) | _, .call (.startAll _) => .isTrue trivial
  | _, .advance _ _ | _, .finish _ | _, .publish _ _ => .isTrue trivial

/-- `requestStopAll` has not been called. -/
def System.Running (s : System) : Prop := ∀ c ∈ s.calls, ¬ c.StopAllAt (·.requested)

instance (s : System) : Decidable s.Running := inferInstanceAs (Decidable (∀ c ∈ s.calls, _))

/-- No start passes its check between `requestStopAll` and `clearAllWorkers`, and none is between
the check and `addWorker` when the flags are set. Before, a start passes the check only while no
other start of the device has passed it, and none fails while its device is being collected. No name
has a NUL byte. -/
def Orderly (s : System) : Action → Prop
  | .call command => command.Plain
  | .advance i _ =>
    (∀ d ∈ s.calls[i]?.bind Call.checking, d ∉ s.registry.activeDevices →
      (∀ c ∈ s.calls, ¬ c.StopAllAt (·.draining)) ∧ (s.Running → ∀ c ∈ s.calls, ¬ c.Starting d)) ∧
    (∀ d ∈ s.calls[i]?.bind Call.failing, s.Running → d ∉ s.registry.activeDevices) ∧
    (s.calls[i]? = some (.stopAll .requestStopAll) → ∀ c ∈ s.calls, ¬ c.Busy)
  | _ => True

instance : ∀ s a, Decidable (Orderly s a)
  | _, .call command => inferInstanceAs (Decidable command.Plain)
  | _, .advance _ _ => inferInstanceAs (Decidable ((∀ d ∈ _, _ → _ ∧ _) ∧ (∀ d ∈ _, _ → _) ∧ _))
  | _, .finish _ | _, .publish _ _ => .isTrue trivial

/-- Every unfinished worker is active, with its flag and its thread in the registry. -/
def AllRegistered (s : DeviceStatusStore) : Prop :=
  ∀ d id, s.Unfinished id d →
    d ∈ s.activeDevices ∧ s.stopFlags[d]? = some id ∧ s.workerThreads[d]? = some id

/-! ## 2. Before the flags are set -/

/-- What holds of each device: a worker that has not finished is registered, or its start is about
to do that. -/
structure Attached (d : Str) (v : DeviceView) (calls : List Call) : Prop where
  unique : Pool.AtMostOne (Call.Starting d) calls
  inactive : (∃ c ∈ calls, c.Starting d) → ¬ v.active
  emptied : (∃ c ∈ calls, c.Emptied d) → v.thread = none
  registered : ∀ id ∈ v.unfinished, (v.active ∧ v.stopFlag = some id ∧ v.thread = some id) ∨
    ∃ c ∈ calls, c.StartAt (· = .addWorker id) d

theorem StartPc.starting_of_addWorker {id : ℕ} (pc : StartPc) (h : pc = .addWorker id) :
    pc.starting = true := by
  rw [h]
  rfl

namespace Attached

variable {d : Str} {v v' : DeviceView} {calls : List Call} {c c' : Call} {i id : ℕ}

/-- A call that takes no new role, and a view that loses no registered worker. -/
theorem set (h : Attached d v calls) (hi : calls[i]? = some c) (hactive : v'.active → v.active)
    (hthread : v.thread = none → v'.thread = none) (hunfinished : v'.unfinished ⊆ v.unfinished)
    (hentries : v.active → v'.active ∧ v'.stopFlag = v.stopFlag ∧ v'.thread = v.thread)
    (hstarting : c'.Starting d → c.Starting d)
    (hemptied : c'.Emptied d → c.Emptied d ∨ v'.thread = none)
    (hadding : ∀ id, c.StartAt (· = .addWorker id) d → c'.StartAt (· = .addWorker id) d) :
    Attached d v' (calls.set i c') where
  unique := h.unique.set hi hstarting
  inactive hex hv' := h.inactive (Pool.exists_of_set hi hstarting hex) (hactive hv')
  emptied hex := by
    by_contra hsome
    exact hsome (hthread (h.emptied (Pool.exists_of_set hi
      (fun h' => (hemptied h').resolve_right hsome) hex)))
  registered id hid := by
    rcases h.registered id (hunfinished hid) with ⟨hv, hflag, hthread'⟩ | hex
    · obtain ⟨hv', hflag', hthread''⟩ := hentries hv
      exact .inl ⟨hv', hflag'.trans hflag, hthread''.trans hthread'⟩
    · exact .inr (Pool.exists_set hi (hadding id) hex)

theorem cons (h : Attached d v calls) (hstarting : ¬ c.Starting d) (hemptied : ¬ c.Emptied d) :
    Attached d v (c :: calls) where
  unique := h.unique.cons hstarting
  inactive hex := h.inactive (Pool.exists_of_cons hstarting hex)
  emptied hex := h.emptied (Pool.exists_of_cons hemptied hex)
  registered id hid := (h.registered id hid).imp_right fun ⟨b, hb, hadding⟩ =>
    ⟨b, List.mem_cons_of_mem c hb, hadding⟩

/-- While a start that has not created its worker is under way, the device has no worker. -/
theorem unfinished_eq_empty (h : Attached d v calls) (hi : calls[i]? = some c)
    (hstarting : c.Starting d) (hadding : ∀ id, ¬ c.StartAt (· = .addWorker id) d) :
    v.unfinished = ∅ := by
  refine Set.eq_empty_iff_forall_notMem.mpr fun id hid => ?_
  rcases h.registered id hid with ⟨hactive, -⟩ | ⟨b, hb, hb'⟩
  · exact h.inactive ⟨c, List.mem_of_getElem? hi, hstarting⟩ hactive
  · obtain rfl := h.unique.eq hi hstarting hb (hb'.starting StartPc.starting_of_addWorker)
    exact hadding id hb'

theorem enter {rest : List Str} (h : Attached d v calls)
    (hi : calls[i]? = some (.start d .isActive rest)) (hactive : ¬ v.active)
    (hfree : ∀ c ∈ calls, ¬ c.Starting d) :
    Attached d v (calls.set i (.start d .takeThread rest)) where
  unique := Pool.AtMostOne.set_of_forall hfree
  inactive _ := hactive
  emptied hex := h.emptied (Pool.exists_of_set hi (by simp) hex)
  registered id hid := (h.registered id hid).imp_right (Pool.exists_set hi (by simp))

theorem createThread {rest : List Str} (h : Attached d v calls)
    (hi : calls[i]? = some (.start d .createThread rest)) :
    Attached d { v with unfinished := insert id v.unfinished }
      (calls.set i (.start d (.addWorker id) rest)) where
  unique := h.unique.set hi (by simp)
  inactive hex := h.inactive (Pool.exists_of_set hi (by simp) hex)
  emptied hex := h.emptied (Pool.exists_of_set hi (by simp) hex)
  registered j hj := by
    rw [h.unfinished_eq_empty hi ⟨rfl, rfl⟩ (by simp)] at hj
    obtain rfl : j = id := by simpa using hj
    exact .inr ⟨_, List.mem_set (List.getElem?_eq_some_iff.mp hi).1 _, rfl, rfl⟩

theorem addWorker {rest : List Str} (h : Attached d v calls)
    (hi : calls[i]? = some (.start d (.addWorker id) rest)) :
    Attached d { v with active := True, stopFlag := some id, thread := some id }
      (calls.set i (.start d .done rest)) := by
  have hnone : ¬ ∃ b ∈ calls.set i (.start d .done rest), b.Starting d :=
    h.unique.not_exists_set hi ⟨rfl, rfl⟩ (by simp)
  refine ⟨h.unique.set hi fun _ => ⟨rfl, rfl⟩, fun hex => absurd hex hnone, fun ⟨b, hb, hemptied⟩ =>
    absurd ⟨b, hb, hemptied.starting StartPc.starting_of_emptied⟩ hnone, fun j hj => .inl ?_⟩
  rcases h.registered j hj with ⟨hactive, -⟩ | ⟨b, hb, hadding⟩
  · exact absurd hactive (h.inactive ⟨_, List.mem_of_getElem? hi, rfl, rfl⟩)
  · obtain rfl := h.unique.eq hi ⟨rfl, rfl⟩ hb (hadding.starting StartPc.starting_of_addWorker)
    obtain ⟨-, hid⟩ := hadding
    cases hid
    exact ⟨trivial, rfl, rfl⟩

/-- A worker finishes: the entries that it erases are its own. -/
theorem finish (h : Attached d v calls) (hid : id ∈ v.unfinished) :
    Attached d { v with active := False, stopFlag := none, unfinished := v.unfinished \ {id} }
      calls where
  unique := h.unique
  inactive _ := fun hfalse => hfalse
  emptied hex := h.emptied hex
  registered j hj := by
    refine (h.registered j hj.1).imp_left fun ⟨hactive, hflag, _⟩ => ?_
    rcases h.registered id hid with ⟨-, hflag', -⟩ | ⟨b, hb, hadding⟩
    · rw [hflag, Option.some_inj] at hflag'
      exact absurd hflag' hj.2
    · exact absurd hactive (h.inactive ⟨b, hb, hadding.starting StartPc.starting_of_addWorker⟩)

end Attached

/-- One step of a start while the flags have not been set. -/
theorem CallStep.attached {d e : Str} {pc : StartPc} {rest : List Str} {s s' : DeviceStatusStore}
    {calls : List Call} {c' : Call} {i : ℕ} (hstep : CallStep (.start d pc rest) s c' s')
    (hi : calls[i]? = some (.start d pc rest)) (hplain : cString d = d)
    (hchecking : pc = .isActive → d ∉ s.activeDevices → ∀ b ∈ calls, ¬ b.Starting d)
    (hfailing : pc = .markStartFailed → d ∉ s.activeDevices)
    (h : Attached e (s.view e) calls) : Attached e (s'.view e) (calls.set i c') := by
  have hother : ∀ {c' : Call}, e ≠ d → (∀ p, ¬ c'.StartAt p e) →
      Attached e (s.view e) (calls.set i c') := fun he hc' =>
    h.set hi id id subset_rfl (fun hactive => ⟨hactive, rfl, rfl⟩) (fun h' => absurd h' (hc' _))
      (fun h' => absurd h' (hc' _)) (fun id h' => absurd h'.1.symm he)
  cases hstep with
  | nextStart | checksPassed | checksFailed | alreadyRunning _ | joinStale _ | noThread =>
    refine h.set hi id id subset_rfl (fun hactive => ⟨hactive, rfl, rfl⟩) ?_ ?_ ?_
      <;> simp +contextual
  | notRunning hactive =>
    by_cases he : e = d
    · subst he
      exact h.enter hi hactive (hchecking rfl hactive)
    · exact hother he (by simp [Ne.symm he])
  | takeStale =>
    rw [view_takeThread]
    split
    · next he =>
      subst he
      have hinactive := h.inactive ⟨_, List.mem_of_getElem? hi, rfl, rfl⟩
      refine h.set hi id (fun _ => rfl) subset_rfl (fun hactive => absurd hactive hinactive) ?_ ?_ ?_
        <;> simp
    · next he => exact hother he (by simp [Ne.symm he])
  | eraseStale =>
    rw [view_eraseStopFlag]
    split
    · next he =>
      subst he
      have hinactive := h.inactive ⟨_, List.mem_of_getElem? hi, rfl, rfl⟩
      refine h.set hi id id subset_rfl (fun hactive => absurd hactive hinactive) ?_ ?_ ?_ <;> simp
    · next he => exact hother he (by simp [Ne.symm he])
  | createThread =>
    rw [view_spawn, hplain]
    split
    · next he =>
      subst he
      exact h.createThread hi
    · next he => exact hother he (by simp [Ne.symm he])
  | addWorker hadd =>
    rw [(addWorker_eq_some hadd).2]
    split
    · next he =>
      subst he
      exact h.addWorker hi
    · next he => exact hother he (by simp [Ne.symm he])
  | terminate hadd =>
    by_cases he : e = d
    · subst he
      exact absurd (h.emptied ⟨_, List.mem_of_getElem? hi, rfl, rfl⟩) (addWorker_eq_none hadd)
    · exact hother he (by simp [Ne.symm he])
  | markStartFailed =>
    rw [view_markStartFailed]
    split
    · next he =>
      subst he
      refine h.set hi False.elim id subset_rfl (fun hactive => absurd hactive (hfailing rfl)) ?_ ?_ ?_
        <;> simp
    · next he => exact hother he (by simp [Ne.symm he])

/-! ## 3. While `stopAll` is draining -/

/-- The stop flag of the worker has been set. -/
def DeviceStatusStore.Flagged (s : DeviceStatusStore) (id : ℕ) : Prop :=
  ∃ worker, s.workers[id]? = some worker ∧ worker.stopFlag = true

/-- What `stopAll` at `pc` still has to join. -/
def StopAllPc.Covers (v : DeviceView) (id : ℕ) : StopAllPc → Prop
  | .takeAllThreads => v.thread = some id
  | .join threads => id ∈ threads
  | .clearAllWorkers => False
  | .requestStopAll | .done => True

/-- Every unfinished worker has its flag set, and will be joined. -/
def DeviceStatusStore.Drained (s : DeviceStatusStore) (pc : StopAllPc) : Prop :=
  ∀ d id, s.Unfinished id d → s.Flagged id ∧ pc.Covers (s.view d) id

theorem getElem?_foldl_setFlag : ∀ (ids : List ℕ) (workers : List Worker) (i : ℕ),
    (ids.foldl setFlag workers)[i]? = workers[i]?.map fun worker =>
      { worker with stopFlag := worker.stopFlag || decide (i ∈ ids) }
  | [], workers, i => by simp
  | id :: ids, workers, i => by
    rw [List.foldl_cons, getElem?_foldl_setFlag ids, setFlag, List.getElem?_modify]
    cases workers[i]? with
    | none => rfl
    | some worker => by_cases hid : id = i <;> simp [hid, eq_comm]

theorem flagged_requestStopAll {s : DeviceStatusStore} {d name : Str} {id : ℕ}
    (hflag : s.stopFlags[d]? = some id) (hid : s.Unfinished id name) :
    s.requestStopAll.Flagged id := by
  obtain ⟨worker, hworker, -⟩ := hid
  have hmem : id ∈ s.stopFlags.toList.map (·.2) :=
    List.mem_map.mpr ⟨(d, id), Std.ExtTreeMap.mem_toList_iff_getElem?_eq_some.mpr hflag, rfl⟩
  have hget : s.requestStopAll.workers[id]? = _ := getElem?_foldl_setFlag _ _ _
  rw [hworker] at hget
  exact ⟨_, hget, by simp only [hmem, decide_true, Bool.or_true]⟩

namespace DeviceStatusStore

variable {s s' : DeviceStatusStore} {pc : StopAllPc}

theorem Drained.mono (h : s.Drained pc) (hunfinished : ∀ d id, s'.Unfinished id d → s.Unfinished id d)
    (hflagged : ∀ id, s.Flagged id → s'.Flagged id)
    (hthread : ∀ d, (s'.view d).thread = (s.view d).thread) : s'.Drained pc := by
  intro d id hid
  obtain ⟨hflag, hcovers⟩ := h d id (hunfinished d id hid)
  refine ⟨hflagged id hflag, ?_⟩
  cases pc with
  | takeAllThreads => exact (hthread d).trans hcovers
  | requestStopAll | join _ | clearAllWorkers | done => exact hcovers

/-- The end of a worker leaves the stop flags as they are. -/
theorem flagged_finish {i id : ℕ} {name : Str} (h : s.Flagged i) : (s.finish id name).Flagged i := by
  obtain ⟨worker, hworker, hflag⟩ := h
  refine ⟨_, by rw [DeviceStatusStore.finish, List.getElem?_modify, hworker]; rfl, ?_⟩
  split <;> exact hflag

theorem Drained.finish {i : ℕ} {name : Str} (h : s.Drained pc) (hi : s.Unfinished i name) :
    (s.finish i name).Drained pc := by
  refine h.mono (fun d id hid => (unfinished_finish.mp hid).1) (fun id => flagged_finish) fun d => ?_
  rw [view_finish_eq hi]
  split <;> rfl

/-- A registry in which every unfinished worker is registered, after the flags are set. -/
theorem drained_requestStopAll (h : AllRegistered s) :
    s.requestStopAll.Drained .takeAllThreads := by
  intro d id hid
  have hid' : s.Unfinished id d := (unfinished_congr (map_foldl_setFlag _ s.workers) id d).mp hid
  obtain ⟨-, hflag, hthread⟩ := h d id hid'
  exact ⟨flagged_requestStopAll hflag hid', hthread⟩

end DeviceStatusStore

/-- One step of `stopAll` after the flags are set. -/
theorem CallStep.drained {s s' : DeviceStatusStore} {pc pc' : StopAllPc}
    (hstep : CallStep (.stopAll pc) s (.stopAll pc') s') (hpc : pc ≠ .requestStopAll)
    (h : s.Drained pc) (hpc' : pc' ≠ .done) : s'.Drained pc' := by
  cases hstep with
  | requestStopAll => exact absurd rfl hpc
  | takeAllThreads =>
    intro d id hid
    exact ⟨(h d id hid).1, mem_takeAllThreads.mpr ⟨d, (h d id hid).2⟩⟩
  | joinNext hdone =>
    intro d id hid
    obtain ⟨hflag, hmem⟩ := h d id hid
    refine ⟨hflag, (List.mem_cons.mp hmem).resolve_left ?_⟩
    rintro rfl
    rw [Unfinished.hasFinished hid] at hdone
    cases hdone
  | joinedAll =>
    intro d id hid
    exact absurd (h d id hid).2 List.not_mem_nil
  | clearAllWorkers => exact absurd rfl hpc'

/-- One step of a start that is not under way while `stopAll` is draining. -/
theorem CallStep.drained_start {s s' : DeviceStatusStore} {d : Str} {pc : StartPc} {rest : List Str}
    {c' : Call} {pc' : StopAllPc} (hstep : CallStep (.start d pc rest) s c' s')
    (hbusy : ¬ (Call.start d pc rest).Busy) (hchecking : pc = .isActive → d ∈ s.activeDevices)
    (h : s.Drained pc') : s'.Drained pc' ∧ ¬ c'.Busy := by
  cases hstep with
  | nextStart | checksPassed | checksFailed | alreadyRunning _ => exact ⟨h, by simp⟩
  | notRunning hactive => exact absurd (hchecking rfl) hactive
  | takeStale | eraseStale | joinStale _ | createThread | noThread | addWorker _ | terminate _ =>
    exact absurd rfl hbusy
  | markStartFailed =>
    refine ⟨h.mono (fun _ _ hid => hid) (fun _ hflagged => hflagged) fun e => ?_, by simp⟩
    rw [view_markStartFailed]
    split <;> rfl

/-! ## 4. Runs -/

/-- A call as it occurs in these runs. -/
def Call.Expected : Call → Prop
  | .start d _ rest => ∀ name ∈ d :: rest, cString name = name
  | .stop _ _ => False
  | .stopAll _ => True

structure System.Shutdown (s : System) : Prop where
  expected : ∀ c ∈ s.calls, c.Expected
  one : Pool.AtMostOne (Call.StopAllAt fun _ => True) s.calls
  attached : s.Running → ∀ d, Attached d (s.registry.view d) s.calls
  drained : ∀ pc, .stopAll pc ∈ s.calls → pc.draining = true →
    s.registry.Drained pc ∧ ∀ c ∈ s.calls, ¬ c.Busy

section Advance
variable {s : System} {r : DeviceStatusStore} {c' : Call} {i : ℕ}

theorem CallStep.start_next {s s' : DeviceStatusStore} {d : Str} {pc : StartPc} {rest : List Str}
    (hstep : CallStep (.start d pc rest) s c' s') :
    ∃ d' pc' rest', c' = .start d' pc' rest' ∧ ∀ name ∈ d' :: rest', name ∈ d :: rest := by
  cases hstep with
  | nextStart => exact ⟨_, _, _, rfl, fun name hname => List.mem_cons_of_mem _ hname⟩
  | _ => exact ⟨_, _, _, rfl, fun name hname => hname⟩

theorem CallStep.stopAll_next {s s' : DeviceStatusStore} {pc : StopAllPc}
    (hstep : CallStep (.stopAll pc) s c' s') : pc ≠ .done ∧
      ∃ pc', c' = .stopAll pc' ∧ pc'.requested = true ∧ (pc = .clearAllWorkers ↔ pc' = .done) := by
  cases hstep <;> simp

theorem System.Shutdown.advance_start {d : Str} {pc : StartPc} {rest : List Str} (h : s.Shutdown)
    (hget : s.calls[i]? = some (.start d pc rest))
    (hstep : CallStep (.start d pc rest) s.registry c' r)
    (hchecking : pc = .isActive → d ∉ s.registry.activeDevices →
      (∀ c ∈ s.calls, ¬ c.StopAllAt (·.draining)) ∧ (s.Running → ∀ c ∈ s.calls, ¬ c.Starting d))
    (hfailing : pc = .markStartFailed → s.Running → d ∉ s.registry.activeDevices) :
    System.Shutdown ⟨r, s.calls.set i c'⟩ := by
  have hexpected := h.expected _ (List.mem_of_getElem? hget)
  obtain ⟨d', pc', rest', rfl, hnames⟩ := hstep.start_next
  have hstopAll : ∀ pc, .stopAll pc ∈ s.calls.set i (.start d' pc' rest') → .stopAll pc ∈ s.calls :=
    fun pc hpc => (List.mem_or_eq_of_mem_set hpc).resolve_right (by simp)
  refine ⟨fun c hc => ?_, h.one.set hget (by simp), fun hrunning e => ?_, fun pc hpc hdraining => ?_⟩
  · rcases List.mem_or_eq_of_mem_set hc with hmem | rfl
    · exact h.expected c hmem
    · exact fun name hname => hexpected name (hnames name hname)
  · have hrunning' : s.Running := fun c hc hrequested => by
      obtain ⟨b, hb, hb'⟩ := Pool.exists_set hget (p := Call.StopAllAt (·.requested)) (by simp)
        ⟨c, hc, hrequested⟩
      exact hrunning b hb hb'
    exact hstep.attached hget (hexpected d List.mem_cons_self)
      (fun hpc hactive => (hchecking hpc hactive).2 hrunning') (fun hpc => hfailing hpc hrunning')
      (h.attached hrunning' e)
  · obtain ⟨hdrained, hbusy⟩ := h.drained pc (hstopAll pc hpc) hdraining
    obtain ⟨hdrained', hbusy'⟩ := hstep.drained_start (hbusy _ (List.mem_of_getElem? hget))
      (fun hpc' => by
        by_contra hactive
        exact (hchecking hpc' hactive).1 _ (hstopAll pc hpc) hdraining) hdrained
    refine ⟨hdrained', fun c hc => ?_⟩
    rcases List.mem_or_eq_of_mem_set hc with hmem | rfl
    · exact hbusy c hmem
    · exact hbusy'

theorem System.Shutdown.advance_stopAll {pc : StopAllPc} (h : s.Shutdown)
    (hget : s.calls[i]? = some (.stopAll pc)) (hstep : CallStep (.stopAll pc) s.registry c' r)
    (hbusy : pc = .requestStopAll → ∀ c ∈ s.calls, ¬ c.Busy) :
    System.Shutdown ⟨r, s.calls.set i c'⟩ := by
  have hmem := List.mem_of_getElem? hget
  obtain ⟨hnotDone, pc', rfl, hrequested, hdone⟩ := hstep.stopAll_next
  have hget' : (s.calls.set i (.stopAll pc'))[i]? = some (.stopAll pc') :=
    List.getElem?_set_self (List.getElem?_eq_some_iff.mp hget).1
  have hone : Pool.AtMostOne (Call.StopAllAt fun _ => True) (s.calls.set i (.stopAll pc')) :=
    h.one.set hget (by simp)
  refine ⟨fun c hc => ?_, hone, fun hrunning => ?_, fun pc'' hpc'' hdraining => ?_⟩
  · rcases List.mem_or_eq_of_mem_set hc with hin | rfl
    · exact h.expected c hin
    · trivial
  · exact absurd hrequested (hrunning _ (List.mem_of_getElem? hget'))
  · -- the call that made the step is the only `stopAll`
    cases hone.eq hget' trivial hpc'' trivial
    have hbusy' : ∀ c ∈ s.calls, ¬ c.Busy := by
      by_cases hpc : pc = .requestStopAll
      · exact hbusy hpc
      · exact (h.drained pc hmem (by cases pc <;> simp_all)).2
    refine ⟨?_, fun c hc => ?_⟩
    · by_cases hpc : pc = .requestStopAll
      · subst hpc
        cases hstep
        refine drained_requestStopAll fun d id hid => ?_
        have hrunning : s.Running := fun c hc hrequested' => by
          cases c with
          | stopAll pc'' =>
            cases h.one.eq hget trivial hc trivial
            cases hrequested'
          | start _ _ _ => cases hrequested'
          | stop _ _ => cases hrequested'
        rcases (h.attached hrunning d).registered id hid with hregistered | ⟨c, hc, hadding⟩
        · exact hregistered
        · cases c with
          | start name pc rest =>
            exact absurd (StartPc.starting_of_addWorker pc hadding.2) (hbusy' _ hc)
          | stop _ _ => cases hadding
          | stopAll _ => cases hadding
      · refine hstep.drained hpc (h.drained pc hmem (by cases pc <;> simp_all)).1 ?_
        rintro rfl
        cases hdraining
    · rcases List.mem_or_eq_of_mem_set hc with hin | rfl
      · exact hbusy' c hin
      · simp

end Advance

theorem System.Shutdown.step {s s' : System} {a : Action} (h : s.Shutdown)
    (hok : StartsAndStopAll s a ∧ Orderly s a) (hstep : s.step a = some s') : s'.Shutdown := by
  obtain ⟨hcommands, horderly⟩ := hok
  have hrunning : ∀ {c r}, System.Running ⟨r, c :: s.calls⟩ → s.Running :=
    fun hrunning c hc => hrunning c (List.mem_cons_of_mem _ hc)
  cases System.step_cases hstep with
  | @call command =>
    cases command with
    | startDeviceCollect d =>
      refine ⟨List.forall_mem_cons.mpr ⟨List.forall_mem_singleton.mpr horderly, h.expected⟩,
        h.one.cons (by simp [WorkerCommand.begin]), fun hrun e => ?_, fun pc hpc hdraining => ?_⟩
      · exact (h.attached (hrunning hrun) e).cons (by simp [WorkerCommand.begin])
          (by simp [WorkerCommand.begin])
      · obtain ⟨hdrained, hbusy⟩ := h.drained pc (by simpa [WorkerCommand.begin] using hpc) hdraining
        exact ⟨hdrained, List.forall_mem_cons.mpr ⟨by simp [WorkerCommand.begin], hbusy⟩⟩
    | startAll names =>
      refine ⟨List.forall_mem_cons.mpr ⟨List.forall_mem_cons.mpr ⟨rfl, horderly⟩, h.expected⟩,
        h.one.cons (by simp [WorkerCommand.begin]), fun hrun e => ?_, fun pc hpc hdraining => ?_⟩
      · exact (h.attached (hrunning hrun) e).cons (by simp [WorkerCommand.begin])
          (by simp [WorkerCommand.begin])
      · obtain ⟨hdrained, hbusy⟩ := h.drained pc (by simpa [WorkerCommand.begin] using hpc) hdraining
        exact ⟨hdrained, List.forall_mem_cons.mpr ⟨by simp [WorkerCommand.begin], hbusy⟩⟩
    | stopDeviceCollect d => exact absurd hcommands id
    | stopAll =>
      refine ⟨List.forall_mem_cons.mpr ⟨trivial, h.expected⟩, .cons_of_forall hcommands,
        fun hrun e => ?_, fun pc hpc hdraining => ?_⟩
      · exact (h.attached (hrunning hrun) e).cons (by simp [WorkerCommand.begin])
          (by simp [WorkerCommand.begin])
      · rcases List.mem_cons.mp hpc with heq | hmem
        · cases heq
          cases hdraining
        · exact absurd trivial (hcommands _ hmem)
  | @advance i passed c c' r hget hc =>
    obtain ⟨hchecking, hfailing, hbusy⟩ := horderly
    rw [hget] at hchecking hfailing hbusy
    cases c with
    | start d pc rest =>
      refine h.advance_start hget hc (fun hpc => ?_) fun hpc => ?_
      · subst hpc
        exact hchecking d rfl
      · subst hpc
        exact hfailing d rfl
    | stop d pc => exact (h.expected _ (List.mem_of_getElem? hget)).elim
    | stopAll pc => exact h.advance_stopAll hget hc fun hpc => hbusy (by rw [hpc])
  | @finish id worker hworker hfinished =>
    have hid : s.registry.Unfinished id worker.deviceName := ⟨worker, hworker, rfl, hfinished⟩
    refine ⟨h.expected, h.one, fun hrun d => ?_, fun pc hpc hdraining => ?_⟩
    · rw [view_finish_eq hid]
      split
      · next hname =>
        subst hname
        exact (h.attached hrun worker.deviceName).finish hid
      · exact h.attached hrun d
    · exact (h.drained pc hpc hdraining).imp_left fun hdrained => hdrained.finish hid
  | publish => exact ⟨h.expected, h.one, h.attached, h.drained⟩

theorem AllRegistered.shutdown {r : DeviceStatusStore} (h : AllRegistered r) :
    System.Shutdown ⟨r, []⟩ := by
  refine ⟨fun c hc => absurd hc List.not_mem_nil, fun i j a b ha => ?_, fun _ d => ⟨fun i j a b ha => ?_,
    fun ⟨c, hc, _⟩ => absurd hc List.not_mem_nil, fun ⟨c, hc, _⟩ => absurd hc List.not_mem_nil,
    fun id hid => .inl (h d id hid)⟩, fun pc hpc => absurd hpc List.not_mem_nil⟩
  · cases ha
  · cases ha

/-- Every thread that `stopAll` is joining is that of a worker that has finished or whose stop flag
has been set. -/
def NoHang (s : System) : Prop :=
  ∀ threads, .stopAll (.join threads) ∈ s.calls →
    ∀ id ∈ threads, s.registry.hasFinished id = true ∨ s.registry.Flagged id

/-- When `stopAll` returns, every unfinished worker has its own flag in the registry. -/
def NoLeak (s : System) : Prop :=
  ∀ i passed s', s.calls[i]? = some (.stopAll .clearAllWorkers) →
    s.step (.advance i passed) = some s' →
    ∀ d id, s'.registry.Unfinished id d → s'.registry.stopFlags[d]? = some id

/-- From any registry in which every unfinished worker is registered, an orderly `stopAll` neither
hangs nor leaks. -/
theorem shutdown_of_reach {r : DeviceStatusStore} {s : System} (hr : AllRegistered r)
    (hs : Steps.Reach System.step (fun s a => StartsAndStopAll s a ∧ Orderly s a) ⟨r, []⟩ s) :
    NoHang s ∧ NoLeak s := by
  have h : s.Shutdown := hs.invariant hr.shutdown fun _ _ _ h => h.step
  constructor
  · intro threads hmem id _
    by_contra hneither
    push Not at hneither
    obtain ⟨hrunning, hflagged⟩ := hneither
    cases hworker : s.registry.workers[id]? with
    | none => simp [hasFinished, hworker] at hrunning
    | some worker =>
      have hunfinished : worker.finished = false := by simpa [hasFinished, hworker] using hrunning
      exact hflagged ((h.drained _ hmem rfl).1 worker.deviceName id ⟨worker, hworker, rfl, hunfinished⟩).1
  · intro i passed s' hget hstep d id hid
    -- nothing is left unfinished when the maps are cleared
    have hdrained := (h.drained _ (List.mem_of_getElem? hget) rfl).1
    cases System.step_cases hstep with
    | advance hget' hc =>
      rw [hget] at hget'
      cases hget'
      cases hc
      exact (hdrained d id hid).2.elim

/-- A registry in which `A` is being collected. -/
def collectingA : DeviceStatusStore :=
  ((({} : DeviceStatusStore).spawn (lit "A")).addWorker (lit "A") 0).getD {}

/-- `A` is being collected, `B` is started, and both are shut down. -/
theorem shutdown_of_reach_collectingA : ∃ s : System,
    .stopAll (.join [0, 1]) ∈ s.calls ∧ NoHang s ∧ NoLeak s := by
  obtain ⟨s, hs, hjoin⟩ := @Steps.exists_reach_of_run _ _ System.step
    (fun s a => StartsAndStopAll s a ∧ Orderly s a) ⟨collectingA, []⟩ _
    (fun s => .stopAll (.join [0, 1]) ∈ s.calls) _
    (.call (.startDeviceCollect (lit "B")) :: List.replicate 7 (.advance 0 true) ++
      .call .stopAll :: List.replicate 2 (.advance 0 true))
    (by decide +kernel)
  refine ⟨s, hjoin, shutdown_of_reach (r := collectingA) (fun d id hid => ?_) hs⟩
  obtain ⟨worker, hworker, rfl, -⟩ := hid
  have hworkers : collectingA.workers = [{ deviceName := lit "A" }] := by decide +kernel
  rw [hworkers] at hworker
  obtain rfl : id = 0 := Nat.lt_one_iff.mp (List.getElem?_eq_some_iff.mp hworker).1
  cases hworker
  decide +kernel

/-- A start that registers its worker between `requestStopAll` and `takeAllThreads` makes `stopAll`
wait for it, and one that does so between `takeAllThreads` and `clearAllWorkers` loses its flag. -/
theorem shutdown_race :
    (∃ s, Steps.Reach System.step StartsAndStopAll .initial s ∧ ¬ NoHang s) ∧
      ∃ s, Steps.Reach System.step StartsAndStopAll .initial s ∧ ¬ NoLeak s := by
  constructor
  · obtain ⟨s, hs, hjoin, hworker⟩ := @Steps.exists_reach_of_run _ _ System.step
      StartsAndStopAll .initial _
      (fun s => .stopAll (.join [0]) ∈ s.calls ∧
        s.registry.workers[0]? = some { deviceName := lit "A" }) _
      (.call (.startDeviceCollect (lit "A")) :: List.replicate 6 (.advance 0 true) ++
        [.call .stopAll, .advance 0 true, .advance 1 true, .advance 0 true])
      (by decide +kernel)
    refine ⟨s, hs, fun hnoHang => ?_⟩
    rcases hnoHang [0] hjoin 0 List.mem_cons_self with hfinished | ⟨worker, hget, hflag⟩
    · simp [hasFinished, hworker] at hfinished
    · rw [hworker] at hget
      cases hget
      cases hflag
  · obtain ⟨s, hs, hclear, hleak⟩ := @Steps.exists_reach_of_run _ _ System.step
      StartsAndStopAll .initial _
      (fun s => s.calls[0]? = some (.stopAll .clearAllWorkers) ∧
        (s.step (.advance 0 true)).any (fun s' =>
          s'.registry.workers[0]? = some { deviceName := lit "A" } ∧
            s'.registry.stopFlags[lit "A"]? = none) = true) _
      (.call (.startDeviceCollect (lit "A")) :: List.replicate 6 (.advance 0 true) ++
        [.call .stopAll, .advance 0 true, .advance 0 true, .advance 1 true, .advance 0 true])
      (by decide +kernel)
    refine ⟨s, hs, fun hnoLeak => ?_⟩
    obtain ⟨s', hstep, hs'⟩ := (Option.any_eq_true _ _).mp hleak
    obtain ⟨hworker, hflag⟩ := of_decide_eq_true hs'
    have hreached := hnoLeak 0 true s' hclear hstep (lit "A") 0 ⟨_, hworker, rfl, rfl⟩
    rw [hflag] at hreached
    cases hreached

end CollectorService
