import CollectorService.Workers
import Mathlib.Data.Set.Insert

/-!
# The registry as one device sees it

The operations of the store act on each device name alone. A `DeviceView` is what the store holds
under one name, with the workers of that name that have not finished; the lemmas `view_*` say what
each operation does to every view.
-/

namespace CollectorService

structure DeviceView where
  active : Prop
  stopFlag : Option ℕ
  thread : Option ℕ
  unfinished : Set ℕ

namespace DeviceStatusStore

variable {s s' : DeviceStatusStore} {d e name : Str} {id i : ℕ}

/-- Worker `id` is a worker for `deviceName` that has not executed its final `markStopped`. -/
def Unfinished (s : DeviceStatusStore) (id : ℕ) (deviceName : Str) : Prop :=
  ∃ worker, s.workers[id]? = some worker ∧ worker.deviceName = deviceName ∧
    worker.finished = false

def view (s : DeviceStatusStore) (d : Str) : DeviceView where
  active := d ∈ s.activeDevices
  stopFlag := s.stopFlags[d]?
  thread := s.workerThreads[d]?
  unfinished := { id | s.Unfinished id d }

/-! ## 1. Workers -/

/-- Workers with the same names, as far finished, are unfinished alike. -/
theorem unfinished_congr (h : s'.workers.map (fun w => (w.deviceName, w.finished)) =
    s.workers.map (fun w => (w.deviceName, w.finished))) (id : ℕ) (d : Str) :
    s'.Unfinished id d ↔ s.Unfinished id d := by
  have hid := congrArg (·[id]?) h
  simp only [List.getElem?_map] at hid
  unfold Unfinished
  cases hw : s.workers[id]? <;> cases hw' : s'.workers[id]? <;> simp_all

theorem map_setFlag (workers : List Worker) (id : ℕ) :
    (setFlag workers id).map (fun w => (w.deviceName, w.finished)) =
      workers.map (fun w => (w.deviceName, w.finished)) := by
  refine List.ext_getElem? fun i => ?_
  simp only [setFlag, List.getElem?_map, List.getElem?_modify]
  cases workers[i]? with
  | none => rfl
  | some worker => by_cases hid : id = i <;> simp [hid]

theorem map_foldl_setFlag : ∀ (ids : List ℕ) (workers : List Worker),
    (ids.foldl setFlag workers).map (fun w => (w.deviceName, w.finished)) =
      workers.map (fun w => (w.deviceName, w.finished))
  | [], _ => rfl
  | id :: ids, workers => by
    rw [List.foldl_cons, map_foldl_setFlag ids, map_setFlag]

theorem unfinished_spawn : (s.spawn name).Unfinished id d ↔
    s.Unfinished id d ∨ id = s.nextWorker ∧ d = name := by
  unfold Unfinished spawn nextWorker
  simp only [List.getElem?_append]
  constructor
  · rintro ⟨worker, hw, hname, hfinished⟩
    split at hw
    · exact .inl ⟨worker, hw, hname, hfinished⟩
    · next hlt =>
      obtain ⟨hid, hworker⟩ := List.getElem?_eq_some_iff.mp hw
      simp only [List.length_cons, List.length_nil] at hid
      refine .inr ⟨by omega, ?_⟩
      rw [← hname, ← hworker]
      simp
  · rintro (⟨worker, hw, hname, hfinished⟩ | ⟨rfl, rfl⟩)
    · have hlt := (List.getElem?_eq_some_iff.mp hw).1
      exact ⟨worker, by rwa [if_pos hlt], hname, hfinished⟩
    · exact ⟨_, by rw [if_neg (by omega), Nat.sub_self]; rfl, rfl, rfl⟩

theorem unfinished_finish : (s.finish i name).Unfinished id d ↔ s.Unfinished id d ∧ id ≠ i := by
  unfold Unfinished finish
  simp only [List.getElem?_modify]
  by_cases hid : i = id
  · subst hid
    cases s.workers[i]? <;> simp
  · cases s.workers[id]? <;> simp [hid, Ne.symm hid]

/-- A worker has one name. -/
theorem Unfinished.name_eq (h : s.Unfinished id d) (h' : s.Unfinished id e) : d = e := by
  obtain ⟨worker, hw, rfl, -⟩ := h
  obtain ⟨worker', hw', rfl, -⟩ := h'
  rw [hw, Option.some_inj] at hw'
  rw [hw']

/-- `join` does not return while the worker is unfinished. -/
theorem Unfinished.hasFinished (h : s.Unfinished id d) : s.hasFinished id = false := by
  obtain ⟨worker, hw, -, hfinished⟩ := h
  simp [DeviceStatusStore.hasFinished, hw, hfinished]

/-- The threads that `takeAllThreads` takes are those of the views. -/
theorem mem_takeAllThreads : id ∈ s.takeAllThreads.1 ↔ ∃ d, (s.view d).thread = some id := by
  simp [takeAllThreads, view, Std.ExtTreeMap.mem_toList_iff_getElem?_eq_some]

/-! ## 2. What the operations do to a view -/

theorem view_markStartFailed : (s.markStartFailed d).view e =
    if e = d then { s.view e with active := False, stopFlag := none } else s.view e := by
  by_cases hed : e = d
  · subst hed
    simp [view, markStartFailed, Unfinished]
  · simp [view, markStartFailed, Unfinished, Std.ExtTreeMap.getElem?_erase, hed, Ne.symm hed]

theorem view_markStopped : (s.markStopped d).view e =
    if e = d then { s.view e with active := False, stopFlag := none } else s.view e :=
  view_markStartFailed

theorem view_takeThread : ((s.takeThread d).2).view e =
    if e = d then { s.view e with thread := none } else s.view e := by
  by_cases hed : e = d
  · subst hed
    simp [view, takeThread, Unfinished]
  · simp [view, takeThread, Unfinished, Std.ExtTreeMap.getElem?_erase, hed, Ne.symm hed]

theorem view_eraseStopFlag : (s.eraseStopFlag d).view e =
    if e = d then { s.view e with stopFlag := none } else s.view e := by
  by_cases hed : e = d
  · subst hed
    simp [view, eraseStopFlag, Unfinished]
  · simp [view, eraseStopFlag, Unfinished, Std.ExtTreeMap.getElem?_erase, hed, Ne.symm hed]

theorem view_spawn : (s.spawn name).view e =
    if e = name then { s.view e with unfinished := insert s.nextWorker (s.view e).unfinished }
    else s.view e := by
  have hset : { id | (s.spawn name).Unfinished id e } =
      { id | s.Unfinished id e ∨ id = s.nextWorker ∧ e = name } :=
    Set.ext fun id => unfinished_spawn
  simp only [view, hset]
  by_cases hname : e = name
  · subst hname
    have hinsert : { id | s.Unfinished id e ∨ id = s.nextWorker ∧ e = e } =
        insert s.nextWorker { id | s.Unfinished id e } := by
      ext id
      simp [or_comm]
    rw [hinsert, if_pos rfl]
    rfl
  · simp only [hname, and_false, or_false, if_false]
    rfl

theorem addWorker_eq_some (h : s.addWorker d id = some s') : (s.view d).thread = none ∧
    ∀ e, s'.view e =
      if e = d then { s.view e with active := True, stopFlag := some id, thread := some id }
      else s.view e := by
  unfold addWorker at h
  split at h
  · next hthread =>
    cases h
    refine ⟨hthread, fun e => ?_⟩
    by_cases hed : e = d
    · subst hed
      simp [view, Unfinished]
    · simp [view, Unfinished, Std.ExtTreeMap.getElem?_insert, hed, Ne.symm hed]
  · cases h

theorem addWorker_eq_none (h : s.addWorker d id = none) : (s.view d).thread ≠ none := by
  unfold addWorker at h
  split at h
  · cases h
  · assumption

theorem view_requestStop : ((s.requestStop d).2).view e = s.view e := by
  unfold requestStop
  split
  · rfl
  · split
    · have hset : ∀ i id e, ({ s with workers := setFlag s.workers i } :
          DeviceStatusStore).Unfinished id e ↔ s.Unfinished id e :=
        fun i id e => unfinished_congr (map_setFlag s.workers i) id e
      simp only [view, hset]
    · rfl

theorem view_requestStopAll : s.requestStopAll.view e = s.view e := by
  have hset : ∀ id e, s.requestStopAll.Unfinished id e ↔ s.Unfinished id e :=
    fun id e => unfinished_congr (map_foldl_setFlag _ s.workers) id e
  simp only [view, hset]
  rfl

theorem view_takeAllThreads : (s.takeAllThreads.2).view e = { s.view e with thread := none } := by
  simp [view, takeAllThreads, Unfinished]

theorem view_clearAllWorkers : s.clearAllWorkers.view e =
    { s.view e with active := False, stopFlag := none } := by
  simp [view, clearAllWorkers, Unfinished]

theorem view_finish : (s.finish i d).view e =
    { (s.markStopped d).view e with unfinished := (s.view e).unfinished \ {i} } := by
  have hset : { id | (s.finish i d).Unfinished id e } = { id | s.Unfinished id e } \ {i} :=
    Set.ext fun id => unfinished_finish
  simp only [view, hset]
  rfl

/-- A worker that finishes is seen under its own name only. -/
theorem view_finish_eq (h : s.Unfinished i d) : (s.finish i d).view e =
    if e = d then { s.view e with
      active := False
      stopFlag := none
      unfinished := (s.view e).unfinished \ {i} }
    else s.view e := by
  rw [view_finish, view_markStopped]
  split
  · rfl
  · next hed =>
    have hnot : i ∉ (s.view e).unfinished := fun hi => hed (Unfinished.name_eq hi h)
    rw [Set.sdiff_singleton_eq_self hnot]

end DeviceStatusStore

end CollectorService
