import CollectorService.Pool
import CollectorService.Workers

/-!
# Stopping devices

`stopDeviceCollect` and `stopAll` as whole commands. A `join` returns when the thread has run to its
end: the worker has left its loop and has executed its own `markStopped`.

The last sections follow the names and the workers through the registry: a flag or a thread that is
registered under a name belongs to a worker of the device that the name finds, and a flag is registered
under one name only.

* `named_of_reach`, `flagsApart_of_reach`: this holds in every state of the system, whatever the order
  of the steps.
-/

namespace CollectorService

namespace DeviceStatusStore

/-- The registry when a `join` returns. -/
def join (s : DeviceStatusStore) (thread : Option ℕ) : DeviceStatusStore :=
  match thread with
  | none => s
  | some id => match s.workers[id]? with
    | some worker => if worker.finished then s else s.finish id worker.deviceName
    | none => s

end DeviceStatusStore

namespace DataTask

/-! ## 1. The commands -/

/-- `stopDeviceCollect`, behind its check of the database. -/
def stopRegistered (deviceName mid : Str) (s : DeviceStatusStore) :
    CommandResult × DeviceStatusStore :=
  let (active, s) := s.requestStop deviceName
  if !active then ({ msg := lit "device collection is not running: " ++ deviceName, mid }, s)
  else
    let (threadToJoin, s) := s.takeThread deviceName
    let s := (s.eraseStopFlag deviceName).join threadToJoin
    ({ msg := lit "device collection stopped: " ++ deviceName, mid }, s.markStopped deviceName)

def stopDeviceCollect (deviceName mid : Str) (w : Service) : Except Str CommandResult × Service :=
  match (SQLiteManager.deviceExists deviceName).exec w.database with
  | (.error e, t) => (.error e, { w with database := t })
  | (.ok false, t) =>
    (.ok (failure mid (lit "device not found: " ++ deviceName)), { w with database := t })
  | (.ok true, t) =>
    let (result, s) := stopRegistered deviceName mid w.registry
    (.ok result, ⟨t, s⟩)

def stopAll (s : DeviceStatusStore) : DeviceStatusStore :=
  let (threads, s) := s.requestStopAll.takeAllThreads
  (threads.foldl (fun s id => s.join (some id)) s).clearAllWorkers

end DataTask

/-! ## 2. Names in the registry -/

namespace DeviceStatusStore

variable {s s' : DeviceStatusStore} {d name : Str} {id : ℕ}

/-- The name of a worker. -/
def nameOf (s : DeviceStatusStore) (id : ℕ) : Option Str := s.workers[id]?.map (·.deviceName)

/-- Flags and threads belong to workers of the device that their name finds. -/
structure Named (s : DeviceStatusStore) : Prop where
  flag : ∀ (d : Str) (id : ℕ), s.stopFlags[d]? = some id → s.nameOf id = some (cString d)
  thread : ∀ (d : Str) (id : ℕ), s.workerThreads[d]? = some id → s.nameOf id = some (cString d)

/-- The registry has gained no entry, and the workers keep their names. -/
theorem Named.anti (h : s.Named)
    (hname : ∀ id name, s.nameOf id = some name → s'.nameOf id = some name)
    (hflag : ∀ (d : Str) (id : ℕ), s'.stopFlags[d]? = some id → s.stopFlags[d]? = some id)
    (hthread : ∀ (d : Str) (id : ℕ), s'.workerThreads[d]? = some id →
      s.workerThreads[d]? = some id) : s'.Named :=
  ⟨fun d id hid => hname id _ (h.flag d id (hflag d id hid)),
    fun d id hid => hname id _ (h.thread d id (hthread d id hid))⟩

theorem nameOf_setFlag (workers : List Worker) (id i : ℕ) :
    (setFlag workers id)[i]?.map (·.deviceName) = workers[i]?.map (·.deviceName) := by
  rw [setFlag, List.getElem?_modify]
  split <;> cases workers[i]? <;> rfl

theorem nameOf_foldl_setFlag (ids : List ℕ) (workers : List Worker) (i : ℕ) :
    (ids.foldl setFlag workers)[i]?.map (·.deviceName) = workers[i]?.map (·.deviceName) := by
  induction ids generalizing workers with
  | nil => rfl
  | cons id ids ih => rw [List.foldl_cons, ih, nameOf_setFlag]

theorem nameOf_requestStop (d : Str) (i : ℕ) : (s.requestStop d).2.nameOf i = s.nameOf i := by
  unfold requestStop
  split
  · rfl
  · split
    · exact nameOf_setFlag _ _ _
    · rfl

theorem nameOf_spawn (h : s.nameOf id = some name) : (s.spawn d).nameOf id = some name := by
  obtain ⟨worker, hworker, rfl⟩ := Option.map_eq_some_iff.mp h
  have hlt := (List.getElem?_eq_some_iff.mp hworker).1
  rw [nameOf, spawn, List.getElem?_append_left hlt, hworker]
  rfl

theorem nameOf_spawn_nextWorker (s : DeviceStatusStore) (d : Str) :
    (s.spawn d).nameOf s.nextWorker = some d := by
  simp [nameOf, spawn, nextWorker]

theorem nameOf_finish (i : ℕ) : (s.finish id d).nameOf i = s.nameOf i := by
  show (s.workers.modify id _)[i]?.map _ = _
  rw [List.getElem?_modify]
  split <;> cases hworker : s.workers[i]? <;> simp [nameOf, hworker]

theorem getElem?_erase_some {β : Type} {m : Std.ExtTreeMap Str β} {d e : Str} {b : β}
    (h : (m.erase d)[e]? = some b) : m[e]? = some b := by
  rw [Std.ExtTreeMap.getElem?_erase] at h
  split at h
  · cases h
  · exact h

theorem Named.requestStop (h : s.Named) (d : Str) : (s.requestStop d).2.Named := by
  have hflags : (s.requestStop d).2.stopFlags = s.stopFlags ∧
      (s.requestStop d).2.workerThreads = s.workerThreads := by
    unfold DeviceStatusStore.requestStop
    split
    · exact ⟨rfl, rfl⟩
    · split <;> exact ⟨rfl, rfl⟩
  refine h.anti (fun id name hid => (nameOf_requestStop d id).trans hid) ?_ ?_
  · rw [hflags.1]
    exact fun _ _ hid => hid
  · rw [hflags.2]
    exact fun _ _ hid => hid

theorem Named.takeThread (h : s.Named) (d : Str) : (s.takeThread d).2.Named :=
  h.anti (fun _ _ hid => hid) (fun _ _ hid => hid) fun _ _ hid => getElem?_erase_some hid

theorem Named.eraseStopFlag (h : s.Named) (d : Str) : (s.eraseStopFlag d).Named :=
  h.anti (fun _ _ hid => hid) (fun _ _ hid => getElem?_erase_some hid) fun _ _ hid => hid

theorem Named.markStopped (h : s.Named) (d : Str) : (s.markStopped d).Named :=
  h.anti (fun _ _ hid => hid) (fun _ _ hid => getElem?_erase_some hid) fun _ _ hid => hid

theorem Named.spawn (h : s.Named) (d : Str) : (s.spawn d).Named :=
  h.anti (fun _ _ hid => nameOf_spawn hid) (fun _ _ hid => hid) fun _ _ hid => hid

theorem Named.finish (h : s.Named) (id : ℕ) (d : Str) : (s.finish id d).Named :=
  Named.anti (h.markStopped d) (fun i _ hid => (nameOf_finish i).trans hid)
    (fun _ _ hid => hid) fun _ _ hid => hid

/-- Registering a worker whose name the key finds. -/
theorem Named.addWorker (h : s.Named) (hid : s.nameOf id = some (cString d))
    (hadd : s.addWorker d id = some s') : s'.Named := by
  unfold DeviceStatusStore.addWorker at hadd
  split at hadd
  · cases hadd
    constructor
    · intro e i hi
      rw [Std.ExtTreeMap.getElem?_insert] at hi
      split at hi
      · next heq =>
        cases hi
        rw [← Std.LawfulEqCmp.eq_of_compare heq]
        exact hid
      · exact h.flag e i hi
    · intro e i hi
      rw [Std.ExtTreeMap.getElem?_insert] at hi
      split at hi
      · next heq =>
        cases hi
        rw [← Std.LawfulEqCmp.eq_of_compare heq]
        exact hid
      · exact h.thread e i hi
  · cases hadd

theorem Named.requestStopAll (h : s.Named) : s.requestStopAll.Named :=
  h.anti (fun _ _ hid => (nameOf_foldl_setFlag _ _ _).trans hid) (fun _ _ hid => hid)
    fun _ _ hid => hid

theorem Named.takeAllThreads (h : s.Named) : s.takeAllThreads.2.Named :=
  h.anti (fun _ _ hid => hid) (fun _ _ hid => hid) fun d id hid => by
    simp [DeviceStatusStore.takeAllThreads] at hid

theorem Named.clearAllWorkers (h : s.Named) : s.clearAllWorkers.Named :=
  h.anti (fun _ _ hid => hid) (fun d id hid => by
    simp [DeviceStatusStore.clearAllWorkers] at hid) fun _ _ hid => hid

/-- The workers keep their names. -/
def KeepsNames (s s' : DeviceStatusStore) : Prop :=
  ∀ id name, s.nameOf id = some name → s'.nameOf id = some name

end DeviceStatusStore

open DeviceStatusStore (KeepsNames)

/-! ## 3. Every order of steps -/

/-- A worker that a start is about to register has the name of the device. -/
def Call.Named (s : DeviceStatusStore) : Call → Prop
  | .start d (.addWorker id) _ => s.nameOf id = some (cString d)
  | _ => True

theorem Call.Named.keep {s s' : DeviceStatusStore} {c : Call} (h : c.Named s)
    (hkeep : KeepsNames s s') : c.Named s' := by
  unfold Call.Named at h ⊢
  split
  · exact hkeep _ _ h
  · trivial

theorem CallStep.named {s s' : DeviceStatusStore} {c c' : Call} (hstep : CallStep c s c' s')
    (h : s.Named) (hc : c.Named s) : s'.Named ∧ c'.Named s' ∧ KeepsNames s s' := by
  cases hstep with
  | nextStart | checksPassed | checksFailed | alreadyRunning | notRunning | joinStale | noThread
  | terminate | deviceFound | deviceMissing | stopNotRunning | join | joinNext | joinedAll =>
    exact ⟨h, trivial, fun _ _ hid => hid⟩
  | takeStale | takeThread => exact ⟨h.takeThread _, trivial, fun _ _ hid => hid⟩
  | eraseStale | eraseStopFlag => exact ⟨h.eraseStopFlag _, trivial, fun _ _ hid => hid⟩
  | markStartFailed | markStopped => exact ⟨h.markStopped _, trivial, fun _ _ hid => hid⟩
  | createThread =>
    exact ⟨h.spawn _, DeviceStatusStore.nameOf_spawn_nextWorker _ _, fun _ _ hid =>
      DeviceStatusStore.nameOf_spawn hid⟩
  | addWorker hadd =>
    refine ⟨h.addWorker hc hadd, trivial, fun _ _ hid => ?_⟩
    unfold DeviceStatusStore.addWorker at hadd
    split at hadd
    · cases hadd
      exact hid
    · cases hadd
  | requestStop =>
    exact ⟨h.requestStop _, trivial, fun _ _ hid =>
      (DeviceStatusStore.nameOf_requestStop _ _).trans hid⟩
  | requestStopAll =>
    exact ⟨h.requestStopAll, trivial, fun _ _ hid =>
      (DeviceStatusStore.nameOf_foldl_setFlag _ _ _).trans hid⟩
  | takeAllThreads => exact ⟨h.takeAllThreads, trivial, fun _ _ hid => hid⟩
  | clearAllWorkers => exact ⟨h.clearAllWorkers, trivial, fun _ _ hid => hid⟩

/-- The registry and the calls agree on the names. -/
structure System.Named (s : System) : Prop where
  registry : s.registry.Named
  calls : ∀ c ∈ s.calls, c.Named s.registry

theorem System.Named.step {s s' : System} {a : Action} (h : s.Named) (hstep : s.step a = some s') :
    s'.Named := by
  cases System.step_cases hstep with
  | @call command =>
    refine ⟨h.registry, fun c hc => ?_⟩
    rcases List.mem_cons.mp hc with rfl | hc
    · cases command <;> trivial
    · exact h.calls c hc
  | @advance i _ c c' r hi hcall =>
    obtain ⟨hregistry, hc', hkeep⟩ := hcall.named h.registry (h.calls c (List.mem_of_getElem? hi))
    refine ⟨hregistry, fun d hd => ?_⟩
    rcases List.mem_or_eq_of_mem_set hd with hd | rfl
    · exact (h.calls d hd).keep hkeep
    · exact hc'
  | finish hworker hfinished =>
    exact ⟨h.registry.finish _ _, fun c hc => (h.calls c hc).keep fun i _ hid =>
      (DeviceStatusStore.nameOf_finish i).trans hid⟩
  | publish =>
    exact ⟨h.registry.anti (fun _ _ hid => hid) (fun _ _ hid => hid) fun _ _ hid => hid,
      fun c hc => (h.calls c hc).keep fun _ _ hid => hid⟩

theorem System.initial_named : System.initial.Named := by
  refine ⟨⟨fun d id hid => ?_, fun d id hid => ?_⟩, fun c hc => by cases hc⟩
  · simp [System.initial] at hid
  · simp [System.initial] at hid

/-- Whatever commands and workers do, in whatever order. -/
theorem named_of_reach {s : System}
    (hs : Steps.Reach System.step (fun _ _ => True) .initial s) : s.registry.Named :=
  (hs.invariant (I := System.Named) System.initial_named fun _ _ _ h _ hstep =>
    h.step hstep).registry

/-! ## 4. One registration for each worker -/

/-- No two entries of `stopFlags_` are the flag of one worker. -/
def DeviceStatusStore.FlagsApart (s : DeviceStatusStore) : Prop :=
  ∀ (d e : Str) (id : ℕ), s.stopFlags[d]? = some id → s.stopFlags[e]? = some id → d = e

/-- A worker that a start has created is registered by this start only, and has no entry before. -/
structure System.Apart (s : System) : Prop where
  flags : s.registry.FlagsApart
  once : ∀ id, Pool.AtMostOne (·.created = some id) s.calls
  unregistered : ∀ c ∈ s.calls, ∀ id, c.created = some id →
    ∀ d : Str, s.registry.stopFlags[d]? ≠ some id

/-- What a step of a call does to the flags, and to the worker that it has created. -/
theorem CallStep.registers {s s' : DeviceStatusStore} {c c' : Call} (hstep : CallStep c s c' s') :
    (c'.created = none ∧
      ∀ (d : Str) (id : ℕ), s'.stopFlags[d]? = some id → s.stopFlags[d]? = some id) ∨
    (c'.created = some s.nextWorker ∧ s'.stopFlags = s.stopFlags) ∨
    ∃ d id, c.created = some id ∧ c'.created = none ∧ s'.stopFlags = s.stopFlags.insert d id := by
  cases hstep with
  | createThread => exact .inr (.inl ⟨rfl, rfl⟩)
  | addWorker hadd =>
    unfold DeviceStatusStore.addWorker at hadd
    split at hadd
    · cases hadd
      exact .inr (.inr ⟨_, _, rfl, rfl, rfl⟩)
    · cases hadd
  | eraseStale | eraseStopFlag | markStartFailed | markStopped =>
    exact .inl ⟨rfl, fun _ _ hid => DeviceStatusStore.getElem?_erase_some hid⟩
  | @requestStop d s _ =>
    refine .inl ⟨rfl, fun e id hid => ?_⟩
    unfold DeviceStatusStore.requestStop at hid
    split at hid
    · exact hid
    · split at hid <;> exact hid
  | clearAllWorkers => exact .inl ⟨rfl, fun d id hid => by
      simp [DeviceStatusStore.clearAllWorkers] at hid⟩
  | _ => exact .inl ⟨rfl, fun _ _ hid => hid⟩

/-- The number of the next worker is free. -/
theorem System.Named.fresh {s : System} (h : s.Named) :
    (∀ d : Str, s.registry.stopFlags[d]? ≠ some s.registry.nextWorker) ∧
      ∀ c ∈ s.calls, c.created ≠ some s.registry.nextWorker := by
  have hnone : s.registry.nameOf s.registry.nextWorker = none := by
    simp [DeviceStatusStore.nameOf, DeviceStatusStore.nextWorker]
  refine ⟨fun d hid => ?_, fun c hc hid => ?_⟩
  · cases hnone.symm.trans (h.registry.flag d _ hid)
  · unfold Call.created at hid
    split at hid
    · next d id rest =>
      cases hid
      cases hnone.symm.trans (h.calls _ hc)
    · cases hid

theorem System.Apart.advance {s : System} {i : ℕ} {c c' : Call} {r : DeviceStatusStore} (h : s.Apart)
    (hnamed : s.Named) (hi : s.calls[i]? = some c) (hstep : CallStep c s.registry c' r) :
    System.Apart ⟨r, s.calls.set i c'⟩ := by
  have hset : ∀ b ∈ s.calls.set i c', b ∈ s.calls ∨ b = c' := fun b hb => List.mem_or_eq_of_mem_set hb
  rcases hstep.registers with ⟨hnone, hflags⟩ | ⟨hcreated, hflags⟩ | ⟨d, id, hid, hnone, hflags⟩
  · refine ⟨fun d e id hd he => h.flags d e id (hflags d id hd) (hflags e id he),
      fun id => (h.once id).set hi fun hc' => ?_, fun b hb id hid d hd => ?_⟩
    · rw [hnone] at hc'
      cases hc'
    · rcases hset b hb with hb | rfl
      · exact h.unregistered b hb id hid d (hflags d id hd)
      · rw [hnone] at hid
        cases hid
  · obtain ⟨hfreeFlag, hfreeCall⟩ := hnamed.fresh
    refine ⟨fun d e id => by rw [hflags]; exact h.flags d e id, fun id => ?_, fun b hb id hid d => ?_⟩
    · by_cases hnew : id = s.registry.nextWorker
      · exact hnew ▸ Pool.AtMostOne.set_of_forall hfreeCall
      · exact (h.once id).set hi fun hc' => absurd (Option.some.inj (hcreated.symm.trans hc')).symm hnew
    · rw [hflags]
      rcases hset b hb with hb | rfl
      · exact h.unregistered b hb id hid d
      · exact Option.some.inj (hcreated.symm.trans hid) ▸ hfreeFlag d
  · have hold := h.unregistered c (List.mem_of_getElem? hi) id hid
    -- the entry of the call's own worker is the new one
    have hentry : ∀ (e : Str) (j : ℕ), (s.registry.stopFlags.insert d id)[e]? = some j →
        (e = d ∧ j = id) ∨ (e ≠ d ∧ s.registry.stopFlags[e]? = some j) := by
      intro e j hj
      rw [Std.ExtTreeMap.getElem?_insert] at hj
      split at hj
      · next heq => exact .inl ⟨(Std.LawfulEqCmp.eq_of_compare heq).symm, (Option.some.inj hj).symm⟩
      · next hne => exact .inr ⟨fun heq => hne (by simp [heq]), hj⟩
    refine ⟨fun e e' j he he' => ?_, fun j => (h.once j).set hi fun hc' => ?_, fun b hb j hj e he => ?_⟩
    · rw [hflags] at he he'
      rcases hentry e j he with ⟨rfl, rfl⟩ | ⟨-, hbefore⟩
      · rcases hentry e' j he' with ⟨heq, -⟩ | ⟨-, hbefore'⟩
        · exact heq.symm
        · exact absurd hbefore' (hold e')
      · rcases hentry e' j he' with ⟨-, rfl⟩ | ⟨-, hbefore'⟩
        · exact absurd hbefore (hold e)
        · exact h.flags e e' j hbefore hbefore'
    · rw [hnone] at hc'
      cases hc'
    · rw [hflags] at he
      rcases hset b hb with hmem | rfl
      · rcases hentry e j he with ⟨-, rfl⟩ | ⟨-, he⟩
        · exact (h.once j).not_exists_set hi hid (by simp [hnone]) ⟨b, hb, hj⟩
        · exact h.unregistered b hmem j hj e he
      · rw [hnone] at hj
        cases hj

theorem System.Apart.step {s s' : System} {a : Action} (h : s.Apart) (hnamed : s.Named)
    (hstep : s.step a = some s') : s'.Apart := by
  cases System.step_cases hstep with
  | @call command =>
    have hnone : command.begin.created = none := by
      cases command <;> rfl
    refine ⟨h.flags, fun id => (h.once id).cons (by simp [hnone]), fun c hc id hid => ?_⟩
    rcases List.mem_cons.mp hc with rfl | hc
    · rw [hnone] at hid
      cases hid
    · exact h.unregistered c hc id hid
  | advance hi hcall => exact h.advance hnamed hi hcall
  | @finish i worker hworker hfinished =>
    have hflags : ∀ (d : Str) (id : ℕ), (s.registry.finish i worker.deviceName).stopFlags[d]? = some id →
        s.registry.stopFlags[d]? = some id := fun _ _ hid => DeviceStatusStore.getElem?_erase_some hid
    exact ⟨fun d e id hd he => h.flags d e id (hflags d id hd) (hflags e id he), h.once,
      fun c hc id hid d hd => h.unregistered c hc id hid d (hflags d id hd)⟩
  | publish => exact ⟨h.flags, h.once, h.unregistered⟩

/-- Whatever commands and workers do, in whatever order: a flag is that of one device. -/
theorem flagsApart_of_reach {s : System}
    (hs : Steps.Reach System.step (fun _ _ => True) .initial s) : s.registry.FlagsApart := by
  have hinitial : System.initial.Apart :=
    ⟨fun d e id hd => by simp [System.initial] at hd, fun id i j a b ha => (by cases ha),
      fun c hc => (by cases hc)⟩
  exact (hs.invariant (I := fun s : System => s.Named ∧ s.Apart) ⟨System.initial_named, hinitial⟩
    fun _ _ _ h _ hstep => ⟨h.1.step hstep, h.2.step h.1 hstep⟩).2.flags

end CollectorService
