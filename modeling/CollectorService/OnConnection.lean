import CollectorService.Atomicity
import CollectorService.DataTask

/-!
# Tasks on a connection that may fail

The task functions of `DataTask` as computations on one connection, where every call of the SQLite
API may fail. On a connection where none fails they do what their programs do that run alone.

* `Sql.Reads`, `Sql.Writes`: a call that leaves the tables, and one that throws and leaves them or
  returns with what an effect makes of them.
* `initDataPointsByDevice_alone`, `startChecks_alone`: the agreement with the programs.
-/

namespace CollectorService

/-! ## 1. What a call does, whether it fails or not -/

namespace Sql

variable {α β : Type} {m : Sql α} {k : α → Sql β} {f g : Database → Except Str Database}

/-- `try { ... } catch (const std::exception& ex) { ... }`; the handler reads `ex.what()`, a C string. -/
def tryCatch (m : Sql α) (handler : Str → α) : Sql α := fun c =>
  match m c with
  | (.ok a, c') => (.ok a, c')
  | (.error e, c') => (.ok (handler (cString e)), c')

/-- A computation without database access. -/
def ofExcept (r : Except Str α) : Sql α := fun c => (r, c)

/-- Whatever the outcome, the tables before and after are related. -/
def Changes (R : Database → Database → Prop) (m : Sql α) : Prop :=
  ∀ c, R c.tables (m c).2.tables

/-- The call leaves the tables as they are. -/
def Reads (m : Sql α) : Prop := ∀ c, (m c).2.tables = c.tables

/-- The call throws and leaves the tables, or returns with what `f` makes of them. -/
def Writes (m : Sql Unit) (f : Database → Except Str Database) : Prop :=
  ∀ c, (∃ e, (m c).1 = .error e ∧ (m c).2.tables = c.tables) ∨
    ((m c).1 = .ok () ∧ f c.tables = .ok (m c).2.tables)

/-- What the call returns has `P`. -/
def Returns (m : Sql α) (P : α → Prop) : Prop := ∀ c a, (m c).1 = .ok a → P a

/-- When the call returns, it has done `f`. -/
def Does (m : Sql Unit) (f : Database → Except Str Database) : Prop :=
  ∀ c c', m c = (.ok (), c') → f c.tables = .ok c'.tables

section Changes
variable {R : Database → Database → Prop}

theorem Changes.pure (hrefl : ∀ t, R t t) (a : α) : Changes R (pure a : Sql α) :=
  fun c => hrefl c.tables

theorem Changes.throw_bind (hrefl : ∀ t, R t t) (e : Str) : Changes R (Sql.throw e >>= k) :=
  fun c => hrefl c.tables

theorem Changes.throw (hrefl : ∀ t, R t t) (e : Str) : Changes R (Sql.throw e : Sql α) :=
  fun c => hrefl c.tables

/-- A call that reads, and what is done with its result. -/
theorem Changes.bind {P : α → Prop} (hrefl : ∀ t, R t t) (hm : m.Reads) (hret : m.Returns P)
    (hk : ∀ a, P a → Changes R (k a)) : Changes R (m >>= k) := by
  intro c
  have hsame := hm c
  rcases hrun : m c with ⟨e | a, c'⟩
  · rw [hrun] at hsame
    rw [bind_error hrun, hsame]
    exact hrefl c.tables
  · rw [hrun] at hsame
    rw [bind_ok hrun, ← hsame]
    exact hk a (hret c a (by rw [hrun])) c'

/-- What the first part has done, and what the rest does to it. -/
theorem Changes.followed {S : Database → Database → Prop} (htrans : ∀ t u v, R t u → S u v → R t v)
    (hm : Changes R m) (hk : ∀ a, Changes S (k a)) : Changes R (m >>= k) := by
  intro c
  have hc := hm c
  rcases hrun : m c with ⟨e | a, c'⟩
  · rw [hrun] at hc
    rwa [bind_error hrun]
  · rw [hrun] at hc
    rw [bind_ok hrun]
    exact htrans _ _ _ hc (hk a c')

/-- Reading afterwards changes nothing more. -/
theorem Changes.bind_reads (hm : Changes R m) (hk : ∀ a, (k a).Reads) : Changes R (m >>= k) :=
  .followed (S := fun t u => u = t) (fun _ _ _ h hsame => hsame ▸ h) hm hk

theorem Changes.tryCatch {handler : Str → α} (hm : Changes R m) :
    Changes R (Sql.tryCatch m handler) := by
  intro c
  have hc := hm c
  unfold Sql.tryCatch
  rcases hrun : m c with ⟨e | a, c'⟩ <;> rwa [hrun] at hc

theorem Writes.changes {m : Sql Unit} (hrefl : ∀ t, R t t) (h : m.Writes f)
    (hf : ∀ t u, f t = .ok u → R t u) : Changes R m := fun c => by
  rcases h c with ⟨e, -, hsame⟩ | ⟨-, heffect⟩
  · rw [hsame]
    exact hrefl c.tables
  · exact hf _ _ heffect

end Changes

theorem bind_eq_ok {c c' : Conn} {b : β} :
    (m >>= k) c = (.ok b, c') ↔ ∃ a c₁, m c = (.ok a, c₁) ∧ k a c₁ = (.ok b, c') := by
  rw [bind_apply]
  rcases m c with ⟨e | a, c₁⟩
  · simp
  · simp

theorem Reads.bind (hm : m.Reads) (hk : ∀ a, (k a).Reads) : (m >>= k).Reads :=
  Changes.bind_reads (R := fun t u => u = t) hm hk

theorem Returns.any (m : Sql α) : m.Returns fun _ => True := fun _ _ _ => trivial

theorem Returns.bind {P : α → Prop} {Q : β → Prop} (hm : m.Returns P)
    (hk : ∀ a, P a → (k a).Returns Q) : (m >>= k).Returns Q := by
  intro c b h
  rcases hrun : m c with ⟨e | a, c'⟩
  · rw [bind_error hrun] at h
    cases h
  · rw [bind_ok hrun] at h
    exact hk a (hm c a (by rw [hrun])) c' b h

theorem Returns.firstRow {query : Database → Option β} :
    (CollectorService.firstRow query).Returns fun found => ∀ x ∈ found, ∃ t, query t = some x := by
  intro c found h x hx
  cases hx
  unfold CollectorService.firstRow at h
  split at h
  · exact ⟨c.tables, Except.ok.inj h⟩
  · cases h

theorem Reads.throw (e : Str) : (Sql.throw e : Sql α).Reads := fun _ => rfl

theorem Reads.pure (a : α) : (pure a : Sql α).Reads := fun _ => rfl

theorem Reads.prepare : CollectorService.prepare.Reads := fun c => by
  unfold CollectorService.prepare apiCall
  split <;> rfl

theorem Reads.firstRow {query : Database → Option β} :
    (CollectorService.firstRow query).Reads := fun c => by
  unfold CollectorService.firstRow
  split
  · next h =>
    have hstep := congrArg Prod.snd h
    rw [← hstep]
    rfl
  · next h =>
    have hstep := congrArg Prod.snd h
    rw [← hstep]
    rfl

theorem Reads.allRows {query : Database → List β} : (CollectorService.allRows query).Reads := by
  have hrows : ∀ rows : List β, (stepRows rows).Reads := by
    intro rows
    induction rows with
    | nil => exact .bind (fun _ => rfl) fun _ => .pure _
    | cons row rest ih =>
      refine .bind (fun _ => rfl) fun found => ?_
      split
      · exact .bind ih fun _ => .pure _
      · exact .pure _
  exact fun c => hrows _ c

theorem commitTransaction_tables (c : Conn) : (commitTransaction c).2.tables = c.tables := by
  refine Reads.bind (Reads.prepare : apiCall.Reads) (fun _ c => ?_) c
  split <;> rfl

theorem Does.bind {m m' : Sql Unit} (hm : m.Does f) (hm' : m'.Does g) :
    (m >>= fun _ => m').Does fun t => (f t).bind g := by
  intro c c' h
  rcases hrun : m c with ⟨e | a, c₁⟩
  · rw [bind_error hrun] at h
    cases h
  · rw [bind_ok hrun] at h
    show (f c.tables).bind g = _
    rw [hm c c₁ hrun]
    exact hm' c₁ c' h

theorem Does.stepDone (effect : Database → Except Str Database) :
    (CollectorService.stepDone effect).Does effect := by
  intro c c' h
  unfold CollectorService.stepDone at h
  split at h
  · cases h
  · split at h
    · next heffect =>
      cases h
      exact heffect
    · cases h

theorem Does.prepare {m : Sql Unit} (hm : m.Does f) :
    (CollectorService.prepare >>= fun _ => m).Does f := by
  intro c c' h
  rcases hrun : CollectorService.prepare c with ⟨e | a, c₁⟩
  · rw [bind_error hrun] at h
    cases h
  · rw [bind_ok hrun] at h
    have hsame := Reads.prepare c
    rw [hrun] at hsame
    rw [← hsame]
    exact hm c₁ c' h

theorem Does.stepEach (effect : β → Database → Except Str Database) (items : List β) :
    (CollectorService.stepEach effect items).Does
      fun t => items.foldlM (fun t item => effect item t) t := by
  induction items with
  | nil =>
    intro c c' h
    cases h
    rfl
  | cons item rest ih =>
    intro c c' h
    show (item :: rest).foldlM (fun t item => effect item t) c.tables = _
    rw [List.foldlM_cons]
    exact Does.bind (.stepDone (effect item)) ih c c' h

theorem Writes.statement (effect : Database → Except Str Database) :
    (CollectorService.prepare >>= fun _ => CollectorService.stepDone effect).Writes effect := by
  intro c
  rcases hrun : (CollectorService.prepare >>= fun _ => CollectorService.stepDone effect) c with
    ⟨e | u, c'⟩
  · have hsame := allOrNothing_statement effect e (congrArg Prod.fst hrun)
    rw [hrun] at hsame
    exact .inl ⟨e, rfl, hsame⟩
  · exact .inr ⟨rfl, Does.prepare (.stepDone effect) c c' hrun⟩

theorem Writes.congr {m : Sql Unit} (h : m.Writes f) (hfg : ∀ t, f t = g t) : m.Writes g :=
  (funext hfg : f = g) ▸ h

/-- A transaction throws and leaves the tables, or returns with what its body has done. -/
theorem Writes.transaction {body : Sql Unit} (hplain : body.Plain) (hdoes : body.Does f) :
    (withTransaction body).Writes f := by
  intro c
  rcases hrun : (withTransaction body c).1 with e | u
  · exact .inl ⟨e, rfl, withTransaction_atomic hplain hrun⟩
  · refine .inr ⟨rfl, ?_⟩
    rcases beginTransaction_cases c with ⟨e, hbegin⟩ | hbegin
    · rw [withTransaction, bind_error hbegin] at hrun
      cases hrun
    · rw [withTransaction, bind_ok hbegin] at hrun ⊢
      rcases hb : body { c.tick with saved := some c.tables } with ⟨e | u, c₁⟩
      · simp only [bind_error hb] at hrun
        cases hrun
      · simp only [bind_ok hb] at hrun ⊢
        have heffect : f c.tables = .ok c₁.tables :=
          hdoes { c.tick with saved := some c.tables } c₁ hb
        rcases hcommit : commitTransaction c₁ with ⟨e | u, c₂⟩
        · rw [hcommit] at hrun
          cases hrun
        · have htables : c₂.tables = c₁.tables := by
            have := commitTransaction_tables c₁
            rwa [hcommit] at this
          simpa [hcommit, htables] using heffect

end Sql

/-! ## 2. The calls of the tasks -/

namespace SQLiteManager

variable {deviceName : Str} {records : List ResourceRecord} {owner : Device}
  {points : List DataPoint} {maxRows : ℤ}

theorem reads_deviceExists : (deviceExists deviceName).Reads :=
  .bind .prepare fun _ => .bind .firstRow fun _ => .pure _

theorem reads_getDeviceByName : (getDeviceByName deviceName).Reads :=
  .bind .prepare fun _ => .bind .firstRow fun found => by
    cases found with
    | none => exact fun _ => rfl
    | some x => exact fun _ => rfl

/-- The device that a name finds has this name. -/
theorem returns_getDeviceByName :
    (getDeviceByName deviceName).Returns fun device => device.name = cString deviceName := by
  refine .bind (.any _) fun _ _ => .bind .firstRow fun found hfound => ?_
  cases found with
  | none =>
    intro c device h
    cases h
  | some x =>
    obtain ⟨t, hx⟩ := hfound x rfl
    intro c device h
    have hdevice : DeviceRepository.readDevice x = device := Except.ok.inj h
    rw [← hdevice]
    simp [DeviceRepository.readDevice, columnText, (DeviceRepository.named_eq_some.mp hx).2, bindText]

theorem reads_getDevices : getDevices.Reads :=
  .bind .prepare fun _ => .bind .allRows fun _ => .pure _

theorem reads_getDataPointsByDeviceName : (getDataPointsByDeviceName deviceName).Reads :=
  .bind .prepare fun _ => .bind .allRows fun _ => .pure _

theorem reads_getLatestResources : (getLatestResources deviceName).Reads :=
  .bind .prepare fun _ => .bind .allRows fun _ => .pure _

/-- The points of `owner` are replaced, or the call throws. -/
theorem writes_replaceDataPointsForDevice :
    (replaceDataPointsForDevice owner points).Writes fun t =>
      points.foldlM (fun t point => DataPointRepository.insertEffect owner point t)
        (DataPointRepository.deleteEffect owner.name t) := by
  refine Sql.Writes.transaction (plain_replaceForDevice owner points) ?_
  exact Sql.Does.bind (.prepare (.stepDone _)) (.prepare (.stepEach _ _))

/-- The records arrive in `Resources`, or the call throws. -/
theorem writes_insertResources : (insertResources records).Writes fun t =>
    records.foldlM (fun t record => ResourceRepository.insertEffect record t) t :=
  .transaction (plain_insert records) (.prepare (.stepEach _ _))

theorem writes_cleanupResources (maxRows : ℤ) :
    (cleanupResources maxRows).Writes fun t => .ok
      (if maxRows ≤ 0 then t else ResourceRetentionService.cleanupEffect maxRows t) := by
  refine Sql.Writes.transaction (plain_cleanupResources maxRows) ?_
  intro c c' h
  unfold ResourceRetentionService.cleanupResources at h
  split at h
  · next hnothing =>
    cases h
    simp only [if_pos hnothing]
  · next hclean =>
    simp only [if_neg hclean]
    exact Sql.Does.prepare (.stepDone _) c c' h

/-- The rows beyond the limit are removed, or the call throws. -/
theorem writes_cleanupResourcesForDevice (deviceName : Str) (maxRows : ℤ) :
    (cleanupResourcesForDevice deviceName maxRows).Writes fun t => .ok
      (if maxRows ≤ 0 ∨ deviceName = [] then t
        else ResourceRetentionService.cleanupDeviceEffect deviceName maxRows t) := by
  refine Sql.Writes.transaction (plain_cleanupResourcesForDevice deviceName maxRows) ?_
  intro c c' h
  unfold ResourceRetentionService.cleanupResourcesForDevice at h
  split at h
  · next hnothing =>
    cases h
    simp only [if_pos hnothing]
  · next hclean =>
    simp only [if_neg hclean]
    exact Sql.Does.prepare (.stepDone _) c c' h

end SQLiteManager

/-! ## 3. The tasks -/

namespace OnConnection

open DataTask (failure)

def initDataPointsByDevice (models : ModelRepository) (deviceName mid : Str) : Sql CommandResult :=
  Sql.tryCatch (do
      if !(← SQLiteManager.deviceExists deviceName) then
        Sql.throw (lit "device not found: " ++ deviceName)
      let device ← SQLiteManager.getDeviceByName deviceName
      let points ← Sql.ofExcept (modelPoints models device)
      SQLiteManager.replaceDataPointsForDevice device points
      return { msg := lit "DataPoint initialized for device: " ++ deviceName, mid })
    (failure mid)

def storedDataPoints (models : ModelRepository) (deviceName mid : Str) : Sql (List DataPoint) := do
  let points ← SQLiteManager.getDataPointsByDeviceName deviceName
  if points = [] then
    let initResult ← initDataPointsByDevice models deviceName mid
    if !initResult.ok then
      Sql.throw initResult.msg
    SQLiteManager.getDataPointsByDeviceName deviceName
  else return points

def loadDataPoints (models : ModelRepository) (deviceName mid : Str) : Sql (List DataPoint) := do
  let points ← storedDataPoints models deviceName mid
  if points = [] then
    Sql.throw (lit "device has no configured data points: " ++ deviceName)
  return points

/-- `startDeviceCollect`, before it looks at the registry. -/
def startChecks (models : ModelRepository) (deviceName mid : Str) : Sql Device := do
  if !(← SQLiteManager.deviceExists deviceName) then
    Sql.throw (lit "device not found: " ++ deviceName)
  let device ← SQLiteManager.getDeviceByName deviceName
  if device.status = 0 then
    Sql.throw (lit "device is offline: " ++ deviceName)
  let _ ← loadDataPoints models deviceName mid
  return device

/-! ## 4. What the tasks change -/

/-- The points of the device with this name are as they were, or have been replaced. -/
def Initialised (name : Str) (t u : Database) : Prop :=
  u = t ∨ ∃ (owner : Device) (points : List DataPoint) (v : DataPointTable), owner.name = name ∧
    (DataPointRepository.deleteEffect name t).dataPoint.insertAll?
      (points.map (DataPointRepository.boundRow owner)) = some v ∧ u = { t with dataPoint := v }

section Changes
variable (models : ModelRepository) (deviceName mid : Str)

theorem Initialised.refl (name : Str) (t : Database) : Initialised name t t := .inl rfl

theorem initDataPointsByDevice_changes :
    (initDataPointsByDevice models deviceName mid).Changes (Initialised (cString deviceName)) := by
  refine .tryCatch (.bind (Initialised.refl _) SQLiteManager.reads_deviceExists
    (.any _) fun found _ => ?_)
  cases found with
  | false => exact .throw_bind (Initialised.refl _) _
  | true =>
    refine .bind (Initialised.refl _) SQLiteManager.reads_getDeviceByName
      SQLiteManager.returns_getDeviceByName fun device hname => ?_
    refine .bind (Initialised.refl _) (fun _ => rfl) (.any _) fun points _ => ?_
    refine .bind_reads (SQLiteManager.writes_replaceDataPointsForDevice.changes
      (Initialised.refl _) fun t u hu => ?_) fun _ => .pure _
    rw [SQLiteManager.foldlM_insertEffect, hname] at hu
    split at hu
    · next v hv =>
      cases hu
      exact .inr ⟨device, points, v, hname, hv, rfl⟩
    · cases hu

theorem storedDataPoints_changes :
    (storedDataPoints models deviceName mid).Changes (Initialised (cString deviceName)) := by
  refine .bind (Initialised.refl _) SQLiteManager.reads_getDataPointsByDeviceName
    (.any _) fun points _ => ?_
  split
  · refine .bind_reads (initDataPointsByDevice_changes models deviceName mid) fun initResult => ?_
    cases initResult.ok with
    | false => exact .bind (.throw _) fun _ => SQLiteManager.reads_getDataPointsByDeviceName
    | true => exact SQLiteManager.reads_getDataPointsByDeviceName
  · exact .pure (Initialised.refl _) _

theorem loadDataPoints_changes :
    (loadDataPoints models deviceName mid).Changes (Initialised (cString deviceName)) := by
  refine .bind_reads (storedDataPoints_changes models deviceName mid) fun points => ?_
  split
  · exact .bind (.throw _) fun _ => .pure _
  · exact .pure _

/-- The checks of a start change at most the points of the device. -/
theorem startChecks_changes :
    (startChecks models deviceName mid).Changes (Initialised (cString deviceName)) := by
  refine .bind (Initialised.refl _) SQLiteManager.reads_deviceExists (.any _) fun found _ => ?_
  cases found with
  | false => exact .throw_bind (Initialised.refl _) _
  | true =>
    refine .bind (Initialised.refl _) SQLiteManager.reads_getDeviceByName (.any _) fun device _ => ?_
    cases decEq device.status 0 with
    | isTrue hoffline =>
      simp only [hoffline, if_true]
      exact .throw_bind (Initialised.refl _) _
    | isFalse honline =>
      simp only [honline, if_false]
      exact .bind_reads (loadDataPoints_changes models deviceName mid) fun _ => .pure device

end Changes

end OnConnection

/-! ## 5. Without failures -/

namespace Sql

variable {α β : Type} {m : Sql α} {k : α → Sql β} {p : Command α} {q : α → Command β}

/-- On a connection where no call fails, the computation does what the program does alone. -/
def Alone (m : Sql α) (p : Command α) : Prop := ∀ t n, ∃ n',
  m (healthy t none n) = ((p.run t).1, healthy (p.run t).2 none n')

theorem Alone.exec (h : Alone m p) (t : Database) : m.exec t = p.run t := by
  obtain ⟨n, hrun⟩ := h t 0
  rw [exec_eq, hrun]
  rfl

theorem Alone.pure (a : α) : Alone (pure a) (pure a) := fun _ n => ⟨n, rfl⟩

theorem Alone.throw (e : Str) : Alone (Sql.throw e : Sql α) (Command.throw e) := fun _ n => ⟨n, rfl⟩

theorem Alone.ofExcept (r : Except Str α) : Alone (Sql.ofExcept r) (Command.lift r) := fun _ n =>
  ⟨n, rfl⟩

theorem Alone.bind (hm : Alone m p) (hk : ∀ a, Alone (k a) (q a)) : Alone (m >>= k) (p >>= q) := by
  intro t n
  obtain ⟨n₁, hrun⟩ := hm t n
  rw [Command.run_bind]
  rcases hp : p.run t with ⟨e | a, t₁⟩
  · rw [hp] at hrun
    exact ⟨n₁, bind_error hrun⟩
  · rw [hp] at hrun
    rw [bind_ok hrun]
    exact hk a t₁ n₁

/-- What would come after an exception does not matter. -/
theorem Alone.throw_bind (e : Str) : Alone (Sql.throw e >>= k) (Command.throw e >>= q) :=
  fun _ n => ⟨n, rfl⟩

theorem Alone.tryCatch {handler : Str → α} (hm : Alone m p) :
    Alone (Sql.tryCatch m handler) (Command.noThrow (p.tryCatch handler)) := by
  intro t n
  obtain ⟨n₁, hrun⟩ := hm t n
  refine ⟨n₁, ?_⟩
  rw [Command.run_noThrow, Command.run_tryCatch, Sql.tryCatch, hrun]
  rcases p.run t with ⟨e | a, t₁⟩ <;> rfl

end Sql

namespace SQLiteManager

open Command (call)
open Sql (Alone)

variable {deviceName : Str}

theorem alone_deviceExists : Alone (deviceExists deviceName) (call (deviceExists deviceName)) :=
  fun _ n => ⟨n + 1 + 1, rfl⟩

theorem alone_getDeviceByName :
    Alone (getDeviceByName deviceName) (call (getDeviceByName deviceName)) := by
  intro t n
  refine ⟨n + 1 + 1, ?_⟩
  rw [Command.run_call, exec_getDeviceByName]
  cases hx : DeviceRepository.named deviceName t with
  | none => exact getByName_healthy_none hx
  | some x => exact getByName_healthy hx

theorem alone_getDataPointsByDeviceName :
    Alone (getDataPointsByDeviceName deviceName) (call (getDataPointsByDeviceName deviceName)) := by
  intro t n
  have hrows := @allRows_healthy _ t none (n + 1) fun t =>
    t.dataPoint.select fun r => r.dName = some (bindText deviceName)
  rw [Command.run_call, exec_getDataPointsByDeviceName]
  exact ⟨_, (Sql.bind_ok prepare_healthy).trans (Sql.bind_ok hrows)⟩

theorem alone_replaceDataPointsForDevice (owner : Device) (points : List DataPoint) :
    Alone (replaceDataPointsForDevice owner points)
      (call (replaceDataPointsForDevice owner points)) := by
  intro t n
  obtain ⟨m, hrun⟩ := replaceDataPointsForDevice_healthy owner points t n
  refine ⟨m, ?_⟩
  rw [Command.run_call, exec_replaceDataPointsForDevice, hrun]
  cases (DataPointRepository.deleteEffect owner.name t).dataPoint.insertAll?
    (points.map (DataPointRepository.boundRow owner)) <;> rfl

theorem alone_insertResources (records : List ResourceRecord) :
    Alone (insertResources records) (call (insertResources records)) := by
  intro t n
  obtain ⟨u, hu, hfold⟩ := foldlM_insertResource (t := t) records
  have hloop := (@stepEach_healthy _ t (some t) (n + 1 + 1) ResourceRepository.insertEffect
    records).1 _ hfold
  have hbody : ResourceRepository.insert records (healthy t (some t) (n + 1)) =
      stepEach ResourceRepository.insertEffect records (healthy t (some t) (n + 1 + 1)) := rfl
  obtain ⟨v, hv, hexec⟩ := exec_insertResources t records
  rw [hu] at hv
  cases hv
  rw [Command.run_call, hexec]
  exact ⟨_, withTransaction_ok (hbody.trans hloop)⟩

theorem alone_cleanupResourcesForDevice (deviceName : Str) (maxRows : ℤ) :
    Alone (cleanupResourcesForDevice deviceName maxRows)
      (call (cleanupResourcesForDevice deviceName maxRows)) := by
  intro t n
  rw [Command.run_call, Sql.exec_eq, cleanupResourcesForDevice,
    ResourceRetentionService.cleanupResourcesForDevice]
  split
  · exact ⟨n + 1 + 1, rfl⟩
  · exact ⟨n + 1 + 2 + 1, rfl⟩

end SQLiteManager

namespace OnConnection

open Sql (Alone)

variable (models : ModelRepository) (deviceName mid : Str)

theorem initDataPointsByDevice_alone :
    Alone (initDataPointsByDevice models deviceName mid)
      (Command.noThrow (DataTask.initDataPointsByDevice models deviceName mid)) := by
  refine .tryCatch (SQLiteManager.alone_deviceExists.bind fun found => ?_)
  cases found with
  | false => exact .throw_bind _
  | true =>
    refine SQLiteManager.alone_getDeviceByName.bind fun device => ?_
    refine (Alone.ofExcept _).bind fun points => ?_
    exact (SQLiteManager.alone_replaceDataPointsForDevice device points).bind fun _ => .pure _

theorem storedDataPoints_alone : Alone (storedDataPoints models deviceName mid)
    (DataTask.storedDataPoints models deviceName mid) := by
  refine SQLiteManager.alone_getDataPointsByDeviceName.bind fun points => ?_
  split
  · refine (initDataPointsByDevice_alone models deviceName mid).bind fun initResult => ?_
    cases initResult.ok with
    | false => exact .throw_bind _
    | true => exact SQLiteManager.alone_getDataPointsByDeviceName
  · exact .pure _

theorem loadDataPoints_alone : Alone (loadDataPoints models deviceName mid)
    (DataTask.loadDataPoints models deviceName mid) := by
  refine (storedDataPoints_alone models deviceName mid).bind fun points => ?_
  split
  · exact .throw_bind _
  · exact .pure _

theorem startChecks_alone : Alone (startChecks models deviceName mid)
    (DataTask.startChecks models deviceName mid) := by
  refine SQLiteManager.alone_deviceExists.bind fun found => ?_
  cases found with
  | false => exact .throw_bind _
  | true =>
    refine SQLiteManager.alone_getDeviceByName.bind fun device => ?_
    have hload := loadDataPoints_alone models deviceName mid
    cases decEq device.status 0 with
    | isTrue hoffline =>
      simp only [hoffline, if_true]
      exact .throw_bind _
    | isFalse honline =>
      simp only [honline, if_false]
      exact hload.bind fun _ => .pure device

end OnConnection

end CollectorService
