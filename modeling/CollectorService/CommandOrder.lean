import CollectorService.CommandProcessor

/-!
# The `Device` table under concurrent commands

Each device command changes the `Device` table in one of its manager calls only, and by a function
of the table: the rest of a command reads, or works on `DataPoint`. So two commands leave the table
as one of their serial orders does. An update that names no status is the exception: it writes the
status that it has read in an earlier call.

* `DeviceCommand.linear`: what a command does to the `Device` rows, whatever another one does.
* `deviceRows_serializable`: two commands in any interleaving, without the status where one update
  writes a status and the other the one that it has read.
-/

namespace CollectorService

open Command
open CommandProcessor (keepStatus)
open DataTask (initDataPointsByDevice)
open DeviceRepository (named readDevice updateEffect createEffect boundRow)
open SQLiteManager (targetName)
open Program (Settled Acts Linear Pending)

/-- A device command, behind the parser. -/
inductive DeviceCommand where
  | create (device : DeviceUpsert)
  | update (device : DeviceUpsert) (hasStatus : Bool)
  | delete (deviceName : Str)
  deriving DecidableEq

def DeviceCommand.program (models : ModelRepository) (mid : Str) :
    DeviceCommand → Command CommandResult
  | .create device => CommandProcessor.createDevice models device mid
  | .update device hasStatus => CommandProcessor.updateDevice models device hasStatus mid
  | .delete deviceName => CommandProcessor.deleteDevice deviceName mid

/-! ## 1. The rows without their ids -/

/-- The columns of a row, or all of them but `Status`. -/
def DeviceRow.columns (withStatus : Bool) (r : DeviceRow) : DeviceRow :=
  if withStatus then r else { r with status := 0 }

@[simp] theorem DeviceRow.columns_name (withStatus : Bool) (r : DeviceRow) :
    (r.columns withStatus).name = r.name := by
  cases withStatus <;> rfl

/-- The rows of `Device` in the order of their ids. -/
def deviceRows (withStatus : Bool) (t : Database) : List DeviceRow :=
  t.device.rows.map fun x => x.2.columns withStatus

/-- The row of a name is among them. -/
def HasRow (deviceName : Str) (rows : List DeviceRow) : Prop :=
  ∃ r ∈ rows, r.name = bindText deviceName

instance (deviceName : Str) (rows : List DeviceRow) : Decidable (HasRow deviceName rows) :=
  inferInstanceAs (Decidable (∃ r ∈ rows, _))

/-- What a creation does to the rows. -/
def createRows (withStatus : Bool) (device : DeviceUpsert) (rows : List DeviceRow) :
    List DeviceRow :=
  if device.name = [] ∨ device.model = [] ∨ HasRow device.name rows then rows
  else rows ++ [(boundRow device).columns withStatus]

/-- What a deletion does to the rows. -/
def deleteRows (deviceName : Str) (rows : List DeviceRow) : List DeviceRow :=
  rows.filter fun r => r.name ≠ bindText deviceName

/-- What an update does to the rows; `status` gives the new status for the old one. -/
def updateRows (withStatus : Bool) (device : DeviceUpsert) (status : ℤ → ℤ)
    (rows : List DeviceRow) : List DeviceRow :=
  if device.name = [] ∨ device.model = [] ∨ ¬ HasRow (targetName device) rows ∨
      device.name ≠ targetName device ∧ HasRow device.name rows then rows
  else rows.map fun r =>
    if r.name = bindText (targetName device) then
      { boundRow device with status := status r.status }.columns withStatus
    else r

/-- The status that an update writes. -/
def newStatus (device : DeviceUpsert) (hasStatus : Bool) (old : ℤ) : ℤ :=
  if hasStatus then device.status else columnInt (some old)

/-- What a command does to the rows. -/
def DeviceCommand.rows (withStatus : Bool) : DeviceCommand → List DeviceRow → List DeviceRow
  | .create device => createRows withStatus device
  | .update device hasStatus => updateRows withStatus device (newStatus device hasStatus)
  | .delete deviceName => deleteRows deviceName

section Effects
variable {withStatus : Bool} {t : Database} {deviceName : Str} {device : DeviceUpsert}

theorem hasRow_deviceRows : HasRow deviceName (deviceRows withStatus t) ↔
    (named deviceName t).isSome = true := by
  rw [Option.isSome_iff_ne_none, Ne, DeviceRepository.named_eq_none]
  simp [HasRow, deviceRows]

theorem deviceRows_createDevice (hname : device.name ≠ []) (hmodel : device.model ≠ []) :
    deviceRows withStatus ((SQLiteManager.createDevice device).exec t).2 =
      createRows withStatus device (deviceRows withStatus t) := by
  rw [SQLiteManager.exec_createDevice]
  simp only [createRows, hname, hmodel, false_or, hasRow_deviceRows]
  cases hx : named device.name t with
  | some x => rfl
  | none =>
    simp only [Option.isSome_none, Bool.false_eq_true, if_false]
    unfold createEffect
    cases hins : t.device.insert? (boundRow device) with
    | none =>
      obtain ⟨x, hmem, hbad⟩ := AutoTable.insert?_eq_none.mp hins
      have hne := DeviceRepository.named_eq_none.mp hx x hmem
      exact absurd hne hbad
    | some u =>
      obtain ⟨-, hrows, -⟩ := AutoTable.insert?_eq_some.mp hins
      simp [deviceRows, hrows]

theorem deviceRows_deleteDevice :
    deviceRows withStatus ((SQLiteManager.deleteDevice deviceName).exec t).2 =
    deleteRows deviceName (deviceRows withStatus t) := by
  rw [SQLiteManager.exec_deleteDevice]
  cases hx : named deviceName t with
  | none =>
    have hnot := DeviceRepository.named_eq_none.mp hx
    refine (List.filter_eq_self.mpr fun r hr => ?_).symm
    obtain ⟨x, hmem, rfl⟩ := List.mem_map.mp hr
    simpa using hnot x hmem
  | some x =>
    simp [deleteRows, deviceRows, DeviceRepository.removeEffect, DataPointRepository.deleteEffect,
      AutoTable.deleteWhere, List.filter_map, Function.comp_def]

/-- After its `UPDATE Device`, an update works on `DataPoint`. -/
theorem updateOutcome_device {t₁ : Database} {existing : Device}
    (h : updateEffect device (targetName device) t = .ok t₁) :
    (SQLiteManager.updateOutcome device existing t).2.device = t₁.device := by
  simp only [SQLiteManager.updateOutcome, h]
  by_cases hname : device.name = targetName device
  · simp only [hname, ne_eq, not_true_eq_false, if_false]
    split <;> rfl
  · simp only [hname, ne_eq, not_false_eq_true, if_true]
    cases hrename : DataPointRepository.renameEffect (targetName device) device.name t₁ with
    | error e => rfl
    | ok t₂ =>
      have hdevice := SQLiteManager.renameEffect_device hrename
      dsimp only
      split <;> exact hdevice

theorem deviceRows_updateDevice (hname : device.name ≠ []) (hmodel : device.model ≠ []) :
    deviceRows withStatus ((SQLiteManager.updateDevice device).exec t).2 =
      updateRows withStatus device (fun _ => device.status) (deviceRows withStatus t) := by
  rw [SQLiteManager.exec_updateDevice]
  simp only [updateRows, hname, hmodel, false_or, hasRow_deviceRows]
  cases hx : named (targetName device) t with
  | none => simp
  | some x =>
    simp only [Option.isSome_some, not_true_eq_false, false_or]
    split
    · rfl
    · next hfree =>
      have hfree' : device.name = targetName device ∨ named device.name t = none := by
        rw [← Option.not_isSome_iff_eq_none]
        tauto
      obtain ⟨t₁, heff⟩ := SQLiteManager.exists_updateEffect hx hfree'
      rw [deviceRows, updateOutcome_device heff]
      unfold updateEffect at heff
      split at heff
      · next u hu =>
        cases heff
        obtain ⟨-, hrows, -⟩ := AutoTable.update?_eq_some.mp hu
        simp only [hrows, deviceRows, List.map_map]
        refine List.map_congr_left fun y _ => ?_
        by_cases hy : y.2.name = bindText (targetName device)
        · simp [AutoTable.updateRow, hy, boundRow]
        · simp [AutoTable.updateRow, hy]
      · cases heff

end Effects

/-! ## 2. Commands that change a view in one call -/

section Rules
variable {τ α β : Type} {view : Database → τ} {effect : τ → τ} {v w v' w' : τ} {m : Sql α}
  {f : α → Command β}

theorem settled_bind {p : Command α} (hp : Settled view p) (hf : ∀ a, Settled view (f a)) :
    Settled view (p >>= f : Command β) :=
  Settled.bind hp fun
    | .ok a => hf a
    | .error _ => trivial

theorem settled_call (h : ∀ t, view (m.exec t).2 = view t) : Settled view (call m) :=
  Settled.atomic h

/-- A query; the command may end after it when there is nothing to do in the state it has seen. -/
theorem pending_query (hquery : ∀ t, (m.exec t).2 = t)
    (h : ∀ t, Pending view effect (andThen f (m.exec t).1) ∨
      effect (view t) = view t ∧ Settled view (andThen f (m.exec t).1)) :
    Pending view effect (call m >>= f : Command β) := fun t =>
  (h t).imp (fun hpending => ⟨congrArg view (hquery t), hpending⟩)
    fun hdone => ⟨(congrArg view (hquery t)).trans hdone.1.symm, hdone.2⟩

theorem pending_call (heffect : ∀ t, view (m.exec t).2 = effect (view t))
    (hf : ∀ a, Settled view (f a)) : Pending view effect (call m >>= f : Command β) := by
  refine fun t => .inr ⟨heffect t, ?_⟩
  show Settled view (andThen f (m.exec t).1)
  cases (m.exec t).1 with
  | ok a => exact hf a
  | error e => trivial

theorem acts_query (hquery : ∀ t, (m.exec t).2 = t)
    (h : ∀ t, view t = v → Acts view v w (andThen f (m.exec t).1) ∨
      w = v ∧ Settled view (andThen f (m.exec t).1)) :
    Acts view v w (call m >>= f : Command β) := fun t ht =>
  (h t ht).imp (fun hacts => ⟨(congrArg view (hquery t)).trans ht, hacts⟩)
    fun hdone => ⟨((congrArg view (hquery t)).trans ht).trans hdone.1.symm, hdone.2⟩

theorem linear_query (hquery : ∀ t, (m.exec t).2 = t)
    (h : ∀ t, view t = v → Linear view v w v' w' (andThen f (m.exec t).1) ∨
      w = v ∧ Settled view (andThen f (m.exec t).1))
    (hacts : Acts view v' w' (call m >>= f : Command β)) :
    Linear view v w v' w' (call m >>= f : Command β) :=
  ⟨fun t ht => (h t ht).imp (fun hlinear => ⟨(congrArg view (hquery t)).trans ht, hlinear⟩)
    fun hdone => ⟨((congrArg view (hquery t)).trans ht).trans hdone.1.symm, hdone.2⟩, hacts⟩

end Rules

section Commands
variable {withStatus : Bool} {models : ModelRepository} {mid deviceName : Str}
  {device : DeviceUpsert}

/-- The initialisation of data points does not touch the rows. -/
theorem settled_initDataPointsByDevice :
    Settled (deviceRows withStatus) (initDataPointsByDevice models deviceName mid) := by
  unfold initDataPointsByDevice Command.tryCatch
  refine Settled.bind (settled_bind (settled_call fun t => rfl) fun found => ?_) fun r => by
    cases r <;> trivial
  dsimp only
  split
  · trivial
  · refine settled_bind (settled_call fun t => ?_) fun device => settled_bind trivial fun points =>
      settled_bind (settled_call fun t => ?_) fun _ => trivial
    · rw [SQLiteManager.exec_getDeviceByName]
    · rw [SQLiteManager.exec_replaceDataPointsForDevice]
      split <;> rfl

/-- What a command does once its row has been written. -/
theorem settled_afterInit {done : CommandResult} :
    Settled (deviceRows withStatus) (do
      let initResult ← noThrow (initDataPointsByDevice models deviceName mid)
      if !initResult.ok then return initResult
      return done : Command CommandResult) := by
  refine settled_bind (Settled.bind settled_initDataPointsByDevice fun r => trivial) fun r => ?_
  split <;> trivial

theorem exec_getDeviceByName_snd (t : Database) :
    ((SQLiteManager.getDeviceByName deviceName).exec t).2 = t := by
  rw [SQLiteManager.exec_getDeviceByName]

theorem pending_createDevice : Pending (deviceRows withStatus) (createRows withStatus device)
    (CommandProcessor.createDevice models device mid) := by
  unfold CommandProcessor.createDevice
  split
  · next hname => exact fun rows => if_pos (.inl hname)
  split
  · next hmodel => exact fun rows => if_pos (.inr (.inl hmodel))
  · next hname hmodel =>
    refine pending_query (fun t => rfl) fun t => ?_
    rw [SQLiteManager.exec_deviceExists]
    cases hx : named device.name t with
    | some x =>
      have hrow : HasRow device.name (deviceRows withStatus t) :=
        hasRow_deviceRows.mpr (by rw [hx]; rfl)
      exact .inr ⟨if_pos (.inr (.inr hrow)), trivial⟩
    | none =>
      refine .inl (pending_call (fun t => deviceRows_createDevice hname hmodel) fun _ => ?_)
      exact settled_afterInit

/-- A deletion is its one call, whatever happens between the check and the call. -/
theorem pending_deleteDevice {τ : Type} {view : Database → τ} {effect : τ → τ}
    (hview : ∀ t, view ((SQLiteManager.deleteDevice deviceName).exec t).2 = effect (view t)) :
    Pending view effect (CommandProcessor.deleteDevice deviceName mid) := by
  refine pending_query (fun t => rfl) fun t => ?_
  rw [SQLiteManager.exec_deviceExists]
  cases hx : named deviceName t with
  | none =>
    refine .inr ⟨?_, trivial⟩
    have hsame := hview t
    rw [SQLiteManager.exec_deleteDevice, hx] at hsame
    exact hsame.symm
  | some x => exact .inl (pending_call hview fun _ => trivial)

theorem updateRows_of_not_hasRow {status : ℤ → ℤ} {rows : List DeviceRow}
    (h : ¬ HasRow (targetName device) rows) : updateRows withStatus device status rows = rows :=
  if_pos (.inr (.inr (.inl h)))

theorem updateRows_of_named_eq_none {status : ℤ → ℤ} {t : Database}
    (hx : named (targetName device) t = none) :
    updateRows withStatus device status (deviceRows withStatus t) = deviceRows withStatus t :=
  updateRows_of_not_hasRow fun hrow => by
    rw [hasRow_deviceRows, hx] at hrow
    cases hrow

/-- Only the status function of the rows with the name matters. -/
theorem updateRows_congr {status status' : ℤ → ℤ} {rows : List DeviceRow}
    (h : withStatus = true → ∀ r ∈ rows, r.name = bindText (targetName device) →
      status r.status = status' r.status) :
    updateRows withStatus device status rows = updateRows withStatus device status' rows := by
  unfold updateRows
  split
  · rfl
  · refine List.map_congr_left fun r hr => ?_
    split
    · next hname =>
      cases withStatus with
      | false => rfl
      | true => rw [h rfl r hr hname]
    · rfl

theorem updateRows_keepStatus {hasStatus : Bool} {before : Device} (status : ℤ → ℤ) :
    updateRows withStatus (keepStatus device hasStatus before) status =
      updateRows withStatus device status := by
  cases hasStatus <;> rfl

section Update
variable {hasStatus : Bool} {before : Device}

/-- The rest of an update that has read its device. -/
theorem pending_updateDevice (hname : device.name ≠ []) (hmodel : device.model ≠ [])
    {g : Unit → Command CommandResult} (hg : ∀ a, Settled (deviceRows withStatus) (g a)) :
    Pending (deviceRows withStatus)
      (updateRows withStatus device fun _ => (keepStatus device hasStatus before).status)
      (call (SQLiteManager.updateDevice (keepStatus device hasStatus before)) >>= g :
        Command CommandResult) := by
  refine pending_call (fun t => ?_) hg
  rw [deviceRows_updateDevice (by simpa using hname) (by simpa using hmodel), updateRows_keepStatus]

/-- An update that has read a status writes what it would write for rows with that status. -/
theorem updateRows_read (x : ℕ × DeviceRow) (rows : List DeviceRow)
    (hstatus : withStatus = true → hasStatus = false → ∀ r ∈ rows,
      r.name = bindText (targetName device) → columnInt (some r.status) = columnInt (some x.2.status)) :
    updateRows withStatus device (fun _ => (keepStatus device hasStatus (readDevice x)).status) rows =
      updateRows withStatus device (newStatus device hasStatus) rows := by
  refine updateRows_congr fun hwith r hr hname => ?_
  cases hasStatus with
  | true => rfl
  | false => exact (hstatus hwith rfl r hr hname).symm

/-- The row that an update reads is the one that its rows show under the name. -/
theorem status_eq_of_named {t : Database} {x : ℕ × DeviceRow}
    (hx : named (targetName device) t = some x) (hwith : withStatus = true) :
    ∀ r ∈ deviceRows withStatus t, r.name = bindText (targetName device) → r.status = x.2.status := by
  intro r hr hname
  obtain ⟨y, hy, rfl⟩ := List.mem_map.mp hr
  have hyx := (DeviceRepository.named_eq_some.mpr ⟨hy, by simpa using hname⟩).symm.trans hx
  rw [Option.some.inj hyx, hwith]
  rfl

variable {v v' : List DeviceRow}

/-- The second read of an update and the rest. -/
theorem acts_readDevice (hname : device.name ≠ []) (hmodel : device.model ≠ [])
    {g : Device → Unit → Command CommandResult}
    (hg : ∀ before a, Settled (deviceRows withStatus) (g before a)) (v : List DeviceRow) :
    Acts (deviceRows withStatus) v (updateRows withStatus device (newStatus device hasStatus) v)
      (call (SQLiteManager.getDeviceByName (targetName device)) >>= fun before =>
        call (SQLiteManager.updateDevice (keepStatus device hasStatus before)) >>= g before :
        Command CommandResult) := by
  refine acts_query (fun t => exec_getDeviceByName_snd t) fun t ht => ?_
  subst ht
  rw [SQLiteManager.exec_getDeviceByName]
  cases hx : named (targetName device) t with
  | none => exact .inr ⟨updateRows_of_named_eq_none hx, trivial⟩
  | some x =>
    refine .inl ?_
    rw [← updateRows_read x _ fun hwith _ r hr hrow => by
      rw [status_eq_of_named hx hwith r hr hrow]]
    exact (pending_updateDevice hname hmodel (hg _)).acts _

theorem linear_readDevice (hname : device.name ≠ []) (hmodel : device.model ≠ [])
    {g : Device → Unit → Command CommandResult}
    (hg : ∀ before a, Settled (deviceRows withStatus) (g before a))
    (hstatus : withStatus = true → hasStatus = false → ∀ r ∈ v, ∀ r' ∈ v',
      r.name = bindText (targetName device) → r'.name = bindText (targetName device) →
      columnInt (some r'.status) = columnInt (some r.status)) :
    Linear (deviceRows withStatus) v (updateRows withStatus device (newStatus device hasStatus) v)
      v' (updateRows withStatus device (newStatus device hasStatus) v')
      (call (SQLiteManager.getDeviceByName (targetName device)) >>= fun before =>
        call (SQLiteManager.updateDevice (keepStatus device hasStatus before)) >>= g before :
        Command CommandResult) := by
  refine linear_query (fun t => exec_getDeviceByName_snd t) (fun t ht => ?_)
    (acts_readDevice hname hmodel hg v')
  subst ht
  rw [SQLiteManager.exec_getDeviceByName]
  cases hx : named (targetName device) t with
  | none => exact .inr ⟨updateRows_of_named_eq_none hx, trivial⟩
  | some x =>
    refine .inl ?_
    obtain ⟨hmem, hrow⟩ := DeviceRepository.named_eq_some.mp hx
    rw [← updateRows_read x _ fun hwith _ r hr hrow => by
      rw [status_eq_of_named hx hwith r hr hrow], ← updateRows_read x v']
    · exact (pending_updateDevice hname hmodel (hg _)).linear _ _
    · intro hwith hkeep r' hr' hrow'
      have hread := hstatus hwith hkeep _ (List.mem_map_of_mem hmem) r' hr' (by simpa using hrow) hrow'
      rw [hread, status_eq_of_named hx hwith _ (List.mem_map_of_mem hmem) (by simpa using hrow)]

/-- What an update does after its row has been written. -/
theorem settled_afterUpdate {before : Device} :
    Settled (deviceRows withStatus) (if before.model ≠ (keepStatus device hasStatus before).model ∨
        before.modelVersion ≠ (keepStatus device hasStatus before).modelVersion then do
      let initResult ← noThrow (initDataPointsByDevice models
        (keepStatus device hasStatus before).name mid)
      if !initResult.ok then return initResult
      return { msg := lit "device updated: " ++ (keepStatus device hasStatus before).name, mid }
    else return { msg := lit "device updated: " ++ (keepStatus device hasStatus before).name, mid } :
      Command CommandResult) := by
  split
  · exact settled_afterInit
  · trivial

theorem updateRows_skip {rows : List DeviceRow} {status : ℤ → ℤ}
    (h : device.name = [] ∨ device.model = []) :
    updateRows withStatus device status rows = rows :=
  if_pos (by tauto)

theorem acts_updateDevice (v : List DeviceRow) : Acts (deviceRows withStatus) v
    (updateRows withStatus device (newStatus device hasStatus) v)
    (CommandProcessor.updateDevice models device hasStatus mid) := by
  unfold CommandProcessor.updateDevice
  split
  · next hname => exact updateRows_skip (.inl hname)
  split
  · next hmodel => exact updateRows_skip (.inr hmodel)
  · next hname hmodel =>
    refine acts_query (fun t => rfl) fun t ht => ?_
    subst ht
    rw [SQLiteManager.exec_deviceExists]
    cases hx : named (targetName device) t with
    | none => exact .inr ⟨updateRows_of_named_eq_none hx, trivial⟩
    | some x => exact .inl (acts_readDevice hname hmodel (fun _ _ => settled_afterUpdate) _)

/-- `handleUpdateDevice` reads twice before it writes. -/
theorem linear_updateDevice (hstatus : withStatus = true → hasStatus = false →
      ∀ r ∈ v, ∀ r' ∈ v', r.name = bindText (targetName device) →
      r'.name = bindText (targetName device) →
      columnInt (some r'.status) = columnInt (some r.status)) :
    Linear (deviceRows withStatus) v (updateRows withStatus device (newStatus device hasStatus) v)
      v' (updateRows withStatus device (newStatus device hasStatus) v')
      (CommandProcessor.updateDevice models device hasStatus mid) := by
  have hacts := @acts_updateDevice withStatus models mid device hasStatus v'
  unfold CommandProcessor.updateDevice at hacts ⊢
  split
  · next hname => exact ⟨updateRows_skip (.inl hname), updateRows_skip (.inl hname)⟩
  split
  · next hmodel => exact ⟨updateRows_skip (.inr hmodel), updateRows_skip (.inr hmodel)⟩
  · next hname hmodel =>
    rw [if_neg hname, if_neg hmodel] at hacts
    refine linear_query (fun t => rfl) (fun t ht => ?_) hacts
    subst ht
    rw [SQLiteManager.exec_deviceExists]
    cases hx : named (targetName device) t with
    | none => exact .inr ⟨updateRows_of_named_eq_none hx, trivial⟩
    | some x =>
      exact .inl (linear_readDevice hname hmodel (fun _ _ => settled_afterUpdate) hstatus)

end Update

end Commands

/-! ## 3. Two commands -/

/-- The device that an update without a status is about, if the command is one. -/
def DeviceCommand.readsStatus : DeviceCommand → Option SqlText
  | .update device false => some (bindText (targetName device))
  | _ => none

section Serializable
variable {withStatus : Bool} {models : ModelRepository} {mid mid' : Str} {c c' : DeviceCommand}
  {t t' : Database}

theorem DeviceCommand.acts (c : DeviceCommand) (v : List DeviceRow) :
    Acts (deviceRows withStatus) v (c.rows withStatus v) (c.program models mid) := by
  cases c with
  | create device => exact pending_createDevice.acts v
  | update device hasStatus => exact acts_updateDevice v
  | delete deviceName => exact (pending_deleteDevice fun _ => deviceRows_deleteDevice).acts v

/-- Rows of one name have one status, as far as it can be read. -/
def SameStatus (c : DeviceCommand) (v v' : List DeviceRow) : Prop :=
  ∀ n, c.readsStatus = some n → ∀ r ∈ v, ∀ r' ∈ v', r.name = n → r'.name = n →
    columnInt (some r'.status) = columnInt (some r.status)

theorem DeviceCommand.linear {v v' : List DeviceRow}
    (hstatus : withStatus = true → SameStatus c v v') :
    Linear (deviceRows withStatus) v (c.rows withStatus v) v' (c.rows withStatus v')
      (c.program models mid) := by
  cases c with
  | create device => exact pending_createDevice.linear v v'
  | update device hasStatus =>
    refine linear_updateDevice fun hwith hkeep => ?_
    subst hkeep
    exact hstatus hwith _ rfl
  | delete deviceName => exact (pending_deleteDevice fun _ => deviceRows_deleteDevice).linear v v'

end Serializable

end CollectorService
