import CollectorService.Session

/-!
# Names of devices

What the device commands do to the names in the table `Device`, on a connection that may fail.

* `createDevice_keeps`, `deleteDevice_keeps`, `updateDevice_keeps`: the names that may be lost.
* `deleteDevice_removes`, `updateDevice_removes`: the name that is gone when a command succeeds.
-/

namespace CollectorService

open DeviceRepository (named createEffect removeEffect updateEffect)
open DataPointRepository (deleteEffect)
open SQLiteManager (targetName)

/-! ## 1. Names -/

/-- The names of the devices. -/
def Database.deviceNames (t : Database) : Set Str := {d | ∃ x ∈ t.device.rows, x.2.name.bytes = d}

section Names
variable {t u v : Database} {d : Str}

theorem name_eq_bindText {name : SqlText} : name = bindText d ↔ name.bytes = cString d := by
  constructor
  · rintro rfl
    rfl
  · intro h
    cases name
    cases h
    rfl

theorem cString_mem_deviceNames : cString d ∈ t.deviceNames ↔ ∃ x, named d t = some x := by
  constructor
  · rintro ⟨x, hx, hname⟩
    exact ⟨x, DeviceRepository.named_eq_some.mpr ⟨hx, name_eq_bindText.mpr hname⟩⟩
  · rintro ⟨x, hx⟩
    obtain ⟨hmem, hname⟩ := DeviceRepository.named_eq_some.mp hx
    exact ⟨x, hmem, name_eq_bindText.mp hname⟩

theorem notMem_of_mem_deviceNames (h : d ∈ t.deviceNames) : (0 : UInt8) ∉ d := by
  obtain ⟨x, -, rfl⟩ := h
  exact x.2.name.noNul

/-- Every name is still there, except those that `lost` holds. -/
def KeepsDevices (lost : Set Str) (t u : Database) : Prop :=
  ∀ d ∈ t.deviceNames, d ∈ u.deviceNames ∨ d ∈ lost

/-- The devices are as they were. -/
def SameDevices (t u : Database) : Prop := u.device = t.device

theorem SameDevices.refl (t : Database) : SameDevices t t := rfl

theorem SameDevices.names (h : SameDevices t u) : u.deviceNames = t.deviceNames := by
  unfold Database.deviceNames
  rw [h]

variable {lost : Set Str}

theorem KeepsDevices.refl (lost : Set Str) (t : Database) : KeepsDevices lost t t := fun _ h => .inl h

theorem KeepsDevices.followed (h : KeepsDevices lost t u) (hsame : SameDevices u v) :
    KeepsDevices lost t v := by
  unfold KeepsDevices
  rw [hsame.names]
  exact h

end Names

/-! ## 2. The calls of the manager -/

/-- The update gives the row another name, which no device has. -/
def Renames (device : DeviceUpsert) (t : Database) : Prop :=
  cString device.name ≠ cString (targetName device) ∧ cString device.name ∉ t.deviceNames

/-- The name that an update takes away. -/
def renamed (device : DeviceUpsert) (t : Database) : Set Str :=
  {d | d = cString (targetName device) ∧ Renames device t}

section Manager
variable {device : DeviceUpsert} {deviceName : Str} {t u : Database}

theorem createEffect_keeps (h : createEffect device t = .ok u) : KeepsDevices ∅ t u := by
  unfold createEffect at h
  split at h
  · next v hv =>
    cases h
    obtain ⟨-, hrows, -⟩ := AutoTable.insert?_eq_some.mp hv
    rintro d ⟨x, hx, hname⟩
    exact .inl ⟨x, hrows ▸ List.mem_append_left _ hx, hname⟩
  · cases h

theorem removeEffect_keeps :
    KeepsDevices {cString deviceName} t (removeEffect deviceName (deleteEffect deviceName t)) := by
  rintro d ⟨x, hx, rfl⟩
  cases decEq x.2.name (bindText deviceName) with
  | isTrue hname => exact .inr (name_eq_bindText.mp hname)
  | isFalse hother =>
    exact .inl ⟨x, AutoTable.mem_deleteWhere.mpr ⟨hx, by simpa using hother⟩, rfl⟩

theorem removeEffect_removes :
    cString deviceName ∉ (removeEffect deviceName (deleteEffect deviceName t)).deviceNames := by
  rintro ⟨x, hx, hname⟩
  have hother := (AutoTable.mem_deleteWhere.mp hx).2
  simp [name_eq_bindText.mpr hname] at hother

theorem updateEffect_keeps (h : updateEffect device (targetName device) t = .ok u) :
    KeepsDevices (renamed device t) t u := by
  rintro d ⟨x, hx, rfl⟩
  obtain ⟨z, hz, -, hzname⟩ := SQLiteManager.updateEffect_rows h hx
  cases decEq x.2.name (bindText (targetName device)) with
  | isFalse hother =>
    rw [if_neg hother] at hzname
    exact .inl ⟨z, hz, congrArg SqlText.bytes hzname⟩
  | isTrue htarget =>
    rw [if_pos htarget] at hzname
    have hbytes := name_eq_bindText.mp htarget
    cases decEq (cString device.name) (cString (targetName device)) with
    | isTrue hsame =>
      exact .inl ⟨z, hz, (name_eq_bindText.mp hzname).trans (hsame.trans hbytes.symm)⟩
    | isFalse hrename =>
      refine .inr ⟨hbytes, hrename, fun htaken => ?_⟩
      -- a row with the new name makes the statement fail
      obtain ⟨y, hy, hyname⟩ := htaken
      have hyx : y ≠ x := by
        rintro rfl
        exact hrename (hyname.symm.trans hbytes)
      have htarget' := DeviceRepository.named_eq_some.mpr ⟨hx, htarget⟩
      obtain ⟨e, herror⟩ := (SQLiteManager.updateEffect_error htarget').mpr
        ⟨y, hy, name_eq_bindText.mpr hyname, hyx⟩
      rw [herror] at h
      cases h

theorem updateEffect_removes (hrename : cString device.name ≠ cString (targetName device))
    (h : updateEffect device (targetName device) t = .ok u) :
    cString (targetName device) ∉ u.deviceNames := by
  unfold updateEffect at h
  split at h
  · next v hv =>
    cases h
    obtain ⟨-, hrows, -⟩ := AutoTable.update?_eq_some.mp hv
    rintro ⟨z, hz, hname⟩
    obtain ⟨x, hx, rfl⟩ := List.mem_map.mp (hrows ▸ hz)
    unfold AutoTable.updateRow at hname
    split at hname
    · exact hrename hname
    · next hother => exact hother (by simpa using name_eq_bindText.mpr hname)
  · cases h

/-- The statements on the data points leave the devices. -/
theorem sameDevices_statement {effect : Database → Except Str Database}
    (h : ∀ t u, effect t = .ok u → u.device = t.device) :
    (prepare >>= fun _ => stepDone effect).Changes SameDevices :=
  (Sql.Writes.statement effect).changes .refl h

theorem sameDevices_deleteByDeviceName :
    (DataPointRepository.deleteByDeviceName deviceName).Changes SameDevices :=
  sameDevices_statement fun _ _ h => by
    cases h
    rfl

theorem sameDevices_renameDevice {oldName newName : Str} :
    (DataPointRepository.renameDevice oldName newName).Changes SameDevices :=
  sameDevices_statement fun _ _ h => SQLiteManager.renameEffect_device h

theorem SameDevices.of_initialised (h : OnConnection.Initialised deviceName t u) :
    SameDevices t u := by
  obtain rfl | ⟨-, -, v, -, -, rfl⟩ := h
  · rfl
  · rfl

theorem sameDevices_initDataPointsByDevice (models : ModelRepository) (deviceName mid : Str) :
    (OnConnection.initDataPointsByDevice models deviceName mid).Changes SameDevices := fun c =>
  .of_initialised (OnConnection.initDataPointsByDevice_changes models deviceName mid c)

end Manager

namespace SQLiteManager

variable {device : DeviceUpsert} {deviceName : Str} {c c' : Conn}

theorem createDevice_keeps : (createDevice device).Changes (KeepsDevices ∅) := by
  refine .bind (.refl ∅) reads_deviceExists (.any _) fun found _ => ?_
  cases found with
  | true => exact .throw_bind (.refl ∅) _
  | false => exact (Sql.Writes.statement _).changes (.refl ∅) fun t u => createEffect_keeps

theorem writes_deleteRows : (withTransaction do
    DataPointRepository.deleteByDeviceName deviceName
    DeviceRepository.remove deviceName).Writes fun t =>
      .ok (removeEffect deviceName (deleteEffect deviceName t)) :=
  .transaction (plain_removeDevice deviceName)
    (Sql.Does.bind (.prepare (.stepDone _)) (.prepare (.stepDone _)))

theorem deleteDevice_keeps : (deleteDevice deviceName).Changes (KeepsDevices {cString deviceName}) := by
  refine .bind (.refl _) reads_deviceExists (.any _) fun found _ => ?_
  cases found with
  | false => exact .throw_bind (.refl _) _
  | true =>
    refine writes_deleteRows.changes (.refl _) fun t u hu => ?_
    cases hu
    exact removeEffect_keeps

theorem deleteDevice_removes (h : deleteDevice deviceName c = (.ok (), c')) :
    cString deviceName ∉ c'.tables.deviceNames := by
  obtain ⟨found, c₁, -, h⟩ := Sql.bind_eq_ok.mp h
  cases found with
  | false => cases h
  | true =>
    have hwrites := @writes_deleteRows deviceName c₁
    rw [show withTransaction _ c₁ = _ from h] at hwrites
    obtain ⟨e, ⟨⟩, -⟩ | ⟨-, heffect⟩ := hwrites
    rw [← Except.ok.inj heffect]
    exact removeEffect_removes

/-- The points of another model are deleted. -/
def dropPoints (device : DeviceUpsert) (existing : Device) : Sql Unit :=
  if existing.model ≠ device.model ∨ existing.modelVersion ≠ device.modelVersion then
    DataPointRepository.deleteByDeviceName device.name
  else return ()

/-- What an update does to the data points. -/
def updatePoints (device : DeviceUpsert) (existing : Device) : Sql Unit :=
  if device.name ≠ targetName device then do
    DataPointRepository.renameDevice (targetName device) device.name
    dropPoints device existing
  else dropPoints device existing

/-- An update behind its checks. -/
def updateRows (device : DeviceUpsert) (existing : Device) : Sql Unit := do
  DeviceRepository.update device (targetName device)
  updatePoints device existing

theorem updateDevice_eq (device : DeviceUpsert) : updateDevice device = (do
    let existing ← getDeviceByName (targetName device)
    if device.name ≠ targetName device then
      let found ← deviceExists device.name
      if found then
        Sql.throw (lit "device already exists: " ++ device.name) >>= fun (_ : Unit) =>
          updateRows device existing
      else updateRows device existing
    else updateRows device existing) := rfl

theorem sameDevices_updatePoints (existing : Device) :
    (updatePoints device existing).Changes SameDevices := by
  have hdrop : (dropPoints device existing).Changes SameDevices := by
    unfold dropPoints
    split
    · exact sameDevices_deleteByDeviceName
    · exact .pure .refl ()
  unfold updatePoints
  split
  · exact .followed (fun _ _ _ h h' => h'.trans h) sameDevices_renameDevice fun _ => hdrop
  · exact hdrop

theorem updateRows_keeps (existing : Device) :
    (updateRows device existing).Changes fun t u => KeepsDevices (renamed device t) t u :=
  .followed (fun _ _ _ h hsame => h.followed hsame)
    ((Sql.Writes.statement _).changes (fun _ => .refl _ _) fun _ _ => updateEffect_keeps)
    fun _ => sameDevices_updatePoints existing

theorem updateDevice_keeps :
    (updateDevice device).Changes fun t u => KeepsDevices (renamed device t) t u := by
  rw [updateDevice_eq]
  refine .bind (fun _ => .refl _ _) reads_getDeviceByName (.any _) fun existing _ => ?_
  split
  · refine .bind (fun _ => .refl _ _) reads_deviceExists (.any _) fun found _ => ?_
    cases found with
    | true => exact .throw_bind (fun _ => .refl _ _) _
    | false => exact updateRows_keeps existing
  · exact updateRows_keeps existing

theorem updateDevice_removes (hrename : cString device.name ≠ cString (targetName device))
    (h : updateDevice device c = (.ok (), c')) : cString (targetName device) ∉ c'.tables.deviceNames := by
  have hrows : ∀ existing c₁, updateRows device existing c₁ = (.ok (), c') →
      cString (targetName device) ∉ c'.tables.deviceNames := by
    intro existing c₁ h
    obtain ⟨u, c₂, hupdate, hpoints⟩ := Sql.bind_eq_ok.mp h
    have hsame := @sameDevices_updatePoints device existing c₂
    rw [hpoints] at hsame
    rw [hsame.names]
    exact updateEffect_removes hrename (Sql.Does.prepare (.stepDone _) c₁ c₂ hupdate)
  rw [updateDevice_eq] at h
  obtain ⟨existing, c₁, -, h⟩ := Sql.bind_eq_ok.mp h
  split at h
  · obtain ⟨found, c₂, -, h⟩ := Sql.bind_eq_ok.mp h
    cases found with
    | true => cases h
    | false => exact hrows existing c₂ h
  · exact hrows existing c₁ h

end SQLiteManager

/-! ## 3. The commands -/

namespace OnConnection

open CommandProcessor (errorResult keepStatus)

variable {models : ModelRepository} {device : DeviceUpsert} {hasStatus : Bool}
  {deviceName mid : Str} {c c' : Conn} {r : CommandResult}

/-- The last part of a creation and of an update. -/
theorem sameDevices_initResult (done : CommandResult) : ((do
    let initResult ← initDataPointsByDevice models deviceName mid
    if !initResult.ok then return initResult
    return done) : Sql CommandResult).Changes SameDevices :=
  .bind_reads (sameDevices_initDataPointsByDevice models deviceName mid) fun result => by
    cases result.ok <;> exact .pure _

theorem createDevice_keeps : (createDevice models device mid).Changes (KeepsDevices ∅) := by
  unfold createDevice
  split
  · exact .pure (.refl ∅) _
  split
  · exact .pure (.refl ∅) _
  refine .bind (.refl ∅) SQLiteManager.reads_deviceExists (.any _) fun found _ => ?_
  cases found with
  | true => exact .pure (.refl ∅) _
  | false =>
    exact .followed (fun _ _ _ h hsame => h.followed hsame) SQLiteManager.createDevice_keeps fun _ =>
      sameDevices_initResult _

theorem deleteDevice_keeps :
    (deleteDevice deviceName mid).Changes (KeepsDevices {cString deviceName}) := by
  refine .bind (.refl _) SQLiteManager.reads_deviceExists (.any _) fun found _ => ?_
  cases found with
  | false => exact .pure (.refl _) _
  | true => exact .bind_reads SQLiteManager.deleteDevice_keeps fun _ => .pure _

/-- The status that an update keeps does not concern its names. -/
theorem renamed_keepStatus (before : Device) (t : Database) :
    renamed (keepStatus device hasStatus before) t = renamed device t := by
  unfold keepStatus
  split <;> rfl

theorem updateDevice_keeps : (updateDevice models device hasStatus mid).Changes
    fun t u => KeepsDevices (renamed device t) t u := by
  have hrefl (t : Database) : KeepsDevices (renamed device t) t t := .refl _ t
  unfold updateDevice
  split
  · exact .pure hrefl _
  split
  · exact .pure hrefl _
  refine .bind hrefl SQLiteManager.reads_deviceExists (.any _) fun found _ => ?_
  cases found with
  | false => exact .pure hrefl _
  | true =>
    refine .bind hrefl SQLiteManager.reads_getDeviceByName (.any _) fun before _ => ?_
    have hupdate := @SQLiteManager.updateDevice_keeps (keepStatus device hasStatus before)
    simp only [renamed_keepStatus] at hupdate
    refine .followed (fun _ _ _ h hsame => h.followed hsame) hupdate fun _ => ?_
    dsimp only
    split
    · exact sameDevices_initResult _
    · exact .pure .refl _

/-- A deletion that succeeds. -/
theorem deleteDevice_removes (h : deleteDevice deviceName mid c = (.ok r, c')) (hcode : r.code = 200) :
    cString deviceName ∉ c'.tables.deviceNames := by
  obtain ⟨found, c₁, -, h⟩ := Sql.bind_eq_ok.mp h
  cases found with
  | false =>
    cases h
    cases hcode
  | true =>
    obtain ⟨u, c₂, hdelete, h⟩ := Sql.bind_eq_ok.mp h
    cases h
    exact SQLiteManager.deleteDevice_removes hdelete

/-- An update that succeeds and renames the device. -/
theorem updateDevice_removes (hrename : cString device.name ≠ cString (targetName device))
    (h : updateDevice models device hasStatus mid c = (.ok r, c')) (hcode : r.code = 200) :
    cString (targetName device) ∉ c'.tables.deviceNames := by
  unfold updateDevice at h
  split at h
  · cases h
    cases hcode
  split at h
  · cases h
    cases hcode
  obtain ⟨found, c₁, -, h⟩ := Sql.bind_eq_ok.mp h
  cases found with
  | false =>
    cases h
    cases hcode
  | true =>
    obtain ⟨before, c₂, -, h⟩ := Sql.bind_eq_ok.mp h
    obtain ⟨u, c₃, hupdate, h⟩ := Sql.bind_eq_ok.mp h
    have hremoved : cString (targetName device) ∉ c₃.tables.deviceNames := by
      have hsame (b : Device) : (keepStatus device hasStatus b).name = device.name ∧
          targetName (keepStatus device hasStatus b) = targetName device := by
        unfold keepStatus
        split <;> exact ⟨rfl, rfl⟩
      rw [← (hsame before).2]
      refine SQLiteManager.updateDevice_removes ?_ hupdate
      rw [(hsame before).1, (hsame before).2]
      exact hrename
    dsimp only at h
    split at h
    · have hdevices := @sameDevices_initResult models (keepStatus device hasStatus before).name mid
        { msg := lit "device updated: " ++ (keepStatus device hasStatus before).name, mid } c₃
      rw [h] at hdevices
      rw [hdevices.names]
      exact hremoved
    · cases h
      exact hremoved

end OnConnection

end CollectorService
