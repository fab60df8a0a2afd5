import CollectorService.Integrity

/-!
# Data points and the device's model

The data points of a device are derived data: a creation and a change of the model compute them
anew, a rename rewrites them in place, and a start or a collection cycle computes them when there
are none.

* `InStep`: every device has no data points, or those that its model gives it now.
* `inStep_of_run`: every run keeps it in which no update renames a device with stored points and
  leaves its model as it is; such an update leaves the old name in `ItemPath`.
-/

namespace CollectorService

open DeviceRepository (named readDevice)
open DataPointRepository (deleteEffect renameEffect boundRow)
open CommandProcessor (DeviceCategory handleDevice)
open SQLiteManager (targetName)

/-! ## 1. The points of a row -/

/-- The rows of `DataPoint` under a name, in the order of their ids. -/
def pointsOf (t : Database) (name : SqlText) : List DataPointRow :=
  (t.dataPoint.select fun r => r.dName = some name).map (·.2)

/-- The rows are those that storing the points of the device's model produces. -/
def Derived (models : ModelRepository) (x : ℕ × DeviceRow) (rows : List DataPointRow) : Prop :=
  ∃ points, modelPoints models (readDevice x) = .ok points ∧
    rows = points.map (boundRow (readDevice x))

/-- Every device has no points or those of its model. -/
def InStep (models : ModelRepository) (t : Database) : Prop :=
  ∀ x ∈ t.device.rows, pointsOf t x.2.name = [] ∨ Derived models x (pointsOf t x.2.name)

/-- The points of a model depend on these four fields of the device only. -/
theorem modelPoints_congr (models : ModelRepository) {device device' : Device}
    (hid : device.id = device'.id) (hname : device.name = device'.name)
    (hmodel : device.model = device'.model)
    (hversion : device.modelVersion = device'.modelVersion) :
    modelPoints models device = modelPoints models device' := by
  cases device
  cases device'
  cases hid
  cases hname
  cases hmodel
  cases hversion
  rfl

theorem Derived.congr {models : ModelRepository} {x y : ℕ × DeviceRow} {rows : List DataPointRow}
    (h : Derived models x rows) (hid : x.1 = y.1) (hname : x.2.name = y.2.name)
    (hmodel : (readDevice x).model = (readDevice y).model)
    (hversion : (readDevice x).modelVersion = (readDevice y).modelVersion) :
    Derived models y rows := by
  obtain ⟨points, hpoints, hrows⟩ := h
  have hid' : (readDevice x).id = (readDevice y).id := by simp only [readDevice, hid]
  have hname' : (readDevice x).name = (readDevice y).name := by simp only [readDevice, hname]
  refine ⟨points, (modelPoints_congr models hid' hname' hmodel hversion).symm.trans hpoints, ?_⟩
  rw [hrows]
  refine List.map_congr_left fun point _ => ?_
  simp only [boundRow, hid', hname']

section Points
variable {t u : Database} {name : SqlText}

theorem mem_pointsOf {r : DataPointRow} :
    r ∈ pointsOf t name ↔ ∃ y ∈ t.dataPoint.rows, y.2 = r ∧ r.dName = some name := by
  simp only [pointsOf, List.mem_map, AutoTable.mem_select, decide_eq_true_eq]
  constructor
  · rintro ⟨y, ⟨hy, hname⟩, rfl⟩
    exact ⟨y, hy, rfl, hname⟩
  · rintro ⟨y, hy, rfl, hname⟩
    exact ⟨y, ⟨hy, hname⟩, rfl⟩

theorem pointsOf_congr (h : u.dataPoint = t.dataPoint) : pointsOf u name = pointsOf t name := by
  rw [pointsOf, h, pointsOf]

theorem pointsOf_deleteEffect_of_ne (deviceName : Str) (h : name ≠ bindText deviceName) :
    pointsOf (deleteEffect deviceName t) name = pointsOf t name := by
  refine congrArg _ (AutoTable.select_deleteWhere_of_disjoint _ fun x hx => ?_)
  rw [decide_eq_true_eq] at hx
  rw [hx, decide_eq_false_iff_not]
  exact fun heq => h (Option.some.inj heq).symm

theorem pointsOf_deleteEffect (deviceName : Str) :
    pointsOf (deleteEffect deviceName t) (bindText deviceName) = [] := by
  refine List.eq_nil_iff_forall_not_mem.mpr fun r hr => ?_
  obtain ⟨y, hy, rfl, hname⟩ := mem_pointsOf.mp hr
  exact absurd hname (by simpa using (AutoTable.mem_deleteWhere.mp hy).2)

theorem pointsOf_renameEffect_of_ne {oldName newName : Str} (hold : name ≠ bindText oldName)
    (hnew : name ≠ bindText newName) (h : renameEffect oldName newName t = .ok u) :
    pointsOf u name = pointsOf t name := by
  unfold renameEffect at h
  split at h
  · next v hv =>
    cases h
    refine congrArg _ (AutoTable.select_update?_of_disjoint hv (fun r hr => ?_) fun r _ => ?_)
    · rw [decide_eq_true_eq] at hr
      rw [hr, decide_eq_false_iff_not]
      exact fun heq => hold (Option.some.inj heq).symm
    · rw [decide_eq_false_iff_not]
      exact fun heq => hnew (Option.some.inj heq).symm
  · cases h

/-- A rename brings no points to the new name if neither name has any. -/
theorem pointsOf_renameEffect_nil {oldName newName : Str} (hold : pointsOf t (bindText oldName) = [])
    (hnew : pointsOf t (bindText newName) = []) (h : renameEffect oldName newName t = .ok u) :
    pointsOf u (bindText newName) = [] := by
  refine List.eq_nil_iff_forall_not_mem.mpr fun r hr => ?_
  obtain ⟨y, hy, rfl, hname⟩ := mem_pointsOf.mp hr
  obtain ⟨s, hs, -, hsname⟩ := SQLiteManager.renameEffect_rows h hy
  rw [hname] at hsname
  split at hsname
  · next hsold =>
    have hmem : s.2 ∈ pointsOf t (bindText oldName) := mem_pointsOf.mpr ⟨s, hs, rfl, hsold⟩
    rw [hold] at hmem
    cases hmem
  · have hmem : s.2 ∈ pointsOf t (bindText newName) :=
      mem_pointsOf.mpr ⟨s, hs, rfl, hsname.symm⟩
    rw [hnew] at hmem
    cases hmem

/-- A name that no device has has no points. -/
theorem Integrity.pointsOf_eq_nil (h : Integrity t) {deviceName : Str}
    (hnew : named deviceName t = none) : pointsOf t (bindText deviceName) = [] := by
  refine List.eq_nil_iff_forall_not_mem.mpr fun r hr => ?_
  obtain ⟨y, hy, rfl, hname⟩ := mem_pointsOf.mp hr
  exact h.dName_ne hnew hy hname

end Points

/-- After an update the other rows are the ones from before. -/
theorem mem_updateEffect {t u : Database} {device : DeviceUpsert} {target : Str}
    {x z : ℕ × DeviceRow} (hx : named target t = some x)
    (h : DeviceRepository.updateEffect device target t = .ok u) (hz : z ∈ u.device.rows) :
    z = (x.1, DeviceRepository.boundRow device) ∨
      (z ∈ t.device.rows ∧ z.2.name ≠ bindText target) := by
  unfold DeviceRepository.updateEffect at h
  split at h
  · next v hv =>
    cases h
    obtain ⟨-, hrows, -⟩ := AutoTable.update?_eq_some.mp hv
    obtain ⟨y, hy, rfl⟩ := List.mem_map.mp (hrows ▸ hz)
    simp only [AutoTable.updateRow, decide_eq_true_eq]
    split
    · next hname =>
      have hyx := (DeviceRepository.named_eq_some.mpr ⟨hy, hname⟩).symm.trans hx
      rw [Option.some.inj hyx]
      exact .inl rfl
    · next hname => exact .inr ⟨hy, hname⟩
  · cases h

/-! ## 2. Manager calls -/

section Calls
variable {models : ModelRepository} {t u : Database} {device : DeviceUpsert}

/-- The update renames a device with stored points, and leaves its model as it is. -/
structure StaleRename (device : DeviceUpsert) (t : Database) (x : ℕ × DeviceRow) : Prop where
  found : named (targetName device) t = some x
  renames : device.name ≠ targetName device
  free : named device.name t = none
  model : (readDevice x).model = device.model
  modelVersion : (readDevice x).modelVersion = device.modelVersion
  stored : pointsOf t x.2.name ≠ []

theorem InStep.of_tables (h : InStep models t) (hdevice : u.device = t.device)
    (hpoint : u.dataPoint = t.dataPoint) : InStep models u := by
  intro x hx
  rw [pointsOf_congr hpoint]
  exact h x (hdevice ▸ hx)

@[simp] theorem readDevice_name (x : ℕ × DeviceRow) : bindText (readDevice x).name = x.2.name := by
  simp [readDevice, columnText]

theorem InStep.createDevice (h : InStep models t) (hintegrity : Integrity t) :
    InStep models ((SQLiteManager.createDevice device).exec t).2 := by
  rcases SQLiteManager.exec_createDevice_tables device t with hsame | ⟨v, hname, hrows, hrun⟩
  · rwa [hsame]
  · rw [hrun]
    intro x hx
    rw [show ({ t with device := v } : Database).device.rows = v.rows from rfl, hrows] at hx
    rcases List.mem_append.mp hx with hx | hx
    · exact h x hx
    · cases List.mem_singleton.mp hx
      exact .inl (hintegrity.pointsOf_eq_nil hname)

theorem InStep.deleteDevice (h : InStep models t) (deviceName : Str) :
    InStep models ((SQLiteManager.deleteDevice deviceName).exec t).2 := by
  rw [SQLiteManager.exec_deleteDevice]
  cases named deviceName t with
  | none => exact h
  | some y =>
    intro x hx
    obtain ⟨hmem, hname⟩ := AutoTable.mem_deleteWhere.mp hx
    have hne : x.2.name ≠ bindText deviceName := by simpa using hname
    have hsame : pointsOf (DeviceRepository.removeEffect deviceName (deleteEffect deviceName t))
        x.2.name = pointsOf t x.2.name := pointsOf_deleteEffect_of_ne _ hne
    rw [hsame]
    exact h x hmem

/-- Device names are distinct. -/
theorem device_eq_of_name_eq {x y : ℕ × DeviceRow} (hx : x ∈ t.device.rows) (hy : y ∈ t.device.rows)
    (h : x.2.name = y.2.name) : x = y := by
  by_contra hne
  exact AutoTable.compat_of_ne hx hy hne h

/-- The initialisation stores the points of the model. -/
theorem InStep.replace (h : InStep models t) {deviceName : Str} {x : ℕ × DeviceRow}
    (hx : named deviceName t = some x) {points : List DataPoint}
    (hpoints : modelPoints models (readDevice x) = .ok points) {v : DataPointTable}
    (hins : (deleteEffect (readDevice x).name t).dataPoint.insertAll?
      (points.map (boundRow (readDevice x))) = some v) :
    InStep models { t with dataPoint := v } := by
  have hmem := (DeviceRepository.named_eq_some.mp hx).1
  have hrow (r : DataPointRow) (hr : r ∈ points.map (boundRow (readDevice x))) :
      r.dName = some x.2.name := by
    obtain ⟨point, -, rfl⟩ := List.mem_map.mp hr
    simp [boundRow]
  intro y hy
  cases heq : decide (y.2.name = x.2.name) with
  | true =>
    cases device_eq_of_name_eq hy hmem (of_decide_eq_true heq)
    have hrows := DataPointRepository.select_insertAll?_boundRow hins
    rw [readDevice_name] at hrows
    exact .inr ⟨points, hpoints, hrows⟩
  | false =>
    have hne : y.2.name ≠ x.2.name := of_decide_eq_false heq
    have hsame : pointsOf { t with dataPoint := v } y.2.name = pointsOf t y.2.name := by
      rw [← @pointsOf_deleteEffect_of_ne t _ (readDevice x).name
        (by rwa [readDevice_name])]
      refine congrArg _ (AutoTable.select_insertAll?_of_disjoint hins fun r hr => ?_)
      rw [hrow r hr, decide_eq_false_iff_not]
      exact fun h => hne (Option.some.inj h).symm
    rw [hsame]
    exact h y hy

/-- A text that equals one read from a column is stored as it is. -/
theorem columnText_bindText {value : Str} {text : Option SqlText} (h : columnText text = value) :
    columnText (some (bindText value)) = value := by
  subst h
  cases text with
  | none => rfl
  | some text => simp [columnText]

@[simp] theorem dropStalePoints_device (existing : Device) :
    (SQLiteManager.dropStalePoints device existing t).device = t.device := by
  unfold SQLiteManager.dropStalePoints
  split <;> rfl

/-- Other names keep their points when stale ones are dropped. -/
theorem pointsOf_dropStalePoints_of_ne {name : SqlText} (existing : Device)
    (h : name ≠ bindText device.name) :
    pointsOf (SQLiteManager.dropStalePoints device existing t) name = pointsOf t name := by
  unfold SQLiteManager.dropStalePoints
  split
  · exact pointsOf_deleteEffect_of_ne _ h
  · rfl

/-- An update that keeps the name: the same name and the same model derive the same points. -/
theorem InStep.kept (h : InStep models t) {x : ℕ × DeviceRow}
    (hx : named (targetName device) t = some x) (hname : device.name = targetName device)
    (hupdate : DeviceRepository.updateEffect device (targetName device) t = .ok u) :
    InStep models (SQLiteManager.dropStalePoints device (readDevice x) u) := by
  obtain ⟨hmem, hxname⟩ := DeviceRepository.named_eq_some.mp hx
  have hpoint := SQLiteManager.updateEffect_dataPoint hupdate
  intro z hz
  rw [dropStalePoints_device] at hz
  rcases mem_updateEffect hx hupdate hz with rfl | ⟨hz', hzname⟩
  · show pointsOf _ (bindText device.name) = [] ∨
      Derived models _ (pointsOf _ (bindText device.name))
    unfold SQLiteManager.dropStalePoints
    split
    · exact .inl (pointsOf_deleteEffect _)
    · next hsame =>
      push Not at hsame
      rw [pointsOf_congr hpoint, hname, ← hxname]
      refine (h x hmem).imp id fun hderived => hderived.congr rfl ?_ ?_ ?_
      · rw [hxname, ← hname]
        rfl
      · exact hsame.1.trans (columnText_bindText hsame.1).symm
      · exact hsame.2.trans (columnText_bindText hsame.2).symm
  · rw [pointsOf_dropStalePoints_of_ne _ (hname ▸ hzname), pointsOf_congr hpoint]
    exact h z hz'

/-- A rename: stale points are dropped with the old model, or there are none. -/
theorem InStep.renamed (h : InStep models t) (hintegrity : Integrity t) {x : ℕ × DeviceRow}
    {t₂ : Database} (hx : named (targetName device) t = some x)
    (hname : device.name ≠ targetName device) (hnew : named device.name t = none)
    (hupdate : DeviceRepository.updateEffect device (targetName device) t = .ok u)
    (hok : renameEffect (targetName device) device.name u = .ok t₂)
    (hrename : ¬ StaleRename device t x) :
    InStep models (SQLiteManager.dropStalePoints device (readDevice x) t₂) := by
  obtain ⟨hmem, hxname⟩ := DeviceRepository.named_eq_some.mp hx
  have hpoint := SQLiteManager.updateEffect_dataPoint hupdate
  intro z hz
  rw [dropStalePoints_device, SQLiteManager.renameEffect_device hok] at hz
  rcases mem_updateEffect hx hupdate hz with rfl | ⟨hz', hzname⟩
  · refine .inl ?_
    show pointsOf _ (bindText device.name) = []
    unfold SQLiteManager.dropStalePoints
    split
    · exact pointsOf_deleteEffect _
    · next hsame =>
      push Not at hsame
      refine pointsOf_renameEffect_nil ?_ ?_ hok
      · by_contra hstored
        rw [pointsOf_congr hpoint, ← hxname] at hstored
        exact hrename ⟨hx, hname, hnew, hsame.1, hsame.2, hstored⟩
      · rw [pointsOf_congr hpoint]
        exact hintegrity.pointsOf_eq_nil hnew
  · have hznew : z.2.name ≠ bindText device.name := DeviceRepository.named_eq_none.mp hnew z hz'
    rw [pointsOf_dropStalePoints_of_ne _ hznew, pointsOf_renameEffect_of_ne hzname hznew hok,
      pointsOf_congr hpoint]
    exact h z hz'

theorem InStep.updateDevice (h : InStep models t) (hintegrity : Integrity t)
    (hrename : ∀ x, ¬ StaleRename device t x) :
    InStep models ((SQLiteManager.updateDevice device).exec t).2 := by
  have hout := SQLiteManager.updateOutcome_exec device t
  generalize (SQLiteManager.updateDevice device).exec t = out at hout ⊢
  obtain ⟨r, u⟩ := out
  cases hout with
  | refused => exact h
  | kept hx hname hupdate => exact h.kept hx hname hupdate
  | @renamed x _ _ hx hname hnew hupdate hok =>
    exact h.renamed hintegrity hx hname hnew hupdate hok (hrename x)
  | renameFailed hname hnew hupdate hfailed =>
    obtain ⟨t₂, hok⟩ := hintegrity.renameEffect_ok (targetName device) hnew
      (SQLiteManager.updateEffect_dataPoint hupdate)
    rw [hfailed] at hok
    cases hok

end Calls

/-! ## 3. Commands and tasks -/

section Commands
variable {models : ModelRepository} {t : Database}

/-- Every data point belongs to a device, and every device's points belong to its model. -/
def Derivation (models : ModelRepository) (t : Database) : Prop := Integrity t ∧ InStep models t

theorem Derivation.keeps_init (deviceName mid : Str) :
    (DataTask.initDataPointsByDevice models deviceName mid).Keeps (Derivation models) :=
  keeps_initDataPointsByDevice
    (fun h hx hpoints hins => ⟨h.1.replace hx hins, h.2.replace hx hpoints hins⟩) deviceName mid

theorem staleRename_keepStatus {device : DeviceUpsert} {hasStatus : Bool} {before : Device}
    {x : ℕ × DeviceRow} (h : StaleRename (CommandProcessor.keepStatus device hasStatus before) t x) :
    StaleRename device t x where
  found := by simpa using h.found
  renames := by simpa using h.renames
  free := by simpa using h.free
  model := by simpa using h.model
  modelVersion := by simpa using h.modelVersion
  stored := h.stored

theorem Derivation.updateDevice (h : Derivation models t) {device : DeviceUpsert}
    (hasStatus : Bool) (mid : Str)
    (hrename : device.name ≠ [] → device.model ≠ [] → ∀ x, ¬ StaleRename device t x) :
    Derivation models ((CommandProcessor.updateDevice models device hasStatus mid).run t).2 :=
  updateDevice_of_call Derivation.keeps_init hasStatus mid h fun hname hmodel _ =>
    ⟨h.1.updateDevice, h.2.updateDevice h.1 fun y hy =>
      hrename hname hmodel y (staleRename_keepStatus hy)⟩

end Commands

/-! ## 4. Whole runs -/

/-- The model files that an event finds. -/
def Event.models : Event → ModelRepository
  | request models _ _ => models
  | startDeviceCollect models _ _ => models
  | startAll models => models
  | collectionCycle models _ _ => models

/-- The event is an update that passes its checks, renames a device with stored points and leaves
its model as it is. -/
def Event.RenamesStale (t : Database) : Event → Prop
  | request _ .updateDevice requestText => ∃ device x,
      CommandParser.parseDeviceUpsert requestText = .ok device ∧ device.name ≠ [] ∧
        device.model ≠ [] ∧ StaleRename device t x
  | _ => False

theorem Event.apply_derivation {t : Database} {event : Event}
    (h : Derivation event.models t) (hrename : ¬ event.RenamesStale t) :
    Derivation event.models (event.apply t) := by
  have htables {t u : Database} (h : Derivation event.models t) (hdevice : u.device = t.device)
      (hpoint : u.dataPoint = t.dataPoint) : Derivation event.models u :=
    ⟨h.1.of_tables hdevice hpoint, h.2.of_tables hdevice hpoint⟩
  cases event with
  | request models category requestText =>
    cases category with
    | createDevice =>
      refine Command.keeps_tryCatch (Command.keeps_bind (Command.keeps_lift _) fun device =>
        keeps_createDevice Derivation.keeps_init device _ fun t h => ?_) t h
      exact ⟨h.1.createDevice, h.2.createDevice h.1⟩
    | deleteDevice =>
      refine Command.keeps_tryCatch (keeps_deleteDevice _ _ fun t h => ?_) t h
      exact ⟨h.1.deleteDevice _, h.2.deleteDevice _⟩
    | updateDevice =>
      simp only [apply, handleDevice, CommandProcessor.handleUpdateDevice, Command.run_tryCatch,
        Command.run_bind, Command.run_lift]
      cases hparse : CommandParser.parseDeviceUpsert requestText with
      | error e => exact h
      | ok device =>
        have hkept : Derivation models ((CommandProcessor.updateDevice models device
            (CommandProcessor.namesStatus requestText)
            (extractStringField requestText (lit "mid"))).run t).2 :=
          h.updateDevice _ _ fun hname hmodel x hx => hrename ⟨device, x, hparse, hname, hmodel, hx⟩
        simp only
        rcases hrun : (CommandProcessor.updateDevice models device
          (CommandProcessor.namesStatus requestText)
          (extractStringField requestText (lit "mid"))).run t with ⟨e | a, t₁⟩ <;>
        · rw [hrun] at hkept
          exact hkept
  | startDeviceCollect models deviceName mid =>
    exact keeps_startChecks Derivation.keeps_init deviceName mid t h
  | startAll models => exact keeps_startAllChecks Derivation.keeps_init t h
  | collectionCycle models env deviceName =>
    exact keeps_collectionCycle Derivation.keeps_init htables env deviceName t h

/-- A run with fixed model files, in which no update renames a device with stored points and leaves
its model as it is, ends with every device's points in step with its model. -/
theorem inStep_of_run (models : ModelRepository) (events : List Event)
    (hmodels : ∀ event ∈ events, event.models = models)
    (hrename : ∀ before event rest, events = before ++ event :: rest →
      ¬ event.RenamesStale (runEvents .empty before)) :
    InStep models (runEvents .empty events) := by
  have hrun : Derivation models (runEvents .empty events) := by
    induction events using List.reverseRecOn with
    | nil => exact ⟨integrity_empty, fun x hx => by cases hx⟩
    | append_singleton before event ih =>
      have hprefix := ih (fun e he => hmodels e (List.mem_append_left _ he))
        fun before' e rest h => hrename before' e (rest ++ [event]) (by simp [h])
      have hevent : event.models = models := hmodels event (by simp)
      rw [runEvents, List.foldl_append]
      subst hevent
      exact Event.apply_derivation hprefix (hrename before event [] rfl)
  exact hrun.2

def updateText : Str :=
  lit "\x7b\"category\":\"update_device\",\"params\":\x7b\"device_name\":\"A\",\"model\":\"M\"\x7d\x7d"

def renameText : Str :=
  lit ("\x7b\"category\":\"update_device\",\"params\":\x7b\"old_device_name\":\"A\"," ++
    "\"device_name\":\"B\",\"model\":\"M\"\x7d\x7d")

def updateA : Event := .request oneModel .updateDevice updateText

def renameAB : Event := .request oneModel .updateDevice renameText

theorem inStep_of_run_updateA : InStep oneModel (runEvents .empty [createA, updateA, deleteA]) := by
  refine inStep_of_run oneModel [createA, updateA, deleteA]
    (by simp [createA, updateA, deleteA, Event.models]) ?_
  intro before event rest hevents hstale
  rcases before with _ | ⟨_, _ | ⟨_, _ | ⟨_, _ | ⟨_, before⟩⟩⟩⟩
  · cases hevents
    exact hstale
  · cases hevents
    obtain ⟨device, x, hparse, -, -, hx⟩ := hstale
    have hparsed : CommandParser.parseDeviceUpsert updateText = .ok deviceA := by decide +kernel
    cases Except.ok.inj (hparsed.symm.trans hparse)
    exact hx.renames rfl
  · cases hevents
    exact hstale
  · simp at hevents
  · simp at hevents

/-- Renamed, the device has the data point of its old name. -/
theorem renameAB_not_inStep : ¬ ∀ events : List Event,
    (∀ event ∈ events, event.models = oneModel) → InStep oneModel (runEvents .empty events) := by
  intro h
  have hstep := h [createA, renameAB] (by simp [createA, renameAB, Event.models])
  have hmem : (1, DeviceRepository.boundRow { deviceA with name := lit "B" }) ∈
      (runEvents .empty [createA, renameAB]).device.rows := by decide +kernel
  rcases hstep _ hmem with hnone | ⟨points, hpoints, hrows⟩
  · exact absurd hnone (by decide +kernel)
  · have hmodel : modelPoints oneModel
        (readDevice (1, DeviceRepository.boundRow { deviceA with name := lit "B" })) =
          .ok [{ deviceId := 1, deviceName := lit "B", namePath := lit "//X",
                 itemPath := lit "/DV:B/CP:/DT:X", itemName := lit "X" }] := by decide +kernel
    rw [← Except.ok.inj (hmodel.symm.trans hpoints)] at hrows
    exact absurd hrows (by decide +kernel)

end CollectorService
