import CollectorService.DerivedPoints
import CollectorService.DeviceTask

/-!
# What a driver is asked for

A rename leaves `ItemPath` as it was computed, so the stored points of a device may name it by a former
name. In every other column they are those that its model gives now, and a query lists nothing but their
name paths.

* `modelPoints_called`: a model gives a device the same items under every name.
* `itemsOfModel_of_run`: in every run the points of a device are none, or those of its model, computed
  under some name.
* `asked_of_run`: so a driver is asked for the items of the model that the device has now, and the
  records of a cycle are read from its answer.

Each event of a run is over before the next one begins.
-/

namespace CollectorService

open DeviceRepository (name_of_named named readDevice)
open DataPointRepository (deleteEffect renameEffect boundRow readPoint)
open CommandProcessor (handleDevice)
open SQLiteManager (targetName)

/-! ## 1. A model under two names -/

/-- A point without what names its device. -/
def DataPoint.unnamed (point : DataPoint) : DataPoint := { point with deviceName := [], itemPath := [] }

namespace ModelParser

/-- Two states of the parser that differ in the name of the device only. -/
structure ParseState.Alike (s s' : ParseState) : Prop where
  points : s'.points.map DataPoint.unnamed = s.points.map DataPoint.unnamed
  currentComponent : s'.currentComponent = s.currentComponent
  currentPoint : s'.currentPoint.unnamed = s.currentPoint.unnamed
  inDataItem : s'.inDataItem = s.inDataItem
  hasCurrentPoint : s'.hasCurrentPoint = s.hasCurrentPoint

section Names
variable {s s' : ParseState} {device device' : Device}

theorem ParseState.Alike.flushPoint (h : s.Alike s') (hid : device'.id = device.id) :
    (flushPoint device s).Alike (flushPoint device' s') := by
  have hpoint := h.currentPoint
  simp only [DataPoint.unnamed, DataPoint.mk.injEq, true_and] at hpoint
  obtain ⟨hpointId, -, hnamePath, hitemName, hdescription⟩ := hpoint
  have hflushes : (!s'.hasCurrentPoint || decide (s'.currentPoint.itemName = [])) =
      (!s.hasCurrentPoint || decide (s.currentPoint.itemName = [])) := by
    simp only [h.hasCurrentPoint, hitemName]
  unfold ModelParser.flushPoint
  rw [hflushes]
  cases (!s.hasCurrentPoint || decide (s.currentPoint.itemName = [])) with
  | true => exact h
  | false =>
    refine ⟨?_, h.currentComponent, rfl, h.inDataItem, rfl⟩
    show (_ ++ [_]).map _ = (_ ++ [_]).map _
    rw [List.map_append, List.map_append, h.points, List.map_singleton, List.map_singleton]
    refine congrArg (_ ++ [·]) ?_
    simp only [hnamePath, hitemName, h.currentComponent]
    cases decEq s.currentPoint.namePath [] <;> cases decEq s.currentPoint.itemPath [] <;>
      cases decEq s'.currentPoint.itemPath [] <;>
      simp [*, DataPoint.unnamed]

theorem ParseState.Alike.parseLine (h : s.Alike s') (hid : device'.id = device.id) (line : Str) :
    (parseLine device s line).Alike (parseLine device' s' line) := by
  have hflush := h.flushPoint hid
  obtain ⟨points, component, point, inDataItem, hasCurrentPoint⟩ := s
  obtain ⟨points', component', point', inDataItem', hasCurrentPoint'⟩ := s'
  obtain ⟨hpoints, hcomponent, hpoint, hinDataItem, hhasCurrentPoint⟩ := h
  dsimp only at hpoints hcomponent hpoint hinDataItem hhasCurrentPoint
  subst hcomponent hinDataItem hhasCurrentPoint
  unfold ModelParser.parseLine
  dsimp only
  split
  · exact ⟨hpoints, rfl, hpoint, rfl, rfl⟩
  split
  · exact ⟨hpoints, rfl, hpoint, rfl, rfl⟩
  split
  · split
    · exact ⟨hflush.points, hflush.currentComponent, rfl, hflush.inDataItem, rfl⟩
    · exact ⟨hflush.points, rfl, hflush.currentPoint, rfl, hflush.hasCurrentPoint⟩
  split
  · exact ⟨hpoints, rfl, hpoint, rfl, rfl⟩
  split
  · refine ⟨hpoints, rfl, ?_, rfl, rfl⟩
    exact congrArg (fun p : DataPoint => { p with itemDescription := valueAfterColon (trim line) })
      hpoint
  split
  · refine ⟨hpoints, rfl, ?_, rfl, rfl⟩
    exact congrArg (fun p : DataPoint => { p with namePath := valueAfterColon (trim line) }) hpoint
  · exact ⟨hpoints, rfl, hpoint, rfl, rfl⟩

theorem parseDataItems_alike (hid : device'.id = device.id) (modelText : Str) :
    (parseDataItems device' modelText).map DataPoint.unnamed =
      (parseDataItems device modelText).map DataPoint.unnamed := by
  have hfold : ∀ (lines : List Str) {s s' : ParseState}, s.Alike s' →
      (lines.foldl (parseLine device) s).Alike (lines.foldl (parseLine device') s') := by
    intro lines
    induction lines with
    | nil => exact id
    | cons line rest ih => exact fun h => ih (h.parseLine hid line)
  have hstart : ParseState.Alike {} {} := ⟨rfl, rfl, rfl, rfl, rfl⟩
  exact ((hfold (lines modelText) hstart).flushPoint hid).points

end Names

end ModelParser

/-- A device under another name. -/
def Device.called (device : Device) (name : Str) : Device := { device with name }

theorem Device.called_self (device : Device) : device.called device.name = device := rfl

/-- A model gives a device the same points under every name, but for what names the device. -/
theorem modelPoints_called (models : ModelRepository) (device : Device) {name : Str}
    {points : List DataPoint} (h : modelPoints models (device.called name) = .ok points) :
    ∃ points', modelPoints models device = .ok points' ∧
      points'.map DataPoint.unnamed = points.map DataPoint.unnamed := by
  have hload : models.loadModelText (device.called name).model (device.called name).modelVersion =
      models.loadModelText device.model device.modelVersion := rfl
  unfold modelPoints at h ⊢
  rw [hload] at h
  cases htext : models.loadModelText device.model device.modelVersion with
  | error e =>
    rw [htext] at h
    cases h
  | ok modelText =>
    rw [htext] at h
    have hparsed : ModelParser.parseModelToDataPoints (device.called name) modelText = .ok points := h
    have halike := @ModelParser.parseDataItems_alike (device.called name) device rfl modelText
    simp only [ModelParser.parseModelToDataPoints] at hparsed
    split at hparsed
    · cases hparsed
    next hne =>
      cases hparsed
      refine ⟨ModelParser.parseDataItems device modelText, ?_, halike⟩
      have hne' : ModelParser.parseDataItems device modelText ≠ [] := by
        intro hnil
        rw [hnil] at halike
        exact hne (List.map_eq_nil_iff.mp halike.symm)
      show ModelParser.parseModelToDataPoints device modelText = _
      simp only [ModelParser.parseModelToDataPoints, if_neg hne']

theorem modelPoints_called_congr (models : ModelRepository) {device device' : Device} (name : Str)
    (hid : device.id = device'.id) (hmodel : device.model = device'.model)
    (hversion : device.modelVersion = device'.modelVersion) :
    modelPoints models (device.called name) = modelPoints models (device'.called name) :=
  modelPoints_congr models hid rfl hmodel hversion

/-! ## 2. Points computed under some name -/

/-- The rows are the points of the device's model, as the model gives them under some name. -/
def DerivedUnder (models : ModelRepository) (x : ℕ × DeviceRow) (rows : List DataPointRow) : Prop :=
  ∃ former points, modelPoints models ((readDevice x).called former) = .ok points ∧
    rows = points.map (boundRow (readDevice x))

/-- Every device has no points or those of its model, under some name. -/
def HaveItems (models : ModelRepository) (t : Database) : Prop :=
  ∀ x ∈ t.device.rows, pointsOf t x.2.name = [] ∨ DerivedUnder models x (pointsOf t x.2.name)

/-- A row without what names the device. -/
def DataPointRow.unnamed (r : DataPointRow) : DataPointRow := { r with dName := none, itemPath := none }

theorem unnamed_boundRow (device : Device) (point : DataPoint) :
    (boundRow device point).unnamed = (boundRow device point.unnamed).unnamed := rfl

/-- The rows of a device have the items of its model. -/
theorem DerivedUnder.items {models : ModelRepository} {x : ℕ × DeviceRow} {rows : List DataPointRow}
    (h : DerivedUnder models x rows) : ∃ points, modelPoints models (readDevice x) = .ok points ∧
      rows.map DataPointRow.unnamed =
        points.map fun point => (boundRow (readDevice x) point).unnamed := by
  obtain ⟨former, points, hpoints, rfl⟩ := h
  obtain ⟨points', hpoints', hitems⟩ := modelPoints_called models (readDevice x) hpoints
  refine ⟨points', hpoints', ?_⟩
  have hmap := congrArg (List.map fun point => (boundRow (readDevice x) point).unnamed) hitems
  simpa only [List.map_map, Function.comp_def, ← unnamed_boundRow] using hmap.symm

/-- A device that keeps its id and its model keeps its points, whatever it is called. -/
theorem DerivedUnder.called {models : ModelRepository} {x y : ℕ × DeviceRow} {rows : List DataPointRow}
    (h : DerivedUnder models x rows) (hid : y.1 = x.1)
    (hmodel : (readDevice y).model = (readDevice x).model)
    (hversion : (readDevice y).modelVersion = (readDevice x).modelVersion) :
    DerivedUnder models y (rows.map fun r => { r with dName := some y.2.name }) := by
  obtain ⟨former, points, hpoints, rfl⟩ := h
  have hid' : (readDevice y).id = (readDevice x).id := by simp only [readDevice, hid]
  refine ⟨former, points, ?_, ?_⟩
  · rw [← hpoints]
    exact modelPoints_called_congr models former hid' hmodel hversion
  · rw [List.map_map]
    refine List.map_congr_left fun point _ => ?_
    simp [boundRow, hid']

section Calls
variable {models : ModelRepository} {t u : Database} {device : DeviceUpsert}

theorem HaveItems.of_tables (h : HaveItems models t) (hdevice : u.device = t.device)
    (hpoint : u.dataPoint = t.dataPoint) : HaveItems models u := by
  intro x hx
  rw [pointsOf_congr hpoint]
  exact h x (hdevice ▸ hx)

theorem HaveItems.createDevice (h : HaveItems models t) (hintegrity : Integrity t) :
    HaveItems models ((SQLiteManager.createDevice device).exec t).2 := by
  rcases SQLiteManager.exec_createDevice_tables device t with hsame | ⟨v, hname, hrows, hrun⟩
  · rwa [hsame]
  · rw [hrun]
    intro x hx
    rw [show ({ t with device := v } : Database).device.rows = v.rows from rfl, hrows] at hx
    rcases List.mem_append.mp hx with hx | hx
    · exact h x hx
    · cases List.mem_singleton.mp hx
      exact .inl (hintegrity.pointsOf_eq_nil hname)

theorem HaveItems.deleteDevice (h : HaveItems models t) (deviceName : Str) :
    HaveItems models ((SQLiteManager.deleteDevice deviceName).exec t).2 := by
  rw [SQLiteManager.exec_deleteDevice]
  cases named deviceName t with
  | none => exact h
  | some y =>
    intro x hx
    obtain ⟨hmem, hname⟩ := AutoTable.mem_deleteWhere.mp hx
    have hne : x.2.name ≠ bindText deviceName := by simpa using hname
    have hsame : pointsOf (DeviceRepository.removeEffect deviceName (deleteEffect deviceName t))
        x.2.name = pointsOf t x.2.name := pointsOf_deleteEffect_of_ne _ hne
    rw [hsame]
    exact h x hmem

/-- The initialisation stores the points of the model, under the name that the device has. -/
theorem HaveItems.replace (h : HaveItems models t) {deviceName : Str} {x : ℕ × DeviceRow}
    (hx : named deviceName t = some x) {points : List DataPoint}
    (hpoints : modelPoints models (readDevice x) = .ok points) {v : DataPointTable}
    (hins : (deleteEffect (readDevice x).name t).dataPoint.insertAll?
      (points.map (boundRow (readDevice x))) = some v) :
    HaveItems models { t with dataPoint := v } := by
  have hmem := (DeviceRepository.named_eq_some.mp hx).1
  have hrow (r : DataPointRow) (hr : r ∈ points.map (boundRow (readDevice x))) :
      r.dName = some x.2.name := by
    obtain ⟨point, -, rfl⟩ := List.mem_map.mp hr
    simp [boundRow]
  intro y hy
  cases heq : decide (y.2.name = x.2.name) with
  | true =>
    cases device_eq_of_name_eq hy hmem (of_decide_eq_true heq)
    have hrows := DataPointRepository.select_insertAll?_boundRow hins
    rw [readDevice_name] at hrows
    exact .inr ⟨_, points, (congrArg (modelPoints models) (Device.called_self _)).trans hpoints, hrows⟩
  | false =>
    have hne : y.2.name ≠ x.2.name := of_decide_eq_false heq
    have hsame : pointsOf { t with dataPoint := v } y.2.name = pointsOf t y.2.name := by
      rw [← @pointsOf_deleteEffect_of_ne t _ (readDevice x).name
        (by rwa [readDevice_name])]
      refine congrArg _ (AutoTable.select_insertAll?_of_disjoint hins fun r hr => ?_)
      rw [hrow r hr, decide_eq_false_iff_not]
      exact fun h => hne (Option.some.inj h).symm
    rw [hsame]
    exact h y hy

/-- A rename moves the points to a name that has none. -/
theorem pointsOf_renameEffect {oldName newName : Str} (hnew : pointsOf t (bindText newName) = [])
    (h : renameEffect oldName newName t = .ok u) :
    pointsOf u (bindText newName) = (pointsOf t (bindText oldName)).map
      fun r => { r with dName := some (bindText newName) } := by
  unfold renameEffect at h
  split at h
  · next v hv =>
    cases h
    have hmoved := AutoTable.select_update?_into (q := fun r => r.dName = some (bindText newName)) hv
      (fun r _ _ => by simp) fun r hr _ => ?_
    · rw [pointsOf, hmoved, pointsOf, List.map_map, List.map_map]
      rfl
    · rw [decide_eq_false_iff_not]
      intro hname
      have hmem : r.2 ∈ pointsOf t (bindText newName) := mem_pointsOf.mpr ⟨r, hr, rfl, hname⟩
      rw [hnew] at hmem
      cases hmem
  · cases h

/-- The row of an update has the id of the row before, and what the update says. -/
theorem HaveItems.updated (h : HaveItems models t) {x : ℕ × DeviceRow} (hx : x ∈ t.device.rows)
    {existing : Device} (hexisting : existing = readDevice x)
    (hpoints : pointsOf u (bindText device.name) = (pointsOf t x.2.name).map
      fun r => { r with dName := some (bindText device.name) }) :
    pointsOf (SQLiteManager.dropStalePoints device existing u) (bindText device.name) = [] ∨
      DerivedUnder models (x.1, DeviceRepository.boundRow device)
        (pointsOf (SQLiteManager.dropStalePoints device existing u) (bindText device.name)) := by
  subst hexisting
  unfold SQLiteManager.dropStalePoints
  split
  · exact .inl (pointsOf_deleteEffect _)
  · next hsame =>
    push Not at hsame
    rw [hpoints]
    refine (h x hx).imp (fun hnone => by rw [hnone, List.map_nil]) fun hderived => ?_
    exact @DerivedUnder.called models x (x.1, DeviceRepository.boundRow device) _ hderived rfl
      ((columnText_bindText hsame.1).trans hsame.1.symm)
      ((columnText_bindText hsame.2).trans hsame.2.symm)

theorem HaveItems.kept (h : HaveItems models t) {x : ℕ × DeviceRow}
    (hx : named (targetName device) t = some x) (hname : device.name = targetName device)
    (hupdate : DeviceRepository.updateEffect device (targetName device) t = .ok u) :
    HaveItems models (SQLiteManager.dropStalePoints device (readDevice x) u) := by
  have hpoint := SQLiteManager.updateEffect_dataPoint hupdate
  obtain ⟨hmem, hxname⟩ := DeviceRepository.named_eq_some.mp hx
  intro z hz
  rw [dropStalePoints_device] at hz
  rcases mem_updateEffect hx hupdate hz with rfl | ⟨hz', hzname⟩
  · refine h.updated hmem rfl ?_
    rw [pointsOf_congr hpoint, hname, ← hxname]
    refine ((List.map_congr_left fun r hr => ?_).trans (List.map_id _)).symm
    obtain ⟨y, -, rfl, hyname⟩ := mem_pointsOf.mp hr
    rw [← hyname]
    rfl
  · rw [pointsOf_dropStalePoints_of_ne _ (hname ▸ hzname), pointsOf_congr hpoint]
    exact h z hz'

theorem HaveItems.renamed (h : HaveItems models t) (hintegrity : Integrity t) {x : ℕ × DeviceRow}
    {t₂ : Database} (hx : named (targetName device) t = some x) (hnew : named device.name t = none)
    (hupdate : DeviceRepository.updateEffect device (targetName device) t = .ok u)
    (hok : renameEffect (targetName device) device.name u = .ok t₂) :
    HaveItems models (SQLiteManager.dropStalePoints device (readDevice x) t₂) := by
  have hpoint := SQLiteManager.updateEffect_dataPoint hupdate
  have hfree : pointsOf u (bindText device.name) = [] := by
    rw [pointsOf_congr hpoint]
    exact hintegrity.pointsOf_eq_nil hnew
  obtain ⟨hmem, hxname⟩ := DeviceRepository.named_eq_some.mp hx
  intro z hz
  rw [dropStalePoints_device, SQLiteManager.renameEffect_device hok] at hz
  rcases mem_updateEffect hx hupdate hz with rfl | ⟨hz', hzname⟩
  · refine h.updated hmem rfl ?_
    rw [pointsOf_renameEffect hfree hok, pointsOf_congr hpoint, hxname]
  · have hznew : z.2.name ≠ bindText device.name := DeviceRepository.named_eq_none.mp hnew z hz'
    rw [pointsOf_dropStalePoints_of_ne _ hznew, pointsOf_renameEffect_of_ne hzname hznew hok,
      pointsOf_congr hpoint]
    exact h z hz'

theorem HaveItems.updateDevice (h : HaveItems models t) (hintegrity : Integrity t) :
    HaveItems models ((SQLiteManager.updateDevice device).exec t).2 := by
  have hout := SQLiteManager.updateOutcome_exec device t
  generalize (SQLiteManager.updateDevice device).exec t = out at hout ⊢
  obtain ⟨r, u⟩ := out
  cases hout with
  | refused => exact h
  | kept hx hname hupdate => exact h.kept hx hname hupdate
  | renamed hx hname hnew hupdate hok => exact h.renamed hintegrity hx hnew hupdate hok
  | renameFailed hname hnew hupdate hfailed =>
    obtain ⟨t₂, hok⟩ := hintegrity.renameEffect_ok (targetName device) hnew
      (SQLiteManager.updateEffect_dataPoint hupdate)
    rw [hfailed] at hok
    cases hok

end Calls

/-! ## 3. Whole runs -/

/-- Every data point belongs to a device, and is an item of the device's model. -/
def Itemised (models : ModelRepository) (t : Database) : Prop := Integrity t ∧ HaveItems models t

section Runs
variable {models : ModelRepository} {t : Database}

theorem Itemised.of_tables {u : Database} (h : Itemised models t) (hdevice : u.device = t.device)
    (hpoint : u.dataPoint = t.dataPoint) : Itemised models u :=
  ⟨h.1.of_tables hdevice hpoint, h.2.of_tables hdevice hpoint⟩

theorem Itemised.keeps_init (deviceName mid : Str) :
    (DataTask.initDataPointsByDevice models deviceName mid).Keeps (Itemised models) :=
  keeps_initDataPointsByDevice
    (fun h hx hpoints hins => ⟨h.1.replace hx hins, h.2.replace hx hpoints hins⟩) deviceName mid

theorem Event.apply_itemised {event : Event} (h : Itemised event.models t) :
    Itemised event.models (event.apply t) := by
  cases event with
  | request models category requestText =>
    refine Command.keeps_tryCatch ?_ t h
    cases category with
    | createDevice =>
      exact Command.keeps_bind (Command.keeps_lift _) fun device =>
        keeps_createDevice Itemised.keeps_init device _ fun t h =>
          ⟨h.1.createDevice, h.2.createDevice h.1⟩
    | deleteDevice =>
      exact keeps_deleteDevice _ _ fun t h => ⟨h.1.deleteDevice _, h.2.deleteDevice _⟩
    | updateDevice =>
      exact Command.keeps_bind (Command.keeps_lift _) fun device =>
        keeps_updateDevice Itemised.keeps_init device _ _ fun device t h =>
          ⟨h.1.updateDevice, h.2.updateDevice h.1⟩
  | startDeviceCollect models deviceName mid =>
    exact keeps_startChecks Itemised.keeps_init deviceName mid t h
  | startAll models => exact keeps_startAllChecks Itemised.keeps_init t h
  | collectionCycle models env deviceName =>
    exact keeps_collectionCycle Itemised.keeps_init Itemised.of_tables env deviceName t h

theorem runEvents_itemised (models : ModelRepository) (events : List Event)
    (hmodels : ∀ event ∈ events, event.models = models) :
    Itemised models (runEvents .empty events) := by
  induction events using List.reverseRecOn with
  | nil => exact ⟨integrity_empty, fun x hx => by cases hx⟩
  | append_singleton before event ih =>
    have hbefore := ih fun e he => hmodels e (List.mem_append_left _ he)
    have hevent : event.models = models := hmodels event (by simp)
    rw [runEvents, List.foldl_append]
    subst hevent
    exact Event.apply_itemised hbefore

/-- In every run of whole events with fixed model files, with renames and changes of models in any
order: the points of a device are none, or those that its model gives under some name; in the columns
that do not name the device they are those that its model gives now. -/
theorem itemsOfModel_of_run (models : ModelRepository) (events : List Event)
    (hmodels : ∀ event ∈ events, event.models = models) (x : ℕ × DeviceRow)
    (hx : x ∈ (runEvents .empty events).device.rows) :
    pointsOf (runEvents .empty events) x.2.name = [] ∨
      DerivedUnder models x (pointsOf (runEvents .empty events) x.2.name) ∧
      ∃ points, modelPoints models (readDevice x) = .ok points ∧
        (pointsOf (runEvents .empty events) x.2.name).map DataPointRow.unnamed =
          points.map fun point => (boundRow (readDevice x) point).unnamed :=
  ((runEvents_itemised models events hmodels).2 x hx).imp_right fun h => ⟨h, h.items⟩

/-- The device that was `A` and is called `B`. -/
def renamedA : ℕ × DeviceRow := (1, DeviceRepository.boundRow { deviceA with name := lit "B" })

theorem itemsOfModel_of_run_renamed :
    pointsOf (runEvents .empty [createA, renameAB]) (bindText (lit "B")) ≠ [] ∧
      DerivedUnder oneModel renamedA
        (pointsOf (runEvents .empty [createA, renameAB]) renamedA.2.name) := by
  have hstored : pointsOf (runEvents .empty [createA, renameAB]) (bindText (lit "B")) ≠ [] := by
    decide +kernel
  have hitems := itemsOfModel_of_run oneModel [createA, renameAB]
    (by simp [createA, renameAB, Event.models]) renamedA (by decide +kernel)
  exact ⟨hstored, (hitems.resolve_left hstored).1⟩

end Runs

/-! ## 4. Cycles -/

section Cycles
open DeviceTask
open CollectionQueryBuilder (makeCid buildQuery queryPaths)
open CollectionResponseParser (processResponse)

variable {models : ModelRepository} {t t' : Database} {points : List DataPoint}

theorem loadDataPoints_eq_ok {deviceName mid : Str}
    (h : (DataTask.loadDataPoints models deviceName mid).run t = (.ok points, t')) :
    points ≠ [] ∧
      points = (t'.dataPoint.select fun r => r.dName = some (bindText deviceName)).map readPoint := by
  obtain ⟨stored, u, hstored, h⟩ := Command.run_bind_eq_ok h
  have hread : stored =
      (u.dataPoint.select fun r => r.dName = some (bindText deviceName)).map readPoint := by
    obtain ⟨before, t₁, hbefore, hafter⟩ := Command.run_bind_eq_ok hstored
    rw [Command.run_call, SQLiteManager.exec_getDataPointsByDeviceName] at hbefore
    cases hbefore
    split at hafter
    · obtain ⟨r, t₂, -, hlast⟩ := Command.run_bind_eq_ok hafter
      cases hok : r.ok with
      | false =>
        simp only [hok] at hlast
        cases hlast
      | true =>
        simp only [hok] at hlast
        have hcall : (Command.call (SQLiteManager.getDataPointsByDeviceName deviceName)).run t₂ =
            (.ok stored, u) := hlast
        rw [Command.run_call, SQLiteManager.exec_getDataPointsByDeviceName] at hcall
        cases hcall
        rfl
    · cases hafter
      rfl
  split at h
  · cases h
  next hne =>
    cases h
    exact ⟨hne, hread⟩

/-- A query depends on the name paths only. -/
theorem buildQuery_congr (cid : Str) {points points' : List DataPoint}
    (h : points.map DataPoint.namePath = points'.map DataPoint.namePath) :
    buildQuery cid points = buildQuery cid points' := by
  have hpaths : ∀ points points' : List DataPoint,
      points.map DataPoint.namePath = points'.map DataPoint.namePath →
        queryPaths points = queryPaths points' := by
    intro points
    induction points with
    | nil =>
      intro points' h
      rw [List.map_eq_nil_iff.mp h.symm]
    | cons point rest ih =>
      intro points' h
      obtain ⟨point', rest', rfl, hpath, hrest⟩ := List.map_eq_cons_iff.mp h.symm
      have hih := ih rest' hrest.symm
      cases rest with
      | nil =>
        cases List.map_eq_nil_iff.mp hrest
        simp only [queryPaths, hpath]
      | cons next rest =>
        obtain ⟨next', rest', rfl, -, -⟩ := List.map_eq_cons_iff.mp hrest
        simp only [queryPaths, hpath] at hih ⊢
        rw [hih]
  have hnil : points = [] ↔ points' = [] := by
    rw [← List.map_eq_nil_iff (f := DataPoint.namePath), h, List.map_eq_nil_iff]
  unfold buildQuery
  simp only [hnil, hpaths points points' h]

/-- A point as its row keeps its name path. -/
def DataPoint.stored (point : DataPoint) : DataPoint := { point with namePath := cString point.namePath }

/-- The points that are read back have the name paths of the model. -/
theorem namePaths_of_items {rows : List (ℕ × DataPointRow)} {device : Device}
    {modelled : List DataPoint} (h : (rows.map (·.2)).map DataPointRow.unnamed =
      modelled.map fun point => (boundRow device point).unnamed) :
    (rows.map readPoint).map DataPoint.namePath =
      (modelled.map DataPoint.stored).map DataPoint.namePath := by
  have hpaths := congrArg (List.map fun r : DataPointRow => columnText r.namePath) h
  rw [List.map_map, List.map_map, List.map_map] at hpaths
  rw [List.map_map, List.map_map]
  exact hpaths

theorem respond_eq_ok {input : CycleInput} {device : Device} {response : Str}
    (h : input.respond device points = .ok response) : ∃ query,
      buildQuery (makeCid device.name input.cidTime) points = .ok query ∧
      input.answer query = .ok response := by
  unfold CycleInput.respond at h
  cases hquery : buildQuery (makeCid device.name input.cidTime) points with
  | error e =>
    rw [hquery] at h
    cases h
  | ok query =>
    rw [hquery] at h
    refine ⟨query, rfl, ?_⟩
    cases hconnect : input.connect device.ip device.port with
    | false =>
      simp only [hconnect, Bool.false_eq_true, if_false] at h
      cases h
    | true =>
      cases hanswer : input.answer query with
      | error e =>
        simp only [hconnect, if_true, sendQuery, hanswer] at h
        cases h
      | ok answer =>
        simp only [hconnect, if_true, sendQuery, hanswer] at h
        split at h
        · cases h
        · exact h

/-- What a cycle that inserts its records has read, asked and been answered. -/
theorem insertProgram_eq_ok {name : SqlText} {input : CycleInput} {response : Str}
    {records : List ResourceRecord}
    (h : (insertProgram models input name.bytes).run t = (.ok (response, records), t')) :
    ∃ x stored u query, named name.bytes t = some x ∧
      (DataTask.loadDataPoints models name.bytes []).run t = (.ok stored, u) ∧
      buildQuery (makeCid name.bytes input.cidTime) stored = .ok query ∧
      input.answer query = .ok response ∧
      processResponse (readDevice x) stored response input.responseTime = .ok records := by
  obtain ⟨device, t₁, hget, h⟩ := Command.run_bind_eq_ok h
  rw [Command.run_call, SQLiteManager.exec_getDeviceByName] at hget
  cases hx : named name.bytes t with
  | none =>
    rw [hx] at hget
    cases hget
  | some x =>
    rw [hx] at hget
    obtain ⟨hdevice, htables⟩ := Prod.mk.inj hget
    have hdevice' : readDevice x = device := Except.ok.inj hdevice
    subst hdevice' htables
    have honline : (readDevice x).status ≠ 0 := by
      intro hoffline
      simp only [hoffline, if_true] at h
      cases h
    simp only [honline, if_false] at h
    obtain ⟨stored, u, hload, h⟩ := Command.run_bind_eq_ok h
    obtain ⟨response', t₂, hrespond, h⟩ := Command.run_bind_eq_ok h
    obtain ⟨records', t₃, hprocess, h⟩ := Command.run_bind_eq_ok h
    obtain ⟨-, t₄, -, h⟩ := Command.run_bind_eq_ok h
    obtain ⟨hrespond', -⟩ := Prod.mk.inj hrespond
    obtain ⟨hprocess', -⟩ := Prod.mk.inj hprocess
    obtain ⟨rfl, rfl⟩ : response' = response ∧ records' = records := by
      cases h
      exact ⟨rfl, rfl⟩
    obtain ⟨query, hquery, hanswer⟩ := respond_eq_ok hrespond'
    rw [name_of_named hx] at hload hquery
    exact ⟨x, stored, u, query, rfl, hload, hquery, hanswer, hprocess'⟩

/-- The points that a cycle loads are items of the device's model. -/
theorem Itemised.loaded (h : Itemised models t) {name : SqlText} {mid : Str} {x : ℕ × DeviceRow}
    (hx : named name.bytes t = some x)
    (hload : (DataTask.loadDataPoints models name.bytes mid).run t = (.ok points, t')) :
    ∃ modelled, modelPoints models (readDevice x) = .ok modelled ∧
      points.map DataPoint.namePath = (modelled.map DataPoint.stored).map DataPoint.namePath := by
  have hkept := keeps_loadDataPoints (P := fun u => Itemised models u ∧ u.device = t.device)
    (keeps_initDataPointsByDevice fun hu hv hpoints hins =>
      ⟨⟨hu.1.1.replace hv hins, hu.1.2.replace hv hpoints hins⟩, hu.2⟩) name.bytes mid t ⟨h, rfl⟩
  obtain ⟨hne, hread⟩ := loadDataPoints_eq_ok hload
  rw [hload] at hkept
  obtain ⟨⟨-, hitems⟩, hdevice⟩ := hkept
  obtain ⟨hmem, hxname⟩ := DeviceRepository.named_eq_some.mp hx
  rcases hitems x (hdevice ▸ hmem) with hnone | hderived
  · refine absurd ?_ hne
    rw [hread, ← hxname, List.map_eq_nil_iff]
    exact List.map_eq_nil_iff.mp hnone
  · obtain ⟨modelled, hmodelled, hrows⟩ := hderived.items
    refine ⟨modelled, hmodelled, ?_⟩
    rw [hread, ← hxname]
    exact namePaths_of_items hrows

/-- After every run of whole events with fixed model files: the records that a cycle inserts are those
that `processResponse` reads from the answer to a query, and the query lists the data items of the model
that the device has now and nothing else. -/
theorem asked_of_run (models : ModelRepository) (events : List Event)
    (hmodels : ∀ event ∈ events, event.models = models) {name : SqlText} {input : CycleInput}
    {s s' : CycleState} {records : List ResourceRecord} (hhealthy : Healthy s.conn)
    (htables : s.conn.tables = runEvents .empty events) (hname : s.task.device.name = name.bytes)
    (hrun : runCycle models input s = (.succeeded records, s')) :
    ∃ x points stored query response, named name.bytes s.conn.tables = some x ∧
      modelPoints models (readDevice x) = .ok points ∧
      stored.map DataPoint.namePath = (points.map DataPoint.stored).map DataPoint.namePath ∧
      buildQuery (makeCid name.bytes input.cidTime) (points.map DataPoint.stored) = .ok query ∧
      input.answer query = .ok response ∧
      processResponse (readDevice x) stored response input.responseTime = .ok records ∧
      ∀ record ∈ records, ∃ point ∈ points, record.dataItemNamePath = cString point.namePath := by
  have hstep := runCycle_step models input s
  rw [hrun] at hstep
  cases hstep with | succeeded hinsert _ =>
  have halone := insertNext_alone models input name s.task.lastCleanupTime (s.at "prepare") hhealthy
    ⟨hname, rfl⟩
  rw [hinsert] at halone
  obtain ⟨x, stored, u, query, hx, hload, hquery, hanswer, hprocess⟩ := insertProgram_eq_ok halone.1
  have hitemised : Itemised models s.conn.tables := htables ▸ runEvents_itemised models events hmodels
  obtain ⟨points, hpoints, hpaths⟩ := hitemised.loaded hx hload
  refine ⟨x, points, stored, query, _, hx, hpoints, hpaths,
    (buildQuery_congr _ hpaths).symm.trans hquery, hanswer, hprocess, ?_⟩
  intro record hrecord
  rw [← (CollectionResponseParser.processResponse_ok.mp hprocess).1] at hrecord
  obtain ⟨point, hpoint, hrecord⟩ := List.mem_filterMap.mp hrecord
  have hpath : record.dataItemNamePath = point.namePath := by
    rw [← (CollectionResponseParser.recordFor_eq_some.mp hrecord).2]
    rfl
  have hmem : point.namePath ∈ (points.map DataPoint.stored).map DataPoint.namePath :=
    hpaths ▸ List.mem_map_of_mem hpoint
  rw [List.map_map] at hmem
  obtain ⟨modelled, hmodelled, hstored⟩ := List.mem_map.mp hmem
  exact ⟨modelled, hmodelled, hpath.trans hstored.symm⟩

/-- A driver that has a value for one path. -/
def renamedInput : CycleInput where
  connect _ _ := true
  answer _ := .ok (lit "\x7b\"data\":\x7b\"//X\":\x7b\"value\":[1]\x7d\x7d\x7d")
  cidTime := 0
  responseTime := default
  now := 0
  statusTime := default

/-- The worker of the device that was renamed. -/
def renamedState : CycleState where
  conn := healthy (runEvents .empty [createA, renameAB]) none 0
  registry := {}
  task := .enter { name := lit "B" } 0

/-- The record that it inserts. -/
def renamedRecord : ResourceRecord where
  deviceName := lit "B"
  dataItemNamePath := lit "//X"
  data := lit "[1]"
  dataItemPath := lit "/DV:A/CP:/DT:X"
  dataItemName := lit "X"

/-- It asks for the item of the model. -/
theorem asked_of_run_renamed : ∃ x points stored query response,
    named (lit "B") renamedState.conn.tables = some x ∧
      modelPoints oneModel (readDevice x) = .ok points ∧
      stored.map DataPoint.namePath = (points.map DataPoint.stored).map DataPoint.namePath ∧
      buildQuery (makeCid (lit "B") 0) (points.map DataPoint.stored) = .ok query ∧
      renamedInput.answer query = .ok response ∧
      processResponse (readDevice x) stored response default = .ok [renamedRecord] ∧
      ∀ record ∈ [renamedRecord], ∃ point ∈ points,
        record.dataItemNamePath = cString point.namePath := by
  have hname : (⟨lit "B", by decide⟩ : SqlText).bytes = lit "B" := rfl
  have hcycle : (runCycle oneModel renamedInput renamedState).1 = .succeeded [renamedRecord] := by
    decide +kernel
  exact asked_of_run oneModel [createA, renameAB] (by simp [createA, renameAB, Event.models])
    ⟨0, rfl⟩ rfl hname.symm (Prod.ext hcycle rfl)

end Cycles

end CollectorService
