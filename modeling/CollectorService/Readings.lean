import CollectorService.FailingCalls

/-!
# Where the readings come from

A worker writes to the resources, and nobody else. This module follows each stored row back to the
cycle that has inserted it, in runs where any call may fail.

* `Asked`: what a cycle that inserts records has read, asked and been answered.
* `insertNext_asked`: a cycle that comes to its end has done so.
* `readings_of_reach`: so every stored reading was inserted by a cycle and answered by the driver of a
  device, to a query for items of the model that the device had then.

A command and a cycle run to their ends before the next step.
-/

namespace CollectorService

open DeviceRepository (createEffect named readDevice updateEffect)
open DataPointRepository (boundRow readPoint renameEffect)
open DeviceTask (CycleState CycleInput Over runCycle)
open CollectionQueryBuilder (makeCid buildQuery)
open CollectionResponseParser (processResponse)
open Hoare (Ends)

/-! ## 1. A cycle -/

/-- The device of a worker is asked for items of its model, and `records` are read from the answer. -/
structure Asked (models : ModelRepository) (t : Database) (deviceName : Str) (input : CycleInput)
    (x : ℕ × DeviceRow) (items points : List DataPoint) (records : List ResourceRecord) : Prop where
  device : named deviceName t = some x
  online : (readDevice x).status ≠ 0
  model : modelPoints models (readDevice x) = .ok items
  paths : ∀ point ∈ points, ∃ item ∈ items, point.namePath = cString item.namePath
  answer : ∃ query response, buildQuery (makeCid (readDevice x).name input.cidTime) points = .ok query ∧
    input.connect (readDevice x).ip (readDevice x).port = true ∧ input.answer query = .ok response ∧
    processResponse (readDevice x) points response input.responseTime = .ok records

/-- The tables while a cycle runs: the data points may have been initialised. -/
structure Within (models : ModelRepository) (t₀ t : Database) : Prop where
  itemised : Itemised models t
  device : t.device = t₀.device
  resources : t.resources = t₀.resources

theorem Within.keptByInit (models : ModelRepository) (t₀ : Database) :
    KeptByInit models (Within models t₀) where
  initialised h hx hpoints hins :=
    ⟨(maintained_itemised models).initialised h.itemised hx hpoints hins, h.device, h.resources⟩

/-- Stored points are items of the model. -/
theorem Within.items {models : ModelRepository} {t₀ t : Database} {deviceName : Str} {x : ℕ × DeviceRow}
    {points : List DataPoint} (h : Within models t₀ t) (hx : named deviceName t₀ = some x)
    (hne : points ≠ []) (hstored : ∀ point ∈ points, IsStored (readDevice x).name t point) :
    ∃ items, modelPoints models (readDevice x) = .ok items ∧
      ∀ point ∈ points, ∃ item ∈ items, point.namePath = cString item.namePath := by
  have hmem : x ∈ t.device.rows := h.device ▸ (DeviceRepository.named_eq_some.mp hx).1
  have hrows : ∀ point ∈ points, ∃ r, r.2 ∈ pointsOf t x.2.name ∧ point = readPoint r := by
    intro point hpoint
    obtain ⟨r, hr, hname, hread⟩ := hstored point hpoint
    rw [readDevice_name] at hname
    exact ⟨r, mem_pointsOf.mpr ⟨r, hr, rfl, hname⟩, hread⟩
  rcases h.itemised.2 x hmem with hnone | hderived
  · obtain ⟨point, hpoint⟩ := List.exists_mem_of_ne_nil points hne
    obtain ⟨r, hr, -⟩ := hrows point hpoint
    rw [hnone] at hr
    cases hr
  · obtain ⟨items, hitems, hunnamed⟩ := hderived.items
    refine ⟨items, hitems, fun point hpoint => ?_⟩
    obtain ⟨r, hr, rfl⟩ := hrows point hpoint
    have hrow : r.2.unnamed ∈ (pointsOf t x.2.name).map DataPointRow.unnamed := List.mem_map_of_mem hr
    rw [hunnamed] at hrow
    obtain ⟨item, hitem, hsame⟩ := List.mem_map.mp hrow
    exact ⟨item, hitem, congrArg (fun r : DataPointRow => columnText r.namePath) hsame.symm⟩

namespace DeviceTask

section Cycle
variable {models : ModelRepository} {input : CycleInput} {t₀ : Database} {deviceName : Str}

/-- The tables are as the cycle has found them, and the worker still knows its device by the name. -/
def Starts (t₀ : Database) (deviceName : Str) : CycleState → Prop :=
  Over fun t _ task => t = t₀ ∧ task.device.name = deviceName

theorem loadDevice_asked : Ends (Starts t₀ deviceName) loadDevice
    (fun device => Over fun t _ _ => (∃ x, named deviceName t₀ = some x ∧ device = readDevice x ∧
      (readDevice x).status ≠ 0) ∧ t = t₀) fun _ => Over fun t _ _ => t = t₀ := by
  refine .bind (Q := fun _ => Starts t₀ deviceName) (.modify fun _ hs => hs) fun _ => .bind
    (.get (Q := fun s s' => s.task.device.name = deviceName ∧ Over (fun t _ _ => t = t₀) s')
      fun s hs => ⟨hs.2, hs.1⟩) fun s => .given fun hname => ?_
  rw [hname]
  refine .bind (ends_query (R := fun device t => ∃ x, named deviceName t = some x ∧
    device = readDevice x) SQLiteManager.reads_getDeviceByName SQLiteManager.getDeviceByName_eq_ok)
    fun device => ?_
  refine .bind (Q := fun _ => Over fun t _ _ => (∃ x, named deviceName t₀ = some x ∧
    device = readDevice x) ∧ t = t₀) (ends_modifyTask fun t _ _ ht => ?_) fun _ => ?_
  · exact ⟨ht.2 ▸ ht.1, ht.2⟩
  split
  · exact .throw_bind fun _ hs => hs.2
  · next honline =>
    refine .pure fun s hs => ?_
    obtain ⟨⟨x, hx, hdevice⟩, ht⟩ := hs
    exact ⟨⟨x, hx, hdevice, hdevice ▸ honline⟩, ht⟩

/-- Every row is an old one, or one of the records. -/
def Adds (records : List ResourceRecord) (t u : Database) : Prop :=
  ∀ row ∈ u.resources.rows, row ∈ t.resources.rows ∨
    ∃ record ∈ records, row.2 = ResourceRepository.boundRow record

theorem storeRecords_asked (device : Device) (points : List DataPoint) (response : Str) :
    Ends (Over fun t _ _ => Within models t₀ t) (storeRecords input device points response)
      (fun records s => processResponse device points response input.responseTime = .ok records ∧
        Over (fun u _ _ => Adds records t₀ u) s) fun _ => Over fun t _ _ => Within models t₀ t := by
  refine .bind (KeptByInit.setStage_ends _) fun _ => .bind (ends_ofExcept fun _ h => h) fun records =>
    .given fun hrecords => ?_
  refine .bind (ends_writes SQLiteManager.writes_insertResources fun t u r task htu ht =>
    (?_ : Adds records t₀ u)) fun _ => .pure fun _ hs => ⟨hrecords, hs⟩
  obtain ⟨v, hv, hfold⟩ := SQLiteManager.foldlM_insertResource (t := t) records
  rw [hfold] at htu
  cases htu
  obtain ⟨new, hrows, hnew, -⟩ := AutoTable.insertAll?_rows hv
  intro row hrow
  rw [show ({ t with resources := v } : Database).resources.rows = v.rows from rfl, hrows,
    ht.resources] at hrow
  refine (List.mem_append.mp hrow).imp_right fun hrow => ?_
  obtain ⟨record, hrecord, hbound⟩ := List.mem_map.mp (hnew ▸ List.mem_map_of_mem hrow)
  exact ⟨record, hrecord, hbound.symm⟩

/-- A cycle inserts what it has been answered, or nothing. -/
theorem insertNext_asked (ht₀ : Itemised models t₀) :
    Ends (Starts t₀ deviceName) (insertNext models input)
      (fun r s => (∃ x items points, Asked models t₀ deviceName input x items points r.2) ∧
        Over (fun u _ _ => Adds r.2 t₀ u) s) fun _ => Over fun u _ _ => u.resources = t₀.resources := by
  refine .bind (loadDevice_asked.weaken (fun _ hs => hs) (fun _ _ hs => hs) fun _ s ht => ?_)
    fun device => .given fun hdevice => ?_
  · exact congrArg Database.resources ht
  obtain ⟨x, hx, rfl, honline⟩ := hdevice
  have hwithin : ∀ s, Over (fun t _ _ => t = t₀) s → Over (fun t _ _ => Within models t₀ t) s := by
    rintro s rfl
    exact ⟨ht₀, rfl, rfl⟩
  refine .bind (Q := fun points s => (∃ items, modelPoints models (readDevice x) = .ok items ∧
      ∀ point ∈ points, ∃ item ∈ items, point.namePath = cString item.namePath) ∧
      Over (fun t _ _ => Within models t₀ t) s)
    (((Within.keptByInit models t₀).loadDataPoints_ends (readDevice x)).weaken hwithin
      (fun points s hs => ⟨hs.2.items hx hs.1.1 hs.1.2, hs.2⟩) fun _ _ hs => hs.resources)
    fun points => .given fun ⟨items, hitems, hpaths⟩ => ?_
  refine .bind ((KeptByInit.queryDriver_ends (readDevice x) points).weaken (fun _ hs => hs)
    (fun _ _ hs => hs) fun _ _ hs => hs.resources)
    fun response => .given fun ⟨query, hquery, hconnect, hanswer⟩ => ?_
  refine .bind ((storeRecords_asked (readDevice x) points response).weaken (fun _ hs => hs)
    (fun _ _ hs => hs) fun _ _ hs => hs.resources) fun records => .given fun hrecords => ?_
  exact .pure fun s hs => ⟨⟨x, items, points, hx, honline, hitems, hpaths, query, response, hquery,
    hconnect, hanswer, hrecords⟩, hs⟩

end Cycle

end DeviceTask

/-! ## 2. Steps -/

section Step
variable {models : ModelRepository} {input : CycleInput} {t : Database} {deviceName : Str}

/-- A cycle has been answered the reading, for an item of the model. -/
def Answered (models : ModelRepository) (t : Database) (deviceName : Str) (input : CycleInput)
    (row : ResourceRow) : Prop :=
  ∃ x items points records, Asked models t deviceName input x items points records ∧
    ∃ record ∈ records, row = ResourceRepository.boundRow record ∧
      ∃ item ∈ items, record.dataItemNamePath = cString item.namePath

/-- A record is for one of the points that were asked for. -/
theorem Asked.item {x : ℕ × DeviceRow} {items points : List DataPoint} {records : List ResourceRecord}
    (h : Asked models t deviceName input x items points records) {record : ResourceRecord}
    (hrecord : record ∈ records) : ∃ item ∈ items, record.dataItemNamePath = cString item.namePath := by
  obtain ⟨query, response, -, -, -, hprocess⟩ := h.answer
  rw [← (CollectionResponseParser.processResponse_ok.mp hprocess).1] at hrecord
  obtain ⟨point, hpoint, hrecord⟩ := List.mem_filterMap.mp hrecord
  obtain ⟨item, hitem, hpath⟩ := h.paths point hpoint
  refine ⟨item, hitem, Eq.trans ?_ hpath⟩
  rw [← (CollectionResponseParser.recordFor_eq_some.mp hrecord).2]
  rfl

/-- A cycle stores nothing but answered readings, and its cleanup removes rows only. -/
theorem runCycle_answered {s : CycleState} (ht : Itemised models s.conn.tables) :
    ∀ row ∈ (runCycle models input s).2.conn.tables.resources.rows,
      row ∈ s.conn.tables.resources.rows ∨
        Answered models s.conn.tables s.task.device.name input row.2 := by
  have hends := @DeviceTask.insertNext_asked models input s.conn.tables s.task.device.name ht
    (s.at "prepare") ⟨rfl, rfl⟩
  have hstep := DeviceTask.runCycle_step models input s
  rcases hrun : runCycle models input s with ⟨result, s'⟩
  rw [hrun] at hstep
  cases hstep with
  | failed hinsert _ | gaveUp hinsert _ =>
    rw [hinsert] at hends
    have hsame : _ = s.conn.tables.resources := hends
    exact fun row hrow => .inl (hsame ▸ hrow)
  | @succeeded response records s₁ s₂ hinsert hcleanup =>
    rw [hinsert] at hends
    obtain ⟨⟨x, items, points, hasked⟩, hadds⟩ := hends
    have hinserted : ∀ row ∈ s₁.conn.tables.resources.rows, row ∈ s.conn.tables.resources.rows ∨
        Answered models s.conn.tables s.task.device.name input row.2 := by
      intro row hrow
      refine (hadds row hrow).imp_right fun ⟨record, hrecord, hbound⟩ => ?_
      exact ⟨x, items, points, records, hasked, record, hrecord, hbound, hasked.item hrecord⟩
    cases hcleanup with
    | notDue hnot => exact hinserted
    | done hdue hcall | failed hdue hcall =>
      have hclean := (SQLiteManager.writes_cleanupResourcesForDevice (s₁.at "close").task.device.name
        DataTask.kMaxRowsPerDevice).changes
        (R := fun t u => ∀ row ∈ u.resources.rows, row ∈ t.resources.rows) (fun _ _ hrow => hrow)
        (fun t u hu => ?_) (s₁.at "close").conn
      · rw [hcall] at hclean
        exact fun row hrow => hinserted row (hclean row hrow)
      · rw [Except.ok.injEq] at hu
        subst hu
        split
        · exact fun _ hrow => hrow
        · exact (cleanupDevice_newest _ _ t).subset

theorem updateEffect_resources {device : DeviceUpsert} {target : Str} {u : Database}
    (h : updateEffect device target t = .ok u) : u.resources = t.resources := by
  unfold updateEffect at h
  split at h <;> cases h
  rfl

theorem renameEffect_resources {oldName newName : Str} {u : Database}
    (h : renameEffect oldName newName t = .ok u) : u.resources = t.resources := by
  unfold renameEffect at h
  split at h <;> cases h
  rfl

theorem updateDevice_resources (device : DeviceUpsert) (t : Database) :
    ((SQLiteManager.updateDevice device).exec t).2.resources = t.resources := by
  have hdrop (existing : Device) (u : Database) :
      (SQLiteManager.dropStalePoints device existing u).resources = u.resources := by
    unfold SQLiteManager.dropStalePoints
    split <;> rfl
  have hout := SQLiteManager.updateOutcome_exec device t
  generalize (SQLiteManager.updateDevice device).exec t = out at hout ⊢
  obtain ⟨r, u⟩ := out
  cases hout with
  | refused => rfl
  | kept _ _ hupdate => exact (hdrop _ _).trans (updateEffect_resources hupdate)
  | renamed _ _ _ hupdate hrename =>
    exact ((hdrop _ _).trans (renameEffect_resources hrename)).trans (updateEffect_resources hupdate)
  | renameFailed _ _ hupdate _ => exact updateEffect_resources hupdate

/-- No command writes to the resources. -/
theorem keptByCommands_resources (models : ModelRepository) (t : Database) :
    KeptByCommands models fun u => u.resources = t.resources where
  initialised h _ _ _ := h
  created h hu := by
    unfold createEffect at hu
    split at hu <;> cases hu
    exact h
  deleted _ h := h
  updated device hasStatus mid :=
    keeps_updateDevice (keeps_initDataPointsByDevice fun h _ _ _ => h) device hasStatus mid
      fun device u h => (updateDevice_resources device u).trans h

end Step

/-! ## 3. Runs -/

namespace Runtime

variable {models : ModelRepository} {t : Database} {s s' : Runtime} {event : RuntimeEvent}

/-- A cycle of a worker has inserted the row, at some time between `t` and `s`, and has been answered
what stands in it. -/
def Accounts (models : ModelRepository) (t : Database) (s : Runtime) (row : ℕ × ResourceRow) : Prop :=
  ∃ before after id input fault task,
    Steps.Reach Runtime.step (SteadyUpdates models) { database := t } before ∧
    before.step (.cycle id models input fault) = some after ∧
    Steps.Reach Runtime.step (SteadyUpdates models) after s ∧
    row ∉ before.database.resources.rows ∧ row ∈ after.database.resources.rows ∧
    before.tasks[id]? = some task ∧ Answered models before.database task.device.name input row.2

theorem Accounts.step {row : ℕ × ResourceRow} (h : Accounts models t s row)
    (hok : s.SteadyUpdates models event) (hstep : s.step event = some s') :
    Accounts models t s' row := by
  obtain ⟨before, after, id, input, fault, task, hbefore, hcycle, hafter, hinserted⟩ := h
  exact ⟨before, after, id, input, fault, task, hbefore, hcycle, .step hafter hok hstep, hinserted⟩

/-- A step brings no row but those that its cycle has been answered. -/
theorem step_answered (ht : Itemised models s.database) (hok : s.SteadyUpdates models event)
    (hstep : s.step event = some s') {row : ℕ × ResourceRow} (hrow : row ∈ s'.database.resources.rows) :
    row ∈ s.database.resources.rows ∨ ∃ id input fault task, event = .cycle id models input fault ∧
      s.tasks[id]? = some task ∧ Answered models s.database task.device.name input row.2 := by
  cases event with
  | command models' requestText fault now =>
    obtain ⟨rfl, hsteady⟩ := hok
    obtain ⟨⟨r, p⟩, hrun, rfl⟩ := Option.map_eq_some_iff.mp hstep
    have hsame : p.conn.tables.resources = s.database.resources :=
      (keptByCommands_resources models' s.database).handle hsteady r p hrun rfl
    exact .inl (hsame ▸ hrow)
  | cycle id models' input fault =>
    cases hok
    obtain ⟨worker, -, hstep⟩ := Option.bind_eq_some_iff.mp hstep
    obtain ⟨task, htask, hstep⟩ := Option.bind_eq_some_iff.mp hstep
    split at hstep
    · cases hstep
      let st : CycleState := ⟨{ tables := s.database, fault }, s.registry, task⟩
      refine (@runCycle_answered models input st ht row hrow).imp_right fun hanswered => ?_
      exact ⟨id, input, fault, task, rfl, htask, hanswered⟩
    · cases hstep
  | leave id =>
    obtain ⟨worker, -, hstep⟩ := Option.bind_eq_some_iff.mp hstep
    obtain ⟨task, -, hstep⟩ := Option.bind_eq_some_iff.mp hstep
    split at hstep
    · cases hstep
      exact .inl hrow
    · cases hstep

end Runtime

/-- In every run with fixed model files, where any call may fail but those of an `update_device`: each
reading in the table was there at the start, or a cycle of a worker has inserted it as it read it from
the answer of its device's driver, to a query for items of the model that the device had then. No step
but a cycle adds a row. -/
theorem readings_of_reach {models : ModelRepository} {t : Database} {s : Runtime}
    (ht : Itemised models t)
    (hs : Steps.Reach Runtime.step (Runtime.SteadyUpdates models) { database := t } s) :
    (∀ row ∈ s.database.resources.rows,
      row ∈ t.resources.rows ∨ Runtime.Accounts models t s row) ∧
    ∀ (event : RuntimeEvent) (s' : Runtime), s.SteadyUpdates models event → s.step event = some s' →
      (∀ id input fault, event ≠ .cycle id models input fault) →
      ∀ row ∈ s'.database.resources.rows, row ∈ s.database.resources.rows := by
  have hitemised : ∀ {u}, Steps.Reach Runtime.step (Runtime.SteadyUpdates models) { database := t } u →
      Itemised models u.database := (maintained_itemised models).of_reach ht
  refine ⟨?_, fun event s' hok hstep hevent row hrow => ?_⟩
  · induction hs with
    | start => exact fun row hrow => .inl hrow
    | @step s s' event hs hok hstep ih =>
      intro row hrow
      by_cases hold : row ∈ s.database.resources.rows
      · exact (ih row hold).imp_right fun h => h.step hok hstep
      · obtain ⟨id, input, fault, task, rfl, htask, hanswered⟩ :=
          (Runtime.step_answered (hitemised hs) hok hstep hrow).resolve_left hold
        exact .inr ⟨s, s', id, input, fault, task, hs, hstep, .start, hold, hrow, htask, hanswered⟩
  · refine (Runtime.step_answered (hitemised hs) hok hstep hrow).resolve_right ?_
    rintro ⟨id, input, fault, task, rfl, -⟩
    exact hevent id input fault rfl

def cycleOfA : RuntimeEvent := .cycle 0 oneModel renamedInput fun _ => none

/-- The worker of `A` has read a value for its point. -/
def readA : Runtime := (withPointA.step cycleOfA).getD { database := .empty }

theorem readings_of_reach_readA : readA.database.resources.rows ≠ [] ∧
    ∀ row ∈ readA.database.resources.rows, Runtime.Accounts oneModel .empty readA row := by
  have hcycle : withPointA.step cycleOfA = some readA :=
    (Option.getD_of_ne_none (fun h => absurd (congrArg Option.isSome h) (by decide +kernel)) _).symm
  have hadmitted : withPointA.SteadyUpdates oneModel cycleOfA := rfl
  refine ⟨by decide +kernel, fun row hrow => ?_⟩
  refine ((readings_of_reach (itemised_empty oneModel) (.step reach_withPointA hadmitted hcycle)).1
    row hrow).resolve_left fun hold => ?_
  cases hold

end CollectorService
