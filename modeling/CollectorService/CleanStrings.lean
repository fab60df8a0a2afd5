import CollectorService.WrittenStrings

/-!
# Clean strings

Whichever calls of a connection fail, what the commands write into the tables, return and throw is put
together from words of the program and from the strings of the request, the tables, the model files and
the messages of the failing calls. When these can be written as JSON, so can the result.

* `Sql.Cleanly`: the contract of a computation on a clean connection, with a rule for each construct.
* `OnConnection.cleanly_createDevice` and its siblings: the commands meet it.
-/

namespace CollectorService

open DeviceRepository (readDevice)

/-! ## 1. Clean texts -/

abbrev CleanText (text : Str) : Prop := (Leaf.text text).Clean

section Texts
variable {a b words text : Str}

theorem CleanText.append (ha : CleanText a) (hb : CleanText b) : CleanText (a ++ b) :=
  ⟨fun ch hch => (List.mem_append.mp hch).elim (ha.1 ch) (hb.1 ch), ha.2.append hb.2⟩

theorem CleanText.constant (h : ∀ ch ∈ words, 32 ≤ ch ∧ ch < 128) : CleanText words :=
  (Repeats.constant h).mpr clean_nil

/-- An exception in words of the program. -/
theorem CleanText.thrownConstant (h : ∀ ch ∈ words, 32 ≤ ch ∧ ch < 128) :
    CleanText (cString words) :=
  (Repeats.thrownConstant h).mpr clean_nil

theorem CleanText.thrown (h : ∀ ch ∈ words, 32 ≤ ch ∧ ch < 128) (htext : CleanText text) :
    CleanText (cString (words ++ text)) := by
  have hclean := (CleanText.constant h).append htext
  rwa [cString_of_notMem fun hmem => hclean.1 0 hmem (by decide)]

/-- A clean text has no NUL byte, so a C string keeps it. -/
theorem CleanText.cString_eq (h : CleanText text) : cString text = text :=
  cString_of_notMem fun hmem => h.1 0 hmem (by decide)

theorem CleanText.what (h : CleanText text) : CleanText (cString text) := by
  rwa [h.cString_eq]

end Texts

/-! ## 2. Model files -/

/-- The directories, and what the file system says of clean paths. -/
structure ModelRepository.Clean (models : ModelRepository) : Prop where
  modelDirectory : CleanText models.modelDirectory
  fallbackDirectory : CleanText models.fallbackDirectory
  fileExists : ∀ path, CleanText path → ∀ e, models.fileExists path = .error e →
    CleanText (cString e)

section Models
variable {models : ModelRepository} {model modelVersion directory name : Str}

theorem clean_joinPath (hdirectory : CleanText directory) (hname : CleanText name) :
    CleanText (joinPath directory name) := by
  unfold joinPath
  split
  · exact hname
  split
  · exact hdirectory.append hname
  · exact hdirectory.append (.append (.constant (by decide) : CleanText [byte '/']) hname)

namespace ModelRepository.Clean

theorem candidates (h : models.Clean) (hmodel : CleanText model)
    (hversion : CleanText modelVersion) :
    ∀ path ∈ models.candidates model modelVersion, CleanText path := by
  have hversioned : CleanText (model ++ lit "-" ++ modelVersion) :=
    (hmodel.append (.constant (by decide))).append hversion
  have hfile : ∀ {name ending : Str}, CleanText name → (∀ ch ∈ ending, 32 ≤ ch ∧ ch < 128) →
      CleanText (joinPath models.modelDirectory (name ++ ending)) := fun hname hending =>
    clean_joinPath h.modelDirectory (hname.append (.constant hending))
  intro path hpath
  simp only [ModelRepository.candidates, List.mem_append] at hpath
  rcases hpath with (hpath | hpath) | hpath
  · split at hpath
    · simp only [List.mem_cons, List.not_mem_nil, or_false] at hpath
      rcases hpath with rfl | rfl | rfl <;> exact hfile hversioned (by decide)
    · cases hpath
  · simp only [List.mem_cons, List.not_mem_nil, or_false] at hpath
    rcases hpath with rfl | rfl | rfl <;> exact hfile hmodel (by decide)
  · split at hpath
    · rw [List.mem_singleton.mp hpath]
      exact clean_joinPath h.fallbackDirectory (.constant (by decide))
    · cases hpath

theorem loadFirst (h : models.Clean) (hmodel : CleanText model) {paths : List Str}
    (hpaths : ∀ path ∈ paths, CleanText path) {e : Str}
    (he : models.loadFirst model paths = .error e) : CleanText (cString e) := by
  induction paths with
  | nil =>
    cases he
    exact .thrown (by decide) hmodel
  | cons path rest ih =>
    obtain ⟨hpath, hrest⟩ := List.forall_mem_cons.mp hpaths
    unfold ModelRepository.loadFirst at he
    rcases CommandParser.bind_eq_error.mp he with he | ⟨found, -, he⟩
    · exact h.fileExists path hpath e he
    split at he
    · unfold ModelRepository.loadFile at he
      split at he
      · cases he
      · cases he
        exact .thrown (by decide) hpath
    · exact ih hrest he

/-- What is said of a model that cannot be read. -/
theorem modelPoints (h : models.Clean) {device : Device} (hmodel : CleanText device.model)
    (hversion : CleanText device.modelVersion) {e : Str}
    (he : modelPoints models device = .error e) : CleanText (cString e) := by
  unfold CollectorService.modelPoints at he
  rcases CommandParser.bind_eq_error.mp he with he | ⟨text, -, he⟩
  · unfold ModelRepository.loadModelText at he
    split at he
    · cases he
      exact .thrownConstant (by decide)
    split at he
    · cases he
    · exact h.loadFirst hmodel (h.candidates hmodel hversion) he
  · simp only [ModelParser.parseModelToDataPoints] at he
    split at he
    · cases he
      exact .thrown (by decide) hmodel
    · cases he

end ModelRepository.Clean

end Models

/-! ## 3. The connection -/

/-- What the tables hold of devices and records. -/
structure Database.Clean (t : Database) : Prop where
  devices : ∀ x ∈ t.device.rows, ∀ leaf ∈ (readDevice x).leaves, leaf.Clean
  records : ∀ x ∈ t.resources.rows, ∀ leaf ∈ (ResourceRepository.readRecord x).leaves, leaf.Clean

/-- The tables, those that a `ROLLBACK` restores, and the messages of the calls that fail. -/
structure Conn.Clean (c : Conn) : Prop where
  tables : c.tables.Clean
  saved : ∀ t, c.saved = some t → t.Clean
  fault : ∀ n e, c.fault n = some e → CleanText (cString e)

theorem Conn.Clean.tick {c : Conn} (h : c.Clean) : c.tick.Clean := ⟨h.tables, h.saved, h.fault⟩

theorem Conn.Clean.rollback {c : Conn} (h : c.Clean) :
    (CollectorService.rollback c).Clean := by
  unfold CollectorService.rollback
  split
  · next t ht => exact ⟨h.saved t ht, nofun, h.fault⟩
  · exact h.tick

namespace Sql

variable {α β : Type} {m : Sql α} {k : α → Sql β} {P : α → Prop} {Q : β → Prop}

/-- The connection stays clean; what is returned has `P`, what is thrown is a clean C string. -/
def Cleanly (P : α → Prop) (m : Sql α) : Prop := ∀ c, c.Clean → (m c).2.Clean ∧
  match (m c).1 with
  | .ok a => P a
  | .error e => CleanText (cString e)

namespace Cleanly

theorem pure {a : α} (h : P a) : Cleanly P (pure a) := fun _ hc => ⟨hc, h⟩

theorem throw {e : Str} (h : CleanText (cString e)) : Cleanly P (Sql.throw e) := fun _ hc => ⟨hc, h⟩

/-- What would come after an exception does not matter. -/
theorem throw_bind {e : Str} (h : CleanText (cString e)) : Cleanly Q (Sql.throw e >>= k) :=
  fun _ hc => ⟨hc, h⟩

theorem ofExcept {r : Except Str α} (hok : ∀ a, r = .ok a → P a)
    (herror : ∀ e, r = .error e → CleanText (cString e)) : Cleanly P (Sql.ofExcept r) := by
  refine fun c hc => ⟨hc, ?_⟩
  cases r with
  | ok a => exact hok a rfl
  | error e => exact herror e rfl

theorem bind (hm : Cleanly P m) (hk : ∀ a, P a → Cleanly Q (k a)) : Cleanly Q (m >>= k) := by
  intro c hc
  obtain ⟨hclean, hresult⟩ := hm c hc
  rcases hrun : m c with ⟨e | a, c'⟩
  · rw [hrun] at hclean hresult
    rw [bind_error hrun]
    exact ⟨hclean, hresult⟩
  · rw [hrun] at hclean hresult
    rw [bind_ok hrun]
    exact hk a hresult c' hclean

theorem ite {condition : Prop} [Decidable condition] {m' : Sql α} (hm : Cleanly P m)
    (hm' : Cleanly P m') : Cleanly P (if condition then m else m') := by
  split
  · exact hm
  · exact hm'

theorem tryCatch {handler : Str → α} (hm : Cleanly P m) (hhandler : ∀ e, CleanText e → P (handler e)) :
    Cleanly P (Sql.tryCatch m handler) := by
  intro c hc
  obtain ⟨hclean, hresult⟩ := hm c hc
  unfold Sql.tryCatch
  rcases hrun : m c with ⟨e | a, c'⟩
  · rw [hrun] at hclean hresult
    exact ⟨hclean, hhandler _ hresult⟩
  · rw [hrun] at hclean hresult
    exact ⟨hclean, hresult⟩

theorem apiCall : Cleanly (fun _ => True) CollectorService.apiCall := by
  intro c hc
  unfold CollectorService.apiCall
  split
  · next e he => exact ⟨hc.tick, hc.fault _ e he⟩
  · exact ⟨hc.tick, trivial⟩

theorem prepare : Cleanly (fun _ => True) CollectorService.prepare := apiCall

theorem stepDone {effect : Database → Except Str Database}
    (hok : ∀ t u, t.Clean → effect t = .ok u → u.Clean)
    (herror : ∀ t e, effect t = .error e → CleanText (cString e)) :
    Cleanly (fun _ => True) (CollectorService.stepDone effect) := by
  intro c hc
  unfold CollectorService.stepDone
  split
  · next e he => exact ⟨hc.tick, hc.fault _ e he⟩
  split
  · next u hu => exact ⟨⟨hok _ u hc.tables hu, hc.saved, hc.fault⟩, trivial⟩
  · next e he => exact ⟨hc.tick, herror _ e he⟩

theorem statement {effect : Database → Except Str Database}
    (hok : ∀ t u, t.Clean → effect t = .ok u → u.Clean)
    (herror : ∀ t e, effect t = .error e → CleanText (cString e)) :
    Cleanly (fun _ => True)
      (CollectorService.prepare >>= fun _ => CollectorService.stepDone effect) :=
  .bind prepare fun _ _ => stepDone hok herror

theorem stepEach {β : Type} {effect : β → Database → Except Str Database} (items : List β)
    (hok : ∀ item t u, t.Clean → effect item t = .ok u → u.Clean)
    (herror : ∀ item t e, effect item t = .error e → CleanText (cString e)) :
    Cleanly (fun _ => True) (CollectorService.stepEach effect items) := by
  induction items with
  | nil => exact .pure trivial
  | cons item rest ih => exact .bind (.stepDone (hok item) (herror item)) fun _ _ => ih

theorem stepRow : Cleanly (fun _ => True) CollectorService.stepRow := fun _ hc => ⟨hc.tick, trivial⟩

theorem firstRow {query : Database → Option α} (h : ∀ t, t.Clean → ∀ x ∈ query t, P x) :
    Cleanly (fun found => ∀ x ∈ found, P x) (CollectorService.firstRow query) := by
  intro c hc
  have hstep := (stepRow c hc).1
  unfold CollectorService.firstRow
  rcases hrun : CollectorService.stepRow c with ⟨e | found, c'⟩ <;> rw [hrun] at hstep
  · exact ⟨hstep, nofun⟩
  cases found with
  | true => exact ⟨hstep, h _ hc.tables⟩
  | false => exact ⟨hstep, nofun⟩

theorem allRows {query : Database → List α} (h : ∀ t, t.Clean → ∀ x ∈ query t, P x) :
    Cleanly (fun found => ∀ x ∈ found, P x) (CollectorService.allRows query) := by
  have hrows : ∀ rows : List α, (∀ x ∈ rows, P x) →
      Cleanly (fun found => ∀ x ∈ found, P x) (stepRows rows) := by
    intro rows
    induction rows with
    | nil => exact fun _ => .bind stepRow fun _ _ => .pure (by simp)
    | cons row rest ih =>
      intro hall
      obtain ⟨hrow, hrest⟩ := List.forall_mem_cons.mp hall
      refine .bind stepRow fun more _ => ?_
      split
      · exact .bind (ih hrest) fun found hfound => .pure (List.forall_mem_cons.mpr ⟨hrow, hfound⟩)
      · exact .pure (by simp)
  exact fun c hc => hrows _ (h _ hc.tables) c hc

theorem beginTransaction : Cleanly (fun _ => True) CollectorService.beginTransaction := by
  refine .bind apiCall fun _ _ c hc => ?_
  split
  · exact ⟨hc, .thrownConstant (by decide)⟩
  · refine ⟨⟨hc.tables, ?_, hc.fault⟩, trivial⟩
    rintro t ⟨⟩
    exact hc.tables

theorem commitTransaction : Cleanly (fun _ => True) CollectorService.commitTransaction := by
  refine .bind apiCall fun _ _ c hc => ?_
  split
  · exact ⟨⟨hc.tables, nofun, hc.fault⟩, trivial⟩
  · exact ⟨hc, .thrownConstant (by decide)⟩

theorem withTransaction {body : Sql Unit} (h : Cleanly (fun _ => True) body) :
    Cleanly (fun _ => True) (CollectorService.withTransaction body) := by
  refine .bind beginTransaction fun _ _ c hc => ?_
  obtain ⟨hclean, hresult⟩ := (h.bind fun _ _ => commitTransaction) c hc
  rcases hrun : (body >>= fun _ => CollectorService.commitTransaction) c with ⟨e | u, c'⟩ <;>
    rw [hrun] at hclean hresult
  · exact ⟨hclean.rollback, hresult⟩
  · exact ⟨hclean, trivial⟩

end Cleanly

end Sql

/-! ## 4. The calls of the manager -/

/-- The texts of a request for a device. -/
structure DeviceUpsert.Clean (device : DeviceUpsert) : Prop where
  oldName : CleanText device.oldName
  name : CleanText device.name
  ip : CleanText device.ip
  model : CleanText device.model
  modelVersion : CleanText device.modelVersion
  driverPath : CleanText device.driverPath

theorem DeviceUpsert.Clean.targetName {device : DeviceUpsert} (h : device.Clean) :
    CleanText (SQLiteManager.targetName device) := by
  unfold SQLiteManager.targetName
  split
  · exact h.oldName
  · exact h.name

section Rows
variable {device : DeviceUpsert} {t u : Database}

/-- What is read back from a row that has been bound. -/
theorem clean_boundRow (h : device.Clean) (id : ℕ) :
    ∀ leaf ∈ (readDevice (id, DeviceRepository.boundRow device)).leaves, leaf.Clean := by
  have hclean : ∀ leaf ∈ [Leaf.text (cString device.name), .text (cString device.ip),
      .text (cString device.model), .text (cString device.modelVersion),
      .text (cString device.driverPath)], leaf.Clean := by
    simp only [List.forall_mem_cons]
    exact ⟨h.name.what, h.ip.what, h.model.what, h.modelVersion.what, h.driverPath.what,
      List.forall_mem_nil _⟩
  exact hclean

theorem Database.Clean.of_rows (h : t.Clean)
    (hdevice : ∀ x ∈ u.device.rows, x ∈ t.device.rows ∨ ∀ leaf ∈ (readDevice x).leaves, leaf.Clean)
    (hresources : u.resources = t.resources) : u.Clean :=
  ⟨fun x hx => (hdevice x hx).elim (h.devices x) id, hresources ▸ h.records⟩

theorem Database.Clean.createEffect (h : t.Clean) (hdevice : device.Clean)
    (hu : DeviceRepository.createEffect device t = .ok u) : u.Clean := by
  unfold DeviceRepository.createEffect at hu
  split at hu
  · next v hv =>
    cases hu
    refine h.of_rows (fun x hx => ?_) rfl
    rw [(AutoTable.insert?_eq_some.mp hv).2.1] at hx
    rcases List.mem_append.mp hx with hx | hx
    · exact .inl hx
    · rw [List.mem_singleton.mp hx]
      exact .inr (clean_boundRow hdevice _)
  · cases hu

theorem Database.Clean.updateEffect (h : t.Clean) (hdevice : device.Clean) {target : Str}
    (hu : DeviceRepository.updateEffect device target t = .ok u) : u.Clean := by
  unfold DeviceRepository.updateEffect at hu
  split at hu
  · next v hv =>
    cases hu
    refine h.of_rows (fun x hx => ?_) rfl
    rw [(AutoTable.update?_eq_some.mp hv).2.1] at hx
    obtain ⟨y, hy, rfl⟩ := List.mem_map.mp hx
    unfold AutoTable.updateRow
    split
    · exact .inr (clean_boundRow hdevice _)
    · exact .inl hy
  · cases hu

/-- A statement on the data points. -/
theorem Database.Clean.of_dataPoint (h : t.Clean) (hdevice : u.device = t.device)
    (hresources : u.resources = t.resources) : u.Clean :=
  h.of_rows (fun _ hx => .inl (hdevice ▸ hx)) hresources

theorem Database.Clean.removeEffect (h : t.Clean) (deviceName : Str) :
    (DeviceRepository.removeEffect deviceName t).Clean :=
  h.of_rows (fun _ hx => .inl (AutoTable.mem_deleteWhere.mp hx).1) rfl

end Rows

namespace SQLiteManager

open Sql (Cleanly)

variable {device : DeviceUpsert} {deviceName : Str}

theorem cleanly_deviceExists : Cleanly (fun _ => True) (deviceExists deviceName) :=
  .bind .prepare fun _ _ => .bind (.firstRow (P := fun _ => True) fun _ _ _ _ => trivial)
    fun _ _ => .pure trivial

theorem cleanly_getDeviceByName (hname : CleanText deviceName) :
    Cleanly (fun device => ∀ leaf ∈ device.leaves, leaf.Clean) (getDeviceByName deviceName) := by
  refine .bind .prepare fun _ _ => .bind (.firstRow fun t ht x hx =>
    ht.devices x (DeviceRepository.named_eq_some.mp hx).1) fun found hfound => ?_
  cases found with
  | none => exact .throw (.thrown (by decide) hname)
  | some x => exact .pure (hfound x rfl)

theorem cleanly_getDataPointsByDeviceName :
    Cleanly (fun _ => True) (getDataPointsByDeviceName deviceName) :=
  .bind .prepare fun _ _ => .bind (.allRows (P := fun _ => True) fun _ _ _ _ => trivial)
    fun _ _ => .pure trivial

theorem cleanly_getDevices :
    Cleanly (fun devices => ∀ device ∈ devices, ∀ leaf ∈ device.leaves, leaf.Clean) getDevices :=
  .bind .prepare fun _ _ => .bind (.allRows fun _ ht => ht.devices) fun _ hrows =>
    .pure (List.forall_mem_map.mpr hrows)

theorem cleanly_getLatestResources :
    Cleanly (fun records => ∀ record ∈ records, ∀ leaf ∈ record.leaves, leaf.Clean)
      (getLatestResources deviceName) :=
  .bind .prepare fun _ _ => .bind (.allRows fun _ ht x hx =>
      ht.records x (List.mem_filter.mp (Ranking.mem_ranked.mp (List.mem_of_mem_take hx))).1)
    fun _ hrows => .pure (List.forall_mem_map.mpr hrows)

theorem cleanly_deleteByDeviceName :
    Cleanly (fun _ => True) (DataPointRepository.deleteByDeviceName deviceName) := by
  refine .statement (fun t u ht hu => ?_) nofun
  cases hu
  exact ht.of_dataPoint rfl rfl

theorem cleanly_createDevice (hdevice : device.Clean) :
    Cleanly (fun _ => True) (createDevice device) := by
  refine .bind cleanly_deviceExists fun found _ => ?_
  have hcreate : Cleanly (fun _ => True) (DeviceRepository.create device) := by
    refine .statement (fun t u ht hu => ht.createEffect hdevice hu) fun t e he => ?_
    unfold DeviceRepository.createEffect at he
    split at he <;> cases he
    exact .thrownConstant (by decide)
  cases found with
  | true => exact .throw_bind (.thrown (by decide) hdevice.name)
  | false => exact hcreate

theorem cleanly_updateDevice (hdevice : device.Clean) :
    Cleanly (fun _ => True) (updateDevice device) := by
  have hupdate : Cleanly (fun _ => True) (DeviceRepository.update device (targetName device)) := by
    refine .statement (fun t u ht hu => ht.updateEffect hdevice hu) fun t e he => ?_
    unfold DeviceRepository.updateEffect at he
    split at he <;> cases he
    exact .thrownConstant (by decide)
  have hrename : Cleanly (fun _ => True)
      (DataPointRepository.renameDevice (targetName device) device.name) := by
    refine .statement (fun t u ht hu => ?_) fun t e he => ?_ <;>
      unfold DataPointRepository.renameEffect at *
    · split at hu <;> cases hu
      exact ht.of_dataPoint rfl rfl
    · split at he <;> cases he
      exact .thrownConstant (by decide)
  have hpoints (existing : Device) : Cleanly (fun _ => True) (if existing.model ≠ device.model ∨
      existing.modelVersion ≠ device.modelVersion then
        DataPointRepository.deleteByDeviceName device.name else return ()) :=
    .ite cleanly_deleteByDeviceName (.pure trivial)
  have hrows (existing : Device) : Cleanly (fun _ => True) (do
      DeviceRepository.update device (targetName device)
      if device.name ≠ targetName device then
        DataPointRepository.renameDevice (targetName device) device.name
      if existing.model ≠ device.model ∨ existing.modelVersion ≠ device.modelVersion then
        DataPointRepository.deleteByDeviceName device.name) :=
    .bind hupdate fun _ _ => .ite (.bind hrename fun _ _ => hpoints existing) (hpoints existing)
  refine .bind (cleanly_getDeviceByName hdevice.targetName) fun existing _ =>
    .ite ?_ (hrows existing)
  refine .bind cleanly_deviceExists fun found _ => ?_
  cases found with
  | true => exact .throw_bind (.thrown (by decide) hdevice.name)
  | false => exact hrows existing

theorem cleanly_deleteDevice (hname : CleanText deviceName) :
    Cleanly (fun _ => True) (deleteDevice deviceName) := by
  refine .bind cleanly_deviceExists fun found _ => ?_
  have hdelete : Cleanly (fun _ => True) (withTransaction do
      DataPointRepository.deleteByDeviceName deviceName
      DeviceRepository.remove deviceName) := by
    refine .withTransaction (.bind cleanly_deleteByDeviceName fun _ _ =>
      .statement (fun t u ht hu => ?_) nofun)
    cases hu
    exact ht.removeEffect deviceName
  cases found with
  | true => exact hdelete
  | false => exact .throw_bind (.thrown (by decide) hname)

theorem cleanly_replaceDataPointsForDevice (owner : Device) (points : List DataPoint) :
    Cleanly (fun _ => True) (replaceDataPointsForDevice owner points) := by
  refine .withTransaction (.bind cleanly_deleteByDeviceName fun _ _ => .bind .prepare fun _ _ =>
    .stepEach points (fun point t u ht hu => ?_) fun point t e he => ?_) <;>
    unfold DataPointRepository.insertEffect at *
  · split at hu <;> cases hu
    exact ht.of_dataPoint rfl rfl
  · split at he <;> cases he
    exact .thrownConstant (by decide)

end SQLiteManager

/-! ## 5. Commands -/

structure CommandResult.Clean (result : CommandResult) : Prop where
  msg : CleanText result.msg
  mid : CleanText result.mid

namespace OnConnection

open CommandProcessor (keepStatus)
open Sql (Cleanly)

variable {models : ModelRepository} {device : DeviceUpsert} {hasStatus : Bool}
  {deviceName mid words : Str}

/-- Words of the program in front of a name. -/
theorem cleanly_message (h : ∀ ch ∈ words, 32 ≤ ch ∧ ch < 128) (hname : CleanText deviceName)
    (hmid : CleanText mid) {code : ℤ} : Cleanly CommandResult.Clean
      (pure { code, msg := words ++ deviceName, mid } : Sql CommandResult) :=
  .pure ⟨.append (.constant h) hname, hmid⟩

theorem cleanly_refusal (h : ∀ ch ∈ words, 32 ≤ ch ∧ ch < 128) (hmid : CleanText mid) :
    Cleanly CommandResult.Clean (pure (CommandProcessor.errorResult mid words)) :=
  .pure ⟨.constant h, hmid⟩

theorem cleanly_initDataPointsByDevice (hmodels : models.Clean) (hname : CleanText deviceName)
    (hmid : CleanText mid) :
    Cleanly CommandResult.Clean (initDataPointsByDevice models deviceName mid) := by
  refine .tryCatch (.bind SQLiteManager.cleanly_deviceExists fun found _ => ?_) fun e he => ⟨he, hmid⟩
  cases found with
  | false => exact .throw_bind (.thrown (by decide) hname)
  | true =>
    refine .bind (SQLiteManager.cleanly_getDeviceByName hname) fun device hdevice => ?_
    refine .bind (.ofExcept (P := fun _ => True) (fun _ _ => trivial) fun e he => hmodels.modelPoints
      (hdevice _ (by simp [Device.leaves])) (hdevice _ (by simp [Device.leaves])) he) fun points _ => ?_
    exact .bind (SQLiteManager.cleanly_replaceDataPointsForDevice device points) fun _ _ =>
      cleanly_message (by decide) hname hmid

theorem cleanly_startChecks (hmodels : models.Clean) (hname : CleanText deviceName)
    (hmid : CleanText mid) : Cleanly (fun _ => True) (startChecks models deviceName mid) := by
  have hstored : Cleanly (fun _ => True) (storedDataPoints models deviceName mid) := by
    refine .bind SQLiteManager.cleanly_getDataPointsByDeviceName fun points _ => .ite ?_ (.pure trivial)
    refine .bind (cleanly_initDataPointsByDevice hmodels hname hmid) fun initResult hresult => ?_
    cases initResult.ok with
    | false => exact .throw_bind hresult.msg.what
    | true => exact SQLiteManager.cleanly_getDataPointsByDeviceName
  have hload : Cleanly (fun _ => True) (loadDataPoints models deviceName mid) :=
    .bind hstored fun points _ => .ite
      (.throw_bind (.thrown (by decide) hname))
      (.pure trivial)
  have hchecked (device : Device) : Cleanly (fun _ => True) (do
      let _ ← loadDataPoints models deviceName mid
      return device) := .bind hload fun _ _ => .pure trivial
  have hdevice : Cleanly (fun _ => True) (do
      let device ← SQLiteManager.getDeviceByName deviceName
      if device.status = 0 then
        Sql.throw (lit "device is offline: " ++ deviceName)
      let _ ← loadDataPoints models deviceName mid
      return device) :=
    .bind (SQLiteManager.cleanly_getDeviceByName hname) fun device _ => .ite
      (.throw_bind (.thrown (by decide) hname))
      (hchecked device)
  refine .bind SQLiteManager.cleanly_deviceExists fun found _ => ?_
  cases found with
  | true => exact hdevice
  | false => exact .throw_bind (.thrown (by decide) hname)

theorem cleanly_createDevice (hmodels : models.Clean) (hdevice : device.Clean)
    (hmid : CleanText mid) :
    Cleanly CommandResult.Clean (createDevice models device mid) := by
  refine .ite (cleanly_refusal (by decide) hmid) (.ite (cleanly_refusal (by decide) hmid) ?_)
  refine .bind SQLiteManager.cleanly_deviceExists fun found _ => ?_
  cases found with
  | true => exact cleanly_message (by decide) hdevice.name hmid
  | false =>
    refine .bind (SQLiteManager.cleanly_createDevice hdevice) fun _ _ => ?_
    refine .bind (cleanly_initDataPointsByDevice hmodels hdevice.name hmid) fun initResult hresult => ?_
    cases initResult.ok with
    | false => exact .pure hresult
    | true => exact cleanly_message (by decide) hdevice.name hmid

theorem cleanly_deleteDevice (hname : CleanText deviceName) (hmid : CleanText mid) :
    Cleanly CommandResult.Clean (deleteDevice deviceName mid) := by
  refine .bind SQLiteManager.cleanly_deviceExists fun found _ => ?_
  cases found with
  | true => exact .bind (SQLiteManager.cleanly_deleteDevice hname) fun _ _ =>
      cleanly_message (by decide) hname hmid
  | false => exact cleanly_message (by decide) hname hmid

theorem cleanly_updateDevice (hmodels : models.Clean) (hdevice : device.Clean)
    (hmid : CleanText mid) :
    Cleanly CommandResult.Clean (updateDevice models device hasStatus mid) := by
  refine .ite (cleanly_refusal (by decide) hmid) (.ite (cleanly_refusal (by decide) hmid) ?_)
  refine .bind SQLiteManager.cleanly_deviceExists fun found _ => ?_
  cases found with
  | false => exact cleanly_message (by decide) hdevice.name hmid
  | true =>
    refine .bind (SQLiteManager.cleanly_getDeviceByName hdevice.targetName) fun before _ => ?_
    have hkept : (keepStatus device hasStatus before).Clean := by
      unfold CommandProcessor.keepStatus
      split
      · exact hdevice
      · exact ⟨hdevice.oldName, hdevice.name, hdevice.ip, hdevice.model, hdevice.modelVersion,
          hdevice.driverPath⟩
    refine .bind (SQLiteManager.cleanly_updateDevice hkept) fun _ _ => .ite ?_
      (cleanly_message (by decide) hkept.name hmid)
    refine .bind (cleanly_initDataPointsByDevice hmodels hkept.name hmid) fun initResult hresult => ?_
    cases initResult.ok with
    | false => exact .pure hresult
    | true => exact cleanly_message (by decide) hkept.name hmid

end OnConnection

end CollectorService
