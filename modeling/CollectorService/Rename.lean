import CollectorService.Integrity

/-!
# Renames and back

A rename rewrites the row of a device and the names of its data points. Both go back: the row is read
as it has been written, and no point has the new name before.

* `Rereads`: a row that is written back as it is read.
* `rename_back`: after every run, a rename and the rename back leave the tables as they were.
-/

namespace CollectorService

open DeviceRepository (named readDevice boundRow updateEffect)
open DataPointRepository (renameEffect readPoint)
open CommandProcessor (handleDevice)
open SQLiteManager (targetName)

/-! ## 1. What the parser gives -/

/-- A value of the service's `int`. -/
def IsInt (n : ℤ) : Prop := -2 ^ 31 ≤ n ∧ n < 2 ^ 31

instance (n : ℤ) : Decidable (IsInt n) := inferInstanceAs (Decidable (_ ∧ _))

theorem columnInt_of_isInt {n : ℤ} (h : IsInt n) : columnInt (some n) = n := by
  obtain ⟨hle, hlt⟩ := h
  simp only [columnInt, Option.getD_some]
  rw [Int.bmod_eq_of_le] <;> omega

theorem isInt_columnInt (value : Option ℤ) : IsInt (columnInt value) := by
  have hle : -((2 ^ 32 : ℕ) : ℤ) / 2 ≤ (value.getD 0).bmod (2 ^ 32) := Int.le_bmod (by decide)
  have hlt : (value.getD 0).bmod (2 ^ 32) < (((2 ^ 32 : ℕ) : ℤ) + 1) / 2 := Int.bmod_lt (by decide)
  exact ⟨by simpa [columnInt] using hle, by simpa [columnInt] using hlt⟩

/-- The numbers of a request are values of `int`. -/
structure DeviceUpsert.IsInt (device : DeviceUpsert) : Prop where
  port : CollectorService.IsInt device.port
  sampleIntervalMs : CollectorService.IsInt device.sampleIntervalMs
  status : CollectorService.IsInt device.status

section Parser
variable {text fieldName : Str} {n fallback : ℤ}

theorem stoi_isInt (h : stoi text = .ok n) : IsInt n := by
  simp only [stoi] at h
  split_ifs at h <;>
  · cases h
    assumption

theorem extractIntField_isInt (hfallback : IsInt fallback)
    (h : extractIntField text fieldName fallback = .ok n) : IsInt n := by
  unfold extractIntField at h
  split at h
  · cases h
    exact hfallback
  · split at h
    · cases h
      exact hfallback
    · split at h
      · cases h
        exact hfallback
      · exact stoi_isInt h

theorem parseAddr_isInt {addr ip ip' : Str} {port port' : ℤ} (hport : IsInt port)
    (h : CommandParser.parseAddr addr ip port = .ok (ip', port')) : IsInt port' := by
  unfold CommandParser.parseAddr at h
  split at h
  · cases h
    exact hport
  split at h
  · cases h
    exact hport
  · obtain ⟨value, hvalue, hresult⟩ := CommandParser.bind_eq_ok.mp h
    cases hresult
    exact stoi_isInt hvalue

theorem parseDeviceUpsert_isInt {device : DeviceUpsert}
    (h : CommandParser.parseDeviceUpsert text = .ok device) : device.IsInt := by
  obtain ⟨sampleIntervalMs, first, status, portField, ip, port, hsample, hfirst, hstatus, hport,
    haddress, rfl⟩ := CommandParser.parseDeviceUpsert_eq_ok.mp h
  have haddress := parseAddr_isInt (extractIntField_isInt (by decide) hport) haddress
  refine ⟨?_, extractIntField_isInt (by decide) hsample,
    extractIntField_isInt (extractIntField_isInt (by decide) hfirst) hstatus⟩
  show CollectorService.IsInt (if port = 0 then 9001 else port)
  split
  · decide
  · exact haddress

end Parser

/-! ## 2. Rows that are read as they are written -/

/-- The request that leaves everything but the name as it has been read. -/
def Device.upsert (device : Device) (oldName name : Str) : DeviceUpsert where
  oldName
  name
  ip := device.ip
  port := device.port
  sampleIntervalMs := device.sampleIntervalMs
  status := device.status
  model := device.model
  modelVersion := device.modelVersion
  driverPath := device.driverPath

/-- Written back as it is read, the row has its old values and the new name. -/
def DeviceRow.Rereads (r : DeviceRow) : Prop :=
  ∀ id oldName name, boundRow ((readDevice (id, r)).upsert oldName name) =
    { r with name := bindText name }

/-- Every row of `Device` is read as it has been written. -/
def Rereads (t : Database) : Prop := ∀ x ∈ t.device.rows, x.2.Rereads

section Rows
variable {t : Database} {device : DeviceUpsert}

theorem rereads_boundRow (h : device.IsInt) : (boundRow device).Rereads := by
  intro id oldName name
  simp only [boundRow, readDevice, Device.upsert, columnText, Option.map_some, Option.getD_some,
    bindText_bytes, columnInt_of_isInt h.port, columnInt_of_isInt h.sampleIntervalMs,
    columnInt_of_isInt h.status]

theorem rereads_empty : Rereads .empty := fun x hx => by cases hx

theorem Rereads.of_device {u : Database} (h : Rereads t) (hdevice : u.device = t.device) :
    Rereads u := by
  unfold Rereads
  rwa [hdevice]

theorem Rereads.createDevice (h : Rereads t) (hint : device.IsInt) :
    Rereads ((SQLiteManager.createDevice device).exec t).2 := by
  rcases SQLiteManager.exec_createDevice_tables device t with hsame | ⟨v, -, hrows, hrun⟩
  · rwa [hsame]
  · rw [hrun]
    intro x hx
    rw [show ({ t with device := v } : Database).device.rows = v.rows from rfl, hrows] at hx
    rcases List.mem_append.mp hx with hx | hx
    · exact h x hx
    · cases List.mem_singleton.mp hx
      exact rereads_boundRow hint

theorem Rereads.deleteDevice (h : Rereads t) (deviceName : Str) :
    Rereads ((SQLiteManager.deleteDevice deviceName).exec t).2 := by
  rw [SQLiteManager.exec_deleteDevice]
  cases named deviceName t with
  | none => exact h
  | some y => exact fun x hx => h x (AutoTable.mem_deleteWhere.mp hx).1

theorem Rereads.updateEffect (h : Rereads t) (hint : device.IsInt) {target : Str} {u : Database}
    (hupdate : updateEffect device target t = .ok u) : Rereads u := by
  unfold DeviceRepository.updateEffect at hupdate
  split at hupdate
  · next v hv =>
    cases hupdate
    obtain ⟨-, hrows, -⟩ := AutoTable.update?_eq_some.mp hv
    intro z hz
    obtain ⟨y, hy, rfl⟩ := List.mem_map.mp (hrows ▸ hz)
    unfold AutoTable.updateRow
    split
    · exact rereads_boundRow hint
    · exact h y hy
  · cases hupdate

theorem Rereads.updateDevice (h : Rereads t) (hint : device.IsInt) :
    Rereads ((SQLiteManager.updateDevice device).exec t).2 := by
  have hout := SQLiteManager.updateOutcome_exec device t
  have hdrop {existing : Device} {u : Database} (hu : Rereads u) :
      Rereads (SQLiteManager.dropStalePoints device existing u) := by
    unfold SQLiteManager.dropStalePoints
    split
    · exact hu.of_device rfl
    · exact hu
  generalize (SQLiteManager.updateDevice device).exec t = out at hout ⊢
  obtain ⟨r, u⟩ := out
  cases hout with
  | refused => exact h
  | kept _ _ hupdate => exact hdrop (h.updateEffect hint hupdate)
  | renamed _ _ _ hupdate hrename =>
    exact hdrop ((h.updateEffect hint hupdate).of_device (SQLiteManager.renameEffect_device hrename))
  | renameFailed _ _ hupdate => exact h.updateEffect hint hupdate

theorem Rereads.keeps_init {models : ModelRepository} (deviceName mid : Str) :
    (DataTask.initDataPointsByDevice models deviceName mid).Keeps Rereads :=
  keeps_initDataPointsByDevice (fun h _ _ _ => h.of_device rfl) deviceName mid

theorem DeviceUpsert.IsInt.keepStatus (h : device.IsInt) (hasStatus : Bool) (x : ℕ × DeviceRow) :
    (CommandProcessor.keepStatus device hasStatus (readDevice x)).IsInt := by
  cases hasStatus with
  | true => exact h
  | false => exact ⟨h.port, h.sampleIntervalMs, isInt_columnInt _⟩

theorem Rereads.keeps_updateDevice {models : ModelRepository} (hint : device.IsInt)
    (hasStatus : Bool) (mid : Str) :
    (CommandProcessor.updateDevice models device hasStatus mid).Keeps Rereads :=
  fun _ h => updateDevice_of_call Rereads.keeps_init hasStatus mid h fun _ _ x =>
    h.updateDevice (hint.keepStatus hasStatus x)

theorem Event.apply_rereads (h : Rereads t) (event : Event) : Rereads (event.apply t) := by
  cases event with
  | request models category requestText =>
    refine Command.keeps_tryCatch ?_ t h
    cases category with
    | createDevice =>
      exact Command.keeps_lift_bind fun device hparse =>
        keeps_createDevice Rereads.keeps_init device _ fun t h =>
          h.createDevice (parseDeviceUpsert_isInt hparse)
    | deleteDevice => exact keeps_deleteDevice _ _ fun t h => h.deleteDevice _
    | updateDevice =>
      exact Command.keeps_lift_bind fun device hparse =>
        Rereads.keeps_updateDevice (parseDeviceUpsert_isInt hparse) _ _
  | startDeviceCollect models deviceName mid =>
    exact keeps_startChecks Rereads.keeps_init deviceName mid t h
  | startAll models => exact keeps_startAllChecks Rereads.keeps_init t h
  | collectionCycle models env deviceName =>
    exact keeps_collectionCycle Rereads.keeps_init (fun h hdevice _ => h.of_device hdevice) env
      deviceName t h

/-- In every run all rows of `Device` are read as they have been written. -/
theorem runEvents_rereads (h : Rereads t) (events : List Event) : Rereads (runEvents t events) := by
  induction events generalizing t with
  | nil => exact h
  | cons event rest ih => exact ih (event.apply_rereads h)

end Rows

/-! ## 3. There and back -/

section Rename
variable {t t₁ t₂ : Database} {a b : Str} {x : ℕ × DeviceRow} {device : Device}

/-- A rename that leaves the model as it is. -/
theorem exec_rename (ha : a ≠ []) (hx : named a t = some x)
    (hmodel : (readDevice x).model = device.model)
    (hversion : (readDevice x).modelVersion = device.modelVersion) (hfree : named b t = none)
    (hupdate : updateEffect (device.upsert a b) a t = .ok t₁)
    (hrename : renameEffect a b t₁ = .ok t₂) :
    (SQLiteManager.updateDevice (device.upsert a b)).exec t = (.ok (), t₂) := by
  have htarget : targetName (device.upsert a b) = a := if_pos ha
  have hname : (device.upsert a b).name = b := rfl
  have hne : b ≠ a := by
    rintro rfl
    rw [hx] at hfree
    cases hfree
  have hsame : ¬ ((readDevice x).model ≠ (device.upsert a b).model ∨
      (readDevice x).modelVersion ≠ (device.upsert a b).modelVersion) :=
    not_or_intro (not_not_intro hmodel) (not_not_intro hversion)
  rw [SQLiteManager.exec_updateDevice, htarget, hx, hname, hfree]
  simp only [Option.isSome_none, Bool.false_eq_true, and_false, if_false,
    SQLiteManager.updateOutcome, htarget, hname, hupdate, if_pos hne, hrename, if_neg hsame]

theorem updateEffect_eq {request : DeviceUpsert} {v : DeviceTable}
    (h : t.device.update? (fun r => r.name = bindText a) (fun _ => boundRow request) = some v) :
    updateEffect request a t = .ok { t with device := v } := by
  rw [updateEffect, h]

theorem renameEffect_eq {w : DataPointTable}
    (h : t.dataPoint.update? (fun r => r.dName = some (bindText a))
      (fun r => { r with dName := some (bindText b) }) = some w) :
    renameEffect a b t = .ok { t with dataPoint := w } := by
  rw [renameEffect, h]

theorem readPoint_rename (y : ℕ × DataPointRow) : readPoint (y.1, { y.2 with
    dName := some (bindText b) }) = { readPoint y with deviceName := cString b } := by
  simp only [readPoint, columnText, bindText, Option.map_some, Option.getD_some]

/-- The two statements of the rename, and the two that take it back. -/
structure RenamedTables (t : Database) (a b : Str) (device : Device) (v : DeviceTable)
    (w : DataPointTable) : Prop where
  row : t.device.update? (fun r => r.name = bindText a)
    (fun _ => boundRow (device.upsert a b)) = some v
  points : t.dataPoint.update? (fun r => r.dName = some (bindText a))
    (fun r => { r with dName := some (bindText b) }) = some w
  rowBack : v.update? (fun r => r.name = bindText b)
    (fun _ => boundRow (device.upsert b a)) = some t.device
  pointsBack : w.update? (fun r => r.dName = some (bindText b))
    (fun r => { r with dName := some (bindText a) }) = some t.dataPoint

theorem exists_renamedTables (hintegrity : Integrity t) (hrereads : Rereads t)
    (hx : named a t = some x) (hfree : named b t = none) :
    ∃ v w, RenamedTables t a b (readDevice x) v w := by
  obtain ⟨hmem, hname⟩ := DeviceRepository.named_eq_some.mp hx
  have hbfree := DeviceRepository.named_eq_none.mp hfree
  have hpointfree : ∀ r ∈ t.dataPoint.rows, r.2.dName ≠ some (bindText b) := fun r hr =>
    hintegrity.dName_ne hfree hr
  have honly {y : ℕ × DeviceRow} (hy : y ∈ t.device.rows) (hyname : y.2.name = bindText a) : y = x :=
    Option.some.inj ((DeviceRepository.named_eq_some.mpr ⟨hy, hyname⟩).symm.trans hx)
  cases hv : t.device.update? (fun r => r.name = bindText a)
      (fun _ => boundRow ((readDevice x).upsert a b)) with
  | none =>
    have herror : ∃ e, updateEffect ((readDevice x).upsert a b) a t = .error e := by
      rw [updateEffect, hv]
      exact ⟨_, rfl⟩
    obtain ⟨y, hy, hyname, -⟩ := (SQLiteManager.updateEffect_error hx).mp herror
    exact absurd hyname (hbfree y hy)
  | some v =>
    cases hw : t.dataPoint.update? (fun r => r.dName = some (bindText a))
        (fun r => { r with dName := some (bindText b) }) with
    | none =>
      obtain ⟨u, hu⟩ := hintegrity.renameEffect_ok a hfree (rfl : t.dataPoint = t.dataPoint)
      rw [renameEffect, hw] at hu
      cases hu
    | some w =>
      refine ⟨v, w, hv, hw, AutoTable.update?_back hv (fun y hy hp => ?_) fun y hy _ => ?_,
        AutoTable.update?_back hw (fun r _ hp => ⟨by simp, ?_⟩) fun r hr _ => ?_⟩
      · rw [honly hy (of_decide_eq_true hp)]
        exact ⟨decide_eq_true rfl, (hrereads x hmem x.1 b a).trans (by rw [← hname])⟩
      · exact decide_eq_false (hbfree y hy)
      · rw [← of_decide_eq_true hp]
      · exact decide_eq_false (hpointfree r hr)

/-- The rename of the tables, seen through the queries, and back. -/
theorem rename_back_of_integrity (hintegrity : Integrity t) (hrereads : Rereads t) (ha : a ≠ [])
    (hb : b ≠ []) (hx : named a t = some x) (hfree : named b t = none) :
    ∃ t', (SQLiteManager.updateDevice ((readDevice x).upsert a b)).exec t = (.ok (), t') ∧
      (∃ points, (SQLiteManager.getDataPointsByDeviceName a).exec t = (.ok points, t) ∧
        (SQLiteManager.getDataPointsByDeviceName b).exec t' =
          (.ok (points.map fun point => { point with deviceName := cString b }), t')) ∧
      (SQLiteManager.getDataPointsByDeviceName a).exec t' = (.ok [], t') ∧
      (SQLiteManager.updateDevice ((readDevice x).upsert b a)).exec t' = (.ok (), t) := by
  obtain ⟨v, w, h⟩ := exists_renamedTables hintegrity hrereads hx hfree
  obtain ⟨hmem, hname⟩ := DeviceRepository.named_eq_some.mp hx
  have hbfree := DeviceRepository.named_eq_none.mp hfree
  have hne : bindText b ≠ bindText a := fun heq => hbfree x hmem (hname.trans heq.symm)
  have hrow : boundRow ((readDevice x).upsert a b) = { x.2 with name := bindText b } :=
    hrereads x hmem x.1 a b
  -- the rows of the renamed table
  obtain ⟨-, hrows, -⟩ := AutoTable.update?_eq_some.mp h.row
  have hrenamed : named b { t with device := v, dataPoint := w } =
      some (x.1, { x.2 with name := bindText b }) := by
    refine DeviceRepository.named_eq_some.mpr ⟨?_, rfl⟩
    show _ ∈ v.rows
    rw [hrows]
    refine List.mem_map.mpr ⟨x, hmem, ?_⟩
    rw [AutoTable.updateRow, if_pos (decide_eq_true hname), hrow]
  have hgone : named a { t with device := v, dataPoint := w } = none := by
    refine DeviceRepository.named_eq_none.mpr fun y hy => ?_
    obtain ⟨z, -, rfl⟩ := List.mem_map.mp (hrows ▸ hy)
    unfold AutoTable.updateRow
    split
    · exact hne
    · next hz => exact fun heq => hz (decide_eq_true heq)
  refine ⟨{ t with device := v, dataPoint := w },
    exec_rename ha hx rfl rfl hfree (updateEffect_eq h.row) (renameEffect_eq h.points),
    ⟨_, SQLiteManager.exec_getDataPointsByDeviceName, ?_⟩, ?_,
    exec_rename hb hrenamed rfl rfl hgone (updateEffect_eq h.rowBack) (renameEffect_eq h.pointsBack)⟩
  · have hinto : w.select (fun r => r.dName = some (bindText b)) =
        (t.dataPoint.select fun r => r.dName = some (bindText a)).map fun y =>
          (y.1, { y.2 with dName := some (bindText b) }) :=
      AutoTable.select_update?_into h.points (fun r _ _ => decide_eq_true rfl) fun r hr _ =>
        decide_eq_false (hintegrity.dName_ne hfree hr)
    rw [SQLiteManager.exec_getDataPointsByDeviceName]
    simp only [hinto, List.map_map]
    refine congrArg (fun points => (Except.ok points, _)) (List.map_congr_left fun y _ => ?_)
    exact readPoint_rename y
  · have hout : w.select (fun r => r.dName = some (bindText a)) = [] :=
      AutoTable.select_update?_out h.points fun r _ _ =>
        decide_eq_false fun heq => hne (Option.some.inj heq)
    rw [SQLiteManager.exec_getDataPointsByDeviceName]
    simp only [hout, List.map_nil]

end Rename

/-- After every run, for every device, found under a name that is not empty, and every name that is
not empty and no device's: renaming the device, with everything else as it is stored, succeeds and
takes its data points along, and renaming it back leaves the tables as they were. -/
theorem rename_back (events : List Event) {a b : Str} {device : Device} (ha : a ≠ []) (hb : b ≠ [])
    (hdevice : (SQLiteManager.getDeviceByName a).exec (runEvents .empty events) =
      (.ok device, runEvents .empty events))
    (hfree : (SQLiteManager.deviceExists b).exec (runEvents .empty events) =
      (.ok false, runEvents .empty events)) :
    ∃ t', (SQLiteManager.updateDevice (device.upsert a b)).exec (runEvents .empty events) =
        (.ok (), t') ∧
      (∃ points, (SQLiteManager.getDataPointsByDeviceName a).exec (runEvents .empty events) =
          (.ok points, runEvents .empty events) ∧
        (SQLiteManager.getDataPointsByDeviceName b).exec t' =
          (.ok (points.map fun point => { point with deviceName := cString b }), t')) ∧
      (SQLiteManager.getDataPointsByDeviceName a).exec t' = (.ok [], t') ∧
      (SQLiteManager.updateDevice (device.upsert b a)).exec t' =
        (.ok (), runEvents .empty events) := by
  rw [SQLiteManager.exec_getDeviceByName] at hdevice
  rw [SQLiteManager.exec_deviceExists] at hfree
  cases hx : named a (runEvents .empty events) with
  | none =>
    rw [hx] at hdevice
    cases congrArg Prod.fst hdevice
  | some x =>
    rw [hx] at hdevice
    obtain rfl : readDevice x = device := Except.ok.inj (congrArg Prod.fst hdevice)
    have hnone : named b (runEvents .empty events) = none := by
      cases hb : named b (runEvents .empty events) with
      | none => rfl
      | some y =>
        rw [hb] at hfree
        cases congrArg Prod.fst hfree
    exact rename_back_of_integrity (runEvents_integrity integrity_empty events)
      (runEvents_rereads rereads_empty events) ha hb hx hnone

/-- The row of `A`, as it is read. -/
def storedA : Device where
  id := 1
  name := lit "A"
  ip := lit "127.0.0.1"
  port := 9001
  sampleIntervalMs := 1000
  status := 1
  model := lit "M"

/-- The device `A` and its data point go to `B` and come back. -/
theorem rename_back_createA : ∃ t',
    (SQLiteManager.updateDevice (storedA.upsert (lit "A") (lit "B"))).exec
      (runEvents .empty [createA]) = (.ok (), t') ∧
    (∃ points, (SQLiteManager.getDataPointsByDeviceName (lit "A")).exec (runEvents .empty [createA]) =
        (.ok points, runEvents .empty [createA]) ∧
      (SQLiteManager.getDataPointsByDeviceName (lit "B")).exec t' =
        (.ok (points.map fun point => { point with deviceName := lit "B" }), t')) ∧
    (SQLiteManager.getDataPointsByDeviceName (lit "A")).exec t' = (.ok [], t') ∧
    (SQLiteManager.updateDevice (storedA.upsert (lit "B") (lit "A"))).exec t' =
      (.ok (), runEvents .empty [createA]) := by
  have hrow : named (lit "A") (runEvents .empty [createA]) =
      some (1, boundRow deviceA) := by decide +kernel
  have hnone : named (lit "B") (runEvents .empty [createA]) = none := by decide +kernel
  refine rename_back [createA] (by decide) (by decide) ?_ ?_
  · have hread : readDevice (1, boundRow deviceA) = storedA := by decide +kernel
    rw [SQLiteManager.exec_getDeviceByName, hrow]
    simp only [hread]
  · rw [SQLiteManager.exec_deviceExists, hnone]
    rfl

/-- A creation whose device name is a NUL byte. -/
def createNul : Event := .request oneModel .createDevice (lit
  ("\x7b\"category\":\"create_device\",\"params\":\x7b\"device_name\":\"\x00\"," ++
    "\"model\":\"M\"\x7d\x7d"))

/-- The device that it stores, as it is read. -/
def storedNul : Device := { storedA with name := [] }

/-- It has an empty name, under which no rename finds it. -/
theorem createNul_not_renamed :
    ((SQLiteManager.getDeviceByName []).exec (runEvents .empty [createNul])).1 = .ok storedNul ∧
      ((SQLiteManager.deviceExists (lit "B")).exec (runEvents .empty [createNul])).1 = .ok false ∧
      ((SQLiteManager.updateDevice (storedNul.upsert [] (lit "B"))).exec
        (runEvents .empty [createNul])).1 = .error (lit "device not found: B") := by
  decide +kernel

end CollectorService
