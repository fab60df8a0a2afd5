import CollectorService.Start

/-!
# Data points that are replaced and read back

`replaceForDevice` deletes the rows of a device and inserts one row for each point, in one
transaction. A text is bound as a C string, so what stands behind a NUL byte is lost, and two paths
that differ only there are one path to the constraint of the table.

* `read_replaced`: what a read finds after a replacement.
* `replaceThenRead_iff`: the lists of points that come back as they were given.
-/

namespace CollectorService

open DataPointRepository (boundRow deleteEffect readPoint)
open DeviceRepository (readDevice)

/-! ## 1. Points as they are stored -/

/-- A point but for its id, which the table gives. -/
def DataPoint.withoutId (point : DataPoint) : DataPoint := { point with id := 0 }

/-- The point of a device, but for its id. -/
def DataPoint.ofDevice (device : Device) (point : DataPoint) : DataPoint :=
  { point with id := 0, deviceId := device.id, deviceName := device.name }

/-- The texts of a point are C strings. -/
structure DataPoint.NulFree (point : DataPoint) : Prop where
  namePath : (0 : UInt8) ∉ point.namePath
  itemPath : (0 : UInt8) ∉ point.itemPath
  itemName : (0 : UInt8) ∉ point.itemName
  itemDescription : (0 : UInt8) ∉ point.itemDescription

section Stored
variable {x : ℕ × DeviceRow} {point : DataPoint}

theorem cString_eq_self_iff {value : Str} : cString value = value ↔ (0 : UInt8) ∉ value :=
  ⟨fun h => h ▸ zero_notMem_cString value, cString_of_notMem⟩

theorem bindText_inj_of_notMem {value value' : Str} (h : (0 : UInt8) ∉ value)
    (h' : (0 : UInt8) ∉ value') (heq : bindText value = bindText value') : value = value' := by
  have hbytes : cString value = cString value' := congrArg SqlText.bytes heq
  rwa [cString_of_notMem h, cString_of_notMem h'] at hbytes

theorem withoutId_readPoint (y : ℕ × DataPointRow) :
    (readPoint y).withoutId = (readPoint (0, y.2)).withoutId := by
  simp only [DataPoint.withoutId, readPoint]

theorem nodup_of_bindText {points : List DataPoint}
    (h : (points.map fun point => bindText point.namePath).Nodup) :
    (points.map (·.namePath)).Nodup := by
  rw [List.Nodup, List.pairwise_map] at h ⊢
  exact h.imp fun {a b} hab heq => hab (congrArg bindText heq)

/-- Distinct paths that are C strings are bound to distinct texts. -/
theorem nodup_bindText {points : List DataPoint} (h : (points.map (·.namePath)).Nodup)
    (hplain : ∀ point ∈ points, (0 : UInt8) ∉ point.namePath) :
    (points.map fun point => bindText point.namePath).Nodup := by
  rw [List.Nodup, List.pairwise_map] at h ⊢
  exact h.imp_of_mem fun {a b} ha hb hab heq =>
    hab (bindText_inj_of_notMem (hplain a ha) (hplain b hb) heq)

/-- What is read of a point that has been stored. -/
theorem readPoint_boundRow (id : ℕ) :
    (readPoint (id, boundRow (readDevice x) point)).withoutId =
      { DataPoint.ofDevice (readDevice x) point with
        namePath := cString point.namePath
        itemPath := cString point.itemPath
        itemName := cString point.itemName
        itemDescription := cString point.itemDescription } := by
  have hid : columnInt (some (readDevice x).id) = (readDevice x).id := by
    dsimp only [readDevice]
    exact columnInt_columnInt _
  have hname : cString (readDevice x).name = (readDevice x).name :=
    cString_of_notMem x.2.name.noNul
  generalize readDevice x = device at hid hname ⊢
  simp only [DataPoint.withoutId, DataPoint.ofDevice, readPoint, boundRow, hid, columnText,
    bindText, Option.map_some, Option.getD_some, hname]

/-- A point comes back as it was given exactly when its texts are C strings. -/
theorem readPoint_boundRow_iff (id : ℕ) :
    (readPoint (id, boundRow (readDevice x) point)).withoutId =
      DataPoint.ofDevice (readDevice x) point ↔ point.NulFree := by
  rw [readPoint_boundRow]
  simp only [DataPoint.ofDevice, DataPoint.mk.injEq, true_and, cString_eq_self_iff]
  exact ⟨fun ⟨h₁, h₂, h₃, h₄⟩ => ⟨h₁, h₂, h₃, h₄⟩,
    fun h => ⟨h.namePath, h.itemPath, h.itemName, h.itemDescription⟩⟩

end Stored

/-! ## 2. A replacement and a read -/

/-- With distinct paths the points replace those of the device: a read gives them in their order,
and the rows of all other devices are as before. With a repeated path the replacement throws and
leaves the tables as they were. -/
def ReplaceThenRead (x : ℕ × DeviceRow) (points : List DataPoint) (t : Database) : Prop :=
  let device := readDevice x
  let outcome := (SQLiteManager.replaceDataPointsForDevice device points).exec t
  ((points.map (·.namePath)).Nodup → outcome.1 = .ok () ∧
    (∃ read, ((SQLiteManager.getDataPointsByDeviceName device.name).exec outcome.2).1 = .ok read ∧
      read.map (·.withoutId) = points.map (·.ofDevice device)) ∧
    outcome.2.dataPoint.select (fun r => r.dName ≠ some x.2.name) =
      t.dataPoint.select fun r => r.dName ≠ some x.2.name) ∧
  (¬ (points.map (·.namePath)).Nodup → (∃ e, outcome.1 = .error e) ∧ outcome.2 = t)

section Replace
variable {x : ℕ × DeviceRow} {points : List DataPoint} {t : Database} {u : DataPointTable}

/-- What a read finds after a replacement. -/
theorem read_replaced (hu : (deleteEffect (readDevice x).name t).dataPoint.insertAll?
      (points.map (boundRow (readDevice x))) = some u) :
    ((u.select fun r => r.dName = some (bindText (readDevice x).name)).map readPoint).map
        (·.withoutId) =
      points.map fun point => (readPoint (0, boundRow (readDevice x) point)).withoutId := by
  have hrows := DataPointRepository.select_insertAll?_boundRow hu
  calc _ = ((u.select fun r => r.dName = some (bindText (readDevice x).name)).map (·.2)).map
        fun r => (readPoint (0, r)).withoutId := by
        rw [List.map_map, List.map_map]
        exact List.map_congr_left fun y _ => withoutId_readPoint y
    _ = _ := by rw [hrows, List.map_map, Function.comp_def]

/-- A replacement leaves the rows of other devices alone. -/
theorem others_replaced (hu : (deleteEffect (readDevice x).name t).dataPoint.insertAll?
      (points.map (boundRow (readDevice x))) = some u) :
    u.select (fun r => r.dName ≠ some x.2.name) =
      t.dataPoint.select fun r => r.dName ≠ some x.2.name := by
  have hname : bindText (readDevice x).name = x.2.name := bindText_bytes x.2.name
  rw [AutoTable.select_insertAll?_of_disjoint hu, deleteEffect,
    AutoTable.select_deleteWhere_of_disjoint]
  · intro y hy
    rw [hname] at hy
    simpa using hy
  · intro r hr
    obtain ⟨point, -, rfl⟩ := List.mem_map.mp hr
    simp [boundRow, hname]

/-- A replacement and a read agree exactly when the points are to be refused for a repeated path or
have only C strings for texts. -/
theorem replaceThenRead_iff (x : ℕ × DeviceRow) (points : List DataPoint) (t : Database) :
    ReplaceThenRead x points t ↔
      ((points.map (·.namePath)).Nodup → ∀ point ∈ points, point.NulFree) := by
  have hstored := DataPointRepository.insertAll?_boundRow_isSome (readDevice x) points t
  simp only [ReplaceThenRead, SQLiteManager.exec_replaceDataPointsForDevice,
    SQLiteManager.exec_getDataPointsByDeviceName]
  cases hins : (deleteEffect (readDevice x).name t).dataPoint.insertAll?
      (points.map (boundRow (readDevice x))) with
  | none =>
    rw [hins] at hstored
    have hrepeated : ¬ (points.map fun point => bindText point.namePath).Nodup := fun hnodup => by
      obtain ⟨u, ⟨⟩⟩ := hstored.mpr hnodup
    -- the constraint sees two paths that are one before a NUL byte
    constructor
    · intro h hnodup
      cases (h.1 hnodup).1
    · intro hplain
      refine ⟨fun hnodup => absurd (nodup_bindText hnodup fun point hpoint => ?_) hrepeated,
        fun _ => ⟨⟨_, rfl⟩, rfl⟩⟩
      exact (hplain hnodup point hpoint).namePath
  | some u =>
    have hread := read_replaced hins
    have hall : (points.map fun point => (readPoint (0, boundRow (readDevice x) point)).withoutId) =
        points.map (·.ofDevice (readDevice x)) ↔ ∀ point ∈ points, point.NulFree := by
      rw [List.map_inj_left]
      exact forall₂_congr fun point _ => readPoint_boundRow_iff 0
    have hnodup := nodup_of_bindText (hstored.mp ⟨u, hins⟩)
    constructor
    · intro h _
      obtain ⟨-, ⟨read, hok, hsame⟩, -⟩ := h.1 hnodup
      obtain rfl := Except.ok.inj hok
      exact hall.mp (hread.symm.trans hsame)
    · intro hplain
      refine ⟨fun _ => ⟨rfl, ⟨_, rfl, hread.trans (hall.mpr (hplain hnodup))⟩,
        others_replaced hins⟩, fun hrepeated => absurd hnodup hrepeated⟩

end Replace

/-- The path `/C/X`, a NUL byte and `suffix`. -/
def nulPath (suffix : Str) : DataPoint := { namePath := lit "/C/X" ++ 0 :: suffix }

/-- With a NUL byte in its path a point comes back shorter, and two points with different paths are
refused. -/
theorem not_replaceThenRead_nulPath :
    let t := ((SQLiteManager.createDevice { name := lit "A", model := lit "M1" }).exec .empty).2
    ∃ x ∈ t.device.rows, ¬ ReplaceThenRead x [nulPath (lit "Y")] t ∧
      ¬ ReplaceThenRead x [nulPath (lit "Y"), nulPath (lit "Z")] t := by
  refine ⟨(1, DeviceRepository.boundRow { name := lit "A", model := lit "M1" }), by decide,
    fun h => ?_, fun h => ?_⟩
  · obtain ⟨-, ⟨read, hok, hsame⟩, -⟩ := h.1 (by decide)
    obtain rfl := Except.ok.inj hok
    revert hsame
    decide +kernel
  · have hok := (h.1 (by decide)).1
    revert hok
    decide +kernel

end CollectorService
