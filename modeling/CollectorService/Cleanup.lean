import CollectorService.Retention

/-!
# The two cleanups

`cleanupResources` ranks the rows of every device at once, `cleanupResourcesForDevice` those of one
device. Both delete what is ranked beyond the limit.

* `cleanupDevice_newest`: a device keeps its newest rows, and the other devices keep all of theirs.
* `cleanupEach_eq`: cleaning up device by device, in any order, is cleaning up all at once.
* `cleanup_newest`: both, for the calls of the manager.
-/

namespace CollectorService

open ResourceRepository (rankKey ofDevice)
open ResourceRetentionService (rowsBeyond cleanupEffect cleanupDeviceEffect)
open Ranking (Greatest)

/-! ## 1. One device -/

/-- After the cleanup of `deviceName`, its rows are the `n` greatest by `(SvrTime, Id)`; every other
row, and the other tables, are as they were. -/
structure KeepsNewest (n : ℕ) (deviceName : Str) (t u : Database) : Prop where
  newest : Greatest rankKey n (ofDevice deviceName t) (ofDevice deviceName u)
  others : ∀ other, other ≠ some (bindText deviceName) → partitionOf other u = partitionOf other t
  subset : ∀ x ∈ u.resources.rows, x ∈ t.resources.rows
  seq : u.resources.seq = t.resources.seq
  device : u.device = t.device
  dataPoint : u.dataPoint = t.dataPoint

section Device
variable {t : Database} {n : ℤ} {deviceName : Str} {x : ℕ × ResourceRow}

/-- The ids that the statement for one device selects. -/
theorem mem_ids_rowsBeyond (hx : x ∈ t.resources.rows) :
    x.1 ∈ (rowsBeyond n (ofDevice deviceName t)).map (·.1) ↔
      x ∈ rowsBeyond n (partitionOf (some (bindText deviceName)) t) :=
  mem_ids_iff (fun _ hy => (mem_of_mem_rowsBeyond hy).1) hx

theorem cleanupDevice_newest (n : ℤ) (deviceName : Str) (t : Database) :
    KeepsNewest n.toNat deviceName t (cleanupDeviceEffect deviceName n t) where
  newest := by
    have hfilter : ofDevice deviceName (cleanupDeviceEffect deviceName n t) = _ :=
      @partitionOf_deleteWhere _ (some (bindText deviceName)) _
    rw [hfilter]
    refine Ranking.greatest_filter (partitionOf_keys _ t) fun x hx => ?_
    rw [Bool.not_eq_true', decide_eq_false_iff_not, mem_ids_rowsBeyond (mem_partitionOf.mp hx).1]
    rfl
  others other hother := by
    have hfilter : partitionOf other (cleanupDeviceEffect deviceName n t) = _ :=
      partitionOf_deleteWhere _
    rw [hfilter, List.filter_eq_self]
    intro x hx
    obtain ⟨hrow, hname⟩ := mem_partitionOf.mp hx
    rw [Bool.not_eq_true', decide_eq_false_iff_not, mem_ids_rowsBeyond hrow]
    exact fun hbeyond => hother (hname.symm.trans (mem_of_mem_rowsBeyond hbeyond).2)
  subset x hx := (AutoTable.mem_deleteWhere.mp hx).1
  seq := rfl
  device := rfl
  dataPoint := rfl

end Device

/-! ## 2. Device by device -/

/-- Clean up the devices of a list, one after the other. -/
def cleanupEach (n : ℤ) (names : List SqlText) (t : Database) : Database :=
  names.foldl (fun t name => cleanupDeviceEffect name.bytes n t) t

/-- What is left once the devices of `names` have been cleaned up. -/
def isKept (n : ℤ) (t : Database) (names : List SqlText) (x : ℕ × ResourceRow) : Bool :=
  !((x.2.deviceName.any fun name => name ∈ names) &&
    decide (x ∈ rowsBeyond n (partitionOf x.2.deviceName t)))

section Each
variable {t u : Database} {n : ℤ}

/-- A device whose rows are all there is cleaned up as if it were the first. -/
theorem rows_cleanupDevice {name : SqlText}
    (hsame : partitionOf (some name) u = partitionOf (some name) t) :
    (cleanupDeviceEffect name.bytes n u).resources.rows = u.resources.rows.filter fun x =>
      !decide (x.2.deviceName = some name ∧ x ∈ rowsBeyond n (partitionOf x.2.deviceName t)) := by
  refine List.filter_congr fun x hx => congrArg (!·) (decide_eq_decide.mpr ?_)
  rw [mem_ids_rowsBeyond hx, bindText_bytes, hsame]
  constructor
  · intro hbeyond
    have hname := (mem_of_mem_rowsBeyond hbeyond).2
    exact ⟨hname, hname ▸ hbeyond⟩
  · rintro ⟨hname, hbeyond⟩
    rwa [hname] at hbeyond

/-- Each device of the list loses what is ranked beyond its limit in the first table. -/
theorem rows_cleanupEach : ∀ {names done : List SqlText} {u : Database},
    (done ++ names).Nodup → u.resources.rows = t.resources.rows.filter (isKept n t done) →
    (cleanupEach n names u).resources.rows = t.resources.rows.filter (isKept n t (done ++ names))
  | [], done, u, _, hu => by
    rw [List.append_nil]
    exact hu
  | name :: names, done, u, hnodup, hu => by
    have hnew : name ∉ done := fun hmem =>
      (List.nodup_append'.mp hnodup).2.2 hmem List.mem_cons_self
    have hsame : partitionOf (some name) u = partitionOf (some name) t := by
      rw [partitionOf, AutoTable.select, hu, List.filter_filter, partitionOf, AutoTable.select]
      refine List.filter_congr fun x _ => ?_
      -- the rows of this device have not been touched yet
      by_cases hx : x.2.deviceName = some name
      · simp [isKept, hx, hnew]
      · simp [hx]
    have hstep : (cleanupDeviceEffect name.bytes n u).resources.rows =
        t.resources.rows.filter (isKept n t (done ++ [name])) := by
      rw [rows_cleanupDevice hsame, hu, List.filter_filter]
      refine List.filter_congr fun x _ => ?_
      cases hx : x.2.deviceName with
      | none => simp [isKept, hx]
      | some other =>
        by_cases hother : other = name
        · simp [isKept, hx, hother, hnew]
        · simp [isKept, hx, hother]
    rw [List.append_cons] at hnodup ⊢
    exact rows_cleanupEach hnodup hstep

theorem cleanupEach_resources (n : ℤ) (names : List SqlText) (t : Database) :
    (cleanupEach n names t).resources.seq = t.resources.seq ∧
      (cleanupEach n names t).device = t.device ∧ (cleanupEach n names t).dataPoint = t.dataPoint := by
  induction names generalizing t with
  | nil => exact ⟨rfl, rfl, rfl⟩
  | cons name names ih => exact ih (cleanupDeviceEffect name.bytes n t)

/-- Cleaning up every device, in any order, leaves what cleaning up all of them at once leaves. -/
theorem cleanupEach_eq {names : List SqlText} (hnodup : names.Nodup)
    (hnames : ∀ x ∈ t.resources.rows, ∃ name ∈ names, x.2.deviceName = some name) :
    cleanupEach n names t = cleanupEffect n t := by
  obtain ⟨hseq, hdevice, hpoint⟩ := cleanupEach_resources n names t
  have hstart : t.resources.rows = t.resources.rows.filter (isKept n t []) := by
    refine (List.filter_eq_self.mpr fun x _ => ?_).symm
    cases hx : x.2.deviceName <;> simp [isKept, hx]
  have hrows := @rows_cleanupEach _ _ _ [] _ (by simpa using hnodup) hstart
  refine Database.ext hdevice hpoint (AutoTable.ext (hrows.trans ?_) hseq)
  refine List.filter_congr fun x hx => ?_
  obtain ⟨name, hmem, hname⟩ := hnames x hx
  have hkept : isKept n t names x = !decide (x ∈ rowsBeyond n (partitionOf x.2.deviceName t)) := by
    simp [isKept, hname, hmem]
  have hbeyond : x.1 ∈ ((t.resources.rows.filter fun x =>
      x ∈ rowsBeyond n (t.resources.select fun r => r.deviceName = x.2.deviceName)).map (·.1)) ↔
      x ∈ rowsBeyond n (partitionOf x.2.deviceName t) := by
    rw [mem_ids_iff (fun y hy => (List.mem_filter.mp hy).1) hx]
    simp only [List.mem_filter, hx, true_and, decide_eq_true_eq]
    rfl
  exact hkept.trans (congrArg (!·) (decide_eq_decide.mpr hbeyond.symm))

end Each

/-! ## 3. The calls of the manager -/

/-- The calls `cleanupResourcesForDevice(name, n)` for the names of a list, one after the other. -/
def cleanupForEach (n : ℤ) (names : List SqlText) (t : Database) : Database :=
  names.foldl (fun t name => ((SQLiteManager.cleanupResourcesForDevice name.bytes n).exec t).2) t

theorem cleanupForEach_eq {n : ℤ} (hn : 0 < n) {names : List SqlText}
    (hnonempty : ∀ name ∈ names, name.bytes ≠ []) (t : Database) :
    cleanupForEach n names t = cleanupEach n names t := by
  induction names generalizing t with
  | nil => rfl
  | cons name names ih =>
    obtain ⟨hname, hrest⟩ := List.forall_mem_cons.mp hnonempty
    rw [cleanupForEach, List.foldl_cons, SQLiteManager.exec_cleanupResourcesForDevice hn hname]
    exact ih hrest _

/-- `cleanupResourcesForDevice` keeps the newest rows of the device and all rows of the others. In a
table without nameless rows, calling it once for every device name, in any order, leaves the table
that `cleanupResources` leaves. -/
theorem cleanup_newest (t : Database) (n : ℤ) (hn : 0 < n) :
    (∀ deviceName : Str, deviceName ≠ [] → ∃ u,
      (SQLiteManager.cleanupResourcesForDevice deviceName n).exec t = (.ok (), u) ∧
        KeepsNewest n.toNat deviceName t u) ∧
    ((∀ x ∈ t.resources.rows, ∃ name, x.2.deviceName = some name ∧ name.bytes ≠ []) →
      ∀ names : List SqlText, names.Nodup →
        (∀ name, name ∈ names ↔ ∃ x ∈ t.resources.rows, x.2.deviceName = some name) →
        (SQLiteManager.cleanupResources n).exec t = (.ok (), cleanupForEach n names t)) := by
  constructor
  · intro deviceName hname
    exact ⟨_, SQLiteManager.exec_cleanupResourcesForDevice hn hname,
      cleanupDevice_newest n deviceName t⟩
  · intro hnamed names hnodup hnames
    have hnonempty : ∀ name ∈ names, name.bytes ≠ [] := by
      intro name hmem
      obtain ⟨x, hx, hxname⟩ := (hnames name).mp hmem
      obtain ⟨name', hname', hne⟩ := hnamed x hx
      rw [hxname] at hname'
      cases hname'
      exact hne
    have hall : ∀ x ∈ t.resources.rows, ∃ name ∈ names, x.2.deviceName = some name := by
      intro x hx
      obtain ⟨name, hname, -⟩ := hnamed x hx
      exact ⟨name, (hnames name).mpr ⟨x, hx, hname⟩, hname⟩
    rw [SQLiteManager.exec_cleanupResources hn, cleanupForEach_eq hn hnonempty,
      cleanupEach_eq hnodup hall]

/-- Three records of two devices, of which one device has two. -/
def threeRecords : Database :=
  runRetention .empty [.insertResources
    [{ deviceName := lit "A", data := lit "[1]", svrTime := .ofRat 20 },
      { deviceName := lit "B", data := lit "[2]", svrTime := .ofRat 10 },
      { deviceName := lit "A", data := lit "[3]", svrTime := .ofRat 10 }]]

theorem cleanup_newest_threeRecords :
    (∃ u, (SQLiteManager.cleanupResourcesForDevice (lit "A") 1).exec threeRecords = (.ok (), u) ∧
      KeepsNewest 1 (lit "A") threeRecords u) ∧
    (SQLiteManager.cleanupResources 1).exec threeRecords =
      (.ok (), cleanupForEach 1 [bindText (lit "B"), bindText (lit "A")] threeRecords) := by
  have hrows : threeRecords.resources.rows.map (·.2.deviceName) =
      [some (bindText (lit "A")), some (bindText (lit "B")), some (bindText (lit "A"))] := by
    decide +kernel
  have hiff : ∀ deviceName, (∃ x ∈ threeRecords.resources.rows, x.2.deviceName = deviceName) ↔
      deviceName = some (bindText (lit "A")) ∨ deviceName = some (bindText (lit "B")) := by
    intro deviceName
    rw [← List.mem_map, hrows]
    simp [or_comm]
  have h := cleanup_newest threeRecords 1 (by decide)
  refine ⟨h.1 (lit "A") (by decide), h.2 (fun x hx => ?_) _ (by decide) fun name => ?_⟩
  · rcases (hiff _).mp ⟨x, hx, rfl⟩ with hname | hname
    · exact ⟨_, hname, by decide⟩
    · exact ⟨_, hname, by decide⟩
  · rw [hiff]
    simp [or_comm]

end CollectorService
