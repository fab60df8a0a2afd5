import CollectorService.SQLiteManager

/-!
# Retention and the latest records

The collection loop inserts batches of records and now and then cuts a device's records down to the
newest ones. The query for the latest records reads 100 rows.

* `SameLatest`: two tables that no query for the latest records can tell apart, now or after the
  same insertions.
* `latest_runRetention`: cleaning up to 100 rows or more never changes what the query returns,
  over any sequence of insertions and cleanups.
-/

namespace CollectorService

open ResourceRepository (rankKey ofDevice readRecord)
open ResourceRetentionService (rowsBeyond cleanupEffect cleanupDeviceEffect)

/-- The rows that `PARTITION BY DeviceName` puts together. -/
def partitionOf (deviceName : Option SqlText) (t : Database) : List (ℕ × ResourceRow) :=
  t.resources.select fun r => r.deviceName = deviceName

/-- The records that `getLatestResources` returns. -/
def latest (deviceName : Str) (t : Database) : Except Str (List ResourceRecord) :=
  ((SQLiteManager.getLatestResources deviceName).exec t).1

/-! ## 1. Operations on `Resources` -/

inductive RetentionOp where
  | insertResources (records : List ResourceRecord)
  | cleanupResources (maxRowsPerDevice : ℤ)
  | cleanupResourcesForDevice (deviceName : Str) (maxRows : ℤ)

namespace RetentionOp

def apply (t : Database) : RetentionOp → Database
  | insertResources records => ((SQLiteManager.insertResources records).exec t).2
  | cleanupResources maxRows => ((SQLiteManager.cleanupResources maxRows).exec t).2
  | cleanupResourcesForDevice deviceName maxRows =>
    ((SQLiteManager.cleanupResourcesForDevice deviceName maxRows).exec t).2

def isInsert : RetentionOp → Bool
  | insertResources _ => true
  | _ => false

/-- A cleanup keeps at least `n` rows of a device. -/
def KeepsAtLeast (n : ℤ) : RetentionOp → Prop
  | insertResources _ => True
  | cleanupResources maxRows => n ≤ maxRows
  | cleanupResourcesForDevice _ maxRows => n ≤ maxRows

end RetentionOp

def runRetention (t : Database) (ops : List RetentionOp) : Database :=
  ops.foldl RetentionOp.apply t

/-! ## 2. Partitions and their ranking -/

section Partition
variable {t u : Database} {deviceName : Option SqlText} {x : ℕ × ResourceRow}

theorem mem_partitionOf :
    x ∈ partitionOf deviceName t ↔ x ∈ t.resources.rows ∧ x.2.deviceName = deviceName := by
  simp [partitionOf, AutoTable.mem_select]

/-- Rows that differ in their ids differ in their rank. -/
theorem rankKey_nodup {l : List (ℕ × ResourceRow)} (h : (l.map (·.1)).Nodup) :
    (l.map rankKey).Nodup := by
  refine List.Nodup.of_map (fun k => (ofLex k).2) ?_
  rw [List.map_map]
  exact h

theorem partitionOf_keys (deviceName : Option SqlText) (t : Database) :
    ((partitionOf deviceName t).map rankKey).Nodup :=
  rankKey_nodup (t.resources.ids_nodup.sublist (List.filter_sublist.map _))

theorem partitionOf_deleteWhere (p : ℕ × ResourceRow → Bool) :
    partitionOf deviceName { t with resources := t.resources.deleteWhere p } =
      (partitionOf deviceName t).filter fun x => !p x := by
  simp only [partitionOf, AutoTable.select, AutoTable.deleteWhere, List.filter_filter]
  exact List.filter_congr fun x _ => Bool.and_comm _ _

/-- Deleting rows beyond place `m` of the partition, or none, leaves its first `n` places when
`n ≤ m`. -/
theorem top_deleteWhere {p : ℕ × ResourceRow → Bool} {n : ℕ} {m : ℤ} (hm : (n : ℤ) ≤ m)
    (h : (∀ x ∈ partitionOf deviceName t, p x = false) ∨
      ∀ x ∈ partitionOf deviceName t, p x = true ↔ x ∈ rowsBeyond m (partitionOf deviceName t)) :
    Ranking.top rankKey n
        (partitionOf deviceName { t with resources := t.resources.deleteWhere p }) =
      Ranking.top rankKey n (partitionOf deviceName t) := by
  rw [partitionOf_deleteWhere]
  rcases h with hnone | hbeyond
  · rw [List.filter_eq_self.mpr fun x hx => by simp [hnone x hx]]
  · have hkept : Ranking.ranked rankKey ((partitionOf deviceName t).filter fun x => !p x) =
        Ranking.top rankKey m.toNat (partitionOf deviceName t) := by
      refine Ranking.ranked_filter_top (partitionOf_keys deviceName t) fun x hx => ?_
      have hx' := hbeyond x hx
      simpa [rowsBeyond] using not_congr hx'
    have hle : n ≤ m.toNat := by omega
    show (Ranking.ranked rankKey _).take n = _
    rw [hkept, Ranking.take_top hle]

/-- `WHERE Id IN (...)` selects the rows with these ids. -/
theorem mem_ids_iff {rows : List (ℕ × ResourceRow)} (hrows : ∀ y ∈ rows, y ∈ t.resources.rows)
    (hx : x ∈ t.resources.rows) : x.1 ∈ rows.map (·.1) ↔ x ∈ rows := by
  constructor
  · intro h
    obtain ⟨y, hy, heq⟩ := List.mem_map.mp h
    exact AutoTable.eq_of_id_eq (hrows y hy) hx heq ▸ hy
  · intro h
    exact List.mem_map_of_mem h

theorem mem_of_mem_rowsBeyond {m : ℤ} (h : x ∈ rowsBeyond m (partitionOf deviceName t)) :
    x ∈ t.resources.rows ∧ x.2.deviceName = deviceName :=
  mem_partitionOf.mp (Ranking.mem_ranked.mp (List.mem_of_mem_drop h))

end Partition

/-! ## 3. Two tables with the same latest records -/

/-- The tables hand out the same next id, and every device has the same first `n` rows. -/
structure SameTop (n : ℕ) (t u : Database) : Prop where
  seq : t.resources.seq = u.resources.seq
  top : ∀ deviceName, Ranking.top rankKey n (partitionOf deviceName t) =
    Ranking.top rankKey n (partitionOf deviceName u)

namespace SameTop

variable {n : ℕ} {t u : Database}

theorem refl (n : ℕ) (t : Database) : SameTop n t t := ⟨rfl, fun _ => rfl⟩

theorem trans {v : Database} (h : SameTop n t u) (h' : SameTop n u v) : SameTop n t v :=
  ⟨h.seq.trans h'.seq, fun deviceName => (h.top deviceName).trans (h'.top deviceName)⟩

/-- The same row arrives in both tables. -/
theorem insert {t' u' : ResourceTable} {r : ResourceRow} (h : SameTop n t u)
    (ht : t.resources.insert? r = some t') (hu : u.resources.insert? r = some u') :
    SameTop n { t with resources := t' } { u with resources := u' } := by
  obtain ⟨-, htrows, htseq⟩ := AutoTable.insert?_eq_some.mp ht
  obtain ⟨-, hurows, huseq⟩ := AutoTable.insert?_eq_some.mp hu
  refine ⟨by simp [htseq, huseq, h.seq], fun deviceName => ?_⟩
  have htop := h.top deviceName
  have hkeys_t := partitionOf_keys deviceName { t with resources := t' }
  have hkeys_u := partitionOf_keys deviceName { u with resources := u' }
  simp only [partitionOf, AutoTable.select, htrows, hurows, List.filter_append, ← h.seq]
    at htop hkeys_t hkeys_u ⊢
  by_cases hname : r.deviceName = deviceName
  · simp only [hname, decide_true, List.filter_cons_of_pos, List.filter_nil] at hkeys_t hkeys_u ⊢
    exact Ranking.top_append_singleton hkeys_t hkeys_u htop
  · simpa [hname] using htop

theorem insertAll : ∀ {rows : List ResourceRow} {t u : Database} {t' u' : ResourceTable},
    SameTop n t u → t.resources.insertAll? rows = some t' → u.resources.insertAll? rows = some u' →
    SameTop n { t with resources := t' } { u with resources := u' }
  | [], t, u, t', u', h, ht, hu => by
    cases ht
    cases hu
    exact h
  | r :: rows, t, u, t', u', h, ht, hu => by
    obtain ⟨t₁, ht₁, ht⟩ := Option.bind_eq_some_iff.mp ht
    obtain ⟨u₁, hu₁, hu⟩ := Option.bind_eq_some_iff.mp hu
    exact (h.insert ht₁ hu₁).insertAll (t := { t with resources := t₁ })
      (u := { u with resources := u₁ }) ht hu

theorem cleanupEffect {m : ℤ} (hm : (n : ℤ) ≤ m) (t : Database) :
    SameTop n (cleanupEffect m t) t := by
  refine ⟨rfl, fun deviceName => top_deleteWhere hm (.inr fun x hx => ?_)⟩
  obtain ⟨hrow, hname⟩ := mem_partitionOf.mp hx
  rw [decide_eq_true_iff, mem_ids_iff (fun y hy => (List.mem_filter.mp hy).1) hrow]
  simp only [List.mem_filter, hrow, true_and, decide_eq_true_eq, hname]
  rfl

theorem cleanupDeviceEffect {m : ℤ} (hm : (n : ℤ) ≤ m) (name : Str) (t : Database) :
    SameTop n (cleanupDeviceEffect name m t) t := by
  refine ⟨rfl, fun deviceName => top_deleteWhere hm ?_⟩
  have hids : ∀ x ∈ partitionOf deviceName t, (x.1 ∈ (rowsBeyond m (ofDevice name t)).map (·.1) ↔
      x ∈ rowsBeyond m (partitionOf (some (bindText name)) t)) := fun x hx =>
    mem_ids_iff (fun y hy => (mem_of_mem_rowsBeyond hy).1) (mem_partitionOf.mp hx).1
  by_cases hdev : deviceName = some (bindText name)
  · right
    intro x hx
    rw [decide_eq_true_iff, hids x hx, hdev]
  · left
    intro x hx
    rw [decide_eq_false_iff_not, hids x hx]
    intro hmem
    exact hdev ((mem_partitionOf.mp hx).2.symm.trans (mem_of_mem_rowsBeyond hmem).2)

/-- The query for the latest records looks at the first 100 rows only. -/
theorem latest_eq (h : SameTop 100 t u) (deviceName : Str) :
    latest deviceName t = latest deviceName u := by
  have htop := h.top (some (bindText deviceName))
  simp only [latest, SQLiteManager.exec_getLatestResources]
  exact congrArg (fun rows => Except.ok (rows.map readRecord)) htop

end SameTop

/-! ## 4. Whole runs -/

section Runs
variable {n : ℕ} {t u : Database} {op : RetentionOp}

theorem RetentionOp.apply_insert (h : SameTop n t u) (records : List ResourceRecord) :
    SameTop n ((insertResources records).apply t) ((insertResources records).apply u) := by
  obtain ⟨t', ht, hrunt⟩ := SQLiteManager.exec_insertResources t records
  obtain ⟨u', hu, hrunu⟩ := SQLiteManager.exec_insertResources u records
  simp only [apply, hrunt, hrunu]
  exact h.insertAll ht hu

theorem RetentionOp.apply_cleanup (hn : 0 < n) (hop : op.KeepsAtLeast n)
    (hinsert : op.isInsert = false) : SameTop n (op.apply t) t := by
  cases op with
  | insertResources records => cases hinsert
  | cleanupResources m =>
    have hm : (n : ℤ) ≤ m := hop
    simp only [apply, SQLiteManager.exec_cleanupResources (show 0 < m by omega)]
    exact .cleanupEffect hm t
  | cleanupResourcesForDevice name m =>
    have hm : (n : ℤ) ≤ m := hop
    by_cases hname : name = []
    · subst hname
      simp only [apply, SQLiteManager.exec_cleanupResourcesForDevice_nil]
      exact .refl n t
    · simp only [apply, SQLiteManager.exec_cleanupResourcesForDevice (show 0 < m by omega) hname]
      exact .cleanupDeviceEffect hm name t

/-- Leaving out the cleanups of a run does not change any device's first `n` rows. -/
theorem sameTop_runRetention (hn : 0 < n) : ∀ {ops : List RetentionOp} {t u : Database},
    SameTop n t u → (∀ op ∈ ops, op.KeepsAtLeast n) →
    SameTop n (runRetention t ops) (runRetention u (ops.filter RetentionOp.isInsert))
  | [], _, _, h, _ => h
  | op :: ops, t, u, h, hops => by
    obtain ⟨hop, hrest⟩ := List.forall_mem_cons.mp hops
    cases hinsert : op.isInsert with
    | false =>
      rw [List.filter_cons_of_neg (by simp [hinsert])]
      show SameTop n (runRetention (op.apply t) ops) _
      exact sameTop_runRetention hn ((RetentionOp.apply_cleanup hn hop hinsert).trans h) hrest
    | true =>
      rw [List.filter_cons_of_pos hinsert]
      cases op with
      | insertResources records =>
        have hstep := RetentionOp.apply_insert h records
        show SameTop n (runRetention (RetentionOp.apply t (.insertResources records)) ops)
          (runRetention (RetentionOp.apply u (.insertResources records)) _)
        exact sameTop_runRetention hn hstep hrest
      | cleanupResources m => cases hinsert
      | cleanupResourcesForDevice name m => cases hinsert

end Runs

/-- Retention never changes what the query for the latest records returns: a run of insertions and
cleanups that keep 100 rows or more gives every device the latest records that the run without its
cleanups gives. -/
theorem latest_runRetention (t : Database) (ops : List RetentionOp)
    (hops : ∀ op ∈ ops, op.KeepsAtLeast 100) (deviceName : Str) :
    latest deviceName (runRetention t ops) =
      latest deviceName (runRetention t (ops.filter RetentionOp.isInsert)) :=
  (sameTop_runRetention (by omega) (SameTop.refl 100 t) hops).latest_eq deviceName

/-- Two batches, the second one with an older time, and a cleanup after each. -/
def twoBatches : List RetentionOp :=
  [.insertResources [{ deviceName := lit "M1", data := lit "[1]", svrTime := .ofRat 20 }],
    .cleanupResourcesForDevice (lit "M1") 5000,
    .insertResources [{ deviceName := lit "M1", data := lit "[2]", svrTime := .ofRat 10 },
      { deviceName := lit "M2", data := lit "[3]", svrTime := .nan }],
    .cleanupResources 100]

theorem latest_runRetention_twoBatches :
    (∀ op ∈ twoBatches, op.KeepsAtLeast 100) ∧
      latest (lit "M1") (runRetention .empty twoBatches) =
        latest (lit "M1") (runRetention .empty (twoBatches.filter RetentionOp.isInsert)) :=
  have hkeeps : ∀ op ∈ twoBatches, op.KeepsAtLeast 100 := by
    simp [twoBatches, RetentionOp.KeepsAtLeast]
  ⟨hkeeps, latest_runRetention .empty twoBatches hkeeps (lit "M1")⟩

end CollectorService
