import CollectorService.Cleanup
import CollectorService.OnConnection

/-!
# `Resources` as a log

What the readers of `Resources` see of a device is a log: its records from the newest down, where a new
record stands before those of the same time. An insertion that returns enters its records, a cleanup that
returns cuts the log, and a call that throws leaves no trace.

* `tables_acknowledged`: a run in which calls may fail is the run of the calls that returned.
* `log_of_run`: the table stands for the logs, and the query reads their first 100 records.
* `latest_of_ordered`: when the records of a device arrive in the order of their time, the query
  returns the last 100 of them, the last one first.
-/

namespace CollectorService

open ResourceRepository (boundRow rankKey ofDevice readRecord)
open ResourceRetentionService (rowsBeyond cleanupEffect cleanupDeviceEffect)

/-! ## 1. The log of a device -/

/-- Enter a record before the first one that is not newer. -/
def enter (log : List ResourceRow) (row : ResourceRow) : List ResourceRow :=
  log.orderedInsert (fun a b => b.svrTime ≤ a.svrTime) row

/-- The rows of a device among the records of a batch. -/
def rowsOf (name : SqlText) (records : List ResourceRecord) : List ResourceRow :=
  (records.map boundRow).filter fun row => row.deviceName = some name

/-- What an operation does to the log of a device. -/
def RetentionOp.applyLog (name : SqlText) (log : List ResourceRow) : RetentionOp → List ResourceRow
  | insertResources records => (rowsOf name records).foldl enter log
  | cleanupResources maxRows => if 0 < maxRows then log.take maxRows.toNat else log
  | cleanupResourcesForDevice deviceName maxRows =>
    if 0 < maxRows ∧ deviceName ≠ [] ∧ bindText deviceName = name then log.take maxRows.toNat
    else log

/-- The log that a table holds for a device. -/
def logOf (name : SqlText) (t : Database) : List ResourceRow :=
  (Ranking.ranked rankKey (partitionOf (some name) t)).map (·.2)

/-- A row, read back. -/
def readRow (row : ResourceRow) : ResourceRecord := readRecord (0, row)

section Log
variable {name : SqlText} {t : Database}

theorem latest_eq_logOf (deviceName : Str) (t : Database) :
    latest deviceName t = .ok (((logOf (bindText deviceName) t).take 100).map readRow) := by
  simp only [latest, SQLiteManager.exec_getLatestResources, logOf, ← List.map_take, List.map_map]
  rfl

/-- A new row is entered into the log of its device. -/
theorem logOf_insert? {u : ResourceTable} {row : ResourceRow}
    (h : t.resources.insert? row = some u) : logOf name { t with resources := u } =
      if row.deviceName = some name then enter (logOf name t) row else logOf name t := by
  obtain ⟨-, hrows, -⟩ := AutoTable.insert?_eq_some.mp h
  have hkeys := partitionOf_keys (some name) { t with resources := u }
  have hpartition : partitionOf (some name) { t with resources := u } = partitionOf (some name) t ++
      if row.deviceName = some name then [(t.resources.seq + 1, row)] else [] := by
    simp only [partitionOf, AutoTable.select, hrows, List.filter_append]
    split
    · next hname => simp [hname]
    · next hname => simp [hname]
  unfold logOf
  split
  · next hname =>
    rw [if_pos hname] at hpartition
    rw [hpartition] at hkeys ⊢
    refine Ranking.map_snd_ranked_append (fun y hy => ?_) hkeys
    exact Nat.lt_succ_of_le (t.resources.bounded y (mem_partitionOf.mp hy).1)
  · next hname => rw [hpartition, if_neg hname, List.append_nil]

theorem logOf_insertAll? : ∀ {rows : List ResourceRow} {t : Database} {u : ResourceTable},
    t.resources.insertAll? rows = some u → logOf name { t with resources := u } =
      (rows.filter fun row => row.deviceName = some name).foldl enter (logOf name t)
  | [], _, _, h => by
    cases h
    rfl
  | row :: rows, t, u, h => by
    obtain ⟨t', ht', hu⟩ := Option.bind_eq_some_iff.mp h
    have hrest : logOf name { t with resources := u } = _ :=
      logOf_insertAll? (t := { t with resources := t' }) hu
    rw [hrest, logOf_insert? ht']
    by_cases hname : row.deviceName = some name
    · simp [hname]
    · simp [hname]

/-- Deleting what is ranked beyond a place of the partition cuts the log there. -/
theorem logOf_deleteWhere {p : ℕ × ResourceRow → Bool} {m : ℤ}
    (h : ∀ x ∈ partitionOf (some name) t,
      p x = true ↔ x ∈ rowsBeyond m (partitionOf (some name) t)) :
    logOf name { t with resources := t.resources.deleteWhere p } =
      (logOf name t).take m.toNat := by
  unfold logOf
  rw [partitionOf_deleteWhere, Ranking.ranked_filter_top (partitionOf_keys _ t), Ranking.top,
    List.map_take]
  intro x hx
  rw [Bool.not_eq_true', ← Bool.not_eq_true, h x hx]
  rfl

theorem logOf_cleanupEffect (m : ℤ) : logOf name (cleanupEffect m t) =
    (logOf name t).take m.toNat := by
  refine logOf_deleteWhere fun x hx => ?_
  obtain ⟨hrow, hname⟩ := mem_partitionOf.mp hx
  rw [decide_eq_true_iff, mem_ids_iff (fun y hy => (List.mem_filter.mp hy).1) hrow]
  simp only [List.mem_filter, hrow, true_and, decide_eq_true_eq, hname]
  rfl

theorem logOf_cleanupDeviceEffect (deviceName : Str) (m : ℤ) :
    logOf name (cleanupDeviceEffect deviceName m t) =
      if bindText deviceName = name then (logOf name t).take m.toNat else logOf name t := by
  split
  · next hname =>
    subst hname
    refine logOf_deleteWhere fun x hx => ?_
    rw [decide_eq_true_iff, mem_ids_rowsBeyond (mem_partitionOf.mp hx).1]
  · next hname =>
    have hsame := (cleanupDevice_newest m deviceName t).others (some name)
      fun h => hname (Option.some.inj h).symm
    rw [logOf, logOf, hsame]

/-- An operation does to the log what it should. -/
theorem logOf_apply (op : RetentionOp) : logOf name (op.apply t) = op.applyLog name (logOf name t) := by
  cases op with
  | insertResources records =>
    obtain ⟨u, hu, hrun⟩ := SQLiteManager.exec_insertResources t records
    simp only [RetentionOp.apply, RetentionOp.applyLog, hrun]
    exact logOf_insertAll? hu
  | cleanupResources m =>
    simp only [RetentionOp.apply, RetentionOp.applyLog]
    split
    · next hm => rw [SQLiteManager.exec_cleanupResources hm, logOf_cleanupEffect]
    · next hm => rw [SQLiteManager.exec_cleanupResources_of_nonpos (Int.not_lt.mp hm)]
  | cleanupResourcesForDevice deviceName m =>
    simp only [RetentionOp.apply, RetentionOp.applyLog]
    by_cases hm : 0 < m
    · by_cases hnil : deviceName = []
      · subst hnil
        rw [SQLiteManager.exec_cleanupResourcesForDevice_nil, if_neg fun h => h.2.1 rfl]
      · rw [SQLiteManager.exec_cleanupResourcesForDevice hm hnil, logOf_cleanupDeviceEffect]
        simp [hm, hnil]
    · rw [SQLiteManager.exec_cleanupResourcesForDevice_of_nonpos (Int.not_lt.mp hm),
        if_neg fun h => hm h.1]

theorem logOf_runRetention : ∀ (ops : List RetentionOp) (t : Database),
    logOf name (runRetention t ops) = ops.foldl (RetentionOp.applyLog name) (logOf name t)
  | [], _ => rfl
  | op :: ops, t => by
    rw [List.foldl_cons, ← logOf_apply op]
    exact logOf_runRetention ops (op.apply t)

end Log

/-! ## 2. Runs in which calls may fail -/

/-- The call of the manager. -/
def RetentionOp.call : RetentionOp → Sql Unit
  | insertResources records => SQLiteManager.insertResources records
  | cleanupResources maxRows => SQLiteManager.cleanupResources maxRows
  | cleanupResourcesForDevice deviceName maxRows =>
    SQLiteManager.cleanupResourcesForDevice deviceName maxRows

/-- Make the calls one after the other on a connection; the operations whose calls returned, and the
connection at the end. -/
def runCalls (c : Conn) : List RetentionOp → List RetentionOp × Conn
  | [] => ([], c)
  | op :: ops => match op.call c with
    | (.ok _, c') => (op :: (runCalls c' ops).1, (runCalls c' ops).2)
    | (.error _, c') => runCalls c' ops

section Calls
variable {op : RetentionOp} {c c' : Conn}

/-- A call that returns has done what it does without failures, one that throws has done nothing. -/
theorem RetentionOp.call_writes (op : RetentionOp) : op.call.Writes fun t => .ok (op.apply t) := by
  cases op with
  | insertResources records =>
    refine SQLiteManager.writes_insertResources.congr fun t => ?_
    obtain ⟨u, hu, hfold⟩ := SQLiteManager.foldlM_insertResource (t := t) records
    obtain ⟨v, hv, hrun⟩ := SQLiteManager.exec_insertResources t records
    cases hu.symm.trans hv
    rw [hfold, RetentionOp.apply, hrun]
  | cleanupResources m =>
    refine (SQLiteManager.writes_cleanupResources m).congr fun t => ?_
    rw [RetentionOp.apply]
    by_cases hm : m ≤ 0
    · rw [SQLiteManager.exec_cleanupResources_of_nonpos hm, if_pos hm]
    · rw [SQLiteManager.exec_cleanupResources (Int.not_le.mp hm), if_neg hm]
  | cleanupResourcesForDevice deviceName m =>
    refine (SQLiteManager.writes_cleanupResourcesForDevice deviceName m).congr fun t => ?_
    rw [RetentionOp.apply]
    by_cases hm : m ≤ 0
    · rw [SQLiteManager.exec_cleanupResourcesForDevice_of_nonpos hm, if_pos (.inl hm)]
    · by_cases hnil : deviceName = []
      · subst hnil
        rw [SQLiteManager.exec_cleanupResourcesForDevice_nil, if_pos (.inr rfl)]
      · rw [SQLiteManager.exec_cleanupResourcesForDevice (Int.not_le.mp hm) hnil,
          if_neg fun h => h.elim hm hnil]

/-- A run in which calls may fail is the run of the calls that returned. -/
theorem tables_runCalls : ∀ (ops : List RetentionOp) (c : Conn),
    (runCalls c ops).2.tables = runRetention c.tables (runCalls c ops).1
  | [], _ => rfl
  | op :: ops, c => by
    rcases hrun : op.call c with ⟨e | u, c'⟩
    · rcases op.call_writes c with ⟨-, -, hsame⟩ | ⟨hok, -⟩
      · rw [hrun] at hsame
        simp only [runCalls, hrun]
        rw [tables_runCalls ops c', hsame]
      · rw [hrun] at hok
        cases hok
    · rcases op.call_writes c with ⟨e, herror, -⟩ | ⟨-, heffect⟩
      · rw [hrun] at herror
        cases herror
      · rw [hrun] at heffect
        simp only [runCalls, hrun]
        rw [tables_runCalls ops c', ← Except.ok.inj heffect]
        rfl

end Calls

/-- Whichever calls fail: after every run the rows of a device, from the newest down, are the log that
the calls that returned have made of the log before, and the query for the latest records returns its
first 100 records. -/
theorem log_of_run (c : Conn) (ops : List RetentionOp) (deviceName : Str) :
    let name := bindText deviceName
    let log := (runCalls c ops).1.foldl (RetentionOp.applyLog name) (logOf name c.tables)
    logOf name (runCalls c ops).2.tables = log ∧
      latest deviceName (runCalls c ops).2.tables = .ok ((log.take 100).map readRow) := by
  dsimp only
  rw [latest_eq_logOf, tables_runCalls, logOf_runRetention]
  exact ⟨rfl, rfl⟩

/-! ## 3. Records that arrive in the order of their time -/

/-- The rows of a device that a run of operations inserts, in their order. -/
def insertedRows (name : SqlText) (ops : List RetentionOp) : List ResourceRow :=
  ops.flatMap fun
    | .insertResources records => rowsOf name records
    | _ => []

/-- The log has the entries of `done` from the last one down, up to place `n`, and no others. -/
structure Recent (n : ℕ) (done log : List ResourceRow) : Prop where
  top : log.take n = done.reverse.take n
  subset : ∀ row ∈ log, row ∈ done

namespace Recent

variable {n : ℕ} {done log : List ResourceRow}

theorem enter {row : ResourceRow} (h : Recent n done log) (hlast : ∀ r ∈ done, r.svrTime ≤ row.svrTime) :
    Recent n (done ++ [row]) (enter log row) := by
  have henter : CollectorService.enter log row = row :: log := by
    cases log with
    | nil => rfl
    | cons r rest => exact if_pos (hlast r (h.subset r List.mem_cons_self))
  rw [henter]
  constructor
  · rw [List.reverse_append, List.reverse_singleton, List.singleton_append]
    cases n with
    | zero => rfl
    | succ n =>
      have htop : log.take n = done.reverse.take n := by
        have hcut := congrArg (List.take n) h.top
        rwa [List.take_take, List.take_take, Nat.min_eq_left (Nat.le_succ n)] at hcut
      rw [List.take_succ_cons, List.take_succ_cons, htop]
  · intro r hr
    rcases List.mem_cons.mp hr with rfl | hr
    · simp
    · exact List.mem_append_left _ (h.subset r hr)

theorem enterAll : ∀ {rows done log : List ResourceRow}, Recent n done log →
    (done ++ rows).Pairwise (fun a b => a.svrTime ≤ b.svrTime) →
    Recent n (done ++ rows) (rows.foldl CollectorService.enter log)
  | [], done, log, h, _ => by simpa using h
  | row :: rows, done, log, h, hordered => by
    have hlast : ∀ r ∈ done, r.svrTime ≤ row.svrTime := fun r hr =>
      (List.pairwise_append.mp hordered).2.2 r hr row List.mem_cons_self
    have hassoc : done ++ row :: rows = (done ++ [row]) ++ rows := by simp
    rw [hassoc] at hordered ⊢
    exact enterAll (h.enter hlast) hordered

theorem take {m : ℕ} (h : Recent n done log) (hm : n ≤ m) : Recent n done (log.take m) :=
  ⟨by rw [List.take_take, Nat.min_eq_left hm, h.top], fun r hr => h.subset r (List.mem_of_mem_take hr)⟩

theorem applyLog {name : SqlText} {op : RetentionOp} (h : Recent n done log)
    (hop : op.KeepsAtLeast n)
    (hordered : (done ++ insertedRows name [op]).Pairwise fun a b => a.svrTime ≤ b.svrTime) :
    Recent n (done ++ insertedRows name [op]) (op.applyLog name log) := by
  cases op with
  | insertResources records =>
    have hrows : insertedRows name [.insertResources records] = rowsOf name records :=
      List.append_nil _
    rw [hrows] at hordered ⊢
    exact h.enterAll hordered
  | cleanupResources m =>
    have hm : (n : ℤ) ≤ m := hop
    have hrows : insertedRows name [.cleanupResources m] = [] := rfl
    rw [hrows, List.append_nil, RetentionOp.applyLog]
    split
    · exact h.take (by omega)
    · exact h
  | cleanupResourcesForDevice deviceName m =>
    have hm : (n : ℤ) ≤ m := hop
    have hrows : insertedRows name [.cleanupResourcesForDevice deviceName m] = [] := rfl
    rw [hrows, List.append_nil, RetentionOp.applyLog]
    split
    · exact h.take (by omega)
    · exact h

theorem run {name : SqlText} : ∀ {ops : List RetentionOp} {done log : List ResourceRow},
    Recent n done log → (∀ op ∈ ops, op.KeepsAtLeast n) →
    (done ++ insertedRows name ops).Pairwise (fun a b => a.svrTime ≤ b.svrTime) →
    Recent n (done ++ insertedRows name ops) (ops.foldl (RetentionOp.applyLog name) log)
  | [], done, log, h, _, _ => by simpa [insertedRows] using h
  | op :: ops, done, log, h, hkeeps, hordered => by
    obtain ⟨hop, hops⟩ := List.forall_mem_cons.mp hkeeps
    have hcons : insertedRows name (op :: ops) = insertedRows name [op] ++ insertedRows name ops := by
      simp [insertedRows]
    rw [hcons, ← List.append_assoc] at hordered ⊢
    have hstep := h.applyLog hop (List.pairwise_append.mp hordered).1
    exact run hstep hops hordered

end Recent

/-- When the records of a device are inserted in the order of their time, the query for the latest
records returns the last 100 that were inserted, the last one first, whatever is cleaned up to 100
records or more and whichever calls fail. -/
theorem latest_of_ordered (c : Conn) (ops : List RetentionOp) (deviceName : Str)
    (hempty : ∀ x ∈ c.tables.resources.rows, x.2.deviceName ≠ some (bindText deviceName))
    (hkeeps : ∀ op ∈ (runCalls c ops).1, op.KeepsAtLeast 100)
    (hordered : (insertedRows (bindText deviceName) (runCalls c ops).1).Pairwise
      fun a b => a.svrTime ≤ b.svrTime) :
    latest deviceName (runCalls c ops).2.tables = .ok
      (((insertedRows (bindText deviceName) (runCalls c ops).1).reverse.take 100).map readRow) := by
  have hnone : logOf (bindText deviceName) c.tables = [] := by
    have hpartition : partitionOf (some (bindText deviceName)) c.tables = [] := by
      rw [List.eq_nil_iff_forall_not_mem]
      intro x hx
      obtain ⟨hrow, hname⟩ := mem_partitionOf.mp hx
      exact hempty x hrow hname
    rw [logOf, hpartition]
    rfl
  have hrecent : Recent 100 [] (logOf (bindText deviceName) c.tables) := by
    rw [hnone]
    exact ⟨rfl, fun _ h => h⟩
  have htop := (hrecent.run hkeeps hordered).top
  rw [latest_eq_logOf, tables_runCalls, logOf_runRetention, htop, List.nil_append]

instance (n : ℤ) : DecidablePred (RetentionOp.KeepsAtLeast n)
  | .insertResources _ => inferInstanceAs (Decidable True)
  | .cleanupResources maxRows => inferInstanceAs (Decidable (n ≤ maxRows))
  | .cleanupResourcesForDevice _ maxRows => inferInstanceAs (Decidable (n ≤ maxRows))

/-- Three batches, and a cleanup behind the second one. -/
def threeBatches : List RetentionOp :=
  [.insertResources [{ deviceName := lit "M1", data := lit "[1]", svrTime := .ofRat 10 }],
    .insertResources [{ deviceName := lit "M1", data := lit "[2]", svrTime := .ofRat 11 }],
    .cleanupResourcesForDevice (lit "M1") 5000,
    .insertResources [{ deviceName := lit "M1", data := lit "[3]", svrTime := .ofRat 12 },
      { deviceName := lit "M2", data := lit "[4]", svrTime := .ofRat 1 }]]

/-- The step of the second insertion fails. -/
def secondBatchFails : Conn where
  tables := .empty
  fault n := if n = 6 then some (lit "disk I/O error") else none

/-- The records of the other two are there. -/
theorem latest_of_ordered_threeBatches :
    (runCalls secondBatchFails threeBatches).1.length = 3 ∧
    latest (lit "M1") (runCalls secondBatchFails threeBatches).2.tables = .ok
      (((insertedRows (bindText (lit "M1")) (runCalls secondBatchFails threeBatches).1).reverse.take
        100).map readRow) := by
  refine ⟨by decide +kernel, latest_of_ordered secondBatchFails threeBatches (lit "M1") ?_ ?_ ?_⟩
  · have hempty : secondBatchFails.tables.resources.rows = [] := rfl
    rw [hempty]
    exact fun _ hx => absurd hx List.not_mem_nil
  · decide +kernel
  · decide +kernel

end CollectorService
