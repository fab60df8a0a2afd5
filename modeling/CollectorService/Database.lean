import CollectorService.AutoTable
import CollectorService.Models
import Mathlib.Data.List.TakeWhile

/-!
# The database and the calls that reach it

Three tables, the constraints of `init.sql`, and a connection on which every call of the SQLite API
may fail. A statement that fails has no effect of its own, and `ROLLBACK` restores the tables that
`BEGIN` saw.

* `SqlText`: what a text column holds. `bindText` passes a C string, so a text ends before its first
  NUL byte.
* `Sql`: computations on a connection that may throw the message of an exception.
* `withTransaction`: the scope of a `SQLiteTransaction`.
-/

namespace CollectorService

/-! ## 1. Columns -/

/-- The text of a column: a C string. -/
structure SqlText where
  bytes : Str
  noNul : (0 : UInt8) ∉ bytes
  deriving DecidableEq

/-- The C string that a `std::string` is bound as, or read back from. -/
def cString (value : Str) : Str := value.takeWhile (· ≠ 0)

theorem zero_notMem_cString (value : Str) : (0 : UInt8) ∉ cString value := by
  intro h
  simpa using List.mem_takeWhile_imp h

theorem cString_of_notMem {value : Str} (h : (0 : UInt8) ∉ value) : cString value = value := by
  refine List.takeWhile_eq_self_iff.mpr fun ch hch => ?_
  have hne : ch ≠ 0 := fun h0 => h (h0 ▸ hch)
  simpa using hne

@[simp] theorem cString_cString (value : Str) : cString (cString value) = cString value :=
  cString_of_notMem (zero_notMem_cString value)

theorem cString_append {first : Str} (h : (0 : UInt8) ∉ first) (rest : Str) :
    cString (first ++ rest) = first ++ cString rest :=
  List.takeWhile_append_of_pos fun ch hch => by simpa using fun h0 : ch = 0 => h (h0 ▸ hch)

/-- `SQLiteStatement::bindText`. -/
def bindText (value : Str) : SqlText := ⟨cString value, zero_notMem_cString value⟩

@[simp] theorem bindText_bytes (text : SqlText) : bindText text.bytes = text := by
  cases text with
  | mk bytes noNul => simp [bindText, cString_of_notMem noNul]

/-- `SQLiteStatement::columnText`: the empty string for `NULL`. -/
def columnText (text : Option SqlText) : Str := (text.map (·.bytes)).getD []

/-- `SQLiteStatement::columnInt`: the low 32 bits, signed, and 0 for `NULL`. -/
def columnInt (value : Option ℤ) : ℤ := (value.getD 0).bmod (2 ^ 32)

theorem columnInt_columnInt (value : Option ℤ) :
    columnInt (some (columnInt value)) = columnInt value := by
  rw [columnInt, Option.getD_some, columnInt, Int.bmod_bmod]

/-- A `REAL` column; `⊥` is `NULL`, which sorts below every number. -/
abbrev SqlReal := WithBot (WithBot (WithTop ℚ))

/-- `SQLiteStatement::bindDouble`: SQLite stores `NULL` for a value that is not a number. -/
def bindDouble : Double → SqlReal
  | .number x => (x : SqlReal)
  | .nan => ⊥

/-- `SQLiteStatement::columnDouble`: 0 for `NULL`. -/
def columnDouble : SqlReal → Double
  | none => .ofRat 0
  | some x => .number x

/-! ## 2. Tables -/

/-- A row of `Device`, without its `Id`. -/
structure DeviceRow where
  name : SqlText
  ipAddr : Option SqlText
  port : Option ℤ
  sampleInterval : Option ℤ
  status : ℤ
  model : Option SqlText
  modelVersion : Option SqlText
  driverPath : Option SqlText
  deriving DecidableEq

/-- A row of `DataPoint`, without its `Id`. -/
structure DataPointRow where
  did : Option ℤ
  dName : Option SqlText
  namePath : Option SqlText
  itemPath : Option SqlText
  itemName : Option SqlText
  itemDescription : Option SqlText
  deriving DecidableEq

/-- A row of `Resources`, without its `Id`. -/
structure ResourceRow where
  deviceName : Option SqlText
  dataItemNamePath : Option SqlText
  data : Option SqlText
  devTime : SqlReal
  svrTime : SqlReal
  dataItemPath : Option SqlText
  dataItemName : Option SqlText
  dataItemDescription : Option SqlText
  deriving DecidableEq

instance lawfulBEqResourceRow : LawfulBEq (ℕ × ResourceRow) := inferInstance

/-- `Name TEXT NOT NULL UNIQUE`. -/
def DeviceRow.compat (a b : DeviceRow) : Prop := a.name ≠ b.name

/-- `UNIQUE(DName, NamePath)`: two `NULL`s are different. -/
def DataPointRow.compat (a b : DataPointRow) : Prop :=
  a.dName = none ∨ a.namePath = none ∨ a.dName ≠ b.dName ∨ a.namePath ≠ b.namePath

/-- `Resources` has no constraint. -/
def ResourceRow.compat (_ _ : ResourceRow) : Prop := True

instance : DecidableRel DeviceRow.compat := fun a b => inferInstanceAs (Decidable (a.name ≠ b.name))

instance : DecidableRel DataPointRow.compat := fun a b =>
  inferInstanceAs (Decidable
    (a.dName = none ∨ a.namePath = none ∨ a.dName ≠ b.dName ∨ a.namePath ≠ b.namePath))

instance : DecidableRel ResourceRow.compat := fun _ _ => inferInstanceAs (Decidable True)

instance : Std.Symm DeviceRow.compat := ⟨fun _ _ h => Ne.symm h⟩

instance : Std.Symm DataPointRow.compat := ⟨fun a b h => by
  unfold DataPointRow.compat at h ⊢
  grind⟩

abbrev DeviceTable := AutoTable DeviceRow DeviceRow.compat
abbrev DataPointTable := AutoTable DataPointRow DataPointRow.compat
abbrev ResourceTable := AutoTable ResourceRow ResourceRow.compat

/-- The tables of the service. -/
@[ext] structure Database where
  device : DeviceTable
  dataPoint : DataPointTable
  resources : ResourceTable

/-- What `init.sql` creates. -/
def Database.empty : Database := ⟨.empty, .empty, .empty⟩

/-! ## 3. The connection -/

/-- A connection, the state of its transaction, and the calls that are going to fail. -/
structure Conn where
  tables : Database
  /-- The tables at the `BEGIN` of the open transaction. -/
  saved : Option Database := none
  /-- The number of API calls made so far. -/
  calls : ℕ := 0
  /-- The error message of the call with this number, when it fails. -/
  fault : ℕ → Option Str

/-- The connection after one more call. -/
def Conn.tick (c : Conn) : Conn := { c with calls := c.calls + 1 }

/-- A computation on the connection; it returns a value or throws an exception with a message. -/
abbrev Sql (α : Type) := Conn → Except Str α × Conn

namespace Sql

variable {α β : Type}

protected def pure (a : α) : Sql α := fun c => (.ok a, c)

protected def bind (m : Sql α) (f : α → Sql β) : Sql β := fun c =>
  match m c with
  | (.ok a, c') => f a c'
  | (.error e, c') => (.error e, c')

instance : Monad Sql where
  pure := Sql.pure
  bind := Sql.bind

/-- `throw std::runtime_error(message)`. -/
def throw (message : Str) : Sql α := fun c => (.error message, c)

@[simp] theorem pure_apply (a : α) (c : Conn) : (pure a : Sql α) c = (.ok a, c) := rfl

@[simp] theorem throw_apply (e : Str) (c : Conn) : (Sql.throw e : Sql α) c = (.error e, c) := rfl

theorem bind_apply (m : Sql α) (f : α → Sql β) (c : Conn) :
    (m >>= f) c = match m c with
      | (.ok a, c') => f a c'
      | (.error e, c') => (.error e, c') := rfl

theorem bind_ok {m : Sql α} {f : α → Sql β} {c c' : Conn} {a : α} (h : m c = (.ok a, c')) :
    (m >>= f) c = f a c' := by
  rw [bind_apply, h]

theorem bind_error {m : Sql α} {f : α → Sql β} {c c' : Conn} {e : Str}
    (h : m c = (.error e, c')) : (m >>= f) c = (.error e, c') := by
  rw [bind_apply, h]

/-- The outcome of a computation on a healthy connection without an open transaction. -/
def exec (m : Sql α) (t : Database) : Except Str α × Database :=
  let r := m { tables := t, fault := fun _ => none }
  (r.1, r.2.tables)

end Sql

/-! ## 4. Statements and transactions -/

/-- One call of the SQLite API that throws when it fails: `sqlite3_prepare_v2` in the constructor of
`SQLiteStatement`, `sqlite3_exec` in `SQLiteConnection::execute`. -/
def apiCall : Sql Unit := fun c =>
  match c.fault c.calls with
  | some e => (.error e, c.tick)
  | none => (.ok (), c.tick)

/-- The constructor of `SQLiteStatement`. -/
def prepare : Sql Unit := apiCall

/-- `SQLiteStatement::stepDone` of a statement with the given effect on the tables. -/
def stepDone (effect : Database → Except Str Database) : Sql Unit := fun c =>
  match c.fault c.calls with
  | some e => (.error e, c.tick)
  | none => match effect c.tables with
    | .ok t => (.ok (), { c.tick with tables := t })
    | .error e => (.error e, c.tick)

/-- A statement that is reset, bound and stepped once for each item of a list. -/
def stepEach {β : Type} (effect : β → Database → Except Str Database) : List β → Sql Unit
  | [] => return ()
  | item :: rest => do
    stepDone (effect item)
    stepEach effect rest

/-- `SQLiteStatement::stepRow` when the result set has a next row: a step that fails looks like the
end of the result set. -/
def stepRow : Sql Bool := fun c => (.ok (c.fault c.calls).isNone, c.tick)

/-- `while (stmt.stepRow())` over the rows of a result set. -/
def stepRows {β : Type} : List β → Sql (List β)
  | [] => do
    let _ ← stepRow
    return []
  | row :: rest => do
    if ← stepRow then return row :: (← stepRows rest)
    else return []

/-- The first row of a query, as one `stepRow` finds it. -/
def firstRow {β : Type} (query : Database → Option β) : Sql (Option β) := fun c =>
  match stepRow c with
  | (.ok true, c') => (.ok (query c.tables), c')
  | (_, c') => (.ok none, c')

/-- All rows of a query. -/
def allRows {β : Type} (query : Database → List β) : Sql (List β) := fun c =>
  stepRows (query c.tables) c

/-- `BEGIN TRANSACTION;`. -/
def beginTransaction : Sql Unit := do
  apiCall
  fun c => match c.saved with
    | some _ => (.error (lit "cannot start a transaction within a transaction"), c)
    | none => (.ok (), { c with saved := some c.tables })

/-- `COMMIT;`. -/
def commitTransaction : Sql Unit := do
  apiCall
  fun c => match c.saved with
    | some _ => (.ok (), { c with saved := none })
    | none => (.error (lit "cannot commit - no transaction is active"), c)

/-- `ROLLBACK;`, in the destructor of `SQLiteTransaction`. -/
def rollback (c : Conn) : Conn :=
  match c.saved with
  | some t => { c.tick with tables := t, saved := none }
  | none => c.tick

/-- The scope of a `SQLiteTransaction`: `BEGIN`, the body, `commit()`. An exception after `BEGIN`
leaves the scope through the destructor, which rolls back. -/
def withTransaction (body : Sql Unit) : Sql Unit := do
  beginTransaction
  fun c => match (body >>= fun _ => commitTransaction) c with
    | (.ok _, c') => (.ok (), c')
    | (.error e, c') => (.error e, rollback c')

/-! ## 5. A single statement -/

section Statement
variable {α : Type} {c : Conn} {t : Database} {effect : Database → Except Str Database}

theorem prepare_ok (h : c.fault c.calls = none) : prepare c = (.ok (), c.tick) := by
  simp [prepare, apiCall, h]

theorem prepare_error {e : Str} (h : c.fault c.calls = some e) :
    prepare c = (.error e, c.tick) := by
  simp [prepare, apiCall, h]

theorem firstRow_ok {β : Type} {query : Database → Option β} (h : c.fault c.calls = none) :
    firstRow query c = (.ok (query c.tables), c.tick) := by
  have hstep : stepRow c = (.ok true, c.tick) := by simp [stepRow, h]
  rw [firstRow, hstep]

/-- A step that fails looks like an empty result set. -/
theorem firstRow_fault {β : Type} {query : Database → Option β} (h : c.fault c.calls ≠ none) :
    firstRow query c = (.ok none, c.tick) := by
  have hstep : stepRow c = (.ok false, c.tick) := by
    simpa [stepRow, Option.isSome_iff_ne_none] using h
  rw [firstRow, hstep]

/-- A statement that writes, from its preparation to its end. -/
theorem statement_ok (hprepare : c.fault c.calls = none) (hstep : c.fault (c.calls + 1) = none)
    (heffect : effect c.tables = .ok t) : (prepare >>= fun _ => stepDone effect) c =
      (.ok (), { c with tables := t, calls := c.calls + 2 }) := by
  have hstep' : c.tick.fault c.tick.calls = none := hstep
  have heffect' : effect c.tick.tables = .ok t := heffect
  rw [Sql.bind_ok (prepare_ok hprepare)]
  simp only [stepDone, hstep', heffect']
  rfl

/-- A statement fails when one of its two calls fails or a constraint is violated, and then it has
no effect. -/
theorem statement_error (h : c.fault c.calls ≠ none ∨ c.fault (c.calls + 1) ≠ none ∨
    ∃ e, effect c.tables = .error e) : ∃ e n,
      (prepare >>= fun _ => stepDone effect) c = (.error e, { c with calls := n }) := by
  cases hprepare : c.fault c.calls with
  | some e => exact ⟨e, c.calls + 1, Sql.bind_error (prepare_error hprepare)⟩
  | none =>
    rw [Sql.bind_ok (prepare_ok hprepare)]
    cases hstep : c.fault (c.calls + 1) with
    | some e =>
      have hstep' : c.tick.fault c.tick.calls = some e := hstep
      exact ⟨e, c.calls + 2, by simp only [stepDone, hstep']; rfl⟩
    | none =>
      obtain ⟨e, heffect⟩ : ∃ e, effect c.tables = .error e := by
        simpa [hprepare, hstep] using h
      have hstep' : c.tick.fault c.tick.calls = none := hstep
      have heffect' : effect c.tick.tables = .error e := heffect
      exact ⟨e, c.calls + 2, by simp only [stepDone, hstep', heffect']; rfl⟩

/-- A computation that neither opens nor closes a transaction. -/
def Sql.Plain (m : Sql α) : Prop := ∀ c, (m c).2.saved = c.saved

namespace Sql.Plain

theorem bind {β : Type} {m : Sql α} {f : α → Sql β} (hm : m.Plain) (hf : ∀ a, (f a).Plain) :
    (m >>= f).Plain := by
  intro c
  rcases hr : m c with ⟨r | a, c'⟩
  · rw [Sql.bind_error hr]
    simpa [hr] using hm c
  · rw [Sql.bind_ok hr]
    exact (hf a c').trans (by simpa [hr] using hm c)

theorem pure (a : α) : (pure a : Sql α).Plain := fun _ => rfl

theorem prepare : CollectorService.prepare.Plain := by
  intro c
  unfold CollectorService.prepare apiCall
  split <;> rfl

theorem stepDone (effect : Database → Except Str Database) :
    (CollectorService.stepDone effect).Plain := by
  intro c
  unfold CollectorService.stepDone
  split
  · rfl
  · split <;> rfl

theorem stepEach {β : Type} (effect : β → Database → Except Str Database) (items : List β) :
    (CollectorService.stepEach effect items).Plain := by
  induction items with
  | nil => exact pure ()
  | cons item rest ih => exact (stepDone (effect item)).bind fun _ => ih

end Sql.Plain

theorem beginTransaction_cases (c : Conn) :
    (∃ e, beginTransaction c = (.error e, c.tick)) ∨
      beginTransaction c = (.ok (), { c.tick with saved := some c.tables }) := by
  unfold beginTransaction
  cases hfault : c.fault c.calls with
  | some e => exact .inl ⟨e, Sql.bind_error (by simp [apiCall, hfault])⟩
  | none =>
    have hcall : apiCall c = (.ok (), c.tick) := by simp [apiCall, hfault]
    rw [Sql.bind_ok hcall]
    cases hsaved : c.tick.saved with
    | some u => exact .inl ⟨_, rfl⟩
    | none => exact .inr rfl

theorem commitTransaction_error {e : Str} {c' : Conn} (h : commitTransaction c = (.error e, c')) :
    c'.saved = c.saved := by
  unfold commitTransaction at h
  cases hfault : c.fault c.calls with
  | some e =>
    have hcall : apiCall c = (.error e, c.tick) := by simp [apiCall, hfault]
    rw [Sql.bind_error hcall] at h
    cases h
    rfl
  | none =>
    have hcall : apiCall c = (.ok (), c.tick) := by simp [apiCall, hfault]
    rw [Sql.bind_ok hcall] at h
    cases hsaved : c.tick.saved with
    | some u => simp [hsaved] at h
    | none =>
      simp only [hsaved] at h
      cases h
      rfl

/-- An exception from a transaction leaves the tables as they were before `BEGIN`. -/
theorem withTransaction_atomic {body : Sql Unit} (hbody : body.Plain) {e : Str}
    (h : (withTransaction body c).1 = .error e) : (withTransaction body c).2.tables = c.tables := by
  rcases beginTransaction_cases c with ⟨e', hbegin⟩ | hbegin
  · rw [withTransaction, Sql.bind_error hbegin]
    rfl
  · rw [withTransaction, Sql.bind_ok hbegin] at h ⊢
    -- whatever fails from here on, the tables that `BEGIN` saved are still there to be restored
    have hsaved : ∀ e' c', (body >>= fun _ => commitTransaction)
        { c.tick with saved := some c.tables } = (.error e', c') → c'.saved = some c.tables := by
      intro e' c' hrun
      rcases hb : body { c.tick with saved := some c.tables } with ⟨r | u, c₁⟩
      · rw [Sql.bind_error hb] at hrun
        cases hrun
        simpa [hb] using hbody { c.tick with saved := some c.tables }
      · rw [Sql.bind_ok hb] at hrun
        rw [commitTransaction_error hrun]
        simpa [hb] using hbody { c.tick with saved := some c.tables }
    rcases hrun : (body >>= fun _ => commitTransaction) { c.tick with saved := some c.tables }
      with ⟨e' | u, c'⟩
    · simp only [rollback, hsaved e' c' hrun]
    · simp [hrun] at h

end Statement

/-! ## 6. On a healthy connection -/

/-- A connection on which no call fails. -/
def healthy (t : Database) (saved : Option Database) (calls : ℕ) : Conn :=
  ⟨t, saved, calls, fun _ => none⟩

section Healthy
variable {β : Type} {t t' : Database} {saved : Option Database} {n m : ℕ} {body : Sql Unit} {e : Str}

theorem Sql.exec_eq {m : Sql β} :
    m.exec t = ((m (healthy t none 0)).1, (m (healthy t none 0)).2.tables) := rfl

@[simp] theorem healthy_tables : (healthy t saved n).tables = t := rfl

@[simp] theorem prepare_healthy :
    prepare (healthy t saved n) = (.ok (), healthy t saved (n + 1)) := rfl

theorem stepDone_healthy (effect : Database → Except Str Database) :
    stepDone effect (healthy t saved n) = match effect t with
      | .ok t' => (.ok (), healthy t' saved (n + 1))
      | .error e => (.error e, healthy t saved (n + 1)) := rfl

@[simp] theorem firstRow_healthy (query : Database → Option β) :
    firstRow query (healthy t saved n) = (.ok (query t), healthy t saved (n + 1)) := rfl

theorem stepRows_healthy (rows : List β) :
    stepRows rows (healthy t saved n) = (.ok rows, healthy t saved (n + rows.length + 1)) := by
  induction rows generalizing n with
  | nil => rfl
  | cons row rest ih =>
    have hrest : stepRows rest (healthy t saved (n + 1)) =
        (.ok rest, healthy t saved (n + (rest.length + 1) + 1)) := by
      rw [ih]
      congr 2
      omega
    have hstep : stepRow (healthy t saved n) = (.ok true, healthy t saved (n + 1)) := rfl
    simp only [stepRows, Sql.bind_ok hstep, if_true, Sql.bind_ok hrest, Sql.pure_apply,
      List.length_cons]

@[simp] theorem allRows_healthy (query : Database → List β) :
    allRows query (healthy t saved n) =
      (.ok (query t), healthy t saved (n + (query t).length + 1)) :=
  stepRows_healthy (query t)

/-- A statement stepped for each item stops at the first step that violates a constraint. -/
theorem stepEach_healthy (effect : β → Database → Except Str Database) (items : List β) :
    (∀ t', items.foldlM (fun t item => effect item t) t = .ok t' →
      stepEach effect items (healthy t saved n) =
        (.ok (), healthy t' saved (n + items.length))) ∧
    (∀ e, items.foldlM (fun t item => effect item t) t = .error e →
      ∃ t' m, stepEach effect items (healthy t saved n) = (.error e, healthy t' saved m)) := by
  induction items generalizing t n with
  | nil =>
    refine ⟨fun t' h => ?_, fun e h => ?_⟩
    · cases h
      rfl
    · cases h
  | cons item rest ih =>
    rw [List.foldlM_cons]
    cases heff : effect item t with
    | ok u =>
      have hstep : stepDone (effect item) (healthy t saved n) =
          (.ok (), healthy u saved (n + 1)) := by
        rw [stepDone_healthy, heff]
      refine ⟨fun t' h => ?_, fun e h => ?_⟩
      · refine (Sql.bind_ok hstep).trans (((ih (t := u) (n := n + 1)).1 t' h).trans ?_)
        rw [List.length_cons, Nat.add_assoc, Nat.add_comm 1]
      · obtain ⟨t', m, hrest⟩ := (ih (t := u) (n := n + 1)).2 e h
        exact ⟨t', m, (Sql.bind_ok hstep).trans hrest⟩
    | error e' =>
      constructor
      · intro t' h
        cases h
      · intro e h
        cases h
        refine ⟨t, n + 1, Sql.bind_error ?_⟩
        rw [stepDone_healthy, heff]

/-- A transaction whose body succeeds keeps what the body did. -/
theorem withTransaction_ok
    (h : body (healthy t (some t) (n + 1)) = (.ok (), healthy t' (some t) m)) :
    withTransaction body (healthy t none n) = (.ok (), healthy t' none (m + 1)) := by
  have hbegin : beginTransaction (healthy t none n) = (.ok (), healthy t (some t) (n + 1)) := rfl
  have hcommit : commitTransaction (healthy t' (some t) m) = (.ok (), healthy t' none (m + 1)) :=
    rfl
  refine (Sql.bind_ok hbegin).trans ?_
  rw [Sql.bind_ok h, hcommit]

/-- A transaction whose body throws restores the tables. -/
theorem withTransaction_error
    (h : body (healthy t (some t) (n + 1)) = (.error e, healthy t' (some t) m)) :
    withTransaction body (healthy t none n) = (.error e, healthy t none (m + 1)) := by
  have hbegin : beginTransaction (healthy t none n) = (.ok (), healthy t (some t) (n + 1)) := rfl
  refine (Sql.bind_ok hbegin).trans ?_
  rw [Sql.bind_error h]
  rfl

end Healthy

end CollectorService
