import CollectorService.Atomicity

/-!
# Reads that fail half way

`stepRow` turns the three results of `sqlite3_step` into two: a step that fails looks like the end of
the result set. `stepDone`, which the writing statements use, throws instead. So what a reader returns
when a step fails is what it would return if the remaining rows were not there.

* `stepRows_eq_take`: a loop over `stepRow` returns the rows before the first step that fails.
* `Reader.complete_iff`: the connections on which a reader returns the whole answer or throws.
-/

namespace CollectorService

/-! ## 1. The loop over a result set -/

section Rows
variable {β γ : Type} {c : Conn}

/-- No step that would return one of the next `n` rows fails. -/
def StepsSucceed (c : Conn) (n : ℕ) : Prop := ∀ k < n, c.fault (c.calls + k) = none

instance (c : Conn) (n : ℕ) : Decidable (StepsSucceed c n) :=
  inferInstanceAs (Decidable (∀ k < n, c.fault (c.calls + k) = none))

theorem stepsSucceed_succ {n : ℕ} :
    StepsSucceed c (n + 1) ↔ c.fault c.calls = none ∧ StepsSucceed c.tick n := by
  constructor
  · intro h
    refine ⟨h 0 (Nat.zero_lt_succ n), fun k hk => ?_⟩
    have hstep := h (k + 1) (Nat.succ_lt_succ hk)
    rwa [Nat.add_comm k, ← Nat.add_assoc] at hstep
  · rintro ⟨hfirst, hrest⟩ k hk
    cases k with
    | zero => exact hfirst
    | succ k =>
      have hstep : c.fault (c.calls + 1 + k) = none := hrest k (Nat.lt_of_succ_lt_succ hk)
      rwa [Nat.add_comm k, ← Nat.add_assoc]

/-- The rows before the first step that fails, and all of them if none of their steps does. -/
theorem stepRows_eq_take (rows : List β) (c : Conn) :
    ∃ n ≤ rows.length, (stepRows rows c).1 = .ok (rows.take n) ∧
      (n = rows.length ↔ StepsSucceed c rows.length) := by
  induction rows generalizing c with
  | nil => exact ⟨0, le_rfl, rfl, iff_of_true rfl fun k hk => absurd hk (Nat.not_lt_zero k)⟩
  | cons row rest ih =>
    rw [List.length_cons, stepsSucceed_succ]
    cases hfault : c.fault c.calls with
    | some e =>
      -- the loop takes the error for the end of the rows
      have hstep : stepRow c = (.ok false, c.tick) := by simp [stepRow, hfault]
      refine ⟨0, Nat.zero_le _, ?_, iff_of_false (Nat.succ_ne_zero _).symm (by simp)⟩
      rw [stepRows, Sql.bind_ok hstep]
      rfl
    | none =>
      have hstep : stepRow c = (.ok true, c.tick) := by simp [stepRow, hfault]
      obtain ⟨n, hle, hrest, hall⟩ := ih c.tick
      refine ⟨n + 1, Nat.succ_le_succ hle, ?_, by simp [hall]⟩
      rcases htail : stepRows rest c.tick with ⟨outcome, c'⟩
      rw [htail] at hrest
      obtain rfl : outcome = .ok (rest.take n) := hrest
      rw [stepRows, Sql.bind_ok hstep, if_pos rfl, Sql.bind_ok htail]
      rfl

end Rows

/-! ## 2. The readers -/

/-- The operations of `SQLiteManager` that read. -/
inductive Reader where
  | getDevices
  | getDataPointsByDeviceName (deviceName : Str)
  | getLatestResources (deviceName : Str)
  | getDeviceByName (deviceName : Str)
  | deviceExists (deviceName : Str)

namespace Reader

def Answer : Reader → Type
  | getDevices => List Device
  | getDataPointsByDeviceName _ => List DataPoint
  | getLatestResources _ => List ResourceRecord
  | getDeviceByName _ => Device
  | deviceExists _ => Bool

def call : (reader : Reader) → Sql reader.Answer
  | getDevices => SQLiteManager.getDevices
  | getDataPointsByDeviceName deviceName => SQLiteManager.getDataPointsByDeviceName deviceName
  | getLatestResources deviceName => SQLiteManager.getLatestResources deviceName
  | getDeviceByName deviceName => SQLiteManager.getDeviceByName deviceName
  | deviceExists deviceName => SQLiteManager.deviceExists deviceName

/-- The message with which a reader says that there is no such row. -/
def notFound : Reader → Option Str
  | getDeviceByName deviceName => some (lit "device not found: " ++ deviceName)
  | _ => none

/-- A read answers as on a connection on which no call fails, or it throws. The message `notFound`
is an answer too, unless SQLite gives this very message when it prepares the statement. -/
def CompleteRead {α : Type} (read : Sql α) (notFound : Option Str) (c : Conn) : Prop :=
  (read c).1 = (read.exec c.tables).1 ∨
    ∃ e, (read c).1 = .error e ∧ (notFound = some e → c.fault c.calls = some e)

def Complete (reader : Reader) (c : Conn) : Prop := CompleteRead reader.call reader.notFound c

/-- The rows that the reader takes from its result set. -/
def rowCount (t : Database) : Reader → ℕ
  | getDevices => t.device.rows.length
  | getDataPointsByDeviceName deviceName =>
    (t.dataPoint.select fun r => r.dName = some (bindText deviceName)).length
  | getLatestResources deviceName =>
    (Ranking.top ResourceRepository.rankKey 100 (ResourceRepository.ofDevice deviceName t)).length
  | getDeviceByName deviceName => (DeviceRepository.named deviceName t).elim 0 fun _ => 1
  | deviceExists deviceName => (DeviceRepository.named deviceName t).elim 0 fun _ => 1

/-! ## 3. When a read is complete -/

section Lists
variable {β γ : Type} {c : Conn} {query : Database → List β} {f : β → γ}

/-- A reader that returns all rows of a query. -/
def readAll (query : Database → List β) (f : β → γ) : Sql (List γ) := do
  prepare
  let rows ← allRows query
  return rows.map f

theorem exec_readAll (t : Database) : (readAll query f).exec t = (.ok ((query t).map f), t) := by
  rw [Sql.exec_eq]
  simp [readAll, Sql.bind_apply]

/-- A list of rows is complete unless a step that would return one of them fails. -/
theorem readAll_complete_iff : CompleteRead (readAll query f) none c ↔
    c.fault c.calls ≠ none ∨ StepsSucceed c.tick (query c.tables).length := by
  rw [CompleteRead, exec_readAll]
  cases hprepare : c.fault c.calls with
  | some e =>
    refine iff_of_true (.inr ⟨e, ?_, by simp⟩) (.inl (by simp))
    rw [readAll, Sql.bind_error (prepare_error hprepare)]
  | none =>
    obtain ⟨n, hle, hrows, hall⟩ := stepRows_eq_take (query c.tables) c.tick
    rcases hrun : stepRows (query c.tables) c.tick with ⟨outcome, c'⟩
    rw [hrun] at hrows
    obtain rfl : outcome = .ok ((query c.tables).take n) := hrows
    have hread : (readAll query f c).1 = .ok (((query c.tables).take n).map f) := by
      have hrows : allRows query c.tick = (.ok ((query c.tables).take n), c') := hrun
      rw [readAll, Sql.bind_ok (prepare_ok hprepare), Sql.bind_ok hrows]
      rfl
    rw [hread, ← hall]
    constructor
    · rintro (hsame | ⟨e, herror, -⟩)
      · -- a shorter list is not the same list
        have hlength := congrArg List.length (Except.ok.inj hsame)
        simp only [List.length_map, List.length_take] at hlength
        exact .inr (by omega)
      · cases herror
    · rintro (hfail | rfl)
      · exact absurd rfl hfail
      · exact .inl (by rw [List.take_length])

end Lists

section Single
variable {c : Conn} {deviceName : Str}

theorem stepsSucceed_named {β : Type} (row : Option β) :
    StepsSucceed c (row.elim 0 fun _ => 1) ↔ row = none ∨ c.fault c.calls = none := by
  cases row with
  | none => exact iff_of_true (fun k hk => absurd hk (Nat.not_lt_zero k)) (.inl rfl)
  | some x =>
    show StepsSucceed c 1 ↔ _
    rw [stepsSucceed_succ]
    simp [StepsSucceed]

theorem complete_deviceExists : (deviceExists deviceName).Complete c ↔ c.fault c.calls ≠ none ∨
    StepsSucceed c.tick ((deviceExists deviceName).rowCount c.tables) := by
  show CompleteRead (DeviceRepository.existsByName deviceName) none c ↔ _ ∨
    StepsSucceed c.tick ((DeviceRepository.named deviceName c.tables).elim 0 fun _ => 1)
  rw [CompleteRead, stepsSucceed_named, Sql.exec_eq, SQLiteManager.existsByName_healthy]
  rcases existsByName_run deviceName c with ⟨e, hprepare, hrun⟩ | ⟨hprepare, hrun⟩
  · rw [hrun]
    exact iff_of_true (.inr ⟨e, rfl, by simp⟩) (.inl (by simp [hprepare]))
  · rw [hrun]
    cases hx : DeviceRepository.named deviceName c.tables <;> simp [hprepare, Conn.tick]

/-- A device that is there is not found when the step fails. -/
theorem getByName_prepared (hprepare : c.fault c.calls = none) :
    (SQLiteManager.getDeviceByName deviceName c).1 =
      if c.tick.fault c.tick.calls = none then
        ((SQLiteManager.getDeviceByName deviceName).exec c.tables).1
      else .error (lit "device not found: " ++ deviceName) := by
  rw [SQLiteManager.exec_getDeviceByName, SQLiteManager.getDeviceByName, DeviceRepository.getByName,
    Sql.bind_ok (prepare_ok hprepare)]
  have htables : c.tick.tables = c.tables := rfl
  split
  · next hstep =>
    rw [Sql.bind_ok (firstRow_ok hstep), htables]
    cases DeviceRepository.named deviceName c.tables <;> rfl
  · next hstep =>
    rw [Sql.bind_ok (firstRow_fault hstep)]
    rfl

theorem complete_getDeviceByName : (getDeviceByName deviceName).Complete c ↔
    c.fault c.calls ≠ none ∨
      StepsSucceed c.tick ((getDeviceByName deviceName).rowCount c.tables) := by
  show CompleteRead (SQLiteManager.getDeviceByName deviceName)
    (some (lit "device not found: " ++ deviceName)) c ↔ _ ∨
    StepsSucceed c.tick ((DeviceRepository.named deviceName c.tables).elim 0 fun _ => 1)
  rw [CompleteRead, stepsSucceed_named]
  cases hprepare : c.fault c.calls with
  | some e =>
    have hrun : (SQLiteManager.getDeviceByName deviceName c).1 = .error e := by
      rw [SQLiteManager.getDeviceByName, DeviceRepository.getByName,
        Sql.bind_error (prepare_error hprepare)]
    exact iff_of_true (.inr ⟨e, hrun, fun _ => rfl⟩) (.inl (by simp))
  | none =>
    rw [getByName_prepared hprepare]
    by_cases hstep : c.tick.fault c.tick.calls = none
    · rw [if_pos hstep]
      exact iff_of_true (.inl rfl) (.inr (.inr hstep))
    · rw [if_neg hstep]
      rw [SQLiteManager.exec_getDeviceByName]
      cases DeviceRepository.named deviceName c.tables <;> simp [hstep]

end Single

/-- A read is complete exactly when its statement cannot be prepared or no step that would return a
row fails. -/
theorem complete_iff (reader : Reader) (c : Conn) : reader.Complete c ↔
    c.fault c.calls ≠ none ∨ StepsSucceed c.tick (reader.rowCount c.tables) := by
  cases reader with
  | getDevices => exact readAll_complete_iff
  | getDataPointsByDeviceName deviceName => exact readAll_complete_iff
  | getLatestResources deviceName => exact readAll_complete_iff
  | getDeviceByName deviceName => exact complete_getDeviceByName
  | deviceExists deviceName => exact complete_deviceExists

/-- One device `A`; the step that would return its row is going to fail. -/
def failingStep : Conn where
  tables := ((SQLiteManager.createDevice { name := lit "A", model := lit "M1" }).exec .empty).2
  fault := fun call => if call = 1 then some (lit "database is locked") else none

/-- The list of devices comes out empty, and `A` is taken not to be there. -/
theorem not_complete_failingStep : ¬ getDevices.Complete failingStep ∧
    ¬ (deviceExists (lit "A")).Complete failingStep ∧
    ¬ (getDeviceByName (lit "A")).Complete failingStep := by
  exact ⟨fun h => absurd (readAll_complete_iff.mp h) (by decide),
    fun h => absurd (complete_deviceExists.mp h) (by decide),
    fun h => absurd (complete_getDeviceByName.mp h) (by decide)⟩

end Reader

end CollectorService
