import CollectorService.SQLiteManager

/-!
# When a mutation of the manager is all-or-nothing

Any call of the SQLite API may fail. The operations that open a transaction, and `createDevice`
with its single write, throw with the tables as they were. `updateDevice` writes up to three times
without a transaction.

* `BreaksMidway`: the update of the row has been made, and a later statement of `updateDevice`
  fails.
* `allOrNothing_iff`: a mutation is all-or-nothing exactly when it is no such `updateDevice`.
-/

namespace CollectorService

open SQLiteManager (targetName RenameConflict updateEffect_error updateEffect_ok
  updateEffect_dataPoint renameEffect_error renameEffect_device renameEffect_same)
open DeviceRepository (named boundRow readDevice updateEffect)
open DataPointRepository (renameEffect deleteEffect)

/-! ## 1. Mutations -/

/-- The operations of `SQLiteManager` that change the tables. -/
inductive Mutation where
  | createDevice (device : DeviceUpsert)
  | updateDevice (device : DeviceUpsert)
  | deleteDevice (deviceName : Str)
  | replaceDataPointsForDevice (device : Device) (points : List DataPoint)
  | insertResources (records : List ResourceRecord)
  | cleanupResources (maxRowsPerDevice : ℤ)
  | cleanupResourcesForDevice (deviceName : Str) (maxRows : ℤ)

def Mutation.call : Mutation → Sql Unit
  | createDevice device => SQLiteManager.createDevice device
  | updateDevice device => SQLiteManager.updateDevice device
  | deleteDevice deviceName => SQLiteManager.deleteDevice deviceName
  | replaceDataPointsForDevice device points =>
    SQLiteManager.replaceDataPointsForDevice device points
  | insertResources records => SQLiteManager.insertResources records
  | cleanupResources maxRows => SQLiteManager.cleanupResources maxRows
  | cleanupResourcesForDevice deviceName maxRows =>
    SQLiteManager.cleanupResourcesForDevice deviceName maxRows

/-- If the call throws, the tables are what they were before it. -/
def AllOrNothing (m : Sql Unit) (c : Conn) : Prop :=
  ∀ e, (m c).1 = .error e → (m c).2.tables = c.tables

theorem AllOrNothing.of_error {m : Sql Unit} {c c' : Conn} {e : Str}
    (h : m c = (.error e, c')) (htables : c'.tables = c.tables) : AllOrNothing m c := by
  intro e' _
  rw [h]
  exact htables

theorem AllOrNothing.of_ok {m : Sql Unit} {c c' : Conn} (h : m c = (.ok (), c')) :
    AllOrNothing m c := by
  intro e he
  rw [h] at he
  cases he

/-! ## 2. One write, or a transaction -/

section Simple
variable {c : Conn}

/-- `exists` throws when its preparation fails; a failing step reads as `false`. -/
theorem existsByName_run (deviceName : Str) (c : Conn) :
    (∃ e, c.fault c.calls = some e ∧
      DeviceRepository.existsByName deviceName c = (.error e, c.tick)) ∨
    (c.fault c.calls = none ∧ DeviceRepository.existsByName deviceName c =
      (.ok (decide (c.fault (c.calls + 1) = none) && (named deviceName c.tables).isSome),
        c.tick.tick)) := by
  unfold DeviceRepository.existsByName
  cases hprepare : c.fault c.calls with
  | some e => exact .inl ⟨e, rfl, Sql.bind_error (prepare_error hprepare)⟩
  | none =>
    refine .inr ⟨rfl, ?_⟩
    rw [Sql.bind_ok (prepare_ok hprepare)]
    by_cases hstep : c.fault (c.calls + 1) = none
    · rw [Sql.bind_ok (firstRow_ok hstep)]
      simp [hstep, Conn.tick]
    · rw [Sql.bind_ok (firstRow_fault hstep)]
      simp [hstep]

theorem allOrNothing_statement (effect : Database → Except Str Database) :
    AllOrNothing (prepare >>= fun _ => stepDone effect) c := by
  by_cases h : c.fault c.calls ≠ none ∨ c.fault (c.calls + 1) ≠ none ∨
      ∃ e, effect c.tables = .error e
  · obtain ⟨e, n, hrun⟩ := statement_error h
    exact .of_error hrun rfl
  · push Not at h
    obtain ⟨hprepare, hstep, heffect⟩ := h
    cases heff : effect c.tables with
    | error e => exact absurd heff (heffect e)
    | ok t => exact .of_ok (statement_ok hprepare hstep heff)

theorem allOrNothing_withTransaction {body : Sql Unit} (hbody : body.Plain) :
    AllOrNothing (withTransaction body) c := fun _ => withTransaction_atomic hbody

theorem allOrNothing_createDevice (device : DeviceUpsert) :
    AllOrNothing (SQLiteManager.createDevice device) c := by
  intro e
  unfold SQLiteManager.createDevice
  rcases existsByName_run device.name c with ⟨e', -, hexists⟩ | ⟨-, hexists⟩
  · rw [Sql.bind_error hexists]
    exact fun _ => rfl
  · rw [Sql.bind_ok hexists]
    split
    · exact fun _ => rfl
    · exact fun he => allOrNothing_statement _ e he

theorem plain_removeDevice (deviceName : Str) :
    (DataPointRepository.deleteByDeviceName deviceName >>= fun _ =>
      DeviceRepository.remove deviceName).Plain :=
  (Sql.Plain.prepare.bind fun _ => .stepDone _).bind fun _ =>
    Sql.Plain.prepare.bind fun _ => .stepDone _

theorem allOrNothing_deleteDevice (deviceName : Str) :
    AllOrNothing (SQLiteManager.deleteDevice deviceName) c := by
  intro e
  unfold SQLiteManager.deleteDevice
  rcases existsByName_run deviceName c with ⟨e', -, hexists⟩ | ⟨-, hexists⟩
  · rw [Sql.bind_error hexists]
    exact fun _ => rfl
  · rw [Sql.bind_ok hexists]
    split
    · exact fun _ => rfl
    · exact fun he => allOrNothing_withTransaction (plain_removeDevice deviceName) e he

theorem plain_replaceForDevice (device : Device) (points : List DataPoint) :
    (DataPointRepository.replaceForDevice device points).Plain :=
  (Sql.Plain.prepare.bind fun _ => .stepDone _).bind fun _ =>
    Sql.Plain.prepare.bind fun _ => .stepEach _ _

theorem plain_insert (records : List ResourceRecord) :
    (ResourceRepository.insert records).Plain :=
  Sql.Plain.prepare.bind fun _ => .stepEach _ _

theorem plain_cleanupResources (maxRows : ℤ) :
    (ResourceRetentionService.cleanupResources maxRows).Plain := by
  unfold ResourceRetentionService.cleanupResources
  split
  · exact .pure ()
  · exact Sql.Plain.prepare.bind fun _ => .stepDone _

theorem plain_cleanupResourcesForDevice (deviceName : Str) (maxRows : ℤ) :
    (ResourceRetentionService.cleanupResourcesForDevice deviceName maxRows).Plain := by
  unfold ResourceRetentionService.cleanupResourcesForDevice
  split
  · exact .pure ()
  · exact Sql.Plain.prepare.bind fun _ => .stepDone _

end Simple

/-! ## 3. The checks of `updateDevice` -/

section Update
variable {c : Conn} {device : DeviceUpsert} {existing : Device} {x : ℕ × DeviceRow}

/-- The checks of `updateDevice` find the row `x` and no row under the new name. A failing step of
the second check reads as if there were none. -/
structure ChecksPass (device : DeviceUpsert) (c : Conn) (x : ℕ × DeviceRow) : Prop where
  read : c.fault c.calls = none ∧ c.fault (c.calls + 1) = none
  found : named (targetName device) c.tables = some x
  fresh : device.name ≠ targetName device → c.fault (c.calls + 2) = none ∧
    (c.fault (c.calls + 3) = none → named device.name c.tables = none)

/-- The number of the first call after the checks. -/
def firstWrite (device : DeviceUpsert) (c : Conn) : ℕ :=
  if device.name ≠ targetName device then c.calls + 4 else c.calls + 2

/-- The statements after the update of the row. -/
def laterWrites (device : DeviceUpsert) (existing : Device) : Sql Unit := do
  if device.name ≠ targetName device then
    DataPointRepository.renameDevice (targetName device) device.name
  if existing.model ≠ device.model ∨ existing.modelVersion ≠ device.modelVersion then
    DataPointRepository.deleteByDeviceName device.name

theorem getByName_run (deviceName : Str) (c : Conn) :
    ((c.fault c.calls ≠ none ∨ c.fault (c.calls + 1) ≠ none ∨ named deviceName c.tables = none) ∧
      ∃ e n, DeviceRepository.getByName deviceName c = (.error e, { c with calls := n })) ∨
    ∃ x, c.fault c.calls = none ∧ c.fault (c.calls + 1) = none ∧
      named deviceName c.tables = some x ∧
      DeviceRepository.getByName deviceName c = (.ok (readDevice x), c.tick.tick) := by
  unfold DeviceRepository.getByName
  cases hprepare : c.fault c.calls with
  | some e => exact .inl ⟨by simp, e, c.calls + 1, Sql.bind_error (prepare_error hprepare)⟩
  | none =>
    rw [Sql.bind_ok (prepare_ok hprepare)]
    by_cases hstep : c.fault (c.calls + 1) = none
    · rw [Sql.bind_ok (firstRow_ok hstep)]
      cases hx : named deviceName c.tables with
      | none =>
        refine .inl ⟨by simp, lit "device not found: " ++ deviceName, c.calls + 2, ?_⟩
        simp [Conn.tick, hx]
      | some x => exact .inr ⟨x, rfl, hstep, rfl, by simp [Conn.tick, hx]⟩
    · rw [Sql.bind_ok (firstRow_fault hstep)]
      exact .inl ⟨.inr (.inl hstep), lit "device not found: " ++ deviceName, c.calls + 2, rfl⟩

/-- `updateDevice` throws before it writes, or goes on to its statements. -/
theorem updateDevice_run (device : DeviceUpsert) (c : Conn) :
    ((∀ x, ¬ ChecksPass device c x) ∧
      ∃ e n, SQLiteManager.updateDevice device c = (.error e, { c with calls := n })) ∨
    ∃ x, ChecksPass device c x ∧ SQLiteManager.updateDevice device c =
      (DeviceRepository.update device (targetName device) >>= fun _ =>
        laterWrites device (readDevice x)) { c with calls := firstWrite device c } := by
  unfold SQLiteManager.updateDevice
  rcases getByName_run (targetName device) c with ⟨hfail, e, n, hget⟩ | ⟨x, h₀, h₁, hx, hget⟩
  · refine .inl ⟨fun x hpass => ?_, e, n, Sql.bind_error hget⟩
    rcases hfail with hfail | hfail | hfail
    · exact hfail hpass.read.1
    · exact hfail hpass.read.2
    · rw [hpass.found] at hfail
      cases hfail
  · rw [Sql.bind_ok hget]
    by_cases hname : device.name = targetName device
    · refine .inr ⟨x, ⟨⟨h₀, h₁⟩, hx, fun hne => absurd hname hne⟩, ?_⟩
      simp only [laterWrites, firstWrite, hname, ne_eq, not_true_eq_false, if_false]
      rfl
    · simp only [hname, ne_eq, not_false_eq_true, if_true]
      rcases existsByName_run device.name c.tick.tick with ⟨e, hfault, hexists⟩ | ⟨hfault, hexists⟩
      · refine .inl ⟨fun y hpass => ?_, e, c.calls + 3, Sql.bind_error hexists⟩
        have hfresh := (hpass.fresh hname).1
        rw [show c.fault (c.calls + 2) = some e from hfault] at hfresh
        cases hfresh
      · rw [Sql.bind_ok hexists]
        by_cases hnew : c.fault (c.calls + 3) = none → named device.name c.tables = none
        · refine .inr ⟨x, ⟨⟨h₀, h₁⟩, hx, fun _ => ⟨hfault, hnew⟩⟩, ?_⟩
          have hfalse : (decide (c.fault (c.calls + 3) = none) &&
              (named device.name c.tables).isSome) = false := by
            by_cases hstep : c.fault (c.calls + 3) = none
            · simp [hnew hstep]
            · simp [hstep]
          rw [show (decide (c.tick.tick.fault (c.tick.tick.calls + 1) = none) &&
              (named device.name c.tick.tick.tables).isSome) = false from hfalse]
          simp only [laterWrites, firstWrite, hname, ne_eq, not_false_eq_true, if_true,
            Bool.false_eq_true, if_false]
          rfl
        · push Not at hnew
          refine .inl ⟨fun y hpass => hnew.2 ((hpass.fresh hname).2 hnew.1),
            lit "device already exists: " ++ device.name, c.calls + 4, ?_⟩
          have htrue : (decide (c.fault (c.calls + 3) = none) &&
              (named device.name c.tables).isSome) = true := by
            simp [hnew.1, Option.isSome_iff_ne_none, hnew.2]
          rw [show (decide (c.tick.tick.fault (c.tick.tick.calls + 1) = none) &&
              (named device.name c.tick.tick.tables).isSome) = true from htrue]
          rfl

/-! ## 4. The writes of `updateDevice` -/

/-- The update of the row `x` succeeds and changes the row. -/
structure RowWritten (device : DeviceUpsert) (c : Conn) (x : ℕ × DeviceRow) : Prop where
  healthy : c.fault (firstWrite device c) = none ∧ c.fault (firstWrite device c + 1) = none
  alone : ∀ y ∈ c.tables.device.rows, y.2.name = bindText device.name → y = x
  changed : boundRow device ≠ x.2

/-- One of the statements after the update of the row fails; the first of their calls is the next
call of the connection. -/
def LaterWriteFails (device : DeviceUpsert) (existing : Device) (c : Conn) : Prop :=
  let next := if device.name ≠ targetName device then c.calls + 2 else c.calls
  (device.name ≠ targetName device ∧ (c.fault c.calls ≠ none ∨ c.fault (c.calls + 1) ≠ none ∨
    RenameConflict (targetName device) device.name c.tables)) ∨
  ((existing.model ≠ device.model ∨ existing.modelVersion ≠ device.modelVersion) ∧
    (c.fault next ≠ none ∨ c.fault (next + 1) ≠ none))

/-- The deletion of the data points, when the model changes. -/
theorem laterDelete_run (device : DeviceUpsert) (existing : Device) (c : Conn) :
    let delete := if existing.model ≠ device.model ∨ existing.modelVersion ≠ device.modelVersion then
      DataPointRepository.deleteByDeviceName device.name else pure ()
    (((existing.model ≠ device.model ∨ existing.modelVersion ≠ device.modelVersion) ∧
        (c.fault c.calls ≠ none ∨ c.fault (c.calls + 1) ≠ none)) ∧
      ∃ e n, delete c = (.error e, { c with calls := n })) ∨
    ¬ ((existing.model ≠ device.model ∨ existing.modelVersion ≠ device.modelVersion) ∧
        (c.fault c.calls ≠ none ∨ c.fault (c.calls + 1) ≠ none)) ∧
      ∃ c', delete c = (.ok (), c') := by
  by_cases hmodel : existing.model ≠ device.model ∨ existing.modelVersion ≠ device.modelVersion
  · simp only [hmodel, if_true, true_and]
    by_cases hfault : c.fault c.calls ≠ none ∨ c.fault (c.calls + 1) ≠ none
    · exact .inl ⟨hfault, statement_error (by tauto)⟩
    · push Not at hfault
      exact .inr ⟨by tauto, _, statement_ok hfault.1 hfault.2 rfl⟩
  · simp only [hmodel, if_false, false_and, not_false_eq_true, true_and]
    exact .inr ⟨c, rfl⟩

/-- The statements after the update of the row throw exactly when one of them fails. None of them
touches `Device`, and none of them writes when the names are one in the database. -/
theorem laterWrites_run (device : DeviceUpsert) (existing : Device) (c : Conn) :
    (LaterWriteFails device existing c ∧ ∃ e c', laterWrites device existing c = (.error e, c') ∧
      c'.tables.device = c.tables.device ∧
      (bindText device.name = bindText (targetName device) → c'.tables = c.tables)) ∨
    (¬ LaterWriteFails device existing c ∧ ∃ c', laterWrites device existing c = (.ok (), c')) := by
  unfold laterWrites LaterWriteFails
  by_cases hname : device.name = targetName device
  · simp only [hname, ne_eq, not_true_eq_false, if_false, false_and, false_or]
    rcases laterDelete_run device existing c with ⟨hfail, e, n, hrun⟩ | ⟨hfail, c', hrun⟩
    · refine .inl ⟨hfail, e, { c with calls := n }, ?_, rfl, fun _ => rfl⟩
      rw [← hname]
      exact hrun
    · refine .inr ⟨hfail, c', ?_⟩
      rw [← hname]
      exact hrun
  · simp only [hname, ne_eq, not_false_eq_true, if_true, true_and]
    by_cases hrename : c.fault c.calls ≠ none ∨ c.fault (c.calls + 1) ≠ none ∨
        ∃ e, renameEffect (targetName device) device.name c.tables = .error e
    · obtain ⟨e, n, hrun⟩ := statement_error hrename
      rw [renameEffect_error] at hrename
      exact .inl ⟨.inl hrename, e, _, Sql.bind_error hrun, rfl, fun _ => rfl⟩
    · have hrename' := hrename
      rw [renameEffect_error] at hrename'
      push Not at hrename
      obtain ⟨hprepare, hstep, heffect⟩ := hrename
      cases heff : renameEffect (targetName device) device.name c.tables with
      | error e => exact absurd heff (heffect e)
      | ok t =>
        have hrun : DataPointRepository.renameDevice (targetName device) device.name c =
            (.ok (), { c with tables := t, calls := c.calls + 2 }) :=
          statement_ok hprepare hstep heff
        rw [Sql.bind_ok hrun]
        rcases laterDelete_run device existing { c with tables := t, calls := c.calls + 2 } with
          ⟨hfail, e, n, hdel⟩ | ⟨hfail, c', hdel⟩
        · refine .inl ⟨.inr hfail, e, _, hdel, ?_, fun hsame => ?_⟩
          · exact renameEffect_device heff
          · exact renameEffect_same hsame.symm heff
        · exact .inr ⟨by tauto, c', hdel⟩

/-- `updateDevice` has updated the row, and one of the statements after that fails. -/
def BreaksMidway (device : DeviceUpsert) (c : Conn) : Prop :=
  ∃ x, ChecksPass device c x ∧ RowWritten device c x ∧
    LaterWriteFails device (readDevice x) { c with calls := firstWrite device c + 2 }

theorem allOrNothing_updateDevice :
    AllOrNothing (SQLiteManager.updateDevice device) c ↔ ¬ BreaksMidway device c := by
  rcases updateDevice_run device c with ⟨hfail, e, n, hrun⟩ | ⟨x, hpass, hrun⟩
  · refine iff_of_true (.of_error hrun rfl) ?_
    rintro ⟨x, hpass, -⟩
    exact hfail x hpass
  have honly : ∀ y, ChecksPass device c y → y = x := fun y hy =>
    Option.some.inj (hy.found.symm.trans hpass.found)
  by_cases hupdate : c.fault (firstWrite device c) ≠ none ∨
      c.fault (firstWrite device c + 1) ≠ none ∨
      ∃ e, updateEffect device (targetName device) c.tables = .error e
  · -- the update of the row fails, and nothing has been written
    obtain ⟨e, n, hstmt⟩ := statement_error (c := { c with calls := firstWrite device c }) hupdate
    refine iff_of_true (.of_error (hrun.trans (Sql.bind_error hstmt)) rfl) ?_
    rintro ⟨y, hy, hwritten, -⟩
    cases honly y hy
    rcases hupdate with hfault | hfault | herror
    · exact hfault hwritten.healthy.1
    · exact hfault hwritten.healthy.2
    · obtain ⟨z, hz, hzname, hne⟩ := (updateEffect_error hpass.found).mp herror
      exact hne (hwritten.alone z hz hzname)
  · have halone := mt (updateEffect_error hpass.found).mpr fun h => hupdate (.inr (.inr h))
    push Not at hupdate halone
    obtain ⟨hprepare, hstep, heffect⟩ := hupdate
    cases heff : updateEffect device (targetName device) c.tables with
    | error e => exact absurd heff (heffect e)
    | ok t =>
      have hpoints := updateEffect_dataPoint heff
      obtain ⟨hdevice, hsame⟩ := updateEffect_ok hpass.found heff
      have hstmt : DeviceRepository.update device (targetName device)
          { c with calls := firstWrite device c } =
          (.ok (), { c with tables := t, calls := firstWrite device c + 2 }) :=
        statement_ok (c := { c with calls := firstWrite device c }) hprepare hstep heff
      have hlater : LaterWriteFails device (readDevice x)
          { c with tables := t, calls := firstWrite device c + 2 } ↔
          LaterWriteFails device (readDevice x) { c with calls := firstWrite device c + 2 } := by
        simp only [LaterWriteFails, RenameConflict, hpoints]
      rw [Sql.bind_ok hstmt] at hrun
      rcases laterWrites_run device (readDevice x)
        { c with tables := t, calls := firstWrite device c + 2 } with
        ⟨hfail, e, c', hrest, hkept, hquiet⟩ | ⟨hfail, c', hrest⟩
      · by_cases hchanged : boundRow device = x.2
        · -- the row was written as it stood, so both names are one in the database
          have hnames : bindText device.name = bindText (targetName device) :=
            (congrArg DeviceRow.name hchanged).trans
              (DeviceRepository.named_eq_some.mp hpass.found).2
          refine iff_of_true (.of_error (hrun.trans hrest) ?_) ?_
          · rw [hquiet hnames]
            exact hsame (hdevice.mpr hchanged)
          · rintro ⟨y, hy, hwritten, -⟩
            cases honly y hy
            exact hwritten.changed hchanged
        · refine iff_of_false ?_ (not_not.mpr ⟨x, hpass, ⟨⟨hprepare, hstep⟩, halone, hchanged⟩,
            hlater.mp hfail⟩)
          intro hall
          have htables := hall e (by rw [hrun, hrest])
          rw [hrun, hrest] at htables
          exact hchanged (hdevice.mp (hkept.symm.trans (congrArg Database.device htables)))
      · refine iff_of_true (.of_ok (hrun.trans hrest)) ?_
        rintro ⟨y, hy, -, hlaterfail⟩
        cases honly y hy
        exact hfail (hlater.mpr hlaterfail)

end Update

/-! ## 5. All mutations -/

/-- A mutation of the manager leaves the tables as they were whenever it throws, except exactly when
it is an `updateDevice` that breaks midway. -/
theorem allOrNothing_iff (m : Mutation) (c : Conn) :
    AllOrNothing m.call c ↔ ∀ device, m = .updateDevice device → ¬ BreaksMidway device c := by
  cases m with
  | updateDevice device => simpa [Mutation.call] using allOrNothing_updateDevice
  | createDevice device => exact iff_of_true (allOrNothing_createDevice device) (by simp)
  | deleteDevice deviceName => exact iff_of_true (allOrNothing_deleteDevice deviceName) (by simp)
  | replaceDataPointsForDevice device points =>
    exact iff_of_true (allOrNothing_withTransaction (plain_replaceForDevice device points)) (by simp)
  | insertResources records =>
    exact iff_of_true (allOrNothing_withTransaction (plain_insert records)) (by simp)
  | cleanupResources maxRows =>
    exact iff_of_true (allOrNothing_withTransaction (plain_cleanupResources maxRows)) (by simp)
  | cleanupResourcesForDevice deviceName maxRows =>
    exact iff_of_true
      (allOrNothing_withTransaction (plain_cleanupResourcesForDevice deviceName maxRows)) (by simp)

/-- One device `A`; the last call of renaming its data points is going to fail. -/
def failingRename : Conn where
  tables := ((SQLiteManager.createDevice { name := lit "A", model := lit "M1" }).exec .empty).2
  fault := fun call => if call = 7 then some (lit "disk I/O error") else none

/-- Renaming `A` to `B` throws and leaves the renamed row behind. -/
theorem updateDevice_failingRename : ¬ AllOrNothing
    (Mutation.updateDevice { oldName := lit "A", name := lit "B", model := lit "M1" }).call
    failingRename := by
  intro hall
  have htables := hall (lit "disk I/O error") rfl
  have hnames := congrArg (fun t : Database => t.device.rows.map (·.2.name.bytes)) htables
  revert hnames
  decide

end CollectorService
