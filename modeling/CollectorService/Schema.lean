import CollectorService.Database
import CollectorService.Search
import CollectorService.Steps

/-!
# The schema of a database file

`SQLiteManager` opens its file, runs `init.sql` and adds the column `Status` to a `Device` table of an
earlier version. Every statement is committed on its own, and each of them may fail or be the last one
before the process ends, so a file may be left with some of its tables, or without the column.

* `DatabaseFile.tables`: the rows that a file holds, whatever its schema.
* `initializeSchema_complete`: a start that succeeds leaves a complete schema and the same rows.
* `schema_of_reach`: over any sequence of starts that fail or succeed, operations and ends.
-/

namespace CollectorService

open Steps

/-! ## 1. Files -/

/-- A row of a `Device` table without `Status`. -/
structure UnmigratedRow where
  name : SqlText
  ipAddr : Option SqlText
  port : Option ℤ
  sampleInterval : Option ℤ
  model : Option SqlText
  modelVersion : Option SqlText
  driverPath : Option SqlText
  deriving DecidableEq

/-- `Name TEXT NOT NULL UNIQUE`. -/
def UnmigratedRow.compat (a b : UnmigratedRow) : Prop := a.name ≠ b.name

/-- `Status INTEGER NOT NULL DEFAULT 1`. -/
def UnmigratedRow.withStatus (r : UnmigratedRow) : DeviceRow where
  name := r.name
  ipAddr := r.ipAddr
  port := r.port
  sampleInterval := r.sampleInterval
  status := 1
  model := r.model
  modelVersion := r.modelVersion
  driverPath := r.driverPath

/-- `Device` in a file. -/
inductive DeviceFile where
  | missing
  | unmigrated (table : AutoTable UnmigratedRow UnmigratedRow.compat)
  | current (table : DeviceTable)

structure DatabaseFile where
  device : DeviceFile := .missing
  dataPoint : Option DataPointTable := none
  resources : Option ResourceTable := none

/-- The rows of a file; a table that is missing has none. -/
def DatabaseFile.tables (f : DatabaseFile) : Database where
  device := match f.device with
    | .missing => .empty
    | .unmigrated t => t.mapRows UnmigratedRow.withStatus fun _ _ h => h
    | .current t => t
  dataPoint := f.dataPoint.getD .empty
  resources := f.resources.getD .empty

/-- The tables as the repositories expect them. -/
def DatabaseFile.tables? (f : DatabaseFile) : Option Database :=
  match f.device, f.dataPoint, f.resources with
  | .current device, some dataPoint, some resources => some ⟨device, dataPoint, resources⟩
  | _, _, _ => none

def Database.toFile (t : Database) : DatabaseFile where
  device := .current t.device
  dataPoint := some t.dataPoint
  resources := some t.resources

@[simp] theorem Database.tables_toFile (t : Database) : t.toFile.tables = t := rfl

/-! ## 2. Statements -/

/-- The statements of `init.sql`, and the one that adds the column. -/
inductive SchemaStatement where
  | createDevice
  | createDataPoint
  | createResources
  | addStatus
  deriving DecidableEq

/-- `init.sql`. -/
def initSql : List SchemaStatement := [.createDevice, .createDataPoint, .createResources]

def SchemaStatement.effect (f : DatabaseFile) : SchemaStatement → Except Str DatabaseFile
  | createDevice => .ok { f with
      device := match f.device with
        | .missing => .current .empty
        | device => device }
  | createDataPoint => .ok { f with dataPoint := some (f.dataPoint.getD .empty) }
  | createResources => .ok { f with resources := some (f.resources.getD .empty) }
  | addStatus => match f.device with
    | .missing => .error (lit "no such table: Device")
    | .unmigrated t => .ok { f with
        device := .current (t.mapRows UnmigratedRow.withStatus fun _ _ h => h) }
    | .current _ => .error (lit "duplicate column name: Status")

/-- The connection to a file; the call with a number may fail. -/
structure FileConnection where
  file : DatabaseFile
  calls : ℕ := 0
  fault : ℕ → Option Str := fun _ => none

def FileConnection.tick (c : FileConnection) : FileConnection := { c with calls := c.calls + 1 }

/-- One statement; one that fails leaves the file. -/
def runStatement (s : SchemaStatement) (c : FileConnection) : Except Str Unit × FileConnection :=
  match c.fault c.calls with
  | some e => (.error e, c.tick)
  | none => match s.effect c.file with
    | .ok f => (.ok (), { c.tick with file := f })
    | .error e => (.error e, c.tick)

/-- `SQLiteConnection::execute`: the statements of a text, up to the first that fails. -/
def execute : List SchemaStatement → FileConnection → Except Str Unit × FileConnection
  | [], c => (.ok (), c)
  | s :: rest, c => match runStatement s c with
    | (.ok _, c') => execute rest c'
    | (.error e, c') => (.error e, c')

namespace SQLiteManager

def isDuplicateColumnError (message : Str) : Bool :=
  (Search.afterFirst (lit "duplicate column name") message).isSome

/-- `initializeSchema`; `readable` tells whether `readTextFile` can open the file. -/
def initializeSchema (initSqlPath : Str) (readable : Bool) (c : FileConnection) :
    Except Str Unit × FileConnection :=
  if !readable then (.error (lit "failed to open SQL file: " ++ initSqlPath), c)
  else match execute initSql c with
    | (.error e, c) => (.error e, c)
    | (.ok _, c) => match execute [.addStatus] c with
      | (.error e, c) => if isDuplicateColumnError (cString e) then (.ok (), c) else (.error e, c)
      | (.ok _, c) => (.ok (), c)

/-- The constructors of `SQLiteConnection` and `SQLiteManager`. -/
def openDatabase (initSqlPath : Str) (readable : Bool) (c : FileConnection) :
    Except Str Unit × FileConnection :=
  match c.fault c.calls with
  | some e => (.error (lit "failed to open database: " ++ e), c.tick)
  | none => initializeSchema initSqlPath readable c.tick

end SQLiteManager

/-! ## 3. What a start does -/

/-- The repositories find all their tables. -/
def DatabaseFile.Complete (f : DatabaseFile) : Prop := f.tables? = some f.tables

/-- The failures are not those of a column that exists. -/
def FileConnection.Unmistakable (c : FileConnection) : Prop :=
  ∀ n e, c.fault n = some e → SQLiteManager.isDuplicateColumnError e = false

section Start
variable {f f' : DatabaseFile} {c c' : FileConnection} {r : Except Str Unit}

/-- No statement changes a row. -/
theorem effect_tables {s : SchemaStatement} (h : s.effect f = .ok f') : f'.tables = f.tables := by
  cases s with
  | createDevice =>
    cases h
    cases hdevice : f.device <;> simp [DatabaseFile.tables, hdevice]
  | createDataPoint | createResources =>
    cases h
    simp [DatabaseFile.tables]
  | addStatus =>
    cases hdevice : f.device <;> simp only [SchemaStatement.effect, hdevice] at h <;> cases h
    simp [DatabaseFile.tables, hdevice]

theorem runStatement_cases {s : SchemaStatement} (h : runStatement s c = (r, c')) :
    c'.fault = c.fault ∧ ((r = .ok () ∧ s.effect c.file = .ok c'.file) ∨
      c'.file = c.file ∧ ∃ e, r = .error e ∧
        (c.fault c.calls = some e ∨ s.effect c.file = .error e)) := by
  unfold runStatement at h
  split at h
  · next e hfault =>
    cases h
    exact ⟨rfl, .inr ⟨rfl, e, rfl, .inl hfault⟩⟩
  · split at h
    · next hok =>
      cases h
      exact ⟨rfl, .inl ⟨rfl, hok⟩⟩
    · next e herror =>
      cases h
      exact ⟨rfl, .inr ⟨rfl, e, rfl, .inr herror⟩⟩

theorem execute_tables : ∀ {ss : List SchemaStatement} {c c' : FileConnection},
    execute ss c = (r, c') → c'.file.tables = c.file.tables ∧ c'.fault = c.fault
  | [], _, _, h => by
    cases h
    exact ⟨rfl, rfl⟩
  | s :: ss, c, c', h => by
    unfold execute at h
    split at h
    · next c₁ hrun =>
      obtain ⟨hfault, ⟨-, heffect⟩ | ⟨-, e, he, -⟩⟩ := runStatement_cases hrun
      · obtain ⟨htables, hfault'⟩ := execute_tables h
        exact ⟨htables.trans (effect_tables heffect), hfault'.trans hfault⟩
      · cases he
    · next hrun =>
      cases h
      obtain ⟨hfault, ⟨he, -⟩ | ⟨hfile, -⟩⟩ := runStatement_cases hrun
      · cases he
      · exact ⟨congrArg DatabaseFile.tables hfile, hfault⟩

/-- When no statement fails, each of them has had its effect. -/
theorem execute_ok : ∀ {ss : List SchemaStatement} {c c' : FileConnection},
    execute ss c = (.ok (), c') → ss.foldlM (fun f s => s.effect f) c.file = .ok c'.file
  | [], _, _, h => by
    cases h
    rfl
  | s :: ss, c, c', h => by
    unfold execute at h
    split at h
    · next c₁ hrun =>
      obtain ⟨-, ⟨-, heffect⟩ | ⟨-, e, he, -⟩⟩ := runStatement_cases hrun
      · rw [List.foldlM_cons, heffect]
        exact execute_ok h
      · cases he
    · cases h

/-- After `init.sql` every table is there. -/
theorem execute_initSql (h : execute initSql c = (.ok (), c')) :
    c'.file.device ≠ .missing ∧ c'.file.dataPoint.isSome ∧ c'.file.resources.isSome := by
  rw [← Except.ok.inj (execute_ok h)]
  refine ⟨?_, rfl, rfl⟩
  cases hdevice : c.file.device <;> simp

theorem complete_of_current {t : DeviceTable} (hdevice : f.device = .current t)
    (hpoints : f.dataPoint.isSome) (hresources : f.resources.isSome) : f.Complete := by
  obtain ⟨device, dataPoint, resources⟩ := f
  obtain ⟨points, rfl⟩ := Option.isSome_iff_exists.mp hpoints
  obtain ⟨records, rfl⟩ := Option.isSome_iff_exists.mp hresources
  cases hdevice
  rfl

namespace SQLiteManager

variable {initSqlPath : Str} {readable : Bool}

/-- Whatever fails, the rows stay. -/
theorem initializeSchema_tables (h : initializeSchema initSqlPath readable c = (r, c')) :
    c'.file.tables = c.file.tables := by
  unfold initializeSchema at h
  split at h
  · cases h
    rfl
  · split at h
    · next hinit =>
      cases h
      exact (execute_tables hinit).1
    · next hinit =>
      have hsame := (execute_tables hinit).1
      split at h
      · next hadd =>
        have hsame' := (execute_tables hadd).1.trans hsame
        split at h <;> cases h <;> exact hsame'
      · next hadd =>
        cases h
        exact (execute_tables hadd).1.trans hsame

/-- What is found in `what()` is in the message. -/
theorem isDuplicateColumnError_of_cString {e : Str} (h : isDuplicateColumnError (cString e) = true) :
    isDuplicateColumnError e = true := by
  obtain ⟨rest, hrest⟩ := Option.isSome_iff_exists.mp h
  have hfound := Search.afterFirst_append_right hrest (e.dropWhile (· ≠ 0))
  rw [cString, List.takeWhile_append_dropWhile] at hfound
  exact Option.isSome_iff_exists.mpr ⟨_, hfound⟩

/-- The column is there when it has been added, or was there before. -/
theorem execute_addStatus (hfault : c.Unmistakable) (hdevice : c.file.device ≠ .missing)
    (h : execute [.addStatus] c = (r, c'))
    (hr : ∀ e, r = .error e → isDuplicateColumnError e = true) :
    (∃ t, c'.file.device = .current t) ∧ c'.file.dataPoint = c.file.dataPoint ∧
      c'.file.resources = c.file.resources := by
  rcases hrun : runStatement .addStatus c with ⟨r₁, c₁⟩
  obtain ⟨-, ⟨rfl, heffect⟩ | ⟨hfile, e, rfl, hcause⟩⟩ := runStatement_cases hrun
  · simp only [execute, hrun] at h
    cases h
    cases hold : c.file.device with
    | missing => exact absurd hold hdevice
    | unmigrated t =>
      simp only [SchemaStatement.effect, hold, Except.ok.injEq] at heffect
      rw [← heffect]
      exact ⟨⟨_, rfl⟩, rfl, rfl⟩
    | current t => simp [SchemaStatement.effect, hold] at heffect
  · simp only [execute, hrun] at h
    cases h
    rw [hfile]
    refine ⟨?_, rfl, rfl⟩
    rcases hcause with hcause | hcause
    · have hduplicate := hr e rfl
      rw [hfault _ _ hcause] at hduplicate
      cases hduplicate
    · cases hold : c.file.device with
      | missing => exact absurd hold hdevice
      | unmigrated t => simp [SchemaStatement.effect, hold] at hcause
      | current t => exact ⟨t, rfl⟩

/-- A start that succeeds leaves a complete schema. -/
theorem initializeSchema_complete (hfault : c.Unmistakable)
    (h : initializeSchema initSqlPath readable c = (.ok (), c')) : c'.file.Complete := by
  unfold initializeSchema at h
  split at h
  · cases h
  · split at h
    · cases h
    · next c₁ hinit =>
      obtain ⟨hdevice, hpoints, hresources⟩ := execute_initSql hinit
      have hfault₁ : c₁.fault = c.fault := (execute_tables hinit).2
      have hcomplete : ∀ {r c₂}, execute [.addStatus] c₁ = (r, c₂) →
          (∀ e, r = .error e → isDuplicateColumnError e = true) → c₂.file.Complete := by
        intro r c₂ hadd hr
        have hfault' : c₁.Unmistakable := fun n e he => hfault n e (hfault₁ ▸ he)
        obtain ⟨⟨t, ht⟩, hpoints', hresources'⟩ := execute_addStatus hfault' hdevice hadd hr
        exact complete_of_current ht (hpoints' ▸ hpoints) (hresources' ▸ hresources)
      split at h
      · next e c₂ hadd =>
        split at h
        · next hduplicate =>
          cases h
          exact hcomplete hadd fun e' he => by
            cases he
            exact isDuplicateColumnError_of_cString hduplicate
        · cases h
      · next hadd =>
        cases h
        exact hcomplete hadd fun e he => by cases he

theorem openDatabase_tables (h : openDatabase initSqlPath readable c = (r, c')) :
    c'.file.tables = c.file.tables := by
  unfold openDatabase at h
  split at h
  · cases h
    rfl
  · exact initializeSchema_tables (c := c.tick) h

theorem openDatabase_complete (hfault : c.Unmistakable)
    (h : openDatabase initSqlPath readable c = (.ok (), c')) : c'.file.Complete := by
  unfold openDatabase at h
  split at h
  · cases h
  · exact initializeSchema_complete (c := c.tick) hfault h

/-- A start in which nothing fails succeeds, whatever the file. -/
theorem openDatabase_healthy (initSqlPath : Str) (f : DatabaseFile) :
    (openDatabase initSqlPath true { file := f }).1 = .ok () := by
  cases hdevice : f.device with
  | missing | current t =>
    have hduplicate :
        isDuplicateColumnError (cString (lit "duplicate column name: Status")) = true := by
      decide +kernel
    simp [openDatabase, initializeSchema, execute, initSql, runStatement, FileConnection.tick,
      SchemaStatement.effect, hdevice, hduplicate]
  | unmigrated t =>
    simp [openDatabase, initializeSchema, execute, initSql, runStatement, FileConnection.tick,
      SchemaStatement.effect, hdevice]

end SQLiteManager

end Start

/-! ## 4. Starts, operations and ends -/

/-- A database file with the processes that open it, one after the other. -/
structure Installation where
  file : DatabaseFile
  running : Bool := false
  /-- What the operations have made of the rows that were there first. -/
  served : Database := file.tables

inductive LifeAction where
  /-- A process starts. A process that ends while it starts is one whose next call fails. -/
  | starts (fault : ℕ → Option Str) (readable : Bool)
  /-- The calls of the repositories change the tables. -/
  | operates (change : Database → Database)
  | ends

namespace Installation

/-- Where `init.sql` lies. -/
def initSqlPath : Str := lit "scripts/init.sql"

def step (s : Installation) : LifeAction → Option Installation
  | .starts fault readable =>
    if s.running then none
    else
      let r := SQLiteManager.openDatabase initSqlPath readable { file := s.file, fault }
      some { s with file := r.2.file, running := r.1.toBool }
  | .operates change => match s.running, s.file.tables? with
    | true, some t => some { s with file := (change t).toFile, served := change s.served }
    | _, _ => none
  | .ends => some { s with running := false }

/-- The failures of a start are not those of a column that exists. -/
def Unmistakable (_ : Installation) : LifeAction → Prop
  | .starts fault _ => ∀ n e, fault n = some e → SQLiteManager.isDuplicateColumnError e = false
  | _ => True

theorem unmistakable_healthy (s : Installation) : Unmistakable s (.starts (fun _ => none) true) :=
  fun _ _ h => by cases h

/-- The rows are those that the operations have left, and a process that runs finds its tables. -/
structure Kept (s : Installation) : Prop where
  tables : s.file.tables = s.served
  complete : s.running = true → s.file.Complete

theorem Kept.step {s s' : Installation} {action : LifeAction} (hs : s.Kept)
    (haction : Unmistakable s action) (h : s.step action = some s') : s'.Kept := by
  cases action with
  | starts fault readable =>
    simp only [Installation.step] at h
    split at h
    · cases h
    · cases h
      rcases hopen : SQLiteManager.openDatabase initSqlPath readable { file := s.file, fault } with
        ⟨r, c⟩
      refine ⟨(SQLiteManager.openDatabase_tables hopen).trans hs.tables, fun hrunning => ?_⟩
      cases r with
      | error e => cases hrunning
      | ok u =>
        have hfault : FileConnection.Unmistakable { file := s.file, fault } := haction
        exact SQLiteManager.openDatabase_complete hfault hopen
  | operates change =>
    simp only [Installation.step] at h
    split at h
    · next t _ ht =>
      cases h
      have hsame : t = s.served := by
        have hcomplete : s.file.tables? = some s.file.tables := hs.complete ‹_›
        rw [← hs.tables]
        exact Option.some.inj (ht.symm.trans hcomplete)
      exact ⟨congrArg change hsame, fun _ => rfl⟩
    · cases h
  | ends =>
    cases h
    exact ⟨hs.tables, fun hrunning => by cases hrunning⟩

/-- Over any sequence of starts, of which any may fail at any statement, operations and ends, from a file
of any version: the rows are those that the operations have made of the first ones, a process that runs
finds all its tables, and a start in which nothing fails succeeds. -/
theorem schema_of_reach {file : DatabaseFile} {s : Installation}
    (hs : Reach step Unmistakable { file } s) :
    s.file.tables = s.served ∧ (s.running = true → s.file.tables? = some s.served) ∧
      (s.running = false → ∃ s', s.step (.starts (fun _ => none) true) = some s' ∧
        s'.running = true ∧ s'.file.tables? = some s.served) := by
  have hkept : s.Kept := hs.invariant (I := Kept) ⟨rfl, fun h => by cases h⟩
    fun _ _ _ hu haction hstep => hu.step haction hstep
  refine ⟨hkept.tables, fun hrunning => hkept.tables ▸ hkept.complete hrunning, fun hstopped => ?_⟩
  have hok := SQLiteManager.openDatabase_healthy initSqlPath s.file
  have hstep : s.step (.starts (fun _ => none) true) = some { s with
      file := (SQLiteManager.openDatabase initSqlPath true { file := s.file }).2.file
      running := (SQLiteManager.openDatabase initSqlPath true { file := s.file }).1.toBool } := by
    simp [Installation.step, hstopped]
  have hnext := hkept.step (unmistakable_healthy s) hstep
  have hrunning : (SQLiteManager.openDatabase initSqlPath true { file := s.file }).1.toBool = true := by
    rw [hok]
    rfl
  exact ⟨_, hstep, hrunning, hnext.tables ▸ hnext.complete hrunning⟩

/-- A file of the earlier version with one device. -/
def earlierFile : DatabaseFile where
  device := .unmigrated
    { rows := [(1, ⟨bindText (lit "M1"), none, some 9001, none, none, none, none⟩)]
      seq := 1
      ordered := List.pairwise_singleton _ _
      bounded := by simp }

/-- The column cannot be added at first; the next start adds it. -/
theorem schema_of_reach_earlierFile : ∃ s, Reach step Unmistakable { file := earlierFile } s ∧
    s.running = true ∧ ∃ t, s.file.tables? = some t ∧ t.device.rows.map (·.2.status) = [1] := by
  let failing : LifeAction :=
    .starts (fun n => if n = 4 then some (lit "disk I/O error") else none) true
  have hfailing : Unmistakable { file := earlierFile } failing := by
    intro n e he
    dsimp only at he
    split at he <;> cases he
    decide +kernel
  obtain ⟨s, hstep, hstopped, hserved⟩ : ∃ s, step { file := earlierFile } failing = some s ∧
      s.running = false ∧ s.served = earlierFile.tables := ⟨_, rfl, by decide +kernel, rfl⟩
  have hs : Reach step Unmistakable { file := earlierFile } s := .step .start hfailing hstep
  obtain ⟨s', hstep', hrunning, htables⟩ := (schema_of_reach hs).2.2 hstopped
  refine ⟨s', .step hs (unmistakable_healthy s) hstep', hrunning, s.served, htables, ?_⟩
  rw [hserved]
  rfl

end Installation

end CollectorService
