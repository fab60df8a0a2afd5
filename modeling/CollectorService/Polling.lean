import CollectorService.DeviceTask
import CollectorService.MockRecords
import CollectorService.ResourceLog
import CollectorService.Steps

/-!
# A worker and the mock driver

The worker of a device that is on line and has its data points, with the mock driver at the device's
address. Between the cycles others may do to the database what does not concern the device. No call on
the database fails.

* `insertProgram_run`: the records of one cycle.
* `Polled.cycle`: what a cycle does to the log of the device and to its status.
* `polled_of_reach`: every cycle of every run succeeds, and the latest records are those of the last
  cycles.
-/

namespace CollectorService

open DeviceTask
open CollectionQueryBuilder (makeCid buildQuery)
open CollectionResponseParser (processResponse extractBoolField)
open DeviceRepository (name_of_named named readDevice)
open QueryRoundTrip (HavePaths IsNamePath mockRecord)
open ResourceRepository (boundRow rankKey)

/-! ## 1. Runs -/

/-- The mock driver listens at the address of the device, and its clock shows `time`. -/
structure MeetsMock (device : Device) (time : ℚ) (input : CycleInput) : Prop where
  connect : input.connect device.ip device.port = true
  answer : ∀ query, input.answer query = .ok (MockDriverServer.handleQuery query (.ofRat time))

/-- A cycle of the past. -/
structure PastCycle where
  /-- What the driver's clock showed. -/
  time : ℚ
  /-- `nowSeconds()` of the status. -/
  statusTime : Double
  result : CycleResult

/-- The connection, the registry and the variables of a worker, and its cycles, the latest first. -/
structure PollRun where
  state : CycleState
  past : List PastCycle := []

inductive PollEvent where
  /-- A cycle of the worker, while the driver's clock shows `time`. -/
  | cycle (time : ℚ) (input : CycleInput)
  /-- What others do to the tables and to the registry. -/
  | elsewhere (tables : Database) (registry : DeviceStatusStore)

/-- The data points that are stored for a device. -/
def storedPoints (name : SqlText) (t : Database) : List DataPoint :=
  (t.dataPoint.select fun r => r.dName = some name).map DataPointRepository.readPoint

/-- What concerns a device is the same in both. -/
structure SameForDevice (name : SqlText) (t u : Database) : Prop where
  device : named name.bytes u = named name.bytes t
  points : storedPoints name u = storedPoints name t
  log : logOf name u = logOf name t

namespace PollRun

def step (models : ModelRepository) (run : PollRun) : PollEvent → Option PollRun
  | .cycle time input => some
    { state := (runCycle models input run.state).2
      past := ⟨time, input.statusTime, (runCycle models input run.state).1⟩ :: run.past }
  | .elsewhere tables registry => some
    { run with state := { run.state with conn := { run.state.conn with tables }, registry } }

/-- The cycles meet the mock driver, whose clock does not go back behind what it has shown, nor behind
the records that were there at the start; others leave the device alone. -/
def Admitted (name : SqlText) (device : Device) (start run : PollRun) : PollEvent → Prop
  | .cycle time input => MeetsMock device time input ∧ IsClockTime time ∧
    (∀ cycle ∈ run.past, cycle.time ≤ time) ∧
    ∀ row ∈ logOf name start.state.conn.tables, row.svrTime ≤ bindDouble (.ofRat (readTime time))
  | .elsewhere tables registry => SameForDevice name run.state.conn.tables tables ∧
    registry.statuses[name.bytes]? = run.state.registry.statuses[name.bytes]?

/-- A name that does not disturb the text search in an answer. -/
def IsPlainName (name : SqlText) : Prop := ∀ ch ∈ name.bytes, 32 ≤ ch ∧ ch ≠ byte '/'

instance : DecidablePred IsPlainName := fun name =>
  inferInstanceAs (Decidable (∀ ch ∈ name.bytes, 32 ≤ ch ∧ ch ≠ byte '/'))

/-- The worker has been started for a stored device that is on line and has data points. -/
structure Starts (name : SqlText) (x : ℕ × DeviceRow) (points : List DataPoint) (run : PollRun) :
    Prop where
  past : run.past = []
  healthy : Healthy run.state.conn
  taskName : run.state.task.device.name = name.bytes
  statusName : run.state.task.status.deviceName = name.bytes
  device : named name.bytes run.state.conn.tables = some x
  online : (readDevice x).status ≠ 0
  nonempty : points ≠ []
  havePaths : HavePaths points
  points : storedPoints name run.state.conn.tables = points

end PollRun

/-! ## 2. One cycle -/

section Cycle
variable {name : SqlText} {x : ℕ × DeviceRow} {points : List DataPoint} {t : Database} {time : ℚ}
  {input : CycleInput} {models : ModelRepository}

theorem storedPoints_distinct (h : HavePaths (storedPoints name t)) :
    ((storedPoints name t).map (·.namePath)).Nodup := by
  have hrows : (t.dataPoint.select fun r => r.dName = some name).Pairwise fun a b =>
      a.1 < b.1 ∧ DataPointRow.compat a.2 b.2 := t.dataPoint.ordered.sublist List.filter_sublist
  rw [storedPoints, List.map_map, List.Nodup, List.pairwise_map]
  refine hrows.imp_of_mem fun {a b} ha hb hab heq => ?_
  have hpath : columnText a.2.namePath = columnText b.2.namePath := heq
  obtain ⟨component, item, -, -, hname⟩ := h _ (List.mem_map_of_mem ha)
  have hne : columnText a.2.namePath ≠ [] := by
    rw [show columnText a.2.namePath = _ from hname]
    exact List.cons_ne_nil _ _
  have hdname : a.2.dName = b.2.dName := by
    rw [of_decide_eq_true (AutoTable.mem_select.mp ha).2, of_decide_eq_true (AutoTable.mem_select.mp hb).2]
  cases hpa : a.2.namePath with
  | none => exact hne (by rw [hpa]; rfl)
  | some p =>
    cases hpb : b.2.namePath with
    | none => exact hne (by rw [hpath, hpb]; rfl)
    | some q =>
      rw [hpa, hpb] at hpath
      have hbytes : p.bytes = q.bytes := hpath
      have heq : p = q := by rw [← bindText_bytes p, hbytes, bindText_bytes]
      rcases hab.2 with hnone | hnone | hdiff | hdiff
      · rw [of_decide_eq_true (AutoTable.mem_select.mp ha).2] at hnone
        cases hnone
      · rw [hpa] at hnone
        cases hnone
      · exact hdiff hdname
      · exact hdiff (by rw [hpa, hpb, heq])

/-- The cid of a query has no control characters and no slash, and ends with a digit. -/
theorem mem_makeCid (hname : PollRun.IsPlainName name) (now : ℤ) :
    ∀ ch ∈ makeCid name.bytes now, 32 ≤ ch ∧ ch ≠ byte '/' := by
  have hdigits : ∀ n : ℕ, ∀ ch ∈ decimalNat n, 32 ≤ ch ∧ ch ≠ byte '/' := by
    intro n ch hch
    have hdigit := isDigit_decimalNat ch hch
    simp only [isDigit, Bool.and_eq_true, decide_eq_true_eq] at hdigit
    refine ⟨UInt8.le_trans (by decide) hdigit.1, ?_⟩
    rintro rfl
    exact absurd hdigit.1 (by decide)
  intro ch hch
  simp only [makeCid, List.mem_append] at hch
  rcases hch with (hch | hch) | hch
  · exact hname ch hch
  · have hdash : ∀ ch ∈ lit "-", (32 : UInt8) ≤ ch ∧ ch ≠ byte '/' := by decide
    exact hdash ch hch
  · unfold decimal at hch
    split at hch
    · rcases List.mem_cons.mp hch with rfl | hch
      · decide
      · exact hdigits _ ch hch
    · exact hdigits _ ch hch

/-- A cid ends with a digit. -/
theorem getLast?_makeCid (s : Str) (now : ℤ) : ∃ d, isDigit d = true ∧
    (makeCid s now).getLast? = some d := by
  have hsplit : ∃ front, makeCid s now = front ++ decimalNat now.natAbs := by
    unfold makeCid decimal
    split
    · exact ⟨s ++ lit "-" ++ [byte '-'], by simp⟩
    · exact ⟨s ++ lit "-", rfl⟩
  obtain ⟨front, hfront⟩ := hsplit
  have hne := decimalNat_ne_nil now.natAbs
  refine ⟨(decimalNat now.natAbs).getLast hne, isDigit_decimalNat _ (List.getLast_mem hne), ?_⟩
  rw [hfront, List.getLast?_append, List.getLast?_eq_some_getLast hne]
  rfl

theorem not_suffix_makeCid (s : Str) (now : ℤ) : ¬ lit "machineConnected" <:+ makeCid s now := by
  rintro ⟨front, hfront⟩
  obtain ⟨d, hdigit, hlast⟩ := getLast?_makeCid s now
  have hword : (lit "machineConnected").getLast? = some (byte 'd') := by decide
  rw [← hfront, List.getLast?_append, hword] at hlast
  cases hlast
  exact absurd hdigit (by decide)

/-- The program of a cycle inserts the records of the driver's answer. -/
theorem insertProgram_run (hname : PollRun.IsPlainName name) (hdevice : named name.bytes t = some x)
    (honline : (readDevice x).status ≠ 0) (hne : points ≠ []) (hpaths : HavePaths points)
    (hpoints : storedPoints name t = points) (hmock : MeetsMock (readDevice x) time input)
    (htime : IsClockTime time) :
    ∃ response u, extractBoolField response (lit "machineConnected") = true ∧
      t.resources.insertAll? ((points.map (mockRecord name.bytes time)).map boundRow) = some u ∧
      (insertProgram models input name.bytes).run t =
        (.ok (response, points.map (mockRecord name.bytes time)), { t with resources := u }) := by
  have hdistinct := storedPoints_distinct (hpoints ▸ hpaths)
  rw [hpoints] at hdistinct
  have hcontrol : NoControl (makeCid name.bytes input.cidTime) :=
    QueryRoundTrip.Clean.noControl fun ch hch => (mem_makeCid hname _ ch hch).1
  have hcid : makeCid name.bytes input.cidTime ≠ [] := by
    obtain ⟨d, -, hlast⟩ := getLast?_makeCid name.bytes input.cidTime
    intro hnil
    rw [hnil] at hlast
    cases hlast
  have hsuffix : ∀ point ∈ points, ¬ point.namePath <:+ makeCid name.bytes input.cidTime := by
    intro point hpoint hends
    obtain ⟨component, item, hpath⟩ := hpaths point hpoint
    exact (mem_makeCid hname _ _ (hends.subset hpath.slash_mem)).2 rfl
  obtain ⟨query, hquery⟩ : ∃ query, buildQuery (makeCid name.bytes input.cidTime) points = .ok query :=
    ⟨_, QueryRoundTrip.buildQuery_eq hcontrol hne⟩
  have hresponse := QueryRoundTrip.extractBoolField_handleQuery hcontrol hcid
    (not_suffix_makeCid name.bytes input.cidTime) hquery (.ofRat time)
  obtain ⟨response, hanswer⟩ : ∃ response,
      response = MockDriverServer.handleQuery query (.ofRat time) := ⟨_, rfl⟩
  have hrecords : processResponse (readDevice x) points response input.responseTime =
      .ok (points.map (mockRecord (readDevice x).name time)) := by
    rw [hanswer]
    exact QueryRoundTrip.processResponse_mockRecords _ hne hpaths hdistinct hcontrol hsuffix htime hquery
  rw [← hanswer] at hresponse
  have hrespond : input.respond (readDevice x) points = .ok response := by
    have hfull : response ≠ [] := by
      rintro rfl
      cases hresponse
    rw [CycleInput.respond, name_of_named hdevice, hquery]
    simp only [hmock.connect, if_true, sendQuery, hmock.answer, ← hanswer, if_neg hfull]
  rw [name_of_named hdevice] at hrecords
  obtain ⟨u, hu, hinsert⟩ := SQLiteManager.exec_insertResources t
    (points.map (mockRecord name.bytes time))
  refine ⟨response, u, hresponse, hu, ?_⟩
  have hget : (Command.call (SQLiteManager.getDeviceByName name.bytes)).run t =
      (.ok (readDevice x), t) := by
    rw [Command.run_call, SQLiteManager.exec_getDeviceByName, hdevice]
  have hload : (DataTask.loadDataPoints models name.bytes []).run t = (.ok points, t) := by
    have hread := @DataTask.storedDataPoints_ne_nil models name.bytes [] t
    rw [bindText_bytes] at hread
    refine DataTask.loadDataPoints_ok hne ((hread fun hnil => hne ?_).trans ?_)
    · rw [← hpoints, storedPoints, hnil]
      rfl
    · exact congrArg (fun l => (Except.ok l, t)) hpoints
  rw [insertProgram, Command.run_bind_ok hget]
  simp only [if_neg honline, name_of_named hdevice]
  rw [Command.run_bind_ok hload, hrespond,
    Command.run_bind_ok (Command.run_lift _ t), hrecords, Command.run_bind_ok (Command.run_lift _ t),
    Command.run_bind_ok ((Command.run_call _ t).trans hinsert), Command.run_pure]


/-- A cleanup on a connection where no call fails. -/
theorem cleanup_healthy {d : Str} {m : ℤ} {c c' : Conn} {r : Except Str Unit} (hc : Healthy c)
    (h : SQLiteManager.cleanupResourcesForDevice d m c = (r, c')) :
    r = .ok () ∧ Healthy c' ∧ c'.tables.device = c.tables.device ∧
      c'.tables.dataPoint = c.tables.dataPoint ∧
      c'.tables = (RetentionOp.cleanupResourcesForDevice d m).apply c.tables := by
  obtain ⟨n, hn⟩ := hc
  obtain ⟨n', hrun⟩ := SQLiteManager.alone_cleanupResourcesForDevice d m c.tables n
  rw [← hn, h, Command.run_call] at hrun
  cases hrun
  have hframe : ((SQLiteManager.cleanupResourcesForDevice d m).exec c.tables).1 = .ok () ∧
      ((SQLiteManager.cleanupResourcesForDevice d m).exec c.tables).2.device = c.tables.device ∧
      ((SQLiteManager.cleanupResourcesForDevice d m).exec c.tables).2.dataPoint =
        c.tables.dataPoint := by
    rcases le_or_gt m 0 with hm | hm
    · rw [SQLiteManager.exec_cleanupResourcesForDevice_of_nonpos hm]
      exact ⟨rfl, rfl, rfl⟩
    · rcases eq_or_ne d [] with rfl | hd
      · rw [SQLiteManager.exec_cleanupResourcesForDevice_nil]
        exact ⟨rfl, rfl, rfl⟩
      · rw [SQLiteManager.exec_cleanupResourcesForDevice hm hd]
        exact ⟨rfl, rfl, rfl⟩
  exact ⟨hframe.1, ⟨n', rfl⟩, hframe.2.1, hframe.2.2, rfl⟩

/-- What the cleanup of a cycle may do on a connection where no call fails. -/
structure Cleaned (name : SqlText) (s s' : CycleState) : Prop where
  healthy : Healthy s'.conn
  registry : s'.registry = s.registry
  device : s'.task.device = s.task.device
  status : s'.task.status = s.task.status
  devices : s'.conn.tables.device = s.conn.tables.device
  points : s'.conn.tables.dataPoint = s.conn.tables.dataPoint
  log : logOf name s'.conn.tables = logOf name s.conn.tables ∨
    logOf name s'.conn.tables = (logOf name s.conn.tables).take 5000

theorem DeviceTask.CleanupStep.cleaned {now : ℤ} {s s' : CycleState} (h : CleanupStep now s s')
    (hhealthy : Healthy s.conn) : Cleaned name s s' := by
  cases h with
  | notDue _ => exact ⟨hhealthy, rfl, rfl, rfl, rfl, rfl, .inl rfl⟩
  | done _ hcall =>
    obtain ⟨-, hc, hdevices, hpoints, htables⟩ := cleanup_healthy hhealthy hcall
    refine ⟨hc, rfl, rfl, rfl, hdevices, hpoints, ?_⟩
    show logOf name _ = _ ∨ _
    rw [htables, logOf_apply, RetentionOp.applyLog]
    split
    · exact .inr rfl
    · exact .inl rfl
  | failed _ hcall =>
    obtain ⟨hok, -⟩ := cleanup_healthy hhealthy hcall
    cases hok

/-- The status that a successful cycle publishes. -/
def polledStatus (name : SqlText) (statusTime : Double) : DeviceStatus where
  deviceName := name.bytes
  connected := true
  machineConnected := true
  failCount := 0
  lastSuccessTime := statusTime
  error := []

/-- What a cycle does that meets the mock driver. -/
structure MockCycle (name : SqlText) (records : List ResourceRecord) (statusTime : Double)
    (s s' : CycleState) : Prop where
  healthy : Healthy s'.conn
  taskName : s'.task.device.name = name.bytes
  statusName : s'.task.status.deviceName = name.bytes
  devices : s'.conn.tables.device = s.conn.tables.device
  points : s'.conn.tables.dataPoint = s.conn.tables.dataPoint
  log : logOf name s'.conn.tables = (records.map boundRow).foldl enter (logOf name s.conn.tables) ∨
    logOf name s'.conn.tables =
      ((records.map boundRow).foldl enter (logOf name s.conn.tables)).take 5000
  status : s'.registry.statuses[name.bytes]? = some (polledStatus name statusTime)

/-- The records of a device are entered into its log. -/
theorem logOf_insertAll?_own {u : ResourceTable} {records : List ResourceRecord}
    (hu : t.resources.insertAll? (records.map boundRow) = some u)
    (hown : ∀ record ∈ records, record.deviceName = name.bytes) :
    logOf name { t with resources := u } = (records.map boundRow).foldl enter (logOf name t) := by
  rw [logOf_insertAll? hu, List.filter_eq_self.mpr]
  intro row hrow
  obtain ⟨record, hrecord, rfl⟩ := List.mem_map.mp hrow
  simp [boundRow, hown record hrecord]

theorem runCycle_mock {s : CycleState} (hname : PollRun.IsPlainName name) (hhealthy : Healthy s.conn)
    (htask : s.task.device.name = name.bytes) (hstatus : s.task.status.deviceName = name.bytes)
    (hdevice : named name.bytes s.conn.tables = some x) (honline : (readDevice x).status ≠ 0)
    (hne : points ≠ []) (hpaths : HavePaths points) (hpoints : storedPoints name s.conn.tables = points)
    (hmock : MeetsMock (readDevice x) time input) (htime : IsClockTime time) :
    (runCycle models input s).1 = .succeeded (points.map (mockRecord name.bytes time)) ∧
      MockCycle name (points.map (mockRecord name.bytes time)) input.statusTime s
        (runCycle models input s).2 := by
  obtain ⟨response, u, hconnected, hu, hprogram⟩ := @insertProgram_run _ _ _ _ _ _ models hname hdevice
    honline hne hpaths hpoints hmock htime
  have hprogram : (insertProgram models input name.bytes).run (s.at "prepare").conn.tables = _ :=
    hprogram
  have halone := insertNext_alone models input name s.task.lastCleanupTime (s.at "prepare") hhealthy
    ⟨htask, rfl⟩
  have hends := insertNext_ends models input (s.at "prepare") name htask _ rfl
  have hstep := runCycle_step models input s
  rw [hprogram] at halone
  rcases hrun : runCycle models input s with ⟨result, s'⟩
  rw [hrun] at hstep
  cases hstep with
  | failed hinsert _ =>
    rw [hinsert] at halone
    cases halone.1
  | gaveUp hinsert _ =>
    rw [hinsert] at halone
    cases halone.1
  | @succeeded response' records s₁ s₂ hinsert hcleanup =>
    rw [hinsert] at halone hends
    obtain ⟨hresult, hhealthy₁, htask₁, -⟩ := halone
    obtain ⟨hok, htables⟩ := Prod.mk.inj hresult
    cases Except.ok.inj hok
    have hcleaned : Cleaned name (s₁.at "close") s₂ := hcleanup.cleaned hhealthy₁
    have hstatus₂ : s₂.task.status.deviceName = name.bytes := by
      rw [hcleaned.status]
      exact hends.2.2.2.statusName.trans hstatus
    have hown : ∀ record ∈ points.map (mockRecord name.bytes time),
        record.deviceName = name.bytes := by
      intro record hrecord
      obtain ⟨point, -, rfl⟩ := List.mem_map.mp hrecord
      rfl
    have hlog := logOf_insertAll?_own hu hown
    have hdevices : s₁.conn.tables.device = s.conn.tables.device := by rw [← htables]
    have hpoints₁ : s₁.conn.tables.dataPoint = s.conn.tables.dataPoint := by rw [← htables]
    rw [show logOf name _ = _ from congrArg (logOf name) htables] at hlog
    refine ⟨rfl, hcleaned.healthy, ?_, hstatus₂, hcleaned.devices.trans hdevices,
      hcleaned.points.trans hpoints₁, ?_, ?_⟩
    · exact (congrArg Device.name hcleaned.device).trans htask₁
    · rw [← hlog]
      exact hcleaned.log
    · have hpublished : succeededStatus response input.statusTime s₂.task.status =
          polledStatus name input.statusTime := by
        simp only [succeededStatus, hconnected, hstatus₂, polledStatus]
      show (s₂.registry.setLatestStatus _).statuses[name.bytes]? = _
      rw [hpublished]
      exact Std.ExtTreeMap.getElem?_insert_self

end Cycle

/-! ## 3. Runs -/

/-- The rows of a cycle. -/
def cycleRows (name : SqlText) (points : List DataPoint) (cycle : PastCycle) : List ResourceRow :=
  (points.map (mockRecord name.bytes cycle.time)).map boundRow

/-- The rows of the device in the order of their insertion, those before the run first. -/
def polledRows (name : SqlText) (points : List DataPoint) (start run : PollRun) : List ResourceRow :=
  (logOf name start.state.conn.tables).reverse ++ run.past.reverse.flatMap (cycleRows name points)

/-- The invariant of a run. -/
structure Polled (name : SqlText) (x : ℕ × DeviceRow) (points : List DataPoint) (start run : PollRun) :
    Prop where
  healthy : Healthy run.state.conn
  taskName : run.state.task.device.name = name.bytes
  statusName : run.state.task.status.deviceName = name.bytes
  device : named name.bytes run.state.conn.tables = some x
  stored : storedPoints name run.state.conn.tables = points
  succeeded : ∀ cycle ∈ run.past,
    cycle.result = .succeeded (points.map (mockRecord name.bytes cycle.time))
  clock : ∀ cycle ∈ run.past, IsClockTime cycle.time
  ordered : (polledRows name points start run).Pairwise fun a b => a.svrTime ≤ b.svrTime
  log : Recent 100 (polledRows name points start run) (logOf name run.state.conn.tables)
  status : ∀ cycle ∈ run.past.head?,
    run.state.registry.statuses[name.bytes]? = some (polledStatus name cycle.statusTime)

section Run
variable {name : SqlText} {x : ℕ × DeviceRow} {points : List DataPoint} {time : ℚ}
  {input : CycleInput} {models : ModelRepository} {start run run' : PollRun}

theorem bindDouble_mono {p q : ℚ} (h : p ≤ q) : bindDouble (.ofRat p) ≤ bindDouble (.ofRat q) := by
  simpa [bindDouble, Double.ofRat] using h

theorem logOf_pairwise (name : SqlText) (t : Database) :
    (logOf name t).Pairwise fun a b => b.svrTime ≤ a.svrTime := by
  rw [logOf, List.pairwise_map]
  refine (Ranking.ranked_pairwise rankKey _).imp fun {a b} h => ?_
  rcases Prod.Lex.le_iff.mp h with hlt | ⟨heq, -⟩
  · exact hlt.le
  · exact heq.le

theorem Polled.of_starts (h : PollRun.Starts name x points start) : Polled name x points start start := by
  have hrows : polledRows name points start start = (logOf name start.state.conn.tables).reverse := by
    rw [polledRows, h.past]
    exact List.append_nil _
  refine ⟨h.healthy, h.taskName, h.statusName, h.device, h.points, ?_, ?_, ?_, ?_, ?_⟩
  · simp [h.past]
  · simp [h.past]
  · rw [hrows, List.pairwise_reverse]
    exact logOf_pairwise name _
  · rw [hrows]
    exact ⟨by rw [List.reverse_reverse], fun row hrow => List.mem_reverse.mpr hrow⟩
  · simp [h.past]

theorem polledRows_cons (cycle : PastCycle) (s : CycleState) :
    polledRows name points start ⟨s, cycle :: run.past⟩ =
      polledRows name points start run ++ cycleRows name points cycle := by
  simp [polledRows, List.flatMap_append]

/-- The rows of a cycle are not older than the rows before them. -/
theorem Polled.ordered_cons (h : Polled name x points start run) {cycle : PastCycle}
    (htime : IsClockTime cycle.time) (hpast : ∀ c ∈ run.past, c.time ≤ cycle.time)
    (hold : ∀ row ∈ logOf name start.state.conn.tables,
      row.svrTime ≤ bindDouble (.ofRat (readTime cycle.time))) :
    (polledRows name points start run ++ cycleRows name points cycle).Pairwise fun a b =>
      a.svrTime ≤ b.svrTime := by
  have htimes {c : PastCycle} : ∀ row ∈ cycleRows name points c,
      row.svrTime = bindDouble (.ofRat (readTime c.time)) := by
    intro row hrow
    obtain ⟨record, hrecord, rfl⟩ := List.mem_map.mp hrow
    obtain ⟨point, -, rfl⟩ := List.mem_map.mp hrecord
    rfl
  refine List.pairwise_append.mpr ⟨h.ordered, ?_, ?_⟩
  · refine List.pairwise_of_forall_mem_list fun a ha b hb => ?_
    rw [htimes a ha, htimes b hb]
  · intro a ha b hb
    rw [htimes b hb]
    rcases List.mem_append.mp ha with ha | ha
    · exact hold a (List.mem_reverse.mp ha)
    · obtain ⟨c, hc, hrow⟩ := List.mem_flatMap.mp ha
      rw [htimes a hrow]
      have hc := List.mem_reverse.mp hc
      exact bindDouble_mono (readTime_mono (h.clock c hc) htime (hpast c hc))

theorem Polled.cycle (h : Polled name x points start run) (hname : PollRun.IsPlainName name)
    (hstart : PollRun.Starts name x points start)
    (hok : PollRun.Admitted name (readDevice x) start run (.cycle time input))
    (hstep : run.step models (.cycle time input) = some run') : Polled name x points start run' := by
  obtain ⟨hmock, htime, hpast, hold⟩ := hok
  cases hstep
  obtain ⟨hresult, hcycle⟩ := @runCycle_mock _ _ _ _ _ models _ hname h.healthy h.taskName h.statusName
    h.device hstart.online hstart.nonempty hstart.havePaths h.stored hmock htime
  obtain ⟨cycle, hcons⟩ : ∃ cycle : PastCycle, cycle =
      ⟨time, input.statusTime, (runCycle models input run.state).1⟩ := ⟨_, rfl⟩
  rw [← hcons]
  have htime' : cycle.time = time := by rw [hcons]
  rw [← htime'] at htime hpast hold
  have hordered := h.ordered_cons htime hpast hold
  refine ⟨hcycle.healthy, hcycle.taskName, hcycle.statusName, ?_, ?_, ?_, ?_, ?_, ?_, ?_⟩
  · rw [← h.device, named, named, hcycle.devices]
  · rw [← h.stored, storedPoints, storedPoints, hcycle.points]
  · refine List.forall_mem_cons.mpr ⟨?_, h.succeeded⟩
    rw [htime', hcons]
    exact hresult
  · exact List.forall_mem_cons.mpr ⟨htime, h.clock⟩
  · rw [polledRows_cons]
    exact hordered
  · rw [polledRows_cons]
    have hrecent := h.log.enterAll hordered
    rw [cycleRows, htime'] at hrecent ⊢
    rcases hcycle.log with hlog | hlog
    · rw [hlog]
      exact hrecent
    · rw [hlog]
      exact hrecent.take (by decide)
  · rintro c ⟨⟩
    rw [hcons]
    exact hcycle.status

theorem Polled.elsewhere (h : Polled name x points start run) {tables : Database}
    {registry : DeviceStatusStore}
    (hok : PollRun.Admitted name (readDevice x) start run (.elsewhere tables registry))
    (hstep : run.step models (.elsewhere tables registry) = some run') :
    Polled name x points start run' := by
  obtain ⟨hsame, hregistry⟩ := hok
  cases hstep
  obtain ⟨n, hn⟩ := h.healthy
  refine ⟨⟨n, ?_⟩, h.taskName, h.statusName, hsame.device.trans h.device, hsame.points.trans h.stored,
    h.succeeded, h.clock, h.ordered, ?_, ?_⟩
  · show { run.state.conn with tables } = _
    rw [hn]
    rfl
  · have hlog : Recent 100 (polledRows name points start run) (logOf name tables) := by
      rw [hsame.log]
      exact h.log
    exact hlog
  · intro c hc
    exact hregistry.trans (h.status c hc)

theorem columnText_bindText_of_notMem {value : Str} (h : 0 ∉ value) :
    columnText (some (bindText value)) = value := by
  simp [columnText, bindText, cString_of_notMem h]

/-- The record of a cycle is read back from its row. -/
theorem readRow_mockRecord {point : DataPoint} {component item : Str}
    (hpath : IsNamePath point.namePath component item) :
    readRow (boundRow (mockRecord name.bytes time point)) = mockRecord name.bytes time point := by
  have hclean {s : Str} (h : QueryRoundTrip.Clean s) : 0 ∉ s := fun hmem =>
    absurd (h 0 hmem).1 (by decide)
  have hitem := hpath.clean_item
  have hdata : 0 ∉ lit "[" ++ fixed (MockDriverServer.valueForPath point.namePath) ++ lit "]" := by
    simp only [List.mem_append, not_or]
    exact ⟨⟨by decide, QueryRoundTrip.notMem_fixed (by decide)⟩, by decide⟩
  simp only [readRow, ResourceRepository.readRecord, boundRow, mockRecord,
    columnText_bindText_of_notMem name.noNul, columnText_bindText_of_notMem (hclean hpath.clean),
    columnText_bindText_of_notMem hdata, columnText_bindText_of_notMem (hclean hitem),
    columnText_bindText_of_notMem (hclean (QueryRoundTrip.clean_itemPath hitem)),
    columnText_bindText_of_notMem (hclean (QueryRoundTrip.clean_descriptionForPath hitem))]
  rfl

/-- A worker that meets the mock driver never fails: each of its cycles inserts one record for each data
point, with the value and the time that the driver has sent; the query for the latest records returns
those of the last cycles, and then what was there before; and the status is that of the last cycle. -/
theorem polled_of_reach (hname : PollRun.IsPlainName name) (hstart : PollRun.Starts name x points start)
    (hreach : Steps.Reach (PollRun.step models) (PollRun.Admitted name (readDevice x) start) start run) :
    (∀ cycle ∈ run.past, cycle.result = .succeeded (points.map (mockRecord name.bytes cycle.time))) ∧
    latest name.bytes run.state.conn.tables = .ok
      ((run.past.flatMap (fun cycle => (points.map (mockRecord name.bytes cycle.time)).reverse) ++
        (logOf name start.state.conn.tables).map readRow).take 100) ∧
    ∀ cycle ∈ run.past.head?,
      run.state.registry.statuses[name.bytes]? = some (polledStatus name cycle.statusTime) := by
  have hpolled : Polled name x points start run := by
    refine hreach.invariant (.of_starts hstart) fun run event run' hrun hok hstep => ?_
    cases event with
    | cycle time input => exact hrun.cycle hname hstart hok hstep
    | elsewhere tables registry => exact hrun.elsewhere hok hstep
  refine ⟨hpolled.succeeded, ?_, hpolled.status⟩
  have hread (cycle : PastCycle) : (cycleRows name points cycle).map readRow =
      points.map (mockRecord name.bytes cycle.time) := by
    rw [cycleRows, List.map_map, List.map_map]
    refine List.map_congr_left fun point hpoint => ?_
    obtain ⟨component, item, hpath⟩ := hstart.havePaths point hpoint
    exact readRow_mockRecord hpath
  rw [latest_eq_logOf, bindText_bytes, hpolled.log.top, polledRows, List.reverse_append,
    List.reverse_reverse, List.reverse_flatMap, List.reverse_reverse, List.map_take, List.map_append,
    List.map_flatMap]
  simp only [Function.comp_apply, List.map_reverse, hread]

end Run

/-- A device that is on line. -/
def onlineRow : DeviceRow := ⟨bindText (lit "M1"), none, some 9001, none, 1, none, none, none⟩

/-- The row of its data point. -/
def pressureRow : DataPointRow :=
  ⟨some 1, some (bindText (lit "M1")), some (bindText (lit "/C/pressure")), none, none, none⟩

/-- The data point, read back. -/
def pressurePoint : DataPoint := DataPointRepository.readPoint (1, pressureRow)

def pressureTables : Database where
  device := { rows := [(1, onlineRow)], seq := 1, ordered := by simp, bounded := by simp }
  dataPoint := { rows := [(1, pressureRow)], seq := 1, ordered := by simp, bounded := by simp }
  resources := .empty

/-- Its worker, before the first cycle. -/
def pressureRun : PollRun where
  state :=
    { conn := healthy pressureTables none 0
      registry := {}
      task := .enter { name := lit "M1" } 0 }

/-- The driver is there, and its clock shows `time`. -/
def mockInput (time : ℚ) : CycleInput where
  connect _ _ := true
  answer query := .ok (MockDriverServer.handleQuery query (.ofRat time))
  cidTime := 1700000000000
  responseTime := .ofRat 0
  now := 0
  statusTime := .ofRat time

theorem starts_pressureRun :
    PollRun.Starts (bindText (lit "M1")) (1, onlineRow) [pressurePoint] pressureRun where
  past := rfl
  healthy := ⟨0, rfl⟩
  taskName := by decide
  statusName := by decide
  device := by decide
  online := by decide
  nonempty := List.cons_ne_nil _ _
  havePaths point hpoint := by
    cases List.mem_singleton.mp hpoint
    exact ⟨lit "C", lit "pressure", ⟨by decide, by decide, by decide⟩,
      ⟨by decide, by decide, by decide⟩, by decide⟩
  points := by decide

/-- Two cycles, and between them what others do. -/
theorem polled_of_reach_twoCycles : ∃ run : PollRun, run.past.length = 2 ∧
    latest (lit "M1") run.state.conn.tables = .ok
      [mockRecord (lit "M1") 2 pressurePoint, mockRecord (lit "M1") 1 pressurePoint] := by
  have hcycle {run : PollRun} {time : ℚ} (htime : IsClockTime time)
      (hpast : ∀ cycle ∈ run.past, cycle.time ≤ time) : PollRun.Admitted (bindText (lit "M1"))
        (readDevice (1, onlineRow)) pressureRun run (.cycle time (mockInput time)) :=
    ⟨⟨rfl, fun _ => rfl⟩, htime, hpast, fun _ hrow => absurd hrow List.not_mem_nil⟩
  obtain ⟨run₁, hrun₁⟩ : ∃ run₁, PollRun.step noModels pressureRun (.cycle 1 (mockInput 1)) = some run₁ :=
    ⟨_, rfl⟩
  obtain ⟨run₂, hrun₂⟩ : ∃ run₂, PollRun.step noModels run₁ (.elsewhere run₁.state.conn.tables
    (run₁.state.registry.requestStopAll)) = some run₂ := ⟨_, rfl⟩
  obtain ⟨run₃, hrun₃⟩ : ∃ run₃, PollRun.step noModels run₂ (.cycle 2 (mockInput 2)) = some run₃ :=
    ⟨_, rfl⟩
  have hpast₁ : run₁.past.map (·.time) = [1] := by
    cases hrun₁
    rfl
  have hpast₃ : run₃.past.map (·.time) = [2, 1] := by
    cases hrun₃
    cases hrun₂
    exact congrArg (2 :: ·) hpast₁
  have hclock : ∀ cycle ∈ run₂.past, cycle.time ≤ 2 := by
    cases hrun₂
    intro cycle hcycle
    have hmem : cycle.time ∈ run₁.past.map (·.time) := List.mem_map_of_mem hcycle
    rw [hpast₁, List.mem_singleton] at hmem
    rw [hmem]
    norm_num
  have hreach : Steps.Reach (PollRun.step noModels)
      (PollRun.Admitted (bindText (lit "M1")) (readDevice (1, onlineRow)) pressureRun) pressureRun run₃ := by
    have hfirst := Steps.Reach.start.step (hcycle (by decide +kernel)
      fun _ hpast => absurd hpast List.not_mem_nil) hrun₁
    have helsewhere : PollRun.Admitted (bindText (lit "M1")) (readDevice (1, onlineRow)) pressureRun run₁
        (.elsewhere run₁.state.conn.tables run₁.state.registry.requestStopAll) :=
      ⟨⟨rfl, rfl, rfl⟩, rfl⟩
    exact (hfirst.step helsewhere hrun₂).step (hcycle (by decide +kernel) hclock) hrun₃
  have hlatest := (polled_of_reach (by decide) starts_pressureRun hreach).2.1
  refine ⟨run₃, by simpa using congrArg List.length hpast₃, ?_⟩
  have hbytes : (bindText (lit "M1")).bytes = lit "M1" := by decide
  rw [hbytes] at hlatest
  rw [hlatest]
  have hrecords (past : List PastCycle) : (past.flatMap fun cycle =>
      ([pressurePoint].map (mockRecord (lit "M1") cycle.time)).reverse) =
        (past.map (·.time)).map fun time => mockRecord (lit "M1") time pressurePoint := by
    induction past with
    | nil => rfl
    | cons cycle past ih => exact congrArg (_ :: ·) ih
  rw [hrecords, hpast₃]
  rfl

end CollectorService
