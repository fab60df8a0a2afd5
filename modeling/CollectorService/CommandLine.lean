import CollectorService.DeviceView
import CollectorService.Integrity
import CollectorService.Session
import CollectorService.Steps

/-!
# The command line

`main` in the console mode and for a single command: it is the only caller of the command processor,
while the workers run beside it. A command is one of its statements and runs as a whole; the workers act
between the statements. Its local variables, among them the connection, are destroyed when it returns,
and a worker uses them until its thread has been joined.

* `Joinable`: a worker that has not finished can be joined.
* `handle_ok`: no exception leaves a command, none terminates the process, and all workers stay joinable.
* `main_of_reach`: each command is answered once, in order, and behind `main` no worker runs.
-/

namespace CollectorService

open DeviceStatusStore (unfinished_congr unfinished_finish unfinished_spawn map_foldl_setFlag)

/-! ## 1. `main` -/

/-- What the arguments of the program ask for. -/
inductive Mode where
  | console
  | http (port : Option Str)
  | command (text : Str)
  | commandFile (path : Str)
  | usage
  deriving DecidableEq

/-- The comparisons of `main` with its arguments, the first of which is the program. -/
def parseMode (args : List Str) : Mode :=
  match args with
  | _ :: option :: rest =>
    if option = lit "--console" then .console
    else if option = lit "--http" ∨ option = lit "--serve-http" then .http rest.head?
    else match rest with
      | value :: _ =>
        if option = lit "--cmd" then .command value
        else if option = lit "--cmd-file" then .commandFile value
        else .usage
      | [] => .usage
  | _ => .usage

def isExitCommand (line : Str) : Bool := line = lit "exit" || line = lit "quit"

/-- Whether `main` waits for the end of the collection behind a command. -/
def startsCollection (commandText : Str) : Bool :=
  (Search.afterFirst (lit "start_device_collect") commandText).isSome ||
    (Search.afterFirst (lit "start_all") commandText).isSome

/-- Where `main` is. -/
inductive MainPc where
  /-- Before `std::getline` in the loop of the console. -/
  | console
  /-- Before `handle`. -/
  | command (text : Str)
  /-- Waiting for Enter. -/
  | waiting
  /-- Before `dataTask.stopAll()`. -/
  | stopping
  /-- Before `~DataTask`. -/
  | returning
  | done
  | terminated
  deriving DecidableEq

/-- Where a mode begins, when the connection has been opened; the sessions of the HTTP mode call the
processor from threads of their own. -/
def Mode.enter (readTextFile : Str → Option Str) : Mode → Option MainPc
  | console => some .console
  | http _ => none
  | command text => some (.command text)
  | commandFile path => match readTextFile path with
    | some text => some (.command text)
    | none => some .returning
  | usage => some .returning

structure MainRun where
  process : Process
  pc : MainPc
  /-- The lines of `std::cin` that have not been read. -/
  input : List Str
  /-- The commands so far, with what has been logged as the response. -/
  handled : List (Str × Str) := []

inductive MainAction where
  | main
  /-- A worker ends a cycle: it has used the connection, and publishes a status. -/
  | cycle (conn : Conn) (status : DeviceStatus)
  /-- A worker leaves its loop. -/
  | finish (id : ℕ)

namespace MainRun

/-- `main` calls `handle`. -/
def handle (run : MainRun) (models : ModelRepository) (text : Str) (next : MainPc) : MainRun :=
  match CommandProcessor.handle models text run.process with
  | some (.ok response, process) =>
    { run with process, pc := next, handled := run.handled ++ [(text, response)] }
  | some (.error _, process) => { run with process, pc := .returning }
  | none => { run with pc := .terminated }

def stopAll (run : MainRun) (next : MainPc) : MainRun :=
  { run with
    process := { run.process with registry := DataTask.stopAll run.process.registry }
    pc := next }

/-- The next statement of `main`. -/
def advance (run : MainRun) (models : ModelRepository) : Option MainRun :=
  match run.pc with
  | .console => match run.input with
    | [] => some { run with pc := .stopping }
    | line :: input =>
      if isExitCommand line then some { run with input, pc := .stopping }
      else if line = [] then some { run with input }
      else some ({ run with input }.handle models line .console)
  | .command text =>
    some (run.handle models text (if startsCollection text then .waiting else .returning))
  | .waiting => some { run with input := run.input.tail, pc := .stopping }
  | .stopping => some (run.stopAll .returning)
  | .returning => some (run.stopAll .done)
  | .done | .terminated => none

def step (models : ModelRepository) (run : MainRun) : MainAction → Option MainRun
  | .main => run.advance models
  | .cycle conn status => some { run with
      process := ⟨conn, run.process.registry.setLatestStatus status⟩ }
  | .finish id => match run.process.registry.workers[id]? with
    | some worker =>
      if worker.finished then none
      else some { run with
        process := { run.process with registry := run.process.registry.finish id worker.deviceName } }
    | none => none

/-- The commands that have not been handled. -/
def pending (run : MainRun) : List Str :=
  match run.pc with
  | .console => (run.input.takeWhile (!isExitCommand ·)).filter (· ≠ [])
  | .command text => [text]
  | _ => []

end MainRun

/-! ## 2. Joinable workers -/

/-- The thread of every worker that has not finished is in the registry. -/
def Joinable (s : DeviceStatusStore) : Prop :=
  ∀ id name, s.Unfinished id name → ∃ d : Str, s.workerThreads[d]? = some id

/-- No worker is left. -/
structure AllJoined (s : DeviceStatusStore) : Prop where
  finished : ∀ id name, ¬ s.Unfinished id name
  threads : s.workerThreads = ∅
  stopFlags : s.stopFlags = ∅
  active : s.activeDevices = ∅

namespace Joinable

variable {s s' : DeviceStatusStore} {d : Str}

/-- No worker has come, and no thread has gone. -/
theorem anti (h : Joinable s) (hunfinished : ∀ id name, s'.Unfinished id name → s.Unfinished id name)
    (hthreads : s'.workerThreads = s.workerThreads) : Joinable s' := by
  intro id name hid
  rw [hthreads]
  exact h id name (hunfinished id name hid)

theorem unfinished_join {t : Option ℕ} {id : ℕ} {name : Str} (h : (s.join t).Unfinished id name) :
    s.Unfinished id name ∧ t ≠ some id := by
  unfold DeviceStatusStore.join at h
  split at h
  · exact ⟨h, by simp⟩
  · next i =>
    split at h
    · next worker hworker =>
      split at h
      · next hfinished =>
        refine ⟨h, fun heq => ?_⟩
        cases heq
        obtain ⟨worker', hworker', -, hunfinished⟩ := h
        rw [hworker, Option.some_inj] at hworker'
        rw [hworker', hunfinished] at hfinished
        cases hfinished
      · obtain ⟨hold, hne⟩ := unfinished_finish.mp h
        exact ⟨hold, fun heq => hne (Option.some.inj heq).symm⟩
    · next hnone =>
      refine ⟨h, fun heq => ?_⟩
      cases heq
      obtain ⟨worker', hworker', -⟩ := h
      rw [hnone] at hworker'
      cases hworker'

theorem join_workerThreads (s : DeviceStatusStore) (t : Option ℕ) :
    (s.join t).workerThreads = s.workerThreads := by
  unfold DeviceStatusStore.join
  split
  · rfl
  · split
    · split <;> rfl
    · rfl

/-- What is left when the thread of a device has been taken and joined. -/
theorem of_joined (h : Joinable s) {id : ℕ} {name : Str}
    (hid : (((s.takeThread d).2.eraseStopFlag d).join (s.takeThread d).1).Unfinished id name) :
    ∃ e : Str, e ≠ d ∧ s.workerThreads[e]? = some id := by
  obtain ⟨hold, hne⟩ := unfinished_join hid
  obtain ⟨e, he⟩ := h id name hold
  refine ⟨e, fun heq => hne ?_, he⟩
  rw [← heq]
  exact he

theorem joined_workerThreads (s : DeviceStatusStore) (d : Str) :
    (((s.takeThread d).2.eraseStopFlag d).join (s.takeThread d).1).workerThreads =
      s.workerThreads.erase d :=
  join_workerThreads _ _

/-- A start registers its worker, which replaces one that has been joined. -/
theorem start (h : Joinable s) (d name : Str) : ∃ s',
    ((((s.takeThread d).2.eraseStopFlag d).join (s.takeThread d).1).spawn name).addWorker d
      (((s.takeThread d).2.eraseStopFlag d).join (s.takeThread d).1).nextWorker = some s' ∧
    Joinable s' := by
  have hjoined := @of_joined s d h
  have hthreads := joined_workerThreads s d
  generalize ((s.takeThread d).2.eraseStopFlag d).join (s.takeThread d).1 = s₁ at hjoined hthreads ⊢
  have hfree : (s₁.spawn name).workerThreads[d]? = none := by
    show s₁.workerThreads[d]? = none
    rw [hthreads]
    exact Std.ExtTreeMap.getElem?_erase_self
  rw [DeviceStatusStore.addWorker, if_pos hfree]
  refine ⟨_, rfl, fun id n hid => ?_⟩
  rcases unfinished_spawn.mp (hid : (s₁.spawn name).Unfinished id n) with hold | ⟨rfl, -⟩
  · obtain ⟨e, hne, he⟩ := hjoined hold
    refine ⟨e, ?_⟩
    show (s₁.workerThreads.insert d _)[e]? = some id
    rw [hthreads, Std.ExtTreeMap.getElem?_insert, Std.ExtTreeMap.getElem?_erase]
    simp [hne.symm, he]
  · exact ⟨d, Std.ExtTreeMap.getElem?_insert_self⟩

theorem requestStop (h : Joinable s) (d : Str) : Joinable (s.requestStop d).2 := by
  unfold DeviceStatusStore.requestStop
  split
  · exact h
  · split
    · exact h.anti (fun id name => (unfinished_congr
        (DeviceStatusStore.map_setFlag s.workers _) id name).mp) rfl
    · exact h

theorem stopRegistered (h : Joinable s) (d mid : Str) :
    Joinable (DataTask.stopRegistered d mid s).2 := by
  unfold DataTask.stopRegistered
  dsimp only
  split
  · exact h.requestStop d
  · intro id name hid
    obtain ⟨e, hne, he⟩ := (h.requestStop d).of_joined hid
    refine ⟨e, ?_⟩
    show (DeviceStatusStore.join _ _).workerThreads[e]? = some id
    rw [joined_workerThreads, Std.ExtTreeMap.getElem?_erase]
    simp [hne.symm, he]

theorem unfinished_foldl_join : ∀ {threads : List ℕ} {s : DeviceStatusStore} {id : ℕ} {name : Str},
    (threads.foldl (fun s id => s.join (some id)) s).Unfinished id name →
      s.Unfinished id name ∧ id ∉ threads
  | [], _, _, _, h => ⟨h, List.not_mem_nil⟩
  | t :: threads, s, id, name, h => by
    obtain ⟨hjoin, hnot⟩ := @unfinished_foldl_join threads _ _ _ h
    obtain ⟨hold, hne⟩ := unfinished_join hjoin
    refine ⟨hold, fun hmem => ?_⟩
    rcases List.mem_cons.mp hmem with rfl | hmem
    · exact hne rfl
    · exact hnot hmem

theorem foldl_join_workerThreads : ∀ (threads : List ℕ) (s : DeviceStatusStore),
    (threads.foldl (fun s id => s.join (some id)) s).workerThreads = s.workerThreads
  | [], _ => rfl
  | t :: threads, s => (foldl_join_workerThreads threads _).trans (join_workerThreads s (some t))

/-- `stopAll` joins every worker. -/
theorem stopAll (h : Joinable s) : AllJoined (DataTask.stopAll s) := by
  refine ⟨fun id name hid => ?_, ?_, rfl, rfl⟩
  · obtain ⟨hold, hnot⟩ := unfinished_foldl_join (s := s.requestStopAll.takeAllThreads.2) hid
    have hbefore : s.Unfinished id name :=
      (unfinished_congr (map_foldl_setFlag _ s.workers) id name).mp hold
    obtain ⟨d, hd⟩ := h id name hbefore
    exact hnot (DeviceStatusStore.mem_takeAllThreads.mpr ⟨d, hd⟩)
  · exact foldl_join_workerThreads _ _

end Joinable

theorem AllJoined.joinable {s : DeviceStatusStore} (h : AllJoined s) : Joinable s :=
  fun id name hid => absurd hid (h.finished id name)

/-! ## 3. Commands -/

/-- The computation returns or throws, and keeps the workers joinable. -/
def KeepsJoinable {α : Type} (m : Session α) : Prop :=
  ∀ p, Joinable p.registry → ∃ r p', m p = some (r, p') ∧ Joinable p'.registry

namespace KeepsJoinable

variable {α β : Type} {m : Session α} {k : α → Session β}

theorem pure (a : α) : KeepsJoinable (pure a : Session α) := fun p hp => ⟨.ok a, p, rfl, hp⟩

theorem bind (hm : KeepsJoinable m) (hk : ∀ a, KeepsJoinable (k a)) : KeepsJoinable (m >>= k) := by
  intro p hp
  obtain ⟨r, p', hrun, hp'⟩ := hm p hp
  cases r with
  | error e => exact ⟨.error e, p', Session.bind_error hrun, hp'⟩
  | ok a =>
    rw [Session.bind_ok hrun]
    exact hk a p' hp'

theorem onConnection (m : Sql α) : KeepsJoinable (Session.onConnection m) :=
  fun p hp => ⟨(m p.conn).1, { p with conn := (m p.conn).2 }, rfl, hp⟩

theorem stopAll : KeepsJoinable Session.stopAll := fun _ hp => ⟨_, _, rfl, hp.stopAll.joinable⟩

theorem getStatus : KeepsJoinable Session.getStatus := fun _ hp => ⟨_, _, rfl, hp⟩

theorem startDeviceCollect (models : ModelRepository) (deviceName mid : Str) :
    KeepsJoinable (Session.startDeviceCollect models deviceName mid) := by
  intro p hp
  unfold Session.startDeviceCollect OnConnection.startDeviceCollect
  rcases hchecks : OnConnection.startChecks models deviceName mid p.conn with ⟨e | device, c⟩
  · exact ⟨_, _, rfl, hp⟩
  · dsimp only
    split
    · exact ⟨_, _, rfl, hp⟩
    · obtain ⟨s', hadd, hs'⟩ := hp.start deviceName device.name
      exact ⟨_, _, by rw [hadd]; rfl, hs'⟩

theorem stopDeviceCollect (deviceName mid : Str) :
    KeepsJoinable (Session.stopDeviceCollect deviceName mid) := by
  intro p hp
  unfold Session.stopDeviceCollect OnConnection.stopDeviceCollect
  rcases SQLiteManager.deviceExists deviceName p.conn with ⟨e | found, c⟩
  · exact ⟨_, _, rfl, hp⟩
  · cases found with
    | false => exact ⟨_, _, rfl, hp⟩
    | true => exact ⟨_, _, rfl, hp.stopRegistered deviceName mid⟩

theorem startEachDevice (models : ModelRepository) : ∀ devices : List Device,
    KeepsJoinable (Session.startEachDevice models devices)
  | [] => .pure ()
  | device :: rest => by
    unfold Session.startEachDevice
    split
    · exact .bind (startDeviceCollect models device.name []) fun _ => startEachDevice models rest
    · exact startEachDevice models rest

theorem dispatch (models : ModelRepository) (requestText mid category : Str) :
    KeepsJoinable (CommandProcessor.dispatch models requestText mid category) := by
  unfold CommandProcessor.dispatch
  split
  · exact .bind (.onConnection _) fun _ => .pure _
  split
  · exact .bind (.onConnection _) fun _ => .pure _
  split
  · exact .bind (.onConnection _) fun _ => .pure _
  split
  · exact .bind (startDeviceCollect models _ mid) fun _ => .pure _
  split
  · exact .bind (stopDeviceCollect _ mid) fun _ => .pure _
  split
  · exact .bind (.bind (.bind (.onConnection _) (startEachDevice models)) fun _ => .pure _)
      fun _ => .pure _
  split
  · exact .bind (.bind stopAll fun _ => .pure _) fun _ => .pure _
  split
  · exact .bind getStatus fun _ => .pure _
  · exact .pure _

end KeepsJoinable

/-- A command is answered: no exception leaves it, and none of its starts terminates the process. -/
theorem handle_ok (models : ModelRepository) (text : Str) {p : Process} (hp : Joinable p.registry) :
    ∃ response p', CommandProcessor.handle models text p = some (.ok response, p') ∧
      Joinable p'.registry := by
  obtain ⟨r, p', hdispatch, hp'⟩ := KeepsJoinable.dispatch models text
    (extractStringField text (lit "mid")) (extractStringField text (lit "category")) p hp
  obtain ⟨answer, hanswer⟩ : ∃ answer, CommandProcessor.answer models text p =
      some (.ok answer, p') := by
    unfold CommandProcessor.answer Session.tryCatch
    dsimp only
    rw [hdispatch]
    cases r with
    | ok answer => exact ⟨answer, rfl⟩
    | error e => exact ⟨_, rfl⟩
  exact ⟨answer.toJson, p', Session.bind_ok hanswer, hp'⟩

/-! ## 4. Runs -/

/-- What holds in every state of a run. -/
structure MainRun.Sound (models : ModelRepository) (start run : MainRun) : Prop where
  joinable : Joinable run.process.registry
  alive : run.pc ≠ .terminated
  accounts : run.handled.map (·.1) ++ run.pending = start.pending
  answered : ∀ x ∈ run.handled, ∃ p p', CommandProcessor.handle models x.1 p = some (.ok x.2, p')
  joined : run.pc = .done → AllJoined run.process.registry

section Run
variable {models : ModelRepository} {start run run' : MainRun}

/-- What a call of `handle` does to a run. -/
theorem MainRun.Sound.handle (h : Sound models start run) {text : Str} {next : MainPc}
    {input : List Str} (hnext : next ≠ .terminated ∧ next ≠ .done)
    (hpending : ∀ handled process,
      run.pending = text :: MainRun.pending ⟨process, next, input, handled⟩) :
    Sound models start (MainRun.handle { run with input } models text next) := by
  obtain ⟨response, p', hhandle, hp'⟩ := handle_ok models text h.joinable
  have hrun : MainRun.handle { run with input } models text next =
      ⟨p', next, input, run.handled ++ [(text, response)]⟩ := by
    rw [MainRun.handle, hhandle]
  rw [hrun]
  refine ⟨hp', hnext.1, ?_, ?_, fun hdone => absurd hdone hnext.2⟩
  · rw [← h.accounts, hpending (run.handled ++ [(text, response)]) p']
    simp
  · intro x hx
    rcases List.mem_append.mp hx with hx | hx
    · exact h.answered x hx
    · rw [List.mem_singleton.mp hx]
      exact ⟨_, _, hhandle⟩

/-- Where the pending commands stay the same, `main` goes on. -/
theorem MainRun.Sound.goto (h : Sound models start run) {pc : MainPc} {input : List Str}
    (hpc : pc ≠ .terminated ∧ pc ≠ .done)
    (hpending : MainRun.pending { run with pc, input } = run.pending) :
    Sound models start { run with pc, input } :=
  ⟨h.joinable, hpc.1, (congrArg _ hpending).trans h.accounts, h.answered,
    fun hdone => absurd hdone hpc.2⟩

theorem MainRun.Sound.stopAll (h : Sound models start run) {next : MainPc}
    (hnext : next = .returning ∨ next = .done) (hpending : run.pending = []) :
    Sound models start (run.stopAll next) := by
  have hjoined := h.joinable.stopAll
  refine ⟨hjoined.joinable, ?_, ?_, h.answered, fun _ => hjoined⟩
  · rcases hnext with rfl | rfl <;> simp [MainRun.stopAll]
  · rw [← h.accounts, hpending]
    rcases hnext with rfl | rfl <;> rfl

theorem MainRun.Sound.advance (h : Sound models start run) (hstep : run.advance models = some run') :
    Sound models start run' := by
  obtain ⟨process, pc, input, handled⟩ := run
  cases pc with
  | console =>
    cases input with
    | nil =>
      cases hstep
      exact h.goto ⟨by decide, by decide⟩ rfl
    | cons line input =>
      simp only [MainRun.advance] at hstep
      split at hstep
      · next hexit =>
        cases hstep
        refine h.goto ⟨by decide, by decide⟩ ?_
        simp [MainRun.pending, hexit]
      · next hexit =>
        split at hstep
        · next hempty =>
          cases hstep
          subst hempty
          refine h.goto ⟨by decide, by decide⟩ ?_
          simp [MainRun.pending, hexit]
        · next hfull =>
          cases hstep
          refine h.handle ⟨by decide, by decide⟩ fun _ _ => ?_
          simp [MainRun.pending, hexit, hfull]
  | command text =>
    cases hstep
    refine h.handle ?_ fun _ _ => ?_
    · split <;> exact ⟨by decide, by decide⟩
    · split <;> rfl
  | waiting =>
    cases hstep
    exact h.goto ⟨by decide, by decide⟩ rfl
  | stopping =>
    cases hstep
    exact h.stopAll (.inl rfl) rfl
  | returning =>
    cases hstep
    exact h.stopAll (.inr rfl) rfl
  | done => cases hstep
  | terminated => cases hstep

theorem MainRun.Sound.step {action : MainAction} (h : Sound models start run)
    (hstep : run.step models action = some run') : Sound models start run' := by
  cases action with
  | main => exact h.advance hstep
  | cycle conn status =>
    cases hstep
    exact ⟨h.joinable.anti (fun _ _ hid => hid) rfl, h.alive, h.accounts, h.answered,
      fun hdone => ⟨(h.joined hdone).finished, (h.joined hdone).threads, (h.joined hdone).stopFlags,
        (h.joined hdone).active⟩⟩
  | finish id =>
    simp only [MainRun.step] at hstep
    split at hstep
    · next worker hworker =>
      split at hstep
      · cases hstep
      · next hfinished =>
        cases hstep
        refine ⟨h.joinable.anti (fun _ _ hid => (unfinished_finish.mp hid).1) rfl, h.alive, h.accounts,
          h.answered, fun hdone => ?_⟩
        exact absurd ⟨worker, hworker, rfl, by simpa using hfinished⟩ ((h.joined hdone).finished id _)
    · cases hstep

theorem Mode.enter_cases {mode : Mode} {readTextFile : Str → Option Str} {pc : MainPc}
    (h : mode.enter readTextFile = some pc) :
    pc = .console ∨ (∃ text, pc = .command text) ∨ pc = .returning := by
  cases mode with
  | console =>
    cases h
    exact .inl rfl
  | http port => cases h
  | command text =>
    cases h
    exact .inr (.inl ⟨text, rfl⟩)
  | commandFile path =>
    simp only [Mode.enter] at h
    split at h
    · next text htext =>
      cases h
      exact .inr (.inl ⟨text, rfl⟩)
    · cases h
      exact .inr (.inr rfl)
  | usage =>
    cases h
    exact .inr (.inr rfl)

/-- For all arguments but those of the HTTP mode, whatever is entered, whatever the workers do between
the statements of `main`, of which a command is one, and whichever calls on the database fail: no
command terminates the process, each one up to the end of the input or to the exit command is answered
once and in order, and when `main` has returned every worker has been joined. -/
theorem main_of_reach {args : List Str} {readTextFile : Str → Option Str} {pc : MainPc} (c : Conn)
    (input : List Str) (hmode : (parseMode args).enter readTextFile = some pc)
    (hreach : Steps.Reach (MainRun.step models) (fun _ _ => True) ⟨⟨c, {}⟩, pc, input, []⟩ run) :
    run.pc ≠ .terminated ∧
      run.handled.map (·.1) ++ run.pending = MainRun.pending ⟨⟨c, {}⟩, pc, input, []⟩ ∧
      (∀ x ∈ run.handled, ∃ p p', CommandProcessor.handle models x.1 p = some (.ok x.2, p')) ∧
      (run.pc = .done → AllJoined run.process.registry) := by
  have hsound : MainRun.Sound models ⟨⟨c, {}⟩, pc, input, []⟩ run := by
    refine hreach.invariant ?_ fun _ _ _ hrun _ hstep => hrun.step hstep
    have hpc : pc ≠ .terminated ∧ pc ≠ .done := by
      rcases Mode.enter_cases hmode with rfl | ⟨text, rfl⟩ | rfl <;> simp
    refine ⟨?_, hpc.1, rfl, fun x hx => absurd hx List.not_mem_nil, fun hdone => absurd hdone hpc.2⟩
    rintro id name ⟨worker, hworker, -⟩
    cases hworker
  exact ⟨hsound.alive, hsound.accounts, hsound.answered, hsound.joined⟩

end Run

/-- A device is created and started. -/
def consoleLines : List Str :=
  [createText, [], lit "\x7b\"category\":\"start_device_collect\",\"device_name\":\"A\"\x7d",
    lit "quit", lit "x"]

theorem main_of_reach_consoleLines : ∃ run : MainRun, run.pc = .done ∧
    run.process.registry.workers.length = 1 ∧
    run.handled.map (·.1) = (consoleLines.take 3).filter (· ≠ []) ∧
    AllJoined run.process.registry := by
  have hmode : (parseMode [lit "collector", lit "--console"]).enter (fun _ => none) = some .console := by
    decide
  obtain ⟨run, hreach, hdone, hworker⟩ : ∃ run,
      Steps.Reach (MainRun.step oneModel) (fun _ _ => True)
        ⟨⟨healthy .empty none 0, {}⟩, .console, consoleLines, []⟩ run ∧
      run.pc = .done ∧ run.process.registry.workers.length = 1 :=
    Steps.exists_reach_of_run (List.replicate 6 .main) (by decide +kernel)
  obtain ⟨-, haccounts, -, hjoined⟩ := main_of_reach _ consoleLines hmode hreach
  refine ⟨run, hdone, hworker, ?_, hjoined hdone⟩
  rw [MainRun.pending, hdone, List.append_nil] at haccounts
  exact haccounts.trans (by decide +kernel)

end CollectorService
