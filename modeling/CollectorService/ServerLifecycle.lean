import CollectorService.Numbers
import CollectorService.Steps

/-!
# The life cycle of the servers

`HttpServer` and `MockDriverServer` start and stop their thread in the same way: `start` and `stop`
exchange the flag `running_`, and a thread that fails clears it. The owner calls `start` and `stop`
in any order and destroys the server in the end; the thread runs in between, and each of its steps may
throw.

* `lifecycle_safe_iff`: the process is not terminated as long as no thread clears the flag of a
  running server, and every destructor completes. A thread that does clear it terminates the process,
  unless a thread cannot be created later.
-/

namespace CollectorService

/-! ## 1. The server thread -/

/-- What the two servers differ in. -/
structure ServerClass where
  name : Str
  scheme : Str
  host : Str
  port : ℤ
  deriving DecidableEq

def HttpServer (host : Str) (port : ℤ) : ServerClass :=
  ⟨lit "HttpServer", lit "http://", host, port⟩

def MockDriverServer (host : Str) (port : ℤ) : ServerClass :=
  ⟨lit "MockDriverServer", lit "ws://", host, port⟩

structure IoContext where
  stopped : Bool := false
  deriving DecidableEq

inductive LogLine where
  | info (message : Str)
  | error (message : Str)
  deriving DecidableEq

/-- What the owner and the thread share. -/
structure ServerFields where
  running : Bool := false
  ioContext : Option IoContext := some {}
  log : List LogLine := []
  deriving DecidableEq

/-- Where a thread is in `run`. -/
inductive RunPc where
  | entering
  | opening
  | loop
  | accepting
  | caught (what : Str)
  | ended
  deriving DecidableEq

/-- What `acceptor.accept` gives. -/
inductive AcceptResult where
  | wouldBlock
  | failure (message : Str)
  | connection
  deriving DecidableEq

/-- A step of `run`, with what the calls to the system give there. -/
inductive RunEvent where
  | makesContext
  | opens
  | checks
  | accepts (result : AcceptResult)
  | throws (what : Str)
  | clears
  deriving DecidableEq

namespace ServerClass

def listening (c : ServerClass) : LogLine :=
  .info (c.name ++ lit " listening on " ++ c.scheme ++ c.host ++ lit ":" ++ decimal c.port)

def acceptFailed (c : ServerClass) (message : Str) : LogLine :=
  .error (c.name ++ lit " accept failed: " ++ message)

def failed (c : ServerClass) (what : Str) : LogLine := .error (c.name ++ lit " failed: " ++ what)

/-- `run`. A connection is handed to a detached thread, which writes none of the fields. -/
def runStep (c : ServerClass) (f : ServerFields) : RunPc → RunEvent → Option (ServerFields × RunPc)
  | .entering, .makesContext => some ({ f with ioContext := some {} }, .opening)
  | .opening, .opens => some ({ f with log := f.log ++ [c.listening] }, .loop)
  | .loop, .checks => some (f, if f.running then .accepting else .ended)
  | .accepting, .accepts (.failure message) =>
    some (if f.running then { f with log := f.log ++ [c.acceptFailed message] } else f, .loop)
  | .accepting, .accepts _ => some (f, .loop)
  | .entering, .throws what | .opening, .throws what | .accepting, .throws what =>
    some ({ f with log := f.log ++ [c.failed what] }, .caught what)
  | .caught _, .clears => some ({ f with running := false }, .ended)
  | _, _ => none

end ServerClass

/-! ## 2. The owner -/

/-- The caller of `stop`. -/
inductive StopCaller where
  | owner
  | destructor
  deriving DecidableEq

/-- Where the owner is. -/
inductive OwnerPc where
  | outside
  /-- In `start`, behind the exchange. -/
  | creating
  /-- In `start`: the new thread runs, but is not assigned to the member yet. -/
  | assigning (thread : RunPc)
  /-- In `stop`, behind the exchange. -/
  | stopping (caller : StopCaller)
  | joining (caller : StopCaller)
  /-- In the destructor, behind `stop`. -/
  | destroyingMembers
  | destroyed
  /-- `std::terminate`. -/
  | terminated
  deriving DecidableEq

structure Server where
  fields : ServerFields := {}
  /-- Where the thread of `serverThread_` is; `none` when the member is not joinable. -/
  serverThread : Option RunPc := none
  owner : OwnerPc := .outside
  deriving DecidableEq

namespace Server

inductive Action where
  | start
  | stop
  | destroy
  /-- The owner's next line. -/
  | proceed
  /-- The constructor of `std::thread` throws, and so does `start`. -/
  | creationFails
  /-- The thread of the member. -/
  | thread (event : RunEvent)
  /-- A thread that is not assigned yet. -/
  | newThread (event : RunEvent)
  deriving DecidableEq

def start (s : Server) : Server :=
  if s.fields.running then s
  else { s with fields.running := true, owner := .creating }

def afterStop : StopCaller → OwnerPc
  | .owner => .outside
  | .destructor => .destroyingMembers

def stop (s : Server) (caller : StopCaller) : Server :=
  if s.fields.running then { s with fields.running := false, owner := .stopping caller }
  else { s with owner := afterStop caller }

/-- The next line of a call. A joinable thread can be neither assigned to nor destroyed, and `join`
waits for its end. -/
def proceed (s : Server) : Option Server :=
  match s.owner with
  | .creating => some { s with owner := .assigning .entering }
  | .assigning thread =>
    if s.serverThread.isSome then some { s with owner := .terminated }
    else some { s with serverThread := some thread, owner := .outside }
  | .stopping caller => some { s with
      fields.ioContext := s.fields.ioContext.map fun _ => ⟨true⟩, owner := .joining caller }
  | .joining caller => match s.serverThread with
    | none => some { s with owner := afterStop caller }
    | some .ended => some { s with serverThread := none, owner := afterStop caller }
    | some _ => none
  | .destroyingMembers => some { s with
      fields.ioContext := none
      owner := if s.serverThread.isSome then .terminated else .destroyed }
  | .outside | .destroyed | .terminated => none

/-- The system of the owner and the threads. -/
def step (c : ServerClass) (s : Server) (a : Action) : Option Server :=
  match a, s.owner with
  | _, .terminated => none
  | .start, .outside => some s.start
  | .stop, .outside => some (s.stop .owner)
  | .destroy, .outside => some (s.stop .destructor)
  | .proceed, _ => s.proceed
  | .creationFails, .creating => some { s with owner := .outside }
  | .thread event, _ => s.serverThread.bind fun pc => (c.runStep s.fields pc event).map
      fun (fields, pc) => { s with fields, serverThread := some pc }
  | .newThread event, .assigning pc => (c.runStep s.fields pc event).map
      fun (fields, pc) => { s with fields, owner := .assigning pc }
  | _, _ => none

/-- A thread clears the flag only when it has been cleared before. -/
def FailsStopped (s : Server) : Action → Prop
  | .thread .clears | .newThread .clears => s.fields.running = false
  | _ => True

instance : ∀ s a, Decidable (FailsStopped s a) := fun s a => by
  unfold FailsStopped
  split <;> infer_instance

/-- Every thread can be created. -/
def Creates (_ : Server) (a : Action) : Prop := a ≠ .creationFails

instance : ∀ s a, Decidable (Creates s a) := fun _ a => inferInstanceAs (Decidable (a ≠ _))

/-! ## 3. What a step of a thread does -/

end Server

/-- The steps that a thread has left at most once the flag is cleared. -/
def RunPc.rank : RunPc → ℕ
  | .entering => 4
  | .opening => 3
  | .accepting => 2
  | .loop | .caught _ => 1
  | .ended => 0

section Threads
variable {c : ServerClass} {f f' : ServerFields} {pc pc' : RunPc} {event : RunEvent}

/-- A thread writes the flag only in its `catch` block. -/
theorem ServerClass.runStep_running (h : c.runStep f pc event = some (f', pc')) :
    event ≠ .clears ∧ f'.running = f.running ∨
      event = .clears ∧ f'.running = false ∧ pc' = .ended := by
  unfold runStep at h
  split at h <;> cases h
  case h_9 => exact .inr ⟨rfl, rfl, rfl⟩
  case h_4 => exact .inl ⟨nofun, by split <;> rfl⟩
  all_goals exact .inl ⟨nofun, rfl⟩

theorem ServerClass.runStep_rank (hstopped : f.running = false)
    (h : c.runStep f pc event = some (f', pc')) : f'.running = false ∧ pc'.rank < pc.rank := by
  unfold runStep at h
  split at h <;> cases h <;> simp [hstopped, RunPc.rank]

/-- A thread that has not ended has a next step. -/
theorem ServerClass.exists_runStep (c : ServerClass) (f : ServerFields) (hpc : pc ≠ .ended) :
    ∃ event f' pc', c.runStep f pc event = some (f', pc') := by
  cases pc with
  | entering => exact ⟨.makesContext, _, _, rfl⟩
  | opening => exact ⟨.opens, _, _, rfl⟩
  | loop => exact ⟨.checks, _, _, rfl⟩
  | accepting => exact ⟨.accepts .wouldBlock, _, _, rfl⟩
  | caught what => exact ⟨.clears, _, _, rfl⟩
  | ended => exact absurd rfl hpc

end Threads

namespace Server

/-- Everything that a step can be. -/
theorem step_cases {c : ServerClass} {s s' : Server} {a : Action} (h : step c s a = some s') :
    (a = .start ∧ s.owner = .outside ∧ s' = s.start) ∨
    (∃ caller, (a = .stop ∨ a = .destroy) ∧ s.owner = .outside ∧ s' = s.stop caller) ∨
    (a = .proceed ∧ s.proceed = some s') ∨
    (a = .creationFails ∧ s.owner = .creating ∧ s' = { s with owner := .outside }) ∨
    (∃ event pc fields pc', a = .thread event ∧ s.owner ≠ .terminated ∧
      s.serverThread = some pc ∧ c.runStep s.fields pc event = some (fields, pc') ∧
      s' = { s with fields, serverThread := some pc' }) ∨
    ∃ event pc fields pc', a = .newThread event ∧ s.owner = .assigning pc ∧
      c.runStep s.fields pc event = some (fields, pc') ∧
      s' = { s with fields, owner := .assigning pc' } := by
  unfold step at h
  split at h
  case h_1 => cases h
  case h_2 howner => exact .inl ⟨rfl, howner, (Option.some.inj h).symm⟩
  case h_3 howner => exact .inr (.inl ⟨.owner, .inl rfl, howner, (Option.some.inj h).symm⟩)
  case h_4 howner => exact .inr (.inl ⟨.destructor, .inr rfl, howner, (Option.some.inj h).symm⟩)
  case h_5 => exact .inr (.inr (.inl ⟨rfl, h⟩))
  case h_6 howner => exact .inr (.inr (.inr (.inl ⟨rfl, howner, (Option.some.inj h).symm⟩)))
  case h_7 howner =>
    obtain ⟨pc, hthread, hmap⟩ := Option.bind_eq_some_iff.mp h
    obtain ⟨⟨fields, pc'⟩, hrun, hs'⟩ := Option.map_eq_some_iff.mp hmap
    exact .inr (.inr (.inr (.inr (.inl
      ⟨_, pc, fields, pc', rfl, howner, hthread, hrun, hs'.symm⟩))))
  case h_8 howner =>
    obtain ⟨⟨fields, pc'⟩, hrun, hs'⟩ := Option.map_eq_some_iff.mp h
    exact .inr (.inr (.inr (.inr (.inr ⟨_, _, fields, pc', rfl, howner, hrun, hs'.symm⟩))))
  case h_9 => cases h

end Server

/-! ## 4. Runs in which no thread clears the flag of a running server -/

namespace Server

/-- A server whose thread can be assigned to and destroyed wherever the owner does that. -/
def Good (s : Server) : Prop :=
  match s.owner with
  | .outside => s.fields.running = false → s.serverThread = none
  | .creating | .assigning _ => s.fields.running = true ∧ s.serverThread = none
  | .stopping _ | .joining _ => s.fields.running = false
  | .destroyingMembers | .destroyed => s.fields.running = false ∧ s.serverThread = none
  | .terminated => False

section Step
variable {c : ServerClass} {s s' : Server} {a : Action}

theorem good_afterStop {caller : StopCaller} (hrunning : s.fields.running = false)
    (hthread : s.serverThread = none) : Good { s with owner := afterStop caller } := by
  cases caller with
  | owner => exact fun _ => hthread
  | destructor => exact ⟨hrunning, hthread⟩

theorem Good.stop (h : s.Good) (howner : s.owner = .outside) (caller : StopCaller) :
    (s.stop caller).Good := by
  unfold Server.stop
  split
  · exact rfl
  · next hrunning =>
    rw [Bool.not_eq_true] at hrunning
    rw [Good, howner] at h
    exact good_afterStop hrunning (h hrunning)

theorem Good.proceed (h : s.Good) (hstep : s.proceed = some s') : s'.Good := by
  unfold Good at h
  unfold Server.proceed at hstep
  cases howner : s.owner with
  | outside | destroyed | terminated => simp [howner] at hstep
  | creating =>
    simp only [howner, Option.some.injEq] at h hstep
    subst hstep
    exact h
  | assigning thread =>
    simp only [howner] at h hstep
    rw [if_neg (by simp [h.2])] at hstep
    cases hstep
    exact fun hrunning => absurd (h.1.symm.trans hrunning) (by decide)
  | stopping caller =>
    simp only [howner, Option.some.injEq] at h hstep
    subst hstep
    exact h
  | joining caller =>
    simp only [howner] at h hstep
    split at hstep
    · next hthread =>
      cases hstep
      exact good_afterStop h hthread
    · cases hstep
      exact @good_afterStop { s with serverThread := none } _ h rfl
    · cases hstep
  | destroyingMembers =>
    simp only [howner, Option.some.injEq] at h hstep
    subst hstep
    simpa [Good, h.2] using h.1

/-- What a thread that keeps the flag keeps. -/
theorem Good.thread {fields : ServerFields} {pc pc' : RunPc} (h : s.Good)
    (hthread : s.serverThread = some pc) (hrunning : fields.running = s.fields.running) :
    Good { s with fields, serverThread := some pc' } := by
  unfold Good at h ⊢
  cases howner : s.owner <;> simp_all

theorem Good.step (h : s.Good) (hok : FailsStopped s a) (hstep : step c s a = some s') :
    s'.Good := by
  rcases step_cases hstep with ⟨rfl, howner, rfl⟩ | ⟨caller, -, howner, rfl⟩ | ⟨rfl, hproceed⟩ |
    ⟨rfl, howner, rfl⟩ | ⟨event, pc, fields, pc', rfl, -, hthread, hrun, rfl⟩ |
    ⟨event, pc, fields, pc', rfl, howner, hrun, rfl⟩
  · unfold Server.start
    split
    · exact h
    · next hrunning =>
      rw [Bool.not_eq_true] at hrunning
      rw [Good, howner] at h
      exact ⟨rfl, h hrunning⟩
  · exact h.stop howner caller
  · exact h.proceed hproceed
  · rw [Good, howner] at h
    exact fun hrunning => absurd (h.1.symm.trans hrunning) (by decide)
  · refine h.thread hthread ?_
    rcases c.runStep_running hrun with ⟨-, hsame⟩ | ⟨rfl, hcleared, -⟩
    · exact hsame
    · exact hcleared.trans hok.symm
  · rw [Good, howner] at h
    rcases c.runStep_running hrun with ⟨-, hsame⟩ | ⟨rfl, hcleared, -⟩
    · exact ⟨hsame.trans h.1, h.2⟩
    · exact absurd (h.1.symm.trans hok) (by decide)

end Step

/-- The safe states are those of the runs in which every step is admitted. -/
theorem good_of_reach {c : ServerClass} {s : Server} (hs : Steps.Reach (step c) FailsStopped {} s) :
    s.Good :=
  hs.invariant (fun _ => rfl) fun _ _ _ hgood hok hstep => hgood.step hok hstep

/-! ## 5. The destructor -/

/-- The destructor has called `stop`. -/
def Destroying (s : Server) : Prop :=
  match s.owner with
  | .stopping .destructor | .joining .destructor | .destroyingMembers | .destroyed => True
  | _ => False

section Destructor
variable {c : ServerClass} {s s' : Server} {a : Action}

/-- The steps that are left at most. -/
def rank (s : Server) : ℕ :=
  (match s.owner with
    | .stopping _ => 3
    | .joining _ => 2
    | .destroyingMembers => 1
    | _ => 0) + (s.serverThread.map RunPc.rank).getD 0

theorem Good.running_of_destroying (h : s.Good) (hs : s.Destroying) : s.fields.running = false := by
  unfold Good at h
  unfold Destroying at hs
  split at hs
  case h_1 howner | h_2 howner =>
    simp only [howner] at h
    exact h
  case h_3 howner | h_4 howner =>
    simp only [howner] at h
    exact h.1
  case h_5 => exact hs.elim

theorem proceed_rank (h : s.Good) (hs : s.Destroying) (hstep : s.proceed = some s') :
    s'.Destroying ∧ s'.rank < s.rank := by
  unfold Server.proceed at hstep
  unfold Destroying at hs
  unfold Good at h
  split at hs
  case h_1 howner =>
    rw [howner] at hstep
    cases hstep
    simp [Destroying, rank, howner]
  case h_2 howner =>
    rw [howner] at hstep
    dsimp only at hstep
    split at hstep <;> cases hstep
    · next hthread => simp [Destroying, rank, howner, afterStop, hthread]
    · next hthread => simp [Destroying, rank, RunPc.rank, howner, afterStop, hthread]
  case h_3 howner =>
    simp only [howner] at h
    rw [howner] at hstep
    cases hstep
    simp [Destroying, rank, howner, h.2]
  case h_4 howner =>
    rw [howner] at hstep
    cases hstep
  case h_5 => exact hs.elim

/-- In the destructor only the owner and the thread of the member take steps, and both get nearer to
their end. -/
theorem step_rank (h : s.Good) (hs : s.Destroying) (hstep : step c s a = some s') :
    s'.Destroying ∧ s'.rank < s.rank := by
  have hrunning := h.running_of_destroying hs
  rcases step_cases hstep with ⟨rfl, howner, rfl⟩ | ⟨caller, -, howner, rfl⟩ | ⟨rfl, hproceed⟩ |
    ⟨rfl, howner, rfl⟩ | ⟨event, pc, fields, pc', rfl, -, hthread, hrun, rfl⟩ |
    ⟨event, pc, fields, pc', rfl, howner, hrun, rfl⟩
  · simp [Destroying, howner] at hs
  · simp [Destroying, howner] at hs
  · exact proceed_rank h hs hproceed
  · simp [Destroying, howner] at hs
  · refine ⟨hs, ?_⟩
    have hlt := (c.runStep_rank hrunning hrun).2
    simpa [rank, hthread] using hlt
  · simp [Destroying, howner] at hs

theorem failsStopped_of_destroying (h : s.Good) (hs : s.Destroying) : FailsStopped s a := by
  unfold FailsStopped
  split
  · exact h.running_of_destroying hs
  · exact h.running_of_destroying hs
  · trivial

/-- The destructor waits for nothing but a thread that has a next step. -/
theorem exists_step (c : ServerClass) (hs : s.Destroying) (hover : s.owner ≠ .destroyed) :
    ∃ a s', step c s a = some s' := by
  cases howner : s.owner with
  | outside | creating | assigning | terminated => simp [Destroying, howner] at hs
  | destroyed => exact absurd howner hover
  | stopping | destroyingMembers =>
    refine ⟨.proceed, ?_⟩
    simp [step, proceed, howner]
  | joining =>
    cases hthread : s.serverThread with
    | none =>
      refine ⟨.proceed, ?_⟩
      simp [step, proceed, howner, hthread]
    | some pc =>
      by_cases hpc : pc = .ended
      · refine ⟨.proceed, ?_⟩
        simp [step, proceed, howner, hthread, hpc]
      · obtain ⟨event, fields, pc', hrun⟩ := c.exists_runStep s.fields hpc
        refine ⟨.thread event, { s with fields, serverThread := some pc' }, ?_⟩
        simp [step, howner, hthread, hrun]

/-- Every destructor of a safe server completes, without a thread in the member. -/
theorem Good.destructor_completes (h : s.Good) (hs : s.Destroying) :
    Steps.Inevitable (Server.step c) (fun s => s.owner = .destroyed ∧ s.serverThread = none) s := by
  refine .of_rank (I := fun s => s.Good ∧ s.Destroying) rank ?_ ?_ ⟨h, hs⟩
  · rintro s ⟨hgood, hs⟩ hnot
    refine exists_step c hs fun howner => hnot ⟨howner, ?_⟩
    rw [Good, howner] at hgood
    exact hgood.2
  · rintro s a s' ⟨hgood, hs⟩ - hstep
    obtain ⟨hs', hrank⟩ := step_rank hgood hs hstep
    exact .inr ⟨⟨hgood.step (failsStopped_of_destroying hgood hs) hstep, hs'⟩, hrank⟩

end Destructor

/-! ## 6. Runs in which a thread clears the flag of a running server -/

/-- The member has a thread that has ended, and `stop` does not join it. -/
def Doomed (s : Server) : Prop :=
  match s.owner with
  | .outside => s.fields.running = false ∧ s.serverThread = some .ended
  | .creating | .destroyingMembers => s.serverThread = some .ended
  | .assigning thread => s.serverThread = some .ended ∨
      s.fields.running = false ∧ s.serverThread = none ∧ thread = .ended
  | .terminated => True
  | _ => False

section Doomed
variable {c : ServerClass} {s s' : Server} {a : Action}

theorem not_runStep_ended {f f' : ServerFields} {pc' : RunPc} {event : RunEvent} :
    c.runStep f .ended event ≠ some (f', pc') := by
  cases event <;> exact nofun

theorem Doomed.proceed (h : s.Doomed) (hstep : s.proceed = some s') : s'.Doomed := by
  unfold Doomed at h
  unfold Server.proceed at hstep
  cases howner : s.owner with
  | outside | destroyed | terminated => simp [howner] at hstep
  | stopping | joining => simp [howner] at h
  | creating =>
    simp only [howner, Option.some.injEq] at h hstep
    subst hstep
    exact .inl h
  | assigning thread =>
    simp only [howner] at h hstep
    rcases h with hthread | ⟨hrunning, hthread, rfl⟩
    · rw [if_pos (by simp [hthread])] at hstep
      cases hstep
      trivial
    · rw [if_neg (by simp [hthread])] at hstep
      cases hstep
      exact ⟨hrunning, rfl⟩
  | destroyingMembers =>
    simp only [howner, Option.some.injEq] at h hstep
    subst hstep
    simp [Doomed, h]

theorem Doomed.step (h : s.Doomed) (hcreates : a ≠ .creationFails) (hstep : step c s a = some s') :
    s'.Doomed := by
  rcases step_cases hstep with ⟨rfl, howner, rfl⟩ | ⟨caller, -, howner, rfl⟩ | ⟨rfl, hproceed⟩ |
    ⟨rfl, howner, rfl⟩ | ⟨event, pc, fields, pc', rfl, hnot, hthread, hrun, rfl⟩ |
    ⟨event, pc, fields, pc', rfl, howner, hrun, rfl⟩
  · rw [Doomed, howner] at h
    rw [Server.start, if_neg (by simp [h.1])]
    exact h.2
  · rw [Doomed, howner] at h
    rw [Server.stop, if_neg (by simp [h.1])]
    cases caller with
    | owner => exact h
    | destructor => exact h.2
  · exact h.proceed hproceed
  · exact absurd rfl hcreates
  · -- the thread of the member has ended
    have hended : pc = .ended := by
      unfold Doomed at h
      cases howner : s.owner <;> simp_all
    rw [hended] at hrun
    exact absurd hrun not_runStep_ended
  · rw [Doomed, howner] at h
    rcases h with hthread | ⟨-, -, rfl⟩
    · exact .inl hthread
    · exact absurd hrun not_runStep_ended

/-- A thread that clears the flag of a running server. -/
theorem Good.doomed_of_step (h : s.Good) (hok : ¬ FailsStopped s a)
    (hstep : Server.step c s a = some s') : s'.Doomed := by
  rcases step_cases hstep with ⟨rfl, -⟩ | ⟨caller, rfl | rfl, -⟩ | ⟨rfl, -⟩ | ⟨rfl, -⟩ |
    ⟨event, pc, fields, pc', rfl, -, hthread, hrun, rfl⟩ |
    ⟨event, pc, fields, pc', rfl, howner, hrun, rfl⟩
  · exact absurd trivial hok
  · exact absurd trivial hok
  · exact absurd trivial hok
  · exact absurd trivial hok
  · exact absurd trivial hok
  · rcases c.runStep_running hrun with ⟨hclears, -⟩ | ⟨rfl, hfalse, rfl⟩
    · exact absurd (by unfold FailsStopped; split <;> simp_all) hok
    · -- the member has a thread and the flag is set, so the owner is outside
      have hrunning : s.fields.running = true := Bool.not_eq_false _ ▸ hok
      unfold Good at h
      unfold Doomed
      cases howner : s.owner <;> simp_all
  · rw [Good, howner] at h
    rcases c.runStep_running hrun with ⟨hclears, -⟩ | ⟨rfl, hfalse, rfl⟩
    · exact absurd (by unfold FailsStopped; split <;> simp_all) hok
    · exact .inr ⟨hfalse, h.2, rfl⟩

theorem Doomed.run {as : List Action} (h : s.Doomed)
    (hrun : Steps.run (Server.step c) Creates s as = some s') : s'.Doomed := by
  induction as generalizing s with
  | nil =>
    cases hrun
    exact h
  | cons a as ih =>
    rw [Steps.run] at hrun
    split at hrun
    · next hcreates =>
      obtain ⟨s₁, hstep, hrest⟩ := Option.bind_eq_some_iff.mp hrun
      exact ih (h.step hcreates hstep) hrest
    · cases hrun

/-- A run in which every thread is created ends in a safe state, and all its steps are admitted, or
the server is doomed. -/
theorem Good.run {as : List Action} (h : s.Good)
    (hrun : Steps.run (Server.step c) Creates s as = some s') :
    Steps.run (Server.step c) FailsStopped s as = some s' ∧ s'.Good ∨
      Steps.run (Server.step c) FailsStopped s as = none ∧ s'.Doomed := by
  induction as generalizing s with
  | nil =>
    cases hrun
    exact .inl ⟨rfl, h⟩
  | cons a as ih =>
    rw [Steps.run] at hrun
    split at hrun
    · next hcreates =>
      obtain ⟨s₁, hstep, hrest⟩ := Option.bind_eq_some_iff.mp hrun
      unfold Steps.run
      split
      · next hok =>
        rw [hstep, Option.bind_some]
        exact ih (h.step hok hstep) hrest
      · next hok => exact .inr ⟨rfl, (h.doomed_of_step hok hstep).run hrest⟩
    · cases hrun

end Doomed

/-- The owner has come to the end. -/
def Over (s : Server) : Prop := s.owner = .destroyed ∨ s.owner = .terminated

/-- As long as a thread clears the flag only when it has been cleared before, no joinable thread is
assigned to or destroyed, and every destructor completes, with the thread joined. Of the runs that
have come to their end and in which every thread could be created, these are the only ones in which the
destructor has completed. -/
theorem lifecycle_safe_iff (c : ServerClass) :
    (∀ s, Steps.Reach (step c) FailsStopped {} s → s.owner ≠ .terminated ∧
      (s.Destroying →
        Steps.Inevitable (step c) (fun s => s.owner = .destroyed ∧ s.serverThread = none) s)) ∧
    ∀ as s, Steps.run (step c) Creates {} as = some s → s.Over →
      (s.owner = .destroyed ∧ s.serverThread = none ↔
        Steps.run (step c) FailsStopped {} as = some s) := by
  constructor
  · intro s hs
    have hgood := good_of_reach hs
    refine ⟨fun howner => ?_, hgood.destructor_completes⟩
    rwa [Good, howner] at hgood
  · intro as s hrun hover
    have hstart : Good {} := fun _ => rfl
    rcases hstart.run hrun with ⟨hsafe, hgood⟩ | ⟨hharmful, hdoomed⟩
    · refine iff_of_true ?_ hsafe
      unfold Good at hgood
      rcases hover with howner | howner <;> simp only [howner] at hgood
      exact ⟨howner, hgood.2⟩
    · refine iff_of_false (fun ⟨howner, _⟩ => ?_) (by simp [hharmful])
      rwa [Doomed, howner] at hdoomed

/-- A start whose thread finds the port taken. -/
def failedStart : List Action :=
  [.start, .proceed, .proceed, .thread .makesContext,
    .thread (.throws (lit "bind: Address already in use")), .thread .clears]

/-- Neither the destructor nor a second start survives a port that is taken. -/
theorem failedStart_terminates :
    ([HttpServer (lit "127.0.0.1") 8080, MockDriverServer (lit "127.0.0.1") 9001].flatMap fun c =>
      [[.destroy, .proceed], [.stop, .destroy, .proceed], [.start, .proceed, .proceed]].map fun as =>
        (Steps.run (step c) Creates {} (failedStart ++ as)).map (·.owner)) =
      List.replicate 6 (some .terminated) := by
  decide +kernel

end Server

end CollectorService
