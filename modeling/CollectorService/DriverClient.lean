import CollectorService.Exchange
import CollectorService.MockDriverServer
import CollectorService.Numbers
import CollectorService.Pool
import Mathlib.Data.List.Flatten

/-!
# `DriverClient` and the sessions of `MockDriverServer`

A client object with the calls of its owner, the connections that it opens, and the sessions that the
driver runs on them, each on its own thread. Every blocking call of the client may fail, every session
may fail or find its server stopped, and their steps interleave in any order.

* `Good`: what every run keeps. A connection that the client has given up is never used again, and
  nothing is under way on the other one while no query is.
* `driverClient_of_reach`: a reply that `sendQuery` returns is the driver's answer to that very call;
  the driver answers each call at most once, over all connections.
* `sessions_end`: once the client object is destroyed, every session ends.
-/

namespace CollectorService

open Exchange

/-! ## 1. The calls of the client -/

/-- A call of `sendQuery`; the number is not sent. -/
structure QueryCall where
  id : ℕ
  query : Str
  deriving DecidableEq

/-- A WebSocket connection between the client and a session of the driver. -/
abbrev DriverConnection := Connection QueryCall Str

/-- `asio::connect` has returned, and the session thread has been created. -/
def DriverConnection.opened : DriverConnection := { session := .accepting }

/-- What is left to do behind `close()`. -/
inductive Closing where
  | returns
  | destroys
  /-- The `catch` block of `sendQuery` throws. -/
  | throws (call : QueryCall) (what : Str)
  deriving DecidableEq

/-- Where the client stands. -/
inductive ClientPc where
  | idle
  /-- In `connect`, before `asio::connect` has returned. -/
  | connecting
  /-- In `handshake`, which writes and then reads. -/
  | shaking (sent : Bool)
  /-- In `sendQuery`, in front of `ws.write`. -/
  | asking (call : QueryCall)
  /-- In `ws.read`. -/
  | awaiting (call : QueryCall)
  /-- In `ws.close`, which writes and then reads. -/
  | closing (cause : Closing) (sent : Bool)
  | destroyed
  deriving DecidableEq

/-- The client, and what the outside world has of it. -/
structure DriverClient where
  host : Str
  port : ℤ
  /-- `impl_->connected`. -/
  connected : Bool := false
  /-- The connection of `impl_->ws`. -/
  socket : Option DriverConnection := none
  pc : ClientPc := .idle
  /-- The connections of the earlier `impl_`. -/
  past : List DriverConnection := []
  calls : ℕ := 0
  /-- What `sendQuery` has returned or thrown, the latest first. -/
  outcomes : List (QueryCall × Except Str Str) := []

inductive ClientAction where
  | connect
  | sendQuery (query : Str)
  | close
  | destroy
  /-- `asio::connect` returns. -/
  | connects
  /-- The next frame is written. -/
  | writes
  /-- The next frame is read. -/
  | reads
  /-- The blocking call throws. -/
  | fails (what : Str)
  /-- `ws.close` returns. -/
  | closes
  /-- A session of the driver takes a step: the one of the open connection, or an earlier one. -/
  | session (i : Option ℕ) (event : ServerEvent Double)

namespace DriverClient

/-- `MockDriverServer::handleQuery`, called by a session at some time. -/
def answer (time : Double) (call : QueryCall) : Option Str :=
  some (MockDriverServer.handleQuery call.query time)

/-- `MockDriverServer::handleSession` reads on behind every query. -/
def serve (c : DriverConnection) (event : ServerEvent Double) : Option DriverConnection :=
  c.serve answer (fun _ => true) event

/-- `impl_ = std::make_unique<Impl>()`: the destructor of the old one closes its socket. -/
def renewImpl (s : DriverClient) : DriverClient :=
  { s with
    connected := false
    socket := none
    past := s.past ++ (s.socket.map Connection.drop).toList }

/-- The text of the exception that `sendQuery` throws. -/
def failedText (s : DriverClient) (what : Str) : Str :=
  lit "DriverClient sendQuery failed for ws://" ++ s.host ++ lit ":" ++ decimal s.port ++ lit ": " ++
    what

/-- `close` has replaced `impl_`. -/
def closed (s : DriverClient) : Closing → DriverClient
  | .returns => { s.renewImpl with pc := .idle }
  | .destroys => { s.renewImpl with pc := .destroyed }
  | .throws call what => { s.renewImpl with
      pc := .idle
      outcomes := (call, .error (s.failedText what)) :: s.outcomes }

/-- `close`: a connection that is not connected is not closed with a handshake. -/
def close (s : DriverClient) (cause : Closing) : DriverClient :=
  if s.connected then { s with pc := .closing cause false } else s.closed cause

/-- The client writes on its connection. -/
def write (s : DriverClient) (f : Frame QueryCall) (pc : ClientPc) : Option DriverClient :=
  s.socket.map fun c => { s with socket := some (c.send f), pc }

def step (s : DriverClient) : ClientAction → Option DriverClient
  | .connect => match s.pc with
    | .idle => if s.connected then some s else some { s with pc := .connecting }
    | _ => none
  | .sendQuery query => match s.pc with
    | .idle =>
      let call : QueryCall := ⟨s.calls, query⟩
      let s := { s with calls := s.calls + 1 }
      if s.connected then some { s with pc := .asking call }
      else some { s with
        outcomes := (call, .error (lit "DriverClient is not connected")) :: s.outcomes }
    | _ => none
  | .close => match s.pc with
    | .idle => some (s.close .returns)
    | _ => none
  | .destroy => match s.pc with
    | .idle => some (s.close .destroys)
    | _ => none
  | .connects => match s.pc with
    | .connecting => some { s with socket := some .opened, pc := .shaking false }
    | _ => none
  | .writes => match s.pc with
    | .shaking false => s.write .hello (.shaking true)
    | .asking call => s.write (.text call) (.awaiting call)
    | .closing cause false => s.write .bye (.closing cause true)
    | _ => none
  | .reads => match s.pc, s.socket.bind Connection.receive with
    | .shaking true, some (.hello, c) =>
      some { s with socket := some c, connected := true, pc := .idle }
    | .awaiting call, some (.text r, c) =>
      some { s with socket := some c, pc := .idle, outcomes := (call, .ok r) :: s.outcomes }
    | .closing cause true, some (_, c) =>
      some { s with socket := some c, pc := .closing cause true }
    | _, _ => none
  | .fails what => match s.pc with
    | .connecting | .shaking _ => some { s.renewImpl with pc := .idle }
    | .asking call | .awaiting call => some (s.close (.throws call what))
    -- the error code of `ws.close` is logged only
    | .closing cause _ => some (s.closed cause)
    | _ => none
  | .closes => match s.pc with
    | .closing cause _ => some (s.closed cause)
    | _ => none
  | .session none event => do
    let c ← s.socket
    let c ← serve c event
    return { s with socket := some c }
  | .session (some i) event => do
    let c ← s.past[i]?
    let c ← serve c event
    return { s with past := s.past.set i c }

/-- All connections that the client has opened. -/
def connections (s : DriverClient) : List DriverConnection := s.past ++ s.socket.toList

/-- The calls whose queries have been written, in their order. -/
def asked (s : DriverClient) : List QueryCall := s.connections.flatMap (·.asked)

/-! ## 2. What every run keeps -/

/-- What is kept of the connections and of the outcomes. -/
structure Sound (s : DriverClient) : Prop where
  orderly : ∀ c ∈ s.connections, Connection.Orderly answer (fun _ => true) c
  /-- The client has closed all connections but one. -/
  past : ∀ c ∈ s.past, c.clientOpen = false
  /-- No two queries belong to one call. -/
  ordered : s.asked.Pairwise fun a b => a.id < b.id
  called : ∀ call ∈ s.asked, call.id < s.calls
  outcomes : ∀ p ∈ s.outcomes, ∀ r, p.2 = .ok r → ∃ c ∈ s.connections, (p.1, r) ∈ c.answered

/-- Where the two ends of the open connection stand. -/
def Phase (s : DriverClient) : Prop :=
  match s.pc with
  | .idle => if s.connected then ∃ c, s.socket = some c ∧ c.Quiet else s.socket = none
  | .connecting => s.connected = false ∧ s.socket = none
  | .shaking false => s.connected = false ∧ ∃ c, s.socket = some c ∧ c.Fresh
  | .shaking true => s.connected = false ∧ ∃ c, s.socket = some c ∧ c.Greeting
  | .asking call => s.connected = true ∧ (∃ c, s.socket = some c ∧ c.Quiet) ∧
      (∀ a ∈ s.asked, a.id < call.id) ∧ call.id < s.calls
  | .awaiting call => s.connected = true ∧ ∃ c, s.socket = some c ∧ c.Asked call
  | .closing _ _ => s.socket ≠ none
  | .destroyed => s.socket = none

structure Good (s : DriverClient) : Prop where
  sound : s.Sound
  phase : s.Phase

section Sound
variable {s : DriverClient} {c c' : DriverConnection} {call : QueryCall}

theorem connections_of_socket (h : s.socket = some c) : s.connections = s.past ++ [c] := by
  simp [connections, h]

theorem asked_of_socket (h : s.socket = some c) :
    s.asked = s.past.flatMap (·.asked) ++ c.asked := by
  simp [asked, connections_of_socket h]

theorem mem_connections (h : s.socket = some c) : c ∈ s.connections := by
  simp [connections_of_socket h]

/-- Giving up the connection. -/
theorem Sound.renewImpl (h : s.Sound) : s.renewImpl.Sound := by
  cases hsocket : s.socket with
  | none =>
    have hpast : s.renewImpl.past = s.past := by simp [DriverClient.renewImpl, hsocket]
    have hconns : s.renewImpl.connections = s.connections := by
      simp [connections, hsocket, DriverClient.renewImpl]
    have hasked : s.renewImpl.asked = s.asked := by rw [asked, hconns, asked]
    exact ⟨hconns ▸ h.orderly, hpast ▸ h.past, hasked ▸ h.ordered, hasked ▸ h.called,
      hconns ▸ h.outcomes⟩
  | some c =>
    have hpast : s.renewImpl.past = s.past ++ [c.drop] := by
      simp [DriverClient.renewImpl, hsocket]
    have hconns : s.renewImpl.connections = s.past ++ [c.drop] := by
      simp [connections, hsocket, DriverClient.renewImpl]
    have hasked : s.renewImpl.asked = s.asked := by
      simp [asked, hconns, connections_of_socket hsocket, Connection.drop]
    have hmem : ∀ d ∈ s.past, d ∈ s.connections := by simp +contextual [connections]
    refine ⟨fun d hd => ?_, fun d hd => ?_, hasked ▸ h.ordered, hasked ▸ h.called,
      fun p hp r hr => ?_⟩
    · rw [hconns, List.mem_append, List.mem_singleton] at hd
      rcases hd with hd | rfl
      · exact h.orderly d (hmem d hd)
      · exact (h.orderly c (mem_connections hsocket)).drop
    · rw [hpast, List.mem_append, List.mem_singleton] at hd
      rcases hd with hd | rfl
      · exact h.past d hd
      · rfl
    · obtain ⟨d, hd, hanswered⟩ := h.outcomes p hp r hr
      rw [connections_of_socket hsocket, List.mem_append, List.mem_singleton] at hd
      rcases hd with hd | rfl
      · exact ⟨d, by simp [hconns, hd], hanswered⟩
      · exact ⟨d.drop, by simp [hconns], hanswered⟩

/-- A call that ends with an exception. -/
theorem Sound.throw (h : s.Sound) (call : QueryCall) (e : Str) :
    Sound { s with outcomes := (call, .error e) :: s.outcomes } :=
  ⟨h.orderly, h.past, h.ordered, h.called, fun p hp r hr => by
    rcases List.mem_cons.mp hp with rfl | hp
    · cases hr
    · exact h.outcomes p hp r hr⟩

/-- A call that ends with the driver's answer to it. -/
theorem Sound.return (h : s.Sound) {r : Str} (hsocket : s.socket = some c)
    (hr : (call, r) ∈ c.answered) :
    Sound { s with outcomes := (call, .ok r) :: s.outcomes } :=
  ⟨h.orderly, h.past, h.ordered, h.called, fun p hp r' hr' => by
    rcases List.mem_cons.mp hp with rfl | hp
    · cases hr'
      exact ⟨c, mem_connections hsocket, hr⟩
    · exact h.outcomes p hp r' hr'⟩

/-- The open connection goes on, without a new query. -/
theorem Sound.setSocket (h : s.Sound) (hsocket : s.socket = some c)
    (horderly : Connection.Orderly answer (fun _ => true) c') (hasked : c'.asked = c.asked)
    (hanswered : c.answered <+: c'.answered) : Sound { s with socket := some c' } := by
  have hall : DriverClient.asked { s with socket := some c' } = s.asked := by
    rw [asked_of_socket hsocket, asked_of_socket (c := c') rfl, hasked]
  refine ⟨fun d hd => ?_, h.past, hall ▸ h.ordered, hall ▸ h.called, fun p hp r hr => ?_⟩
  · rw [connections_of_socket (c := c') rfl, List.mem_append, List.mem_singleton] at hd
    rcases hd with hd | rfl
    · exact h.orderly d (by rw [connections_of_socket hsocket]; simp [show d ∈ s.past from hd])
    · exact horderly
  · obtain ⟨d, hd, hmem⟩ := h.outcomes p hp r hr
    rw [connections_of_socket hsocket, List.mem_append, List.mem_singleton] at hd
    rcases hd with hd | rfl
    · exact ⟨d, by simp [connections, hd], hmem⟩
    · exact ⟨c', by simp [connections], hanswered.subset hmem⟩

/-- A new query on the open connection. -/
theorem Sound.ask (h : s.Sound) (hsocket : s.socket = some c)
    (hnew : ∀ a ∈ s.asked, a.id < call.id) (hcall : call.id < s.calls) :
    Sound { s with socket := some (c.send (.text call)) } := by
  have hall : DriverClient.asked { s with socket := some (c.send (.text call)) } =
      s.asked ++ [call] := by
    rw [asked_of_socket hsocket, asked_of_socket (c := c.send (.text call)) rfl]
    simp [Connection.send]
  refine ⟨fun d hd => ?_, h.past, ?_, ?_, fun p hp r hr => ?_⟩
  · rw [connections_of_socket (c := c.send (.text call)) rfl, List.mem_append,
      List.mem_singleton] at hd
    rcases hd with hd | rfl
    · exact h.orderly d (by rw [connections_of_socket hsocket]; simp [show d ∈ s.past from hd])
    · exact (h.orderly c (mem_connections hsocket)).send _
  · rw [hall, List.pairwise_append]
    refine ⟨h.ordered, List.pairwise_singleton _ _, fun a ha b hb => ?_⟩
    cases List.mem_singleton.mp hb
    exact hnew a ha
  · intro a ha
    rw [hall, List.mem_append, List.mem_singleton] at ha
    rcases ha with ha | rfl
    · exact h.called a ha
    · exact hcall
  · obtain ⟨d, hd, hmem⟩ := h.outcomes p hp r hr
    rw [connections_of_socket hsocket, List.mem_append, List.mem_singleton] at hd
    rcases hd with hd | rfl
    · exact ⟨d, by simp [connections, hd], hmem⟩
    · exact ⟨d.send (.text call), by simp [connections], hmem⟩

/-- A new connection. -/
theorem Sound.open (h : s.Sound) (hsocket : s.socket = none) :
    Sound { s with socket := some .opened } := by
  have hconns : connections { s with socket := some .opened } = s.connections ++ [.opened] := by
    simp [connections, hsocket]
  have hall : DriverClient.asked { s with socket := some .opened } = s.asked := by
    rw [asked, hconns, List.flatMap_append, asked]
    simp [DriverConnection.opened]
  refine ⟨fun d hd => ?_, h.past, hall ▸ h.ordered, hall ▸ h.called, fun p hp r hr => ?_⟩
  · rw [hconns, List.mem_append, List.mem_singleton] at hd
    rcases hd with hd | rfl
    · exact h.orderly d hd
    · exact ⟨rfl, rfl, by simp [DriverConnection.opened], rfl, rfl, by simp [DriverConnection.opened]⟩
  · obtain ⟨d, hd, hmem⟩ := h.outcomes p hp r hr
    exact ⟨d, by simp [hconns, hd], hmem⟩

theorem asked_setPast {i : ℕ} (hi : s.past[i]? = some c) (hasked : c'.asked = c.asked) :
    DriverClient.asked { s with past := s.past.set i c' } = s.asked := by
  have hpast : (s.past.set i c').flatMap (·.asked) = s.past.flatMap (·.asked) := by
    have hlt : i < (s.past.map (·.asked)).length := by
      simpa using (List.getElem?_eq_some_iff.mp hi).1
    rw [List.flatMap_def, List.flatMap_def, List.map_set, hasked]
    refine congrArg List.flatten (List.ext_getElem? fun j => ?_)
    by_cases hij : i = j
    · subst hij
      rw [List.getElem?_set_self hlt, List.getElem?_map, hi]
      rfl
    · rw [List.getElem?_set_ne hij]
  simp [asked, connections, hpast]

/-- A session of an earlier connection goes on. -/
theorem Sound.setPast (h : s.Sound) {i : ℕ} (hi : s.past[i]? = some c)
    (hserved : Connection.Served answer (fun _ => true) c c') :
    Sound { s with past := s.past.set i c' } := by
  have hc : c ∈ s.past := List.mem_of_getElem? hi
  have hmem : ∀ d ∈ connections { s with past := s.past.set i c' }, d ∈ s.connections ∨ d = c' := by
    intro d hd
    rcases List.mem_append.mp hd with hd | hd
    · rcases List.mem_or_eq_of_mem_set hd with hd | rfl
      · exact .inl (List.mem_append_left _ hd)
      · exact .inr rfl
    · exact .inl (List.mem_append_right _ hd)
  have hall := asked_setPast hi hserved.asked
  refine ⟨fun d hd => ?_, fun d hd => ?_, hall ▸ h.ordered, hall ▸ h.called, fun p hp r hr => ?_⟩
  · rcases hmem d hd with hd | rfl
    · exact h.orderly d hd
    · exact (h.orderly c (List.mem_append_left _ hc)).served hserved
  · rcases List.mem_or_eq_of_mem_set hd with hd | rfl
    · exact h.past d hd
    · exact hserved.clientOpen.trans (h.past c hc)
  · obtain ⟨d, hd, hanswered⟩ := h.outcomes p hp r hr
    rcases List.mem_append.mp hd with hd | hd
    · obtain ⟨b, hb, hbmem⟩ := Pool.exists_set (p := fun b => (p.1, r) ∈ b.answered) hi
        (fun hmem => hserved.answered_prefix.subset hmem) ⟨d, hd, hanswered⟩
      exact ⟨b, List.mem_append_left _ hb, hbmem⟩
    · exact ⟨d, List.mem_append_right _ hd, hanswered⟩

end Sound

section Step
variable {s s' : DriverClient}

/-- `Sound` does not look at where the client stands. -/
theorem Sound.at (h : s.Sound) (pc : ClientPc) (connected : Bool) (calls : ℕ)
    (hcalls : s.calls ≤ calls) : Sound { s with pc, connected, calls } :=
  ⟨h.orderly, h.past, h.ordered, fun call hcall => Nat.lt_of_lt_of_le (h.called call hcall) hcalls,
    h.outcomes⟩

theorem Sound.closed (h : s.Sound) (cause : Closing) : (s.closed cause).Good := by
  have hrenew := h.renewImpl
  cases cause with
  | returns => exact ⟨hrenew.at _ false s.calls le_rfl, rfl⟩
  | destroys => exact ⟨hrenew.at _ false s.calls le_rfl, rfl⟩
  | throws call what => exact ⟨(hrenew.at .idle false s.calls le_rfl).throw call _, rfl⟩

/-- `close()`, also from a `catch` block. -/
theorem Sound.close (h : s.Sound) (hsocket : s.connected = true → s.socket ≠ none)
    (cause : Closing) : (s.close cause).Good := by
  unfold DriverClient.close
  split
  · next hconnected => exact ⟨h.at _ s.connected s.calls le_rfl, hsocket hconnected⟩
  · exact h.closed cause

theorem Good.write {f : Frame QueryCall} {pc : ClientPc}
    (hwrite : s.write f pc = some s') (hsound : ∀ c, s.socket = some c →
      Sound { s with socket := some (c.send f) })
    (hphase : ∀ c, s.socket = some c → Phase { s with socket := some (c.send f), pc }) :
    s'.Good := by
  obtain ⟨c, hc, rfl⟩ := Option.map_eq_some_iff.mp hwrite
  exact ⟨(hsound c hc).at pc s.connected s.calls le_rfl, hphase c hc⟩

/-- A frame other than a text is no query. -/
theorem Sound.send (h : s.Sound) {c : DriverConnection} (hc : s.socket = some c)
    {f : Frame QueryCall} (hf : ∀ call, f ≠ .text call) :
    Sound { s with socket := some (c.send f) } := by
  refine h.setSocket hc ((h.orderly c (mem_connections hc)).send f) ?_ (List.prefix_refl _)
  cases f with
  | text call => exact absurd rfl (hf call)
  | hello => rfl
  | bye => rfl

theorem Sound.receive (h : s.Sound) {c c' : DriverConnection} (hc : s.socket = some c) {f : Frame Str}
    (hreceive : c.receive = some (f, c')) : Sound { s with socket := some c' } := by
  have horderly := (h.orderly c (mem_connections hc)).receive hreceive
  unfold Connection.receive at hreceive
  split at hreceive <;> cases hreceive
  exact h.setSocket hc horderly rfl (List.prefix_refl _)

/-- A step of the open connection's session keeps the two ends in their phase. -/
theorem Phase.served (h : s.Phase) {c c' : DriverConnection} (hc : s.socket = some c)
    (hserved : Connection.Served answer (fun _ => true) c c') :
    Phase { s with socket := some c' } := by
  have hasked : DriverClient.asked { s with socket := some c' } = s.asked := by
    rw [asked_of_socket hc, asked_of_socket (c := c') rfl, hserved.asked]
  unfold Phase at h ⊢
  rw [hasked]
  cases hpc : s.pc with
  | idle =>
    simp only [hpc, hc] at h ⊢
    split at h
    · next hconnected =>
      obtain ⟨d, hd, hquiet⟩ := h
      cases hd
      rw [if_pos hconnected]
      exact ⟨c', rfl, hquiet.served hserved⟩
    · cases h
  | connecting => simp [hpc, hc] at h
  | shaking sent =>
    cases sent with
    | false =>
      simp only [hpc, hc] at h ⊢
      obtain ⟨hconnected, d, hd, hfresh⟩ := h
      cases hd
      exact ⟨hconnected, c', rfl, hfresh.served hserved⟩
    | true =>
      simp only [hpc, hc] at h ⊢
      obtain ⟨hconnected, d, hd, hgreeting⟩ := h
      cases hd
      exact ⟨hconnected, c', rfl, hgreeting.served hserved⟩
  | asking call =>
    simp only [hpc, hc] at h ⊢
    obtain ⟨hconnected, ⟨d, hd, hquiet⟩, hnew⟩ := h
    cases hd
    exact ⟨hconnected, ⟨c', rfl, hquiet.served hserved⟩, hnew⟩
  | awaiting call =>
    simp only [hpc, hc] at h ⊢
    obtain ⟨hconnected, d, hd, hasked⟩ := h
    cases hd
    exact ⟨hconnected, c', rfl, hasked.served hserved⟩
  | closing cause sent => simp
  | destroyed => simp [hpc, hc] at h

theorem Good.reads (h : s.Good) (hstep : s.step .reads = some s') : s'.Good := by
  obtain ⟨hsound, hphase⟩ := h
  simp only [DriverClient.step] at hstep
  unfold Phase at hphase
  split at hstep
  · next c' hpc hread =>
    obtain ⟨c, hc, hreceive⟩ := Option.bind_eq_some_iff.mp hread
    cases hstep
    simp only [hpc, hc] at hphase
    obtain ⟨-, d, hd, hgreeting⟩ := hphase
    cases hd
    refine ⟨(hsound.receive hc hreceive).at .idle true s.calls le_rfl, ?_⟩
    exact ⟨c', rfl, (hgreeting.receive hreceive).2⟩
  · next call r c' hpc hread =>
    obtain ⟨c, hc, hreceive⟩ := Option.bind_eq_some_iff.mp hread
    cases hstep
    simp only [hpc, hc] at hphase
    obtain ⟨hconnected, d, hd, hasked⟩ := hphase
    cases hd
    -- the frame is the answer of the session to this call
    obtain ⟨r', hr', hmem, hquiet⟩ := hasked.receive hreceive
    cases hr'
    have hmem' : (call, r) ∈ c'.answered := by
      unfold Connection.receive at hreceive
      split at hreceive <;> cases hreceive
      exact hmem
    have hreturned := (hsound.receive hc hreceive).return rfl hmem'
    refine ⟨hreturned.at .idle s.connected s.calls le_rfl, ?_⟩
    simp only [Phase, hconnected, if_true]
    exact ⟨c', rfl, hquiet⟩
  · next cause c' hpc hread =>
    obtain ⟨c, hc, hreceive⟩ := Option.bind_eq_some_iff.mp hread
    cases hstep
    exact ⟨(hsound.receive hc hreceive).at _ s.connected s.calls le_rfl, Option.some_ne_none _⟩
  · cases hstep

theorem Good.writes (h : s.Good) (hstep : s.step .writes = some s') : s'.Good := by
  obtain ⟨hsound, hphase⟩ := h
  simp only [DriverClient.step] at hstep
  unfold Phase at hphase
  split at hstep
  · next hpc =>
    simp only [hpc] at hphase
    obtain ⟨hconnected, d, hd, hfresh⟩ := hphase
    refine Good.write hstep (fun c hc => hsound.send hc (by simp)) fun c hc => ?_
    rw [hd] at hc
    cases hc
    exact ⟨hconnected, _, rfl, hfresh.send⟩
  · next call hpc =>
    simp only [hpc] at hphase
    obtain ⟨hconnected, ⟨d, hd, hquiet⟩, hnew, hcall⟩ := hphase
    refine Good.write hstep (fun c hc => hsound.ask hc hnew hcall) fun c hc => ?_
    rw [hd] at hc
    cases hc
    exact ⟨hconnected, _, rfl, hquiet.send call⟩
  · exact Good.write hstep (fun c hc => hsound.send hc (by simp)) fun c hc =>
      Option.some_ne_none _
  · cases hstep

/-- A connected client has a connection. -/
theorem Phase.socket_ne_none (h : s.Phase) (hpc : s.pc = .idle) (hconnected : s.connected = true) :
    s.socket ≠ none := by
  simp only [Phase, hpc, hconnected, if_true] at h
  obtain ⟨c, hc, -⟩ := h
  simp [hc]

theorem Good.fails (h : s.Good) {what : Str} (hstep : s.step (.fails what) = some s') :
    s'.Good := by
  obtain ⟨hsound, hphase⟩ := h
  have hrenew : Good { s.renewImpl with pc := .idle } :=
    ⟨hsound.renewImpl.at .idle false s.calls le_rfl, rfl⟩
  simp only [DriverClient.step] at hstep
  unfold Phase at hphase
  cases hpc : s.pc with
  | idle | destroyed => simp [hpc] at hstep
  | connecting | shaking =>
    simp only [hpc, Option.some.injEq] at hstep
    exact hstep ▸ hrenew
  | asking call =>
    simp only [hpc, Option.some.injEq] at hstep hphase
    obtain ⟨-, ⟨d, hd, -⟩, -⟩ := hphase
    exact hstep ▸ hsound.close (fun _ => by simp [hd]) _
  | awaiting call =>
    simp only [hpc, Option.some.injEq] at hstep hphase
    obtain ⟨-, d, hd, -⟩ := hphase
    exact hstep ▸ hsound.close (fun _ => by simp [hd]) _
  | closing cause sent =>
    simp only [hpc, Option.some.injEq] at hstep
    exact hstep ▸ hsound.closed cause

theorem Good.session (h : s.Good) {i : Option ℕ} {event : ServerEvent Double}
    (hstep : s.step (.session i event) = some s') : s'.Good := by
  obtain ⟨hsound, hphase⟩ := h
  cases i with
  | none =>
    obtain ⟨c, hc, hrest⟩ := Option.bind_eq_some_iff.mp hstep
    obtain ⟨c', hserve, hs'⟩ := Option.bind_eq_some_iff.mp hrest
    cases hs'
    have hserved := Connection.serve_cases hserve
    have horderly := (hsound.orderly c (mem_connections hc)).served hserved
    exact ⟨hsound.setSocket hc horderly hserved.asked hserved.answered_prefix,
      hphase.served hc hserved⟩
  | some i =>
    obtain ⟨c, hc, hrest⟩ := Option.bind_eq_some_iff.mp hstep
    obtain ⟨c', hserve, hs'⟩ := Option.bind_eq_some_iff.mp hrest
    cases hs'
    have hserved := Connection.serve_cases hserve
    refine ⟨hsound.setPast hc hserved, ?_⟩
    unfold Phase at hphase ⊢
    rwa [asked_setPast hc hserved.asked]

theorem Good.step (h : s.Good) {action : ClientAction} (hstep : s.step action = some s') :
    s'.Good := by
  obtain ⟨hsound, hphase⟩ := h
  cases action with
  | writes => exact Good.writes ⟨hsound, hphase⟩ hstep
  | reads => exact Good.reads ⟨hsound, hphase⟩ hstep
  | fails what => exact Good.fails ⟨hsound, hphase⟩ hstep
  | session i event => exact Good.session ⟨hsound, hphase⟩ hstep
  | connect =>
    simp only [DriverClient.step] at hstep
    split at hstep
    · next hpc =>
      split at hstep <;> cases hstep
      · exact ⟨hsound, hphase⟩
      · next hconnected =>
        refine ⟨hsound.at .connecting s.connected s.calls le_rfl, ?_⟩
        simp only [Phase, hpc, if_neg hconnected] at hphase
        exact ⟨by simpa using hconnected, hphase⟩
    · cases hstep
  | connects =>
    simp only [DriverClient.step] at hstep
    split at hstep
    · next hpc =>
      cases hstep
      simp only [Phase, hpc] at hphase
      refine ⟨(hsound.open hphase.2).at (.shaking false) s.connected s.calls le_rfl, ?_⟩
      exact ⟨hphase.1, _, rfl, rfl, rfl, .inl rfl⟩
    · cases hstep
  | sendQuery query =>
    simp only [DriverClient.step] at hstep
    split at hstep
    · next hpc =>
      split at hstep <;> cases hstep
      · next hconnected =>
        refine ⟨hsound.at _ s.connected (s.calls + 1) (Nat.le_succ _), hconnected, ?_, ?_⟩
        · simp only [Phase, hpc, hconnected, if_true] at hphase
          exact hphase
        · exact ⟨hsound.called, Nat.lt_succ_self _⟩
      · next hconnected =>
        refine ⟨(hsound.throw _ _).at s.pc s.connected (s.calls + 1) (Nat.le_succ _), ?_⟩
        simp only [Phase, hpc, if_neg hconnected] at hphase ⊢
        exact hphase
    · cases hstep
  | close =>
    simp only [DriverClient.step] at hstep
    split at hstep
    · next hpc =>
      cases hstep
      exact hsound.close (hphase.socket_ne_none hpc) _
    · cases hstep
  | destroy =>
    simp only [DriverClient.step] at hstep
    split at hstep
    · next hpc =>
      cases hstep
      exact hsound.close (hphase.socket_ne_none hpc) _
    · cases hstep
  | closes =>
    simp only [DriverClient.step] at hstep
    split at hstep
    · cases hstep
      exact hsound.closed _
    · cases hstep

end Step

/-! ## 3. Whole runs -/

/-- The states that a client object and the sessions of its connections reach, in any order of their
steps. -/
abbrev Reached (host : Str) (port : ℤ) (s : DriverClient) : Prop :=
  Steps.Reach step (fun _ _ => True) { host, port } s

theorem good_of_reach {host : Str} {port : ℤ} {s : DriverClient} (h : Reached host port s) :
    s.Good := by
  refine h.invariant ⟨⟨?_, ?_, .nil, ?_, ?_⟩, rfl⟩ fun s action s' hs _ hstep => hs.step hstep
  all_goals simp [connections, asked]

/-- The calls that the sessions have answered. -/
def answeredIds (s : DriverClient) : List ℕ :=
  (s.connections.flatMap fun c => c.answered.map Prod.fst).map (·.id)

/-- The driver answers no call twice. -/
theorem Sound.answeredIds_nodup {s : DriverClient} (h : s.Sound) : s.answeredIds.Nodup := by
  have hsublist : (s.connections.flatMap fun c => c.answered.map Prod.fst).Sublist s.asked :=
    List.Sublist.flatMap_right _ fun c hc => (h.orderly c hc).transcript.1.sublist
  have hordered := h.ordered.sublist hsublist
  rw [answeredIds, List.Nodup, List.pairwise_map]
  exact hordered.imp fun hlt => Nat.ne_of_lt hlt

/-- In every run of the client and of the sessions of its connections: a reply that `sendQuery`
returns is what the driver has answered to that call, and to that call only; no call is answered
twice, on whatever connections; at most the open connection is open, and while no call is in progress
it is either not connected or nothing is under way on it. -/
theorem driverClient_of_reach {host : Str} {port : ℤ} {s : DriverClient}
    (h : Reached host port s) :
    (∀ call r, (call, Except.ok r) ∈ s.outcomes → call.id ∈ s.answeredIds ∧
      (∃ c ∈ s.connections, (call, r) ∈ c.answered) ∧
      ∃ time, r = MockDriverServer.handleQuery call.query time) ∧
    s.answeredIds.Nodup ∧
    (∀ c ∈ s.past, c.clientOpen = false) ∧
    (s.pc = .idle → s.connected = false ∧ s.socket = none ∨
      s.connected = true ∧ ∃ c, s.socket = some c ∧ c.Quiet) := by
  obtain ⟨hsound, hphase⟩ := good_of_reach h
  refine ⟨fun call r hr => ?_, hsound.answeredIds_nodup, hsound.past, fun hpc => ?_⟩
  · obtain ⟨c, hc, hmem⟩ := hsound.outcomes _ hr r rfl
    obtain ⟨time, htime⟩ := (hsound.orderly c hc).answers _ hmem
    refine ⟨?_, ⟨c, hc, hmem⟩, time, (Option.some.inj htime).symm⟩
    exact List.mem_map_of_mem (List.mem_flatMap.mpr ⟨c, hc, List.mem_map_of_mem hmem⟩)
  · simp only [Phase, hpc] at hphase
    cases hconnected : s.connected with
    | false => exact .inl ⟨rfl, by simpa [hconnected] using hphase⟩
    | true => exact .inr ⟨rfl, by simpa [hconnected] using hphase⟩

/-- A client that connects and asks once. -/
def oneQuery : List ClientAction :=
  [.connect, .connects, .writes, .session none .accept, .reads, .sendQuery (lit "\x7b\x7d"), .writes,
    .session none (.test true), .session none .read, .session none (.answer (.ofRat 1)),
    .session none .write, .reads]

/-- The client gets an answer. -/
theorem driverClient_of_reach_oneQuery : ∃ s : DriverClient,
    s.outcomes.map (fun p => p.2.toBool) = [true] ∧ s.answeredIds.Nodup ∧
      ∃ call r, (call, Except.ok r) ∈ s.outcomes ∧
        ∃ time, r = MockDriverServer.handleQuery call.query time := by
  obtain ⟨s, hs, houtcomes⟩ : ∃ s, Reached (lit "127.0.0.1") 9001 s ∧
      s.outcomes.map (fun p => p.2.toBool) = [true] :=
    Steps.exists_reach_of_run oneQuery (by decide +kernel)
  have hreached := driverClient_of_reach hs
  refine ⟨s, houtcomes, hreached.2.1, ?_⟩
  obtain ⟨⟨call, outcome⟩, hlist, hok⟩ := List.map_eq_singleton_iff.mp houtcomes
  cases outcome with
  | error e => cases hok
  | ok r =>
    have hmem : (call, Except.ok r) ∈ s.outcomes := by simp [hlist]
    exact ⟨call, r, hmem, (hreached.1 call r hmem).2.2⟩

/-! ## 4. The end of the sessions -/

/-- The work that is left to the sessions. -/
def sessionsRank (s : DriverClient) : ℕ := (s.past.map Connection.rank).sum

section Destroyed
variable {s s' : DriverClient} {action : ClientAction}

/-- Behind the destructor only the sessions take steps. -/
theorem step_destroyed (hpc : s.pc = .destroyed) (hsocket : s.socket = none)
    (hstep : s.step action = some s') : ∃ (i : ℕ) (c c' : DriverConnection),
      s.past[i]? = some c ∧ Connection.Served answer (fun _ => true) c c' ∧
        s' = { s with past := s.past.set i c' } := by
  cases action with
  | session i event =>
    cases i with
    | none => simp [DriverClient.step, hsocket] at hstep
    | some i =>
      obtain ⟨c, hc, hrest⟩ := Option.bind_eq_some_iff.mp hstep
      obtain ⟨c', hserve, hs'⟩ := Option.bind_eq_some_iff.mp hrest
      cases hs'
      exact ⟨i, c, c', hc, Connection.serve_cases hserve, rfl⟩
  | reads => simp [DriverClient.step, hpc] at hstep
  | _ => simp [DriverClient.step, hpc] at hstep

/-- Once the destructor of the client has returned, every session ends, in whatever order they go
on. -/
theorem sessions_end {host : Str} {port : ℤ} (h : Reached host port s) (hpc : s.pc = .destroyed) :
    Steps.Inevitable step (fun s => ∀ c ∈ s.connections, c.session = .ended) s := by
  refine .of_rank (I := fun s => s.Good ∧ s.pc = .destroyed) sessionsRank ?_ ?_
    ⟨good_of_reach h, hpc⟩
  · rintro s ⟨hgood, hpc⟩ hnot
    have hsocket : s.socket = none := by simpa [Phase, hpc] using hgood.phase
    push Not at hnot
    obtain ⟨c, hc, hsession⟩ := hnot
    have hpast : c ∈ s.past := by simpa [connections, hsocket] using hc
    obtain ⟨i, hi⟩ := List.mem_iff_getElem?.mp hpast
    have : Nonempty Double := ⟨default⟩
    obtain ⟨event, c', -, hserve⟩ := Connection.exists_served answer (fun _ => true)
      (hgood.sound.past c hpast) hsession
    refine ⟨.session (some i) event, { s with past := s.past.set i c' }, ?_⟩
    simp [DriverClient.step, hi, serve, hserve]
  · rintro s action s' ⟨hgood, hpc⟩ - hstep
    have hsocket : s.socket = none := by simpa [Phase, hpc] using hgood.phase
    have hgood' := hgood.step hstep
    obtain ⟨i, c, c', hi, hserved, rfl⟩ := step_destroyed hpc hsocket hstep
    exact .inr ⟨⟨hgood', hpc⟩, Pool.sum_map_set_lt hserved.rank_lt hi⟩

/-- A client that is destroyed while its connection is open. -/
theorem sessions_end_connected : ∃ s : DriverClient,
    (s.pc = .destroyed ∧ s.past.map (·.session) = [.testing]) ∧
      Steps.Inevitable step (fun s => ∀ c ∈ s.connections, c.session = .ended) s := by
  obtain ⟨s, hs, hpc, hsessions⟩ : ∃ s, Reached (lit "127.0.0.1") 9001 s ∧
      s.pc = .destroyed ∧ s.past.map (·.session) = [.testing] :=
    Steps.exists_reach_of_run [.connect, .connects, .writes, .session none .accept, .reads, .destroy,
      .writes, .closes] (by decide +kernel)
  exact ⟨s, ⟨hpc, hsessions⟩, sessions_end hs hpc⟩

end Destroyed

end DriverClient

end CollectorService
