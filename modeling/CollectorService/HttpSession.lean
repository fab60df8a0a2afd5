import CollectorService.Exchange
import CollectorService.HttpRouter

/-!
# The sessions of `HttpServer`

`HttpServer::run` accepts connections and runs `handleSession` for each of them on a thread of its own:
while the server is running, a session reads a request, routes it, writes the response, and reads on
when the request is to be kept alive. Clients write and hang up at any time, and other threads change
the process between two steps.

* `httpSessions_of_reach`: what each client gets, in every run.
* `drained_of_stopped`: what a stopped server still does.
* `unchanged_of_unposted`: requests that do not post change nothing.
-/

namespace CollectorService

open Exchange Steps

/-! ## 1. Reading computations -/

namespace Session

variable {α β : Type} {m : Session α} {k : α → Session β}

/-- The computation leaves the tables and the registry, and does not terminate the process. -/
def Reads (m : Session α) : Prop :=
  ∀ p, ∃ r p', m p = some (r, p') ∧ p'.conn.tables = p.conn.tables ∧ p'.registry = p.registry

namespace Reads

theorem pure (a : α) : (pure a : Session α).Reads := fun p => ⟨.ok a, p, rfl, rfl, rfl⟩

theorem throw (e : Str) : (Session.throw e : Session α).Reads := fun p => ⟨.error e, p, rfl, rfl, rfl⟩

theorem bind (hm : m.Reads) (hk : ∀ a, (k a).Reads) : (m >>= k).Reads := by
  intro p
  obtain ⟨r, p', hrun, htables, hregistry⟩ := hm p
  cases r with
  | error e => exact ⟨.error e, p', bind_error hrun, htables, hregistry⟩
  | ok a =>
    obtain ⟨r', p'', hrun', htables', hregistry'⟩ := hk a p'
    exact ⟨r', p'', (bind_ok hrun).trans hrun', htables'.trans htables,
      hregistry'.trans hregistry⟩

theorem tryCatch {handler : Str → α} (hm : m.Reads) : (Session.tryCatch m handler).Reads := by
  intro p
  obtain ⟨r, p', hrun, hsame⟩ := hm p
  unfold Session.tryCatch
  rw [hrun]
  cases r with
  | error e => exact ⟨_, p', rfl, hsame⟩
  | ok a => exact ⟨_, p', rfl, hsame⟩

theorem onConnection {m : Sql α} (hm : m.Reads) : (Session.onConnection m).Reads := fun p =>
  ⟨(m p.conn).1, { p with conn := (m p.conn).2 }, rfl, hm p.conn, rfl⟩

theorem getStatus : Session.getStatus.Reads := fun p => ⟨.ok p.registry.getStatus, p, rfl, rfl, rfl⟩

end Reads

end Session

namespace HttpRouter

theorem reads_findStatusOrDefault (statuses : List DeviceStatus) (deviceName : Str) :
    (findStatusOrDefault statuses deviceName).Reads := by
  unfold findStatusOrDefault
  split
  · exact .pure _
  · refine .bind (.onConnection SQLiteManager.reads_deviceExists) fun found => ?_
    cases found with
    | true => exact .pure _
    | false => exact .bind (.throw _) fun _ => .pure _

theorem reads_latestResources (deviceName : Str) :
    (Session.onConnection (SQLiteManager.getLatestResources deviceName)).Reads :=
  .onConnection SQLiteManager.reads_getLatestResources

/-- The routes of the methods other than POST read only. -/
theorem reads_dispatch (models : ModelRepository) {request : HttpRequest}
    (hmethod : request.method ≠ .post) : (dispatch models request).Reads := by
  unfold dispatch
  simp only [hmethod, false_and, if_false]
  split
  · exact .pure _
  split
  · exact .bind (.onConnection SQLiteManager.reads_getDevices) fun _ => .pure _
  split
  · refine .bind .getStatus fun statuses => ?_
    split
    · exact .pure _
    · exact .bind (reads_findStatusOrDefault _ _) fun _ => .pure _
  split
  · unfold latestRoute
    dsimp only
    split
    · exact .pure _
    · exact .bind (reads_latestResources _) fun _ => .pure _
  split
  · exact .bind .getStatus fun statuses => .bind (reads_findStatusOrDefault _ _) fun _ => .pure _
  split
  · exact .bind (reads_latestResources _) fun _ => .pure _
  · exact .pure _

theorem reads_route (models : ModelRepository) {request : HttpRequest}
    (hmethod : request.method ≠ .post) : (route models request).Reads :=
  .bind (.tryCatch (reads_dispatch models hmethod)) fun _ => .pure _

end HttpRouter

/-! ## 2. The sessions -/

abbrev HttpConnection := Connection HttpRequest HttpResponse

/-- The server with its connections; `none` when the process has been terminated. -/
structure HttpSessions where
  process : Option Process
  running : Bool := true
  sessions : List HttpConnection := []

/-- What a client does on its connection. -/
inductive ClientEvent where
  | sends (request : HttpRequest)
  | receives
  | hangsUp

/-- What a session does. -/
inductive SessionEvent where
  | tests
  | reads
  | routes
  | writes
  | fails
  deriving DecidableEq

inductive HttpAction where
  /-- `run` accepts a connection and creates its thread. -/
  | accepts
  | client (i : ℕ) (event : ClientEvent)
  | session (i : ℕ) (event : SessionEvent)
  /-- What other threads do to the process. -/
  | elsewhere (process : Process)
  /-- `stop` clears `running_`. -/
  | stop

namespace HttpServer

/-- What the router answers in a state of the process. -/
def answer (models : ModelRepository) (p : Process) (request : HttpRequest) : Option HttpResponse :=
  match HttpRouter.route models request p with
  | some (.ok response, _) => some response
  | _ => none

/-- A step of the loop of `handleSession`; `router.route` changes the process. -/
def handleSession (models : ModelRepository) (running : Bool) (p : Process) (c : HttpConnection)
    (event : SessionEvent) : Option (HttpConnection × Option Process) :=
  let serve := c.serve (answer models) HttpRequest.keepAlive
  match event with
  | .tests => (serve (.test running)).map fun c => (c, some p)
  | .reads => (serve .read).map fun c => (c, some p)
  | .writes => (serve .write).map fun c => (c, some p)
  | .fails => (serve .fail).map fun c => (c, some p)
  | .routes => match c.session with
    | .answering request => (serve (.answer p)).map fun c =>
      (c, (HttpRouter.route models request p).map (·.2))
    | _ => none

def clientStep (c : HttpConnection) : ClientEvent → Option HttpConnection
  | .sends request => if c.clientOpen then some (c.send (.text request)) else none
  | .receives => if c.clientOpen then c.receive.map (·.2) else none
  | .hangsUp => some c.drop

def step (models : ModelRepository) (s : HttpSessions) (action : HttpAction) :
    Option HttpSessions := do
  let p ← s.process
  match action with
  | .accepts => return { s with sessions := s.sessions ++ [{ session := .testing }] }
  | .client i event =>
    let c ← s.sessions[i]?
    let c ← clientStep c event
    return { s with sessions := s.sessions.set i c }
  | .session i event =>
    let c ← s.sessions[i]?
    let (c, p) ← handleSession models s.running p c event
    return { s with process := p, sessions := s.sessions.set i c }
  | .elsewhere p => return { s with process := some p }
  | .stop => return { s with running := false }

/-- Nobody posts, and no other thread changes the process. -/
def Unposted : HttpAction → Prop
  | .client _ (.sends request) => request.method ≠ .post
  | .elsewhere _ => False
  | _ => True

instance : DecidablePred Unposted
  | .client _ (.sends request) => inferInstanceAs (Decidable (request.method ≠ .post))
  | .client _ .receives | .client _ .hangsUp | .accepts | .session _ _ | .stop =>
    inferInstanceAs (Decidable True)
  | .elsewhere _ => inferInstanceAs (Decidable False)

/-- What a step does. -/
inductive Stepped (models : ModelRepository) (s : HttpSessions) : HttpAction → HttpSessions → Prop
  | accepts : Stepped models s .accepts
      { s with sessions := s.sessions ++ [{ session := .testing }] }
  | client {i : ℕ} {c c' : HttpConnection} {event : ClientEvent} : s.sessions[i]? = some c →
      clientStep c event = some c' →
      Stepped models s (.client i event) { s with sessions := s.sessions.set i c' }
  | session {i : ℕ} {c c' : HttpConnection} {p : Process} {p' : Option Process}
      {event : SessionEvent} : s.process = some p → s.sessions[i]? = some c →
      handleSession models s.running p c event = some (c', p') →
      Stepped models s (.session i event) { s with process := p', sessions := s.sessions.set i c' }
  | elsewhere {p : Process} : Stepped models s (.elsewhere p) { s with process := some p }
  | stop : Stepped models s .stop { s with running := false }

section Step
variable {models : ModelRepository} {s s' : HttpSessions} {action : HttpAction}

theorem step_cases (h : step models s action = some s') : Stepped models s action s' := by
  obtain ⟨p, hp, h⟩ := Option.bind_eq_some_iff.mp h
  cases action with
  | accepts => cases h; exact .accepts
  | client i event =>
    obtain ⟨c, hc, h⟩ := Option.bind_eq_some_iff.mp h
    obtain ⟨c', hc', h⟩ := Option.bind_eq_some_iff.mp h
    cases h
    exact .client hc hc'
  | session i event =>
    obtain ⟨c, hc, h⟩ := Option.bind_eq_some_iff.mp h
    obtain ⟨⟨c', p'⟩, hc', h⟩ := Option.bind_eq_some_iff.mp h
    cases h
    exact .session hp hc hc'
  | elsewhere p' => cases h; exact .elsewhere
  | stop => cases h; exact .stop

/-- A step of `handleSession` is one of a session that tests `running`. -/
theorem serve_of_handleSession {running : Bool} {p : Process} {p' : Option Process}
    {c c' : HttpConnection} {event : SessionEvent}
    (h : handleSession models running p c event = some (c', p')) :
    ∃ e, (∀ b, e = .test b → b = running) ∧
      c.serve (answer models) HttpRequest.keepAlive e = some c' := by
  unfold handleSession at h
  cases event with
  | tests =>
    obtain ⟨d, hd, heq⟩ := Option.map_eq_some_iff.mp h
    cases heq
    exact ⟨.test running, fun _ hb => (by cases hb; rfl), hd⟩
  | reads =>
    obtain ⟨d, hd, heq⟩ := Option.map_eq_some_iff.mp h
    cases heq
    exact ⟨.read, fun _ hb => (by cases hb), hd⟩
  | writes =>
    obtain ⟨d, hd, heq⟩ := Option.map_eq_some_iff.mp h
    cases heq
    exact ⟨.write, fun _ hb => (by cases hb), hd⟩
  | fails =>
    obtain ⟨d, hd, heq⟩ := Option.map_eq_some_iff.mp h
    cases heq
    exact ⟨.fail, fun _ hb => (by cases hb), hd⟩
  | routes =>
    simp only at h
    split at h
    · obtain ⟨d, hd, heq⟩ := Option.map_eq_some_iff.mp h
      cases heq
      exact ⟨.answer p, fun _ hb => (by cases hb), hd⟩
    · cases h

theorem clientStep_taken {c c' : HttpConnection} {event : ClientEvent}
    (h : clientStep c event = some c') : c'.taken = c.taken ∧ c'.session = c.session := by
  cases event with
  | sends request =>
    simp only [clientStep] at h
    split at h <;> cases h
    exact ⟨rfl, rfl⟩
  | receives =>
    simp only [clientStep] at h
    split at h
    · obtain ⟨⟨f, d⟩, hreceive, rfl⟩ := Option.map_eq_some_iff.mp h
      unfold Connection.receive at hreceive
      split at hreceive <;> cases hreceive
      exact ⟨rfl, rfl⟩
    · cases h
  | hangsUp =>
    cases h
    exact ⟨rfl, rfl⟩

theorem clientStep_asked {c c' : HttpConnection} {i : ℕ} {event : ClientEvent}
    (h : clientStep c event = some c') (hevent : Unposted (.client i event))
    (hasked : ∀ request ∈ c.asked, request.method ≠ .post) :
    ∀ request ∈ c'.asked, request.method ≠ .post := by
  cases event with
  | sends request =>
    simp only [clientStep] at h
    split at h <;> cases h
    intro request' hrequest
    rcases List.mem_append.mp hrequest with hrequest | hrequest
    · exact hasked _ hrequest
    · cases List.mem_singleton.mp hrequest
      exact hevent
  | receives =>
    simp only [clientStep] at h
    split at h
    · obtain ⟨⟨f, d⟩, hreceive, rfl⟩ := Option.map_eq_some_iff.mp h
      unfold Connection.receive at hreceive
      split at hreceive <;> cases hreceive
      exact hasked
    · cases h
  | hangsUp =>
    cases h
    exact hasked

theorem clientStep_orderly {c c' : HttpConnection} {event : ClientEvent}
    (h : clientStep c event = some c')
    (hc : Connection.Orderly (answer models) HttpRequest.keepAlive c) :
    Connection.Orderly (answer models) HttpRequest.keepAlive c' := by
  cases event with
  | sends request =>
    simp only [clientStep] at h
    split at h <;> cases h
    exact hc.send _
  | receives =>
    simp only [clientStep] at h
    split at h
    · obtain ⟨⟨f, d⟩, hreceive, rfl⟩ := Option.map_eq_some_iff.mp h
      exact hc.receive hreceive
    · cases h
  | hangsUp =>
    cases h
    exact hc.drop

end Step

/-! ## 3. What a client gets -/

section Run
variable {models : ModelRepository} {s s' : HttpSessions}

/-- The connections of every state are orderly. -/
theorem orderly_of_step {action : HttpAction}
    (hall : ∀ c ∈ s.sessions, Connection.Orderly (answer models) HttpRequest.keepAlive c)
    (h : step models s action = some s') :
    ∀ c ∈ s'.sessions, Connection.Orderly (answer models) HttpRequest.keepAlive c := by
  cases step_cases h with
  | accepts =>
    intro c hc
    rcases List.mem_append.mp hc with hc | hc
    · exact hall c hc
    · cases List.mem_singleton.mp hc
      exact ⟨rfl, rfl, fun _ hp => (by cases hp), rfl, rfl, fun _ hq => (by cases hq)⟩
  | client hc hstep =>
    intro d hd
    rcases List.mem_or_eq_of_mem_set hd with hd | rfl
    · exact hall d hd
    · exact clientStep_orderly hstep (hall _ (List.mem_of_getElem? hc))
  | session _ hc hstep =>
    intro d hd
    rcases List.mem_or_eq_of_mem_set hd with hd | rfl
    · exact hall d hd
    · obtain ⟨e, -, hserve⟩ := serve_of_handleSession hstep
      exact (hall _ (List.mem_of_getElem? hc)).served (Connection.serve_cases hserve)
  | elsewhere | stop => exact hall

/-- A response repeats the version and the keep-alive of its request, and counts its own body. -/
theorem answer_eq_some {p : Process} {request : HttpRequest} {response : HttpResponse}
    (h : answer models p request = some response) :
    response.version = request.version ∧ response.keepAlive = request.keepAlive ∧
      response.contentLength = response.body.length := by
  unfold answer at h
  split at h
  · next hroute =>
    cases h
    unfold HttpRouter.route at hroute
    rw [Session.bind_apply] at hroute
    split at hroute
    · cases hroute
      exact ⟨rfl, rfl, rfl⟩
    · cases hroute
    · cases hroute
  · cases h

/-- Whatever the clients, the other sessions and the other threads do: the requests of a connection
are answered in the order in which they were written, each by the router in some state of the process,
with its own version and keep-alive; the client receives the answers in that order; at most one request
that was read has no written answer; nothing is read behind a request that is not to be kept alive. -/
theorem httpSessions_of_reach {process : Process}
    (hs : Reach (step models) (fun _ _ => True) { process := some process } s) :
    ∀ c ∈ s.sessions, c.answered.map Prod.fst <+: c.asked ∧
      c.received <+: c.answered.map Prod.snd ∧ c.taken.length ≤ c.written.length + 1 ∧
      (∀ request ∈ c.taken.dropLast, request.keepAlive = true) ∧
      ∀ p ∈ c.answered, (∃ state, answer models state p.1 = some p.2) ∧
        p.2.version = p.1.version ∧ p.2.keepAlive = p.1.keepAlive ∧
        p.2.contentLength = p.2.body.length := by
  have hall : ∀ c ∈ s.sessions, Connection.Orderly (answer models) HttpRequest.keepAlive c :=
    hs.invariant (fun _ hc => (by cases hc)) fun _ _ _ hall _ hstep => orderly_of_step hall hstep
  intro c hc
  obtain ⟨hanswered, hreceived, -, hlength, hgo⟩ := (hall c hc).transcript
  refine ⟨hanswered, hreceived, hlength, hgo, fun p hp => ?_⟩
  obtain ⟨state, hstate⟩ := (hall c hc).answers p hp
  exact ⟨⟨state, hstate⟩, answer_eq_some hstate⟩

/-- A process without devices, in which no call fails. -/
def noDevices : Process := ⟨healthy .empty none 0, {}⟩

/-- A client asks for the devices and receives the answer. -/
def askForDevices : List HttpAction :=
  [.accepts, .client 0 (.sends { method := .get, target := lit "/devices" }), .session 0 .tests,
    .session 0 .reads, .session 0 .routes, .session 0 .writes, .client 0 .receives]

/-- The client receives one answer, and there is nothing else. -/
theorem httpSessions_of_reach_askForDevices : ∃ s, Reach (step noModels) (fun _ _ => True)
    { process := some noDevices } s ∧ s.sessions.map (fun c => c.received.length) = [1] ∧
      ∀ c ∈ s.sessions, c.answered.length ≤ 1 := by
  obtain ⟨s, hs, hreceived, hasked⟩ : ∃ s, Reach (step noModels) (fun _ _ => True)
      { process := some noDevices } s ∧ s.sessions.map (fun c => c.received.length) = [1] ∧
        ∀ c ∈ s.sessions, c.asked.length = 1 :=
    exists_reach_of_run askForDevices (by decide +kernel)
  refine ⟨s, hs, hreceived, fun c hc => ?_⟩
  have hprefix := (httpSessions_of_reach hs c hc).1.length_le
  rwa [List.length_map, hasked c hc] at hprefix

/-! ## 4. A stopped server -/

/-- How many requests the session `i` of a stopped server will have read at most; a session that is
accepted later has none to read. -/
def budget (sessions : List HttpConnection) (i : ℕ) : ℕ :=
  (sessions[i]?.map Connection.budget).getD 0

theorem budget_set_le {sessions : List HttpConnection} {c c' : HttpConnection} {j : ℕ}
    (hc : sessions[j]? = some c) (hle : c'.budget ≤ c.budget) (i : ℕ) :
    budget (sessions.set j c') i ≤ budget sessions i := by
  unfold budget
  by_cases hij : j = i
  · subst hij
    rw [List.getElem?_set_self (List.getElem?_eq_some_iff.mp hc).1, hc]
    exact hle
  · rw [List.getElem?_set_ne hij]

theorem budget_step {action : HttpAction} (hstopped : s.running = false)
    (h : step models s action = some s') :
    s'.running = false ∧ ∀ i, budget s'.sessions i ≤ budget s.sessions i := by
  cases step_cases h with
  | accepts =>
    refine ⟨hstopped, fun i => ?_⟩
    unfold budget
    rw [List.getElem?_append]
    split
    · exact Nat.le_refl _
    · rw [List.getElem?_singleton]
      split <;> exact Nat.zero_le _
  | client hc hstep =>
    obtain ⟨htaken, hsession⟩ := clientStep_taken hstep
    exact ⟨hstopped, budget_set_le hc (by simp [Connection.budget, htaken, hsession])⟩
  | session _ hc hstep =>
    obtain ⟨e, hrunning, hserve⟩ := serve_of_handleSession hstep
    refine ⟨hstopped, budget_set_le hc (Connection.serve_budget (fun he => ?_) hserve)⟩
    rw [hstopped] at hrunning
    cases hrunning true he
  | elsewhere => exact ⟨hstopped, fun _ => Nat.le_refl _⟩
  | stop => exact ⟨rfl, fun _ => Nat.le_refl _⟩

/-- A session of a stopped server reads at most the request that it is waiting for, and a session that
is accepted later reads none. -/
theorem drained_of_stopped (hstopped : s.running = false)
    (hs' : Reach (step models) (fun _ _ => True) s s') (i : ℕ) (c' : HttpConnection)
    (hc' : s'.sessions[i]? = some c') :
    c'.taken.length ≤ budget s.sessions i := by
  have hkeep : s'.running = false ∧ ∀ i, budget s'.sessions i ≤ budget s.sessions i := by
    refine hs'.invariant (I := fun u => u.running = false ∧
      ∀ i, budget u.sessions i ≤ budget s.sessions i) ⟨hstopped, fun _ => Nat.le_refl _⟩ ?_
    intro u action v hu _ hstep
    obtain ⟨hstopped', hle⟩ := budget_step hu.1 hstep
    exact ⟨hstopped', fun i => (hle i).trans (hu.2 i)⟩
  have hle := hkeep.2 i
  rw [budget, hc'] at hle
  exact (Nat.le_add_right _ _).trans hle

/-- A stopped server with one client. -/
def stoppedServer : HttpSessions where
  process := some noDevices
  running := false
  sessions := [{ session := .reading }]

/-- The session still takes a request. -/
theorem drained_of_stopped_reading : ∃ s, Reach (step noModels) (fun _ _ => True) stoppedServer s ∧
    s.sessions.map (fun c => c.taken.length) = [1] ∧
      ∀ c, s.sessions[0]? = some c → c.taken.length ≤ budget stoppedServer.sessions 0 := by
  obtain ⟨s, hs, htaken⟩ : ∃ s, Reach (step noModels) (fun _ _ => True) stoppedServer s ∧
      s.sessions.map (fun c => c.taken.length) = [1] :=
    exists_reach_of_run [.client 0 (.sends { method := .get, target := lit "/devices" }),
      .session 0 .reads, .session 0 .routes, .session 0 .writes] (by decide +kernel)
  exact ⟨s, hs, htaken, fun c hc => drained_of_stopped rfl hs 0 c hc⟩

/-! ## 5. Clients that do not post -/

variable (models) in
/-- What a run in which nobody posts keeps. -/
structure Unchanged (process : Process) (s : HttpSessions) : Prop where
  process : ∃ p, s.process = some p ∧ p.conn.tables = process.conn.tables ∧
    p.registry = process.registry
  asked : ∀ c ∈ s.sessions, ∀ request ∈ c.asked, request.method ≠ .post
  orderly : ∀ c ∈ s.sessions, Connection.Orderly (answer models) HttpRequest.keepAlive c

theorem handleSession_unposted {p : Process} {p' : Option Process} {c c' : HttpConnection}
    {event : SessionEvent} (hc : Connection.Orderly (answer models) HttpRequest.keepAlive c)
    (hasked : ∀ request ∈ c.asked, request.method ≠ .post)
    (h : handleSession models s.running p c event = some (c', p')) :
    ∃ q, p' = some q ∧ q.conn.tables = p.conn.tables ∧ q.registry = p.registry := by
  unfold handleSession at h
  cases event with
  | tests | reads | writes | fails =>
    obtain ⟨d, hd, heq⟩ := Option.map_eq_some_iff.mp h
    cases heq
    exact ⟨p, rfl, rfl, rfl⟩
  | routes =>
    simp only at h
    split at h
    · next request hpc =>
      obtain ⟨d, hd, heq⟩ := Option.map_eq_some_iff.mp h
      cases heq
      obtain ⟨r, q, hroute, hsame⟩ :=
        HttpRouter.reads_route models (hasked request (hc.answering_mem hpc)) p
      exact ⟨q, by rw [hroute]; rfl, hsame⟩
    · cases h

theorem Unchanged.step {process : Process} {action : HttpAction}
    (hs : Unchanged models process s) (haction : Unposted action)
    (h : step models s action = some s') : Unchanged models process s' := by
  obtain ⟨hprocess, hasked, horderly⟩ := hs
  refine ⟨?_, ?_, orderly_of_step horderly h⟩
  · cases step_cases h with
    | accepts | client | stop => exact hprocess
    | session hp hc hstep =>
      obtain ⟨p, hp', htables, hregistry⟩ := hprocess
      cases hp.symm.trans hp'
      have hmem := List.mem_of_getElem? hc
      obtain ⟨q, hq, htables', hregistry'⟩ :=
        handleSession_unposted (horderly _ hmem) (hasked _ hmem) hstep
      exact ⟨q, hq, htables'.trans htables, hregistry'.trans hregistry⟩
    | elsewhere => exact absurd haction id
  · cases step_cases h with
    | accepts =>
      intro c hc
      rcases List.mem_append.mp hc with hc | hc
      · exact hasked c hc
      · cases List.mem_singleton.mp hc
        exact fun _ hrequest => (by cases hrequest)
    | client hc hstep =>
      intro d hd
      rcases List.mem_or_eq_of_mem_set hd with hd | rfl
      · exact hasked d hd
      · exact clientStep_asked hstep haction (hasked _ (List.mem_of_getElem? hc))
    | session _ hc hstep =>
      intro d hd
      rcases List.mem_or_eq_of_mem_set hd with hd | rfl
      · exact hasked d hd
      · obtain ⟨e, -, hserve⟩ := serve_of_handleSession hstep
        rw [(Connection.serve_cases hserve).asked]
        exact hasked _ (List.mem_of_getElem? hc)
    | elsewhere | stop => exact hasked

/-- As long as nobody posts, whatever the clients ask for and whichever calls of SQLite fail: the tables
and the registry stay as they are, and the process is not terminated. -/
theorem unchanged_of_unposted {process : Process}
    (hs : Reach (step models) (fun _ action => Unposted action) { process := some process } s) :
    ∃ p, s.process = some p ∧ p.conn.tables = process.conn.tables ∧
      p.registry = process.registry :=
  (hs.invariant (I := Unchanged models process)
    ⟨⟨process, rfl, rfl, rfl⟩, fun _ hc => (by cases hc), fun _ hc => (by cases hc)⟩
    fun _ _ _ hu haction hstep => hu.step haction hstep).process

/-- The client that asks for the devices. -/
theorem unchanged_of_unposted_askForDevices : ∃ s, Reach (step noModels)
    (fun _ action => Unposted action) { process := some noDevices } s ∧
      s.sessions.map (fun c => c.received.length) = [1] ∧
      ∃ p, s.process = some p ∧ p.conn.tables = Database.empty := by
  obtain ⟨s, hs, hreceived⟩ : ∃ s, Reach (step noModels) (fun _ action => Unposted action)
      { process := some noDevices } s ∧ s.sessions.map (fun c => c.received.length) = [1] :=
    exists_reach_of_run askForDevices (by decide +kernel)
  obtain ⟨p, hp, htables, -⟩ := unchanged_of_unposted hs
  exact ⟨s, hs, hreceived, p, hp, htables⟩

end Run

end HttpServer

end CollectorService
