import CollectorService.Steps

/-!
# Requests and replies on a connection

A connection carries texts both ways, in order. At its server end a session tests whether the server is
running, reads a request, answers it, writes the answer and goes on with the test, until it meets the
end of the connection, a failure, or a request after which it is not to go on. Either end may fail or be
gone at any time; what is under way then is read or lost.

* `Connection.serve`: the steps of a session. `answer` may depend on the time, or on a state, in which
  a request is answered; `none` is an exception.
* `Orderly`: what every session keeps, whatever its client does: the requests are answered in their
  order, at most one of them has no written answer, and the client receives the answers in that order.
* `Quiet`, `Asked`, `Greeting`: where the two ends stand when the client waits for each answer before
  it asks again.
-/

namespace Exchange

/-! ## 1. A connection and its session -/

/-- What is under way in one direction: the opening handshake, a text, or the closing handshake. -/
inductive Frame (α : Type) where
  | hello
  | text (a : α)
  | bye
  deriving DecidableEq

/-- Where a session stands. -/
inductive SessionPc (Q R : Type) where
  | accepting
  | testing
  | reading
  | answering (q : Q)
  | writing (q : Q) (r : R)
  | ended
  deriving DecidableEq

/-- A connection with both of its ends, and what each end has done. -/
structure Connection (Q R : Type) where
  toServer : List (Frame Q) := []
  toClient : List (Frame R) := []
  session : SessionPc Q R
  /-- The client holds its end. -/
  clientOpen : Bool := true
  /-- The texts that the client has written. -/
  asked : List Q := []
  /-- The texts that the session has read. -/
  taken : List Q := []
  /-- The requests that the session has answered, with the answers. -/
  answered : List (Q × R) := []
  /-- The answers that it has written. -/
  written : List R := []
  /-- The answers that the client has read. -/
  received : List R := []
  deriving DecidableEq

inductive ServerEvent (E : Type) where
  | accept
  | test (running : Bool)
  | read
  | answer (e : E)
  | write
  | fail
  deriving DecidableEq

namespace Connection

variable {Q R E : Type}

/-- A step of the session; `goesOn` tells whether it reads on behind a request. -/
def serve (answer : E → Q → Option R) (goesOn : Q → Bool) (c : Connection Q R) :
    ServerEvent E → Option (Connection Q R)
  | .accept => match c.session, c.toServer with
    | .accepting, .hello :: rest => some { c with
        toServer := rest, toClient := c.toClient ++ [.hello], session := .testing }
    | .accepting, _ :: _ => some { c with session := .ended }
    | .accepting, [] => if c.clientOpen then none else some { c with session := .ended }
    | _, _ => none
  | .test running => match c.session with
    | .testing => some { c with session := if running then .reading else .ended }
    | _ => none
  | .read => match c.session, c.toServer with
    | .reading, .text q :: rest => some { c with
        toServer := rest, session := .answering q, taken := c.taken ++ [q] }
    | .reading, .bye :: rest => some { c with
        toServer := rest, toClient := c.toClient ++ [.bye], session := .ended }
    | .reading, .hello :: _ => some { c with session := .ended }
    | .reading, [] => if c.clientOpen then none else some { c with session := .ended }
    | _, _ => none
  | .answer e => match c.session with
    | .answering q => match answer e q with
      | some r => some { c with session := .writing q r, answered := c.answered ++ [(q, r)] }
      | none => some { c with session := .ended }
    | _ => none
  | .write => match c.session with
    | .writing q r => some { c with
        toClient := c.toClient ++ [.text r], written := c.written ++ [r]
        session := if goesOn q then .testing else .ended }
    | _ => none
  | .fail => match c.session with
    | .ended => none
    | _ => some { c with session := .ended }

/-- The client writes a frame. -/
def send (c : Connection Q R) (f : Frame Q) : Connection Q R :=
  { c with
    toServer := c.toServer ++ [f]
    asked := match f with
      | .text q => c.asked ++ [q]
      | _ => c.asked }

/-- The client reads the next frame. -/
def receive (c : Connection Q R) : Option (Frame R × Connection Q R) :=
  match c.toClient with
  | [] => none
  | f :: rest => some (f, { c with
      toClient := rest
      received := match f with
        | .text r => c.received ++ [r]
        | _ => c.received })

/-- The client gives up its end. -/
def drop (c : Connection Q R) : Connection Q R := { c with clientOpen := false }

/-- The texts among the frames that are under way. -/
def texts {α : Type} (frames : List (Frame α)) : List α :=
  frames.filterMap fun
    | .text a => some a
    | _ => none

@[simp] theorem texts_nil {α : Type} : texts ([] : List (Frame α)) = [] := rfl

@[simp] theorem texts_text {α : Type} (a : α) (rest : List (Frame α)) :
    texts (.text a :: rest) = a :: texts rest := rfl

@[simp] theorem texts_hello {α : Type} (rest : List (Frame α)) :
    texts (.hello :: rest) = texts rest := rfl

@[simp] theorem texts_bye {α : Type} (rest : List (Frame α)) :
    texts (.bye :: rest) = texts rest := rfl

@[simp] theorem texts_append {α : Type} (a b : List (Frame α)) :
    texts (a ++ b) = texts a ++ texts b := List.filterMap_append

/-- What a step of a session does. -/
inductive Served (answer : E → Q → Option R) (goesOn : Q → Bool) (c : Connection Q R) :
    Connection Q R → Prop
  | accepted {rest : List (Frame Q)} : c.session = .accepting → c.toServer = .hello :: rest →
      Served answer goesOn c { c with
        toServer := rest, toClient := c.toClient ++ [.hello], session := .testing }
  | tested : c.session = .testing → Served answer goesOn c { c with session := .reading }
  | took {q : Q} {rest : List (Frame Q)} : c.session = .reading → c.toServer = .text q :: rest →
      Served answer goesOn c { c with
        toServer := rest, session := .answering q, taken := c.taken ++ [q] }
  | closed {rest : List (Frame Q)} : c.session = .reading → c.toServer = .bye :: rest →
      Served answer goesOn c { c with
        toServer := rest, toClient := c.toClient ++ [.bye], session := .ended }
  | answered {e : E} {q : Q} {r : R} : c.session = .answering q → answer e q = some r →
      Served answer goesOn c { c with
        session := .writing q r, answered := c.answered ++ [(q, r)] }
  | wrote {q : Q} {r : R} : c.session = .writing q r → Served answer goesOn c { c with
      toClient := c.toClient ++ [.text r], written := c.written ++ [r]
      session := if goesOn q then .testing else .ended }
  | ended : c.session ≠ .ended → Served answer goesOn c { c with session := .ended }

section Steps
variable {answer : E → Q → Option R} {goesOn : Q → Bool} {c c' : Connection Q R}

theorem serve_cases {event : ServerEvent E} (h : c.serve answer goesOn event = some c') :
    Served answer goesOn c c' := by
  cases event with
  | accept =>
    simp only [serve] at h
    split at h
    · next hpc hto => cases h; exact .accepted hpc hto
    · next hpc _ => cases h; exact .ended (by simp [hpc])
    · next hpc _ =>
      split at h <;> cases h
      exact .ended (by simp [hpc])
    · cases h
  | test running =>
    simp only [serve] at h
    split at h
    · next hpc =>
      cases h
      cases running with
      | true => exact .tested hpc
      | false => exact .ended (by simp [hpc])
    · cases h
  | read =>
    simp only [serve] at h
    split at h
    · next hpc hto => cases h; exact .took hpc hto
    · next hpc hto => cases h; exact .closed hpc hto
    · next hpc _ => cases h; exact .ended (by simp [hpc])
    · next hpc _ =>
      split at h <;> cases h
      exact .ended (by simp [hpc])
    · cases h
  | answer e =>
    simp only [serve] at h
    split at h
    · next hpc =>
      split at h
      · next hr => cases h; exact .answered hpc hr
      · cases h; exact .ended (by simp [hpc])
    · cases h
  | write =>
    simp only [serve] at h
    split at h
    · next hpc => cases h; exact .wrote hpc
    · cases h
  | fail =>
    simp only [serve] at h
    split at h
    · cases h
    · next hpc => cases h; exact .ended hpc

theorem Served.clientOpen (h : Served answer goesOn c c') : c'.clientOpen = c.clientOpen := by
  cases h <;> rfl

theorem Served.asked (h : Served answer goesOn c c') : c'.asked = c.asked := by
  cases h <;> rfl

/-- The list of what has been answered only grows. -/
theorem Served.answered_prefix (h : Served answer goesOn c c') : c.answered <+: c'.answered := by
  cases h with
  | answered => exact List.prefix_append _ _
  | _ => exact List.prefix_refl _

end Steps

/-! ## 2. Any client -/

/-- How far a session has got: with the requests that it has read, those that it has answered and the
answers that it has written. -/
def Stage (goesOn : Q → Bool) (taken : List Q) (answered : List (Q × R)) (written : List R) :
    SessionPc Q R → Prop
  | .accepting | .testing | .reading => taken = answered.map Prod.fst ∧ written = answered.map Prod.snd ∧
      ∀ q ∈ taken, goesOn q = true
  | .answering q => taken = answered.map Prod.fst ++ [q] ∧ written = answered.map Prod.snd ∧
      ∀ p ∈ answered, goesOn p.1 = true
  | .writing q r => ∃ done, answered = done ++ [(q, r)] ∧ taken = answered.map Prod.fst ∧
      written = done.map Prod.snd ∧ ∀ p ∈ done, goesOn p.1 = true
  | .ended => answered.map Prod.fst <+: taken ∧ written <+: answered.map Prod.snd ∧
      taken.length ≤ written.length + 1 ∧ ∀ q ∈ taken.dropLast, goesOn q = true

section Stage
variable {goesOn : Q → Bool} {taken : List Q} {answered : List (Q × R)} {written : List R}
  {pc : SessionPc Q R}

/-- Whatever a session has done, it may end there. -/
theorem Stage.ended (h : Stage goesOn taken answered written pc) :
    Stage goesOn taken answered written .ended := by
  cases pc with
  | accepting | testing | reading =>
    obtain ⟨rfl, rfl, hgo⟩ := h
    exact ⟨List.prefix_refl _, List.prefix_refl _, by simp,
      fun q hq => hgo q (List.dropLast_subset _ hq)⟩
  | answering q =>
    obtain ⟨rfl, rfl, hgo⟩ := h
    refine ⟨List.prefix_append _ _, List.prefix_refl _, by simp, fun q' hq' => ?_⟩
    rw [List.dropLast_concat] at hq'
    obtain ⟨p, hp, rfl⟩ := List.mem_map.mp hq'
    exact hgo p hp
  | writing q r =>
    obtain ⟨done, rfl, rfl, rfl, hgo⟩ := h
    refine ⟨List.prefix_refl _, ?_, by simp, fun q' hq' => ?_⟩
    · rw [List.map_append]
      exact List.prefix_append _ _
    · rw [List.map_append, List.map_singleton, List.dropLast_concat] at hq'
      obtain ⟨p, hp, rfl⟩ := List.mem_map.mp hq'
      exact hgo p hp
  | ended => exact h

end Stage

/-- What a session keeps, whatever its client does. -/
structure Orderly (answer : E → Q → Option R) (goesOn : Q → Bool) (c : Connection Q R) : Prop where
  /-- What the client has written has been read, or is under way. -/
  sent : c.asked = c.taken ++ texts c.toServer
  delivered : c.written = c.received ++ texts c.toClient
  answers : ∀ p ∈ c.answered, ∃ e, answer e p.1 = some p.2
  stage : Stage goesOn c.taken c.answered c.written c.session

namespace Orderly

variable {answer : E → Q → Option R} {goesOn : Q → Bool} {c c' : Connection Q R}

theorem served (h : Orderly answer goesOn c) (hstep : Served answer goesOn c c') :
    Orderly answer goesOn c' := by
  obtain ⟨hsent, hdelivered, hanswers, hstage⟩ := h
  cases hstep with
  | accepted hpc hto =>
    rw [hpc] at hstage
    exact ⟨by simpa [hto] using hsent, by simpa using hdelivered, hanswers, hstage⟩
  | tested hpc =>
    rw [hpc] at hstage
    exact ⟨hsent, hdelivered, hanswers, hstage⟩
  | took hpc hto =>
    rw [hpc] at hstage
    obtain ⟨htaken, hwritten, hgo⟩ := hstage
    refine ⟨by simpa [hto] using hsent, hdelivered, hanswers, by rw [htaken], hwritten,
      fun p hp => hgo _ ?_⟩
    rw [htaken]
    exact List.mem_map_of_mem hp
  | closed hpc hto =>
    exact ⟨by simpa [hto] using hsent, by simpa using hdelivered, hanswers, hstage.ended⟩
  | answered hpc hr =>
    rw [hpc] at hstage
    obtain ⟨htaken, hwritten, hgo⟩ := hstage
    refine ⟨hsent, hdelivered, fun p hp => ?_, _, rfl, by simp [htaken], hwritten, hgo⟩
    rcases List.mem_append.mp hp with hp | hp
    · exact hanswers p hp
    · cases List.mem_singleton.mp hp
      exact ⟨_, hr⟩
  | @wrote q r hpc =>
    rw [hpc] at hstage
    obtain ⟨done, hdone, htaken, hwritten, hgo⟩ := hstage
    have hall : c.written ++ [r] = c.answered.map Prod.snd := by rw [hwritten, hdone]; simp
    refine ⟨hsent, by simp [hdelivered], hanswers, ?_⟩
    dsimp only
    split
    · next hq =>
      refine ⟨htaken, hall, fun q' hq' => ?_⟩
      rw [htaken, hdone, List.map_append, List.mem_append] at hq'
      rcases hq' with hq' | hq'
      · obtain ⟨p, hp, rfl⟩ := List.mem_map.mp hq'
        exact hgo p hp
      · cases List.mem_singleton.mp hq'
        exact hq
    · have hlast : Stage goesOn c.taken c.answered c.written (.writing q r) :=
        ⟨done, hdone, htaken, hwritten, hgo⟩
      obtain ⟨htaken', -, hlength, hgo'⟩ := hlast.ended
      refine ⟨htaken', hall ▸ List.prefix_refl _, ?_, hgo'⟩
      rw [List.length_append]
      omega
  | ended _ => exact ⟨hsent, hdelivered, hanswers, hstage.ended⟩

theorem send (h : Orderly answer goesOn c) (f : Frame Q) : Orderly answer goesOn (c.send f) := by
  refine ⟨?_, h.delivered, h.answers, h.stage⟩
  cases f <;> simp [Connection.send, h.sent]

theorem receive (h : Orderly answer goesOn c) {f : Frame R}
    (hreceive : c.receive = some (f, c')) : Orderly answer goesOn c' := by
  unfold Connection.receive at hreceive
  split at hreceive
  · cases hreceive
  · next g rest hto =>
    cases hreceive
    refine ⟨h.sent, ?_, h.answers, h.stage⟩
    have hdelivered := h.delivered
    rw [hto] at hdelivered
    cases f <;> simpa using hdelivered

theorem drop (h : Orderly answer goesOn c) : Orderly answer goesOn c.drop :=
  ⟨h.sent, h.delivered, h.answers, h.stage⟩

/-- What is being answered has been written by the client. -/
theorem answering_mem {q : Q} (h : Orderly answer goesOn c) (hpc : c.session = .answering q) :
    q ∈ c.asked := by
  have hstage := h.stage
  rw [hpc] at hstage
  rw [h.sent, hstage.1]
  simp

/-- The requests are answered in the order in which they were written, at most one of those that were
read has no written answer, the client reads the answers in the order of the requests, and no request
is read behind one that ends the session. -/
theorem transcript (h : Orderly answer goesOn c) :
    c.answered.map Prod.fst <+: c.asked ∧ c.received <+: c.answered.map Prod.snd ∧
      c.taken <+: c.asked ∧ c.taken.length ≤ c.written.length + 1 ∧
      ∀ q ∈ c.taken.dropLast, goesOn q = true := by
  obtain ⟨hanswered, hwritten, hlength, hgo⟩ := h.stage.ended
  have htaken : c.taken <+: c.asked := by
    rw [h.sent]
    exact List.prefix_append _ _
  have hreceived : c.received <+: c.written := by
    rw [h.delivered]
    exact List.prefix_append _ _
  exact ⟨hanswered.trans htaken, hreceived.trans hwritten, htaken, hlength, hgo⟩

end Orderly

/-! ## 3. A client that waits for each answer -/

/-- The session is about to read a request, or is over. -/
def Waits (c : Connection Q R) : Prop :=
  c.session = .testing ∨ c.session = .reading ∨ c.session = .ended

theorem waits_ended {c : Connection Q R} : Waits { c with session := .ended } := .inr (.inr rfl)

theorem waits_reading {c : Connection Q R} : Waits { c with session := .reading } := .inr (.inl rfl)

/-- Nothing has been written. -/
structure Fresh (c : Connection Q R) : Prop where
  toServer : c.toServer = []
  toClient : c.toClient = []
  session : c.session = .accepting ∨ c.session = .ended

/-- The client has written its handshake and has not read the other one. -/
inductive Greeting (c : Connection Q R) : Prop
  | sent : c.toServer = [.hello] → c.toClient = [] →
      c.session = .accepting ∨ c.session = .ended → Greeting c
  | replied : c.toServer = [] → c.toClient = [.hello] → c.Waits → Greeting c

/-- Nothing is under way, and nobody works on anything. -/
structure Quiet (c : Connection Q R) : Prop where
  toServer : c.toServer = []
  toClient : c.toClient = []
  waits : c.Waits

/-- The client has written `q` and has not read the answer. -/
inductive Asked (q : Q) (c : Connection Q R) : Prop
  | sent : c.toServer = [.text q] → c.toClient = [] → c.Waits → Asked q c
  | answering : c.toServer = [] → c.toClient = [] → c.session = .answering q → Asked q c
  | writing {r : R} : c.toServer = [] → c.toClient = [] → c.session = .writing q r →
      (q, r) ∈ c.answered → Asked q c
  | replied {r : R} : c.toServer = [] → c.toClient = [.text r] → c.Waits →
      (q, r) ∈ c.answered → Asked q c
  | lost : c.toServer = [] → c.toClient = [] → c.session = .ended → Asked q c

section Phases
variable {answer : E → Q → Option R} {goesOn : Q → Bool} {c c' : Connection Q R} {q : Q}

theorem Fresh.served (h : c.Fresh) (hstep : Served answer goesOn c c') : c'.Fresh := by
  obtain ⟨hto, hfrom, hpc⟩ := h
  cases hstep with
  | accepted _ hto' => simp [hto] at hto'
  | tested hpc' => simp [hpc'] at hpc
  | took _ hto' => simp [hto] at hto'
  | closed _ hto' => simp [hto] at hto'
  | answered hpc' => simp [hpc'] at hpc
  | wrote hpc' => simp [hpc'] at hpc
  | ended => exact ⟨hto, hfrom, .inr rfl⟩

theorem Greeting.served (h : c.Greeting) (hstep : Served answer goesOn c c') : c'.Greeting := by
  cases h with
  | sent hto hfrom hpc =>
    cases hstep with
    | accepted _ hto' =>
      rw [hto] at hto'
      cases hto'
      exact .replied rfl (by simp [hfrom]) (.inl rfl)
    | tested hpc' => simp [hpc'] at hpc
    | took hpc' => simp [hpc'] at hpc
    | closed hpc' => simp [hpc'] at hpc
    | answered hpc' => simp [hpc'] at hpc
    | wrote hpc' => simp [hpc'] at hpc
    | ended => exact .sent hto hfrom (.inr rfl)
  | replied hto hfrom hpc =>
    cases hstep with
    | accepted _ hto' => simp [hto] at hto'
    | tested => exact .replied hto hfrom waits_reading
    | took _ hto' => simp [hto] at hto'
    | closed _ hto' => simp [hto] at hto'
    | answered hpc' => simp [Waits, hpc'] at hpc
    | wrote hpc' => simp [Waits, hpc'] at hpc
    | ended => exact .replied hto hfrom waits_ended

theorem Quiet.served (h : c.Quiet) (hstep : Served answer goesOn c c') : c'.Quiet := by
  obtain ⟨hto, hfrom, hpc⟩ := h
  cases hstep with
  | accepted _ hto' => simp [hto] at hto'
  | tested => exact ⟨hto, hfrom, waits_reading⟩
  | took _ hto' => simp [hto] at hto'
  | closed _ hto' => simp [hto] at hto'
  | answered hpc' => simp [Waits, hpc'] at hpc
  | wrote hpc' => simp [Waits, hpc'] at hpc
  | ended => exact ⟨hto, hfrom, waits_ended⟩

theorem Asked.served (h : c.Asked q) (hstep : Served answer goesOn c c') : c'.Asked q := by
  cases hstep with
  | accepted hpc' =>
    cases h with
    | sent _ _ hpc => simp [Waits, hpc'] at hpc
    | replied _ _ hpc => simp [Waits, hpc'] at hpc
    | answering _ _ hpc => simp [hpc'] at hpc
    | writing _ _ hpc => simp [hpc'] at hpc
    | lost _ _ hpc => simp [hpc'] at hpc
  | tested hpc' =>
    cases h with
    | sent hto hfrom => exact .sent hto hfrom waits_reading
    | replied hto hfrom _ hmem => exact .replied hto hfrom waits_reading hmem
    | answering _ _ hpc => simp [hpc'] at hpc
    | writing _ _ hpc => simp [hpc'] at hpc
    | lost _ _ hpc => simp [hpc'] at hpc
  | took hpc' hto' =>
    cases h with
    | sent hto hfrom =>
      rw [hto] at hto'
      cases hto'
      exact .answering rfl hfrom rfl
    | answering hto => simp [hto] at hto'
    | writing hto => simp [hto] at hto'
    | replied hto => simp [hto] at hto'
    | lost hto => simp [hto] at hto'
  | closed hpc' hto' =>
    cases h with
    | sent hto => simp [hto] at hto'
    | answering hto => simp [hto] at hto'
    | writing hto => simp [hto] at hto'
    | replied hto => simp [hto] at hto'
    | lost hto => simp [hto] at hto'
  | answered hpc' hr =>
    cases h with
    | sent _ _ hpc => simp [Waits, hpc'] at hpc
    | replied _ _ hpc => simp [Waits, hpc'] at hpc
    | answering hto hfrom hpc =>
      rw [hpc'] at hpc
      cases hpc
      exact .writing hto hfrom rfl (by simp)
    | writing _ _ hpc => simp [hpc'] at hpc
    | lost _ _ hpc => simp [hpc'] at hpc
  | wrote hpc' =>
    cases h with
    | sent _ _ hpc => simp [Waits, hpc'] at hpc
    | replied _ _ hpc => simp [Waits, hpc'] at hpc
    | answering _ _ hpc => simp [hpc'] at hpc
    | writing hto hfrom hpc hmem =>
      rw [hpc'] at hpc
      cases hpc
      refine .replied hto (by simp [hfrom]) ?_ hmem
      cases goesOn q with
      | true => exact .inl rfl
      | false => exact .inr (.inr rfl)
    | lost _ _ hpc => simp [hpc'] at hpc
  | ended =>
    cases h with
    | sent hto hfrom => exact .sent hto hfrom waits_ended
    | replied hto hfrom _ hmem => exact .replied hto hfrom waits_ended hmem
    | answering hto hfrom | writing hto hfrom | lost hto hfrom => exact .lost hto hfrom rfl

theorem Fresh.send (h : c.Fresh) : (c.send .hello).Greeting :=
  .sent (by simp [Connection.send, h.toServer]) h.toClient h.session

theorem Quiet.send (h : c.Quiet) (q : Q) : (c.send (.text q)).Asked q :=
  .sent (by simp [Connection.send, h.toServer]) h.toClient h.waits

/-- The first frame that the client reads is the handshake, and then nothing is under way. -/
theorem Greeting.receive (h : c.Greeting) {f : Frame R} (hreceive : c.receive = some (f, c')) :
    f = .hello ∧ c'.Quiet := by
  cases h with
  | sent _ hfrom => simp [Connection.receive, hfrom] at hreceive
  | replied hto hfrom hpc =>
    simp only [Connection.receive, hfrom, Option.some.injEq, Prod.mk.injEq] at hreceive
    obtain ⟨rfl, rfl⟩ := hreceive
    exact ⟨rfl, hto, rfl, hpc⟩

/-- The frame that the client reads behind `q` is the answer to `q`, and then nothing is under
way. -/
theorem Asked.receive (h : c.Asked q) {f : Frame R} (hreceive : c.receive = some (f, c')) :
    ∃ r, f = .text r ∧ (q, r) ∈ c.answered ∧ c'.Quiet := by
  cases h with
  | sent _ hfrom | answering _ hfrom | writing _ hfrom | lost _ hfrom =>
    simp [Connection.receive, hfrom] at hreceive
  | replied hto hfrom hpc hmem =>
    simp only [Connection.receive, hfrom, Option.some.injEq, Prod.mk.injEq] at hreceive
    obtain ⟨rfl, rfl⟩ := hreceive
    exact ⟨_, rfl, hmem, hto, rfl, hpc⟩

end Phases

/-! ## 4. The end of a session -/

/-- How much work a session has, when its client writes nothing more. -/
def rank (c : Connection Q R) : ℕ :=
  4 * c.toServer.length + match c.session with
    | .accepting | .reading => 1
    | .testing => 2
    | .writing _ _ => 3
    | .answering _ => 4
    | .ended => 0

section End
variable {answer : E → Q → Option R} {goesOn : Q → Bool} {c c' : Connection Q R}

theorem Served.rank_lt (h : Served answer goesOn c c') : c'.rank < c.rank := by
  cases h with
  | accepted hpc hto | took hpc hto | closed hpc hto =>
    simp only [rank, hpc, hto, List.length_cons]
    omega
  | tested hpc | answered hpc => simp [rank, hpc]
  | @wrote q r hpc =>
    simp only [rank, hpc]
    cases goesOn q <;> simp
  | ended hpc =>
    simp only [rank]
    cases hsession : c.session with
    | ended => exact absurd hsession hpc
    | _ => simp

/-- A session whose client is gone does not wait for anything. -/
theorem exists_served [Nonempty E] (answer : E → Q → Option R) (goesOn : Q → Bool)
    (hclosed : c.clientOpen = false) (hsession : c.session ≠ .ended) :
    ∃ event c', event ≠ .fail ∧ c.serve answer goesOn event = some c' := by
  obtain ⟨e⟩ := ‹Nonempty E›
  cases hpc : c.session with
  | accepting =>
    refine ⟨.accept, ?_⟩
    cases hto : c.toServer with
    | nil => simp [serve, hpc, hto, hclosed]
    | cons f rest => cases f <;> simp [serve, hpc, hto]
  | testing => exact ⟨.test true, by simp [serve, hpc]⟩
  | reading =>
    refine ⟨.read, ?_⟩
    cases hto : c.toServer with
    | nil => simp [serve, hpc, hto, hclosed]
    | cons f rest => cases f <;> simp [serve, hpc, hto]
  | answering q =>
    refine ⟨.answer e, ?_⟩
    cases hr : answer e q <;> simp [serve, hpc, hr]
  | writing q r => exact ⟨.write, by simp [serve, hpc]⟩
  | ended => exact absurd hpc hsession

/-- How many texts a session will have read at most, when no test finds the server running. -/
def budget (c : Connection Q R) : ℕ :=
  c.taken.length + match c.session with
    | .reading => 1
    | _ => 0

theorem serve_budget {event : ServerEvent E} (hstopped : event ≠ .test true)
    (h : c.serve answer goesOn event = some c') : c'.budget ≤ c.budget := by
  have htaken : c.taken.length ≤ c.budget := Nat.le_add_right _ _
  cases event with
  | accept =>
    simp only [serve] at h
    split at h
    · cases h; exact htaken
    · cases h; exact htaken
    · split at h <;> cases h
      exact htaken
    · cases h
  | test running =>
    simp only [serve] at h
    split at h
    · cases running with
      | true => exact absurd rfl hstopped
      | false => cases h; exact htaken
    · cases h
  | read =>
    simp only [serve] at h
    split at h
    · next hpc _ => cases h; simp [budget, hpc]
    · cases h; exact htaken
    · cases h; exact htaken
    · split at h <;> cases h
      exact htaken
    · cases h
  | answer e =>
    simp only [serve] at h
    split at h
    · split at h <;> cases h <;> exact htaken
    · cases h
  | write =>
    simp only [serve] at h
    split at h
    · next q _ _ =>
      cases h
      cases goesOn q <;> exact htaken
    · cases h
  | fail =>
    simp only [serve] at h
    split at h <;> cases h
    exact htaken

end End

end Connection

end Exchange
