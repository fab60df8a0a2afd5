import CollectorService.CleanStrings

/-!
# The bodies of responses

When the body of a response, and the text of an answer, is a JSON document that says what has been
decided.

* `CommandProcessor.answer_clean`, `HttpRouter.decision_clean`: whichever calls fail, every string and
  time in a response can be written when those of the request, the state, the model files and the failing
  calls can.
* `body_isDocument_iff`: the condition, which is exact while no call fails.
-/

namespace CollectorService

open Json (Value)

/-! ## 1. The service -/

/-- The statuses that the registry answers with are clean, too. -/
structure Process.Clean (p : Process) : Prop where
  conn : p.conn.Clean
  registry : ∀ status ∈ p.registry.getStatus, ∀ leaf ∈ status.leaves, leaf.Clean

/-- The strings that a command gives. -/
def commandTexts (requestText : Str) : List Str :=
  [extractStringField requestText (lit "mid"), extractStringField requestText (lit "category"),
    extractStringField requestText (lit "device_name")] ++
  match CommandParser.parseDeviceUpsert requestText with
  | .ok device => [device.oldName, device.name, device.ip, device.model, device.modelVersion,
      device.driverPath]
  | .error _ => []

section Texts
variable {requestText : Str}

theorem clean_parsed {device : DeviceUpsert} (h : ∀ text ∈ commandTexts requestText, CleanText text)
    (hparse : CommandParser.parseDeviceUpsert requestText = .ok device) : device.Clean := by
  unfold commandTexts at h
  rw [hparse] at h
  simp only [List.cons_append, List.nil_append, List.forall_mem_cons] at h
  obtain ⟨-, -, -, holdName, hname, hip, hmodel, hversion, hdriver, -⟩ := h
  exact ⟨holdName, hname, hip, hmodel, hversion, hdriver⟩

end Texts

namespace Session

variable {α β : Type} {m : Session α} {k : α → Session β} {P : α → Prop} {Q : β → Prop}

/-- From a clean state: what is returned has `P`, what is thrown is a clean C string. -/
def Cleanly (P : α → Prop) (m : Session α) : Prop := ∀ p, p.Clean → ∀ r p', m p = some (r, p') →
  match r with
  | .ok a => P a
  | .error e => CleanText (cString e)

namespace Cleanly

theorem pure {a : α} (h : P a) : Cleanly P (pure a) := by
  rintro p - r p' ⟨⟩
  exact h

theorem ite {condition : Prop} [Decidable condition] {m' : Session α} (hm : condition → Cleanly P m)
    (hm' : ¬ condition → Cleanly P m') : Cleanly P (if condition then m else m') := by
  split
  · next h => exact hm h
  · next h => exact hm' h

theorem map {f : α → β} (hm : Cleanly P m) (h : ∀ a, P a → Q (f a)) :
    Cleanly Q (m >>= fun a => Pure.pure (f a)) := by
  intro p hp r p' hrun
  rw [bind_apply] at hrun
  rcases hfirst : m p with _ | ⟨e | a, p₁⟩ <;> rw [hfirst] at hrun <;> cases hrun
  · exact hm p hp _ _ hfirst
  · exact h a (hm p hp _ _ hfirst)

theorem tryCatch {handler : Str → α} (hm : Cleanly P m) (h : ∀ e, CleanText e → P (handler e)) :
    Cleanly P (Session.tryCatch m handler) := by
  intro p hp r p' hrun
  unfold Session.tryCatch at hrun
  rcases hfirst : m p with _ | ⟨e | a, p₁⟩ <;> rw [hfirst] at hrun <;> cases hrun
  · exact h _ (hm p hp _ _ hfirst)
  · exact hm p hp _ _ hfirst

theorem onConnection {m : Sql α} (hm : Sql.Cleanly P m) : Cleanly P (Session.onConnection m) := by
  rintro p hp r p' ⟨⟩
  exact (hm p.conn hp.conn).2

/-- A call leaves the registry, so a clean state is one afterwards. -/
theorem onConnection_bind {m : Sql α} (hm : Sql.Cleanly P m) (hk : ∀ a, P a → Cleanly Q (k a)) :
    Cleanly Q (Session.onConnection m >>= k) := by
  intro p hp r p' hrun
  obtain ⟨hclean, hresult⟩ := hm p.conn hp.conn
  rw [bind_apply, Session.onConnection] at hrun
  rcases hm : m p.conn with ⟨e | a, c⟩ <;> rw [hm] at hclean hresult hrun
  · cases hrun
    exact hresult
  · exact hk a hresult ⟨c, p.registry⟩ ⟨hclean, hp.registry⟩ r p' hrun

theorem getStatus_bind {k : List DeviceStatus → Session β}
    (hk : ∀ statuses : List DeviceStatus, (∀ status ∈ statuses, ∀ leaf ∈ status.leaves, leaf.Clean) →
      Cleanly Q (k statuses)) : Cleanly Q (Session.getStatus >>= k) :=
  fun p hp => hk _ hp.registry p hp

end Cleanly

variable {models : ModelRepository} {deviceName mid : Str}

theorem cleanly_startDeviceCollect (hmodels : models.Clean) (hname : CleanText deviceName)
    (hmid : CleanText mid) :
    Cleanly CommandResult.Clean (startDeviceCollect models deviceName mid) := by
  intro p hp r p' hrun
  obtain ⟨⟨result, c, s'⟩, hstart, heq⟩ := Option.map_eq_some_iff.mp hrun
  cases heq
  obtain ⟨-, hchecks⟩ := OnConnection.cleanly_startChecks hmodels hname hmid p.conn hp.conn
  unfold OnConnection.startDeviceCollect at hstart
  rcases hr : OnConnection.startChecks models deviceName mid p.conn with ⟨e | device, c₁⟩ <;>
    rw [hr] at hstart hchecks
  · cases hstart
    exact ⟨hchecks, hmid⟩
  · simp only at hstart
    split at hstart
    · cases hstart
      exact ⟨.thrown (by decide) hname, hmid⟩
    · obtain ⟨s'', -, heq⟩ := Option.map_eq_some_iff.mp hstart
      cases heq
      exact ⟨.append (.constant (by decide)) hname, hmid⟩

theorem cleanly_stopDeviceCollect (hname : CleanText deviceName) (hmid : CleanText mid) :
    Cleanly CommandResult.Clean (stopDeviceCollect deviceName mid) := by
  intro p hp r p' hrun
  obtain ⟨-, hexists⟩ := @SQLiteManager.cleanly_deviceExists deviceName p.conn hp.conn
  unfold stopDeviceCollect OnConnection.stopDeviceCollect at hrun
  rcases hfound : SQLiteManager.deviceExists deviceName p.conn with ⟨e | found, c⟩ <;>
    rw [hfound] at hrun hexists
  · cases hrun
    exact hexists
  cases found with
  | false =>
    cases hrun
    exact ⟨.append (.constant (by decide)) hname, hmid⟩
  | true =>
    cases hrun
    show CommandResult.Clean (DataTask.stopRegistered deviceName mid p.registry).1
    unfold DataTask.stopRegistered
    dsimp only
    split <;> exact ⟨.append (.constant (by decide)) hname, hmid⟩

theorem cleanly_startAll : Cleanly (fun _ => True) (startAll models) :=
  .onConnection_bind SQLiteManager.cleanly_getDevices fun _ _ _ _ _ _ hrun => by
    rw [CollectorService.startEachDevice_ok hrun]
    trivial

end Session

namespace CommandProcessor

open Session (Cleanly)

/-- Whichever calls fail, an answer repeats clean strings only. -/
theorem answer_clean {models : ModelRepository} {requestText : Str} (hmodels : models.Clean)
    (htexts : ∀ text ∈ commandTexts requestText, CleanText text) :
    Cleanly (fun a => ∀ leaf ∈ a.leaves, leaf.Clean) (answer models requestText) := by
  have hmid := htexts (extractStringField requestText (lit "mid")) (by simp [commandTexts])
  have hcategory := htexts (extractStringField requestText (lit "category")) (by simp [commandTexts])
  have hname := htexts (extractStringField requestText (lit "device_name")) (by simp [commandTexts])
  have hresult : ∀ r : CommandResult, r.Clean → ∀ leaf ∈ (Answer.result r).leaves, leaf.Clean := by
    intro r hr
    simp only [Answer.leaves, List.forall_mem_cons]
    exact ⟨hr.msg, hr.mid, List.forall_mem_nil _⟩
  have hparsed : ∀ {m : DeviceUpsert → Sql CommandResult},
      (∀ device : DeviceUpsert, device.Clean → Sql.Cleanly CommandResult.Clean (m device)) →
      Sql.Cleanly CommandResult.Clean
        (Sql.ofExcept (CommandParser.parseDeviceUpsert requestText) >>= m) := fun hm =>
    .bind (.ofExcept (fun device hparse => clean_parsed htexts hparse) fun e he => by
      rw [CommandParser.parseDeviceUpsert_error he]
      exact .thrownConstant (by decide)) hm
  unfold answer
  refine .tryCatch ?_ fun e he => hresult _ ⟨he, hmid⟩
  unfold dispatch
  refine .ite (fun _ => .map (.onConnection (hparsed fun device hdevice => ?_)) hresult) fun _ =>
    .ite (fun _ => .map (.onConnection ?_) hresult) fun _ =>
    .ite (fun _ => .map (.onConnection (hparsed fun device hdevice => ?_)) hresult) fun _ =>
    .ite (fun _ => .map ?_ hresult) fun _ => .ite (fun _ => .map ?_ hresult) fun _ =>
    .ite (fun _ => .map ?_ hresult) fun _ => .ite (fun _ => .map ?_ hresult) fun _ =>
    .ite (fun _ => ?_) fun _ => ?_
  · exact OnConnection.cleanly_createDevice hmodels hdevice hmid
  · exact OnConnection.cleanly_deleteDevice hname hmid
  · exact OnConnection.cleanly_updateDevice hmodels hdevice hmid
  · exact Session.cleanly_startDeviceCollect hmodels hname hmid
  · exact Session.cleanly_stopDeviceCollect hname hmid
  · exact .map Session.cleanly_startAll fun _ _ =>
      ⟨@CleanText.constant (lit "all online device collections started") (by decide), hmid⟩
  · rintro p - r p' ⟨⟩
    exact ⟨@CleanText.constant (lit "all device collections stopped") (by decide), hmid⟩
  · refine .getStatus_bind fun statuses hstatuses => .pure ?_
    rw [Answer.leaves, List.forall_mem_cons]
    refine ⟨hmid, fun leaf hleaf => ?_⟩
    obtain ⟨status, hstatus, hleaf⟩ := List.mem_flatMap.mp hleaf
    exact hstatuses status hstatus leaf hleaf
  · exact .pure (hresult _ ⟨.append (.constant (by decide)) hcategory, hmid⟩)

end CommandProcessor

/-! ## 2. Requests -/

namespace HttpRouter

open Session (Cleanly)

/-- The text of the command that a request carries. -/
def commandOf (request : HttpRequest) : Option Str :=
  let target := request.target
  let path := pathOnly target
  let deviceName := queryParam target (lit "device")
  let task (all one mid : Str) :=
    commandEnvelope (if deviceName = [] then all else one) deviceName mid
  if request.method = .post ∧ path = lit "/commands" then some request.body
  else if request.method = .post ∧ path = lit "/tasks/start" then
    some (task (lit "start_all") (lit "start_device_collect") (lit "http-start"))
  else if request.method = .post ∧ path = lit "/tasks/stop" then
    some (task (lit "stop_all") (lit "stop_device_collect") (lit "http-stop"))
  else none

/-- The strings that a request gives. -/
def requestTexts (request : HttpRequest) : List Str :=
  let path := pathOnly request.target
  match commandOf request with
  | some requestText => commandTexts requestText
  | none => [path, queryParam request.target (lit "device"),
      betweenPath path (lit "/devices/") (lit "/status")]

section Requests
variable {models : ModelRepository} {request : HttpRequest} {deviceName : Str}

theorem cleanly_findStatusOrDefault {statuses : List DeviceStatus} (hname : CleanText deviceName)
    (h : ∀ status ∈ statuses, ∀ leaf ∈ status.leaves, leaf.Clean) :
    Cleanly (fun status => ∀ leaf ∈ status.leaves, leaf.Clean)
      (findStatusOrDefault statuses deviceName) := by
  unfold findStatusOrDefault
  split
  · next status hfind => exact .pure (h status (List.mem_of_find?_eq_some hfind))
  · refine .onConnection_bind SQLiteManager.cleanly_deviceExists fun found _ => ?_
    cases found with
    | false =>
      rintro p - r p' ⟨⟩
      exact .thrown (by decide) hname
    | true =>
      refine .pure ?_
      simp only [DeviceStatus.leaves, List.forall_mem_cons]
      exact ⟨hname, trivial, CleanText.constant (by decide), List.forall_mem_nil _⟩

/-- Whichever calls fail, a reply repeats clean strings only. -/
theorem decision_clean (hmodels : models.Clean)
    (htexts : ∀ text ∈ requestTexts request, CleanText text) :
    Cleanly (fun reply => ∀ leaf ∈ reply.2.leaves, leaf.Clean) (decision models request) := by
  have hrecords (deviceName : Str) : Cleanly
      (fun reply : HttpStatus × Reply => ∀ leaf ∈ reply.2.leaves, leaf.Clean) (do
        return (.ok, .records
          (← Session.onConnection (SQLiteManager.getLatestResources deviceName)))) :=
    .map (.onConnection SQLiteManager.cleanly_getLatestResources) fun records hrecords leaf hleaf => by
      obtain ⟨record, hrecord, hleaf⟩ := List.mem_flatMap.mp hleaf
      exact hrecords record hrecord leaf hleaf
  have hcommand {requestText : Str} (hcarried : commandOf request = some requestText) : Cleanly
      (fun reply : HttpStatus × Reply => ∀ leaf ∈ reply.2.leaves, leaf.Clean) (do
        return (.ok, .command (← CommandProcessor.answer models requestText))) := by
    simp only [requestTexts, hcarried] at htexts
    exact .map (CommandProcessor.answer_clean hmodels htexts) fun _ ha => ha
  have hpath (hcarried : commandOf request = none) : CleanText (pathOnly request.target) ∧
      CleanText (queryParam request.target (lit "device")) ∧
      CleanText (betweenPath (pathOnly request.target) (lit "/devices/") (lit "/status")) := by
    simp only [requestTexts, hcarried, List.forall_mem_cons] at htexts
    exact ⟨htexts.1, htexts.2.1, htexts.2.2.1⟩
  have hget : request.method = .get → commandOf request = none := fun hmethod => by
    simp [commandOf, hmethod]
  unfold decision
  refine .tryCatch ?_ fun e he => List.forall_mem_singleton.mpr he
  unfold dispatch
  refine .ite (fun _ => .pure (List.forall_mem_nil _)) fun _ => .ite (fun _ => ?_) fun _ =>
    .ite (fun h => ?_) fun _ => .ite (fun _ => .ite (fun _ => ?_) fun _ => hrecords _) fun _ =>
    .ite (fun h => ?_) fun _ => .ite (fun _ => hrecords _) fun _ => .ite (fun h => ?_) fun hcommands =>
    .ite (fun h => ?_) fun hstart => .ite (fun h => ?_) fun hstop => ?_
  · refine .map (.onConnection SQLiteManager.cleanly_getDevices) fun devices hdevices leaf hleaf => ?_
    obtain ⟨device, hdevice, hleaf⟩ := List.mem_flatMap.mp hleaf
    exact hdevices device hdevice leaf hleaf
  · refine .getStatus_bind fun statuses hstatuses => .ite (fun _ => .pure fun leaf hleaf => ?_) fun _ =>
      .map (cleanly_findStatusOrDefault (hpath (hget h.1)).2.1 hstatuses) fun _ hstatus => hstatus
    obtain ⟨status, hstatus, hleaf⟩ := List.mem_flatMap.mp hleaf
    exact hstatuses status hstatus leaf hleaf
  · exact .pure (List.forall_mem_singleton.mpr (CleanText.constant (by decide)))
  · exact .getStatus_bind fun statuses hstatuses =>
      .map (cleanly_findStatusOrDefault (hpath (hget h.1)).2.2 hstatuses) fun _ hstatus => hstatus
  · exact hcommand (if_pos h)
  · exact hcommand ((if_neg hcommands).trans (if_pos h))
  · exact hcommand ((if_neg hcommands).trans ((if_neg hstart).trans (if_pos h)))
  · refine .pure (List.forall_mem_singleton.mpr
      (CleanText.append (.constant (by decide)) (hpath ?_).1))
    exact (if_neg hcommands).trans ((if_neg hstart).trans (if_neg hstop))

end Requests

end HttpRouter

/-! ## 3. Bodies -/

section Bodies
open CommandProcessor (answer handle)
open HttpRouter (decision requestTexts route)

/-- Let the stored Data texts be arrays. While no call fails, the body of a response, and the text of
an answer to a command, is a JSON document that says what has been decided exactly when none of the
strings that the request and the state give for it has a control byte other than a line feed, a
carriage return and a tab, all of them are UTF-8, and all times are numbers. Whichever calls fail, it
is one when this holds of everything that the request, the state, the model files and the messages of
the failing calls have. -/
theorem body_isDocument_iff (models : ModelRepository) {readData : Str → List Value} {t : Database}
    (hdata : t.ReadsData readData) (n : ℕ) (s : DeviceStatusStore) :
    (∀ request response p', route models request ⟨healthy t none n, s⟩ = some (.ok response, p') →
      ∃ status reply,
        decision models request ⟨healthy t none n, s⟩ = some (.ok (status, reply), p') ∧
        response = makeResponse status reply.toJson request.version request.keepAlive ∧
        (IsDocument (reply.part readData).value response.body ↔
          ∀ leaf ∈ requestLeaves models request t s, leaf.Clean)) ∧
    (∀ requestText text p',
      handle models requestText ⟨healthy t none n, s⟩ = some (.ok text, p') →
      ∃ a, answer models requestText ⟨healthy t none n, s⟩ = some (.ok a, p') ∧ text = a.toJson ∧
        (IsDocument a.part.value text ↔
          ∀ leaf ∈ commandLeaves models requestText t s, leaf.Clean)) ∧
    ∀ p : Process, p.conn.tables = t → p.Clean → models.Clean →
      (∀ request response p', (∀ text ∈ requestTexts request, CleanText text) →
        route models request p = some (.ok response, p') → ∃ status reply,
          decision models request p = some (.ok (status, reply), p') ∧
          response = makeResponse status reply.toJson request.version request.keepAlive ∧
          IsDocument (reply.part readData).value response.body) ∧
      ∀ requestText text p', (∀ text ∈ commandTexts requestText, CleanText text) →
        handle models requestText p = some (.ok text, p') → ∃ a,
          answer models requestText p = some (.ok a, p') ∧ text = a.toJson ∧
          IsDocument a.part.value text := by
  refine ⟨fun request response p' h => ?_, fun requestText text p' h => ?_, ?_⟩
  · obtain ⟨status, reply, hdecision, rfl⟩ := HttpRouter.route_eq_some h
    have hread := HttpRouter.decision_readsData (p := ⟨healthy t none n, s⟩) hdata hdecision
    exact ⟨status, reply, hdecision, rfl,
      (Reply.isDocument_iff hread).trans (decision_clean_iff hdecision)⟩
  · obtain ⟨a, hanswer, rfl⟩ := handle_eq_some h
    exact ⟨a, hanswer, rfl, a.isDocument_iff.trans (answer_clean_iff hanswer)⟩
  rintro p rfl hclean hmodels
  refine ⟨fun request response p' htexts h => ?_, fun requestText text p' htexts h => ?_⟩
  · obtain ⟨status, reply, hdecision, rfl⟩ := HttpRouter.route_eq_some h
    exact ⟨status, reply, hdecision, rfl,
      (Reply.isDocument_iff (HttpRouter.decision_readsData hdata hdecision)).mpr
        (HttpRouter.decision_clean hmodels htexts p hclean _ _ hdecision)⟩
  · obtain ⟨a, hanswer, rfl⟩ := handle_eq_some h
    exact ⟨a, hanswer, rfl,
      a.isDocument_iff.mpr (CommandProcessor.answer_clean hmodels htexts p hclean _ _ hanswer)⟩

/-- The answer to a request for a name with a NUL byte, which ends the text of the exception. -/
theorem body_isDocument_iff_nul : ∃ response p',
    route noModels { method := .get, target := lit "/devices/A%00x/status" } idle =
      some (.ok response, p') ∧
    IsDocument (.object [(lit "success", .bool false),
      (lit "error", .string (lit "device not found: A"))]) response.body := by
  have hroute : route noModels { method := .get, target := lit "/devices/A%00x/status" } idle =
      some (.ok (makeResponse .internalServerError (jsonError (lit "device not found: A")) 11 true),
        ⟨healthy .empty none 2, {}⟩) := rfl
  obtain ⟨status, reply, hdecision, -, hiff⟩ :=
    (@body_isDocument_iff noModels (fun _ => []) .empty (by rintro x ⟨⟩) 0 {}).1 _ _ _ hroute
  obtain ⟨rfl, rfl⟩ : HttpStatus.internalServerError = status ∧
      Reply.error (lit "device not found: A") = reply := by
    cases hdecision
    exact ⟨rfl, rfl⟩
  refine ⟨_, _, hroute, hiff.mpr fun leaf hleaf => ?_⟩
  -- the name is repeated up to its NUL byte, behind words of the program
  rw [List.mem_singleton.mp (show leaf ∈ [Leaf.text (lit "A")] from hleaf)]
  exact ⟨by decide, .of_ascii (by decide)⟩

/-- A device name that ends in a byte 1. -/
def controlRequest : HttpRequest := { method := .get, target := lit "/devices/A%01/status" }

/-- The byte gets into the body, which is no JSON text, whatever it is meant to say; and so does that
of a command category. -/
theorem body_not_text : (∃ response p',
      route noModels controlRequest idle = some (.ok response, p') ∧
      ∀ v : Value, ¬ v.Text response.body) ∧
    ∃ text p', handle noModels (lit "\x7b\"category\":\"\x01\"\x7d") idle = some (.ok text, p') ∧
      ∀ v : Value, ¬ v.Text text := by
  constructor
  · refine ⟨makeResponse .internalServerError (jsonError (lit "device not found: A\x01")) 11 true,
      ⟨healthy .empty none 2, {}⟩, rfl, fun v h => ?_⟩
    exact h.not_isControl 1 (by decide) (by decide)
  · refine ⟨_, _, rfl, fun v h => ?_⟩
    exact h.not_isControl 1 (by decide) (by decide)

end Bodies

end CollectorService
