import CollectorService.Coherence
import CollectorService.CommandText
import CollectorService.HttpRouter

/-!
# Task requests

`POST /tasks/start?device=...` and `POST /tasks/stop?device=...`. The name of the device is percent
decoded, written into the text of a command, and read back by the text search of the command parser.

* `category_envelope`, `deviceName_envelope`, `mid_envelope`: what the parser reads from a command
  envelope.
* `startRoute_eq`, `stopRoute_eq`: the routes are the start and the stop of that device.
* `taskRoutes_isolated`: they do nothing to any other device.
-/

namespace CollectorService

open CommandText

/-! ## 1. The envelope as a command -/

namespace TaskRoutes

open HttpRouter (commandEnvelope percentEncode queryParam)

/-- The members of `params` in an envelope. -/
def envelopeParams (deviceName : Str) : List Param :=
  if deviceName = [] then [] else [.text {} .deviceName deviceName]

/-- The command that an envelope writes. -/
def envelope (category deviceName mid : Str) : Request where
  type := { value := lit "json" }
  uid := { value := lit "http" }
  pid := { value := lit "http" }
  category := { value := category }
  members := envelopeParams deviceName
  distinct := by
    unfold envelopeParams
    split <;> simp
  mid := { value := mid }

section Envelope
variable {category deviceName mid : Str}

theorem envelope_text (hcategory : NoControl category) (hname : NoControl deviceName)
    (hmid : NoControl mid) :
    (envelope category deviceName mid).text = commandEnvelope category deviceName mid := by
  have hblank : ({} : Json.Blank).text = [] := rfl
  rw [commandEnvelope, escapeJson_eq_body hcategory, escapeJson_eq_body hname,
    escapeJson_eq_body hmid]
  rcases eq_or_ne deviceName [] with hempty | hnonempty
  · simp only [Request.text, Request.cmdText, Request.paramsText, objectText, Field.text, memberText,
      envelope, envelopeParams, hempty, hblank, stringText, quoted_eq, Json.commaSep, if_true,
      List.append_assoc, List.nil_append, List.append_nil, List.cons_append, reduceCtorEq, if_false,
      List.map_nil]
    rfl
  · have hmembers : envelopeParams deviceName = [.text {} .deviceName deviceName] := if_neg hnonempty
    simp only [Request.text, Request.cmdText, Request.paramsText, objectText, Field.text, memberText,
      envelope, hmembers, Param.render, TextKey.name, hblank, stringText, quoted_eq, Json.commaSep,
      hnonempty, List.append_assoc, List.nil_append, List.append_nil, List.cons_append, reduceCtorEq,
      if_false, List.map_cons, List.map_nil]
    rfl

instance (name : Str) (e : Entry) : Decidable (e.Mentions name) :=
  match hvalue : e.value with
  | .string value => decidable_of_iff (e.key = name ∨ byte '"' :: name <:+ byte '"' :: value)
      (or_congr_right ⟨fun h => ⟨value, hvalue, h⟩, by
        rintro ⟨value', hvalue', h⟩
        cases hvalue.symm.trans hvalue'
        exact h⟩)
  | .number _ | .object => decidable_of_iff (e.key = name) ⟨.inl, by
      rintro (h | ⟨value', hvalue', -⟩)
      · exact h
      · cases hvalue.symm.trans hvalue'⟩

/-- The members up to the category. -/
def envelopeHead : List Entry := (envelope [] [] []).entries.take 4

theorem envelopeHead_not_mentions : ∀ name ∈ [lit "category", lit "device_name", lit "mid"],
    ∀ e ∈ envelopeHead, ¬ e.Mentions name := by decide

/-- Reading a field of an envelope, from its first mention. -/
theorem read_envelope {name : Str} {pre post : List Entry} {e : Entry} (hname : FieldName name)
    (hcategory : NoControl category) (hdevice : NoControl deviceName) (hmid : NoControl mid)
    (h : FirstMention name (envelope category deviceName mid).entries pre e post) :
    extractStringField (commandEnvelope category deviceName mid) name =
      stringBehind (if e.key = name then e :: post else post) := by
  rw [← envelope_text hcategory hdevice hmid, Request.text_eq]
  exact h.extractStringField hname (Request.fieldName_key _)

theorem category_envelope (hcategory : NoControl category) (hdevice : NoControl deviceName)
    (hmid : NoControl mid) :
    extractStringField (commandEnvelope category deviceName mid) (lit "category") = category := by
  let r := envelope category deviceName mid
  have hfirst : FirstMention (lit "category") r.entries envelopeHead
      (r.category.entry .none (lit "category")) (r.entries.drop 5) :=
    ⟨rfl, envelopeHead_not_mentions _ (by decide), .inl rfl⟩
  exact read_envelope (by decide) hcategory hdevice hmid hfirst

/-- The category is neither of the other fields and does not end like one of them. -/
def PlainCategory (category : Str) : Prop :=
  NoControl category ∧ ∀ name ∈ [lit "device_name", lit "mid"],
    ¬ byte '"' :: name <:+ byte '"' :: category

/-- The members in front of those of `params` mention none of them, nor the `mid`. -/
theorem envelope_not_mentions (deviceName mid : Str) (hcategory : PlainCategory category)
    {name : Str} (hname : name ∈ [lit "device_name", lit "mid"]) :
    ∀ e ∈ (envelope category deviceName mid).entries.take 6, ¬ e.Mentions name := by
  let r := envelope category deviceName mid
  have hsplit : r.entries.take 6 = envelopeHead ++ [r.category.entry .none (lit "category"),
      objectEntry (.single (byte ',')) r.params (lit "params")
        (if r.members = [] then .ofBlank r.empty else .none)] := rfl
  have hkeys : ∀ name ∈ [lit "device_name", lit "mid"], lit "category" ≠ name ∧ lit "params" ≠ name :=
    by decide
  rw [hsplit, List.forall_mem_append, List.forall_mem_cons, List.forall_mem_singleton]
  refine ⟨envelopeHead_not_mentions name (List.mem_cons_of_mem _ hname), ?_, ?_⟩
  · rintro (heq | ⟨value, ⟨⟩, hmention⟩)
    · exact (hkeys name hname).1 heq
    · exact hcategory.2 name hname hmention
  · rintro (heq | ⟨value, ⟨⟩, -⟩)
    exact (hkeys name hname).2 heq

/-- The last member. -/
def midEntry (category deviceName mid : Str) : Entry :=
  (envelope category deviceName mid).entries.getLast (by simp [Request.entries])

/-- The members behind `params`. -/
theorem envelope_entries (category deviceName mid : Str) :
    (envelope category deviceName mid).entries =
      (envelope category deviceName mid).entries.take 6 ++
        (memberEntries (envelopeParams deviceName) ++ [midEntry category deviceName mid]) := by
  unfold midEntry
  simp only [Request.entries, List.getLast_append_singleton, ← List.append_assoc]
  rfl

theorem memberEntries_envelope (hnonempty : deviceName ≠ []) :
    memberEntries (envelopeParams deviceName) =
      [entryOf .none {} (lit "device_name") (.string deviceName)] := by
  rw [envelopeParams, if_neg hnonempty]
  rfl

theorem deviceName_envelope (hcategory : PlainCategory category) (hdevice : NoControl deviceName)
    (hnonempty : deviceName ≠ []) (hmid : NoControl mid) :
    extractStringField (commandEnvelope category deviceName mid) (lit "device_name") =
      deviceName := by
  have hsplit := envelope_entries category deviceName mid
  rw [memberEntries_envelope hnonempty] at hsplit
  exact read_envelope (show FieldName (lit "device_name") by decide) hcategory.1 hdevice hmid
    ⟨hsplit, envelope_not_mentions _ _ hcategory List.mem_cons_self, .inl rfl⟩

theorem midEntry_key (category deviceName mid : Str) :
    (midEntry category deviceName mid).key = lit "mid" ∧
      (midEntry category deviceName mid).value = .string mid := by
  unfold midEntry
  simp only [Request.entries, List.getLast_append_singleton]
  exact ⟨rfl, rfl⟩

/-- Where the device is called like the key `mid`, the `mid` is the next string. -/
theorem mid_envelope (hcategory : PlainCategory category) (hdevice : NoControl deviceName)
    (hmid : NoControl mid) :
    extractStringField (commandEnvelope category deviceName mid) (lit "mid") = mid := by
  obtain ⟨hkey, hvalue⟩ := midEntry_key category deviceName mid
  have hsplit := envelope_entries category deviceName mid
  have hpre := envelope_not_mentions deviceName mid hcategory (show lit "mid" ∈ _ by decide)
  -- the member itself, when the ones before it do not mention it
  have hlast (pre : List Entry) (hno : ∀ e ∈ pre, ¬ e.Mentions (lit "mid"))
      (h : (envelope category deviceName mid).entries = pre ++ [midEntry category deviceName mid]) :
      extractStringField (commandEnvelope category deviceName mid) (lit "mid") = mid := by
    rw [read_envelope (by decide) hcategory.1 hdevice hmid ⟨h, hno, .inl hkey⟩, if_pos hkey,
      stringBehind, hvalue]
  cases decEq deviceName [] with
  | isTrue hempty =>
    rw [hempty] at hsplit hpre hlast ⊢
    exact hlast _ hpre hsplit
  | isFalse hnonempty =>
    rw [memberEntries_envelope hnonempty] at hsplit
    rcases Decidable.em ((entryOf .none {} (lit "device_name") (.string deviceName)).Mentions
      (lit "mid")) with hmention | hno
    · have hkeys : lit "device_name" ≠ lit "mid" := by decide
      rw [read_envelope (by decide) hcategory.1 hdevice hmid ⟨hsplit, hpre, hmention⟩, key_entryOf,
        if_neg hkeys]
      show stringBehind [midEntry category deviceName mid] = mid
      rw [stringBehind, hvalue]
    · refine hlast (_ ++ [_]) ?_ (hsplit.trans (List.append_assoc ..).symm)
      rw [List.forall_mem_append, List.forall_mem_singleton]
      exact ⟨hpre, hno⟩

end Envelope

/-! ## 2. The routes -/

open HttpRouter (route)
open CommandProcessor (errorResult)

/-- `POST path?device=...`, with the name of the device percent encoded. -/
def deviceRequest (path deviceName body : Str) (version : ℕ) (keepAlive : Bool) : HttpRequest where
  method := .post
  target := path ++ byte '?' :: (lit "device" ++ lit "=" ++ percentEncode deviceName)
  body
  version
  keepAlive

/-- The response to a command that an envelope carries. -/
def respond (version : ℕ) (keepAlive : Bool) (mid : Str) (command : Session CommandResult) :
    Session HttpResponse := do
  let result ← Session.tryCatch command (errorResult mid)
  return makeResponse .ok result.toJson version keepAlive

section Routes
variable {models : ModelRepository} {path deviceName body all one mid : Str} {version : ℕ}
  {keepAlive : Bool}

theorem queryParam_deviceRequest (hpath : byte '?' ∉ path) (deviceName : Str) :
    queryParam (deviceRequest path deviceName body version keepAlive).target (lit "device") =
      deviceName := HttpRouter.queryParam_single hpath (by decide) deviceName

theorem pathOnly_deviceRequest (hpath : byte '?' ∉ path) (deviceName : Str) :
    HttpRouter.pathOnly (deviceRequest path deviceName body version keepAlive).target = path :=
  HttpRouter.pathOnly_append hpath _

theorem dispatch_start {request : HttpRequest} (hmethod : request.method = .post)
    (hpath : HttpRouter.pathOnly request.target = lit "/tasks/start") :
    HttpRouter.dispatch models request = HttpRouter.taskRoute models request.target
      (lit "start_all") (lit "start_device_collect") (lit "http-start") := by
  have hother : lit "/tasks/start" ≠ lit "/commands" := by decide
  simp only [HttpRouter.dispatch, hmethod, hpath, reduceCtorEq, false_and, if_false, hother, and_false,
    and_self, if_true]

theorem dispatch_stop {request : HttpRequest} (hmethod : request.method = .post)
    (hpath : HttpRouter.pathOnly request.target = lit "/tasks/stop") :
    HttpRouter.dispatch models request = HttpRouter.taskRoute models request.target
      (lit "stop_all") (lit "stop_device_collect") (lit "http-stop") := by
  have hother : lit "/tasks/stop" ≠ lit "/commands" ∧ lit "/tasks/stop" ≠ lit "/tasks/start" := by
    decide
  simp only [HttpRouter.dispatch, hmethod, hpath, reduceCtorEq, false_and, if_false, hother.1, hother.2,
    and_false, and_self, if_true]

/-- A category whose command gives one result. -/
def Runs (models : ModelRepository) (text : Str) (mid : Str) (command : Session CommandResult) :
    Prop :=
  CommandProcessor.answer models text =
    Session.tryCatch (do return .result (← command)) fun e => .result (errorResult mid e)

/-- The response to the envelope of such a command. -/
theorem route_of_answer {request : HttpRequest} {target : Str} {command : Session CommandResult}
    (hdispatch : HttpRouter.dispatch models request = HttpRouter.taskRoute models target all one mid)
    (hrun : Runs models (commandEnvelope (if queryParam target (lit "device") = [] then all else one)
      (queryParam target (lit "device")) mid) mid command) :
    route models request = respond request.version request.keepAlive mid command := by
  funext p
  unfold route respond
  rw [hdispatch, HttpRouter.taskRoute, hrun]
  simp only [Session.bind_apply, Session.tryCatch, Session.pure_apply]
  rcases command p with _ | ⟨e | r, p'⟩ <;> rfl

/-- An envelope is dispatched on its category, with its `mid`. -/
theorem answer_envelope {category : Str} (hcategory : PlainCategory category)
    (hdevice : NoControl deviceName) (hmid : NoControl mid) :
    CommandProcessor.answer models (commandEnvelope category deviceName mid) =
      Session.tryCatch (CommandProcessor.dispatch models (commandEnvelope category deviceName mid) mid
        category) fun e => .result (errorResult mid e) := by
  unfold CommandProcessor.answer
  simp only [mid_envelope hcategory hdevice hmid, category_envelope hcategory.1 hdevice hmid]

theorem runs_startDeviceCollect (hdevice : NoControl deviceName) (hnonempty : deviceName ≠ [])
    (hmid : NoControl mid) :
    Runs models (commandEnvelope (lit "start_device_collect") deviceName mid) mid
      (Session.startDeviceCollect models deviceName mid) := by
  have hcategory : PlainCategory (lit "start_device_collect") := ⟨by decide, by decide⟩
  have hname := deviceName_envelope hcategory hdevice hnonempty hmid
  unfold Runs
  rw [answer_envelope hcategory hdevice hmid]
  conv_rhs => rw [← hname]
  rfl

theorem runs_stopDeviceCollect (hdevice : NoControl deviceName) (hnonempty : deviceName ≠ [])
    (hmid : NoControl mid) :
    Runs models (commandEnvelope (lit "stop_device_collect") deviceName mid) mid
      (Session.stopDeviceCollect deviceName mid) := by
  have hcategory : PlainCategory (lit "stop_device_collect") := ⟨by decide, by decide⟩
  have hname := deviceName_envelope hcategory hdevice hnonempty hmid
  unfold Runs
  rw [answer_envelope hcategory hdevice hmid]
  conv_rhs => rw [← hname]
  rfl

theorem runs_startAll (hmid : NoControl mid) :
    Runs models (commandEnvelope (lit "start_all") [] mid) mid
      (CommandProcessor.handleStartAll models mid) := by
  have hcategory : PlainCategory (lit "start_all") := ⟨by decide, by decide⟩
  exact answer_envelope hcategory (by decide) hmid

theorem runs_stopAll (hmid : NoControl mid) :
    Runs models (commandEnvelope (lit "stop_all") [] mid) mid
      (CommandProcessor.handleStopAll mid) := by
  have hcategory : PlainCategory (lit "stop_all") := ⟨by decide, by decide⟩
  exact answer_envelope hcategory (by decide) hmid

theorem startRoute_eq (hdevice : NoControl deviceName) (hnonempty : deviceName ≠ []) :
    route models (deviceRequest (lit "/tasks/start") deviceName body version keepAlive) =
      respond version keepAlive (lit "http-start")
        (Session.startDeviceCollect models deviceName (lit "http-start")) := by
  refine route_of_answer (dispatch_start rfl (pathOnly_deviceRequest (by decide) _)) ?_
  rw [queryParam_deviceRequest (by decide), if_neg hnonempty]
  exact runs_startDeviceCollect hdevice hnonempty (by decide)

theorem stopRoute_eq (hdevice : NoControl deviceName) (hnonempty : deviceName ≠ []) :
    route models (deviceRequest (lit "/tasks/stop") deviceName body version keepAlive) =
      respond version keepAlive (lit "http-stop")
        (Session.stopDeviceCollect deviceName (lit "http-stop")) := by
  refine route_of_answer (dispatch_stop rfl (pathOnly_deviceRequest (by decide) _)) ?_
  rw [queryParam_deviceRequest (by decide), if_neg hnonempty]
  exact runs_stopDeviceCollect hdevice hnonempty (by decide)

/-- Without a name the routes are the commands for all devices. -/
theorem startRoute_nil :
    route models (deviceRequest (lit "/tasks/start") [] body version keepAlive) =
      respond version keepAlive (lit "http-start")
        (CommandProcessor.handleStartAll models (lit "http-start")) := by
  refine route_of_answer (dispatch_start rfl (pathOnly_deviceRequest (by decide) _)) ?_
  rw [queryParam_deviceRequest (by decide), if_pos rfl]
  exact runs_startAll (by decide)

theorem stopRoute_nil :
    route models (deviceRequest (lit "/tasks/stop") [] body version keepAlive) =
      respond version keepAlive (lit "http-stop")
        (CommandProcessor.handleStopAll (lit "http-stop")) := by
  refine route_of_answer (dispatch_stop rfl (pathOnly_deviceRequest (by decide) _)) ?_
  rw [queryParam_deviceRequest (by decide), if_pos rfl]
  exact runs_stopAll (by decide)

end Routes

/-! ## 3. Other devices -/

/-- Whatever the order of the steps before it and whichever calls fail, the request leaves the
entries of every device but this one as they are. -/
def TouchesOnly (models : ModelRepository) (request : HttpRequest) (deviceName : Str) : Prop :=
  ∀ s : System, Steps.Reach System.step (fun _ _ => True) .initial s →
    ∀ (conn : Conn) (other : SqlText), other.bytes ≠ deviceName →
      ∀ response p', route models request ⟨conn, s.registry⟩ = some (response, p') →
        SameEntries other.bytes s.registry p'.registry

section Isolated
variable {models : ModelRepository} {mid : Str} {version : ℕ} {keepAlive : Bool} {p p' : Process}
  {response : Except Str HttpResponse}

/-- A response changes nothing itself. -/
theorem respond_eq_some {command : Session CommandResult}
    (h : respond version keepAlive mid command p = some (response, p')) :
    ∃ r, command p = some (r, p') := by
  unfold respond at h
  simp only [Session.bind_apply, Session.tryCatch, Session.pure_apply] at h
  rcases hrun : command p with _ | ⟨e | r, p₁⟩
  · rw [hrun] at h
    cases h
  · rw [hrun] at h
    cases h
    exact ⟨.error e, rfl⟩
  · rw [hrun] at h
    cases h
    exact ⟨.ok r, rfl⟩

theorem startDeviceCollect_sameEntries {deviceName other : Str} (hne : deviceName ≠ other)
    (hname : cString deviceName ≠ other) (hs : p.registry.Named) {r : Except Str CommandResult}
    (h : Session.startDeviceCollect models deviceName mid p = some (r, p')) :
    SameEntries other p.registry p'.registry := by
  obtain ⟨⟨result, c, s⟩, hstart, heq⟩ := Option.map_eq_some_iff.mp h
  cases heq
  exact (start_untouched hne hname hs hstart).entries

theorem stopDeviceCollect_sameEntries {deviceName other : Str} (hne : deviceName ≠ other)
    (hname : cString deviceName ≠ other) (hs : p.registry.Named) (hflags : p.registry.FlagsApart)
    {r : Except Str CommandResult} (h : Session.stopDeviceCollect deviceName mid p = some (r, p')) :
    SameEntries other p.registry p'.registry := by
  cases h
  exact (stop_untouched hne hname hs hflags).entries

end Isolated

/-- A task request whose device has no line break and no tab in its name is the start or the stop
of this device; without a name it is that of all devices. When the name is one that the database can
hold, no other device is touched. -/
theorem taskRoutes_isolated (models : ModelRepository) (deviceName body : Str) (version : ℕ)
    (keepAlive : Bool) (hdevice : NoControl deviceName) :
    let startRequest := deviceRequest (lit "/tasks/start") deviceName body version keepAlive
    let stopRequest := deviceRequest (lit "/tasks/stop") deviceName body version keepAlive
    (deviceName ≠ [] →
      route models startRequest = respond version keepAlive (lit "http-start")
        (Session.startDeviceCollect models deviceName (lit "http-start")) ∧
      route models stopRequest = respond version keepAlive (lit "http-stop")
        (Session.stopDeviceCollect deviceName (lit "http-stop")) ∧
      ((0 : UInt8) ∉ deviceName →
        TouchesOnly models startRequest deviceName ∧ TouchesOnly models stopRequest deviceName)) ∧
    (deviceName = [] →
      route models startRequest = respond version keepAlive (lit "http-start")
        (CommandProcessor.handleStartAll models (lit "http-start")) ∧
      route models stopRequest = respond version keepAlive (lit "http-stop")
        (CommandProcessor.handleStopAll (lit "http-stop"))) := by
  refine ⟨fun hnonempty => ⟨startRoute_eq hdevice hnonempty, stopRoute_eq hdevice hnonempty,
    fun hnul => ?_⟩, ?_⟩
  · -- the name is the text that the database compares
    have hname : ∀ {other : Str}, other ≠ deviceName → cString deviceName ≠ other := by
      rw [cString_of_notMem hnul]
      exact Ne.symm
    constructor
    · intro s hs conn other hother response p' h
      rw [startRoute_eq hdevice hnonempty] at h
      obtain ⟨r, hstart⟩ := respond_eq_some h
      exact startDeviceCollect_sameEntries hother.symm (hname hother) (named_of_reach hs) hstart
    · intro s hs conn other hother response p' h
      rw [stopRoute_eq hdevice hnonempty] at h
      obtain ⟨r, hstop⟩ := respond_eq_some h
      exact stopDeviceCollect_sameEntries hother.symm (hname hother) (named_of_reach hs)
        (flagsApart_of_reach hs) hstop
  · rintro rfl
    exact ⟨startRoute_nil, stopRoute_nil⟩

/-- A name with quotes, a colon and the key of another member. -/
theorem taskRoutes_isolated_quoted :
    let deviceName := lit "A\"mid\":\"%"
    TouchesOnly noModels (deviceRequest (lit "/tasks/start") deviceName [] 11 true) deviceName ∧
      TouchesOnly noModels (deviceRequest (lit "/tasks/stop") deviceName [] 11 true) deviceName :=
  ((taskRoutes_isolated noModels (lit "A\"mid\":\"%") [] 11 true (by decide)).1 (by decide)).2.2
    (by decide)

/-- The database with one device, whose model is written into its row. -/
def oneDevice (name : String) : Database :=
  ((SQLiteManager.createDevice
    { name := lit name, model := lit "DataItem:\n        - Name: X" }).exec .empty).2

/-- A request that starts or stops another device than the one it names. -/
theorem not_touchesOnly {request : HttpRequest} {deviceName : Str} {s : System} (t : Database)
    (hs : Steps.Reach System.step (fun _ _ => True) .initial s) (other : SqlText)
    (hne : other.bytes ≠ deviceName)
    (h : ((route noModels request ⟨healthy t none 0, s.registry⟩).map fun r =>
      decide (other.bytes ∈ r.2.registry.activeDevices ↔ other.bytes ∈ s.registry.activeDevices)) =
        some false) : ¬ TouchesOnly noModels request deviceName := by
  intro htouches
  obtain ⟨⟨response, p'⟩, hroute, hdiffers⟩ := Option.map_eq_some_iff.mp h
  exact of_decide_eq_false hdiffers (htouches s hs _ other hne response p' hroute).active

/-- A request without a name starts every device. A line break in the name is read back as a letter,
and a NUL byte cuts it off: the stop of this name joins a worker of `A` that was registered under
it, and the end of the worker takes `A` out of the registry. -/
theorem taskRoutes_not_isolated :
    ¬ TouchesOnly noModels (deviceRequest (lit "/tasks/start") [] [] 11 true) [] ∧
    ¬ TouchesOnly noModels (deviceRequest (lit "/tasks/start") (lit "A\nB") [] 11 true)
      (lit "A\nB") ∧
    ¬ TouchesOnly noModels (deviceRequest (lit "/tasks/stop") (lit "A\x00") [] 11 true)
      (lit "A\x00") := by
  refine ⟨not_touchesOnly (oneDevice "A") .start (bindText (lit "A")) (by decide)
      (by decide +kernel),
    not_touchesOnly (oneDevice "AnB") .start (bindText (lit "AnB")) (by decide)
      (by decide +kernel), ?_⟩
  obtain ⟨s, hs, hdiffers⟩ := @Steps.exists_reach_of_run _ _ System.step (fun _ _ => True) .initial _
    (fun s => ((route noModels (deviceRequest (lit "/tasks/stop") (lit "A\x00") [] 11 true)
      ⟨healthy (oneDevice "A") none 0, s.registry⟩).map fun r =>
        decide (lit "A" ∈ r.2.registry.activeDevices ↔ lit "A" ∈ s.registry.activeDevices)) =
          some false) _
    (startSteps (lit "A") ++ startSteps (lit "A\x00")) (by decide +kernel)
  exact not_touchesOnly (oneDevice "A") hs (bindText (lit "A")) (by decide) hdiffers

end TaskRoutes

end CollectorService
