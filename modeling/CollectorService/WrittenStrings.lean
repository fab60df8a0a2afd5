import CollectorService.CommandFrame
import CollectorService.Replies

/-!
# The strings that a response repeats

A response repeats strings of the request, of the tables, of the registry and of the model files,
behind words of the program. While no call of the connection fails, the request and the state before
it tell which ones.

* `commandLeaves`, `requestLeaves`: these strings, and the times, for a command and for a request.
* `answer_clean_iff`, `decision_clean_iff`: what is answered can be written exactly when they can.
-/

namespace CollectorService

open DeviceRepository (named readDevice boundRow)
open SQLiteManager (targetName)
open CommandProcessor (keepStatus namesStatus)
open HttpRouter (pathOnly queryParam betweenPath contains commandEnvelope)

/-! ## 1. The strings -/

/-- The `ex.what()` of a model that cannot be read; `done` when the data points of the device can be
stored. -/
def repeatedByInit (models : ModelRepository) (device : Device) (done : Str) : Str :=
  match modelPoints models device with
  | .error e => cString e
  | .ok points => if (points.map fun point => bindText point.namePath).Nodup then done else []

def repeatedByCreate (models : ModelRepository) (device : DeviceUpsert) (t : Database) : Str :=
  if device.name = [] then []
  else if device.model = [] then []
  else if (named device.name t).isSome then device.name
  else repeatedByInit models (readDevice (t.device.seq + 1, boundRow device)) device.name

def repeatedByUpdate (models : ModelRepository) (device : DeviceUpsert) (hasStatus : Bool)
    (t : Database) : Str :=
  if device.name = [] then []
  else if device.model = [] then []
  else match named (targetName device) t with
    | none => device.name
    | some x =>
      if device.name ≠ targetName device ∧ (named device.name t).isSome then cString device.name
      else if device.name ≠ targetName device ∧
          !(DataPointRepository.renameEffect (targetName device) device.name t).isOk then []
      else if (readDevice x).model ≠ device.model ∨
          (readDevice x).modelVersion ≠ device.modelVersion then
        repeatedByInit models (readDevice (x.1, boundRow (keepStatus device hasStatus (readDevice x))))
          device.name
      else device.name

/-- `done` when the checks of a start pass. -/
def repeatedByStart (models : ModelRepository) (deviceName : Str) (t : Database) (done : Str) : Str :=
  match named deviceName t with
  | none => cString deviceName
  | some x =>
    if (readDevice x).status = 0 then cString deviceName
    else if (t.dataPoint.select fun r => r.dName = some (bindText deviceName)) ≠ [] then done
    else repeatedByInit models (readDevice x) done

/-- The strings and the times in the answer to a command. -/
def commandLeaves (models : ModelRepository) (requestText : Str) (t : Database)
    (s : DeviceStatusStore) : List Leaf :=
  let mid := extractStringField requestText (lit "mid")
  let category := extractStringField requestText (lit "category")
  let deviceName := extractStringField requestText (lit "device_name")
  let device := CommandParser.parseDeviceUpsert requestText
  let message (text : Str) : List Leaf := [.text text, .text mid]
  if category = lit "create_device" then
    message (match device with
      | .ok device => repeatedByCreate models device t
      | .error _ => [])
  else if category = lit "delete_device" then message deviceName
  else if category = lit "update_device" then
    message (match device with
      | .ok device => repeatedByUpdate models device (namesStatus requestText) t
      | .error _ => [])
  else if category = lit "start_device_collect" then
    message (repeatedByStart models deviceName t
      (if s.isActive deviceName then cString deviceName else deviceName))
  else if category = lit "stop_device_collect" then message deviceName
  else if category = lit "start_all" then message []
  else if category = lit "stop_all" then message []
  else if category = lit "get_status" then .text mid :: s.getStatus.flatMap DeviceStatus.leaves
  else message category

def statusLeaves (deviceName : Str) (t : Database) (s : DeviceStatusStore) : List Leaf :=
  match s.getStatus.find? (·.deviceName = deviceName) with
  | some status => status.leaves
  | none => if (named deviceName t).isSome then ({ deviceName } : DeviceStatus).leaves
    else [.text (cString deviceName)]

def latestLeaves (deviceName : Str) (t : Database) : List Leaf :=
  (Ranking.top ResourceRepository.rankKey 100 (ResourceRepository.ofDevice deviceName t)).flatMap
    fun x => (ResourceRepository.readRecord x).leaves

/-- The strings and the times in the body of a response. -/
def requestLeaves (models : ModelRepository) (request : HttpRequest) (t : Database)
    (s : DeviceStatusStore) : List Leaf :=
  let target := request.target
  let path := pathOnly target
  let deviceName := queryParam target (lit "device")
  let task (all one mid : Str) :=
    commandLeaves models
      (commandEnvelope (if deviceName = [] then all else one) deviceName mid) t s
  if request.method = .get ∧ path = lit "/health" then []
  else if request.method = .get ∧ path = lit "/devices" then
    t.device.rows.flatMap fun x => (readDevice x).leaves
  else if request.method = .get ∧ (path = lit "/status" ∨ path = lit "/devices/status") then
    if deviceName = [] then s.getStatus.flatMap DeviceStatus.leaves else statusLeaves deviceName t s
  else if request.method = .get ∧ path = lit "/latest" then
    if deviceName = [] then [] else latestLeaves deviceName t
  else if request.method = .get ∧ lit "/devices/" <+: path ∧
      contains path (lit "/status") then
    statusLeaves (betweenPath path (lit "/devices/") (lit "/status")) t s
  else if request.method = .get ∧ lit "/devices/" <+: path ∧
      contains path (lit "/resources/latest") then
    latestLeaves (betweenPath path (lit "/devices/") (lit "/resources/latest")) t
  else if request.method = .post ∧ path = lit "/commands" then commandLeaves models request.body t s
  else if request.method = .post ∧ path = lit "/tasks/start" then
    task (lit "start_all") (lit "start_device_collect") (lit "http-start")
  else if request.method = .post ∧ path = lit "/tasks/stop" then
    task (lit "stop_all") (lit "stop_device_collect") (lit "http-stop")
  else [.text path]

/-! ## 2. Messages -/

/-- The message can be written exactly when the text can. -/
def Repeats (message text : Str) : Prop := (Leaf.text message).Clean ↔ (Leaf.text text).Clean

theorem clean_nil : (Leaf.text []).Clean := ⟨List.forall_mem_nil _, .nil⟩

section Messages
variable {words text : Str}

theorem Repeats.refl (text : Str) : Repeats text text := Iff.rfl

/-- Words of the program in front of the text. -/
theorem Repeats.append (h : ∀ ch ∈ words, 32 ≤ ch ∧ ch < 128) (text : Str) :
    Repeats (words ++ text) text := by
  induction words with
  | nil => exact .refl text
  | cons ch words ih =>
    obtain ⟨⟨hlow, hascii⟩, hwords⟩ := List.forall_mem_cons.mp h
    refine Iff.trans ?_ (ih hwords)
    rw [List.cons_append]
    refine and_congr ?_ (IsUtf8.cons_ascii_iff hascii)
    rw [NoOtherControl, NoOtherControl, List.forall_mem_cons]
    exact and_iff_right (Json.not_isControl_of_le hlow)

theorem Repeats.constant (h : ∀ ch ∈ words, 32 ≤ ch ∧ ch < 128) : Repeats words [] := by
  have happend := Repeats.append h []
  rwa [List.append_nil] at happend

/-- The same in an exception. -/
theorem Repeats.thrown (h : ∀ ch ∈ words, 32 ≤ ch ∧ ch < 128) (text : Str) :
    Repeats (cString (words ++ text)) (cString text) := by
  rw [cString_append fun hmem => absurd (h 0 hmem).1 (by decide)]
  exact .append h _

theorem Repeats.thrownConstant (h : ∀ ch ∈ words, 32 ≤ ch ∧ ch < 128) :
    Repeats (cString words) [] := by
  have hthrown := Repeats.thrown h []
  rwa [List.append_nil] at hthrown

end Messages

/-! ## 3. Commands that run alone -/

/-- The command answers with its `mid`, and its message, returned or thrown, repeats the text. -/
def Answers (mid text : Str) : Except Str CommandResult → Prop
  | .ok r => r.mid = mid ∧ Repeats r.msg text
  | .error e => Repeats (cString e) text

theorem Answers.ite {condition : Prop} [Decidable condition] {mid text text' : Str}
    {run run' : Except Str CommandResult × Database} (h : condition → Answers mid text run.1)
    (h' : ¬ condition → Answers mid text' run'.1) :
    Answers mid (if condition then text else text') (if condition then run else run').1 := by
  split
  · next hcondition => exact h hcondition
  · next hcondition => exact h' hcondition

/-- A refusal in words of the program. -/
theorem Answers.failure {mid words : Str} (h : ∀ ch ∈ words, 32 ≤ ch ∧ ch < 128) :
    Answers mid [] (.ok (DataTask.failure mid words)) := ⟨rfl, .constant h⟩

section Commands
open CommandProcessor (afterInit)

variable {models : ModelRepository} {device : DeviceUpsert} {deviceName mid words : Str}
  {hasStatus : Bool} {t : Database} {x : ℕ × DeviceRow}

theorem answers_init (hx : named deviceName t = some x) (h : ∀ ch ∈ words, 32 ≤ ch ∧ ch < 128) :
    Answers mid (repeatedByInit models (readDevice x) deviceName)
      (.ok (afterInit (words ++ deviceName) mid
        ((DataTask.initDataPointsByDevice models deviceName mid).run t).1)) := by
  have hiff := fun points => DataPointRepository.insertAll?_boundRow_isSome (readDevice x) points t
  rw [DataTask.initDataPointsByDevice_run, hx, repeatedByInit]
  dsimp only
  cases modelPoints models (readDevice x) with
  | error e => exact ⟨rfl, .refl _⟩
  | ok points =>
    dsimp only
    cases hins : (DataPointRepository.deleteEffect (readDevice x).name t).dataPoint.insertAll?
        (points.map (DataPointRepository.boundRow (readDevice x))) with
    | none =>
      rw [if_neg fun hnodup => by simpa [hins] using (hiff points).mpr hnodup]
      exact .failure (by decide)
    | some u =>
      rw [if_pos ((hiff points).mp ⟨u, hins⟩)]
      exact ⟨rfl, .append h _⟩

theorem answers_deleteDevice :
    Answers mid deviceName ((CommandProcessor.deleteDevice deviceName mid).run t).1 := by
  rw [CommandProcessor.deleteDevice_run]
  cases named deviceName t <;> exact ⟨rfl, .append (by decide) _⟩

theorem answers_createDevice :
    Answers mid (repeatedByCreate models device t)
      ((CommandProcessor.createDevice models device mid).run t).1 := by
  rw [CommandProcessor.createDevice_run, repeatedByCreate]
  refine .ite (fun _ => .failure (by decide)) fun _ => .ite (fun _ => .failure (by decide)) fun _ => ?_
  cases hx : named device.name t with
  | some x => exact ⟨rfl, .append (by decide) _⟩
  | none =>
    simp only [Option.isSome_none, Bool.false_eq_true, if_false]
    obtain ⟨u, hexec, hrows⟩ := exec_createDevice_new hx
    rw [SQLiteManager.exec_createDevice, hx] at hexec
    cases heff : DeviceRepository.createEffect device t with
    | error e =>
      rw [heff] at hexec
      cases hexec
    | ok t₁ =>
      rw [heff] at hexec
      obtain rfl : t₁ = { t with device := u } := congrArg Prod.snd hexec
      refine answers_init (DeviceRepository.named_eq_some.mpr ⟨?_, rfl⟩) (by decide)
      simp [hrows]

/-- What is left of an update once the row has been written. -/
theorem answers_written
    (h : named device.name t = some (x.1, boundRow (keepStatus device hasStatus (readDevice x)))) :
    Answers mid
      (if (readDevice x).model ≠ device.model ∨ (readDevice x).modelVersion ≠ device.modelVersion then
        repeatedByInit models (readDevice (x.1, boundRow (keepStatus device hasStatus (readDevice x))))
          device.name
      else device.name)
      (if (readDevice x).model ≠ device.model ∨ (readDevice x).modelVersion ≠ device.modelVersion then
        (.ok (afterInit (lit "device updated: " ++ device.name) mid
          ((DataTask.initDataPointsByDevice models device.name mid).run t).1),
          ((DataTask.initDataPointsByDevice models device.name mid).run t).2)
      else (.ok { msg := lit "device updated: " ++ device.name, mid }, t) :
        Except Str CommandResult × Database).1 :=
  .ite (fun _ => answers_init h (by decide)) fun _ => ⟨rfl, .append (by decide) _⟩

theorem answers_updateDevice :
    Answers mid (repeatedByUpdate models device hasStatus t)
      ((CommandProcessor.updateDevice models device hasStatus mid).run t).1 := by
  rw [CommandProcessor.updateDevice_run, repeatedByUpdate]
  refine .ite (fun _ => .failure (by decide)) fun _ => .ite (fun _ => .failure (by decide)) fun _ => ?_
  cases hx : named (targetName device) t with
  | none => exact ⟨rfl, .append (by decide) _⟩
  | some x =>
    have htarget := CommandProcessor.targetName_keepStatus device hasStatus (readDevice x)
    have hsame := CommandProcessor.keepStatus_name device hasStatus (readDevice x)
    dsimp only
    rw [SQLiteManager.exec_updateDevice, htarget, hx, hsame]
    dsimp only
    by_cases htaken : device.name ≠ targetName device ∧ (named device.name t).isSome = true
    · rw [if_pos htaken, if_pos htaken]
      exact .thrown (by decide) _
    rw [if_neg htaken, if_neg htaken]
    unfold SQLiteManager.updateOutcome
    rw [htarget, hsame]
    have hfree : (keepStatus device hasStatus (readDevice x)).name = targetName device ∨
        named (keepStatus device hasStatus (readDevice x)).name t = none := by
      rw [hsame, ← Option.not_isSome_iff_eq_none]
      tauto
    obtain ⟨t₁, heff⟩ := SQLiteManager.exists_updateEffect hx hfree
    have hnamed := SQLiteManager.named_updateEffect hx heff
    have hwritten : ∀ t₂ : Database, t₂.device = t₁.device → named device.name t₂ =
        some (x.1, boundRow (keepStatus device hasStatus (readDevice x))) := fun t₂ hdevice => by
      rwa [hsame, named, ← hdevice] at hnamed
    rw [heff]
    by_cases hsplit : device.name ≠ targetName device
    · have hisOk := @SQLiteManager.renameEffect_isOk (targetName device) device.name t t₁
        (SQLiteManager.updateEffect_dataPoint heff)
      simp only [if_pos hsplit]
      cases hrename : DataPointRepository.renameEffect (targetName device) device.name t₁ with
      | error e =>
        rw [hrename] at hisOk
        rw [if_pos ⟨hsplit, by rw [← hisOk]; rfl⟩]
        unfold DataPointRepository.renameEffect at hrename
        split at hrename
        · cases hrename
        · cases hrename
          exact .thrownConstant (by decide)
      | ok t₂ =>
        rw [hrename] at hisOk
        rw [if_neg fun h => by rw [← hisOk] at h; cases h.2]
        refine answers_written (hwritten _ ?_)
        rw [← SQLiteManager.renameEffect_device hrename]
        split <;> rfl
    · simp only [if_neg hsplit]
      rw [if_neg fun h => hsplit h.1]
      refine answers_written (hwritten _ ?_)
      split <;> rfl

/-- The checks of a start pass, or throw what the text says. -/
def ChecksRepeat (text : Str → Str) {α : Type} : Except Str α → Prop
  | .ok _ => ∀ done, text done = done
  | .error e => ∀ done, Repeats (cString e) (text done)

theorem loadDataPoints_repeats (hx : named deviceName t = some x) :
    ChecksRepeat (fun done =>
      if (t.dataPoint.select fun r => r.dName = some (bindText deviceName)) ≠ [] then done
      else repeatedByInit models (readDevice x) done)
      ((DataTask.loadDataPoints models deviceName mid).run t).1 := by
  by_cases hstored : (t.dataPoint.select fun r => r.dName = some (bindText deviceName)) = []
  · have hinit := DataTask.initDataPointsByDevice_run models deviceName mid t
    simp only [hx] at hinit
    unfold repeatedByInit
    cases hpoints : modelPoints models (readDevice x) with
    | error e =>
      simp only [hpoints] at hinit
      rw [DataTask.loadDataPoints_error (DataTask.storedDataPoints_error hstored hinit)]
      intro done
      dsimp only
      rw [if_neg (not_not.mpr hstored), cString_cString]
      exact .refl _
    | ok points =>
      simp only [hpoints] at hinit
      have hiff := DataPointRepository.insertAll?_boundRow_isSome (readDevice x) points t
      cases hins : (DataPointRepository.deleteEffect (readDevice x).name t).dataPoint.insertAll?
          (points.map (DataPointRepository.boundRow (readDevice x))) with
      | none =>
        simp only [hins] at hinit
        rw [DataTask.loadDataPoints_error (DataTask.storedDataPoints_error hstored hinit)]
        intro done
        dsimp only
        rw [if_neg (not_not.mpr hstored), if_neg fun hnodup => by simpa [hins] using hiff.mpr hnodup]
        exact .thrownConstant (by decide)
      | some u =>
        simp only [hins] at hinit
        have hne := DataTask.select_ne_nil_of_insertAll? (modelPoints_ne_nil hpoints) hins
        rw [DataTask.bindText_readDevice_name hx] at hne
        rw [DataTask.loadDataPoints_ok (by simpa using hne)
          (DataTask.storedDataPoints_ok hstored hinit rfl)]
        intro done
        dsimp only
        rw [if_neg (not_not.mpr hstored), if_pos (hiff.mp ⟨u, hins⟩)]
  · rw [DataTask.loadDataPoints_ok (by simpa using hstored) (DataTask.storedDataPoints_ne_nil hstored)]
    exact fun done => if_pos hstored

theorem startChecks_repeats : ChecksRepeat (repeatedByStart models deviceName t)
    ((DataTask.startChecks models deviceName mid).run t).1 := by
  rw [DataTask.startChecks, Command.run_bind, Command.run_call, SQLiteManager.exec_deviceExists]
  unfold repeatedByStart
  cases hx : named deviceName t with
  | none => exact fun done => .thrown (by decide) _
  | some x =>
    have hget : (Command.call (SQLiteManager.getDeviceByName deviceName)).run t =
        (.ok (readDevice x), t) := by
      rw [Command.run_call, SQLiteManager.exec_getDeviceByName, hx]
    have hload := @loadDataPoints_repeats models deviceName mid t x hx
    simp only [Option.isSome_some, Bool.not_true, Bool.false_eq_true, if_false,
      Command.run_bind_ok hget]
    by_cases hstatus : (readDevice x).status = 0
    · simp only [if_pos hstatus]
      exact fun done => .thrown (by decide) _
    · simp only [if_neg hstatus, Command.run_bind]
      rcases hrun : (DataTask.loadDataPoints models deviceName mid).run t with ⟨e | points, t'⟩ <;>
      · rw [hrun] at hload
        exact hload

end Commands

/-! ## 4. Commands of the service -/

/-- From `p`, what an outcome writes can be written exactly when the leaves can. -/
def WritesAs {α : Type} (written : Except Str α → List Leaf) (leaves : List Leaf) (p : Process)
    (m : Session α) : Prop :=
  ∀ r p', m p = some (r, p') → ((∀ leaf ∈ written r, leaf.Clean) ↔ ∀ leaf ∈ leaves, leaf.Clean)

theorem WritesAs.ite {α : Type} {written : Except Str α → List Leaf} {leaves leaves' : List Leaf}
    {p : Process} {m m' : Session α} {condition : Prop} [Decidable condition]
    (h : condition → WritesAs written leaves p m) (h' : ¬ condition → WritesAs written leaves' p m') :
    WritesAs written (if condition then leaves else leaves') p (if condition then m else m') := by
  split
  · next hcondition => exact h hcondition
  · next hcondition => exact h' hcondition

/-- What `handle` writes: the answer, or the text of the exception. -/
def answerLeaves (mid : Str) : Except Str Answer → List Leaf
  | .ok a => a.leaves
  | .error e => [.text (cString e), .text mid]

theorem forall_message_iff {msg mid mid' text : Str} (hmid : mid = mid') (hmsg : Repeats msg text) :
    (∀ leaf ∈ [Leaf.text msg, .text mid], leaf.Clean) ↔
      ∀ leaf ∈ [Leaf.text text, .text mid'], leaf.Clean := by
  rw [hmid]
  simp only [List.forall_mem_cons]
  exact and_congr_left fun _ => hmsg

theorem WritesAs.result {mid text : Str} {p : Process} {m : Session CommandResult}
    (hm : ∀ r p', m p = some (r, p') → Answers mid text r) :
    WritesAs (answerLeaves mid) [.text text, .text mid] p (do return .result (← m)) := by
  intro r p' h
  rw [Session.bind_apply] at h
  rcases hrun : m p with _ | ⟨e | a, p₁⟩ <;> rw [hrun] at h <;> cases h
  · exact forall_message_iff rfl (hm _ _ hrun)
  · obtain ⟨hmid, hmsg⟩ := hm _ _ hrun
    exact forall_message_iff hmid hmsg

section Service
open CommandProcessor (answer)

variable {models : ModelRepository} {requestText deviceName mid text : Str} {t : Database} {n : ℕ}
  {s : DeviceStatusStore} {p p' : Process}

/-- A command on a connection where no call fails. -/
theorem answers_onConnection {m : Sql CommandResult} {c : Command CommandResult}
    (halone : Sql.Alone m c) (h : Answers mid text (c.run t).1) {r : Except Str CommandResult}
    (hrun : Session.onConnection m ⟨healthy t none n, s⟩ = some (r, p')) : Answers mid text r := by
  obtain ⟨n', hm⟩ := halone t n
  simp only [Session.onConnection, hm, Option.some.injEq, Prod.mk.injEq] at hrun
  rw [← hrun.1]
  exact h

theorem answers_startDeviceCollect {r : Except Str CommandResult}
    (hrun : Session.startDeviceCollect models deviceName mid ⟨healthy t none n, s⟩ = some (r, p')) :
    Answers mid (repeatedByStart models deviceName t
      (if s.isActive deviceName then cString deviceName else deviceName)) r := by
  obtain ⟨n', hchecks⟩ := OnConnection.startChecks_alone models deviceName mid t n
  have htext := @startChecks_repeats models deviceName mid t
  obtain ⟨⟨result, c, s'⟩, hstart, heq⟩ := Option.map_eq_some_iff.mp hrun
  cases heq
  unfold OnConnection.startDeviceCollect at hstart
  rw [hchecks] at hstart
  rcases hr : ((DataTask.startChecks models deviceName mid).run t).1 with e | device
  · rw [hr] at hstart htext
    cases hstart
    exact ⟨rfl, htext _⟩
  · rw [hr] at hstart htext
    rw [htext]
    simp only at hstart
    split at hstart
    · next hactive =>
      cases hstart
      rw [if_pos hactive]
      exact ⟨rfl, .thrown (by decide) _⟩
    · next hactive =>
      obtain ⟨s'', -, heq⟩ := Option.map_eq_some_iff.mp hstart
      cases heq
      rw [if_neg hactive]
      exact ⟨rfl, .append (by decide) _⟩

theorem answers_stopDeviceCollect {r : Except Str CommandResult}
    (hrun : Session.stopDeviceCollect deviceName mid ⟨healthy t none n, s⟩ = some (r, p')) :
    Answers mid deviceName r := by
  have hexists : SQLiteManager.deviceExists deviceName (healthy t none n) =
      (.ok (named deviceName t).isSome, healthy t none (n + 2)) := rfl
  unfold Session.stopDeviceCollect OnConnection.stopDeviceCollect at hrun
  simp only [hexists] at hrun
  cases hx : (named deviceName t).isSome with
  | false =>
    rw [hx] at hrun
    cases hrun
    exact ⟨rfl, .append (by decide) _⟩
  | true =>
    rw [hx] at hrun
    cases hrun
    show Answers mid deviceName (.ok (DataTask.stopRegistered deviceName mid s).1)
    unfold DataTask.stopRegistered
    dsimp only
    split <;> exact ⟨rfl, .append (by decide) _⟩

/-- A command that begins with the parser, which throws nothing but `stoi`. -/
theorem answers_parsed {m : DeviceUpsert → Sql CommandResult} {words : DeviceUpsert → Str}
    (h : ∀ device r p', Session.onConnection (m device) ⟨healthy t none n, s⟩ = some (r, p') →
      Answers mid (words device) r)
    {r : Except Str CommandResult}
    (hrun : Session.onConnection (Sql.ofExcept (CommandParser.parseDeviceUpsert requestText) >>= m)
      ⟨healthy t none n, s⟩ = some (r, p')) :
    Answers mid (match CommandParser.parseDeviceUpsert requestText with
      | .ok device => words device
      | .error _ => []) r := by
  cases hparse : CommandParser.parseDeviceUpsert requestText with
  | error e =>
    rw [hparse] at hrun
    cases hrun
    rw [CommandParser.parseDeviceUpsert_error hparse]
    exact .thrownConstant (by decide)
  | ok device =>
    rw [hparse] at hrun
    exact h device r p' hrun

theorem startEachDevice_ok : ∀ {devices : List Device} {p : Process} {r : Except Str Unit},
    Session.startEachDevice models devices p = some (r, p') → r = .ok ()
  | [], p, r, h => by
    cases h
    rfl
  | device :: rest, p, r, h => by
    unfold Session.startEachDevice at h
    split at h
    · rw [Session.bind_apply] at h
      rcases hrun : Session.startDeviceCollect models device.name [] p with _ | ⟨e | a, p₁⟩
      · rw [hrun] at h
        cases h
      · obtain ⟨_, -, heq⟩ := Option.map_eq_some_iff.mp hrun
        cases heq
      · rw [hrun] at h
        exact startEachDevice_ok h
    · exact startEachDevice_ok h

theorem answers_startAll {r : Except Str CommandResult}
    (hrun : CommandProcessor.handleStartAll models mid ⟨healthy t none n, s⟩ = some (r, p')) :
    Answers mid [] r := by
  have hdevices : SQLiteManager.getDevices (healthy t none n) =
      (.ok (t.device.rows.map readDevice), healthy t none (n + 1 + t.device.rows.length + 1)) :=
    (Sql.bind_ok prepare_healthy).trans (Sql.bind_ok (allRows_healthy _))
  unfold CommandProcessor.handleStartAll Session.startAll at hrun
  simp only [Session.bind_apply, Session.onConnection, hdevices] at hrun
  rcases hstart : Session.startEachDevice models (t.device.rows.map readDevice)
      ⟨healthy t none (n + 1 + t.device.rows.length + 1), s⟩ with _ | ⟨e | u, p₁⟩
  · rw [hstart] at hrun
    cases hrun
  · cases startEachDevice_ok hstart
  · rw [hstart] at hrun
    cases hrun
    exact ⟨rfl, @Repeats.constant (lit "all online device collections started") (by decide)⟩

theorem answers_stopAll {r : Except Str CommandResult}
    (hrun : CommandProcessor.handleStopAll mid p = some (r, p')) : Answers mid [] r := by
  cases hrun
  exact ⟨rfl, @Repeats.constant (lit "all device collections stopped") (by decide)⟩

theorem dispatch_writesAs :
    WritesAs (answerLeaves (extractStringField requestText (lit "mid")))
      (commandLeaves models requestText t s) ⟨healthy t none n, s⟩
      (CommandProcessor.dispatch models requestText (extractStringField requestText (lit "mid"))
        (extractStringField requestText (lit "category"))) := by
  unfold commandLeaves CommandProcessor.dispatch
  refine .ite (fun _ => .result ?_) fun _ => .ite (fun _ => .result ?_) fun _ =>
    .ite (fun _ => .result ?_) fun _ => .ite (fun _ => .result ?_) fun _ => .ite (fun _ => .result ?_)
      fun _ => .ite (fun _ => .result ?_) fun _ => .ite (fun _ => .result ?_) fun _ =>
      .ite (fun _ => ?_) fun _ => ?_
  · exact fun r p' hrun => answers_parsed (fun device _ _ => answers_onConnection
      (OnConnection.createDevice_alone models device _) answers_createDevice) hrun
  · exact fun r p' hrun => answers_onConnection (OnConnection.deleteDevice_alone _ _)
      answers_deleteDevice hrun
  · exact fun r p' hrun => answers_parsed (fun device _ _ => answers_onConnection
      (OnConnection.updateDevice_alone models device _ _) answers_updateDevice) hrun
  · exact fun r p' hrun => answers_startDeviceCollect hrun
  · exact fun r p' hrun => answers_stopDeviceCollect hrun
  · exact fun r p' hrun => answers_startAll hrun
  · exact fun r p' hrun => answers_stopAll hrun
  · rintro r p' ⟨⟩
    exact Iff.rfl
  · rintro r p' ⟨⟩
    exact forall_message_iff rfl (.append (by decide) _)

/-- What a command is answered can be written exactly when the strings and times can that the request
and the state give for it. -/
theorem answer_clean_iff {a : Answer}
    (h : answer models requestText ⟨healthy t none n, s⟩ = some (.ok a, p')) :
    (∀ leaf ∈ a.leaves, leaf.Clean) ↔
      ∀ leaf ∈ commandLeaves models requestText t s, leaf.Clean := by
  unfold answer Session.tryCatch at h
  dsimp only at h
  split at h
  · next hrun =>
    cases h
    exact dispatch_writesAs _ _ hrun
  · exact dispatch_writesAs _ _ h

end Service

/-! ## 5. Requests -/

/-- What `route` writes: the reply, or the text of the exception. -/
def replyLeaves : Except Str (HttpStatus × Reply) → List Leaf
  | .ok (_, reply) => reply.leaves
  | .error e => [.text (cString e)]

section Requests
open HttpRouter (dispatch decision taskRoute findStatusOrDefault)

variable {models : ModelRepository} {request : HttpRequest} {requestText deviceName : Str}
  {t : Database} {n : ℕ} {s : DeviceStatusStore} {p' : Process}

theorem writesAs_command : WritesAs replyLeaves (commandLeaves models requestText t s)
    ⟨healthy t none n, s⟩
    (do return (HttpStatus.ok, Reply.command (← CommandProcessor.answer models requestText))) := by
  intro r p' h
  rw [Session.bind_apply] at h
  rcases hrun : CommandProcessor.answer models requestText ⟨healthy t none n, s⟩ with
    _ | ⟨e | a, p₁⟩ <;> rw [hrun] at h
  · cases h
  · unfold CommandProcessor.answer Session.tryCatch at hrun
    dsimp only at hrun
    split at hrun <;> simp_all
  · cases h
    exact answer_clean_iff hrun

theorem writesAs_latest : WritesAs replyLeaves (latestLeaves deviceName t) ⟨healthy t none n, s⟩ (do
    return (HttpStatus.ok, Reply.records
      (← Session.onConnection (SQLiteManager.getLatestResources deviceName)))) := by
  intro r p' h
  have hrows : SQLiteManager.getLatestResources deviceName (healthy t none n) =
      (.ok ((Ranking.top ResourceRepository.rankKey 100
        (ResourceRepository.ofDevice deviceName t)).map ResourceRepository.readRecord), _) :=
    (Sql.bind_ok prepare_healthy).trans (Sql.bind_ok (allRows_healthy _))
  rw [Session.bind_apply] at h
  simp only [Session.onConnection, hrows] at h
  cases h
  rw [replyLeaves, Reply.leaves, List.flatMap_map]
  exact Iff.rfl

theorem writesAs_status : WritesAs replyLeaves (statusLeaves deviceName t s) ⟨healthy t none n, s⟩ (do
    return (HttpStatus.ok, Reply.status (← findStatusOrDefault s.getStatus deviceName))) := by
  intro r p' h
  unfold findStatusOrDefault at h
  unfold statusLeaves
  cases hfind : s.getStatus.find? (·.deviceName = deviceName) with
  | some status =>
    rw [hfind] at h
    cases h
    exact Iff.rfl
  | none =>
    have hexists : SQLiteManager.deviceExists deviceName (healthy t none n) =
        (.ok (named deviceName t).isSome, healthy t none (n + 2)) := rfl
    rw [hfind] at h
    simp only [Session.bind_apply, Session.onConnection, hexists] at h
    cases hx : (named deviceName t).isSome with
    | true =>
      rw [hx] at h
      cases h
      exact Iff.rfl
    | false =>
      rw [hx] at h
      cases h
      show (∀ leaf ∈ [Leaf.text (cString (lit "device not found: " ++ deviceName))], leaf.Clean) ↔
        ∀ leaf ∈ [Leaf.text (cString deviceName)], leaf.Clean
      rw [List.forall_mem_singleton, List.forall_mem_singleton]
      exact Repeats.thrown (by decide) _

theorem route_writesAs : WritesAs replyLeaves (requestLeaves models request t s) ⟨healthy t none n, s⟩
    (dispatch models request) := by
  unfold requestLeaves dispatch
  refine .ite (fun _ => ?_) fun _ => .ite (fun _ => ?_) fun _ => .ite (fun _ => .ite (fun _ => ?_)
    fun _ => ?_) fun _ => .ite (fun _ => .ite (fun _ => ?_) fun _ => ?_) fun _ => .ite (fun _ => ?_)
    fun _ => .ite (fun _ => ?_) fun _ => .ite (fun _ => ?_) fun _ => .ite (fun _ => ?_) fun _ =>
    .ite (fun _ => ?_) fun _ => ?_
  · rintro r p' ⟨⟩
    exact Iff.rfl
  · intro r p' h
    have hrows : SQLiteManager.getDevices (healthy t none n) =
        (.ok (t.device.rows.map readDevice), _) :=
      (Sql.bind_ok prepare_healthy).trans (Sql.bind_ok (allRows_healthy _))
    simp only [Session.bind_apply, Session.onConnection, hrows] at h
    cases h
    rw [replyLeaves, Reply.leaves, List.flatMap_map]
  · rintro r p' ⟨⟩
    exact Iff.rfl
  · exact writesAs_status
  · rintro r p' ⟨⟩
    have hwords : Repeats (lit "device query parameter is required") [] := .constant (by decide)
    rw [replyLeaves, Reply.leaves, List.forall_mem_singleton]
    exact iff_of_true (hwords.mpr clean_nil) (List.forall_mem_nil _)
  · exact writesAs_latest
  · exact writesAs_status
  · exact writesAs_latest
  · exact writesAs_command
  · exact writesAs_command
  · exact writesAs_command
  · rintro r p' ⟨⟩
    rw [replyLeaves, Reply.leaves, List.forall_mem_singleton, List.forall_mem_singleton]
    exact Repeats.append (by decide) _

/-- What a request is answered can be written exactly when the strings and times can that the request
and the state give for it. -/
theorem decision_clean_iff {status : HttpStatus} {reply : Reply}
    (h : decision models request ⟨healthy t none n, s⟩ = some (.ok (status, reply), p')) :
    (∀ leaf ∈ reply.leaves, leaf.Clean) ↔ ∀ leaf ∈ requestLeaves models request t s, leaf.Clean := by
  unfold decision Session.tryCatch at h
  split at h
  · next hrun =>
    cases h
    exact route_writesAs _ _ hrun
  · exact route_writesAs _ _ h

end Requests

end CollectorService
