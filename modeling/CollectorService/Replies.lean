import CollectorService.Documents
import CollectorService.HttpRouter

/-!
# Replies

What the service means by the text of a reply, and when the text is a JSON document that says so.

* `Reply.part`, `Answer.part`: the values that the serializers write, and their leaves.
* `Reply.isDocument_iff`, `Answer.isDocument_iff`: the text is a document exactly when the leaves can
  be written.
-/

namespace CollectorService

open Json (Value commaSep)

/-! ## 1. Records -/

def Device.part (device : Device) : Part := .object
  [("id", .int device.id), ("name", .string device.name), ("ip", .string device.ip),
    ("port", .int device.port), ("sampleIntervalMs", .int device.sampleIntervalMs),
    ("status", .int device.status), ("model", .string device.model),
    ("model_version", .string device.modelVersion), ("driver_path", .string device.driverPath)]

def DeviceStatus.part (status : DeviceStatus) : Part := .object
  [("device_name", .string status.deviceName), ("connected", .bool status.connected),
    ("machineConnected", .bool status.machineConnected), ("failCount", .int status.failCount),
    ("lastSuccessTime", .time status.lastSuccessTime), ("error", .string status.error)]

/-- The array that a stored Data text stands for, when `readData` gives the elements of the texts
that are not empty. -/
def dataValue (readData : Str → List Value) (data : Str) : Value :=
  .array (if data = [] then [] else readData data)

def ResourceRecord.part (readData : Str → List Value) (record : ResourceRecord) : Part := .object
  [("device_name", .string record.deviceName),
    ("dataItemNamePath", .string record.dataItemNamePath),
    ("data", .raw (dataValue readData record.data)
      (if record.data = [] then lit "[]" else record.data)),
    ("devTime", .time record.devTime), ("svrTime", .time record.svrTime),
    ("dataItemPath", .string record.dataItemPath), ("dataItemName", .string record.dataItemName),
    ("dataItemDescription", .string record.dataItemDescription)]

def CommandResult.part (result : CommandResult) : Part := .object
  [("code", .int result.code), ("msg", .string result.msg), ("mid", .string result.mid)]

section Records

theorem Device.toJson_eq (device : Device) : device.toJson = device.part.text := by
  unfold Device.toJson
  simp only [Device.part, Part.object, Part.int, Part.string, Part.memberText, List.map_cons,
    List.map_nil, commaSep, Json.quote, List.append_assoc, List.cons_append]
  rfl

theorem DeviceStatus.toJson_eq (status : DeviceStatus) : status.toJson = status.part.text := by
  simp only [DeviceStatus.toJson, DeviceStatus.part, Part.object, Part.bool, Part.int, Part.time,
    Part.string, Part.memberText, List.map_cons, List.map_nil, commaSep, Json.quote,
    List.append_assoc, List.cons_append]
  rfl

theorem ResourceRecord.toJson_eq (readData : Str → List Value) (record : ResourceRecord) :
    record.toJson = (record.part readData).text := by
  unfold ResourceRecord.toJson
  simp only [ResourceRecord.part, Part.object, Part.raw, Part.time, Part.string, Part.memberText,
    List.map_cons, List.map_nil, commaSep, Json.quote, List.append_assoc, List.cons_append]
  rfl

theorem CommandResult.toJson_eq (result : CommandResult) : result.toJson = result.part.text := by
  simp only [CommandResult.toJson, CommandResult.part, Part.object, Part.int, Part.string,
    Part.memberText, List.map_cons, List.map_nil, commaSep, Json.quote, List.append_assoc,
    List.cons_append]
  rfl

end Records

/-! ## 2. Replies -/

/-- A string that the serializer itself has. -/
def Part.word (word : String) : Part := .raw (.string (lit word)) (Json.quote (lit word))

def Answer.part : Answer → Part
  | .result r => r.part
  | .statuses items mid => .object [("code", .int 200), ("msg", .word "ok"), ("mid", .string mid),
      ("data", .array (items.map DeviceStatus.part))]

def successPart (data : Part) : Part := .object [("success", .bool true), ("data", data)]

def Reply.part (readData : Str → List Value) : Reply → Part
  | .health => .object [("success", .bool true), ("service", .word "collector-service")]
  | .devices items => successPart (.array (items.map Device.part))
  | .statuses items => successPart (.array (items.map DeviceStatus.part))
  | .status item => successPart item.part
  | .records items => successPart (.array (items.map (ResourceRecord.part readData)))
  | .command a => a.part
  | .error message => .object [("success", .bool false), ("error", .string message)]

section Texts
variable {readData : Str → List Value}

theorem arrayToJson_eq {α : Type} {toJson : α → Str} {part : α → Part}
    (h : ∀ a, toJson a = (part a).text) (items : List α) :
    arrayToJson toJson items = (Part.array (items.map part)).text := by
  have htexts : items.map toJson = (items.map part).map (·.text) := by
    rw [List.map_map]
    exact List.map_congr_left fun a _ => h a
  rw [arrayToJson, htexts]
  rfl

theorem jsonSuccess_eq (data : Part) : jsonSuccess data.text = (successPart data).text := by
  simp only [jsonSuccess, successPart, Part.object, Part.bool, Part.memberText, List.map_cons,
    List.map_nil, commaSep, Json.quote, List.append_assoc, List.cons_append]
  rfl

theorem Answer.toJson_eq (a : Answer) : a.toJson = a.part.text := by
  cases a with
  | result r => exact r.toJson_eq
  | statuses items mid =>
    simp only [Answer.toJson, statusesToJson, arrayToJson_eq DeviceStatus.toJson_eq, Answer.part,
      Part.object, Part.int, Part.word, Part.raw, Part.string, Part.memberText, List.map_cons,
      List.map_nil, commaSep, Json.quote, List.append_assoc, List.cons_append]
    rfl

theorem Reply.toJson_eq (readData : Str → List Value) (reply : Reply) :
    reply.toJson = (reply.part readData).text := by
  cases reply with
  | health => rfl
  | devices items =>
    rw [Reply.toJson, arrayToJson_eq Device.toJson_eq]
    exact jsonSuccess_eq _
  | statuses items =>
    rw [Reply.toJson, arrayToJson_eq DeviceStatus.toJson_eq]
    exact jsonSuccess_eq _
  | status item =>
    rw [Reply.toJson, DeviceStatus.toJson_eq]
    exact jsonSuccess_eq _
  | records items =>
    rw [Reply.toJson, arrayToJson_eq (ResourceRecord.toJson_eq readData)]
    exact jsonSuccess_eq _
  | command a => exact a.toJson_eq
  | error message =>
    simp only [Reply.toJson, jsonError, Reply.part, Part.object, Part.bool, Part.string,
      Part.memberText, List.map_cons, List.map_nil, commaSep, Json.quote, List.append_assoc,
      List.cons_append]
    rfl

end Texts

/-! ## 3. Leaves -/

def Device.leaves (device : Device) : List Leaf :=
  [.text device.name, .text device.ip, .text device.model, .text device.modelVersion,
    .text device.driverPath]

def DeviceStatus.leaves (status : DeviceStatus) : List Leaf :=
  [.text status.deviceName, .time status.lastSuccessTime, .text status.error]

def ResourceRecord.leaves (record : ResourceRecord) : List Leaf :=
  [.text record.deviceName, .text record.dataItemNamePath, .time record.devTime,
    .time record.svrTime, .text record.dataItemPath, .text record.dataItemName,
    .text record.dataItemDescription]

def Answer.leaves : Answer → List Leaf
  | .result r => [.text r.msg, .text r.mid]
  | .statuses items mid => .text mid :: items.flatMap DeviceStatus.leaves

/-- The strings and the times that the body of a response writes. -/
def Reply.leaves : Reply → List Leaf
  | .health => []
  | .devices items => items.flatMap Device.leaves
  | .statuses items => items.flatMap DeviceStatus.leaves
  | .status item => item.leaves
  | .records items => items.flatMap ResourceRecord.leaves
  | .command a => a.leaves
  | .error message => [.text message]

section Leaves

theorem leaves_array {α : Type} {part : α → Part} {leaves : α → List Leaf}
    (h : ∀ a, (part a).leaves = leaves a) (items : List α) :
    (Part.array (items.map part)).leaves = items.flatMap leaves := by
  rw [Part.array, List.flatMap_map]
  exact List.flatMap_congr fun a _ => h a

theorem leaves_success (data : Part) : (successPart data).leaves = data.leaves :=
  List.append_nil _

theorem Answer.leaves_part (a : Answer) : a.part.leaves = a.leaves := by
  cases a with
  | result r => rfl
  | statuses items mid =>
    have hitems := @leaves_array _ DeviceStatus.part _ (fun _ => rfl) items
    show .text mid :: ((Part.array (items.map DeviceStatus.part)).leaves ++ []) = _
    rw [hitems, List.append_nil]
    rfl

theorem Reply.leaves_part (readData : Str → List Value) (reply : Reply) :
    (reply.part readData).leaves = reply.leaves := by
  cases reply with
  | health | error => rfl
  | status item => exact leaves_success _
  | devices items => exact (leaves_success _).trans (leaves_array (fun _ => rfl) items)
  | statuses items => exact (leaves_success _).trans (leaves_array (fun _ => rfl) items)
  | records items => exact (leaves_success _).trans (leaves_array (fun _ => rfl) items)
  | command a => exact a.leaves_part

end Leaves

/-! ## 4. What the serializers put together -/

/-- A stored Data text is empty, or it writes the array that `readData` gives, in UTF-8. -/
def ReadsData (readData : Str → List Value) (data : Str) : Prop :=
  data = [] ∨ (Value.array (readData data)).Text data ∧ IsUtf8 data

/-- Whatever Data texts the reply has, `readData` reads them. -/
def Reply.ReadsData (readData : Str → List Value) : Reply → Prop
  | .records items => ∀ record ∈ items, CollectorService.ReadsData readData record.data
  | _ => True

section Written
open CollectorService.Part (Written PlainKey)

variable {readData : Str → List Value}

theorem word_written {word : String} (h : PlainKey word) : Written (.word word) :=
  .raw (.string (Part.stringBody_key h)) ((Part.isUtf8_brackets (by decide) (by decide)).mpr
    (.of_ascii fun ch hch => (h ch hch).2.1))

theorem data_written {data : Str} (h : ReadsData readData data) :
    Written (.raw (dataValue readData data) (if data = [] then lit "[]" else data)) := by
  unfold dataValue
  split
  · exact .raw (.array {} [] (by simp)) (.of_ascii (by decide))
  · next hne =>
    obtain ⟨htext, hutf8⟩ := h.resolve_left hne
    exact .raw htext hutf8

theorem Device.written (device : Device) : device.part.Written := by
  refine .object ?_ ?_ <;> simp only [List.forall_mem_cons, List.not_mem_nil, false_imp_iff,
    implies_true, and_true]
  · decide
  · exact ⟨.int _, .string _, .string _, .int _, .int _, .int _, .string _, .string _, .string _⟩

theorem DeviceStatus.written (status : DeviceStatus) : status.part.Written := by
  refine .object ?_ ?_ <;> simp only [List.forall_mem_cons, List.not_mem_nil, false_imp_iff,
    implies_true, and_true]
  · decide
  · exact ⟨.string _, .bool _, .bool _, .int _, .time _, .string _⟩

theorem ResourceRecord.written {record : ResourceRecord} (h : ReadsData readData record.data) :
    (record.part readData).Written := by
  refine .object ?_ ?_ <;> simp only [List.forall_mem_cons, List.not_mem_nil, false_imp_iff,
    implies_true, and_true]
  · decide
  · exact ⟨.string _, .string _, data_written h, .time _, .time _, .string _, .string _, .string _⟩

theorem CommandResult.written (result : CommandResult) : result.part.Written := by
  refine .object ?_ ?_ <;> simp only [List.forall_mem_cons, List.not_mem_nil, false_imp_iff,
    implies_true, and_true]
  · decide
  · exact ⟨.int _, .string _, .string _⟩

theorem array_written {α : Type} {part : α → Part} {items : List α}
    (h : ∀ a ∈ items, (part a).Written) : Written (.array (items.map part)) :=
  .array (List.forall_mem_map.mpr h)

theorem Answer.written (a : Answer) : a.part.Written := by
  cases a with
  | result r => exact r.written
  | statuses items mid =>
    refine .object ?_ ?_ <;> simp only [List.forall_mem_cons, List.not_mem_nil, false_imp_iff,
      implies_true, and_true]
    · decide
    · exact ⟨.int _, word_written (by decide), .string _, array_written fun a _ => a.written⟩

theorem success_written {data : Part} (h : data.Written) : (successPart data).Written := by
  refine .object ?_ ?_ <;> simp only [List.forall_mem_cons, List.not_mem_nil, false_imp_iff,
    implies_true, and_true]
  · decide
  · exact ⟨.bool _, h⟩

theorem Reply.written {reply : Reply} (h : reply.ReadsData readData) :
    (reply.part readData).Written := by
  cases reply with
  | health =>
    refine .object ?_ ?_ <;> simp only [List.forall_mem_cons, List.not_mem_nil, false_imp_iff,
      implies_true, and_true]
    · decide
    · exact ⟨.bool _, word_written (by decide)⟩
  | devices items => exact success_written (array_written fun a _ => a.written)
  | statuses items => exact success_written (array_written fun a _ => a.written)
  | status item => exact success_written item.written
  | records items => exact success_written (array_written fun a ha => ResourceRecord.written (h a ha))
  | command a => exact a.written
  | error message =>
    refine .object ?_ ?_ <;> simp only [List.forall_mem_cons, List.not_mem_nil, false_imp_iff,
      implies_true, and_true]
    · decide
    · exact ⟨.bool _, .string _⟩

end Written

/-- A text writes the value of a reply, in UTF-8. -/
def IsDocument (value : Value) (text : Str) : Prop := value.Text text ∧ IsUtf8 text

/-- What the serializers write for a reply is a document that says so exactly when they can write
every string and every time in it. -/
theorem Reply.isDocument_iff {readData : Str → List Value} {reply : Reply}
    (h : reply.ReadsData readData) :
    IsDocument (reply.part readData).value reply.toJson ↔ ∀ leaf ∈ reply.leaves, leaf.Clean := by
  rw [reply.toJson_eq readData, ← reply.leaves_part readData]
  exact (Reply.written h).valid_iff

theorem Answer.isDocument_iff (a : Answer) :
    IsDocument a.part.value a.toJson ↔ ∀ leaf ∈ a.leaves, leaf.Clean := by
  rw [a.toJson_eq, ← a.leaves_part]
  exact a.written.valid_iff

/-! ## 5. What the router decides -/

/-- Every stored Data text is empty or an array that `readData` reads. -/
def Database.ReadsData (readData : Str → List Value) (t : Database) : Prop :=
  ∀ x ∈ t.resources.rows, CollectorService.ReadsData readData (columnText x.2.data)

section Stored
variable {readData : Str → List Value} {c c' : Conn}

theorem stepRows_subset {β : Type} {rows found : List β} (h : stepRows rows c = (.ok found, c')) :
    found ⊆ rows := by
  induction rows generalizing found c with
  | nil =>
    obtain ⟨_, _, -, hfound⟩ := Sql.bind_eq_ok.mp h
    cases hfound
    exact List.Subset.refl _
  | cons row rest ih =>
    obtain ⟨more, c₁, -, hfound⟩ := Sql.bind_eq_ok.mp h
    cases more with
    | false =>
      cases hfound
      exact List.nil_subset _
    | true =>
      obtain ⟨others, c₂, hothers, hfound⟩ := Sql.bind_eq_ok.mp hfound
      cases hfound
      exact List.cons_subset_cons _ (ih hothers)

/-- The latest records are read from rows of the table. -/
theorem SQLiteManager.getLatestResources_rows {deviceName : Str} {records : List ResourceRecord}
    (h : getLatestResources deviceName c = (.ok records, c')) : ∀ record ∈ records,
      ∃ x ∈ c.tables.resources.rows, record = ResourceRepository.readRecord x := by
  obtain ⟨_, c₁, hprepare, h⟩ := Sql.bind_eq_ok.mp h
  obtain ⟨rows, c₂, hrows, h⟩ := Sql.bind_eq_ok.mp h
  cases h
  have htables := Sql.Reads.prepare c
  rw [hprepare] at htables
  intro record hrecord
  obtain ⟨x, hx, rfl⟩ := List.mem_map.mp hrecord
  have htop := stepRows_subset hrows hx
  rw [htables] at htop
  exact ⟨x, (List.mem_filter.mp (Ranking.mem_ranked.mp (List.mem_of_mem_take htop))).1, rfl⟩

end Stored

namespace Session

variable {α β : Type} {m : Session α} {k : α → Session β} {p : Process}

/-- What the computation returns from `p` has `P`. -/
def Yields (P : α → Prop) (p : Process) (m : Session α) : Prop :=
  ∀ a p', m p = some (.ok a, p') → P a

theorem Yields.pure {P : α → Prop} {a : α} (h : P a) : Yields P p (pure a) := by
  rintro a' p' ⟨⟩
  exact h

theorem Yields.bind {P : β → Prop} (hk : ∀ a p₁, m p = some (.ok a, p₁) → Yields P p₁ (k a)) :
    Yields P p (m >>= k) := by
  intro b p' h
  rcases hrun : m p with _ | ⟨e | a, p₁⟩
  · rw [bind_none hrun] at h
    cases h
  · rw [bind_error hrun] at h
    cases h
  · rw [bind_ok hrun] at h
    exact hk a p₁ hrun b p' h

theorem Yields.ite {P : α → Prop} {condition : Prop} [Decidable condition] {m' : Session α}
    (hm : Yields P p m) (hm' : Yields P p m') : Yields P p (if condition then m else m') := by
  split
  · exact hm
  · exact hm'

end Session

namespace HttpRouter

/-- What a request is answered, before the answer is written as JSON. -/
def decision (models : ModelRepository) (request : HttpRequest) : Session (HttpStatus × Reply) :=
  Session.tryCatch (dispatch models request) fun e => (.internalServerError, .error e)

section Decision
open Session (Yields)

variable {readData : Str → List Value} {models : ModelRepository} {request : HttpRequest}
  {p p' : Process} {deviceName : Str} {status : HttpStatus} {reply : Reply}

theorem latest_readsData (h : p.conn.tables.ReadsData readData) :
    Yields (fun reply : HttpStatus × Reply => reply.2.ReadsData readData) p (do
      return (.ok, .records (← Session.onConnection (SQLiteManager.getLatestResources deviceName)))) := by
  refine .bind fun records p₁ hrun => .pure fun record hrecord => ?_
  have hread : SQLiteManager.getLatestResources deviceName p.conn = (.ok records, p₁.conn) := by
    rcases hr : SQLiteManager.getLatestResources deviceName p.conn with ⟨r, c⟩
    simp only [Session.onConnection, hr] at hrun
    cases hrun
    rfl
  obtain ⟨x, hx, rfl⟩ := SQLiteManager.getLatestResources_rows hread record hrecord
  exact h x hx

theorem dispatch_readsData (h : p.conn.tables.ReadsData readData) :
    Yields (fun reply => reply.2.ReadsData readData) p (dispatch models request) := by
  unfold dispatch
  dsimp only
  refine .ite (.pure trivial) (.ite (.bind fun _ _ _ => .pure trivial) (.ite ?_ (.ite ?_ (.ite ?_
    (.ite ?_ (.ite (.bind fun _ _ _ => .pure trivial) (.ite ?_ (.ite ?_ (.pure trivial)))))))))
  · exact .bind fun statuses p₁ _ => .ite (.pure trivial) (.bind fun _ _ _ => .pure trivial)
  · exact .ite (.pure trivial) (latest_readsData h)
  · exact .bind fun statuses p₁ _ => .bind fun _ _ _ => .pure trivial
  · exact latest_readsData h
  · exact .bind fun _ _ _ => .pure trivial
  · exact .bind fun _ _ _ => .pure trivial

theorem decision_readsData (h : p.conn.tables.ReadsData readData)
    (hrun : decision models request p = some (.ok (status, reply), p')) :
    reply.ReadsData readData := by
  unfold decision Session.tryCatch at hrun
  split at hrun
  · cases hrun
    trivial
  · exact dispatch_readsData h _ _ hrun

/-- A response is what has been decided, as JSON. -/
theorem route_eq_some {response : HttpResponse}
    (h : route models request p = some (.ok response, p')) : ∃ status reply,
      decision models request p = some (.ok (status, reply), p') ∧
      response = makeResponse status reply.toJson request.version request.keepAlive := by
  have hroute : route models request p = (decision models request >>= fun d =>
      (pure (makeResponse d.1 d.2.toJson request.version request.keepAlive) : Session _)) p := rfl
  rw [hroute, Session.bind_apply] at h
  rcases hrun : decision models request p with _ | ⟨e | ⟨status, reply⟩, p₁⟩
  · rw [hrun] at h
    cases h
  · rw [hrun] at h
    cases h
  · rw [hrun] at h
    cases h
    exact ⟨status, reply, rfl, rfl⟩

end Decision

end HttpRouter

open CommandProcessor (answer handle) in
/-- The text of a command's answer is what has been answered, as JSON. -/
theorem handle_eq_some {models : ModelRepository} {requestText text : Str} {p p' : Process}
    (h : handle models requestText p = some (.ok text, p')) :
    ∃ a, answer models requestText p = some (.ok a, p') ∧ text = a.toJson := by
  unfold handle at h
  rw [Session.bind_apply] at h
  rcases hrun : answer models requestText p with _ | ⟨e | a, p₁⟩
  · rw [hrun] at h
    cases h
  · rw [hrun] at h
    cases h
  · rw [hrun] at h
    cases h
    exact ⟨a, rfl, rfl⟩

/-- The service before its first request. -/
def idle : Process := ⟨healthy .empty none 0, {}⟩

end CollectorService
