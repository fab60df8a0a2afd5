import CollectorService.CommandText
import CollectorService.Rename

/-!
# Fields that an update leaves out

`update_device` writes a whole row. What the request leaves out is filled in by the parser, with a
default or with what stands behind a string that equals the name of the field. Only for the status
does the handler see that it is missing, and keep what is stored.

* `Request.extractStringField_text`, `Request.extractIntField_text`: what the searches read, in
  terms of the members of the request.
* `Request.Updates`: the request reaches the `UPDATE` statement for a device.
* `agrees_iff`: without strings that equal the names of fields, what is filled in are the parser's
  defaults.
* `keepsAbsent_iff`: a device keeps what the request leaves out exactly when the row that is written
  has the stored values anyway.
-/

namespace CollectorService.CommandText

open CommandParser (parseAddr parseDeviceUpsert)
open CommandProcessor (handleDevice keepStatus namesStatus)
open DeviceRepository (named readDevice boundRow updateEffect)
open SQLiteManager (targetName)

/-! ## 1. Where the searches stop -/

/-- The value is a string that ends with a quote and the name, or equals it. -/
def EntryValue.endsWith (name : Str) : EntryValue → Bool
  | .string value => byte '"' :: name <:+ byte '"' :: value
  | _ => false

/-- The members from the first one on that mentions the name. When a value does, the reading goes on
behind it. -/
def fromMention (name : Str) : List Entry → List Entry
  | [] => []
  | e :: rest =>
    if e.key = name then e :: rest
    else if e.value.endsWith name then rest
    else fromMention name rest

section Mention
variable {name : Str} {fallback : ℤ} {e : Entry} {entries pre post : List Entry}

theorem mentions_iff : e.Mentions name ↔ e.key = name ∨ e.value.endsWith name = true := by
  unfold Entry.Mentions
  cases e.value <;> simp [EntryValue.endsWith]

theorem fromMention_cons_of_not_mentions (h : ¬ e.Mentions name) :
    fromMention name (e :: entries) = fromMention name entries := by
  obtain ⟨hkey, hvalue⟩ := not_or.mp (mentions_iff.not.mp h)
  rw [fromMention, if_neg hkey, if_neg hvalue]

theorem fromMention_of_no_mention (hno : ∀ e ∈ entries, ¬ e.Mentions name) :
    fromMention name entries = [] := by
  induction entries with
  | nil => rfl
  | cons e rest ih =>
    obtain ⟨hhead, hrest⟩ := List.forall_mem_cons.mp hno
    rw [fromMention_cons_of_not_mentions hhead, ih hrest]

theorem FirstMention.fromMention (h : FirstMention name entries pre e post) :
    fromMention name entries = if e.key = name then e :: post else post := by
  obtain ⟨rfl, hbefore, hmentions⟩ := h
  induction pre with
  | nil =>
    rw [List.nil_append, CommandText.fromMention]
    split
    · rfl
    · next hkey => rw [if_pos ((mentions_iff.mp hmentions).resolve_left hkey)]
  | cons head rest ih =>
    obtain ⟨hhead, hrest⟩ := List.forall_mem_cons.mp hbefore
    rw [List.cons_append, fromMention_cons_of_not_mentions hhead, ih hrest]

theorem extractStringField_entries (hname : FieldName name)
    (hkeys : ∀ e ∈ entries, FieldName e.key) :
    extractStringField (entries.flatMap Entry.text) name =
      stringBehind (fromMention name entries) := by
  rcases firstMention_or name entries with hno | ⟨pre, e, post, hfirst⟩
  · rw [extractStringField_eq, afterFirst_of_no_mention hname hkeys hno,
      fromMention_of_no_mention hno]
    rfl
  · rw [hfirst.extractStringField hname hkeys, hfirst.fromMention]

theorem extractIntField_entries (hname : FieldName name)
    (hkeys : ∀ e ∈ entries, FieldName e.key) :
    extractIntField (entries.flatMap Entry.text) name fallback =
      intBehind fallback (fromMention name entries) := by
  rcases firstMention_or name entries with hno | ⟨pre, e, post, hfirst⟩
  · rw [extractIntField_eq, afterFirst_of_no_mention hname hkeys hno,
      fromMention_of_no_mention hno]
    rfl
  · rw [hfirst.extractIntField hname hkeys, hfirst.fromMention]

theorem hasField_entries (hname : FieldName name) (hkeys : ∀ e ∈ entries, FieldName e.key) :
    hasField (entries.flatMap Entry.text) name = true ↔ ∃ e ∈ entries, e.Mentions name := by
  rcases firstMention_or name entries with hno | ⟨pre, e, post, hfirst⟩
  · rw [hasField, afterFirst_of_no_mention hname hkeys hno]
    simpa using hno
  · obtain ⟨hpre, hkey, -⟩ := hfirst.keys hkeys
    have hmem : e ∈ entries := by simp [hfirst.split]
    rw [hasField, hfirst.split, afterFirst_entries hname hpre hfirst.before hkey hfirst.mentions,
      ← hfirst.split]
    exact ⟨fun _ => ⟨e, hmem, hfirst.mentions⟩, fun _ => rfl⟩

end Mention

/-! ## 2. What the parser reads of a request -/

namespace Request

variable (r : Request)

def Mentions (name : Str) : Prop := ∃ e ∈ r.entries, e.Mentions name

/-- The string that a search for the name reads. -/
def readText (name : Str) : Str := stringBehind (fromMention name r.entries)

/-- The integer that a search for the name reads. -/
def readInt (name : Str) (fallback : ℤ) : Except Str ℤ :=
  intBehind fallback (fromMention name r.entries)

/-- The status, under either of its keys. -/
def readStatus : Except Str ℤ := do
  let first ← r.readInt NumberKey.status.name 1
  r.readInt NumberKey.capitalStatus.name first

/-- The address, under any of its keys. -/
def readAddress : Except Str (Str × ℤ) := do
  let ip := r.readText TextKey.ipAddr.name
  let ip := if ip = [] then r.readText TextKey.ip.name else ip
  let port ← r.readInt NumberKey.port.name 0
  let addr := r.readText TextKey.addr.name
  let addr := if addr = [] then r.readText TextKey.ipAddr.name else addr
  let (ip, port) ← parseAddr addr ip port
  return (if ip = [] then lit "127.0.0.1" else ip, if port = 0 then 9001 else port)

/-- The name of the device that the request is about. -/
def target : Str :=
  if r.readText TextKey.oldDeviceName.name ≠ [] then r.readText TextKey.oldDeviceName.name
  else r.readText TextKey.deviceName.name

end Request

section Reading
variable {r : Request} {name : Str} {fallback : ℤ} {device : DeviceUpsert}

theorem Request.extractStringField_text (r : Request) (hname : FieldName name) :
    extractStringField r.text name = r.readText name := by
  rw [r.text_eq, extractStringField_entries hname r.fieldName_key, readText]

theorem Request.extractIntField_text (r : Request) (hname : FieldName name) :
    extractIntField r.text name fallback = r.readInt name fallback := by
  rw [r.text_eq, extractIntField_entries hname r.fieldName_key, readInt]

theorem Request.hasField_text (r : Request) (hname : FieldName name) :
    hasField r.text name = true ↔ r.Mentions name := by
  rw [r.text_eq, hasField_entries hname r.fieldName_key, Mentions]

theorem Request.namesStatus_text (r : Request) : namesStatus r.text = true ↔
    r.Mentions NumberKey.status.name ∨ r.Mentions NumberKey.capitalStatus.name := by
  rw [← r.hasField_text NumberKey.status.fieldName,
    ← r.hasField_text NumberKey.capitalStatus.fieldName, ← Bool.or_eq_true]
  rfl

theorem Request.readStatus_eq_ok {status : ℤ} : r.readStatus = .ok status ↔
    ∃ first, r.readInt NumberKey.status.name 1 = .ok first ∧
      r.readInt NumberKey.capitalStatus.name first = .ok status := CommandParser.bind_eq_ok

theorem Request.readAddress_eq_ok {address : Str × ℤ} : r.readAddress = .ok address ↔
    ∃ portField ip port, r.readInt NumberKey.port.name 0 = .ok portField ∧
      parseAddr (CommandParser.addrField r.text) (CommandParser.ipField r.text) portField =
        .ok (ip, port) ∧
      address = (if ip = [] then lit "127.0.0.1" else ip, if port = 0 then 9001 else port) := by
  have htext (key : TextKey) : extractStringField r.text key.name = r.readText key.name :=
    r.extractStringField_text key.fieldName
  rw [Request.readAddress]
  simp only [← htext, CommandParser.bind_eq_ok]
  constructor
  · rintro ⟨portField, hport, ⟨ip, port⟩, haddr, haddress⟩
    exact ⟨portField, ip, port, hport, haddr, (Except.ok.inj haddress).symm⟩
  · rintro ⟨portField, ip, port, hport, haddr, rfl⟩
    exact ⟨portField, hport, (ip, port), haddr, rfl⟩

/-- What the parser makes of the text, in terms of the members. -/
theorem Request.parse_text : parseDeviceUpsert r.text = .ok device ↔
    ∃ sampleIntervalMs status address,
      r.readInt NumberKey.sampleInterval.name 1000 = .ok sampleIntervalMs ∧
      r.readStatus = .ok status ∧ r.readAddress = .ok address ∧
      device = {
        oldName := r.readText TextKey.oldDeviceName.name
        name := r.readText TextKey.deviceName.name
        ip := address.1
        port := address.2
        sampleIntervalMs
        status
        model := r.readText TextKey.model.name
        modelVersion := r.readText TextKey.modelVersion.name
        driverPath := r.readText TextKey.driverPath.name } := by
  have htext (key : TextKey) : extractStringField r.text key.name = r.readText key.name :=
    r.extractStringField_text key.fieldName
  have hint (key : NumberKey) (fallback : ℤ) :
      extractIntField r.text key.name fallback = r.readInt key.name fallback :=
    r.extractIntField_text key.fieldName
  simp only [CommandParser.parseDeviceUpsert_eq_ok, readStatus_eq_ok, readAddress_eq_ok, ← htext,
    ← hint]
  constructor
  · rintro ⟨sampleIntervalMs, first, status, portField, ip, port, hsample, hfirst, hstatus, hport,
      haddr, rfl⟩
    exact ⟨sampleIntervalMs, status, _, hsample, ⟨first, hfirst, hstatus⟩,
      ⟨portField, ip, port, hport, haddr, rfl⟩, rfl⟩
  · rintro ⟨sampleIntervalMs, status, _, hsample, ⟨first, hfirst, hstatus⟩,
      ⟨portField, ip, port, hport, haddr, rfl⟩, rfl⟩
    exact ⟨sampleIntervalMs, first, status, portField, ip, port, hsample, hfirst, hstatus, hport,
      haddr, rfl⟩

end Reading

/-! ## 3. Keeping what the request leaves out -/

namespace Request

variable (r : Request)

/-- None of these keys is among the members of `params`. -/
def Lacks (names : List Str) : Prop := ∀ name ∈ names, name ∉ r.members.map Param.name

def addressKeys : List Str :=
  [TextKey.addr.name, TextKey.ipAddr.name, TextKey.ip.name, NumberKey.port.name]

def statusKeys : List Str := [NumberKey.status.name, NumberKey.capitalStatus.name]

/-- What the request leaves out is the same in both devices. -/
structure Keeps (before after : Device) : Prop where
  address : r.Lacks addressKeys → after.ip = before.ip ∧ after.port = before.port
  sampleInterval : r.Lacks [NumberKey.sampleInterval.name] →
    after.sampleIntervalMs = before.sampleIntervalMs
  status : r.Lacks statusKeys → after.status = before.status
  driverPath : r.Lacks [TextKey.driverPath.name] → after.driverPath = before.driverPath
  modelVersion : r.Lacks [TextKey.modelVersion.name] → after.modelVersion = before.modelVersion

/-- After the command, the device under the id of `x` has what the request leaves out as before. -/
def KeepsAbsent (models : ModelRepository) (t : Database) (x : ℕ × DeviceRow) : Prop :=
  ∃ y ∈ ((handleDevice models .updateDevice r.text).run t).2.device.rows,
    y.1 = x.1 ∧ r.Keeps (readDevice x) (readDevice y)

/-- The request reaches the `UPDATE` statement, and the statement finds the row `x`. -/
structure Updates (t : Database) (x : ℕ × DeviceRow) : Prop where
  sampleInterval : ∃ sampleIntervalMs,
    r.readInt NumberKey.sampleInterval.name 1000 = .ok sampleIntervalMs
  status : ∃ status, r.readStatus = .ok status
  address : ∃ address, r.readAddress = .ok address
  name : r.readText TextKey.deviceName.name ≠ []
  model : r.readText TextKey.model.name ≠ []
  found : named r.target t = some x
  free : r.readText TextKey.deviceName.name = r.target ∨
    named (r.readText TextKey.deviceName.name) t = none

/-- What the request leaves out is stored as the parser fills it in. -/
structure Agrees (before : Device) : Prop where
  address : r.Lacks addressKeys → ∃ ip port,
    r.readAddress = .ok (ip, port) ∧ cString ip = before.ip ∧ port = before.port
  sampleInterval : r.Lacks [NumberKey.sampleInterval.name] →
    r.readInt NumberKey.sampleInterval.name 1000 = .ok before.sampleIntervalMs
  /-- A request without a status keeps it, unless a string mentions the key. -/
  status : r.Lacks statusKeys →
    r.Mentions NumberKey.status.name ∨ r.Mentions NumberKey.capitalStatus.name →
      r.readStatus = .ok before.status
  driverPath : r.Lacks [TextKey.driverPath.name] →
    cString (r.readText TextKey.driverPath.name) = before.driverPath
  modelVersion : r.Lacks [TextKey.modelVersion.name] →
    cString (r.readText TextKey.modelVersion.name) = before.modelVersion

end Request

/-! ## 4. The row behind the command -/

section Row
variable {models : ModelRepository} {r : Request} {t u : Database} {x y : ℕ × DeviceRow}
  {device : DeviceUpsert}

/-- The statement finds the row, and no other row has the new name. -/
theorem exec_updateDevice_device (hfound : named (targetName device) t = some x)
    (hfree : device.name = targetName device ∨ named device.name t = none) :
    ∃ u, updateEffect device (targetName device) t = .ok u ∧
      ((SQLiteManager.updateDevice device).exec t).2.device = u.device := by
  have hnot : ¬ (device.name ≠ targetName device ∧ (named device.name t).isSome = true) := by
    rintro ⟨hne, hsome⟩
    rw [hfree.resolve_left hne] at hsome
    cases hsome
  rw [SQLiteManager.exec_updateDevice, hfound]
  obtain ⟨u, hupdate⟩ := SQLiteManager.exists_updateEffect hfound hfree
  simp only [if_neg hnot, SQLiteManager.updateOutcome, hupdate]
  refine ⟨u, rfl, ?_⟩
  cases hrename : (if device.name ≠ targetName device then
      DataPointRepository.renameEffect (targetName device) device.name u else .ok u) with
  | error e => rfl
  | ok u' =>
    have hdevice : u'.device = u.device := by
      split at hrename
      · exact SQLiteManager.renameEffect_device hrename
      · cases hrename
        rfl
    dsimp only
    split <;> exact hdevice

theorem exec_updateDevice_refused (h : ∀ x, named (targetName device) t = some x →
    ¬ (device.name = targetName device ∨ named device.name t = none)) :
    ((SQLiteManager.updateDevice device).exec t).2 = t := by
  rw [SQLiteManager.exec_updateDevice]
  cases hfound : named (targetName device) t with
  | none => rfl
  | some x =>
    obtain ⟨hne, hsome⟩ := not_or.mp (h x hfound)
    simp only [if_pos (And.intro hne (Option.isSome_iff_ne_none.mpr hsome))]

theorem mem_of_updateEffect {target : Str} (hx : named target t = some x)
    (h : updateEffect device target t = .ok u) (hy : y ∈ t.device.rows) :
    (if y = x then (x.1, boundRow device) else y) ∈ u.device.rows := by
  unfold updateEffect at h
  split at h
  · next v hv =>
    cases h
    obtain ⟨-, hrows, -⟩ := AutoTable.update?_eq_some.mp hv
    obtain ⟨-, hname⟩ := DeviceRepository.named_eq_some.mp hx
    rw [show ({ t with device := v } : Database).device.rows = v.rows from rfl, hrows]
    refine List.mem_map.mpr ⟨y, hy, ?_⟩
    unfold AutoTable.updateRow
    by_cases hyname : y.2.name = bindText target
    · have hyx : y = x :=
        Option.some.inj ((DeviceRepository.named_eq_some.mpr ⟨hy, hyname⟩).symm.trans hx)
      rw [if_pos hyx, if_pos (decide_eq_true hyname), hyx]
    · have hyx : y ≠ x := fun heq => hyname (heq ▸ hname)
      rw [if_neg hyx, if_neg (by simpa using hyname)]
  · cases h

theorem Request.Updates.parse (h : r.Updates t x) :
    ∃ device, parseDeviceUpsert r.text = .ok device := by
  obtain ⟨sampleIntervalMs, hsample⟩ := h.sampleInterval
  obtain ⟨status, hstatus⟩ := h.status
  obtain ⟨address, haddress⟩ := h.address
  exact ⟨_, Request.parse_text.mpr ⟨sampleIntervalMs, status, address, hsample, hstatus, haddress,
    rfl⟩⟩

/-- A request that the parser accepts, in terms of what the handler asks of the device. -/
theorem Request.updates_iff (hparse : parseDeviceUpsert r.text = .ok device) :
    r.Updates t x ↔ device.name ≠ [] ∧ device.model ≠ [] ∧ named (targetName device) t = some x ∧
      (device.name = targetName device ∨ named device.name t = none) := by
  obtain ⟨sampleIntervalMs, status, address, hsample, hstatus, haddress, rfl⟩ :=
    Request.parse_text.mp hparse
  exact ⟨fun h => ⟨h.name, h.model, h.found, h.free⟩, fun ⟨hname, hmodel, hfound, hfree⟩ =>
    ⟨⟨_, hsample⟩, ⟨_, hstatus⟩, ⟨_, haddress⟩, hname, hmodel, hfound, hfree⟩⟩

theorem updateDevice_device (hasStatus : Bool) (mid : Str)
    (hname : device.name ≠ []) (hmodel : device.model ≠ [])
    (hfound : named (targetName device) t = some x) :
    ((CommandProcessor.updateDevice models device hasStatus mid).run t).2.device =
      ((SQLiteManager.updateDevice
        (keepStatus device hasStatus (readDevice x))).exec t).2.device := by
  rw [CommandProcessor.updateDevice_run, if_neg hname, if_neg hmodel, hfound]
  dsimp only
  rcases (SQLiteManager.updateDevice (keepStatus device hasStatus (readDevice x))).exec t with
    ⟨e | a, t₁⟩
  · rfl
  · dsimp only
    split
    · exact DataTask.initDataPointsByDevice_device
    · rfl

theorem handleDevice_run (models : ModelRepository) (text : Str) (t : Database) :
    ((handleDevice models .updateDevice text).run t).2 =
      ((CommandProcessor.handleUpdateDevice models text
        (extractStringField text (lit "mid"))).run t).2 := by
  rw [handleDevice, Command.run_tryCatch]
  rcases (CommandProcessor.handleUpdateDevice models text
    (extractStringField text (lit "mid"))).run t with ⟨e | a, t₁⟩ <;> rfl

/-- The command rewrites the row that it updates, and no other. -/
theorem handleDevice_cases (models : ModelRepository) (r : Request) (t : Database) :
    (((handleDevice models .updateDevice r.text).run t).2.device = t.device ∧
      ∀ x, ¬ r.Updates t x) ∨
    ∃ x device u, r.Updates t x ∧ parseDeviceUpsert r.text = .ok device ∧
      updateEffect (keepStatus device (namesStatus r.text) (readDevice x)) (targetName device) t =
        .ok u ∧
      ((handleDevice models .updateDevice r.text).run t).2.device = u.device := by
  rw [handleDevice_run]
  cases hparse : parseDeviceUpsert r.text with
  | error e =>
    refine .inl ⟨?_, fun x h => ?_⟩
    · rw [CommandProcessor.handleUpdateDevice, hparse]
      rfl
    · obtain ⟨device, hdevice⟩ := h.parse
      rw [hparse] at hdevice
      cases hdevice
  | ok device =>
    have hcommand : CommandProcessor.handleUpdateDevice models r.text
        (extractStringField r.text (lit "mid")) = CommandProcessor.updateDevice models device
          (namesStatus r.text) (extractStringField r.text (lit "mid")) := by
      rw [CommandProcessor.handleUpdateDevice, hparse]
      rfl
    simp only [Request.updates_iff hparse, hcommand]
    by_cases hname : device.name = []
    · refine .inl ⟨?_, fun x h => h.1 hname⟩
      rw [CommandProcessor.updateDevice_run, if_pos hname]
    by_cases hmodel : device.model = []
    · refine .inl ⟨?_, fun x h => h.2.1 hmodel⟩
      rw [CommandProcessor.updateDevice_run, if_neg hname, if_pos hmodel]
    cases hfound : named (targetName device) t with
    | none =>
      refine .inl ⟨?_, fun x h => Option.some_ne_none x h.2.2.1.symm⟩
      rw [CommandProcessor.updateDevice_run, if_neg hname, if_neg hmodel, hfound]
    | some x =>
      rw [updateDevice_device _ _ hname hmodel hfound]
      by_cases hfree : device.name = targetName device ∨ named device.name t = none
      · obtain ⟨u, hupdate, hdevice⟩ := @exec_updateDevice_device t x
          (keepStatus device (namesStatus r.text) (readDevice x))
          (by simpa using hfound) (by simpa using hfree)
        exact .inr ⟨x, device, u, ⟨hname, hmodel, rfl, hfree⟩, rfl, by simpa using hupdate, hdevice⟩
      · refine .inl ⟨?_, fun x h => hfree h.2.2.2⟩
        rw [exec_updateDevice_refused]
        exact fun x _ => by simpa using hfree

/-- A row that is not updated is as before; the one that is has the values of the request. -/
theorem row_handleDevice (models : ModelRepository) (hx : x ∈ t.device.rows) :
    (¬ r.Updates t x ∧ x ∈ ((handleDevice models .updateDevice r.text).run t).2.device.rows) ∨
    ∃ device, r.Updates t x ∧ parseDeviceUpsert r.text = .ok device ∧
      (x.1, boundRow (keepStatus device (namesStatus r.text) (readDevice x))) ∈
        ((handleDevice models .updateDevice r.text).run t).2.device.rows := by
  rcases handleDevice_cases models r t with
    ⟨hdevice, hno⟩ | ⟨z, device, u, hupdates, hparse, hupdate, hdevice⟩
  · exact .inl ⟨hno x, hdevice ▸ hx⟩
  · have hfound := ((Request.updates_iff hparse).mp hupdates).2.2.1
    have hmem := mem_of_updateEffect hfound hupdate hx
    rw [← hdevice] at hmem
    by_cases hxz : x = z
    · subst hxz
      rw [if_pos rfl] at hmem
      exact .inr ⟨device, hupdates, hparse, hmem⟩
    · rw [if_neg hxz] at hmem
      refine .inl ⟨fun h => hxz ?_, hmem⟩
      exact Option.some.inj (h.found.symm.trans hupdates.found)

/-! ## 5. The defaults -/

namespace Request

/-- The keys that a request may leave out. -/
def optionalKeys : List Str :=
  addressKeys ++ statusKeys ++
    [NumberKey.sampleInterval.name, TextKey.driverPath.name, TextKey.modelVersion.name]

/-- No string of the request is taken for a key that the request leaves out. -/
def Plain (r : Request) : Prop :=
  ∀ name ∈ optionalKeys, name ∉ r.members.map Param.name → ¬ r.Mentions name

/-- What the request leaves out is stored with the constants of the parser; for the status every value
will do. -/
structure StoresDefaults (r : Request) (before : Device) : Prop where
  address : r.Lacks addressKeys → before.ip = lit "127.0.0.1" ∧ before.port = 9001
  sampleInterval : r.Lacks [NumberKey.sampleInterval.name] → before.sampleIntervalMs = 1000
  driverPath : r.Lacks [TextKey.driverPath.name] → before.driverPath = []
  modelVersion : r.Lacks [TextKey.modelVersion.name] → before.modelVersion = []

section Plain
variable {r : Request} {name : Str} {before : Device}

theorem readText_of_plain (h : r.Plain) (hname : name ∈ optionalKeys)
    (habsent : name ∉ r.members.map Param.name) : r.readText name = [] := by
  rw [readText, fromMention_of_no_mention fun e he hm => h name hname habsent ⟨e, he, hm⟩]
  rfl

theorem readInt_of_plain (h : r.Plain) (hname : name ∈ optionalKeys)
    (habsent : name ∉ r.members.map Param.name) (fallback : ℤ) :
    r.readInt name fallback = .ok fallback := by
  rw [readInt, fromMention_of_no_mention fun e he hm => h name hname habsent ⟨e, he, hm⟩]
  rfl

/-- Without an address, the parser fills in that of the mock driver. -/
theorem readAddress_of_plain (h : r.Plain) (hlacks : r.Lacks addressKeys) :
    r.readAddress = .ok (lit "127.0.0.1", 9001) := by
  have htext (key : TextKey) (hkey : key.name ∈ addressKeys) : r.readText key.name = [] :=
    readText_of_plain h (by simp [optionalKeys, hkey]) (hlacks _ hkey)
  rw [readAddress, htext .addr (by decide), htext .ipAddr (by decide), htext .ip (by decide),
    readInt_of_plain h (by decide) (hlacks _ (by decide))]
  rfl

/-- A plain request fills in the parser's defaults. -/
theorem agrees_iff (h : r.Plain) : r.Agrees before ↔ r.StoresDefaults before := by
  have hsample (hlacks : r.Lacks [NumberKey.sampleInterval.name]) :
      r.readInt NumberKey.sampleInterval.name 1000 = .ok 1000 :=
    readInt_of_plain h (by decide) (hlacks _ List.mem_cons_self) 1000
  have htext (key : TextKey) (hkey : key.name ∈ optionalKeys) (hlacks : r.Lacks [key.name]) :
      cString (r.readText key.name) = [] := by
    rw [readText_of_plain h hkey (hlacks _ List.mem_cons_self)]
    rfl
  have hip : cString (lit "127.0.0.1") = lit "127.0.0.1" := by decide
  constructor
  · intro hagrees
    refine ⟨fun hlacks => ?_, fun hlacks => ?_, fun hlacks => ?_, fun hlacks => ?_⟩
    · obtain ⟨ip, port, haddress, hsameIp, hsamePort⟩ := hagrees.address hlacks
      cases (readAddress_of_plain h hlacks).symm.trans haddress
      exact ⟨hsameIp.symm.trans hip, hsamePort.symm⟩
    · exact (Except.ok.inj ((hsample hlacks).symm.trans (hagrees.sampleInterval hlacks))).symm
    · exact (hagrees.driverPath hlacks).symm.trans (htext .driverPath (by decide) hlacks)
    · exact (hagrees.modelVersion hlacks).symm.trans (htext .modelVersion (by decide) hlacks)
  · rintro ⟨haddress, hinterval, hdriver, hversion⟩
    refine ⟨fun hlacks => ?_, fun hlacks => ?_, fun hlacks hmentions => ?_, fun hlacks => ?_,
      fun hlacks => ?_⟩
    · obtain ⟨hsameIp, hsamePort⟩ := haddress hlacks
      exact ⟨_, _, readAddress_of_plain h hlacks, hip.trans hsameIp.symm, hsamePort.symm⟩
    · rw [hsample hlacks, hinterval hlacks]
    · rcases hmentions with hmentions | hmentions
      · exact absurd hmentions (h _ (by decide) (hlacks _ (by decide)))
      · exact absurd hmentions (h _ (by decide) (hlacks _ (by decide)))
    · exact (htext .driverPath (by decide) hlacks).trans (hdriver hlacks).symm
    · exact (htext .modelVersion (by decide) hlacks).trans (hversion hlacks).symm

end Plain

end Request

/-! ## 6. What is kept -/

theorem readDevice_boundRow (h : device.IsInt) (id : ℕ) : readDevice (id, boundRow device) = {
    id := columnInt (some id)
    name := cString device.name
    ip := cString device.ip
    port := device.port
    sampleIntervalMs := device.sampleIntervalMs
    status := device.status
    model := cString device.model
    modelVersion := cString device.modelVersion
    driverPath := cString device.driverPath } := by
  simp only [readDevice, boundRow, columnInt_of_isInt h.port, columnInt_of_isInt h.sampleIntervalMs,
    columnInt_of_isInt h.status]
  rfl

/-- The status that is written: a string that mentions the key counts as a status. -/
theorem keepStatus_status_iff {status : ℤ} (hstatus : r.readStatus = .ok status)
    (hdevice : device.status = status) (before : Device) :
    (keepStatus device (namesStatus r.text) before).status = before.status ↔
      (r.Mentions NumberKey.status.name ∨ r.Mentions NumberKey.capitalStatus.name →
        r.readStatus = .ok before.status) := by
  rw [← r.namesStatus_text, hstatus]
  cases namesStatus r.text with
  | true => simp [keepStatus, hdevice]
  | false => simp [keepStatus]

/-- The row that is written has the stored values, as far as the request leaves them out. -/
theorem keeps_iff_agrees (hparse : parseDeviceUpsert r.text = .ok device) :
    r.Keeps (readDevice x)
        (readDevice (x.1, boundRow (keepStatus device (namesStatus r.text) (readDevice x)))) ↔
      r.Agrees (readDevice x) := by
  have hint := (parseDeviceUpsert_isInt hparse).keepStatus (namesStatus r.text) x
  obtain ⟨sampleIntervalMs, status, ⟨ip, port⟩, hsample, hstatus, haddress, hdevice⟩ :=
    Request.parse_text.mp hparse
  have hkept := @keepStatus_status_iff r device _ hstatus (by rw [hdevice]) (readDevice x)
  rw [readDevice_boundRow hint]
  have hupsert : ∀ hasStatus before, keepStatus device hasStatus before =
      { device with status := (keepStatus device hasStatus before).status } := by
    intro hasStatus before
    cases hasStatus <;> rfl
  rw [hupsert, hdevice]
  rw [hdevice] at hkept
  constructor
  · intro h
    refine ⟨fun hlacks => ⟨ip, port, haddress, h.address hlacks⟩, fun hlacks => ?_,
      fun hlacks => hkept.mp (h.status hlacks), h.driverPath, h.modelVersion⟩
    rw [hsample]
    exact congrArg _ (h.sampleInterval hlacks)
  · intro h
    refine ⟨fun hlacks => ?_, fun hlacks => ?_, fun hlacks => hkept.mpr (h.status hlacks),
      h.driverPath, h.modelVersion⟩
    · obtain ⟨ip', port', haddress', hsame⟩ := h.address hlacks
      cases haddress.symm.trans haddress'
      exact hsame
    · exact Except.ok.inj (hsample.symm.trans (h.sampleInterval hlacks))

end Row

/-- After an `update_device`, a stored device keeps the fields that the request leaves out if and
only if the request does not update it, or it is stored as the parser fills the request in: with the
parser's constants, when no string of the request is taken for a key. -/
theorem keepsAbsent_iff {models : ModelRepository} {r : Request} {t : Database} {x : ℕ × DeviceRow}
    (hx : x ∈ t.device.rows) :
    (r.KeepsAbsent models t x ↔ (r.Updates t x → r.Agrees (readDevice x))) ∧
      (r.Plain → (r.Agrees (readDevice x) ↔ r.StoresDefaults (readDevice x))) := by
  refine ⟨?_, Request.agrees_iff⟩
  rcases row_handleDevice (r := r) models hx with ⟨hno, hmem⟩ | ⟨device, hupdates, hparse, hmem⟩
  · exact ⟨fun _ h => absurd h hno, fun _ => ⟨x, hmem, rfl, fun _ => ⟨rfl, rfl⟩, fun _ => rfl,
      fun _ => rfl, fun _ => rfl, fun _ => rfl⟩⟩
  · rw [← keeps_iff_agrees hparse]
    constructor
    · rintro ⟨y, hy, hid, hkeeps⟩ -
      rwa [AutoTable.eq_of_id_eq hy hmem hid] at hkeeps
    · exact fun h => ⟨_, hmem, rfl, h hupdates⟩

/-- A command that names a device and its model, and nothing else. -/
def bareUpdate : Request where
  type := { value := lit "json" }
  uid := { value := lit "admin" }
  pid := { value := lit "1" }
  category := { value := lit "update_device" }
  members := [.text {} .deviceName (lit "A"), .text {} .model (lit "M")]
  distinct := by decide
  mid := { value := lit "7" }

/-- The creation of a device behind an address of its own. -/
def createRemote : Request where
  type := { value := lit "json" }
  uid := { value := lit "admin" }
  pid := { value := lit "1" }
  category := { value := lit "create_device" }
  members := [.text {} .deviceName (lit "A"), .text {} .model (lit "M"),
    .text {} .addr (lit "10.0.0.5:9100")]
  distinct := by decide
  mid := { value := lit "6" }

/-- The row that it creates. -/
def remoteRow : DeviceRow :=
  boundRow { deviceA with ip := lit "10.0.0.5", port := 9100 }

def remoteTables : Database := runEvents .empty [.request oneModel .createDevice createRemote.text]

theorem remoteRow_mem : (1, remoteRow) ∈ remoteTables.device.rows := by decide +kernel

theorem keepsAbsent_bareUpdate :
    (bareUpdate.KeepsAbsent oneModel remoteTables (1, remoteRow) ↔
      (bareUpdate.Updates remoteTables (1, remoteRow) →
        bareUpdate.Agrees (readDevice (1, remoteRow)))) ∧
      (bareUpdate.Plain → (bareUpdate.Agrees (readDevice (1, remoteRow)) ↔
        bareUpdate.StoresDefaults (readDevice (1, remoteRow)))) :=
  keepsAbsent_iff remoteRow_mem

/-- The device is sent to the mock driver. -/
theorem bareUpdate_moves : ¬ ∀ (models : ModelRepository) (r : Request) (t : Database),
    ∀ x ∈ t.device.rows, r.category.value = lit "update_device" →
      r.textParam .deviceName = (readDevice x).name → r.textParam .model ≠ [] →
        r.KeepsAbsent models t x := by
  intro h
  obtain ⟨y, hy, -, hkeeps⟩ :=
    h oneModel bareUpdate remoteTables _ remoteRow_mem rfl rfl (by decide)
  have hrows : ((handleDevice oneModel .updateDevice bareUpdate.text).run
      remoteTables).2.device.rows = [(1, boundRow deviceA)] := by decide +kernel
  rw [hrows, List.mem_singleton] at hy
  subst hy
  have hlacks : bareUpdate.Lacks Request.addressKeys := by
    unfold Request.Lacks
    decide
  exact absurd (hkeeps.address hlacks).2 (by decide)

end CollectorService.CommandText
