import CollectorService.AbsentFields
import CollectorService.JsonReading
import CollectorService.LiveDevices
import CollectorService.Replies
import CollectorService.Timestamps

/-!
# A device from the client and back

A client describes a device in the JSON of `create_device`; the service reads the fields by text search,
stores a row, and serves the devices as JSON at `GET /devices`.

* `parse_of_sends`: what the parser reads is what the client has sent, when no string of the request
  is taken for a key.
* `served_of_created`: when the command is answered with 200, a JSON reader finds the devices that were
  there before and behind them the device that was sent.
-/

namespace CollectorService

open CommandText
open CommandParser (parseAddr parseDeviceUpsert)
open DeviceRepository (boundRow readDevice)
open Json (Value)

/-! ## 1. Addresses -/

section Addresses
variable {n : IntLiteral}

theorem colon_notMem_text (n : IntLiteral) : byte ':' ∉ n.text := fun hmem =>
  absurd (n.isIntChar_text _ hmem) (by decide)

/-- The host may have colons of its own. -/
theorem parseAddr_hostPort (host other : Str) (fallback : ℤ) (n : IntLiteral) :
    parseAddr (host ++ byte ':' :: n.text) other fallback = .ok (host, n.value) := by
  have htail : ((host ++ byte ':' :: n.text).reverse.takeWhile (· ≠ byte ':')).reverse = n.text := by
    have hreverse : (host ++ byte ':' :: n.text).reverse =
        n.text.reverse ++ byte ':' :: host.reverse := by simp
    rw [hreverse, List.takeWhile_append_of_pos fun ch hch => ?_, List.takeWhile_cons_of_neg (by simp),
      List.append_nil, List.reverse_reverse]
    have hne : ch ≠ byte ':' := fun heq => colon_notMem_text n (heq ▸ List.mem_reverse.mp hch)
    simpa using hne
  have hlength := congrArg List.length htail
  rw [List.length_reverse] at hlength
  have hhost : (host ++ byte ':' :: n.text).take
      ((host ++ byte ':' :: n.text).length - n.text.length - 1) = host := by
    refine List.take_left' ?_
    simp only [List.length_append, List.length_cons]
    omega
  unfold parseAddr
  rw [if_neg (by simp), if_neg (by simp)]
  simp only [htail, n.stoi_text, hlength, hhost]
  rfl

end Addresses

/-! ## 2. What a client sends -/

namespace CommandText.Request

variable (r : Request)

/-- Only a key is the quoted name, and no string ends with it. -/
def OnlyKeys (name : Str) : Prop := ∀ e ∈ r.entries, e.Mentions name → e.key = name

/-- No string of the request is taken for a key that `create_device` reads. -/
structure Unambiguous : Prop where
  category : r.OnlyKeys (lit "category")
  texts : ∀ key : TextKey, r.OnlyKeys key.name
  numbers : ∀ key : NumberKey, r.OnlyKeys key.name

/-- The address of the device: under `addr`, or else under `IpAddr`. -/
def addressText : Str :=
  if r.textParam .addr = [] then r.textParam .ipAddr else r.textParam .addr

/-- The host and the port that the request gives: both in the address, around its last colon; the host
in the address and the port on its own; or, without an address, both on their own. What is missing is
the empty host, or the port 0. -/
inductive SendsAddress : Str → ℤ → Prop
  | hostPort (host : Str) (port : IntLiteral)
      (htext : r.addressText = host ++ byte ':' :: port.text) : SendsAddress host port.value
  | host (hsent : r.addressText ≠ []) (hcolon : byte ':' ∉ r.addressText) :
      SendsAddress r.addressText (r.numberParam .port 0)
  | apart (hsent : r.addressText = []) :
      SendsAddress (r.textParam .ip) (r.numberParam .port 0)

/-- The request describes this device; what it leaves out has its default. -/
structure Sends (device : DeviceUpsert) : Prop where
  category : r.category.value = lit "create_device"
  oldName : r.textParam .oldDeviceName = device.oldName
  name : r.textParam .deviceName = device.name
  model : r.textParam .model = device.model
  modelVersion : r.textParam .modelVersion = device.modelVersion
  driverPath : r.textParam .driverPath = device.driverPath
  sampleInterval : r.numberParam .sampleInterval 1000 = device.sampleIntervalMs
  status : r.numberParam .capitalStatus (r.numberParam .status 1) = device.status
  address : ∃ host port, r.SendsAddress host port ∧
    (if host = [] then lit "127.0.0.1" else host) = device.ip ∧
    (if port = 0 then 9001 else port) = device.port

end CommandText.Request

section Reading
variable {r : Request} {device : DeviceUpsert}

theorem readText_of_onlyKeys {key : TextKey} (h : r.OnlyKeys key.name) :
    extractStringField r.text key.name = r.textParam key := by
  have hiff := extractStringField_iff key.fieldName r.fieldName_key
    fun e he hkey => r.string_of_textKey key he hkey
  rw [← r.text_eq, r.memberValue_param key.name_notMem] at hiff
  exact hiff.mpr fun pre e post hfirst => .inl (h e (by simp [hfirst.split]) hfirst.mentions)

theorem readInt_of_onlyKeys {key : NumberKey} (h : r.OnlyKeys key.name) (fallback : ℤ) :
    extractIntField r.text key.name fallback = .ok (r.numberParam key fallback) := by
  have hiff := @extractIntField_iff _ fallback _ key.fieldName r.fieldName_key
    fun e he hkey => r.number_of_numberKey key he hkey
  rw [← r.text_eq, r.memberValue_param key.name_notMem] at hiff
  exact hiff.mpr fun pre e post hfirst => .inl (h e (by simp [hfirst.split]) hfirst.mentions)

theorem readCategory_of_onlyKeys (h : r.OnlyKeys (lit "category")) :
    extractStringField r.text (lit "category") = r.category.value := by
  have hiff := extractStringField_iff (show FieldName (lit "category") by decide) r.fieldName_key
    fun e he hkey => r.string_of_envelope (.inl rfl) he hkey
  rw [← r.text_eq, r.memberValue_category] at hiff
  exact hiff.mpr fun pre e post hfirst => .inl (h e (by simp [hfirst.split]) hfirst.mentions)

theorem parseAddr_of_sends (hr : r.Unambiguous) {host : Str} {port : ℤ}
    (h : r.SendsAddress host port) :
    parseAddr (CommandParser.addrField r.text) (CommandParser.ipField r.text) (r.numberParam .port 0) =
      .ok (host, port) := by
  have haddr : extractStringField r.text (lit "addr") = r.textParam .addr :=
    readText_of_onlyKeys (hr.texts .addr)
  have hipAddr : extractStringField r.text (lit "IpAddr") = r.textParam .ipAddr :=
    readText_of_onlyKeys (hr.texts .ipAddr)
  have hip : extractStringField r.text (lit "ip") = r.textParam .ip :=
    readText_of_onlyKeys (hr.texts .ip)
  have hfield : CommandParser.addrField r.text = r.addressText := by
    rw [CommandParser.addrField, haddr, hipAddr]
    rfl
  rw [hfield]
  cases h with
  | hostPort host port htext => rw [htext, parseAddr_hostPort]
  | host hsent hcolon => rw [parseAddr, if_neg hsent, if_pos hcolon]
  | apart hsent =>
    have hnone : r.textParam .ipAddr = [] := by
      unfold Request.addressText at hsent
      split at hsent
      · exact hsent
      · next hgiven => exact absurd hsent hgiven
    rw [parseAddr, if_pos hsent, CommandParser.ipField, hipAddr, if_pos hnone, hip]

/-- The parser reads the device that the client describes. -/
theorem parse_of_sends (hr : r.Unambiguous) (h : r.Sends device) :
    parseDeviceUpsert r.text = .ok device := by
  have htext (key : TextKey) : extractStringField r.text key.name = r.textParam key :=
    readText_of_onlyKeys (hr.texts key)
  have hint (key : NumberKey) (fallback : ℤ) :
      extractIntField r.text key.name fallback = .ok (r.numberParam key fallback) :=
    readInt_of_onlyKeys (hr.numbers key) fallback
  obtain ⟨host, port, haddress, hhost, hport⟩ := h.address
  refine CommandParser.parseDeviceUpsert_eq_ok.mpr ⟨_, _, _, _, _, _, hint .sampleInterval 1000,
    hint .status 1, hint .capitalStatus _, hint .port 0, parseAddr_of_sends hr haddress, ?_⟩
  have hold := htext .oldDeviceName
  have hname := htext .deviceName
  have hmodel := htext .model
  have hversion := htext .modelVersion
  have hdriver := htext .driverPath
  simp only [TextKey.name] at hold hname hmodel hversion hdriver
  rw [hold, hname, hmodel, hversion, hdriver, h.oldName, h.name, h.model, h.modelVersion, h.driverPath,
    h.sampleInterval, h.status, hhost, hport]

end Reading

/-! ## 3. The command and the list of devices -/

/-- The device under its id. -/
def DeviceUpsert.served (device : DeviceUpsert) (id : ℤ) : Device where
  id := id
  name := device.name
  ip := device.ip
  port := device.port
  sampleIntervalMs := device.sampleIntervalMs
  status := device.status
  model := device.model
  modelVersion := device.modelVersion
  driverPath := device.driverPath

section Service
variable {models : ModelRepository} {r : Request} {device : DeviceUpsert} {t : Database} {n : ℕ}
  {s : DeviceStatusStore} {result : CommandResult} {p' : Process}

/-- A command that creates a device and is answered with 200 has appended its row. -/
theorem createDevice_code {mid : Str}
    (h : ((CommandProcessor.createDevice models device mid).run t).1 = .ok result)
    (hcode : result.code = 200) : t.device.insert? (boundRow device) =
      some ((CommandProcessor.createDevice models device mid).run t).2.device := by
  have hrefused (message : Str) : CommandProcessor.errorResult mid message ≠ result := by
    rintro rfl
    cases hcode
  rw [CommandProcessor.createDevice_run] at h ⊢
  split at h
  · exact absurd (Except.ok.inj h) (hrefused _)
  split at h
  · exact absurd (Except.ok.inj h) (hrefused _)
  split at h
  · exact absurd (Except.ok.inj h) (hrefused _)
  split at h
  · cases h
  · next hname hmodel _ hnamed _ t₁ hcreate =>
    rw [if_neg hname, if_neg hmodel]
    dsimp only
    rw [DataTask.initDataPointsByDevice_device]
    unfold DeviceRepository.createEffect at hcreate
    split at hcreate
    · next u hu =>
      cases hcreate
      exact hu
    · cases hcreate

/-- Without failures the command does to the tables what its program does that runs alone. -/
theorem answer_createDevice (hr : r.Unambiguous) (hsends : r.Sends device)
    (hanswer : CommandProcessor.answer models r.text ⟨healthy t none n, s⟩ =
      some (.ok (.result result), p')) (hcode : result.code = 200) :
    ∃ u n', t.device.insert? (boundRow device) = some u.device ∧ p' = ⟨healthy u none n', s⟩ := by
  have halone : Sql.Alone (OnConnection.handleCreateDevice models r.text
      (extractStringField r.text (lit "mid")))
      (CommandProcessor.createDevice models device (extractStringField r.text (lit "mid"))) := by
    unfold OnConnection.handleCreateDevice
    rw [parse_of_sends hr hsends]
    exact OnConnection.createDevice_alone _ _ _
  obtain ⟨n', hrun⟩ := halone t n
  have hcategory : extractStringField r.text (lit "category") = lit "create_device" :=
    (readCategory_of_onlyKeys hr.category).trans hsends.category
  simp only [CommandProcessor.answer, CommandProcessor.dispatch, hcategory, if_true,
    Session.tryCatch, Session.bind_apply, Session.onConnection, hrun] at hanswer
  cases hresult : ((CommandProcessor.createDevice models device
      (extractStringField r.text (lit "mid"))).run t).1 with
  | error e =>
    simp only [hresult, Option.some.injEq, Prod.mk.injEq, Except.ok.injEq, Answer.result.injEq]
      at hanswer
    obtain ⟨rfl, -⟩ := hanswer
    cases hcode
  | ok result' =>
    simp only [hresult, Session.pure_apply, Option.some.injEq, Prod.mk.injEq, Except.ok.injEq,
      Answer.result.injEq] at hanswer
    obtain ⟨rfl, rfl⟩ := hanswer
    exact ⟨_, n', createDevice_code hresult hcode, rfl⟩

theorem route_devices (models : ModelRepository) (t : Database) (n : ℕ) (s : DeviceStatusStore) :
    ∃ n', HttpRouter.route models { method := .get, target := lit "/devices" }
      ⟨healthy t none n, s⟩ = some (.ok (makeResponse .ok
        (Reply.devices (t.device.rows.map readDevice)).toJson 11 true), ⟨healthy t none n', s⟩) := by
  have hpath : HttpRouter.pathOnly (lit "/devices") = lit "/devices" := by decide
  have hhealth : lit "/devices" ≠ lit "/health" := by decide
  obtain ⟨n', hrun⟩ : ∃ n', SQLiteManager.getDevices (healthy t none n) =
      (.ok (t.device.rows.map readDevice), healthy t none n') := by
    refine ⟨n + 1 + t.device.rows.length + 1, ?_⟩
    simp [SQLiteManager.getDevices, DeviceRepository.getAll, Sql.bind_apply]
  refine ⟨n', ?_⟩
  simp only [HttpRouter.route, HttpRouter.dispatch, hpath, hhealth, true_and, if_false, if_true,
    Session.tryCatch, Session.bind_apply, Session.onConnection, hrun, Session.pure_apply]

/-- Without NUL bytes the stored device is the one that was sent. -/
theorem readDevice_served (hint : device.IsInt)
    (hclean : ∀ leaf ∈ (device.served 0).leaves, leaf.Clean) (id : ℕ) :
    readDevice (id, boundRow device) = device.served (columnInt (some id)) := by
  have hplain : ∀ value, .text value ∈ (device.served 0).leaves → cString value = value := by
    intro value hvalue
    exact cString_of_notMem fun hzero => (hclean _ hvalue).1 0 hzero (by decide)
  rw [readDevice_boundRow hint, hplain device.name (by simp [DeviceUpsert.served, Device.leaves]),
    hplain device.ip (by simp [DeviceUpsert.served, Device.leaves]),
    hplain device.model (by simp [DeviceUpsert.served, Device.leaves]),
    hplain device.modelVersion (by simp [DeviceUpsert.served, Device.leaves]),
    hplain device.driverPath (by simp [DeviceUpsert.served, Device.leaves])]
  rfl

/-- A device as a JSON reader finds it. -/
def Device.json (device : Device) : Value := .object
  [(lit "id", .number (decimal device.id)), (lit "name", .string device.name),
    (lit "ip", .string device.ip), (lit "port", .number (decimal device.port)),
    (lit "sampleIntervalMs", .number (decimal device.sampleIntervalMs)),
    (lit "status", .number (decimal device.status)), (lit "model", .string device.model),
    (lit "model_version", .string device.modelVersion),
    (lit "driver_path", .string device.driverPath)]

/-- What a JSON reader finds in a list of devices. -/
theorem devices_document {items : List Device}
    (hclean : ∀ d ∈ items, ∀ leaf ∈ d.leaves, leaf.Clean) :
    IsUtf8 (Reply.devices items).toJson ∧ ∀ v : Value, v.Text (Reply.devices items).toJson ↔
      v = .object [(lit "success", .bool true), (lit "data", .array (items.map Device.json))] := by
  have hleaves : ∀ leaf ∈ (Reply.devices items).leaves, leaf.Clean := by
    intro leaf hleaf
    obtain ⟨d, hd, hleaf⟩ := List.mem_flatMap.mp hleaf
    exact hclean d hd leaf hleaf
  obtain ⟨htext, hutf8⟩ := (@Reply.isDocument_iff (fun _ => []) (.devices items) trivial).mpr hleaves
  have hvalue : ((Reply.devices items).part fun _ => []).value =
      .object [(lit "success", .bool true), (lit "data", .array (items.map Device.json))] := by
    simp only [Reply.part, successPart, Part.object, Part.array, Part.bool, List.map_cons, List.map_nil,
      List.map_map]
    rfl
  rw [hvalue] at htext
  refine ⟨hutf8, fun v => ⟨fun hv => hv.unique htext, ?_⟩⟩
  rintro rfl
  exact htext

/-- When a request that describes a device is answered with 200, `GET /devices` serves a JSON document in
which every reader finds the devices that were there before and then the device that was described, with
the values that the client has sent. -/
theorem served_of_created (hr : r.Unambiguous) (hsends : r.Sends device)
    (hclean : ∀ leaf ∈ (device.served 0).leaves, leaf.Clean)
    (hold : ∀ x ∈ t.device.rows, ∀ leaf ∈ (readDevice x).leaves, leaf.Clean)
    (hanswer : CommandProcessor.answer models r.text ⟨healthy t none n, s⟩ =
      some (.ok (.result result), p')) (hcode : result.code = 200) :
    ∃ id response p'', HttpRouter.route models { method := .get, target := lit "/devices" } p' =
      some (.ok response, p'') ∧ response.status = .ok ∧ IsUtf8 response.body ∧
      ∀ v : Value, v.Text response.body ↔ v = .object [(lit "success", .bool true),
        (lit "data", .array (t.device.rows.map (fun x => (readDevice x).json) ++
          [(device.served id).json]))] := by
  obtain ⟨u, n', hinsert, rfl⟩ := answer_createDevice hr hsends hanswer hcode
  obtain ⟨n'', hroute⟩ := route_devices models u n' s
  obtain ⟨-, hrows, -⟩ := AutoTable.insert?_eq_some.mp hinsert
  obtain ⟨id, hid⟩ : ∃ id, readDevice (t.device.seq + 1, boundRow device) = device.served id :=
    ⟨_, readDevice_served (parseDeviceUpsert_isInt (parse_of_sends hr hsends)) hclean _⟩
  have hdevices : u.device.rows.map readDevice =
      t.device.rows.map readDevice ++ [device.served id] := by
    rw [hrows, List.map_append, List.map_singleton, hid]
  rw [hdevices] at hroute
  have hleaves : ∀ d ∈ t.device.rows.map readDevice ++ [device.served id],
      ∀ leaf ∈ d.leaves, leaf.Clean := by
    intro d hd
    rcases List.mem_append.mp hd with hd | hd
    · obtain ⟨x, hx, rfl⟩ := List.mem_map.mp hd
      exact hold x hx
    · cases List.mem_singleton.mp hd
      exact hclean
  obtain ⟨hutf8, htext⟩ := devices_document hleaves
  rw [List.map_append, List.map_map] at htext
  exact ⟨id, _, _, hroute, rfl, hutf8, htext⟩

end Service

/-- A device with a driver of its own. -/
def remoteDevice : DeviceUpsert where
  name := lit "A"
  ip := lit "10.0.0.5"
  port := 9100
  sampleIntervalMs := 1000
  model := lit "M"

/-- Its port, as the address spells it. -/
def portLiteral : IntLiteral where
  negative := false
  digits := lit "9100"
  nonempty := by decide
  decimal := by decide
  lower := by decide
  upper := by decide

instance (r : Request) (name : Str) : Decidable (r.OnlyKeys name) :=
  inferInstanceAs (Decidable (∀ e ∈ r.entries, e.Mentions name → e.key = name))

theorem createRemote_unambiguous : createRemote.Unambiguous where
  category := by decide +kernel
  texts key := by cases key <;> decide +kernel
  numbers key := by cases key <;> decide +kernel

theorem createRemote_sends : createRemote.Sends remoteDevice where
  category := rfl
  oldName := by decide +kernel
  name := by decide +kernel
  model := by decide +kernel
  modelVersion := by decide +kernel
  driverPath := by decide +kernel
  sampleInterval := by decide +kernel
  status := by decide +kernel
  address := ⟨_, _, .hostPort (lit "10.0.0.5") portLiteral (by decide +kernel), by decide, by decide⟩

/-- The client creates the device and finds it. -/
theorem served_of_created_remote : ∃ result p', CommandProcessor.answer oneModel createRemote.text
    ⟨healthy .empty none 0, {}⟩ = some (.ok (.result result), p') ∧ result.code = 200 ∧
    ∃ id response p'', HttpRouter.route oneModel { method := .get, target := lit "/devices" } p' =
      some (.ok response, p'') ∧ response.status = .ok ∧ IsUtf8 response.body ∧
      ∀ v : Value, v.Text response.body ↔ v = .object [(lit "success", .bool true),
        (lit "data", .array [(remoteDevice.served id).json])] := by
  have hanswer : ((CommandProcessor.answer oneModel createRemote.text
      ⟨healthy .empty none 0, {}⟩).bind fun x => x.1.toOption.bind Answer.result?).map (·.code) =
        some 200 := by decide +kernel
  obtain ⟨result, hresult, hcode⟩ := Option.map_eq_some_iff.mp hanswer
  obtain ⟨⟨e | r' | items, p'⟩, hrun, hr⟩ := Option.bind_eq_some_iff.mp hresult
  · cases hr
  · cases hr
    have hclean : ∀ leaf ∈ (remoteDevice.served 0).leaves, leaf.Clean := by
      simp only [DeviceUpsert.served, Device.leaves, remoteDevice, List.forall_mem_cons,
        List.not_mem_nil, false_imp_iff, implies_true, and_true]
      exact ⟨⟨by decide, .of_ascii (by decide)⟩, ⟨by decide, .of_ascii (by decide)⟩,
        ⟨by decide, .of_ascii (by decide)⟩, ⟨by decide, .nil⟩, ⟨by decide, .nil⟩⟩
    exact ⟨result, p', hrun, hcode, served_of_created createRemote_unambiguous createRemote_sends hclean
      (fun _ hx => absurd hx List.not_mem_nil) hrun hcode⟩
  · cases hr

end CollectorService
