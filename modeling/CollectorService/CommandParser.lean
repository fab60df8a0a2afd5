import CollectorService.Models

/-!
# Command parser

Fields of a command are found by text search; see `extractStringField` and `extractIntField`.
-/

namespace CollectorService.CommandParser

/-- `parseAddr`: host and port around the last colon. -/
def parseAddr (addr ip : Str) (port : ℤ) : Except Str (Str × ℤ) :=
  if addr = [] then .ok (ip, port)
  else if byte ':' ∉ addr then .ok (addr, port)
  else do
    let tail := addr.reverse.takeWhile (· ≠ byte ':')
    let port ← stoi tail.reverse
    return (addr.take (addr.length - tail.length - 1), port)

def parseDeviceUpsert (text : Str) : Except Str DeviceUpsert := do
  let oldName := extractStringField text (lit "old_device_name")
  let name := extractStringField text (lit "device_name")
  let model := extractStringField text (lit "model")
  let modelVersion := extractStringField text (lit "model_version")
  let driverPath := extractStringField text (lit "driver_path")
  let sampleIntervalMs ← extractIntField text (lit "SampleInterval") 1000
  let status ← extractIntField text (lit "status") 1
  let status ← extractIntField text (lit "Status") status
  let ip := extractStringField text (lit "IpAddr")
  let ip := if ip = [] then extractStringField text (lit "ip") else ip
  let port ← extractIntField text (lit "Port") 0
  let addr := extractStringField text (lit "addr")
  let addr := if addr = [] then extractStringField text (lit "IpAddr") else addr
  let (ip, port) ← parseAddr addr ip port
  let port := if port = 0 then 9001 else port
  let ip := if ip = [] then lit "127.0.0.1" else ip
  return { oldName, name, ip, port, sampleIntervalMs, status, model, modelVersion, driverPath }

section Outcomes
variable {text : Str} {device : DeviceUpsert}

theorem bind_eq_ok {α β : Type} {r : Except Str α} {f : α → Except Str β} {b : β} :
    (r >>= f) = .ok b ↔ ∃ a, r = .ok a ∧ f a = .ok b := by
  cases r with
  | error e => exact ⟨nofun, fun ⟨a, h, _⟩ => nomatch h⟩
  | ok a => exact ⟨fun h => ⟨a, rfl, h⟩, fun ⟨a', h, hf⟩ => Except.ok.inj h ▸ hf⟩

/-- The address without a port: under `IpAddr`, else under `ip`. -/
def ipField (text : Str) : Str :=
  let ip := extractStringField text (lit "IpAddr")
  if ip = [] then extractStringField text (lit "ip") else ip

/-- The address that may have a port: under `addr`, else under `IpAddr`. -/
def addrField (text : Str) : Str :=
  let addr := extractStringField text (lit "addr")
  if addr = [] then extractStringField text (lit "IpAddr") else addr

/-- The request that the searches give, when none of them throws. -/
theorem parseDeviceUpsert_eq_ok : parseDeviceUpsert text = .ok device ↔
    ∃ sampleIntervalMs first status portField ip port,
      extractIntField text (lit "SampleInterval") 1000 = .ok sampleIntervalMs ∧
      extractIntField text (lit "status") 1 = .ok first ∧
      extractIntField text (lit "Status") first = .ok status ∧
      extractIntField text (lit "Port") 0 = .ok portField ∧
      parseAddr (addrField text) (ipField text) portField = .ok (ip, port) ∧
      device = {
        oldName := extractStringField text (lit "old_device_name")
        name := extractStringField text (lit "device_name")
        ip := if ip = [] then lit "127.0.0.1" else ip
        port := if port = 0 then 9001 else port
        sampleIntervalMs
        status
        model := extractStringField text (lit "model")
        modelVersion := extractStringField text (lit "model_version")
        driverPath := extractStringField text (lit "driver_path") } := by
  simp only [parseDeviceUpsert, bind_eq_ok]
  constructor
  · rintro ⟨sampleIntervalMs, hsample, first, hfirst, status, hstatus, port, hport, ⟨ip', port'⟩,
      haddr, hdevice⟩
    exact ⟨sampleIntervalMs, first, status, port, ip', port', hsample, hfirst, hstatus, hport, haddr,
      (Except.ok.inj hdevice).symm⟩
  · rintro ⟨sampleIntervalMs, first, status, port, ip', port', hsample, hfirst, hstatus, hport,
      haddr, rfl⟩
    exact ⟨sampleIntervalMs, hsample, first, hfirst, status, hstatus, port, hport, (ip', port'),
      haddr, rfl⟩

theorem bind_eq_error {α β : Type} {r : Except Str α} {f : α → Except Str β} {e : Str} :
    (r >>= f) = .error e ↔ r = .error e ∨ ∃ a, r = .ok a ∧ f a = .error e := by
  cases r with
  | error e' =>
    constructor
    · rintro ⟨⟩
      exact .inl rfl
    · rintro (⟨⟨⟩⟩ | ⟨a, ⟨⟩, -⟩)
      rfl
  | ok a => exact ⟨fun h => .inr ⟨a, rfl, h⟩, fun
    | .inr ⟨a', h, hf⟩ => Except.ok.inj h ▸ hf⟩

theorem stoi_error {e : Str} (h : stoi text = .error e) : e = lit "stoi" := by
  simp only [stoi] at h
  split_ifs at h <;>
  · cases h
    rfl

theorem extractIntField_error {fieldName e : Str} {fallback : ℤ}
    (h : extractIntField text fieldName fallback = .error e) : e = lit "stoi" := by
  unfold extractIntField at h
  split at h
  · cases h
  split at h
  · cases h
  split at h
  · cases h
  · exact stoi_error h

theorem parseAddr_error {addr ip e : Str} {port : ℤ} (h : parseAddr addr ip port = .error e) :
    e = lit "stoi" := by
  unfold parseAddr at h
  split at h
  · cases h
  split at h
  · cases h
  rcases bind_eq_error.mp h with h | ⟨_, -, h⟩
  · exact stoi_error h
  · cases h

/-- The parser throws what `std::stoi` throws. -/
theorem parseDeviceUpsert_error {e : Str} (h : parseDeviceUpsert text = .error e) :
    e = lit "stoi" := by
  simp only [parseDeviceUpsert, bind_eq_error] at h
  obtain h | ⟨_, -, h | ⟨_, -, h | ⟨_, -, h | ⟨_, -, h | ⟨_, -, h⟩⟩⟩⟩⟩ := h
  · exact extractIntField_error h
  · exact extractIntField_error h
  · exact extractIntField_error h
  · exact extractIntField_error h
  · exact parseAddr_error h
  · cases h

end Outcomes

end CollectorService.CommandParser
