import CollectorService.Json
import CollectorService.JsonUtil
import CollectorService.Numbers

/-!
# Serializers

The JSON texts of the replies: `CommandJsonSerializer`, `HttpJsonSerializer` and `HttpResponse`. All
of them are concatenations around `escapeJson`.
-/

namespace CollectorService

/-! ## 1. Records -/

/-- The loops over a vector of records. -/
def arrayToJson {α : Type} (toJson : α → Str) (items : List α) : Str :=
  lit "[" ++ Json.commaSep (items.map toJson) ++ lit "]"

def Device.toJson (device : Device) : Str :=
  lit "\x7b\"id\":" ++ decimal device.id ++
  lit ",\"name\":\"" ++ escapeJson device.name ++
  lit "\",\"ip\":\"" ++ escapeJson device.ip ++
  lit "\",\"port\":" ++ decimal device.port ++
  lit ",\"sampleIntervalMs\":" ++ decimal device.sampleIntervalMs ++
  lit ",\"status\":" ++ decimal device.status ++
  lit ",\"model\":\"" ++ escapeJson device.model ++
  lit "\",\"model_version\":\"" ++ escapeJson device.modelVersion ++
  lit "\",\"driver_path\":\"" ++ escapeJson device.driverPath ++ lit "\"\x7d"

/-- A status, as both serializers write it. -/
def DeviceStatus.toJson (status : DeviceStatus) : Str :=
  lit "\x7b\"device_name\":\"" ++ escapeJson status.deviceName ++
  lit "\",\"connected\":" ++ boolText status.connected ++
  lit ",\"machineConnected\":" ++ boolText status.machineConnected ++
  lit ",\"failCount\":" ++ decimal status.failCount ++
  lit ",\"lastSuccessTime\":" ++ general status.lastSuccessTime ++
  lit ",\"error\":\"" ++ escapeJson status.error ++ lit "\"\x7d"

def ResourceRecord.toJson (record : ResourceRecord) : Str :=
  lit "\x7b\"device_name\":\"" ++ escapeJson record.deviceName ++
  lit "\",\"dataItemNamePath\":\"" ++ escapeJson record.dataItemNamePath ++
  lit "\",\"data\":" ++ (if record.data = [] then lit "[]" else record.data) ++
  lit ",\"devTime\":" ++ general record.devTime ++
  lit ",\"svrTime\":" ++ general record.svrTime ++
  lit ",\"dataItemPath\":\"" ++ escapeJson record.dataItemPath ++
  lit "\",\"dataItemName\":\"" ++ escapeJson record.dataItemName ++
  lit "\",\"dataItemDescription\":\"" ++ escapeJson record.dataItemDescription ++ lit "\"\x7d"

/-! ## 2. Answers to commands -/

def CommandResult.toJson (result : CommandResult) : Str :=
  lit "\x7b\"code\":" ++ decimal result.code ++
  lit ",\"msg\":\"" ++ escapeJson result.msg ++
  lit "\",\"mid\":\"" ++ escapeJson result.mid ++ lit "\"\x7d"

/-- `command::toJson` of the statuses. -/
def statusesToJson (statuses : List DeviceStatus) (mid : Str) : Str :=
  lit "\x7b\"code\":200,\"msg\":\"ok\",\"mid\":\"" ++ escapeJson mid ++
  lit "\",\"data\":" ++ arrayToJson DeviceStatus.toJson statuses ++ lit "\x7d"

/-! ## 3. Responses -/

def jsonSuccess (data : Str) : Str := lit "\x7b\"success\":true,\"data\":" ++ data ++ lit "\x7d"

def jsonError (message : Str) : Str :=
  lit "\x7b\"success\":false,\"error\":\"" ++ escapeJson message ++ lit "\"\x7d"

/-- The method of a request; the router asks for two of them. -/
inductive Verb where
  | get
  | post
  | other
  deriving DecidableEq

structure HttpRequest where
  method : Verb
  target : Str
  body : Str := []
  version : ℕ := 11
  keepAlive : Bool := true
  deriving DecidableEq

inductive HttpStatus where
  | ok
  | badRequest
  | notFound
  | internalServerError
  deriving DecidableEq

structure HttpResponse where
  status : HttpStatus
  version : ℕ
  server : Str
  contentType : Str
  keepAlive : Bool
  body : Str
  /-- `prepare_payload`. -/
  contentLength : ℕ
  deriving DecidableEq

def makeResponse (status : HttpStatus) (body : Str) (version : ℕ) (keepAlive : Bool) :
    HttpResponse where
  status
  version
  server := lit "collector-service"
  contentType := lit "application/json"
  keepAlive
  body
  contentLength := body.length

end CollectorService
