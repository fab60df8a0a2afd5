import CollectorService.RequestTarget
import CollectorService.Session

/-!
# `HttpRouter`

The routes of the HTTP interface. A route decides on a status and on what its body says, which
`Reply.toJson` writes; the task routes build the text of a command and hand it to
`CommandProcessor::handle`.
-/

namespace CollectorService

/-- What the body of a response says. -/
inductive Reply where
  | health
  | devices (devices : List Device)
  | statuses (statuses : List DeviceStatus)
  | status (status : DeviceStatus)
  | records (records : List ResourceRecord)
  | command (answer : Answer)
  | error (message : Str)

def Reply.toJson : Reply → Str
  | .health => lit "\x7b\"success\":true,\"service\":\"collector-service\"\x7d"
  | .devices items => jsonSuccess (arrayToJson Device.toJson items)
  | .statuses items => jsonSuccess (arrayToJson DeviceStatus.toJson items)
  | .status item => jsonSuccess item.toJson
  | .records items => jsonSuccess (arrayToJson ResourceRecord.toJson items)
  | .command a => a.toJson
  | .error message => jsonError message

namespace HttpRouter

open Session (onConnection)

/-- `commandEnvelope`. -/
def commandEnvelope (category deviceName mid : Str) : Str :=
  lit "\x7b\"type\":\"json\",\"uid\":\"http\",\"pid\":\"http\",\"cmd\":\x7b\"category\":\"" ++
  escapeJson category ++ lit "\",\"params\":\x7b" ++
  (if deviceName = [] then [] else
    lit "\"device_name\":\"" ++ escapeJson deviceName ++ lit "\"") ++
  lit "\x7d\x7d,\"mid\":\"" ++ escapeJson mid ++ lit "\"\x7d"

def findStatusOrDefault (statuses : List DeviceStatus) (deviceName : Str) : Session DeviceStatus :=
  match statuses.find? (·.deviceName = deviceName) with
  | some status => return status
  | none => do
    if !(← onConnection (SQLiteManager.deviceExists deviceName)) then
      Session.throw (lit "device not found: " ++ deviceName)
    return { deviceName }

/-- `path.find(part) != std::string::npos`. -/
def contains (path part : Str) : Bool := (Search.afterFirst part path).isSome

/-- `GET /status`. -/
def statusRoute (target : Str) : Session (HttpStatus × Reply) := do
  let deviceName := queryParam target (lit "device")
  let statuses ← Session.getStatus
  if deviceName = [] then return (.ok, .statuses statuses)
  return (.ok, .status (← findStatusOrDefault statuses deviceName))

/-- `GET /latest`. -/
def latestRoute (target : Str) : Session (HttpStatus × Reply) := do
  let deviceName := queryParam target (lit "device")
  if deviceName = [] then return (.badRequest, .error (lit "device query parameter is required"))
  return (.ok, .records (← onConnection (SQLiteManager.getLatestResources deviceName)))

/-- `GET /devices/<name>/status`. -/
def deviceStatusRoute (path : Str) : Session (HttpStatus × Reply) := do
  let deviceName := betweenPath path (lit "/devices/") (lit "/status")
  let statuses ← Session.getStatus
  return (.ok, .status (← findStatusOrDefault statuses deviceName))

/-- `GET /devices/<name>/resources/latest`. -/
def deviceLatestRoute (path : Str) : Session (HttpStatus × Reply) := do
  let deviceName := betweenPath path (lit "/devices/") (lit "/resources/latest")
  return (.ok, .records (← onConnection (SQLiteManager.getLatestResources deviceName)))

/-- `POST /tasks/start` and `POST /tasks/stop`: without a device the command for all devices. -/
def taskRoute (models : ModelRepository) (target all one mid : Str) :
    Session (HttpStatus × Reply) := do
  let deviceName := queryParam target (lit "device")
  let category := if deviceName = [] then all else one
  return (.ok, .command
    (← CommandProcessor.answer models (commandEnvelope category deviceName mid)))

/-- The `try` block of `route`. -/
def dispatch (models : ModelRepository) (request : HttpRequest) : Session (HttpStatus × Reply) :=
  let method := request.method
  let target := request.target
  let path := pathOnly target
  if method = .get ∧ path = lit "/health" then return (.ok, .health)
  else if method = .get ∧ path = lit "/devices" then do
    return (.ok, .devices (← onConnection SQLiteManager.getDevices))
  else if method = .get ∧ (path = lit "/status" ∨ path = lit "/devices/status") then
    statusRoute target
  else if method = .get ∧ path = lit "/latest" then latestRoute target
  else if method = .get ∧ lit "/devices/" <+: path ∧ contains path (lit "/status") then
    deviceStatusRoute path
  else if method = .get ∧ lit "/devices/" <+: path ∧ contains path (lit "/resources/latest") then
    deviceLatestRoute path
  else if method = .post ∧ path = lit "/commands" then do
    return (.ok, .command (← CommandProcessor.answer models request.body))
  else if method = .post ∧ path = lit "/tasks/start" then
    taskRoute models target (lit "start_all") (lit "start_device_collect") (lit "http-start")
  else if method = .post ∧ path = lit "/tasks/stop" then
    taskRoute models target (lit "stop_all") (lit "stop_device_collect") (lit "http-stop")
  else return (.notFound, .error (lit "route not found: " ++ path))

def route (models : ModelRepository) (request : HttpRequest) : Session HttpResponse := do
  let (status, reply) ← Session.tryCatch (dispatch models request)
    fun e => (.internalServerError, .error e)
  return makeResponse status reply.toJson request.version request.keepAlive

end HttpRouter

end CollectorService
