import CollectorService.JsonUtil
import CollectorService.Numbers
import Mathlib.Data.List.DropRight

/-!
# The mock driver

`MockDriverServer::handleQuery` finds the paths of a query by text search and answers each of them
with a fixed value.
-/

namespace CollectorService.MockDriverServer

def trim (value : Str) : Str := (value.dropWhile isspace).rdropWhile isspace

/-- The driver's loop over a string: without a closing quote it takes the rest of the text. -/
def scanValue : (escaped : Bool) → Str → Str
  | _, [] => []
  | true, ch :: rest => ch :: scanValue false rest
  | false, ch :: rest =>
    if ch = byte '\\' then scanValue true rest
    else if ch = byte '"' then []
    else ch :: scanValue false rest

def extractStringField (json fieldName : Str) : Str :=
  match Search.afterFirst (quoted fieldName) json with
  | none => []
  | some rest => match Search.fromFirst (· = byte ':') rest with
    | none => []
    | some rest => match Search.fromFirst (· = byte '"') rest.tail with
      | none => []
      | some rest => scanValue false rest.tail

/-- The loop of `extractQueryPaths` over the text between the brackets. -/
def scanPaths : (inString escaped : Bool) → (current : Str) → Str → List Str
  | _, _, _, [] => []
  | false, escaped, current, ch :: rest =>
    if ch = byte '"' then scanPaths true escaped [] rest else scanPaths false escaped current rest
  | true, true, current, ch :: rest => scanPaths true false (current ++ [ch]) rest
  | true, false, current, ch :: rest =>
    if ch = byte '\\' then scanPaths true true current rest
    else if ch = byte '"' then trim current :: scanPaths false false current rest
    else scanPaths true false (current ++ [ch]) rest

def extractQueryPaths (json : Str) : List Str :=
  match Search.afterFirst (quoted (lit "query")) json with
  | none => []
  | some rest => match Search.fromFirst (· = byte '[') rest with
    | none => []
    | some array =>
      if byte ']' ∈ array then
        scanPaths false false [] (array.tail.takeWhile (· ≠ byte ']'))
      else []

/-- The text behind the last slash, or the path where there is none. -/
def itemNameFromPath (path : Str) : Str :=
  let name := path.rtakeWhile (· ≠ byte '/')
  if byte '/' ∉ path ∨ name = [] then path else name

/-- `path.find(text) != std::string::npos`. -/
def contains (path text : Str) : Bool := (Search.afterFirst text path).isSome

/-- The values 1.2, 2.0 and 0.0; the first is the `double` nearest to it. -/
def valueForPath (path : Str) : Double :=
  if contains path (lit "pressure") then .ofRat (5404319552844595 / 2 ^ 52)
  else if contains path (lit "temperature") then .ofRat 2
  else .ofRat 0

def descriptionForPath (path : Str) : Str :=
  if contains path (lit "pressure") then lit "压力"
  else if contains path (lit "temperature") then lit "温度"
  else itemNameFromPath path

/-- The member that the loop of `handleQuery` writes for a path. -/
def pathMember (timestamp : Double) (path : Str) : Str :=
  let name := itemNameFromPath path
  lit "\"" ++ escapeJson path ++ lit "\":\x7b" ++
    (lit "\"value\":[" ++ fixed (valueForPath path) ++ lit "],") ++
    (lit "\"dev_time\":" ++ fixed timestamp ++ lit ",") ++
    (lit "\"svr_time\":" ++ fixed timestamp ++ lit ",") ++
    (lit "\"item_path\":\"/DV:mock/CP:mock/DT:" ++ escapeJson name ++ lit "\",") ++
    (lit "\"item_description\":\"" ++ escapeJson (descriptionForPath path) ++ lit "\",") ++
    (lit "\"item_name\":\"" ++ escapeJson name ++ lit "\"") ++ lit "\x7d"

/-- The loop of `handleQuery`: the members with commas between them. -/
def pathMembers (timestamp : Double) : List Str → Str
  | [] => []
  | [path] => pathMember timestamp path
  | path :: rest => pathMember timestamp path ++ lit "," ++ pathMembers timestamp rest

/-- `handleQuery`, with the time of the call. -/
def handleQuery (message : Str) (timestamp : Double) : Str :=
  let cid := extractStringField message (lit "cid")
  let cid := if cid = [] then lit "mock-cid" else cid
  lit "\x7b\"cid\":\"" ++ escapeJson cid ++ lit "\",\"machineConnected\":true,\"data\":\x7b" ++
    pathMembers timestamp (extractQueryPaths message) ++ lit "\x7d\x7d"

example : fixed (valueForPath (lit "/C/pressure")) = lit "1.200000" := by decide +kernel
example : extractQueryPaths (lit "\x7b\"cid\":\"\",\"query\":[\"/A/x\", \"/A/y \"]\x7d") =
    [lit "/A/x", lit "/A/y"] := by decide +kernel

end CollectorService.MockDriverServer
