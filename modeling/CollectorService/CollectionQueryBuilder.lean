import CollectorService.JsonUtil
import CollectorService.Numbers

/-!
# Collection queries

The text that a collection cycle sends to the driver: a cid and the paths of the data points.
-/

namespace CollectorService.CollectionQueryBuilder

/-- `makeCid`, with the time of the call. -/
def makeCid (deviceName : Str) (nowMilliseconds : ℤ) : Str :=
  deviceName ++ lit "-" ++ decimal nowMilliseconds

/-- The loop of `buildQuery`: the quoted paths with commas between them. -/
def queryPaths : List DataPoint → Str
  | [] => []
  | [point] => quoted (escapeJson point.namePath)
  | point :: rest => quoted (escapeJson point.namePath) ++ lit "," ++ queryPaths rest

def buildQuery (cid : Str) (points : List DataPoint) : Except Str Str :=
  if points = [] then .error (lit "query construct failed: no DataPoint")
  else .ok (lit "\x7b\"cid\":\"" ++ escapeJson cid ++ lit "\",\"query\":[" ++ queryPaths points ++
    lit "]\x7d")

end CollectorService.CollectionQueryBuilder
