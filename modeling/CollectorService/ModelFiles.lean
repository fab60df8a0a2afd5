import CollectorService.Models
import Mathlib.Data.List.DropRight

/-!
# Model files

`ModelRepository` finds the text of a device model, and `ModelParser` reads its data points, line by
line. The file system is a parameter of the repository and does not change while a command runs.
-/

namespace CollectorService

/-! ## 1. `ModelRepository` -/

/-- The directories of the model files, and what the file system answers. -/
structure ModelRepository where
  modelDirectory : Str := lit "config/models"
  fallbackDirectory : Str := lit "config"
  /-- `std::filesystem::exists`, which may throw. -/
  fileExists : Str → Except Str Bool
  /-- The contents of a file that can be opened. -/
  contents : Str → Option Str

/-- A repository without model files. -/
def noModels : ModelRepository where
  fileExists _ := .ok false
  contents _ := none

/-- `directory / name` of `std::filesystem::path`. -/
def joinPath (directory name : Str) : Str :=
  if name.head? = some (byte '/') ∨ directory = [] then name
  else if directory.getLast? = some (byte '/') then directory ++ name
  else directory ++ byte '/' :: name

/-- `hasDataItemText`. -/
def hasDataItemText (value : Str) : Bool := (Search.afterFirst (lit "DataItem:") value).isSome

namespace ModelRepository

variable (repository : ModelRepository)

def loadFile (path : Str) : Except Str Str :=
  match repository.contents path with
  | some text => .ok text
  | none => .error (lit "failed to open model file: " ++ path)

/-- The files that may hold a model, in the order in which they are tried. -/
def candidates (model modelVersion : Str) : List Str :=
  let versioned := model ++ lit "-" ++ modelVersion
  (if modelVersion ≠ [] then
    [joinPath repository.modelDirectory (versioned ++ lit ".yaml"),
      joinPath repository.modelDirectory (versioned ++ lit ".yml"),
      joinPath repository.modelDirectory (versioned ++ lit ".txt")]
  else []) ++
  [joinPath repository.modelDirectory (model ++ lit ".yaml"),
    joinPath repository.modelDirectory (model ++ lit ".yml"),
    joinPath repository.modelDirectory (model ++ lit ".txt")] ++
  if model = lit "M1" then [joinPath repository.fallbackDirectory (lit "model.txt")] else []

/-- The first candidate that exists. -/
def loadFirst (model : Str) : List Str → Except Str Str
  | [] => .error (lit "model definition not found: " ++ model)
  | path :: rest => do
    if ← repository.fileExists path then repository.loadFile path
    else loadFirst model rest

def loadModelText (model modelVersion : Str) : Except Str Str :=
  if model = [] then .error (lit "model is empty")
  else if hasDataItemText model then .ok model
  else repository.loadFirst model (repository.candidates model modelVersion)

end ModelRepository

/-! ## 2. `ModelParser` -/

namespace ModelParser

/-- The characters of `" \t\r\n"`. -/
def isBlank (ch : UInt8) : Bool :=
  ch = byte ' ' || ch = byte '\t' || ch = byte '\r' || ch = byte '\n'

def trim (value : Str) : Str := (value.dropWhile isBlank).rdropWhile isBlank

def indentOf (line : Str) : ℕ := (line.takeWhile (· = byte ' ')).length

def startsWith (value start : Str) : Bool := start.isPrefixOf value

def valueAfterColon (line : Str) : Str :=
  match Search.fromFirst (· = byte ':') line with
  | none => []
  | some rest =>
    let value := trim rest.tail
    if 2 ≤ value.length ∧ value.head? = some (byte '\'') ∧ value.getLast? = some (byte '\'') then
      value.tail.dropLast
    else value

/-- The lines that `std::getline` reads until the end of the input. -/
def lines (text : Str) : List Str :=
  let parts := text.splitOn (byte '\n')
  if parts.getLast? = some [] then parts.dropLast else parts

/-- The local variables of `parseDataItems`. -/
structure ParseState where
  points : List DataPoint := []
  currentComponent : Str := []
  currentPoint : DataPoint := {}
  inDataItem : Bool := false
  hasCurrentPoint : Bool := false

def namePathOf (component itemName : Str) : Str :=
  lit "/" ++ component ++ lit "/" ++ itemName

def itemPathOf (deviceName component itemName : Str) : Str :=
  lit "/DV:" ++ deviceName ++ lit "/CP:" ++ component ++ lit "/DT:" ++ itemName

/-- The lambda `flushPoint`. -/
def flushPoint (device : Device) (s : ParseState) : ParseState :=
  if !s.hasCurrentPoint || s.currentPoint.itemName = [] then s
  else
    let point := { s.currentPoint with deviceId := device.id, deviceName := device.name }
    let point := if point.namePath = [] then
      { point with namePath := namePathOf s.currentComponent point.itemName } else point
    let point := if point.itemPath = [] then
      { point with itemPath := itemPathOf device.name s.currentComponent point.itemName } else point
    { s with points := s.points ++ [point], currentPoint := {}, hasCurrentPoint := false }

/-- The body of the loop over the lines. -/
def parseLine (device : Device) (s : ParseState) (line : Str) : ParseState :=
  let stripped := trim line
  if stripped = [] then s
  else if stripped = lit "DataItem:" then { s with inDataItem := true }
  else if startsWith stripped (lit "- Name:") then
    let name := valueAfterColon stripped
    if s.inDataItem ∧ 8 ≤ indentOf line then
      { flushPoint device s with
        currentPoint := {
          itemName := name
          namePath := namePathOf s.currentComponent name
          itemPath := itemPathOf device.name s.currentComponent name }
        hasCurrentPoint := true }
    else { flushPoint device s with currentComponent := name, inDataItem := false }
  else if !s.hasCurrentPoint then s
  else if startsWith stripped (lit "Description:") then
    { s with currentPoint := { s.currentPoint with itemDescription := valueAfterColon stripped } }
  else if startsWith stripped (lit "NamePath:") || startsWith stripped (lit "namePath:") ||
      startsWith stripped (lit "Path:") || startsWith stripped (lit "path:") then
    { s with currentPoint := { s.currentPoint with namePath := valueAfterColon stripped } }
  else s

def parseDataItems (device : Device) (modelText : Str) : List DataPoint :=
  (flushPoint device ((lines modelText).foldl (parseLine device) {})).points

def parseModelToDataPoints (device : Device) (modelText : Str) : Except Str (List DataPoint) :=
  let points := parseDataItems device modelText
  if points = [] then .error (lit "model has no DataItem: " ++ device.model) else .ok points

end ModelParser

/-- The data points that a device's model defines. -/
def modelPoints (repository : ModelRepository) (device : Device) : Except Str (List DataPoint) := do
  let modelText ← repository.loadModelText device.model device.modelVersion
  ModelParser.parseModelToDataPoints device modelText

/-- A model that can be read defines at least one data point. -/
theorem modelPoints_ne_nil {repository : ModelRepository} {device : Device} {points : List DataPoint}
    (h : modelPoints repository device = .ok points) : points ≠ [] := by
  unfold modelPoints at h
  cases htext : repository.loadModelText device.model device.modelVersion with
  | error e =>
    rw [htext] at h
    cases h
  | ok modelText =>
    rw [htext] at h
    have hparse : ModelParser.parseModelToDataPoints device modelText = .ok points := h
    simp only [ModelParser.parseModelToDataPoints] at hparse
    split at hparse
    · cases hparse
    · next hne =>
      cases hparse
      exact hne

end CollectorService
