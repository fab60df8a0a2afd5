import CollectorService.Provenance
import CollectorService.Serializers
import CollectorService.SQLiteManager

/-!
# Array values

The parser stores the text of the array under `value`, and `GET /latest` embeds it as it is stored. The
text is cut at the first closing bracket behind the first opening one.

* `storedWhole_iff`: the array is stored and served whole exactly when this opening bracket is its own
  and no other closing bracket stands in it.
-/

namespace CollectorService

open Json (Blank Member Value objectText)
open CollectionResponseParser

/-! ## 1. The array behind a name -/

/-- The first opening bracket behind the first occurrence of the quoted name begins the text. -/
def FirstArray (objectText fieldName text : Str) : Prop :=
  ∃ gap rest, Search.Behind (quoted fieldName) objectText (gap ++ text ++ rest) ∧ byte '[' ∉ gap

section Field
variable {objectText fieldName inner : Str}

/-- From an opening bracket the text is cut at the first closing one. -/
theorem bracketed_eq_iff {array : Str} : (if byte ']' ∈ array then
      array.takeWhile (· ≠ byte ']') ++ [byte ']'] else []) = inner ++ [byte ']'] ↔
    byte ']' ∉ inner ∧ ∃ rest, array = inner ++ byte ']' :: rest := by
  constructor
  · intro h
    split at h
    · next hmem =>
      obtain ⟨s, rest, rfl, hs⟩ := List.eq_append_cons_of_mem hmem
      rw [Search.takeWhile_ne hs] at h
      cases List.append_cancel_right h
      exact ⟨hs, rest, rfl⟩
    · simp at h
  · rintro ⟨hinner, rest, rfl⟩
    rw [if_pos (by simp), Search.takeWhile_ne hinner]

/-- What is taken for the array. -/
theorem extractArrayFieldText_eq_iff :
    extractArrayFieldText objectText fieldName = byte '[' :: inner ++ [byte ']'] ↔
      FirstArray objectText fieldName (byte '[' :: inner ++ [byte ']']) ∧ byte ']' ∉ inner := by
  unfold extractArrayFieldText FirstArray
  constructor
  · intro h
    split at h
    · cases h
    next behind hbehind =>
    split at h
    · cases h
    next array harray =>
    obtain ⟨gap, rest, rfl, hgap, rfl⟩ := Search.fromFirst_eq_some_iff.mp harray
    obtain ⟨hinner, rest', hrest⟩ := bracketed_eq_iff.mp h
    refine ⟨⟨gap, rest', ?_, hgap⟩, fun hmem => hinner (List.mem_cons_of_mem _ hmem)⟩
    rw [List.append_assoc, List.append_assoc, List.singleton_append, ← hrest]
    exact Search.afterFirst_eq_some_iff.mp hbehind
  · rintro ⟨⟨gap, rest, hbehind, hgap⟩, hinner⟩
    have harray : gap ++ (byte '[' :: inner ++ [byte ']']) ++ rest =
        gap ++ byte '[' :: (inner ++ byte ']' :: rest) := by simp
    rw [harray] at hbehind
    rw [Search.afterFirst_eq_some_iff.mpr hbehind]
    dsimp only
    rw [Search.fromFirst_eq hgap]
    refine bracketed_eq_iff.mpr ⟨?_, rest, rfl⟩
    rw [List.mem_cons, not_or]
    exact ⟨by decide, hinner⟩

end Field

/-! ## 2. Records -/

/-- What `toJson` embeds as the member `data` of a record. -/
def dataMember (record : ResourceRecord) : Str := if record.data = [] then lit "[]" else record.data

/-- The path is found at its own object, which has the array `m` under `value`. -/
structure HasArray (r : DriverResponse) (path : Str) (slice : Slice) (m : Member) : Prop where
  own : r.Own path slice
  found : objectSlice r.text path = some slice
  member : ∃ blank l l', slice.text = objectText blank (l ++ m :: l')
  key : m.key = lit "value"
  array : ∃ values, m.value = .array values
  text : m.value.Text m.text

/-- What `toJson` writes in front of the member `data`, its key included. -/
def beforeData (record : ResourceRecord) : Str :=
  lit "\x7b\"device_name\":\"" ++ escapeJson record.deviceName ++
    lit "\",\"dataItemNamePath\":\"" ++ escapeJson record.dataItemNamePath ++ lit "\",\"data\":"

/-- What `toJson` writes behind it. -/
def afterData (record : ResourceRecord) : Str :=
  lit ",\"devTime\":" ++ general record.devTime ++
    lit ",\"svrTime\":" ++ general record.svrTime ++
    lit ",\"dataItemPath\":\"" ++ escapeJson record.dataItemPath ++
    lit "\",\"dataItemName\":\"" ++ escapeJson record.dataItemName ++
    lit "\",\"dataItemDescription\":\"" ++ escapeJson record.dataItemDescription ++ lit "\"\x7d"

/-- The member `data` of the served record is a JSON text of the value. -/
def ServesData (record : ResourceRecord) (v : Value) : Prop :=
  ∃ text, record.toJson = beforeData record ++ text ++ afterData record ∧ v.Text text

/-- The record of the path stores the text of the array, and the row that is read back is served with
a JSON text of the array. -/
def StoredWhole (r : DriverResponse) (device : Device) (points : List DataPoint)
    (fallbackTime : Double) (path : Str) (m : Member) : Prop :=
  ∃ records, processResponse device points r.text fallbackTime = .ok records ∧
    (∃ record ∈ records, record.dataItemNamePath = path) ∧
    ∀ record ∈ records, record.dataItemNamePath = path → record.data = m.text ∧
      ∀ id, ServesData (ResourceRepository.readRecord (id, ResourceRepository.boundRow record)) m.value

section Records
variable {r : DriverResponse} {device : Device} {points : List DataPoint} {fallbackTime : Double}
  {path : Str} {slice : Slice} {m : Member}

theorem toJson_dataMember (record : ResourceRecord) :
    record.toJson = beforeData record ++ dataMember record ++ afterData record := by
  unfold ResourceRecord.toJson beforeData dataMember afterData
  simp only [List.append_assoc]

/-- A JSON text comes back from its column as it is. -/
theorem cString_text {v : Value} {s : Str} (h : v.Text s) : cString s = s :=
  cString_of_notMem fun hmem => h.not_isControl 0 hmem (by decide)

theorem HasArray.text_eq (h : HasArray r path slice m) :
    ∃ inner, m.text = byte '[' :: inner ++ [byte ']'] := by
  obtain ⟨values, hvalues⟩ := h.array
  have htext := h.text
  generalize m.value = v at hvalues htext
  generalize m.text = text at htext ⊢
  cases htext with
  | array blank items _ => exact ⟨_, rfl⟩
  | _ => cases hvalues

/-- The record of a point whose object has been found. -/
theorem HasArray.recordFor_iff (h : HasArray r path slice m) {point : DataPoint}
    {record : ResourceRecord} (hpath : point.namePath = path) :
    recordFor device r.text fallbackTime point = some record ↔
      extractArrayFieldText slice.text (lit "value") ≠ [] ∧
        recordOf device fallbackTime point slice.text = record := by
  have hobject : extractObjectForPath r.text point.namePath = slice.text := by
    rw [extractObjectForPath, hpath, h.found]
    rfl
  rw [recordFor_eq_some, hobject]

/-- What is stored is the array when its text is taken for the array. -/
theorem storedWhole_iff_extract (h : HasArray r path slice m)
    (hpoint : ∃ point ∈ points, point.namePath = path) :
    StoredWhole r device points fallbackTime path m ↔
      extractArrayFieldText slice.text (lit "value") = m.text := by
  obtain ⟨inner, hinner⟩ := h.text_eq
  constructor
  · rintro ⟨records, hok, ⟨record, hmem, hpath⟩, hall⟩
    rw [← (hall record hmem hpath).1]
    rw [← (processResponse_ok.mp hok).1] at hmem
    obtain ⟨point, -, hrecord⟩ := List.mem_filterMap.mp hmem
    have hname : point.namePath = path := by
      rw [← hpath, ← (recordFor_eq_some.mp hrecord).2]
      rfl
    rw [← ((h.recordFor_iff hname).mp hrecord).2]
    rfl
  · intro hextract
    have hne : extractArrayFieldText slice.text (lit "value") ≠ [] := by
      rw [hextract, hinner]
      simp
    obtain ⟨point, hpoint, hname⟩ := hpoint
    have hmem : recordOf device fallbackTime point slice.text ∈
        points.filterMap (recordFor device r.text fallbackTime) :=
      List.mem_filterMap.mpr ⟨point, hpoint, (h.recordFor_iff hname).mpr ⟨hne, rfl⟩⟩
    refine ⟨_, processResponse_ok.mpr ⟨rfl, List.ne_nil_of_mem hmem⟩, ⟨_, hmem, hname⟩, ?_⟩
    intro record hrecord hpath
    obtain ⟨point', -, hrecord⟩ := List.mem_filterMap.mp hrecord
    have hname' : point'.namePath = path := by
      rw [← hpath, ← (recordFor_eq_some.mp hrecord).2]
      rfl
    obtain ⟨-, rfl⟩ := (h.recordFor_iff hname').mp hrecord
    refine ⟨hextract, fun id => ⟨_, toJson_dataMember _, ?_⟩⟩
    have hread : (ResourceRepository.readRecord (id, ResourceRepository.boundRow
        (recordOf device fallbackTime point' slice.text))).data = m.text := by
      show cString (extractArrayFieldText slice.text (lit "value")) = m.text
      rw [hextract, cString_text h.text]
    rw [dataMember, hread, if_neg (by simp [hinner])]
    exact h.text

/-- An array `value` is stored whole, and served as JSON, exactly when the first opening bracket behind
the first `"value"` of its object begins its text and its text has no closing bracket before its end. -/
theorem storedWhole_iff (device : Device) (fallbackTime : Double) (h : HasArray r path slice m)
    (hpoint : ∃ point ∈ points, point.namePath = path) :
    StoredWhole r device points fallbackTime path m ↔
      FirstArray slice.text (lit "value") m.text ∧ byte ']' ∉ m.text.dropLast := by
  obtain ⟨inner, hinner⟩ := h.text_eq
  rw [storedWhole_iff_extract h hpoint, hinner, extractArrayFieldText_eq_iff,
    List.dropLast_concat, List.mem_cons, not_or]
  exact and_congr_right fun _ => ⟨fun hmem => ⟨by decide, hmem⟩, And.right⟩

end Records

/-! ## 3. A bracket in a string -/

theorem hasArray_cidResponse : ∃ slice,
    HasArray cidResponse (lit "/B/y") slice (valueMember (byte '2')) ∧
    slice.text = objectText {} [valueMember (byte '2')] := by
  refine ⟨_, ⟨⟨[], _, _, rfl, rfl, rfl⟩, by decide +kernel, ⟨{}, [], [], rfl⟩, rfl, ⟨_, rfl⟩,
    valueMember_text (by decide)⟩, rfl⟩

/-- The array `[2]` is stored whole. -/
theorem storedWhole_cidResponse :
    StoredWhole cidResponse {} [{ namePath := lit "/B/y" }] default (lit "/B/y")
      (valueMember (byte '2')) := by
  obtain ⟨slice, h, hslice⟩ := hasArray_cidResponse
  refine (storedWhole_iff {} default h ⟨_, List.mem_singleton_self _, rfl⟩).mpr ⟨?_, by decide⟩
  rw [hslice]
  exact ⟨lit ":", lit "\x7d", Search.afterFirst_eq_some_iff.mp (by decide), by decide⟩

/-- `"value":["axis [X]"]` -/
def alarmMember : Member where
  key := lit "value"
  keyBody := lit "value"
  keyText := stringBody_value
  value := .array [.string (lit "axis [X]")]
  text := Json.arrayText {} [{ value := .string (lit "axis [X]"), text := Json.quote (lit "axis [X]") }]

theorem alarmMember_text : alarmMember.value.Text alarmMember.text :=
  .array {} [{ value := .string (lit "axis [X]"), text := Json.quote (lit "axis [X]") }] fun i hi => by
    rw [List.mem_singleton.mp hi]
    exact .string (stringBody_self (by decide))

/-- `{"data":{"//AlarmMsg":{"value":["axis [X]"]}}}` -/
def alarmResponse : DriverResponse where
  before := []
  data := {
    key := lit "data"
    keyBody := lit "data"
    keyText := stringBody_data
    value := .object [(lit "//AlarmMsg", .object [(lit "value", alarmMember.value)])]
    text := objectText {} [{
      key := lit "//AlarmMsg"
      keyBody := lit "//AlarmMsg"
      keyText := stringBody_self (by decide)
      value := .object [(lit "value", alarmMember.value)]
      text := objectText {} [alarmMember] }] }
  after := []
  entries := [{
    key := lit "//AlarmMsg"
    keyBody := lit "//AlarmMsg"
    keyText := stringBody_self (by decide)
    value := .object [(lit "value", alarmMember.value)]
    text := objectText {} [alarmMember] }]
  othersText m hm := by cases hm
  dataKey := rfl
  dataText := rfl
  entriesText e he := by
    rw [List.mem_singleton.mp he]
    exact ⟨{}, _, rfl, by simpa using alarmMember_text⟩

/-- A text that leaves the scan for a brace inside a string is no JSON text. -/
theorem not_text_of_scanObject {s : Str}
    (h : scanObject 1 false false (s ++ [byte '\x7d']) = none) (v : Value) : ¬ v.Text s := by
  intro htext
  have hbrace : scanObject 1 false false [byte '\x7d'] = some [byte '\x7d'] := by decide
  rw [passes_text htext 1 _ (by decide), hbrace] at h
  cases h

/-- The array of `//AlarmMsg` is cut inside its string, and what is stored is no JSON text. -/
theorem alarmResponse_cut :
    (∃ slice, HasArray alarmResponse (lit "//AlarmMsg") slice alarmMember) ∧
      ¬ StoredWhole alarmResponse {} [{ namePath := lit "//AlarmMsg" }] default (lit "//AlarmMsg")
        alarmMember ∧
      (∃ records, processResponse {} [{ namePath := lit "//AlarmMsg" }] alarmResponse.text default =
        .ok records ∧ records.map (·.data) = [lit "[\"axis [X]"]) ∧
      ∀ v : Value, ¬ v.Text (lit "[\"axis [X]") := by
  have hrun : processResponse {} [{ namePath := lit "//AlarmMsg" }] alarmResponse.text default =
      .ok [recordOf {} default { namePath := lit "//AlarmMsg" } (objectText {} [alarmMember])] := by
    decide +kernel
  have hdata : (recordOf {} default { namePath := lit "//AlarmMsg" }
      (objectText {} [alarmMember])).data = lit "[\"axis [X]" := by decide +kernel
  refine ⟨⟨_, ⟨[], _, [], rfl, rfl, rfl⟩, by decide +kernel, ⟨{}, [], [], rfl⟩, rfl, ⟨_, rfl⟩,
    alarmMember_text⟩, ?_, ⟨_, hrun, by rw [List.map_singleton, hdata]⟩,
    not_text_of_scanObject (by decide)⟩
  rintro ⟨records, hok, -, hall⟩
  rw [hrun] at hok
  cases hok
  have hwhole := (hall _ (List.mem_singleton_self _) rfl).1
  rw [hdata] at hwhole
  exact absurd hwhole (by decide)

end CollectorService
