import CollectorService.CollectionResponseParser
import Mathlib.Data.List.Nodup

/-!
# Which object a record is read from

A well-formed response has a member `data` whose members are the objects of the paths. The parser
does not look at members: it takes the object at the first brace behind the first text that looks
like the path in its quotes.

* `carriesOwn_iff`: every record comes from its own path's object exactly when that brace is the one
  that opens this object, for every point whose text from there holds an array `value`.
-/

namespace CollectorService

open Json (Blank Member Value objectText objectBefore objectAfter objectText_split)
open CollectionResponseParser

/-! ## 1. Responses -/

/-- A driver's response: a JSON object with a member `data` whose members are objects, in any layout
and with any other members. -/
structure DriverResponse where
  leading : Blank := {}
  trailing : Blank := {}
  blank : Blank := {}
  /-- The members before and behind `data`. -/
  before : List Member
  data : Member
  after : List Member
  entriesBlank : Blank := {}
  /-- The members of `data`, by path. -/
  entries : List Member
  othersText : ∀ m ∈ before ++ after, m.value.Text m.text
  dataKey : data.key = lit "data"
  dataText : data.text = objectText entriesBlank entries
  entriesText : ∀ e ∈ entries, ∃ (blank : Blank) (members : List Member),
    e.text = objectText blank members ∧ ∀ m ∈ members, m.value.Text m.text

namespace DriverResponse

variable (r : DriverResponse)

def text : Str :=
  r.leading.text ++ objectText r.blank (r.before ++ r.data :: r.after) ++ r.trailing.text

/-- The value of the member `e` of `data` behind the members `l` and before the members `l'`. -/
def slice (l : List Member) (e : Member) (l' : List Member) : Slice where
  before := r.leading.text ++ objectBefore r.before r.data ++ objectBefore l e
  text := e.text
  after := objectAfter e l' ++ objectAfter r.data r.after ++ r.trailing.text

/-- The slice is the value of a member of `data` that has the path as its key. -/
def Own (path : Str) (slice : Slice) : Prop :=
  ∃ l e l', r.entries = l ++ e :: l' ∧ e.key = path ∧ slice = r.slice l e l'

variable {r} {path : Str} {slice : Slice}

theorem Own.whole (h : r.Own path slice) : slice.whole = r.text := by
  obtain ⟨l, e, l', hentries, -, rfl⟩ := h
  rw [text, objectText_split, r.dataText, hentries, objectText_split]
  simp [Slice.whole, DriverResponse.slice]

theorem Own.head (h : r.Own path slice) :
    (slice.text ++ slice.after).head? = some (byte '\x7b') := by
  obtain ⟨l, e, l', hentries, -, rfl⟩ := h
  obtain ⟨blank, members, htext, -⟩ := r.entriesText e (by simp [hentries])
  show (e.text ++ _).head? = _
  rw [htext]
  rfl

/-- The scan takes a member of `data` as it stands. -/
theorem Own.scanObject (h : r.Own path slice) :
    scanObject 0 false false (slice.text ++ slice.after) = some slice.text := by
  obtain ⟨l, e, l', hentries, -, rfl⟩ := h
  obtain ⟨blank, members, htext, hmembers⟩ := r.entriesText e (by simp [hentries])
  show CollectionResponseParser.scanObject 0 false false (e.text ++ _) = some e.text
  rw [htext]
  exact scanObject_text blank hmembers _

end DriverResponse

/-! ## 2. Records of a response -/

section Records
variable (r : DriverResponse) (device : Device) (points : List DataPoint) (fallbackTime : Double)

/-- Every record is read from its own path's object in `data`, and from nothing else in the
response. -/
def CarriesOwn : Prop :=
  ∀ records, processResponse device points r.text fallbackTime = .ok records →
    ∀ record ∈ records, ∀ point ∈ points, record.dataItemNamePath = point.namePath →
      ∃ slice, r.Own point.namePath slice ∧ objectSlice r.text point.namePath = some slice ∧
        record = recordOf device fallbackTime point slice.text

/-- The first brace behind the first occurrence of the quoted path opens its own object in `data`:
before this object stands an occurrence that none starts before, and no brace in between. -/
def OpensOwn (path : Str) : Prop :=
  ∃ slice u gap, r.Own path slice ∧ slice.before = u ++ quoted path ++ gap ∧ byte '\x7b' ∉ gap ∧
    ∀ v w, r.text = v ++ quoted path ++ w → u.length ≤ v.length

/-- The text from that brace to the one that matches it holds an array under `value`. -/
def HoldsArray (path : Str) : Prop :=
  extractArrayFieldText (extractObjectForPath r.text path) (lit "value") ≠ []

theorem opensOwn_iff {path : Str} : OpensOwn r path ↔
    ∃ slice, r.Own path slice ∧ fromObject r.text path = some (slice.text ++ slice.after) := by
  have hfrom : ∀ {slice}, r.Own path slice →
      (fromObject r.text path = some (slice.text ++ slice.after) ↔ ∃ u gap,
        slice.before = u ++ quoted path ++ gap ∧ byte '\x7b' ∉ gap ∧
          ∀ v w, r.text = v ++ quoted path ++ w → u.length ≤ v.length) := fun hown =>
    fromObject_eq_some_iff (by rw [← List.append_assoc]; exact hown.whole) hown.head
  constructor
  · rintro ⟨slice, u, gap, hown, hbefore⟩
    exact ⟨slice, hown, (hfrom hown).mpr ⟨u, gap, hbefore⟩⟩
  · rintro ⟨slice, hown, hobject⟩
    obtain ⟨u, gap, hbefore⟩ := (hfrom hown).mp hobject
    exact ⟨slice, u, gap, hown, hbefore⟩

/-- Every record is read from its own path's object exactly when, for every point whose text holds an
array `value`, the brace behind the first occurrence of the quoted path opens this object. -/
theorem carriesOwn_iff (hdistinct : (points.map (·.namePath)).Nodup) :
    CarriesOwn r device points fallbackTime ↔
      ∀ point ∈ points, HoldsArray r point.namePath → OpensOwn r point.namePath := by
  constructor
  · intro hcarries point hpoint harray
    -- the point has a record, whose slice starts at the brace
    have hrecord := (@recordFor_eq_some device r.text fallbackTime point _).mpr ⟨harray, rfl⟩
    have hmem := List.mem_filterMap.mpr ⟨point, hpoint, hrecord⟩
    obtain ⟨slice, hown, hslice, -⟩ := hcarries _
      (processResponse_ok.mpr ⟨rfl, List.ne_nil_of_mem hmem⟩) _ hmem point hpoint rfl
    exact (opensOwn_iff r).mpr ⟨slice, hown, fromObject_of_objectSlice hslice⟩
  · intro hopens records hok record hmem point hpoint hpath
    obtain ⟨rfl, -⟩ := processResponse_ok.mp hok
    obtain ⟨point', hpoint', hrecord⟩ := List.mem_filterMap.mp hmem
    obtain ⟨harray, rfl⟩ := recordFor_eq_some.mp hrecord
    obtain rfl : point' = point := List.inj_on_of_nodup_map hdistinct hpoint' hpoint hpath
    obtain ⟨slice, hown, hfrom⟩ := (opensOwn_iff r).mp (hopens point' hpoint' harray)
    have hslice := objectSlice_of_fromObject hown.whole hfrom hown.scanObject
    refine ⟨slice, hown, hslice, ?_⟩
    rw [extractObjectForPath, hslice]
    rfl

end Records

/-! ## 3. A path that occurs as another value -/

/-- A character that needs no escape. -/
def isUnescaped (ch : UInt8) : Bool := byte ' ' ≤ ch && ch ≠ byte '"' && ch ≠ byte '\\'

/-- A string without characters that need an escape writes itself. -/
theorem stringBody_self {s : Str} (h : s.all isUnescaped = true) : Json.StringBody s s := by
  induction s with
  | nil => exact .nil
  | cons ch s ih =>
    obtain ⟨hch, hs⟩ := Bool.and_eq_true_iff.mp h
    simp only [isUnescaped, ne_eq, decide_not, Bool.and_eq_true, Bool.not_eq_true',
      decide_eq_false_iff_not, decide_eq_true_eq] at hch
    exact .plain hch.1.1 hch.1.2 hch.2 (ih hs)

theorem stringBody_lit (name : String) (h : (lit name).all isUnescaped = true) :
    Json.StringBody (lit name) (lit name) := stringBody_self h

theorem stringBody_value : Json.StringBody (lit "value") (lit "value") :=
  stringBody_lit "value" (by decide)

theorem stringBody_data : Json.StringBody (lit "data") (lit "data") :=
  stringBody_lit "data" (by decide)

/-- A member `"value":[d]` of a path's object. -/
def valueMember (d : UInt8) : Member where
  key := lit "value"
  keyBody := lit "value"
  keyText := stringBody_value
  value := .array [.number [d]]
  text := Json.arrayText {} [{ value := .number [d], text := [d] }]

/-- A path of `data` with one value. -/
def entry (path : String) (h : (lit path).all isUnescaped = true) (d : UInt8) : Member where
  key := lit path
  keyBody := lit path
  keyText := stringBody_lit path h
  value := .object [(lit "value", .array [.number [d]])]
  text := objectText {} [valueMember d]

theorem valueMember_text {d : UInt8} (h : Json.isDigit d = true) :
    (valueMember d).value.Text (valueMember d).text := by
  have hnumber : Json.IsNumber [d] :=
    ⟨[], [d], [], [], by simp, .inl rfl, ⟨⟨by simp, by simpa using h⟩, by simp⟩, .inl rfl, .inl rfl⟩
  exact .array {} [{ value := .number [d], text := [d] }] fun i hi => by
    rw [List.mem_singleton.mp hi]
    exact .number hnumber

/-- `{"cid":"/A/x","data":{"/B/y":{"value":[2]},"/A/x":{"value":[1]}}}` -/
def cidResponse : DriverResponse where
  before := [{
    key := lit "cid"
    keyBody := lit "cid"
    keyText := stringBody_self (by decide)
    value := .string (lit "/A/x")
    text := Json.quote (lit "/A/x") }]
  data := {
    key := lit "data"
    keyBody := lit "data"
    keyText := stringBody_data
    value := .object [(lit "/B/y", .object [(lit "value", .array [.number (lit "2")])]),
      (lit "/A/x", .object [(lit "value", .array [.number (lit "1")])])]
    text := objectText {} [entry "/B/y" (by decide) (byte '2'), entry "/A/x" (by decide) (byte '1')] }
  after := []
  entries := [entry "/B/y" (by decide) (byte '2'), entry "/A/x" (by decide) (byte '1')]
  othersText m hm := by
    rw [List.append_nil, List.mem_singleton] at hm
    subst hm
    exact .string (stringBody_self (by decide))
  dataKey := rfl
  dataText := rfl
  entriesText e he := by
    simp only [List.mem_cons, List.not_mem_nil, or_false] at he
    rcases he with rfl | rfl
    · exact ⟨{}, _, rfl, by simpa using valueMember_text (by decide)⟩
    · exact ⟨{}, _, rfl, by simpa using valueMember_text (by decide)⟩

/-- `/B/y` occurs first as the key of its own object. -/
theorem carriesOwn_cidResponse :
    CarriesOwn cidResponse {} [{ namePath := lit "/B/y" }] default := by
  refine (carriesOwn_iff cidResponse {} [{ namePath := lit "/B/y" }] default (by simp)).mpr ?_
  intro point hpoint _
  rw [List.mem_singleton.mp hpoint]
  exact (opensOwn_iff cidResponse).mpr ⟨_, ⟨[], _, _, rfl, rfl, rfl⟩, by decide +kernel⟩

/-- `/A/x` occurs first as the text of `cid`: its record holds what `/B/y` has measured. -/
theorem not_carriesOwn_cidResponse :
    (∃ records, processResponse {} [{ namePath := lit "/A/x" }] cidResponse.text default =
      .ok records ∧ records.map (·.data) = [lit "[2]"]) ∧
    ¬ CarriesOwn cidResponse {} [{ namePath := lit "/A/x" }] default := by
  have hrun : processResponse {} [{ namePath := lit "/A/x" }] cidResponse.text default =
      .ok [recordOf {} default { namePath := lit "/A/x" } cidResponse.data.text] := by
    decide +kernel
  have hslice : (objectSlice cidResponse.text (lit "/A/x")).map (·.text) =
      some cidResponse.data.text := by
    decide +kernel
  have hentries : ∀ e ∈ cidResponse.entries, e.text ≠ cidResponse.data.text := by
    decide +kernel
  refine ⟨⟨_, hrun, by decide +kernel⟩, fun hcarries => ?_⟩
  obtain ⟨slice, ⟨l, e, l', hsplit, -, rfl⟩, hown, -⟩ :=
    hcarries _ hrun _ (List.mem_singleton_self _) _ (List.mem_singleton_self _) rfl
  rw [hown] at hslice
  exact hentries e (by simp [hsplit]) (Option.some.inj hslice)

end CollectorService
