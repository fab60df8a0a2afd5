import CollectorService.Json
import CollectorService.Numbers

/-!
# Collection responses

`CollectionResponseParser` reads a driver's response by text search. For each data point it looks
for the quoted path, takes the text from the next opening brace to the brace that matches it, and
searches that text for the fields of the record.

* `objectSlice`: the part of the response that is read for a path.
* `scanObject_text`: the scan for the matching brace takes exactly the object, whatever its members
  and strings hold.
* `fromObject_eq_some_iff`: where that part starts, in terms of the text alone.
* `processResponse_ok`: the records are those of the points, in order.
-/

namespace CollectorService

namespace CollectionResponseParser

/-! ## 1. The text of a path -/

/-- The loop of `extractObjectForPath`: the text up to the brace that takes the depth to zero. -/
def scanObject : (depth : ℤ) → (inString escaped : Bool) → Str → Option Str
  | _, _, _, [] => none
  | depth, inString, escaped, ch :: rest =>
    if escaped then (scanObject depth inString false rest).map (ch :: ·)
    else if ch = byte '\\' then (scanObject depth inString inString rest).map (ch :: ·)
    else if ch = byte '"' then (scanObject depth (!inString) false rest).map (ch :: ·)
    else if inString then (scanObject depth inString false rest).map (ch :: ·)
    else if ch = byte '\x7b' then (scanObject (depth + 1) inString false rest).map (ch :: ·)
    else if ch = byte '\x7d' then
      if depth - 1 = 0 then some [ch]
      else (scanObject (depth - 1) inString false rest).map (ch :: ·)
    else (scanObject depth inString false rest).map (ch :: ·)

/-- The response from `objectStart` on: from the first brace behind the first occurrence of the
quoted path. -/
def fromObject (responseText path : Str) : Option Str :=
  (Search.afterFirst (quoted path) responseText).bind (Search.fromFirst (· = byte '\x7b'))

/-- A part of a text, with what stands before and after it. -/
structure Slice where
  before : Str
  text : Str
  after : Str
  deriving DecidableEq

/-- The text that a slice is a part of. -/
def Slice.whole (slice : Slice) : Str := slice.before ++ slice.text ++ slice.after

/-- `responseText.substr(objectStart, pos - objectStart + 1)`, as a part of the response. -/
def objectSlice (responseText path : Str) : Option Slice :=
  (fromObject responseText path).bind fun rest => (scanObject 0 false false rest).map fun object =>
    ⟨responseText.take (responseText.length - rest.length), object, rest.drop object.length⟩

def extractObjectForPath (responseText path : Str) : Str :=
  ((objectSlice responseText path).map (·.text)).getD []

/-! ## 2. The fields of a record -/

def extractArrayFieldText (objectText fieldName : Str) : Str :=
  match Search.afterFirst (quoted fieldName) objectText with
  | none => []
  | some rest => match Search.fromFirst (· = byte '[') rest with
    | none => []
    | some array =>
      if byte ']' ∈ array then array.takeWhile (· ≠ byte ']') ++ [byte ']'] else []

/-- The characters of `"-0123456789.eE+"`. -/
def isNumberChar (ch : UInt8) : Bool :=
  isIntChar ch || ch = byte '.' || ch = byte 'e' || ch = byte 'E' || ch = byte '+'

def extractNumberField (objectText fieldName : Str) (fallback : Double) : Double :=
  match Search.afterFirst (quoted fieldName) objectText with
  | none => fallback
  | some rest => match Search.fromFirst (· = byte ':') rest with
    | none => fallback
    | some rest => match Search.fromFirst isIntChar rest.tail with
      | none => fallback
      | some rest => (stod (rest.takeWhile isNumberChar)).getD fallback

/-- `extractBoolField`: the word after the first colon after the first occurrence of the quoted field
name is `true`. -/
def extractBoolField (responseText fieldName : Str) : Bool :=
  match Search.afterFirst (quoted fieldName) responseText with
  | none => false
  | some rest => match Search.fromFirst (· = byte ':') rest with
    | none => false
    | some rest => match Search.fromFirst (fun ch => !Json.isBlank ch) rest.tail with
      | none => false
      | some value => (lit "true").isPrefixOf value

/-- The field, or the text of the point where the object has none. -/
def fieldOr (objectText fieldName pointText : Str) : Str :=
  let value := extractStringField objectText fieldName
  if value = [] then pointText else value

/-- The record that the loop of `processResponse` fills in. -/
def recordOf (device : Device) (fallbackTime : Double) (point : DataPoint) (objectText : Str) :
    ResourceRecord where
  deviceName := device.name
  dataItemNamePath := point.namePath
  data := extractArrayFieldText objectText (lit "value")
  devTime := extractNumberField objectText (lit "dev_time") fallbackTime
  svrTime := extractNumberField objectText (lit "svr_time") fallbackTime
  dataItemPath := fieldOr objectText (lit "item_path") point.itemPath
  dataItemName := fieldOr objectText (lit "item_name") point.itemName
  dataItemDescription := fieldOr objectText (lit "item_description") point.itemDescription

/-- One turn of the loop of `processResponse`. -/
def recordFor (device : Device) (responseText : Str) (fallbackTime : Double) (point : DataPoint) :
    Option ResourceRecord :=
  let objectText := extractObjectForPath responseText point.namePath
  if objectText = [] then none
  else
    let record := recordOf device fallbackTime point objectText
    if record.data = [] then none else some record

/-- `processResponse`, with the time of the call. -/
def processResponse (device : Device) (points : List DataPoint) (responseText : Str)
    (fallbackTime : Double) : Except Str (List ResourceRecord) :=
  let records := points.filterMap (recordFor device responseText fallbackTime)
  if records = [] then .error (lit "response did not contain resource records") else .ok records

/-! ## 3. The matching brace -/

section Steps
variable {depth : ℤ} {inString : Bool} {ch : UInt8} {rest : Str}

theorem scanObject_quote : scanObject depth inString false (byte '"' :: rest) =
    (scanObject depth (!inString) false rest).map (byte '"' :: ·) := by
  rw [scanObject, if_neg Bool.false_ne_true, if_neg (by decide), if_pos rfl]

theorem scanObject_escape : scanObject depth true false (byte '\\' :: ch :: rest) =
    (scanObject depth true false rest).map (byte '\\' :: ch :: ·) := by
  rw [scanObject, if_neg Bool.false_ne_true, if_pos rfl, scanObject, if_pos rfl, Option.map_map]
  rfl

theorem scanObject_open : scanObject depth false false (byte '\x7b' :: rest) =
    (scanObject (depth + 1) false false rest).map (byte '\x7b' :: ·) := by
  rw [scanObject, if_neg Bool.false_ne_true, if_neg (by decide), if_neg (by decide),
    if_neg Bool.false_ne_true, if_pos rfl]

theorem scanObject_close : scanObject depth false false (byte '\x7d' :: rest) =
    if depth - 1 = 0 then some [byte '\x7d']
    else (scanObject (depth - 1) false false rest).map (byte '\x7d' :: ·) := by
  rw [scanObject, if_neg Bool.false_ne_true, if_neg (by decide), if_neg (by decide),
    if_neg Bool.false_ne_true, if_neg (by decide), if_pos rfl]

end Steps

/-- Outside strings and within braces, the scan passes over the text. -/
def Passes (s : Str) : Prop := ∀ (depth : ℤ) (rest : Str), 0 < depth →
  scanObject depth false false (s ++ rest) = (scanObject depth false false rest).map (s ++ ·)

/-- Inside a string, the scan passes over the text. -/
def PassesInString (s : Str) : Prop := ∀ (depth : ℤ) (rest : Str),
  scanObject depth true false (s ++ rest) = (scanObject depth true false rest).map (s ++ ·)

section Scan
variable {s t : Str} {ch : UInt8}

theorem passes_nil : Passes [] := by
  intro depth rest _
  simp

theorem Passes.append (hs : Passes s) (ht : Passes t) : Passes (s ++ t) := by
  intro depth rest hdepth
  rw [List.append_assoc, hs depth _ hdepth, ht depth rest hdepth, Option.map_map]
  simp [Function.comp_def]

theorem passes_flatMap {α : Type} {f : α → Str} : ∀ {l : List α}, (∀ a ∈ l, Passes (f a)) →
    Passes (l.flatMap f)
  | [], _ => passes_nil
  | a :: l, h => by
    rw [List.flatMap_cons]
    exact (h a List.mem_cons_self).append
      (passes_flatMap fun b hb => h b (List.mem_cons_of_mem _ hb))

/-- A byte that is no quote, backslash or brace. -/
def isPlain (ch : UInt8) : Bool :=
  ch ≠ byte '"' && ch ≠ byte '\\' && ch ≠ byte '\x7b' && ch ≠ byte '\x7d'

theorem passes_of_plain (h : s.all isPlain = true) : Passes s := by
  intro depth rest hdepth
  induction s with
  | nil => simp
  | cons ch s ih =>
    obtain ⟨hch, hs⟩ := Bool.and_eq_true_iff.mp h
    simp only [isPlain, ne_eq, decide_not, Bool.and_eq_true, Bool.not_eq_true',
      decide_eq_false_iff_not] at hch
    obtain ⟨⟨⟨hquote, hescape⟩, hopen⟩, hclose⟩ := hch
    rw [List.cons_append, scanObject, ih hs]
    simp [hquote, hescape, hopen, hclose, Function.comp_def]

theorem passesInString_nil : PassesInString [] := by
  intro depth rest
  simp

theorem PassesInString.append (hs : PassesInString s) (ht : PassesInString t) :
    PassesInString (s ++ t) := by
  intro depth rest
  rw [List.append_assoc, hs depth, ht depth rest, Option.map_map]
  simp [Function.comp_def]

theorem passesInString_plain (hquote : ch ≠ byte '"') (hescape : ch ≠ byte '\\') :
    PassesInString [ch] := by
  intro depth rest
  rw [List.singleton_append, scanObject]
  simp [hquote, hescape]

theorem passesInString_of_plain : ∀ {s : Str},
    (∀ ch ∈ s, ch ≠ byte '"' ∧ ch ≠ byte '\\') → PassesInString s
  | [], _ => passesInString_nil
  | ch :: _, h =>
    have hch := h ch List.mem_cons_self
    (passesInString_plain hch.1 hch.2).append
      (passesInString_of_plain fun ch' hch' => h ch' (List.mem_cons_of_mem _ hch'))

/-- A backslash takes the next byte along. -/
theorem passesInString_escape (ch : UInt8) : PassesInString [byte '\\', ch] :=
  fun _ _ => scanObject_escape

/-- Hexadecimal digits are no quotes and no backslashes. -/
theorem passesInString_codeUnit {hex : Str} {code : ℕ} (h : Json.codeUnit hex = some code) :
    PassesInString hex := by
  have hquote : Json.hexDigit (byte '"') = none := by decide
  have hescape : Json.hexDigit (byte '\\') = none := by decide
  have hdigit : ∀ {ch n}, Json.hexDigit ch = some n → ch ≠ byte '"' ∧ ch ≠ byte '\\' := by
    intro ch n hn
    constructor
    · rintro rfl
      rw [hquote] at hn
      cases hn
    · rintro rfl
      rw [hescape] at hn
      cases hn
  unfold Json.codeUnit at h
  split at h
  · next a b c d =>
    simp only [bind, Option.bind_eq_some_iff] at h
    obtain ⟨na, ha, nb, hb, nc, hc, nd, hd, -⟩ := h
    refine passesInString_of_plain fun ch hch => ?_
    simp only [List.mem_cons, List.not_mem_nil, or_false] at hch
    rcases hch with rfl | rfl | rfl | rfl
    · exact hdigit ha
    · exact hdigit hb
    · exact hdigit hc
    · exact hdigit hd
  · cases h

/-- The scan does not leave a string before its closing quote. -/
theorem passesInString_stringBody {body bytes : Str} (h : Json.StringBody body bytes) :
    PassesInString body := by
  induction h with
  | nil => exact passesInString_nil
  | @plain ch body bytes _ hquote hescape _ ih => exact (passesInString_plain hquote hescape).append ih
  | @escape ch value body bytes _ _ ih => exact (passesInString_escape ch).append ih
  | @unicode hex body bytes code hhex _ _ ih =>
    exact ((passesInString_escape _).append (passesInString_codeUnit hhex)).append ih
  | @surrogates hex hex' body bytes high low hhex hhex' _ _ _ ih =>
    exact (((passesInString_escape _).append (passesInString_codeUnit hhex)).append
      ((passesInString_escape _).append (passesInString_codeUnit hhex'))).append ih

theorem passes_quote {body bytes : Str} (h : Json.StringBody body bytes) :
    Passes (Json.quote body) := by
  intro depth rest hdepth
  have hopen : Json.quote body ++ rest = byte '"' :: (body ++ byte '"' :: rest) := by
    simp [Json.quote, byte, Char.toUInt8]
  rw [hopen, scanObject_quote, Bool.not_false, passesInString_stringBody h, scanObject_quote,
    Bool.not_true, Option.map_map, Option.map_map]
  refine congrArg (Option.map · _) (funext fun r => ?_)
  simp [Json.quote, byte, Char.toUInt8]

/-- Braces around a text are passed together. -/
theorem passes_braces (hs : Passes s) : Passes (byte '\x7b' :: s ++ [byte '\x7d']) := by
  intro depth rest hdepth
  rw [List.cons_append, List.cons_append, List.append_assoc, scanObject_open, hs _ _ (by omega),
    List.singleton_append, scanObject_close, if_neg (by omega), add_sub_cancel_right,
    Option.map_map, Option.map_map]
  simp [Function.comp_def]

/-- From the opening brace, the scan ends at the brace behind the text. -/
theorem scanObject_braces (hs : Passes s) (rest : Str) :
    scanObject 0 false false (byte '\x7b' :: s ++ [byte '\x7d'] ++ rest) =
      some (byte '\x7b' :: s ++ [byte '\x7d']) := by
  rw [List.cons_append, List.cons_append, List.append_assoc, scanObject_open, zero_add,
    hs _ _ (by omega), List.singleton_append, scanObject_close, if_pos (by omega)]
  rfl

end Scan

/-! ### JSON texts -/

section Texts
variable {ch : UInt8} {s : Str}

theorem isPlain_of_isBlank (h : Json.isBlank ch = true) : isPlain ch = true := by
  simp only [Json.isBlank, Bool.or_eq_true, decide_eq_true_eq] at h
  rcases h with ((rfl | rfl) | rfl) | rfl <;> decide

theorem passes_blank (blank : Json.Blank) : Passes blank.text :=
  passes_of_plain (List.all_eq_true.mpr fun ch hch =>
    isPlain_of_isBlank (List.all_eq_true.mp blank.blank ch hch))

theorem isPlain_of_isDigit (h : Json.isDigit ch = true) : isPlain ch = true := by
  have hnot : ∀ c : UInt8, Json.isDigit c = false → ch ≠ c := by
    rintro c hc rfl
    rw [hc] at h
    cases h
  simp [isPlain, hnot (byte '"') (by decide), hnot (byte '\\') (by decide),
    hnot (byte '\x7b') (by decide), hnot (byte '\x7d') (by decide)]

theorem passes_number (h : Json.IsNumber s) : Passes s :=
  passes_of_plain (List.all_eq_true.mpr
    (h.forall_bytes (fun _ => isPlain_of_isDigit) (by decide)))

theorem passes_commaSep : ∀ {l : List Str}, (∀ s ∈ l, Passes s) → Passes (Json.commaSep l)
  | [], _ => passes_nil
  | s :: rest, h => by
    obtain ⟨hs, hrest⟩ := List.forall_mem_cons.mp h
    rw [Json.commaSep_cons]
    refine hs.append (passes_flatMap fun s' hs' => ?_)
    exact Passes.append (s := [byte ',']) (passes_of_plain (by decide)) (hrest s' hs')

theorem passes_member {m : Json.Member} (h : Passes m.text) : Passes m.render := by
  have hcolon : Passes [byte ':'] := passes_of_plain (by decide)
  have hhead : m.head = m.beforeKey.text ++ Json.quote m.keyBody ++ m.afterKey.text ++
      [byte ':'] ++ m.beforeValue.text := by
    simp [Json.Member.head, byte, Char.toUInt8]
  rw [Json.Member.render, hhead]
  exact ((((((passes_blank _).append (passes_quote m.keyText)).append (passes_blank _)).append
    hcolon).append (passes_blank _)).append h).append (passes_blank _)

/-- What stands between the braces of an object. -/
theorem passes_members (blank : Json.Blank) {members : List Json.Member}
    (h : ∀ m ∈ members, Passes m.text) : Passes (if members = [] then blank.text
      else Json.commaSep (members.map Json.Member.render)) := by
  split
  · exact passes_blank blank
  · refine passes_commaSep fun s hs => ?_
    obtain ⟨m, hm, rfl⟩ := List.mem_map.mp hs
    exact passes_member (h m hm)

/-- The scan passes over every JSON text. -/
theorem passes_text {v : Json.Value} (h : v.Text s) : Passes s := by
  induction h with
  | null => exact passes_of_plain (by decide)
  | true => exact passes_of_plain (by decide)
  | false => exact passes_of_plain (by decide)
  | number hnumber => exact passes_number hnumber
  | string hbody => exact passes_quote hbody
  | array blank items _ ih =>
    have hinner : Passes (if items = [] then blank.text
        else Json.commaSep (items.map Json.Item.render)) := by
      split
      · exact passes_blank blank
      · refine passes_commaSep fun s hs => ?_
        obtain ⟨item, hitem, rfl⟩ := List.mem_map.mp hs
        exact ((passes_blank _).append (ih item hitem)).append (passes_blank _)
    exact (Passes.append (s := [byte '[']) (passes_of_plain (by decide)) hinner).append
      (passes_of_plain (by decide))
  | object blank members _ ih => exact passes_braces (passes_members blank ih)

/-- The scan from the brace of an object ends behind the object, whatever follows. -/
theorem scanObject_text (blank : Json.Blank) {members : List Json.Member}
    (h : ∀ m ∈ members, m.value.Text m.text) (rest : Str) :
    scanObject 0 false false (Json.objectText blank members ++ rest) =
      some (Json.objectText blank members) :=
  scanObject_braces (passes_members blank fun m hm => passes_text (h m hm)) rest

end Texts

/-! ## 4. Slices and records -/

section Records
variable {device : Device} {points : List DataPoint} {responseText path : Str}
  {fallbackTime : Double} {point : DataPoint} {record : ResourceRecord} {slice : Slice}

/-- The scan takes a part of the text from its start on. -/
theorem scanObject_prefix : ∀ {s object : Str} {depth : ℤ} {inString escaped : Bool},
    scanObject depth inString escaped s = some object → ∃ rest, s = object ++ rest
  | [], _, _, _, _, h => by cases h
  | ch :: s, object, depth, inString, escaped, h => by
    have hmap : ∀ {depth inString escaped},
        (scanObject depth inString escaped s).map (ch :: ·) = some object →
        ∃ rest, ch :: s = object ++ rest := by
      intro depth inString escaped hscan
      obtain ⟨object', hobject', rfl⟩ := Option.map_eq_some_iff.mp hscan
      obtain ⟨rest, rfl⟩ := scanObject_prefix hobject'
      exact ⟨rest, rfl⟩
    unfold scanObject at h
    split_ifs at h
    all_goals first
      | exact hmap h
      | exact ⟨s, by rw [← Option.some.inj h]; rfl⟩

/-- What `fromObject` finds: behind `before`, which holds the first occurrence of the quoted path and
no brace after it. -/
theorem fromObject_eq_some_iff {before object : Str} (hwhole : before ++ object = responseText)
    (hobject : object.head? = some (byte '\x7b')) :
    fromObject responseText path = some object ↔
      ∃ u gap, before = u ++ quoted path ++ gap ∧ byte '\x7b' ∉ gap ∧
        ∀ v w, responseText = v ++ quoted path ++ w → u.length ≤ v.length := by
  obtain ⟨object', rfl⟩ := List.head?_eq_some_iff.mp hobject
  simp only [fromObject, Option.bind_eq_some_iff, Search.afterFirst_eq_some_iff,
    Search.fromFirst_eq_some_iff]
  constructor
  · rintro ⟨rest, ⟨u, hu, hfirst⟩, gap, r', rfl, hgap, heq⟩
    refine ⟨u, gap, ?_, hgap, hfirst⟩
    rw [← hwhole, ← heq, ← List.append_assoc] at hu
    exact List.append_cancel_right hu
  · rintro ⟨u, gap, rfl, hgap, hfirst⟩
    have hsplit : responseText = u ++ quoted path ++ (gap ++ byte '\x7b' :: object') := by
      rw [← hwhole, List.append_assoc (u ++ quoted path)]
    exact ⟨_, ⟨u, hsplit, hfirst⟩, gap, object', rfl, hgap, rfl⟩

theorem fromObject_of_objectSlice (h : objectSlice responseText path = some slice) :
    fromObject responseText path = some (slice.text ++ slice.after) := by
  obtain ⟨rest, hrest, hscan⟩ := Option.bind_eq_some_iff.mp h
  obtain ⟨object, hobject, rfl⟩ := Option.map_eq_some_iff.mp hscan
  obtain ⟨after, rfl⟩ := scanObject_prefix hobject
  rw [hrest]
  simp

/-- A slice of the response that starts where the scan starts and ends where it ends. -/
theorem objectSlice_of_fromObject (hwhole : slice.whole = responseText)
    (hfrom : fromObject responseText path = some (slice.text ++ slice.after))
    (hscan : scanObject 0 false false (slice.text ++ slice.after) = some slice.text) :
    objectSlice responseText path = some slice := by
  rw [objectSlice, hfrom, Option.bind_some, hscan, ← hwhole]
  simp [Slice.whole]

theorem recordFor_eq_some : recordFor device responseText fallbackTime point = some record ↔
    extractArrayFieldText (extractObjectForPath responseText point.namePath) (lit "value") ≠ [] ∧
      recordOf device fallbackTime point (extractObjectForPath responseText point.namePath) =
        record := by
  have hnil : extractArrayFieldText [] (lit "value") = [] := rfl
  rw [recordFor]
  split
  · next hempty => simp [hempty, hnil]
  · show (if (recordOf device fallbackTime point _).data = [] then none else some _) = _ ↔ _
    by_cases hvalue :
      extractArrayFieldText (extractObjectForPath responseText point.namePath) (lit "value") = []
    · simp [recordOf, hvalue]
    · simp [recordOf, hvalue]

/-- The records of a response are those of the points, in their order. -/
theorem processResponse_ok {records : List ResourceRecord} :
    processResponse device points responseText fallbackTime = .ok records ↔
      points.filterMap (recordFor device responseText fallbackTime) = records ∧ records ≠ [] := by
  rw [processResponse]
  split
  · next hempty =>
    refine iff_of_false (by simp) ?_
    rintro ⟨rfl, hne⟩
    exact hne hempty
  · next hne =>
    rw [Except.ok.injEq]
    exact ⟨fun h => ⟨h, h ▸ hne⟩, And.left⟩

/-- The records carry the name of the device. -/
theorem processResponse_deviceName {records : List ResourceRecord}
    (h : processResponse device points responseText fallbackTime = .ok records) :
    ∀ record ∈ records, record.deviceName = device.name := by
  intro record hrecord
  rw [← (processResponse_ok.mp h).1] at hrecord
  obtain ⟨point, -, hpoint⟩ := List.mem_filterMap.mp hrecord
  rw [← (recordFor_eq_some.mp hpoint).2]
  rfl

end Records

end CollectionResponseParser

end CollectorService
