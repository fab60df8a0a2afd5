import CollectorService.JsonReading
import CollectorService.Provenance

/-!
# Scalar fields

The fields of a path's object are searched from the first colon behind the first occurrence of their
quoted name: a number from the next digit or minus sign on, a string from the next quote on. Neither
search stops at the end of the member.

* `foundNumber_eq_some_iff`, `foundString_eq_some_iff`: what is found, in terms of the text alone.
* `scalarFields_iff`: the five fields of every record are the object's own exactly when none of them is
  mistaken for another member.
-/

namespace CollectorService.CollectionResponseParser

open Json (Blank Member Value objectText objectAfter)

/-! ## 1. What the searches find -/

/-- The text behind the first colon behind the first occurrence of the quoted name. -/
def BehindColon (text name rest : Str) : Prop :=
  ∃ gap, Search.Behind (quoted name) text (gap ++ byte ':' :: rest) ∧ byte ':' ∉ gap

/-- The first digit or minus sign behind the colon begins a text of number characters, and `stod`
reads the number. -/
def NumberBehind (text name : Str) (number : Double) : Prop :=
  ∃ gap run rest, BehindColon text name (gap ++ run ++ rest) ∧
    (∀ ch ∈ gap, isIntChar ch = false) ∧ (∃ ch ∈ run.head?, isIntChar ch = true) ∧
    (∀ ch ∈ run, isNumberChar ch = true) ∧ (∀ ch ∈ rest.head?, isNumberChar ch = false) ∧
    stod run = some number

/-- A text between quotes and the string that it gives when a backslash takes the next byte as it
is. -/
inductive Unescaped : Str → Str → Prop
  | nil : Unescaped [] []
  | plain {ch : UInt8} {body value : Str} : ch ≠ byte '"' → ch ≠ byte '\\' → Unescaped body value →
      Unescaped (ch :: body) (ch :: value)
  | escape (ch : UInt8) {body value : Str} : Unescaped body value →
      Unescaped (byte '\\' :: ch :: body) (ch :: value)

/-- The first quote behind the colon begins the string. -/
def StringBehind (text name value : Str) : Prop :=
  ∃ gap body rest, BehindColon text name (gap ++ byte '"' :: (body ++ byte '"' :: rest)) ∧
    byte '"' ∉ gap ∧ Unescaped body value

def behindColon (text name : Str) : Option Str :=
  (Search.afterFirst (quoted name) text).bind fun rest =>
    (Search.fromFirst (· = byte ':') rest).map List.tail

def foundNumber (text name : Str) : Option Double :=
  (behindColon text name).bind fun rest => (Search.fromFirst isIntChar rest).bind fun run =>
    stod (run.takeWhile isNumberChar)

def foundString (text name : Str) : Option Str :=
  (behindColon text name).bind fun rest => (Search.fromFirst (· = byte '"') rest).bind fun string =>
    scanString false string.tail

section Found
variable {text name rest value : Str} {number fallback : Double}

theorem behindColon_eq_some_iff :
    behindColon text name = some rest ↔ BehindColon text name rest := by
  simp only [behindColon, Option.bind_eq_some_iff, Option.map_eq_some_iff,
    Search.fromFirst_eq_some_iff, Search.afterFirst_eq_some_iff]
  constructor
  · rintro ⟨_, hbehind, _, ⟨gap, rest', rfl, hgap, rfl⟩, rfl⟩
    exact ⟨gap, hbehind, hgap⟩
  · rintro ⟨gap, hbehind, hgap⟩
    exact ⟨_, hbehind, _, ⟨gap, rest, rfl, hgap, rfl⟩, rfl⟩

theorem foundNumber_eq_some_iff :
    foundNumber text name = some number ↔ NumberBehind text name number := by
  simp only [foundNumber, Option.bind_eq_some_iff, behindColon_eq_some_iff]
  constructor
  · rintro ⟨_, hbehind, found, hfound, hstod⟩
    obtain ⟨gap, ch, found', rfl, rfl, hch, hgap⟩ := Search.fromFirst_eq_some hfound
    refine ⟨gap, _, (ch :: found').dropWhile isNumberChar, ?_, hgap, ⟨ch, ?_, hch⟩,
      fun c hc => List.mem_takeWhile_imp hc, ?_, hstod⟩
    · rwa [List.append_assoc, List.takeWhile_append_dropWhile]
    · have hnumber : isNumberChar ch = true := by simp [isNumberChar, hch]
      rw [List.takeWhile_cons_of_pos hnumber]
      rfl
    · intro c hc
      have hdrop := List.head?_dropWhile_not isNumberChar (ch :: found')
      rw [Option.mem_def.mp hc] at hdrop
      exact hdrop
  · rintro ⟨gap, run, rest, hbehind, hgap, ⟨ch, hhead, hch⟩, hrun, hrest, hstod⟩
    refine ⟨_, hbehind, run ++ rest, ?_, ?_⟩
    · obtain ⟨run', rfl⟩ := List.head?_eq_some_iff.mp hhead
      rw [List.append_assoc, Search.fromFirst_append hgap, List.cons_append, Search.fromFirst,
        if_pos hch]
    · rwa [Search.takeWhile_run hrun hrest]

theorem extractNumberField_eq (fallback : Double) :
    extractNumberField text name fallback = (foundNumber text name).getD fallback := by
  unfold extractNumberField foundNumber behindColon
  cases Search.afterFirst (quoted name) text with
  | none => rfl
  | some rest =>
    simp only [Option.bind_some]
    cases Search.fromFirst (· = byte ':') rest with
    | none => rfl
    | some colon =>
      simp only [Option.map_some, Option.bind_some]
      cases Search.fromFirst isIntChar colon.tail <;> rfl

theorem scanString_sound : ∀ {text value : Str}, scanString false text = some value →
    ∃ body rest, text = body ++ byte '"' :: rest ∧ Unescaped body value
  | [], _, h => by cases h
  | [ch], _, h => by
    unfold scanString at h
    split_ifs at h with hescape hquote
    · cases h
    · cases h
      exact ⟨[], [], by rw [hquote]; rfl, .nil⟩
    · cases h
  | ch :: next :: text, value, h => by
    unfold scanString at h
    split_ifs at h with hescape hquote
    · obtain ⟨value', hvalue', rfl⟩ := Option.map_eq_some_iff.mp h
      obtain ⟨body, rest, rfl, hbody⟩ := scanString_sound hvalue'
      exact ⟨byte '\\' :: next :: body, rest, by rw [hescape]; rfl, .escape next hbody⟩
    · cases h
      exact ⟨[], next :: text, by rw [hquote]; rfl, .nil⟩
    · obtain ⟨value', hvalue', rfl⟩ := Option.map_eq_some_iff.mp h
      obtain ⟨body, rest, htext, hbody⟩ := scanString_sound hvalue'
      exact ⟨ch :: body, rest, by rw [htext]; rfl, .plain hquote hescape hbody⟩

theorem Unescaped.scanString {body : Str} (h : Unescaped body value) (rest : Str) :
    scanString false (body ++ byte '"' :: rest) = some value := by
  induction h with
  | nil => rfl
  | plain hquote hescape _ ih =>
    rw [List.cons_append, CollectorService.scanString, if_neg hescape, if_neg hquote, ih]
    rfl
  | escape ch _ ih =>
    rw [List.cons_append, List.cons_append, CollectorService.scanString, if_pos rfl,
      CollectorService.scanString, ih]
    rfl

theorem foundString_eq_some_iff :
    foundString text name = some value ↔ StringBehind text name value := by
  simp only [foundString, Option.bind_eq_some_iff, behindColon_eq_some_iff,
    Search.fromFirst_eq_some_iff]
  constructor
  · rintro ⟨_, hbehind, _, ⟨gap, string, rfl, hgap, rfl⟩, hscan⟩
    obtain ⟨body, rest, rfl, hbody⟩ := scanString_sound hscan
    exact ⟨gap, body, rest, hbehind, hgap, hbody⟩
  · rintro ⟨gap, body, rest, hbehind, hgap, hbody⟩
    exact ⟨_, hbehind, _, ⟨gap, _, rfl, hgap, rfl⟩, hbody.scanString rest⟩

theorem extractStringField_eq_found :
    extractStringField text name = (foundString text name).getD [] := by
  unfold extractStringField foundString behindColon
  cases Search.afterFirst (quoted name) text with
  | none => rfl
  | some rest =>
    simp only [Option.bind_some]
    cases hcolon : Search.fromFirst (· = byte ':') rest with
    | none => rfl
    | some colon =>
      obtain ⟨gap, colon, -, -, rfl⟩ := Search.fromFirst_eq_some_iff.mp hcolon
      -- the search for the quote may start at the colon
      have hskip : Search.fromFirst (· = byte '"') (byte ':' :: colon) =
          Search.fromFirst (· = byte '"') colon := rfl
      simp only [hskip, Option.map_some, Option.bind_some, List.tail_cons]
      cases Search.fromFirst (· = byte '"') colon <;> rfl

/-- A number field is the fallback, whatever that is, exactly when no number is found. -/
theorem extractNumberField_fallback_iff :
    (∀ fallback, extractNumberField text name fallback = fallback) ↔
      ∀ number, ¬ NumberBehind text name number := by
  simp only [extractNumberField_eq, ← foundNumber_eq_some_iff]
  cases hfound : foundNumber text name with
  | none => simp
  | some number =>
    refine iff_of_false (fun h => ?_) fun h => h number rfl
    have hzero := h (.ofRat 0)
    have hone := h (.ofRat 1)
    simp only [Option.getD_some] at hzero hone
    rw [hzero] at hone
    exact absurd hone (by decide)

theorem fieldOr_eq_found (pointText : Str) :
    fieldOr text name pointText = ((foundString text name).filter (· ≠ [])).getD pointText := by
  rw [fieldOr, extractStringField_eq_found]
  cases foundString text name with
  | none => rfl
  | some value => cases value <;> rfl

/-- A text field is the text of the point, whatever that is, exactly when no text is found. -/
theorem fieldOr_pointText_iff : (∀ pointText, fieldOr text name pointText = pointText) ↔
    ∀ value ≠ [], ¬ StringBehind text name value := by
  simp only [fieldOr_eq_found, ← foundString_eq_some_iff]
  cases hfound : foundString text name with
  | none => simp
  | some value =>
    cases value with
    | nil =>
      refine iff_of_true (fun _ => rfl) ?_
      rintro value hvalue ⟨⟩
      exact hvalue rfl
    | cons ch value =>
      exact iff_of_false (fun h => List.cons_ne_nil ch value (h []))
        fun h => h _ (List.cons_ne_nil ch value) rfl

end Found

/-! ## 2. Objects -/

/-- The object of a path in its text. -/
structure PathObject where
  blank : Blank := {}
  members : List Member
  membersText : ∀ m ∈ members, m.value.Text m.text

namespace PathObject

variable (o : PathObject)

def text : Str := objectText o.blank o.members

/-- The member with this name. -/
def member (name : Str) : Option Member := o.members.find? (·.key = name)

/-- The text of the member's number. -/
def numberText (name : Str) : Option Str :=
  (o.member name).bind fun m => match m.value with
    | .number text => some text
    | _ => none

/-- The member's string, unless it is empty. -/
def stringBytes (name : Str) : Option Str :=
  (o.member name).bind fun m => match m.value with
    | .string bytes => if bytes = [] then none else some bytes
    | _ => none

/-- The field is the object's own number, or the fallback where the object has none. -/
def NumberRead (name : Str) (fallback read : Double) : Prop :=
  match o.numberText name with
  | some text => stod text = some read
  | none => read = fallback

/-- The field is the object's own text, or that of the point where the object has none. -/
def StringRead (name pointText read : Str) : Prop := read = (o.stringBytes name).getD pointText

/-- The first occurrence of the quoted name is the key of the member. -/
def OwnFirst (name : Str) (m : Member) : Prop := ∃ l l', o.members = l ++ m :: l' ∧
  Search.Behind (quoted name) o.text
    (m.afterKey.text ++ byte ':' :: (m.beforeValue.text ++ m.text ++ objectAfter m l'))

/-- A number of this name, within the range, is what stands behind the first occurrence of the
quoted name; without such a number there is no digit or minus sign to be taken for one. -/
structure NumberUnmistaken (name : Str) : Prop where
  own : ∀ m text, o.member name = some m → m.value = .number text →
    ∃ number, stod text = some number ∧ (o.OwnFirst name m ∨ NumberBehind o.text name number)
  other : o.numberText name = none → ∀ number, ¬ NumberBehind o.text name number

/-- A string of this name, which is written without control characters and code units, is what
stands behind the first occurrence of the quoted name; without such a string there is no quote to be
taken for one. -/
structure StringUnmistaken (name : Str) : Prop where
  own : ∀ m bytes, o.member name = some m → m.value = .string bytes → bytes ≠ [] →
    (o.OwnFirst name m ∧ ∃ body, m.text = Json.quote body ∧ Unescaped body bytes) ∨
      StringBehind o.text name bytes
  other : o.stringBytes name = none → ∀ value ≠ [], ¬ StringBehind o.text name value

section Own
variable {o} {name text bytes body : Str} {m : Member}

theorem notMem_blank {blank : Blank} {ch : UInt8} (h : Json.isBlank ch = false) :
    ch ∉ blank.text := fun hmem => by
  rw [List.all_eq_true.mp blank.blank ch hmem] at h
  cases h

theorem stops_objectAfter (m : Member) (l : List Member) : Json.Stops (objectAfter m l) := by
  rw [objectAfter, List.append_assoc]
  cases l with
  | nil => exact Json.stops_blank (by decide)
  | cons m' l => exact Json.stops_blank (by decide)

theorem isNumberChar_eq (ch : UInt8) : isNumberChar ch = Json.isNumberByte ch :=
  Json.forall_byte (P := fun ch => isNumberChar ch = Json.isNumberByte ch) (by decide +kernel) ch

theorem isIntChar_blank {ch : UInt8} (h : Json.isBlank ch = true) : isIntChar ch = false :=
  Json.forall_byte (P := fun ch => Json.isBlank ch = true → isIntChar ch = false)
    (by decide +kernel) ch h

theorem mem_of_member (h : o.member name = some m) : m ∈ o.members := List.mem_of_find?_eq_some h

theorem OwnFirst.behindColon (h : o.OwnFirst name m) : ∃ l, BehindColon o.text name
    (m.beforeValue.text ++ m.text ++ objectAfter m l) := by
  obtain ⟨l, l', -, hbehind⟩ := h
  exact ⟨l', _, hbehind, notMem_blank (by decide)⟩

theorem OwnFirst.numberBehind (h : o.OwnFirst name m) (hvalue : m.value = .number text)
    (htext : m.value.Text m.text) {number : Double} (hstod : stod text = some number) :
    NumberBehind o.text name number := by
  obtain ⟨l, hbehind⟩ := h.behindColon
  rw [hvalue] at htext
  obtain ⟨ch, rest, hs, hch⟩ := htext.starts
  generalize m.text = s at htext hbehind hs
  cases htext with
  | number hnumber =>
    refine ⟨_, text, _, hbehind, ?_, ⟨ch, by rw [hs]; rfl, ?_⟩, ?_, ?_, hstod⟩
    · exact fun c hc => isIntChar_blank (List.all_eq_true.mp m.beforeValue.blank c hc)
    · rcases hch with hch | rfl
      · simp only [isIntChar, Bool.or_eq_true]
        exact .inr hch
      · decide
    · exact fun c hc => (isNumberChar_eq c).trans (hnumber.isNumberByte c hc)
    · exact fun c hc => (isNumberChar_eq c).trans (stops_objectAfter m l c hc)

theorem OwnFirst.stringBehind (h : o.OwnFirst name m) (htext : m.text = Json.quote body)
    (hbody : Unescaped body bytes) : StringBehind o.text name bytes := by
  obtain ⟨l, hbehind⟩ := h.behindColon
  refine ⟨m.beforeValue.text, body, objectAfter m l, ?_, notMem_blank (by decide), hbody⟩
  have hsplit : m.beforeValue.text ++ m.text ++ objectAfter m l =
      m.beforeValue.text ++ byte '"' :: (body ++ byte '"' :: objectAfter m l) := by
    simp only [htext, Json.quote, List.append_assoc, List.cons_append, List.nil_append]
    rfl
  rwa [hsplit] at hbehind

theorem numberText_eq_some_iff : o.numberText name = some text ↔
    ∃ m, o.member name = some m ∧ m.value = .number text := by
  rw [numberText, Option.bind_eq_some_iff]
  refine exists_congr fun m => and_congr_right fun _ => ?_
  cases m.value <;> simp

theorem stringBytes_eq_some_iff : o.stringBytes name = some bytes ↔
    ∃ m, o.member name = some m ∧ m.value = .string bytes ∧ bytes ≠ [] := by
  rw [stringBytes, Option.bind_eq_some_iff]
  refine exists_congr fun m => and_congr_right fun _ => ?_
  cases m.value with
  | string value =>
    cases value with
    | nil => simp
    | cons ch value =>
      simp only [List.cons_ne_nil, if_false, Option.some.injEq, Value.string.injEq, ne_eq]
      exact ⟨fun h => ⟨h, h ▸ List.cons_ne_nil ch value⟩, And.left⟩
  | _ => simp

/-- A time is right, whatever the fallback, exactly when the number of this name is not mistaken. -/
theorem numberRead_iff :
    (∀ fallback, o.NumberRead name fallback (extractNumberField o.text name fallback)) ↔
      o.NumberUnmistaken name := by
  unfold NumberRead
  cases hnumber : o.numberText name with
  | none =>
    simp only
    rw [extractNumberField_fallback_iff]
    refine ⟨fun h => ⟨fun m text hm hvalue => ?_, fun _ => h⟩, fun h => h.other hnumber⟩
    rw [numberText_eq_some_iff.mpr ⟨m, hm, hvalue⟩] at hnumber
    cases hnumber
  | some text =>
    simp only [extractNumberField_eq]
    obtain ⟨m, hm, hvalue⟩ := numberText_eq_some_iff.mp hnumber
    constructor
    · intro h
      refine ⟨fun m' text' hm' hvalue' => ?_, fun hnone => by rw [hnone] at hnumber; cases hnumber⟩
      obtain rfl : text = text' :=
        Option.some.inj (hnumber.symm.trans (numberText_eq_some_iff.mpr ⟨m', hm', hvalue'⟩))
      refine ⟨_, h default, .inr (foundNumber_eq_some_iff.mp ?_)⟩
      -- two fallbacks cannot both be the number
      cases hfound : foundNumber o.text name with
      | some number => rfl
      | none =>
        have hzero := h (.ofRat 0)
        have hone := h (.ofRat 1)
        rw [hfound, Option.getD_none] at hzero hone
        exact absurd (hzero.symm.trans hone) (by decide)
    · intro h fallback
      obtain ⟨number, hstod, hfirst⟩ := h.own m text hm hvalue
      have hbehind : NumberBehind o.text name number :=
        hfirst.elim (·.numberBehind hvalue (o.membersText m (mem_of_member hm)) hstod) id
      rw [foundNumber_eq_some_iff.mpr hbehind, Option.getD_some, hstod]

/-- A text is right, whatever that of the point, exactly when the string of this name is not
mistaken. -/
theorem stringRead_iff :
    (∀ pointText, o.StringRead name pointText (fieldOr o.text name pointText)) ↔
      o.StringUnmistaken name := by
  unfold StringRead
  cases hstring : o.stringBytes name with
  | none =>
    simp only [Option.getD_none]
    rw [fieldOr_pointText_iff]
    refine ⟨fun h => ⟨fun m bytes hm hvalue hne => ?_, fun _ => h⟩, fun h => h.other hstring⟩
    rw [stringBytes_eq_some_iff.mpr ⟨m, hm, hvalue, hne⟩] at hstring
    cases hstring
  | some bytes =>
    simp only [Option.getD_some, fieldOr_eq_found]
    obtain ⟨m, hm, hvalue, hne⟩ := stringBytes_eq_some_iff.mp hstring
    constructor
    · intro h
      refine ⟨fun m' bytes' hm' hvalue' hne' => ?_,
        fun hnone => by rw [hnone] at hstring; cases hstring⟩
      obtain rfl : bytes = bytes' :=
        Option.some.inj (hstring.symm.trans (stringBytes_eq_some_iff.mpr ⟨m', hm', hvalue', hne'⟩))
      refine .inr (foundString_eq_some_iff.mp ?_)
      -- the text of the point cannot always be the string
      cases hfound : (foundString o.text name).filter (· ≠ []) with
      | some value =>
        have hbytes := h []
        rw [hfound] at hbytes
        rw [(Option.filter_eq_some_iff.mp hfound).1]
        exact congrArg some hbytes
      | none =>
        have hnil := h []
        rw [hfound] at hnil
        exact absurd hnil.symm hne
    · intro h pointText
      have hbehind : StringBehind o.text name bytes :=
        (h.own m bytes hm hvalue hne).elim
          (fun ⟨hfirst, _, htext, hbody⟩ => hfirst.stringBehind htext hbody) id
      rw [foundString_eq_some_iff.mpr hbehind]
      cases bytes with
      | nil => exact absurd rfl hne
      | cons ch bytes => rfl

end Own

end PathObject

/-! ## 3. Records -/

open PathObject

/-- The five fields are the object's own, or the fallback time and the texts of the point. -/
structure FieldsOwn (o : PathObject) (fallbackTime : Double) (point : DataPoint)
    (record : ResourceRecord) : Prop where
  devTime : o.NumberRead (lit "dev_time") fallbackTime record.devTime
  svrTime : o.NumberRead (lit "svr_time") fallbackTime record.svrTime
  dataItemPath : o.StringRead (lit "item_path") point.itemPath record.dataItemPath
  dataItemName : o.StringRead (lit "item_name") point.itemName record.dataItemName
  dataItemDescription :
    o.StringRead (lit "item_description") point.itemDescription record.dataItemDescription

/-- Every record that is read from the object has the object's own fields. -/
def ScalarFieldsRead (o : PathObject) : Prop :=
  ∀ (device : Device) (responseText : Str) (fallbackTime : Double) (point : DataPoint)
    (record : ResourceRecord), extractObjectForPath responseText point.namePath = o.text →
    recordFor device responseText fallbackTime point = some record →
    FieldsOwn o fallbackTime point record

/-- None of the five fields is mistaken for something else. -/
structure Unmistaken (o : PathObject) : Prop where
  devTime : o.NumberUnmistaken (lit "dev_time")
  svrTime : o.NumberUnmistaken (lit "svr_time")
  itemPath : o.StringUnmistaken (lit "item_path")
  itemName : o.StringUnmistaken (lit "item_name")
  itemDescription : o.StringUnmistaken (lit "item_description")

section Records
variable (o : PathObject)

/-- A response with the object under the path `/P`. -/
def responseOf : Str :=
  lit "\x7b\"data\":\x7b\"/P\":" ++ (o.text ++ lit "\x7d\x7d")

theorem extractObjectForPath_responseOf :
    extractObjectForPath (responseOf o) (lit "/P") = o.text := by
  have hbehind : Search.afterFirst (quoted (lit "/P")) (responseOf o) =
      some (byte ':' :: (o.text ++ lit "\x7d\x7d")) := rfl
  have hfrom : fromObject (responseOf o) (lit "/P") = some (o.text ++ lit "\x7d\x7d") := by
    rw [fromObject, hbehind]
    rfl
  rw [extractObjectForPath, objectSlice, hfrom, Option.bind_some, PathObject.text,
    scanObject_text o.blank o.membersText]
  rfl

/-- The fields of every record are the object's own exactly when the object has no array `value`, or
none of the five fields is mistaken. -/
theorem scalarFields_iff : ScalarFieldsRead o ↔
    (extractArrayFieldText o.text (lit "value") ≠ [] → Unmistaken o) := by
  constructor
  · intro h hvalue
    have hrecord (fallbackTime : Double) (text : Str) :
        FieldsOwn o fallbackTime _ _ :=
      h {} (responseOf o) fallbackTime
        { namePath := lit "/P", itemPath := text, itemName := text, itemDescription := text } _
        (extractObjectForPath_responseOf o)
        (recordFor_eq_some.mpr ⟨by rwa [extractObjectForPath_responseOf], rfl⟩)
    simp only [extractObjectForPath_responseOf] at hrecord
    exact {
      devTime := numberRead_iff.mp fun fallback => (hrecord fallback []).devTime
      svrTime := numberRead_iff.mp fun fallback => (hrecord fallback []).svrTime
      itemPath := stringRead_iff.mp fun text => (hrecord default text).dataItemPath
      itemName := stringRead_iff.mp fun text => (hrecord default text).dataItemName
      itemDescription := stringRead_iff.mp fun text => (hrecord default text).dataItemDescription }
  · intro h device responseText fallbackTime point record hobject hrecord
    obtain ⟨hvalue, rfl⟩ := recordFor_eq_some.mp hrecord
    rw [hobject] at hvalue ⊢
    have hfields := h hvalue
    exact {
      devTime := numberRead_iff.mpr hfields.devTime _
      svrTime := numberRead_iff.mpr hfields.svrTime _
      dataItemPath := stringRead_iff.mpr hfields.itemPath _
      dataItemName := stringRead_iff.mpr hfields.itemName _
      dataItemDescription := stringRead_iff.mpr hfields.itemDescription _ }

end Records

/-! ## 4. Null members -/

def scalarMember (name : String) (h : (lit name).all isUnescaped = true) (value : Value)
    (text : Str) : Member where
  key := lit name
  keyBody := lit name
  keyText := stringBody_lit name h
  value := value
  text := text

/-- `{"value":[1],"dev_time":null,"svr_time":17,"item_path":null,"item_name":"load"}` -/
def nullObject : PathObject where
  members := [valueMember (byte '1'), scalarMember "dev_time" (by decide) .null (lit "null"),
    scalarMember "svr_time" (by decide) (.number (lit "17")) (lit "17"),
    scalarMember "item_path" (by decide) .null (lit "null"),
    scalarMember "item_name" (by decide) (.string (lit "load")) (lit "\"load\"")]
  membersText m hm := by
    have hnumber : Json.IsNumber (lit "17") := ⟨[], lit "17", [], [], rfl, .inl rfl,
      ⟨⟨by decide, by decide⟩, by decide⟩, .inl rfl, .inl rfl⟩
    simp only [List.mem_cons, List.not_mem_nil, or_false] at hm
    rcases hm with rfl | rfl | rfl | rfl | rfl
    · exact valueMember_text (by decide)
    · exact .null
    · exact .number hnumber
    · exact .null
    · exact .string (stringBody_self (by decide))

/-- The null `dev_time` is read as the number of `svr_time`, and the null `item_path` as the name of
the next member. -/
theorem nullObject_not_read :
    (recordFor {} (responseOf nullObject) default { namePath := lit "/P" }).map
        (fun record => (record.devTime, record.dataItemPath)) =
      some (.ofRat 17, lit "item_name") ∧ ¬ ScalarFieldsRead nullObject := by
  have hrecord : (recordFor {} (responseOf nullObject) default { namePath := lit "/P" }).map
        (fun record => (record.devTime, record.dataItemPath)) =
      some (.ofRat 17, lit "item_name") := by decide +kernel
  refine ⟨hrecord, fun h => ?_⟩
  obtain ⟨record, hrecord, hfields⟩ := Option.map_eq_some_iff.mp hrecord
  -- the time should be the fallback
  have hnull : nullObject.numberText (lit "dev_time") = none := by decide +kernel
  have hown := h {} (responseOf nullObject) default { namePath := lit "/P" } record
    (extractObjectForPath_responseOf nullObject) hrecord
  have htime := hown.devTime
  rw [NumberRead, hnull, (Prod.mk.inj hfields).1] at htime
  exact absurd htime (by decide)

end CollectorService.CollectionResponseParser
