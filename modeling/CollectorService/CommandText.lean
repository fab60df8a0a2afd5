import CollectorService.CollectionResponseParser
import CollectorService.CommandParser
import CollectorService.JsonUtil
import Mathlib.Data.List.TakeWhile

/-!
# Commands as clients write them

A command is a JSON object of fixed members around a `params` object. `Request.text` writes it with
any layout, and the results say what `extractStringField` and `extractIntField` read from it. Both
search the whole text for the quoted name of the field, so that a value may be taken for the key.

* `Entry.Mentions`: the strings of a member at which a search for a field name stops.
* `FirstMention.extractStringField`, `FirstMention.extractIntField`: what is read behind the first
  such member.
* `fieldsRead_iff`: every field is read as it was sent exactly when the first such member is the
  field's own, or what stands behind it happens to be the same.
-/

namespace CollectorService.CommandText

/-! ## 1. Requests -/

/-- An integer in the range of `int`, as JSON writes it. -/
structure IntLiteral where
  negative : Bool
  digits : Str
  nonempty : digits ≠ []
  decimal : ∀ ch ∈ digits, isDigit ch = true
  lower : -2 ^ 31 ≤ if negative then -(digitsValue digits : ℤ) else digitsValue digits
  upper : (if negative then -(digitsValue digits : ℤ) else digitsValue digits) < 2 ^ 31

namespace IntLiteral

def value (n : IntLiteral) : ℤ :=
  if n.negative then -(digitsValue n.digits : ℤ) else digitsValue n.digits

def text (n : IntLiteral) : Str := (if n.negative then [byte '-'] else []) ++ n.digits

end IntLiteral

/-- The members of `params` that hold a string. -/
inductive TextKey where
  | deviceName | oldDeviceName | model | modelVersion | driverPath | ipAddr | ip | addr
  deriving DecidableEq

def TextKey.name : TextKey → Str
  | deviceName => lit "device_name"
  | oldDeviceName => lit "old_device_name"
  | model => lit "model"
  | modelVersion => lit "model_version"
  | driverPath => lit "driver_path"
  | ipAddr => lit "IpAddr"
  | ip => lit "ip"
  | addr => lit "addr"

/-- The members of `params` that hold an integer. -/
inductive NumberKey where
  | sampleInterval | status | capitalStatus | port
  deriving DecidableEq

def NumberKey.name : NumberKey → Str
  | sampleInterval => lit "SampleInterval"
  | status => lit "status"
  | capitalStatus => lit "Status"
  | port => lit "Port"

/-- The white space around the key and the value of a member. -/
structure Layout where
  beforeKey : Json.Blank := {}
  afterKey : Json.Blank := {}
  beforeValue : Json.Blank := {}
  afterValue : Json.Blank := {}

inductive Param where
  | text (layout : Layout) (key : TextKey) (value : Str)
  | number (layout : Layout) (key : NumberKey) (value : IntLiteral)

def Param.name : Param → Str
  | .text _ key _ => key.name
  | .number _ key _ => key.name

/-- A member of the envelope. -/
structure Field where
  layout : Layout := {}
  value : Str

/-- A command: the envelope, and the members of `params`, each at most once, in any order. -/
structure Request where
  before : Json.Blank := {}
  type : Field
  uid : Field
  pid : Field
  cmd : Layout := {}
  category : Field
  params : Layout := {}
  members : List Param
  distinct : (members.map Param.name).Nodup
  /-- The white space between the braces of `params` without members. -/
  empty : Json.Blank := {}
  mid : Field
  after : Json.Blank := {}

/-! ## 2. Texts -/

/-- A string in quotes, with a backslash before every quote and every backslash. -/
def stringText (value : Str) : Str := quoted (quotedBody value)

def memberText (layout : Layout) (key valueText : Str) : Str :=
  layout.beforeKey.text ++ quoted key ++ layout.afterKey.text ++ lit ":" ++
    layout.beforeValue.text ++ valueText ++ layout.afterValue.text

def Field.text (key : Str) (field : Field) : Str :=
  memberText field.layout key (stringText field.value)

def Param.render : Param → Str
  | .text layout key value => memberText layout key.name (stringText value)
  | .number layout key value => memberText layout key.name value.text

def objectText (blank : Json.Blank) (members : List Str) : Str :=
  lit "\x7b" ++ (if members = [] then blank.text else Json.commaSep members) ++ lit "\x7d"

def Request.paramsText (r : Request) : Str := objectText r.empty (r.members.map Param.render)

def Request.cmdText (r : Request) : Str :=
  objectText {} [r.category.text (lit "category"),
    memberText r.params (lit "params") r.paramsText]

def Request.text (r : Request) : Str :=
  r.before.text ++ objectText {} [r.type.text (lit "type"), r.uid.text (lit "uid"),
    r.pid.text (lit "pid"), memberText r.cmd (lit "cmd") r.cmdText, r.mid.text (lit "mid")] ++
      r.after.text

/-! ## 3. Requests as lists of members -/

/-- A byte between two members: white space, a brace or a comma. -/
def isGapChar (ch : UInt8) : Bool :=
  Json.isBlank ch || ch = byte '\x7b' || ch = byte '\x7d' || ch = byte ','

/-- What stands between two members. -/
structure Gap where
  text : Str
  gap : text.all isGapChar = true

/-- The value of a member, up to the brace of an object. -/
inductive EntryValue where
  | string (value : Str)
  | number (value : IntLiteral)
  | object

def EntryValue.text : EntryValue → Str
  | .string value => stringText value
  | .number value => value.text
  | .object => lit "\x7b"

/-- A member of the text, at any depth. -/
structure Entry where
  before : Gap
  key : Str
  afterKey : Json.Blank
  beforeValue : Json.Blank
  value : EntryValue
  close : Gap

/-- The text of a member from behind its colon on. -/
def Entry.behindColon (e : Entry) : Str := e.beforeValue.text ++ e.value.text ++ e.close.text

def Entry.text (e : Entry) : Str :=
  e.before.text ++ quoted e.key ++ (e.afterKey.text ++ lit ":" ++ e.behindColon)

theorem isGapChar_of_isBlank {ch : UInt8} (h : Json.isBlank ch = true) : isGapChar ch = true := by
  simp [isGapChar, h]

def Gap.ofBlank (blank : Json.Blank) : Gap where
  text := blank.text
  gap := List.all_eq_true.mpr fun ch hch =>
    isGapChar_of_isBlank (List.all_eq_true.mp blank.blank ch hch)

def Gap.append (g g' : Gap) : Gap where
  text := g.text ++ g'.text
  gap := by rw [List.all_append, g.gap, g'.gap, Bool.and_self]

/-- A comma or a brace. -/
def Gap.single (ch : UInt8) (h : isGapChar ch = true := by decide) : Gap where
  text := [ch]
  gap := by simpa using h

def Gap.none : Gap := ⟨[], rfl⟩

/-- A member behind some other text. -/
def entryOf (lead : Gap) (layout : Layout) (key : Str) (value : EntryValue) : Entry where
  before := lead.append (.ofBlank layout.beforeKey)
  key := key
  afterKey := layout.afterKey
  beforeValue := layout.beforeValue
  value := value
  close := .ofBlank layout.afterValue

def Field.entry (lead : Gap) (key : Str) (field : Field) : Entry :=
  entryOf lead field.layout key (.string field.value)

def Param.entry (lead : Gap) : Param → Entry
  | .text layout key value => entryOf lead layout key.name (.string value)
  | .number layout key value => entryOf lead layout key.name (.number value)

def memberEntries : List Param → List Entry
  | [] => []
  | p :: rest => p.entry .none :: rest.map (·.entry (.single (byte ',')))

/-- The key of an object, with its opening brace and the white space of an empty object. -/
def objectEntry (lead : Gap) (layout : Layout) (key : Str) (close : Gap) : Entry :=
  { entryOf lead layout key .object with close }

/-- The members of a request, in the order of the text. -/
def Request.entries (r : Request) : List Entry :=
  [r.type.entry ((Gap.ofBlank r.before).append (.single (byte '\x7b'))) (lit "type"),
    r.uid.entry (.single (byte ',')) (lit "uid"), r.pid.entry (.single (byte ',')) (lit "pid"),
    objectEntry (.single (byte ',')) r.cmd (lit "cmd") .none,
    r.category.entry .none (lit "category"),
    objectEntry (.single (byte ',')) r.params (lit "params")
      (if r.members = [] then .ofBlank r.empty else .none)] ++
  memberEntries r.members ++
  [{ r.mid.entry ((Gap.single (byte '\x7d')).append ((Gap.ofBlank r.params.afterValue).append
        ((Gap.single (byte '\x7d')).append ((Gap.ofBlank r.cmd.afterValue).append
          (.single (byte ',')))))) (lit "mid") with
      close := (Gap.ofBlank r.mid.layout.afterValue).append ((Gap.single (byte '\x7d')).append
        (.ofBlank r.after)) }]

theorem text_entryOf (lead : Gap) (layout : Layout) (key : Str) (value : EntryValue) :
    (entryOf lead layout key value).text = lead.text ++ memberText layout key value.text := by
  simp [Entry.text, Entry.behindColon, entryOf, memberText, Gap.append, Gap.ofBlank]

theorem Param.text_entry (lead : Gap) (p : Param) : (p.entry lead).text = lead.text ++ p.render := by
  cases p <;> exact text_entryOf ..

theorem memberEntries_text (members : List Param) (hne : members ≠ []) :
    (memberEntries members).flatMap Entry.text = Json.commaSep (members.map Param.render) := by
  cases members with
  | nil => exact absurd rfl hne
  | cons p rest =>
    have hcomma : (Gap.single (byte ',')).text = [','.toUInt8] := rfl
    rw [memberEntries, List.flatMap_cons, Param.text_entry, List.map_cons, Json.commaSep_cons,
      List.flatMap_map, List.flatMap_map]
    simp only [Param.text_entry, hcomma, Gap.none, List.nil_append, List.singleton_append]

theorem Field.text_entry (lead : Gap) (key : Str) (field : Field) :
    (field.entry lead key).text = lead.text ++ field.text key := text_entryOf ..

theorem text_objectEntry (lead : Gap) (layout : Layout) (key : Str) (close : Gap) :
    (objectEntry lead layout key close).text = lead.text ++ layout.beforeKey.text ++ quoted key ++
      layout.afterKey.text ++ lit ":" ++ layout.beforeValue.text ++ lit "\x7b" ++ close.text := by
  simp [Entry.text, Entry.behindColon, objectEntry, entryOf, Gap.append, Gap.ofBlank,
    EntryValue.text]

/-- The text of a request, one member after the other. -/
theorem Request.text_eq (r : Request) : r.text = r.entries.flatMap Entry.text := by
  have hcomma : (Gap.single (byte ',')).text = lit "," := rfl
  have hopen : (Gap.single (byte '\x7b')).text = lit "\x7b" := rfl
  have hclose : (Gap.single (byte '\x7d')).text = lit "\x7d" := rfl
  have hsep (s : Str) (rest : List Str) :
      Json.commaSep (s :: rest) = s ++ rest.flatMap (lit "," ++ ·) := Json.commaSep_cons s rest
  have hmembers : (if r.members.map Param.render = [] then r.empty.text
      else Json.commaSep (r.members.map Param.render)) =
      (if r.members = [] then Gap.ofBlank r.empty else Gap.none).text ++
        (memberEntries r.members).flatMap Entry.text := by
    cases hempty : r.members with
    | nil => simp [Gap.ofBlank, memberEntries]
    | cons p rest =>
      rw [memberEntries_text _ (List.cons_ne_nil p rest), if_neg (by simp), if_neg (by simp)]
      rfl
  have hmid (g g' : Gap) : ({ r.mid.entry g (lit "mid") with close := g' } : Entry).text =
      g.text ++ (r.mid.layout.beforeKey.text ++ quoted (lit "mid") ++ r.mid.layout.afterKey.text ++
        lit ":" ++ r.mid.layout.beforeValue.text ++ stringText r.mid.value) ++ g'.text := by
    simp [Entry.text, Entry.behindColon, Field.entry, entryOf, Gap.append, Gap.ofBlank,
      EntryValue.text]
  simp only [Request.text, Request.cmdText, Request.paramsText, objectText, hmembers, Request.entries,
    List.flatMap_append, List.flatMap_cons, List.flatMap_nil, Field.text_entry, text_objectEntry,
    hmid, hsep, memberText, Field.text, Gap.append, Gap.ofBlank, Gap.none, hcomma, hopen, hclose,
    reduceCtorEq, if_false, List.append_assoc, List.append_nil, List.nil_append]

/-! ## 4. Reading a field -/

/-- A name that a search may look for: it starts with none of the bytes between the strings. -/
structure FieldName (name : Str) : Prop where
  nonempty : name ≠ []
  plain : ∀ ch ∈ name, ch ≠ byte '"' ∧ ch ≠ byte '\\' ∧ ch ≠ byte ':' ∧ isIntChar ch = false
  head : ∀ ch ∈ name.head?, isGapChar ch = false

/-- A string of the member is the name, or ends with a quote and the name. -/
def Entry.Mentions (name : Str) (e : Entry) : Prop :=
  e.key = name ∨ ∃ value, e.value = .string value ∧ byte '"' :: name <:+ byte '"' :: value

/-- The first key of the members. -/
def firstKey : List Entry → Str
  | [] => []
  | e :: _ => e.key

/-- The first string behind the first of the colons of the members. -/
def stringBehind : List Entry → Str
  | [] => []
  | e :: rest => match e.value with
    | .string value => value
    | _ => firstKey rest

/-- The integer that the first run of digits and minus signs of a text writes. -/
def firstInt (text : Str) (fallback : ℤ) : Except Str ℤ :=
  match Search.fromFirst isIntChar text with
  | none => .ok fallback
  | some rest => stoi (rest.takeWhile isIntChar)

/-- The first integer behind the first of the colons of the members. -/
def intBehind (fallback : ℤ) : List Entry → Except Str ℤ
  | [] => .ok fallback
  | e :: rest => firstInt (e.behindColon ++ rest.flatMap Entry.text) fallback

section Read
variable {name text rest gap : Str} {fallback : ℤ} {e : Entry} {pre post : List Entry}

theorem gap_notMem {ch : UInt8} (h : isGapChar ch = false) (gap : Gap) : ch ∉ gap.text :=
  fun hmem => by
    rw [List.all_eq_true.mp gap.gap ch hmem] at h
    cases h

theorem blank_notMem {ch : UInt8} (h : isGapChar ch = false) (blank : Json.Blank) :
    ch ∉ blank.text := gap_notMem h (.ofBlank blank)

namespace FieldName

theorem quote_notMem (h : FieldName name) : byte '"' ∉ name := fun hmem => (h.plain _ hmem).1 rfl

theorem backslash_notMem (h : FieldName name) : byte '\\' ∉ name :=
  fun hmem => (h.plain _ hmem).2.1 rfl

theorem colon_notMem (h : FieldName name) : byte ':' ∉ name :=
  fun hmem => (h.plain _ hmem).2.2.1 rfl

theorem body_eq (h : FieldName name) : quotedBody name = name :=
  Quoted.body_of_plain h.quote_notMem h.backslash_notMem

theorem skips_gap (h : FieldName name) (gap : Gap) : Quoted.Skips (byte '"') name gap.text := by
  refine .gap (gap_notMem (by decide) gap) (fun ch hch hname => ?_) h.nonempty
  have hgap := List.all_eq_true.mp gap.gap ch (List.mem_of_mem_head? hch)
  rw [h.head ch hname] at hgap
  cases hgap

theorem skips_string (h : FieldName name) {value : Str}
    (hvalue : ¬ byte '"' :: name <:+ byte '"' :: value) :
    Quoted.Skips (byte '"') name (stringText value) :=
  .quoted (by decide) h.quote_notMem h.backslash_notMem h.nonempty hvalue

/-- Keys are passed over that are not the name. -/
theorem skips_key (h : FieldName name) {key : Str} (hkey : FieldName key) (hne : key ≠ name) :
    Quoted.Skips (byte '"') name (quoted key) := by
  have hskip : Quoted.Skips (byte '"') name (stringText key) := by
    refine h.skips_string ?_
    rw [Quoted.quote_suffix_cons]
    rintro (⟨-, heq⟩ | hsuffix)
    · exact hne heq
    · exact hkey.quote_notMem (hsuffix.subset List.mem_cons_self)
  rwa [stringText, hkey.body_eq] at hskip

/-- The colon and the white space around it are passed over. -/
theorem skips_colon (h : FieldName name) (afterKey beforeValue : Json.Blank) :
    Quoted.Skips (byte '"') name (afterKey.text ++ lit ":" ++ beforeValue.text) := by
  have hcolon : Quoted.Skips (byte '"') name (lit ":") := by
    refine .gap (by decide) (fun ch hch hname => ?_) h.nonempty
    cases hch
    exact h.colon_notMem (List.mem_of_mem_head? hname)
  exact ((h.skips_gap (.ofBlank afterKey)).append hcolon).append (h.skips_gap (.ofBlank beforeValue))

end FieldName

theorem IntLiteral.isIntChar_text (n : IntLiteral) : ∀ ch ∈ n.text, isIntChar ch = true := by
  intro ch hch
  rcases List.mem_append.mp hch with hch | hch
  · split at hch
    · cases List.mem_singleton.mp hch
      decide
    · cases hch
  · simp [isIntChar, n.decimal ch hch]

theorem IntLiteral.text_ne_nil (n : IntLiteral) : n.text ≠ [] := by
  simp [IntLiteral.text, n.nonempty]

theorem FieldName.skips_number (h : FieldName name) (n : IntLiteral) :
    Quoted.Skips (byte '"') name n.text := by
  refine .gap (fun hmem => ?_) (fun ch hch hname => ?_) h.nonempty
  · have hint := n.isIntChar_text _ hmem
    revert hint
    decide
  · have hint := n.isIntChar_text ch (List.mem_of_mem_head? hch)
    rw [(h.plain ch (List.mem_of_mem_head? hname)).2.2.2] at hint
    cases hint

/-- A member that does not mention the name is passed over. -/
theorem FieldName.skips_entry (h : FieldName name) (hkey : FieldName e.key)
    (hmention : ¬ e.Mentions name) : Quoted.Skips (byte '"') name e.text := by
  have hvalue : Quoted.Skips (byte '"') name e.value.text := by
    cases hv : e.value with
    | string value => exact h.skips_string fun hsuffix => hmention (.inr ⟨value, hv, hsuffix⟩)
    | number n => exact h.skips_number n
    | object => exact h.skips_gap (.single (byte '\x7b'))
  have htext : e.text = e.before.text ++ quoted e.key ++
      (e.afterKey.text ++ lit ":" ++ e.beforeValue.text) ++ e.value.text ++ e.close.text := by
    simp only [Entry.text, Entry.behindColon, List.append_assoc]
  rw [htext]
  exact ((((h.skips_gap e.before).append
    (h.skips_key hkey fun heq => hmention (.inl heq))).append
    (h.skips_colon e.afterKey e.beforeValue)).append hvalue).append (h.skips_gap e.close)

theorem FieldName.skips_entries (h : FieldName name) (hkeys : ∀ e ∈ pre, FieldName e.key)
    (hmention : ∀ e ∈ pre, ¬ e.Mentions name) :
    Quoted.Skips (byte '"') name (pre.flatMap Entry.text) :=
  .flatMap fun e he => h.skips_entry (hkeys e he) (hmention e he)

/-! ### Behind the mention -/

/-- What `extractStringField` reads behind the name. -/
def stringAfterColon (rest : Str) : Str :=
  match Search.fromFirst (· = byte ':') rest with
  | none => []
  | some rest => match Search.fromFirst (· = byte '"') rest with
    | none => []
    | some rest => (scanString false rest.tail).getD []

theorem extractStringField_eq (text name : Str) : extractStringField text name =
    match Search.afterFirst (quoted name) text with
    | none => []
    | some rest => stringAfterColon rest := by
  rw [extractStringField]
  cases Search.afterFirst (quoted name) text <;> rfl

/-- What `extractIntField` reads behind the name. -/
def intAfterColon (fallback : ℤ) (rest : Str) : Except Str ℤ :=
  match Search.fromFirst (· = byte ':') rest with
  | none => .ok fallback
  | some rest => firstInt rest.tail fallback

theorem extractIntField_eq (text name : Str) (fallback : ℤ) : extractIntField text name fallback =
    match Search.afterFirst (quoted name) text with
    | none => .ok fallback
    | some rest => intAfterColon fallback rest := by
  rw [extractIntField]
  cases Search.afterFirst (quoted name) text with
  | none => rfl
  | some rest =>
    unfold intAfterColon firstInt
    cases Search.fromFirst (· = byte ':') rest <;> rfl

theorem fromFirst_colon (hgap : byte ':' ∉ gap) (rest : Str) :
    Search.fromFirst (· = byte ':') (gap ++ lit ":" ++ rest) = some (byte ':' :: rest) := by
  rw [List.append_assoc]
  exact Search.fromFirst_eq hgap

/-- A text up to the first quote, which starts a string. -/
theorem scan_string (hgap : byte '"' ∉ gap) (value rest : Str) :
    (match Search.fromFirst (· = byte '"') (gap ++ stringText value ++ rest) with
      | none => []
      | some rest => (scanString false rest.tail).getD []) = value := by
  have htext : gap ++ stringText value ++ rest =
      gap ++ byte '"' :: (quotedBody value ++ byte '"' :: rest) := by
    simp only [stringText, quoted_eq, List.append_assoc, List.cons_append, List.nil_append]
  rw [htext, Search.fromFirst_eq hgap]
  simp only [List.tail_cons, scanString_body, Option.getD_some]

/-- Without a string of its own, a member leaves the next key to be read. -/
theorem scan_next (hgap : byte '"' ∉ gap) (hpost : ∀ e ∈ post, FieldName e.key) :
    (match Search.fromFirst (· = byte '"') (gap ++ post.flatMap Entry.text) with
      | none => []
      | some rest => (scanString false rest.tail).getD []) = firstKey post := by
  cases post with
  | nil =>
    have hnone : Search.fromFirst (· = byte '"') gap = none :=
      Search.fromFirst_eq_none fun ch hch => decide_eq_false fun heq => hgap (heq ▸ hch)
    simp only [List.flatMap_nil, List.append_nil, hnone, firstKey]
  | cons next post =>
    have hbefore : byte '"' ∉ gap ++ next.before.text := by
      rw [List.mem_append, not_or]
      exact ⟨hgap, gap_notMem (by decide) _⟩
    have hkey : quoted next.key = stringText next.key := by
      rw [stringText, (hpost next List.mem_cons_self).body_eq]
    have hscan := scan_string hbefore next.key
      (next.afterKey.text ++ lit ":" ++ next.behindColon ++ post.flatMap Entry.text)
    simpa only [List.flatMap_cons, Entry.text, hkey, firstKey, List.append_assoc] using hscan

/-- Behind the colon of a member, the first string is read. -/
theorem stringAfterColon_entries (hgap : byte ':' ∉ gap) (hpost : ∀ e ∈ post, FieldName e.key) :
    stringAfterColon (gap ++ lit ":" ++ (e.behindColon ++ post.flatMap Entry.text)) =
      stringBehind (e :: post) := by
  have hblank : byte '"' ∉ byte ':' :: e.beforeValue.text := by
    simp only [List.mem_cons, not_or]
    exact ⟨by decide, blank_notMem (by decide) _⟩
  have hclose : byte '"' ∉ e.close.text := gap_notMem (by decide) _
  -- a value that is no string has no quote, and the text goes on to the next key
  have hnext (hvalue : byte '"' ∉ e.value.text) :
      stringAfterColon (gap ++ lit ":" ++ (e.behindColon ++ post.flatMap Entry.text)) =
        firstKey post := by
    have hplain : byte '"' ∉ byte ':' :: e.behindColon := by
      simp only [Entry.behindColon, List.mem_cons, List.mem_append, not_or] at hblank ⊢
      exact ⟨hblank.1, ⟨hblank.2, hvalue⟩, hclose⟩
    have hscan := scan_next hplain hpost
    rw [stringAfterColon, fromFirst_colon hgap]
    simpa only [List.cons_append] using hscan
  cases hvalue : e.value with
  | string value =>
    have hscan := scan_string hblank value (e.close.text ++ post.flatMap Entry.text)
    rw [stringAfterColon, fromFirst_colon hgap]
    simp only [stringBehind, hvalue]
    simpa only [Entry.behindColon, hvalue, EntryValue.text, List.cons_append, List.append_assoc]
      using hscan
  | number n =>
    rw [hnext fun hmem => ?_]
    · simp only [stringBehind, hvalue]
    · rw [hvalue] at hmem
      exact absurd (n.isIntChar_text _ hmem) (by decide)
  | object =>
    rw [hnext (by rw [hvalue]; decide)]
    simp only [stringBehind, hvalue]

theorem intAfterColon_entries (hgap : byte ':' ∉ gap) :
    intAfterColon fallback (gap ++ lit ":" ++ (e.behindColon ++ post.flatMap Entry.text)) =
      intBehind fallback (e :: post) := by
  rw [intAfterColon, fromFirst_colon hgap]
  rfl

/-- Behind a value without a colon after it, nothing is read. -/
theorem fromFirst_colon_close (gap : Gap) : Search.fromFirst (· = byte ':') gap.text = none :=
  Search.fromFirst_eq_none fun ch hch => decide_eq_false fun heq =>
    gap_notMem (show isGapChar (byte ':') = false by decide) gap (heq ▸ hch)

/-- The text behind the value of a member, up to the next colon. -/
theorem close_append_cons (e next : Entry) (post : List Entry) :
    e.close.text ++ (next :: post).flatMap Entry.text =
      (e.close.text ++ next.before.text ++ quoted next.key ++ next.afterKey.text) ++ lit ":" ++
        (next.behindColon ++ post.flatMap Entry.text) := by
  simp only [List.flatMap_cons, Entry.text, List.append_assoc]

theorem colon_notMem_close (e : Entry) {next : Entry} (hnext : FieldName next.key) :
    byte ':' ∉ e.close.text ++ next.before.text ++ quoted next.key ++ next.afterKey.text := by
  simp only [quoted_eq, List.mem_append, List.mem_cons, List.not_mem_nil, or_false, not_or]
  exact ⟨⟨⟨gap_notMem (by decide) _, gap_notMem (by decide) _⟩, by decide, hnext.colon_notMem,
    by decide⟩, blank_notMem (by decide) _⟩

theorem stringAfterColon_close (hpost : ∀ e ∈ post, FieldName e.key) :
    stringAfterColon (e.close.text ++ post.flatMap Entry.text) = stringBehind post := by
  cases post with
  | nil =>
    rw [List.flatMap_nil, List.append_nil, stringAfterColon, fromFirst_colon_close]
    rfl
  | cons next post =>
    obtain ⟨hnext, hpost⟩ := List.forall_mem_cons.mp hpost
    rw [close_append_cons, stringAfterColon_entries (colon_notMem_close e hnext) hpost]

theorem intAfterColon_close (hpost : ∀ e ∈ post, FieldName e.key) :
    intAfterColon fallback (e.close.text ++ post.flatMap Entry.text) = intBehind fallback post := by
  cases post with
  | nil =>
    rw [List.flatMap_nil, List.append_nil, intAfterColon, fromFirst_colon_close]
    rfl
  | cons next post =>
    obtain ⟨hnext, hpost⟩ := List.forall_mem_cons.mp hpost
    rw [close_append_cons, intAfterColon_entries (colon_notMem_close e hnext)]

/-! ### The first mention -/

/-- The search for a name ends behind the first member that mentions it: at its key, or at its
value. -/
theorem afterFirst_entries (hname : FieldName name) (hpre : ∀ e ∈ pre, FieldName e.key)
    (hno : ∀ e ∈ pre, ¬ e.Mentions name) (hkey : FieldName e.key) (hmention : e.Mentions name) :
    Search.afterFirst (quoted name) ((pre ++ e :: post).flatMap Entry.text) =
      some (if e.key = name then
        e.afterKey.text ++ lit ":" ++ (e.behindColon ++ post.flatMap Entry.text)
      else e.close.text ++ post.flatMap Entry.text) := by
  have hskip := (hname.skips_entries hpre hno).append (hname.skips_gap e.before)
  have hstop {text : Str} (htext : Quoted.Skips (byte '"') name text) (value rest : Str)
      (hvalue : byte '"' :: name <:+ byte '"' :: value) :
      Search.afterFirst (quoted name) (text ++ stringText value ++ rest) = some rest := by
    have hsearch := Quoted.afterFirst_of_skips (e := byte '\\') (by decide) hname.quote_notMem
      hname.backslash_notMem hname.nonempty htext value rest hvalue
    simpa only [stringText, quoted_eq, List.append_assoc, List.cons_append, List.nil_append]
      using hsearch
  rw [List.flatMap_append, List.flatMap_cons]
  split
  · next heq =>
    have hsearch := hstop hskip name
      (e.afterKey.text ++ lit ":" ++ (e.behindColon ++ post.flatMap Entry.text))
      (List.suffix_refl _)
    simpa only [Entry.text, heq, stringText, hname.body_eq, List.append_assoc] using hsearch
  · next hne =>
    obtain ⟨value, hvalue, hsuffix⟩ := hmention.resolve_left hne
    have hsearch := hstop ((hskip.append (hname.skips_key hkey hne)).append
      (hname.skips_colon e.afterKey e.beforeValue)) value
      (e.close.text ++ post.flatMap Entry.text) hsuffix
    simpa only [Entry.text, Entry.behindColon, hvalue, EntryValue.text, List.append_assoc]
      using hsearch

/-! ### A field and its member -/

/-- The first member that mentions the name, with the members before and behind it. -/
structure FirstMention (name : Str) (entries pre : List Entry) (e : Entry) (post : List Entry) :
    Prop where
  split : entries = pre ++ e :: post
  before : ∀ x ∈ pre, ¬ x.Mentions name
  mentions : e.Mentions name

theorem firstMention_or (name : Str) : ∀ entries : List Entry,
    (∀ e ∈ entries, ¬ e.Mentions name) ∨ ∃ pre e post, FirstMention name entries pre e post
  | [] => .inl fun e he => by cases he
  | e :: entries => by
    rcases Classical.em (e.Mentions name) with hmention | hmention
    · exact .inr ⟨[], e, entries, rfl, by simp, hmention⟩
    · rcases firstMention_or name entries with hno | ⟨pre, e', post, hfirst⟩
      · exact .inl (List.forall_mem_cons.mpr ⟨hmention, hno⟩)
      · refine .inr ⟨e :: pre, e', post, ?_, ?_, hfirst.mentions⟩
        · rw [hfirst.split]
          rfl
        · exact List.forall_mem_cons.mpr ⟨hmention, hfirst.before⟩

/-- The value of the member of that name. -/
def memberValue (name : Str) (entries : List Entry) : Option EntryValue :=
  (entries.find? (·.key = name)).map (·.value)

/-- The string of a member, or the empty string. -/
def stringOr : Option EntryValue → Str
  | some (.string value) => value
  | _ => []

/-- The integer of a member, or the fallback. -/
def intOr (fallback : ℤ) : Option EntryValue → ℤ
  | some (.number n) => n.value
  | _ => fallback

theorem memberValue_of_no_mention {entries : List Entry} (hno : ∀ e ∈ entries, ¬ e.Mentions name) :
    memberValue name entries = none := by
  have hnone : entries.find? (·.key = name) = none :=
    List.find?_eq_none.mpr fun e he heq => hno e he (.inl (of_decide_eq_true heq))
  rw [memberValue, hnone]
  rfl

theorem FirstMention.memberValue {entries : List Entry} (h : FirstMention name entries pre e post)
    (hkey : e.key = name) : memberValue name entries = some e.value := by
  have hpre : pre.find? (·.key = name) = none :=
    List.find?_eq_none.mpr fun x hx heq => h.before x hx (.inl (of_decide_eq_true heq))
  rw [CommandText.memberValue, h.split, List.find?_append, hpre, Option.none_or,
    List.find?_cons_of_pos (by simpa using hkey)]
  rfl

variable {entries : List Entry}

theorem FirstMention.keys (h : FirstMention name entries pre e post)
    (hkeys : ∀ e ∈ entries, FieldName e.key) :
    (∀ e ∈ pre, FieldName e.key) ∧ FieldName e.key ∧ ∀ e ∈ post, FieldName e.key := by
  rw [h.split] at hkeys
  exact ⟨fun x hx => hkeys x (by simp [hx]), hkeys e (by simp), fun x hx => hkeys x (by simp [hx])⟩

/-- What `extractStringField` returns: the string behind the first mention's colon. -/
theorem FirstMention.extractStringField (h : FirstMention name entries pre e post)
    (hname : FieldName name) (hkeys : ∀ e ∈ entries, FieldName e.key) :
    extractStringField (entries.flatMap Entry.text) name =
      stringBehind (if e.key = name then e :: post else post) := by
  obtain ⟨hpre, hkey, hpost⟩ := h.keys hkeys
  rw [extractStringField_eq, h.split, afterFirst_entries hname hpre h.before hkey h.mentions]
  dsimp only
  split
  · exact stringAfterColon_entries (blank_notMem (by decide) _) hpost
  · exact stringAfterColon_close hpost

theorem FirstMention.extractIntField (h : FirstMention name entries pre e post)
    (hname : FieldName name) (hkeys : ∀ e ∈ entries, FieldName e.key) :
    extractIntField (entries.flatMap Entry.text) name fallback =
      intBehind fallback (if e.key = name then e :: post else post) := by
  obtain ⟨hpre, hkey, hpost⟩ := h.keys hkeys
  rw [extractIntField_eq, h.split, afterFirst_entries hname hpre h.before hkey h.mentions]
  dsimp only
  split
  · exact intAfterColon_entries (blank_notMem (by decide) _)
  · exact intAfterColon_close hpost

theorem afterFirst_of_no_mention (hname : FieldName name) (hkeys : ∀ e ∈ entries, FieldName e.key)
    (hno : ∀ e ∈ entries, ¬ e.Mentions name) :
    Search.afterFirst (quoted name) (entries.flatMap Entry.text) = none :=
  Quoted.afterFirst_of_skips_all (hname.skips_entries hkeys hno)

/-- A string field is read right exactly when the first member that mentions its name is its own, or
the string behind it is the same. -/
theorem extractStringField_iff (hname : FieldName name) (hkeys : ∀ e ∈ entries, FieldName e.key)
    (htyped : ∀ e ∈ entries, e.key = name → ∃ value, e.value = .string value) :
    extractStringField (entries.flatMap Entry.text) name = stringOr (memberValue name entries) ↔
      ∀ pre e post, FirstMention name entries pre e post →
        e.key = name ∨ stringBehind post = stringOr (memberValue name entries) := by
  constructor
  · intro hread pre e post hfirst
    rw [hfirst.extractStringField hname hkeys] at hread
    refine or_iff_not_imp_left.mpr fun hne => ?_
    rwa [if_neg hne] at hread
  · intro h
    rcases firstMention_or name entries with hno | ⟨pre, e, post, hfirst⟩
    · rw [extractStringField_eq, afterFirst_of_no_mention hname hkeys hno,
        memberValue_of_no_mention hno]
      rfl
    · rw [hfirst.extractStringField hname hkeys]
      split
      · next heq =>
        obtain ⟨value, hvalue⟩ := htyped e (by simp [hfirst.split]) heq
        simp only [hfirst.memberValue heq, hvalue, stringBehind, stringOr]
      · next hne => exact (h pre e post hfirst).resolve_left hne

/-! ### Integers -/

theorem isIntChar_of_isGapChar {ch : UInt8} (h : isGapChar ch = true) : isIntChar ch = false := by
  simp only [isGapChar, Json.isBlank, Bool.or_eq_true, decide_eq_true_eq] at h
  rcases h with (((((rfl | rfl) | rfl) | rfl) | rfl) | rfl) | rfl <;> decide

theorem takeWhile_gap (gap : Gap) (hrest : rest.takeWhile isIntChar = []) :
    (gap.text ++ rest).takeWhile isIntChar = [] := by
  cases htext : gap.text with
  | nil => exact hrest
  | cons ch gap' =>
    have hch : isGapChar ch = true := List.all_eq_true.mp gap.gap ch (by simp [htext])
    rw [List.cons_append, List.takeWhile_cons_of_neg (by simp [isIntChar_of_isGapChar hch])]

theorem takeWhile_entries : (post.flatMap Entry.text).takeWhile isIntChar = [] := by
  cases post with
  | nil => rfl
  | cons next post =>
    rw [List.flatMap_cons, Entry.text, List.append_assoc, List.append_assoc]
    exact takeWhile_gap next.before (List.takeWhile_cons_of_neg (by decide))

/-- `std::stoi` reads a literal back. -/
theorem IntLiteral.stoi_text (n : IntLiteral) : stoi n.text = .ok n.value := by
  have hdigits : n.digits.takeWhile isDigit = n.digits := List.takeWhile_eq_self_iff.mpr n.decimal
  have hempty : n.digits.isEmpty = false := by simp [n.nonempty]
  have hlower := n.lower
  have hupper := n.upper
  have hnot {c ch : UInt8} (hc : isDigit c = false) (hch : isDigit ch = true) : ch ≠ c := by
    rintro rfl
    rw [hch] at hc
    cases hc
  cases hsign : n.negative with
  | true =>
    rw [hsign, if_pos rfl] at hlower hupper
    have htext : n.text = byte '-' :: n.digits := by simp [IntLiteral.text, hsign]
    have hbody : (byte '-' :: n.digits).dropWhile isspace = byte '-' :: n.digits :=
      List.dropWhile_cons_of_neg (by decide)
    simp only [stoi, htext, hbody, if_true, hdigits, hempty, Bool.false_eq_true, if_false,
      IntLiteral.value, hsign]
    rw [if_pos ⟨hlower, hupper⟩]
  | false =>
    rw [hsign, if_neg Bool.false_ne_true] at hlower hupper
    obtain ⟨ch, digits, hcons⟩ := List.exists_cons_of_ne_nil n.nonempty
    have hch : isDigit ch = true := n.decimal ch (by simp [hcons])
    have hspace : isspace ch = false := by
      simp [isspace, hnot (c := byte ' ') (by decide) hch, hnot (c := byte '\t') (by decide) hch,
        hnot (c := byte '\n') (by decide) hch, hnot (c := 11) (by decide) hch,
        hnot (c := 12) (by decide) hch, hnot (c := byte '\r') (by decide) hch]
    have htext : n.text = ch :: digits := by simp [IntLiteral.text, hsign, hcons]
    have hbody : (ch :: digits).dropWhile isspace = ch :: digits :=
      List.dropWhile_cons_of_neg (by simp [hspace])
    rw [hcons] at hdigits hempty hlower hupper
    simp only [stoi, htext, hbody, hnot (c := byte '-') (by decide) hch,
      hnot (c := byte '+') (by decide) hch, if_false, hdigits, hempty, Bool.false_eq_true,
      IntLiteral.value, hsign, hcons]
    rw [if_pos ⟨hlower, hupper⟩]

/-- The number of a member is read behind its colon. -/
theorem firstInt_number {n : IntLiteral} (hvalue : e.value = .number n) :
    firstInt (e.behindColon ++ post.flatMap Entry.text) fallback = .ok n.value := by
  have hblank : ∀ ch ∈ e.beforeValue.text, isIntChar ch = false := fun ch hch =>
    isIntChar_of_isGapChar (List.all_eq_true.mp (Gap.ofBlank e.beforeValue).gap ch hch)
  have hrest : (e.close.text ++ post.flatMap Entry.text).takeWhile isIntChar = [] :=
    takeWhile_gap e.close takeWhile_entries
  obtain ⟨ch, text, hcons⟩ := List.exists_cons_of_ne_nil n.text_ne_nil
  have hfirst : Search.fromFirst isIntChar (e.behindColon ++ post.flatMap Entry.text) =
      some (n.text ++ (e.close.text ++ post.flatMap Entry.text)) := by
    rw [Entry.behindColon, hvalue, EntryValue.text, List.append_assoc, List.append_assoc,
      Search.fromFirst_append hblank, hcons, List.cons_append, Search.fromFirst,
      if_pos (n.isIntChar_text ch (by simp [hcons]))]
  rw [firstInt, hfirst]
  simp only [List.takeWhile_append_of_pos n.isIntChar_text, hrest, List.append_nil, n.stoi_text]

/-- An integer field is read right exactly when the first member that mentions its name is its own,
or the first integer behind it is the same. -/
theorem extractIntField_iff (hname : FieldName name) (hkeys : ∀ e ∈ entries, FieldName e.key)
    (htyped : ∀ e ∈ entries, e.key = name → ∃ n, e.value = .number n) :
    extractIntField (entries.flatMap Entry.text) name fallback =
        .ok (intOr fallback (memberValue name entries)) ↔
      ∀ pre e post, FirstMention name entries pre e post →
        e.key = name ∨ intBehind fallback post = .ok (intOr fallback (memberValue name entries)) := by
  constructor
  · intro hread pre e post hfirst
    rw [hfirst.extractIntField hname hkeys] at hread
    refine or_iff_not_imp_left.mpr fun hne => ?_
    rwa [if_neg hne] at hread
  · intro h
    rcases firstMention_or name entries with hno | ⟨pre, e, post, hfirst⟩
    · rw [extractIntField_eq, afterFirst_of_no_mention hname hkeys hno,
        memberValue_of_no_mention hno]
      rfl
    · rw [hfirst.extractIntField hname hkeys]
      split
      · next heq =>
        obtain ⟨n, hvalue⟩ := htyped e (by simp [hfirst.split]) heq
        simp only [hfirst.memberValue heq, hvalue, intBehind, firstInt_number hvalue, intOr]
      · next hne => exact (h pre e post hfirst).resolve_left hne

end Read

/-! ## 5. The fields of a request -/

def Param.value : Param → EntryValue
  | .text _ _ value => .string value
  | .number _ _ value => .number value

namespace Request

variable (r : Request)

/-- The value of a member of `params`. -/
def paramValue (name : Str) : Option EntryValue :=
  (r.members.find? (·.name = name)).map Param.value

/-- The string of a member of `params`, or the empty string. -/
def textParam (key : TextKey) : Str := stringOr (r.paramValue key.name)

/-- The integer of a member of `params`, or the fallback. -/
def numberParam (key : NumberKey) (fallback : ℤ) : ℤ := intOr fallback (r.paramValue key.name)

/-- The string members that the commands read, and the integer members with their fallbacks. -/
def textKeys : List TextKey := [.deviceName, .oldDeviceName, .model, .modelVersion, .driverPath]

def numberKeys : List (NumberKey × ℤ) := [(.sampleInterval, 1000), (.status, 1), (.port, 0)]

/-- Every field is read as it was sent. -/
structure FieldsRead : Prop where
  category : extractStringField r.text (lit "category") = r.category.value
  mid : extractStringField r.text (lit "mid") = r.mid.value
  texts : ∀ key ∈ textKeys, extractStringField r.text key.name = r.textParam key
  numbers : ∀ field ∈ numberKeys, extractIntField r.text field.1.name field.2 =
    .ok (r.numberParam field.1 field.2)

/-- The first member that mentions the name is the field's own, or the string behind it is the
field's. -/
def StringUnmistaken (name value : Str) : Prop :=
  ∀ pre e post, FirstMention name r.entries pre e post → e.key = name ∨ stringBehind post = value

/-- The first member that mentions the name is the field's own, or the first integer behind it is
the field's. -/
def IntUnmistaken (name : Str) (fallback value : ℤ) : Prop :=
  ∀ pre e post, FirstMention name r.entries pre e post →
    e.key = name ∨ intBehind fallback post = .ok value

/-- No field is taken for another. -/
structure Unmistaken : Prop where
  category : r.StringUnmistaken (lit "category") r.category.value
  mid : r.StringUnmistaken (lit "mid") r.mid.value
  texts : ∀ key ∈ textKeys, r.StringUnmistaken key.name (r.textParam key)
  numbers : ∀ field ∈ numberKeys, r.IntUnmistaken field.1.name field.2
    (r.numberParam field.1 field.2)

end Request

instance (name : Str) : Decidable (FieldName name) :=
  decidable_of_iff (name ≠ [] ∧ (∀ ch ∈ name, ch ≠ byte '"' ∧ ch ≠ byte '\\' ∧ ch ≠ byte ':' ∧
      isIntChar ch = false) ∧ ∀ ch ∈ name.head?, isGapChar ch = false)
    ⟨fun h => ⟨h.1, h.2.1, h.2.2⟩, fun h => ⟨h.nonempty, h.plain, h.head⟩⟩

theorem TextKey.fieldName (key : TextKey) : FieldName key.name := by cases key <;> decide

theorem NumberKey.fieldName (key : NumberKey) : FieldName key.name := by cases key <;> decide

theorem Param.fieldName : ∀ p : Param, FieldName p.name
  | .text _ key _ => key.fieldName
  | .number _ key _ => key.fieldName

@[simp] theorem key_entryOf (lead : Gap) (layout : Layout) (key : Str) (value : EntryValue) :
    (entryOf lead layout key value).key = key := rfl

@[simp] theorem key_fieldEntry (lead : Gap) (key : Str) (field : Field) :
    (field.entry lead key).key = key := rfl

@[simp] theorem key_objectEntry (lead : Gap) (layout : Layout) (key : Str) (close : Gap) :
    (objectEntry lead layout key close).key = key := rfl

theorem mem_memberEntries {members : List Param} {e : Entry} (h : e ∈ memberEntries members) :
    ∃ p ∈ members, e.key = p.name ∧ e.value = p.value := by
  have hentry (lead : Gap) (p : Param) :
      (p.entry lead).key = p.name ∧ (p.entry lead).value = p.value := by
    cases p <;> exact ⟨rfl, rfl⟩
  cases members with
  | nil => cases h
  | cons p rest =>
    rcases List.mem_cons.mp h with rfl | h
    · exact ⟨p, List.mem_cons_self, hentry _ p⟩
    · obtain ⟨q, hq, rfl⟩ := List.mem_map.mp h
      exact ⟨q, List.mem_cons_of_mem p hq, hentry _ q⟩

theorem find?_memberEntries (name : Str) (members : List Param) :
    ((memberEntries members).find? (·.key = name)).map (·.value) =
      (members.find? (·.name = name)).map Param.value := by
  have hentry (lead : Gap) (p : Param) :
      (p.entry lead).key = p.name ∧ (p.entry lead).value = p.value := by
    cases p <;> exact ⟨rfl, rfl⟩
  have hrest (rest : List Param) :
      ((rest.map (·.entry (.single (byte ',')))).find? (·.key = name)).map (·.value) =
        (rest.find? (·.name = name)).map Param.value := by
    rw [List.find?_map, Option.map_map]
    simp only [Function.comp_def, hentry]
  cases members with
  | nil => rfl
  | cons p rest =>
    rw [memberEntries, List.find?_cons, List.find?_cons, (hentry _ p).1]
    cases decide (p.name = name) with
    | true => exact congrArg some (hentry _ p).2
    | false => exact hrest rest

/-- The names of the envelope. -/
def envelopeNames : List Str :=
  [lit "type", lit "uid", lit "pid", lit "cmd", lit "category", lit "params", lit "mid"]

theorem TextKey.name_notMem (key : TextKey) : key.name ∉ envelopeNames := by cases key <;> decide

theorem NumberKey.name_notMem (key : NumberKey) : key.name ∉ envelopeNames := by
  cases key <;> decide

theorem Param.name_notMem : ∀ p : Param, p.name ∉ envelopeNames
  | .text _ key _ => key.name_notMem
  | .number _ key _ => key.name_notMem

theorem Request.key_mem (r : Request) {e : Entry} (he : e ∈ r.entries) :
    e.key ∈ envelopeNames ∨ ∃ p ∈ r.members, e.key = p.name ∧ e.value = p.value := by
  simp only [Request.entries, List.mem_append, List.mem_cons, List.not_mem_nil, or_false] at he
  rcases he with ((rfl | rfl | rfl | rfl | rfl | rfl) | he) | rfl
  all_goals first
    | exact .inr (mem_memberEntries he)
    | exact .inl (by simp [envelopeNames])

theorem Request.fieldName_key (r : Request) : ∀ e ∈ r.entries, FieldName e.key := by
  intro e he
  rcases r.key_mem he with hkey | ⟨p, -, hkey, -⟩
  · have hall : ∀ name ∈ envelopeNames, FieldName name := by decide
    exact hall _ hkey
  · rw [hkey]
    exact p.fieldName

/-- A member of `params` is found among the members of the request. -/
theorem Request.memberValue_param (r : Request) {name : Str} (hname : name ∉ envelopeNames) :
    memberValue name r.entries = r.paramValue name := by
  simp only [envelopeNames, List.mem_cons, List.not_mem_nil, or_false, not_or] at hname
  obtain ⟨htype, huid, hpid, hcmd, hcategory, hparams, hmid⟩ := hname
  rw [memberValue, Request.entries, List.find?_append, List.find?_append, paramValue,
    ← find?_memberEntries]
  simp only [List.find?_cons, key_fieldEntry, key_objectEntry, Ne.symm htype, Ne.symm huid,
    Ne.symm hpid, Ne.symm hcmd, Ne.symm hcategory, Ne.symm hparams, Ne.symm hmid, decide_false,
    List.find?_nil, Option.none_or, Option.or_none]

/-- The fields of the envelope are found there. -/
theorem Request.memberValue_category (r : Request) :
    memberValue (lit "category") r.entries = some (.string r.category.value) := rfl

theorem Request.memberValue_mid (r : Request) :
    memberValue (lit "mid") r.entries = some (.string r.mid.value) := by
  have hparams : (memberEntries r.members).find? (·.key = lit "mid") = none := by
    refine List.find?_eq_none.mpr fun e he heq => ?_
    obtain ⟨p, -, hkey, -⟩ := mem_memberEntries he
    rw [decide_eq_true_eq, hkey] at heq
    exact p.name_notMem (heq ▸ by decide)
  rw [memberValue, Request.entries, List.find?_append, List.find?_append, hparams]
  rfl

/-- A string key never holds a number, and the other way round. -/
theorem TextKey.name_ne (key : TextKey) (key' : NumberKey) : key.name ≠ key'.name := by
  cases key <;> cases key' <;> decide

theorem Request.string_of_textKey (r : Request) (key : TextKey) {e : Entry} (he : e ∈ r.entries)
    (hkey : e.key = key.name) : ∃ value, e.value = .string value := by
  rcases r.key_mem he with hmem | ⟨p, -, hp, hvalue⟩
  · exact absurd (hkey ▸ hmem) key.name_notMem
  · cases p with
    | text layout key' value => exact ⟨value, hvalue⟩
    | number layout key' value => exact absurd (hkey.symm.trans hp) (key.name_ne key')

theorem Request.number_of_numberKey (r : Request) (key : NumberKey) {e : Entry}
    (he : e ∈ r.entries) (hkey : e.key = key.name) : ∃ n, e.value = .number n := by
  rcases r.key_mem he with hmem | ⟨p, -, hp, hvalue⟩
  · exact absurd (hkey ▸ hmem) key.name_notMem
  · cases p with
    | text layout key' value => exact absurd (hp.symm.trans hkey) (key'.name_ne key)
    | number layout key' value => exact ⟨value, hvalue⟩

theorem Request.string_of_envelope (r : Request) {name : Str} {e : Entry}
    (hname : name = lit "category" ∨ name = lit "mid") (he : e ∈ r.entries) (hkey : e.key = name) :
    ∃ value, e.value = .string value := by
  have hmem : name ∈ envelopeNames := by
    rcases hname with rfl | rfl <;> decide
  simp only [Request.entries, List.mem_append, List.mem_cons, List.not_mem_nil, or_false] at he
  rcases he with ((rfl | rfl | rfl | rfl | rfl | rfl) | he) | rfl
  all_goals first
    | exact ⟨_, rfl⟩
    | skip
  · rw [key_objectEntry] at hkey
    subst hkey
    exact absurd hname (by decide)
  · rw [key_objectEntry] at hkey
    subst hkey
    exact absurd hname (by decide)
  · obtain ⟨p, -, hp, -⟩ := mem_memberEntries he
    exact absurd (hp ▸ hkey ▸ hmem) p.name_notMem

/-- The code reads every field of a command as it was sent if and only if no field is taken for
another. -/
theorem fieldsRead_iff (r : Request) : r.FieldsRead ↔ r.Unmistaken := by
  have hcategory : extractStringField r.text (lit "category") = r.category.value ↔
      r.StringUnmistaken (lit "category") r.category.value := by
    have hiff := extractStringField_iff (show FieldName (lit "category") by decide) r.fieldName_key
      fun e he hkey => r.string_of_envelope (.inl rfl) he hkey
    rwa [← r.text_eq, r.memberValue_category] at hiff
  have hmid : extractStringField r.text (lit "mid") = r.mid.value ↔
      r.StringUnmistaken (lit "mid") r.mid.value := by
    have hiff := extractStringField_iff (show FieldName (lit "mid") by decide) r.fieldName_key
      fun e he hkey => r.string_of_envelope (.inr rfl) he hkey
    rwa [← r.text_eq, r.memberValue_mid] at hiff
  have htext (key : TextKey) : extractStringField r.text key.name = r.textParam key ↔
      r.StringUnmistaken key.name (r.textParam key) := by
    have hiff := extractStringField_iff key.fieldName r.fieldName_key
      fun e he hkey => r.string_of_textKey key he hkey
    rwa [← r.text_eq, r.memberValue_param key.name_notMem] at hiff
  have hnumber (key : NumberKey) (fallback : ℤ) :
      extractIntField r.text key.name fallback = .ok (r.numberParam key fallback) ↔
        r.IntUnmistaken key.name fallback (r.numberParam key fallback) := by
    have hiff := @extractIntField_iff _ fallback _ key.fieldName r.fieldName_key
      fun e he hkey => r.number_of_numberKey key he hkey
    rwa [← r.text_eq, r.memberValue_param key.name_notMem] at hiff
  constructor
  · intro h
    exact ⟨hcategory.mp h.category, hmid.mp h.mid, fun key hkey => (htext key).mp (h.texts key hkey),
      fun field hfield => (hnumber field.1 field.2).mp (h.numbers field hfield)⟩
  · intro h
    exact ⟨hcategory.mpr h.category, hmid.mpr h.mid,
      fun key hkey => (htext key).mpr (h.texts key hkey),
      fun field hfield => (hnumber field.1 field.2).mpr (h.numbers field hfield)⟩

/-- A command for a device that is named like a field. -/
def namedModel : Request where
  type := { value := lit "json" }
  uid := { value := lit "admin" }
  pid := { value := lit "1" }
  category := { value := lit "create_device" }
  members := [.text {} .deviceName (lit "model"), .text {} .addr (lit "127.0.0.1:9001"),
    .text {} .model (lit "M1")]
  distinct := by decide
  mid := { value := lit "7" }

/-- The device's name is taken for the key of its model. -/
theorem namedModel_not_read : ¬ ∀ r : Request, r.FieldsRead := by
  intro h
  have hmodel := (h namedModel).texts .model (by decide)
  exact absurd hmodel (by decide +kernel)

end CollectorService.CommandText
