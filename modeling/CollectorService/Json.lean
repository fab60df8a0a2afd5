import CollectorService.Search
import Mathlib.Tactic.Common

/-!
# JSON texts

The grammar of RFC 8259 over bytes, as the relation between a value and the texts that write it. A
text keeps its layout (`Member`, `Item`): where the blanks are and how a key is escaped. So a text
that is well formed can be taken apart at any of its members.

* `Value.Text`: the texts of a value.
* `objectText_split`: an object around one of its members.
-/

namespace Json

/-- A JSON value. A number is the text that writes it, a string its bytes without escapes. -/
inductive Value where
  | null
  | bool (b : Bool)
  | number (text : List UInt8)
  | string (bytes : List UInt8)
  | array (items : List Value)
  | object (members : List (List UInt8 × Value))

/-! ## 1. Tokens -/

/-- A white space byte between tokens. -/
def isBlank (ch : UInt8) : Bool :=
  ch = ' '.toUInt8 || ch = '\t'.toUInt8 || ch = '\n'.toUInt8 || ch = '\r'.toUInt8

theorem nil_isBlank : ([] : List UInt8).all isBlank = true := rfl

/-- White space between tokens. -/
structure Blank where
  text : List UInt8 := []
  blank : text.all isBlank = true := by exact Json.nil_isBlank

instance : Inhabited Blank := ⟨{}⟩

def isDigit (ch : UInt8) : Bool := '0'.toUInt8 ≤ ch && ch ≤ '9'.toUInt8

/-- One digit or more. -/
def IsDigits (s : List UInt8) : Prop := s ≠ [] ∧ ∀ ch ∈ s, isDigit ch = true

/-- A number: an optional minus sign, an integer without leading zeros, and an optional fraction and
exponent. -/
structure IsNumber (s : List UInt8) : Prop where
  parts : ∃ sign int fraction exponent, s = sign ++ int ++ fraction ++ exponent ∧
    (sign = [] ∨ sign = ['-'.toUInt8]) ∧
    (IsDigits int ∧ (int.head? = some '0'.toUInt8 → int = ['0'.toUInt8])) ∧
    (fraction = [] ∨ ∃ digits, IsDigits digits ∧ fraction = '.'.toUInt8 :: digits) ∧
    (exponent = [] ∨ ∃ e mark digits, (e = 'e'.toUInt8 ∨ e = 'E'.toUInt8) ∧
      (mark = [] ∨ mark = ['+'.toUInt8] ∨ mark = ['-'.toUInt8]) ∧ IsDigits digits ∧
      exponent = e :: mark ++ digits)

/-- What a backslash and this byte stand for. -/
def simpleEscape (ch : UInt8) : Option UInt8 :=
  if ch = '"'.toUInt8 ∨ ch = '\\'.toUInt8 ∨ ch = '/'.toUInt8 then some ch
  else if ch = 'b'.toUInt8 then some 8
  else if ch = 'f'.toUInt8 then some 12
  else if ch = 'n'.toUInt8 then some 10
  else if ch = 'r'.toUInt8 then some 13
  else if ch = 't'.toUInt8 then some 9
  else none

def hexDigit (ch : UInt8) : Option ℕ :=
  if isDigit ch then some (ch - '0'.toUInt8).toNat
  else if 'a'.toUInt8 ≤ ch ∧ ch ≤ 'f'.toUInt8 then some ((ch - 'a'.toUInt8).toNat + 10)
  else if 'A'.toUInt8 ≤ ch ∧ ch ≤ 'F'.toUInt8 then some ((ch - 'A'.toUInt8).toNat + 10)
  else none

/-- The code unit that four hexadecimal digits write. -/
def codeUnit : List UInt8 → Option ℕ
  | [a, b, c, d] => do
    return (((← hexDigit a) * 16 + (← hexDigit b)) * 16 + (← hexDigit c)) * 16 + (← hexDigit d)
  | _ => none

/-- The UTF-8 bytes of a code point. -/
def utf8 (code : ℕ) : List UInt8 := String.utf8EncodeChar (Char.ofNat code)

/-- `StringBody body bytes`: between quotes, `body` writes the string `bytes`. The grammar of JSON also
admits the escape of a surrogate without its other half; it writes no character, and no string here has
one. -/
inductive StringBody : List UInt8 → List UInt8 → Prop
  | nil : StringBody [] []
  | plain {ch : UInt8} {body bytes : List UInt8} : ' '.toUInt8 ≤ ch → ch ≠ '"'.toUInt8 →
      ch ≠ '\\'.toUInt8 → StringBody body bytes → StringBody (ch :: body) (ch :: bytes)
  | escape {ch value : UInt8} {body bytes : List UInt8} : simpleEscape ch = some value →
      StringBody body bytes → StringBody ('\\'.toUInt8 :: ch :: body) (value :: bytes)
  | unicode {hex body bytes : List UInt8} {code : ℕ} : codeUnit hex = some code →
      ¬ (0xD800 ≤ code ∧ code < 0xE000) → StringBody body bytes →
      StringBody ('\\'.toUInt8 :: 'u'.toUInt8 :: hex ++ body) (utf8 code ++ bytes)
  | surrogates {hex hex' body bytes : List UInt8} {high low : ℕ} : codeUnit hex = some high →
      codeUnit hex' = some low → 0xD800 ≤ high ∧ high < 0xDC00 → 0xDC00 ≤ low ∧ low < 0xE000 →
      StringBody body bytes →
      StringBody ('\\'.toUInt8 :: 'u'.toUInt8 :: hex ++ '\\'.toUInt8 :: 'u'.toUInt8 :: hex' ++ body)
        (utf8 (0x10000 + (high - 0xD800) * 0x400 + (low - 0xDC00)) ++ bytes)

/-- A string in its quotes. -/
def quote (body : List UInt8) : List UInt8 := '"'.toUInt8 :: body ++ ['"'.toUInt8]

/-! ## 2. Layout -/

/-- Parts with commas between them. -/
def commaSep : List (List UInt8) → List UInt8
  | [] => []
  | [s] => s
  | s :: rest => s ++ ','.toUInt8 :: commaSep rest

theorem commaSep_cons (s : List UInt8) :
    ∀ rest, commaSep (s :: rest) = s ++ rest.flatMap (','.toUInt8 :: ·)
  | [] => by simp [commaSep]
  | s' :: rest => by
    have ih := commaSep_cons s' rest
    rw [commaSep, ih, List.flatMap_cons, List.cons_append]
    simp

theorem mem_commaSep {parts : List (List UInt8)} {s : List UInt8} (hs : s ∈ parts) {ch : UInt8}
    (hch : ch ∈ s) : ch ∈ commaSep parts := by
  obtain ⟨part, rest, rfl⟩ := List.exists_cons_of_ne_nil (List.ne_nil_of_mem hs)
  rw [commaSep_cons]
  rcases List.mem_cons.mp hs with rfl | hs
  · exact List.mem_append_left _ hch
  · exact List.mem_append_right _ (List.mem_flatMap.mpr ⟨s, hs, List.mem_cons_of_mem _ hch⟩)

theorem commaSep_split (l : List (List UInt8)) (s : List UInt8) (r : List (List UInt8)) :
    commaSep (l ++ s :: r) =
      l.flatMap (· ++ [','.toUInt8]) ++ s ++ r.flatMap (','.toUInt8 :: ·) := by
  induction l with
  | nil => exact commaSep_cons s r
  | cons a l ih =>
    have hne : l ++ s :: r ≠ [] := by simp
    obtain ⟨b, rest, hrest⟩ := List.exists_cons_of_ne_nil hne
    rw [List.cons_append, hrest, commaSep, ← hrest, ih]
    · simp
    · simp

/-- An element of an array in its text. -/
structure Item where
  before : Blank := {}
  value : Value
  text : List UInt8
  after : Blank := {}

def Item.render (item : Item) : List UInt8 := item.before.text ++ item.text ++ item.after.text

/-- A member of an object in its text. -/
structure Member where
  beforeKey : Blank := {}
  key : List UInt8
  /-- The key as it is written between its quotes. -/
  keyBody : List UInt8
  keyText : StringBody keyBody key
  afterKey : Blank := {}
  beforeValue : Blank := {}
  value : Value
  text : List UInt8
  afterValue : Blank := {}

/-- A member up to its value. -/
def Member.head (m : Member) : List UInt8 :=
  m.beforeKey.text ++ quote m.keyBody ++ m.afterKey.text ++ ':'.toUInt8 :: m.beforeValue.text

def Member.render (m : Member) : List UInt8 := m.head ++ m.text ++ m.afterValue.text

def arrayText (blank : Blank) (items : List Item) : List UInt8 :=
  '['.toUInt8 :: (if items = [] then blank.text else commaSep (items.map Item.render)) ++
    [']'.toUInt8]

def objectText (blank : Blank) (members : List Member) : List UInt8 :=
  '\x7b'.toUInt8 :: (if members = [] then blank.text else commaSep (members.map Member.render)) ++
    ['\x7d'.toUInt8]

/-- The text of an object up to the value of the member `m` behind the members `l`. -/
def objectBefore (l : List Member) (m : Member) : List UInt8 :=
  '\x7b'.toUInt8 :: (l.map Member.render).flatMap (· ++ [','.toUInt8]) ++ m.head

/-- The text of an object behind the value of its member `m`, which the members `r` follow. -/
def objectAfter (m : Member) (r : List Member) : List UInt8 :=
  m.afterValue.text ++ (r.map Member.render).flatMap (','.toUInt8 :: ·) ++ ['\x7d'.toUInt8]

/-- An object around the value of one of its members. -/
theorem objectText_split (blank : Blank) (l : List Member) (m : Member) (r : List Member) :
    objectText blank (l ++ m :: r) = objectBefore l m ++ m.text ++ objectAfter m r := by
  rw [objectText, if_neg (by simp), List.map_append, List.map_cons, commaSep_split]
  simp [objectBefore, objectAfter, Member.render]

/-! ## 3. Texts of values -/

/-- `v.Text s`: the text `s` writes the value `v`. -/
inductive Value.Text : Value → List UInt8 → Prop
  | null : Value.null.Text ['n'.toUInt8, 'u'.toUInt8, 'l'.toUInt8, 'l'.toUInt8]
  | true : (Value.bool Bool.true).Text ['t'.toUInt8, 'r'.toUInt8, 'u'.toUInt8, 'e'.toUInt8]
  | false : (Value.bool Bool.false).Text
      ['f'.toUInt8, 'a'.toUInt8, 'l'.toUInt8, 's'.toUInt8, 'e'.toUInt8]
  | number {s : List UInt8} : IsNumber s → (Value.number s).Text s
  | string {body bytes : List UInt8} : StringBody body bytes →
      (Value.string bytes).Text (quote body)
  | array (blank : Blank) (items : List Item) : (∀ i ∈ items, i.value.Text i.text) →
      (Value.array (items.map Item.value)).Text (arrayText blank items)
  | object (blank : Blank) (members : List Member) : (∀ m ∈ members, m.value.Text m.text) →
      (Value.object (members.map fun m => (m.key, m.value))).Text (objectText blank members)

/-- Every element of an array has a text. -/
theorem Value.Text.of_array {values : List Value} {s : List UInt8} (h : (Value.array values).Text s)
    {v : Value} (hv : v ∈ values) : ∃ t, v.Text t := by
  generalize harray : Value.array values = w at h
  cases h with
  | array blank items hitems =>
    injection harray with hvalues
    subst hvalues
    obtain ⟨item, hitem, rfl⟩ := List.mem_map.mp hv
    exact ⟨item.text, hitems item hitem⟩
  | _ => cases harray

/-- Every member of an object has a text. -/
theorem Value.Text.of_object {values : List (List UInt8 × Value)} {s : List UInt8}
    (h : (Value.object values).Text s) {m : List UInt8 × Value} (hm : m ∈ values) :
    ∃ t, m.2.Text t := by
  generalize hobject : Value.object values = w at h
  cases h with
  | object blank members hmembers =>
    injection hobject with hvalues
    subst hvalues
    obtain ⟨member, hmember, rfl⟩ := List.mem_map.mp hm
    exact ⟨member.text, hmembers member hmember⟩
  | _ => cases hobject

/-! ## 4. Bytes -/

/-- What can be checked for each byte. -/
theorem forall_byte {P : UInt8 → Prop} (h : ∀ n : Fin 256, P (UInt8.ofNat n.val)) (ch : UInt8) :
    P ch := by
  have hch := h ⟨ch.toNat, ch.toNat_lt⟩
  rwa [UInt8.ofNat_toNat] at hch

/-- A control byte that is no white space; no text holds one. -/
def IsControl (ch : UInt8) : Prop := ch < 32 ∧ isBlank ch = false

instance : DecidablePred IsControl := fun ch =>
  inferInstanceAs (Decidable (ch < 32 ∧ isBlank ch = false))

theorem not_isControl_of_le {ch : UInt8} (h : 32 ≤ ch) : ¬ IsControl ch := fun hch => by
  have hlow := hch.1
  rw [UInt8.lt_iff_toNat_lt] at hlow
  exact absurd (UInt8.le_iff_toNat_le.mp h) (by omega)

theorem Blank.not_isControl (blank : Blank) : ∀ ch ∈ blank.text, ¬ IsControl ch := fun ch hch h => by
  have hblank := List.all_eq_true.mp blank.blank ch hch
  rw [h.2] at hblank
  cases hblank

/-- The bytes of a number are digits, signs, the point and the mark of the exponent. -/
theorem IsNumber.forall_bytes {P : UInt8 → Prop} {s : List UInt8} (h : IsNumber s)
    (hdigit : ∀ ch, isDigit ch = true → P ch)
    (hother : ∀ ch ∈ ['-'.toUInt8, '+'.toUInt8, '.'.toUInt8, 'e'.toUInt8, 'E'.toUInt8], P ch) :
    ∀ ch ∈ s, P ch := by
  have hdigits {digits : List UInt8} (h : IsDigits digits) : ∀ ch ∈ digits, P ch :=
    fun ch hch => hdigit ch (h.2 ch hch)
  obtain ⟨sign, int, fraction, exponent, rfl, hsign, ⟨hint, -⟩, hfraction, hexponent⟩ := h.parts
  simp only [List.forall_mem_append]
  refine ⟨⟨⟨?_, hdigits hint⟩, ?_⟩, ?_⟩
  · rcases hsign with rfl | rfl
    · simp
    · simpa using hother '-'.toUInt8 (by decide)
  · rcases hfraction with rfl | ⟨digits, hfraction, rfl⟩
    · simp
    · exact List.forall_mem_cons.mpr ⟨hother _ (by decide), hdigits hfraction⟩
  · rcases hexponent with rfl | ⟨e, mark, digits, he, hmark, hexponent, rfl⟩
    · simp
    · refine List.forall_mem_append.mpr ⟨List.forall_mem_cons.mpr ⟨?_, ?_⟩, hdigits hexponent⟩
      · rcases he with rfl | rfl <;> exact hother _ (by decide)
      · rcases hmark with rfl | rfl | rfl
        · simp
        · simpa using hother '+'.toUInt8 (by decide)
        · simpa using hother '-'.toUInt8 (by decide)

/-- The bytes of numbers are printable ASCII. -/
theorem IsNumber.bytes {s : List UInt8} (h : IsNumber s) : ∀ ch ∈ s, 32 ≤ ch ∧ ch < 128 := by
  refine h.forall_bytes (fun ch hdigit => ?_) (by decide)
  simp only [isDigit, Bool.and_eq_true, decide_eq_true_eq] at hdigit
  exact ⟨UInt8.le_trans (by decide) hdigit.1, UInt8.lt_of_le_of_lt hdigit.2 (by decide)⟩

/-- A number begins with a digit, or with a minus sign and a digit. -/
theorem IsNumber.head {ch : UInt8} {rest : List UInt8} (h : IsNumber (ch :: rest)) :
    isDigit ch = true ∨ ch = '-'.toUInt8 ∧ ∃ d, rest.head? = some d ∧ isDigit d = true := by
  obtain ⟨sign, int, fraction, exponent, heq, hsign, ⟨⟨hnonempty, hdigits⟩, -⟩, -, -⟩ := h
  obtain ⟨d, int, rfl⟩ := List.exists_cons_of_ne_nil hnonempty
  have hd := hdigits d List.mem_cons_self
  rcases hsign with rfl | rfl
  · obtain ⟨rfl, -⟩ := List.cons.inj heq
    exact .inl hd
  · obtain ⟨rfl, rfl⟩ := List.cons.inj heq
    exact .inr ⟨rfl, d, rfl, hd⟩

theorem le_of_simpleEscape {ch value : UInt8} (h : simpleEscape ch = some value) : 32 ≤ ch := by
  have hch := forall_byte (P := fun ch => simpleEscape ch = none ∨ 32 ≤ ch) (by decide +kernel) ch
  rw [h] at hch
  simpa using hch

theorem le_of_hexDigit {ch : UInt8} {n : ℕ} (h : hexDigit ch = some n) : 32 ≤ ch := by
  have hch := forall_byte (P := fun ch => hexDigit ch = none ∨ 32 ≤ ch) (by decide +kernel) ch
  rw [h] at hch
  simpa using hch

theorem le_of_codeUnit {hex : List UInt8} {code : ℕ} (h : codeUnit hex = some code) :
    ∀ ch ∈ hex, 32 ≤ ch := by
  unfold codeUnit at h
  split at h
  · simp only [Option.bind_eq_bind, Option.bind_eq_some_iff] at h
    obtain ⟨a, ha, b, hb, c, hc, d, hd, -⟩ := h
    simp [le_of_hexDigit ha, le_of_hexDigit hb, le_of_hexDigit hc, le_of_hexDigit hd]
  · cases h

theorem StringBody.le {body bytes : List UInt8} (h : StringBody body bytes) :
    ∀ ch ∈ body, 32 ≤ ch := by
  induction h with
  | nil => simp
  | plain hch _ _ _ ih => exact List.forall_mem_cons.mpr ⟨hch, ih⟩
  | escape hescape _ ih =>
    exact List.forall_mem_cons.mpr ⟨by decide, List.forall_mem_cons.mpr
      ⟨le_of_simpleEscape hescape, ih⟩⟩
  | unicode hcode _ _ ih =>
    have hhex := le_of_codeUnit hcode
    simp only [List.cons_append, List.forall_mem_cons, List.forall_mem_append]
    exact ⟨by decide, by decide, hhex, ih⟩
  | surrogates hhigh hlow _ _ _ ih =>
    have hhex := le_of_codeUnit hhigh
    have hhex' := le_of_codeUnit hlow
    simp only [List.cons_append, List.append_assoc, List.forall_mem_cons, List.forall_mem_append]
    exact ⟨by decide, by decide, hhex, by decide, by decide, hhex', ih⟩

theorem quote_not_isControl {body bytes : List UInt8} (h : StringBody body bytes) :
    ∀ ch ∈ quote body, ¬ IsControl ch := by
  have hquote : ¬ IsControl '"'.toUInt8 := not_isControl_of_le (by decide)
  rw [quote, List.forall_mem_append, List.forall_mem_cons, List.forall_mem_singleton]
  exact ⟨⟨hquote, fun ch hch => not_isControl_of_le (h.le ch hch)⟩, hquote⟩

theorem commaSep_not_isControl {parts : List (List UInt8)}
    (h : ∀ part ∈ parts, ∀ ch ∈ part, ¬ IsControl ch) : ∀ ch ∈ commaSep parts, ¬ IsControl ch := by
  cases parts with
  | nil => simp [commaSep]
  | cons part rest =>
    obtain ⟨hpart, hrest⟩ := List.forall_mem_cons.mp h
    rw [commaSep_cons, List.forall_mem_append]
    refine ⟨hpart, fun ch hch => ?_⟩
    obtain ⟨s, hs, hch⟩ := List.mem_flatMap.mp hch
    rcases List.mem_cons.mp hch with rfl | hch
    · exact not_isControl_of_le (by decide)
    · exact hrest s hs ch hch

/-- Between two brackets. -/
theorem brackets_not_isControl {first last : UInt8} {s : List UInt8} (hfirst : 32 ≤ first)
    (hlast : 32 ≤ last) (h : ∀ ch ∈ s, ¬ IsControl ch) :
    ∀ ch ∈ first :: s ++ [last], ¬ IsControl ch := by
  rw [List.forall_mem_append, List.forall_mem_cons, List.forall_mem_singleton]
  exact ⟨⟨not_isControl_of_le hfirst, h⟩, not_isControl_of_le hlast⟩

theorem Item.render_not_isControl {item : Item} (h : ∀ ch ∈ item.text, ¬ IsControl ch) :
    ∀ ch ∈ item.render, ¬ IsControl ch := by
  rw [Item.render, List.forall_mem_append, List.forall_mem_append]
  exact ⟨⟨item.before.not_isControl, h⟩, item.after.not_isControl⟩

theorem Member.render_not_isControl {m : Member} (h : ∀ ch ∈ m.text, ¬ IsControl ch) :
    ∀ ch ∈ m.render, ¬ IsControl ch := by
  have hcolon : ¬ IsControl ':'.toUInt8 := not_isControl_of_le (by decide)
  simp only [Member.render, Member.head, List.forall_mem_append, List.forall_mem_cons]
  exact ⟨⟨⟨⟨⟨m.beforeKey.not_isControl, quote_not_isControl m.keyText⟩, m.afterKey.not_isControl⟩,
    hcolon, m.beforeValue.not_isControl⟩, h⟩, m.afterValue.not_isControl⟩

/-- No JSON text holds a control byte other than white space. -/
theorem Value.Text.not_isControl {v : Value} {s : List UInt8} (h : v.Text s) :
    ∀ ch ∈ s, ¬ IsControl ch := by
  induction h with
  | null | true | false => decide
  | number hnumber => exact fun ch hch => not_isControl_of_le (hnumber.bytes ch hch).1
  | string hbody => exact quote_not_isControl hbody
  | array blank items _ ih =>
    refine brackets_not_isControl (by decide) (by decide) ?_
    split
    · exact blank.not_isControl
    · refine commaSep_not_isControl fun part hpart => ?_
      obtain ⟨item, hitem, rfl⟩ := List.mem_map.mp hpart
      exact item.render_not_isControl (ih item hitem)
  | object blank members _ ih =>
    refine brackets_not_isControl (by decide) (by decide) ?_
    split
    · exact blank.not_isControl
    · refine commaSep_not_isControl fun part hpart => ?_
      obtain ⟨member, hmember, rfl⟩ := List.mem_map.mp hpart
      exact member.render_not_isControl (ih member hmember)

end Json
