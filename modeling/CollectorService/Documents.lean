import CollectorService.Serializers
import CollectorService.Utf8
import Mathlib.Data.Nat.Digits.Lemmas

/-!
# Documents

The serializers concatenate. A `Part` is what they concatenate, with the value that is meant and the
texts and times that are written into it; a part that is put together as the serializers do it is
`Written`.

* `Part.Written.valid_iff`: such a part is a JSON text of its value, in UTF-8, exactly when every
  leaf is clean.
-/

namespace CollectorService

open Json (Value IsControl IsNumber IsDigits StringBody commaSep mem_commaSep)

/-! ## 1. Leaves -/

/-- A string or a time that a serializer writes. -/
inductive Leaf where
  | text (value : Str)
  | time (value : Double)

/-- The `double` is a number. -/
def Double.IsFinite : Double → Prop
  | .number (some (some _)) => True
  | _ => False

/-- No control byte other than a line feed, a carriage return and a tab. -/
def NoOtherControl (value : Str) : Prop := ∀ ch ∈ value, ¬ IsControl ch

instance (value : Str) : Decidable (NoOtherControl value) :=
  inferInstanceAs (Decidable (∀ ch ∈ value, ¬ IsControl ch))

/-- What a serializer can write. -/
def Leaf.Clean : Leaf → Prop
  | .text value => NoOtherControl value ∧ IsUtf8 value
  | .time value => value.IsFinite

section Strings
variable {value : Str}

/-- What `escapeJson` writes for a byte. -/
def Escaped (ch : UInt8) : Prop :=
  escapeByte ch = [ch] ∧ ch ≠ byte '"' ∧ ch ≠ byte '\\' ∧ (32 ≤ ch ∨ IsControl ch) ∨
  ch < 128 ∧ ¬ IsControl ch ∧ ∃ mark ∈ lit "\"\\nrt", mark < 128 ∧
    escapeByte ch = [byte '\\', mark] ∧ Json.simpleEscape mark = some ch

theorem escaped (ch : UInt8) : Escaped ch :=
  Json.forall_byte (P := Escaped) (fun n => by unfold Escaped; revert n; decide +kernel) ch

/-- Between quotes, an escaped string writes the string. -/
theorem stringBody_escapeJson (h : NoOtherControl value) : StringBody (escapeJson value) value := by
  induction value with
  | nil => exact .nil
  | cons ch value ih =>
    obtain ⟨hch, hvalue⟩ := List.forall_mem_cons.mp h
    rw [escapeJson, List.flatMap_cons]
    rcases escaped ch with ⟨hplain, hquote, hbackslash, hbyte⟩ | ⟨-, -, mark, -, -, hescape, hmark⟩
    · rw [hplain]
      exact .plain (hbyte.resolve_right hch) hquote hbackslash (ih hvalue)
    · rw [hescape]
      exact .escape hmark (ih hvalue)

/-- A control byte that has no escape is written as it is. -/
theorem mem_escapeJson {ch : UInt8} (hch : ch ∈ value) (hcontrol : IsControl ch) :
    ch ∈ escapeJson value := by
  refine List.mem_flatMap.mpr ⟨ch, hch, ?_⟩
  rcases escaped ch with ⟨hplain, -⟩ | ⟨-, hnot, -⟩
  · rw [hplain]
    exact List.mem_cons_self
  · exact absurd hcontrol hnot

/-- The bytes that are escaped, and their escapes, are ASCII. -/
theorem isUtf8_escapeJson : IsUtf8 (escapeJson value) ↔ IsUtf8 value := by
  -- a longer text in front, so that the induction can take plain bytes to it
  suffices h : ∀ front : Str, IsUtf8 (front ++ escapeJson value) ↔ IsUtf8 (front ++ value) from h []
  induction value with
  | nil => exact fun _ => Iff.rfl
  | cons ch value ih =>
    intro front
    rw [escapeJson, List.flatMap_cons]
    rcases escaped ch with ⟨hplain, -⟩ | ⟨hascii, -, mark, -, hmark, hescape, -⟩
    · have h := ih (front ++ [ch])
      rw [List.append_assoc, List.append_assoc] at h
      rw [hplain]
      exact h
    · have h := ih []
      rw [List.nil_append, List.nil_append] at h
      rw [hescape, IsUtf8.append_ascii_iff hascii]
      show IsUtf8 (front ++ byte '\\' :: mark :: escapeJson value) ↔ _
      rw [IsUtf8.append_ascii_iff (by decide), IsUtf8.cons_ascii_iff hmark, h]

end Strings

/-! ## 2. Numbers -/

section Numbers

theorem isDigit_eq (ch : UInt8) : Json.isDigit ch = isDigit ch :=
  Json.forall_byte (P := fun ch => Json.isDigit ch = isDigit ch) (by decide +kernel) ch

/-- Digits without a leading zero. -/
def IsInteger (digits : Str) : Prop :=
  IsDigits digits ∧ (digits.head? = some (byte '0') → digits = [byte '0'])

theorem isInteger_decimalNat (n : ℕ) : IsInteger (decimalNat n) := by
  have hdigits : ∀ ch ∈ decimalNat n, Json.isDigit ch = true := fun ch hch => by
    rw [isDigit_eq]
    exact isDigit_decimalNat ch hch
  cases decEq n 0 with
  | isTrue hzero =>
    subst hzero
    exact ⟨⟨by decide, hdigits⟩, fun _ => rfl⟩
  | isFalse hne =>
    have hdec : decimalNat n = (Nat.digits 10 n).reverse.map fun d => byte '0' + UInt8.ofNat d :=
      if_neg hne
    have hnonempty : Nat.digits 10 n ≠ [] := Nat.digits_ne_nil_iff_ne_zero.mpr hne
    refine ⟨⟨by simpa [hdec] using hnonempty, hdigits⟩, fun hhead => ?_⟩
    -- the first digit is the last of `Nat.digits`
    rw [hdec, List.head?_map, List.head?_reverse, List.getLast?_eq_some_getLast hnonempty] at hhead
    have hlast := Nat.getLast_digit_ne_zero 10 hne
    have hlt : (Nat.digits 10 n).getLast hnonempty < 10 :=
      Nat.digits_lt_base (by decide) (List.getLast_mem hnonempty)
    generalize (Nat.digits 10 n).getLast hnonempty = d at hhead hlast hlt
    exfalso
    interval_cases d <;> revert hhead hlast <;> decide

theorem IsInteger.take {digits : Str} (h : IsInteger digits) (k : ℕ) :
    IsInteger (digits.take (k + 1)) := by
  obtain ⟨⟨hnonempty, hdigits⟩, hhead⟩ := h
  obtain ⟨ch, rest, rfl⟩ := List.exists_cons_of_ne_nil hnonempty
  refine ⟨⟨by simp, fun c hc => hdigits c (List.mem_of_mem_take hc)⟩, fun hzero => ?_⟩
  have hrest := hhead (by simpa using hzero)
  rw [hrest, List.take_succ_cons, List.take_nil]

/-- A number from its parts. -/
theorem isNumber_of_parts {sign int fraction exponent : Str}
    (hsign : sign = [] ∨ sign = [byte '-']) (hint : IsInteger int)
    (hfraction : fraction = [] ∨ ∃ digits, IsDigits digits ∧ fraction = byte '.' :: digits)
    (hexponent : exponent = [] ∨ ∃ mark digits, (mark = [byte '+'] ∨ mark = [byte '-']) ∧
      IsDigits digits ∧ exponent = byte 'e' :: mark ++ digits) :
    IsNumber (sign ++ int ++ fraction ++ exponent) := by
  refine ⟨sign, int, fraction, exponent, rfl, hsign, hint, hfraction, ?_⟩
  rcases hexponent with rfl | ⟨mark, digits, hmark, hdigits, rfl⟩
  · exact .inl rfl
  · exact .inr ⟨byte 'e', mark, digits, .inl rfl, .inr hmark, hdigits, rfl⟩

theorem isNumber_decimal (n : ℤ) : IsNumber (decimal n) := by
  have hint := isInteger_decimalNat n.natAbs
  unfold decimal
  split
  · simpa using isNumber_of_parts (.inr rfl) hint (.inl rfl) (.inl rfl)
  · simpa using isNumber_of_parts (.inl rfl) hint (.inl rfl) (.inl rfl)

theorem fractionText_cases {digits : Str} (h : ∀ ch ∈ digits, Json.isDigit ch = true) :
    fractionText digits = [] ∨
      ∃ kept, IsDigits kept ∧ fractionText digits = byte '.' :: kept := by
  unfold fractionText
  split
  · exact .inl rfl
  · next hkept =>
    exact .inr ⟨dropZeros digits, ⟨hkept, fun ch hch =>
      h ch ((List.rdropWhile_prefix _ _).subset hch)⟩, rfl⟩

theorem isDigits_paddedNat (width n : ℕ) : IsDigits (paddedNat width n) := by
  obtain ⟨⟨hnonempty, hdigits⟩, -⟩ := isInteger_decimalNat n
  refine ⟨fun h => hnonempty (List.append_eq_nil_iff.mp h).2, ?_⟩
  rw [paddedNat, List.forall_mem_append]
  refine ⟨fun ch hch => ?_, hdigits⟩
  rw [List.eq_of_mem_replicate hch]
  rfl

theorem isNumber_generalText {sign digits : Str} (hsign : sign = [] ∨ sign = [byte '-'])
    (h : IsInteger digits) (exponent : ℤ) : IsNumber (sign ++ generalText digits exponent) := by
  have hdigits := h.1.2
  have hdrop (k : ℕ) : ∀ ch ∈ digits.drop k, Json.isDigit ch = true :=
    fun ch hch => hdigits ch (List.mem_of_mem_drop hch)
  have hpadded := isDigits_paddedNat 2 exponent.natAbs
  unfold generalText
  split
  · -- with an exponent
    have hexponent : ∃ mark digits, (mark = [byte '+'] ∨ mark = [byte '-']) ∧ IsDigits digits ∧
        (if exponent < 0 then lit "e-" else lit "e+") ++ paddedNat 2 exponent.natAbs =
          byte 'e' :: mark ++ digits := by
      split
      · exact ⟨[byte '-'], _, .inr rfl, hpadded, rfl⟩
      · exact ⟨[byte '+'], _, .inl rfl, hpadded, rfl⟩
    simpa only [List.append_assoc] using
      isNumber_of_parts hsign (h.take 0) (fractionText_cases (hdrop 1)) (.inr hexponent)
  split
  · -- below one
    have hzeros : ∀ ch ∈ List.replicate (exponent.natAbs - 1) (byte '0') ++ digits,
        Json.isDigit ch = true := by
      rw [List.forall_mem_append]
      refine ⟨fun ch hch => ?_, hdigits⟩
      rw [List.eq_of_mem_replicate hch]
      rfl
    have hint : IsInteger (lit "0") := isInteger_decimalNat 0
    simpa only [List.append_assoc, List.append_nil] using
      isNumber_of_parts hsign hint (fractionText_cases hzeros) (.inl rfl)
  · simpa only [List.append_assoc, List.append_nil] using
      isNumber_of_parts hsign (h.take exponent.toNat) (fractionText_cases (hdrop _)) (.inl rfl)

/-- A stream writes a JSON number for every finite `double`, and for no other one. -/
theorem isNumber_general {x : Double} : IsNumber (general x) ↔ x.IsFinite := by
  constructor
  · intro h
    match x with
    | .number (some (some q)) => trivial
    | .nan | .number none | .number (some none) =>
      rcases h.head with hdigit | ⟨hminus, d, hd, hdigit⟩
      · exact absurd hdigit (by decide)
      · first
        | exact absurd hminus (by decide)
        | cases hd
          exact absurd hdigit (by decide)
  · intro h
    match x with
    | .number (some (some q)) =>
      unfold general
      dsimp only
      split
      · exact isNumber_decimal 0
      · refine isNumber_generalText ?_ (isInteger_decimalNat _) _
        split
        · exact .inr rfl
        · exact .inl rfl

theorem general_ascii (x : Double) : ∀ ch ∈ general x, ch < 128 := by
  match x with
  | .number (some (some q)) =>
    have hnumber : IsNumber (general (.number (some (some q)))) := isNumber_general.mpr trivial
    exact fun ch hch => (hnumber.bytes ch hch).2
  | .nan | .number none | .number (some none) => decide

end Numbers

/-! ## 3. Parts -/

/-- A text, the value that it is meant to write, and the leaves in it. -/
structure Part where
  value : Value
  text : Str
  leaves : List Leaf

namespace Part

def bool (b : Bool) : Part := ⟨.bool b, boolText b, []⟩

def int (n : ℤ) : Part := ⟨.number (decimal n), decimal n, []⟩

def time (x : Double) : Part := ⟨.number (general x), general x, [.time x]⟩

def string (value : Str) : Part := ⟨.string value, Json.quote (escapeJson value), [.text value]⟩

/-- A text that is written as it is. -/
def raw (value : Value) (text : Str) : Part := ⟨value, text, []⟩

def array (items : List Part) : Part where
  value := .array (items.map (·.value))
  text := lit "[" ++ commaSep (items.map (·.text)) ++ lit "]"
  leaves := items.flatMap (·.leaves)

/-- A member of an object in its text. -/
def memberText (member : String × Part) : Str :=
  Json.quote (lit member.1) ++ byte ':' :: member.2.text

def object (members : List (String × Part)) : Part where
  value := .object (members.map fun m => (lit m.1, m.2.value))
  text := lit "\x7b" ++ commaSep (members.map memberText) ++ lit "\x7d"
  leaves := members.flatMap (·.2.leaves)

/-- A key that stands for itself between its quotes. -/
def PlainKey (key : String) : Prop :=
  ∀ ch ∈ lit key, 32 ≤ ch ∧ ch < 128 ∧ ch ≠ byte '"' ∧ ch ≠ byte '\\'

instance (key : String) : Decidable (PlainKey key) :=
  inferInstanceAs (Decidable (∀ ch ∈ lit key, _))

/-- The part is put together as the serializers do it. -/
inductive Written : Part → Prop
  | bool (b : Bool) : Written (.bool b)
  | int (n : ℤ) : Written (.int n)
  | time (x : Double) : Written (.time x)
  | string (value : Str) : Written (.string value)
  | raw {value : Value} {text : Str} : value.Text text → IsUtf8 text → Written (.raw value text)
  | array {items : List Part} : (∀ i ∈ items, Written i) → Written (.array items)
  | object {members : List (String × Part)} : (∀ m ∈ members, PlainKey m.1) →
      (∀ m ∈ members, Written m.2) → Written (.object members)

/-- The part is a JSON text of its value. -/
def Valid (part : Part) : Prop := part.value.Text part.text ∧ IsUtf8 part.text

section Valid

theorem stringBody_key {key : String} (h : PlainKey key) : StringBody (lit key) (lit key) := by
  unfold PlainKey at h
  generalize lit key = s at h ⊢
  induction s with
  | nil => exact .nil
  | cons ch s ih =>
    obtain ⟨⟨hlow, -, hquote, hbackslash⟩, hs⟩ := List.forall_mem_cons.mp h
    exact .plain hlow hquote hbackslash (ih hs)

theorem text_array {items : List Part} (h : ∀ i ∈ items, i.value.Text i.text) :
    (array items).value.Text (array items).text := by
  let layout (i : Part) : Json.Item := { value := i.value, text := i.text }
  have hvalue : (items.map layout).map Json.Item.value = items.map (·.value) := List.map_map ..
  have hrender : (items.map layout).map Json.Item.render = items.map (·.text) := by
    rw [List.map_map]
    exact List.map_congr_left fun i _ => List.append_nil i.text
  have htext := Value.Text.array {} (items.map layout) (by simpa using h)
  rw [hvalue, Json.arrayText, hrender] at htext
  cases items with
  | nil => exact htext
  | cons i items => exact htext

theorem text_object {members : List (String × Part)} (hkeys : ∀ m ∈ members, PlainKey m.1)
    (h : ∀ m ∈ members, m.2.value.Text m.2.text) :
    (object members).value.Text (object members).text := by
  let layout (m : {m // m ∈ members}) : Json.Member :=
    { key := lit m.val.1, keyBody := lit m.val.1, keyText := stringBody_key (hkeys m.val m.property)
      value := m.val.2.value, text := m.val.2.text }
  have hvalue : (members.attach.map layout).map (fun m => (m.key, m.value)) =
      members.map fun m => (lit m.1, m.2.value) := by
    rw [List.map_map]
    exact members.attach_map_val (f := fun m : String × Part => (lit m.1, m.2.value))
  have hrender : (members.attach.map layout).map Json.Member.render = members.map memberText := by
    have hone (m : {m // m ∈ members}) : (layout m).render = memberText m.val := by
      simp only [layout, Json.Member.render, Json.Member.head, memberText, List.append_nil,
        List.nil_append, List.append_assoc, List.cons_append]
      rfl
    rw [List.map_map, ← List.attach_map_val (f := memberText)]
    exact List.map_congr_left fun m _ => hone m
  have htext := Value.Text.object {} (members.attach.map layout) fun member hmember => by
    obtain ⟨m, -, rfl⟩ := List.mem_map.mp hmember
    exact h m.val m.property
  rw [hvalue, Json.objectText, hrender] at htext
  cases members with
  | nil => exact htext
  | cons m members => exact htext

/-! The encoding of what is put together. -/

theorem isUtf8_commaSep {parts : List Str} : IsUtf8 (commaSep parts) ↔ ∀ s ∈ parts, IsUtf8 s := by
  induction parts with
  | nil => exact iff_of_true .nil (by simp)
  | cons s parts ih =>
    cases parts with
    | nil => exact (List.forall_mem_singleton (p := IsUtf8)).symm
    | cons s' parts =>
      rw [List.forall_mem_cons, ← ih]
      exact IsUtf8.append_ascii_iff (by decide)

theorem isUtf8_brackets {first last : UInt8} {s : Str} (hfirst : first < 128) (hlast : last < 128) :
    IsUtf8 ([first] ++ s ++ [last]) ↔ IsUtf8 s := by
  show IsUtf8 (first :: (s ++ [last])) ↔ _
  rw [IsUtf8.cons_ascii_iff hfirst, IsUtf8.append_ascii_iff hlast]
  exact and_iff_left .nil

theorem isUtf8_string {value : Str} : IsUtf8 (string value).text ↔ IsUtf8 value :=
  (isUtf8_brackets (by decide) (by decide)).trans isUtf8_escapeJson

theorem isUtf8_array {items : List Part} :
    IsUtf8 (array items).text ↔ ∀ i ∈ items, IsUtf8 i.text := by
  refine (isUtf8_brackets (by decide) (by decide)).trans ?_
  rw [isUtf8_commaSep, List.forall_mem_map]

theorem isUtf8_memberText {member : String × Part} (h : PlainKey member.1) :
    IsUtf8 (memberText member) ↔ IsUtf8 member.2.text := by
  rw [memberText, IsUtf8.append_ascii_iff (by decide)]
  refine and_iff_right ((isUtf8_brackets (by decide) (by decide)).mpr ?_)
  exact .of_ascii fun ch hch => (h ch hch).2.1

theorem isUtf8_object {members : List (String × Part)} (hkeys : ∀ m ∈ members, PlainKey m.1) :
    IsUtf8 (object members).text ↔ ∀ m ∈ members, IsUtf8 m.2.text := by
  refine (isUtf8_brackets (by decide) (by decide)).trans ?_
  rw [isUtf8_commaSep, List.forall_mem_map]
  exact forall₂_congr fun m hm => isUtf8_memberText (hkeys m hm)

/-- The strings in a part decide its encoding. -/
theorem Written.isUtf8_iff {part : Part} (h : Written part) :
    IsUtf8 part.text ↔ ∀ value, .text value ∈ part.leaves → IsUtf8 value := by
  induction h with
  | bool b =>
    refine iff_of_true ?_ (by simp [Part.bool])
    cases b <;> exact .of_ascii (by decide)
  | int n =>
    refine iff_of_true ?_ (by simp [Part.int])
    exact .of_ascii fun ch hch => ((isNumber_decimal n).bytes ch hch).2
  | time x =>
    refine iff_of_true ?_ (by simp [Part.time])
    exact .of_ascii fun ch hch => general_ascii x ch hch
  | string value =>
    rw [isUtf8_string]
    simp [Part.string]
  | raw _ hutf8 => exact iff_of_true hutf8 (by simp [Part.raw])
  | @array items _ ih =>
    rw [isUtf8_array]
    simp only [Part.array, List.mem_flatMap]
    constructor
    · rintro hitems value ⟨i, hi, hvalue⟩
      exact (ih i hi).mp (hitems i hi) value hvalue
    · intro hvalues i hi
      exact (ih i hi).mpr fun value hvalue => hvalues value ⟨i, hi, hvalue⟩
  | @object members hkeys _ ih =>
    rw [isUtf8_object hkeys]
    simp only [Part.object, List.mem_flatMap]
    constructor
    · rintro hmembers value ⟨m, hm, hvalue⟩
      exact (ih m hm).mp (hmembers m hm) value hvalue
    · intro hvalues m hm
      exact (ih m hm).mpr fun value hvalue => hvalues value ⟨m, hm, hvalue⟩

/-- Leaves that the grammar has a place for are written by the text of the part. -/
theorem Written.text {part : Part} (h : Written part)
    (hstrings : ∀ value, .text value ∈ part.leaves → NoOtherControl value)
    (htimes : ∀ x, .time x ∈ part.leaves → x.IsFinite) : part.value.Text part.text := by
  induction h with
  | bool b =>
    cases b
    · exact .false
    · exact .true
  | int n => exact .number (isNumber_decimal n)
  | time x => exact .number (isNumber_general.mpr (htimes x (List.mem_singleton_self _)))
  | string value =>
    exact .string (stringBody_escapeJson (hstrings value (List.mem_singleton_self _)))
  | raw htext _ => exact htext
  | array _ ih =>
    exact text_array fun i hi => ih i hi
      (fun value hvalue => hstrings value (List.mem_flatMap.mpr ⟨i, hi, hvalue⟩))
      (fun x hx => htimes x (List.mem_flatMap.mpr ⟨i, hi, hx⟩))
  | object hkeys _ ih =>
    exact text_object hkeys fun m hm => ih m hm
      (fun value hvalue => hstrings value (List.mem_flatMap.mpr ⟨m, hm, hvalue⟩))
      (fun x hx => htimes x (List.mem_flatMap.mpr ⟨m, hm, hx⟩))

/-- A control byte of a string gets into the text. -/
theorem Written.mem_text {part : Part} (h : Written part) {value : Str}
    (hvalue : .text value ∈ part.leaves) {ch : UInt8} (hch : ch ∈ value) (hcontrol : IsControl ch) :
    ch ∈ part.text := by
  induction h with
  | bool | int | raw => cases hvalue
  | time x => cases List.mem_singleton.mp hvalue
  | string value' =>
    cases List.mem_singleton.mp hvalue
    exact List.mem_append_left _ (List.mem_cons_of_mem _ (mem_escapeJson hch hcontrol))
  | @array items _ ih =>
    obtain ⟨i, hi, hvalue⟩ := List.mem_flatMap.mp hvalue
    exact List.mem_append_left _ (List.mem_append_right _
      (mem_commaSep (List.mem_map_of_mem hi) (ih i hi hvalue)))
  | @object members _ _ ih =>
    obtain ⟨m, hm, hvalue⟩ := List.mem_flatMap.mp hvalue
    exact List.mem_append_left _ (List.mem_append_right _
      (mem_commaSep (List.mem_map_of_mem hm)
        (List.mem_append_right _ (List.mem_cons_of_mem _ (ih m hm hvalue)))))

/-- No text writes a value with a time in it that is not finite. -/
theorem Written.isFinite {part : Part} (h : Written part) {x : Double}
    (hx : .time x ∈ part.leaves) {s : Str} (htext : part.value.Text s) : x.IsFinite := by
  induction h generalizing s with
  | bool | int | raw => cases hx
  | time x' =>
    cases List.mem_singleton.mp hx
    cases htext with
    | number hnumber => exact isNumber_general.mp hnumber
  | string => cases List.mem_singleton.mp hx
  | @array items _ ih =>
    obtain ⟨i, hi, hx⟩ := List.mem_flatMap.mp hx
    obtain ⟨s, hs⟩ := htext.of_array (List.mem_map_of_mem hi)
    exact ih i hi hx hs
  | @object members _ _ ih =>
    obtain ⟨m, hm, hx⟩ := List.mem_flatMap.mp hx
    obtain ⟨s, hs⟩ := htext.of_object (List.mem_map_of_mem hm)
    exact ih m hm hx hs

/-- A part is a text of its value, in UTF-8, exactly when its leaves are clean. -/
theorem Written.valid_iff {part : Part} (h : Written part) :
    part.Valid ↔ ∀ leaf ∈ part.leaves, leaf.Clean := by
  constructor
  · rintro ⟨htext, hutf8⟩ leaf hleaf
    cases leaf with
    | text value =>
      exact ⟨fun ch hch hcontrol => htext.not_isControl ch (h.mem_text hleaf hch hcontrol) hcontrol,
        h.isUtf8_iff.mp hutf8 value hleaf⟩
    | time x => exact h.isFinite hleaf htext
  · intro hclean
    exact ⟨h.text (fun value hvalue => (hclean _ hvalue).1) fun x hx => hclean _ hx,
      h.isUtf8_iff.mpr fun value hvalue => (hclean _ hvalue).2⟩

end Valid

end Part

end CollectorService
