import CollectorService.Json
import Mathlib.Data.List.Forall2

/-!
# Reading JSON texts

A text writes one value only, so any decoder that follows the grammar reads that value. The proof
compares two texts with what follows each of them, from the left.

* `Value.Text.unique`: one text, one value.
-/

namespace Json

variable {s s' t t' r r' : List UInt8}

/-! ## 1. Where tokens end -/

theorem append_unique {p : UInt8 → Bool} (hs : ∀ ch ∈ s, p ch = true) (hs' : ∀ ch ∈ s', p ch = true)
    (hr : ∀ ch ∈ r.head?, p ch = false) (hr' : ∀ ch ∈ r'.head?, p ch = false)
    (h : s ++ r = s' ++ r') : s = s' ∧ r = r' := by
  have hsame : s = s' := by rw [← Search.takeWhile_run hs hr, h, Search.takeWhile_run hs' hr']
  subst hsame
  exact ⟨rfl, List.append_cancel_left h⟩

theorem Blank.unique {blank blank' : Blank} (hr : ∀ ch ∈ r.head?, isBlank ch = false)
    (hr' : ∀ ch ∈ r'.head?, isBlank ch = false) (h : blank.text ++ r = blank'.text ++ r') :
    blank.text = blank'.text ∧ r = r' :=
  append_unique (List.all_eq_true.mp blank.blank) (List.all_eq_true.mp blank'.blank) hr hr' h

/-- The bytes that numbers are made of. -/
def isNumberByte (ch : UInt8) : Bool :=
  isDigit ch || ch = '-'.toUInt8 || ch = '+'.toUInt8 || ch = '.'.toUInt8 || ch = 'e'.toUInt8 ||
    ch = 'E'.toUInt8

theorem IsNumber.isNumberByte (h : IsNumber s) : ∀ ch ∈ s, isNumberByte ch = true := by
  refine h.forall_bytes (fun ch hdigit => ?_) (by decide)
  rw [Json.isNumberByte, hdigit]
  rfl

/-! ## 2. Strings -/

theorem length_of_codeUnit {hex : List UInt8} {code : ℕ} (h : codeUnit hex = some code) :
    hex.length = 4 := by
  unfold codeUnit at h
  split at h
  · rfl
  · cases h

theorem codeUnit_unique {hex hex' : List UInt8} {code code' : ℕ} (h : codeUnit hex = some code)
    (h' : codeUnit hex' = some code') (heq : hex ++ r = hex' ++ r') :
    hex = hex' ∧ code = code' ∧ r = r' := by
  obtain ⟨rfl, hr⟩ := List.append_inj heq ((length_of_codeUnit h).trans (length_of_codeUnit h').symm)
  exact ⟨rfl, Option.some.inj (h.symm.trans h'), hr⟩

/-- The byte behind a backslash of an escape that has one byte. -/
theorem ne_of_simpleEscape {ch value : UInt8} (h : simpleEscape ch = some value) :
    ch ≠ 'u'.toUInt8 := by
  rintro rfl
  cases h

/-- A string ends at its first quote that no backslash stands before. -/
theorem StringBody.unique {body body' bytes bytes' : List UInt8} (h : StringBody body bytes)
    (h' : StringBody body' bytes') (heq : body ++ '"'.toUInt8 :: r = body' ++ '"'.toUInt8 :: r') :
    body = body' ∧ bytes = bytes' ∧ r = r' := by
  have hquote : '"'.toUInt8 ≠ '\\'.toUInt8 := by decide
  induction h generalizing body' bytes' with
  | nil =>
    cases h' with
    | nil => exact ⟨rfl, rfl, (List.cons.inj heq).2⟩
    | plain _ hne _ _ => exact absurd (List.cons.inj heq).1.symm hne
    | escape | unicode | surrogates => exact absurd (List.cons.inj heq).1 hquote
  | plain _ hne hbackslash _ ih =>
    cases h' with
    | nil => exact absurd (List.cons.inj heq).1 hne
    | plain _ _ _ hbody =>
      obtain ⟨rfl, htail⟩ := List.cons.inj heq
      obtain ⟨rfl, rfl, hr⟩ := ih hbody htail
      exact ⟨rfl, rfl, hr⟩
    | escape | unicode | surrogates => exact absurd (List.cons.inj heq).1 hbackslash
  | escape hescape _ ih =>
    cases h' with
    | nil => exact absurd (List.cons.inj heq).1.symm hquote
    | plain _ _ hbackslash _ => exact absurd (List.cons.inj heq).1.symm hbackslash
    | escape hescape' hbody =>
      obtain ⟨rfl, htail⟩ := List.cons.inj (List.cons.inj heq).2
      obtain ⟨rfl, rfl, hr⟩ := ih hbody htail
      exact ⟨rfl, congrArg (· :: _) (Option.some.inj (hescape.symm.trans hescape')), hr⟩
    | unicode | surrogates =>
      exact absurd (List.cons.inj (List.cons.inj heq).2).1 (ne_of_simpleEscape hescape)
  | unicode hcode hrange _ ih =>
    simp only [List.cons_append, List.append_assoc] at heq
    cases h' with
    | nil => exact absurd (List.cons.inj heq).1.symm hquote
    | plain _ _ hbackslash _ => exact absurd (List.cons.inj heq).1.symm hbackslash
    | escape hescape' _ =>
      exact absurd (List.cons.inj (List.cons.inj heq).2).1.symm (ne_of_simpleEscape hescape')
    | unicode hcode' _ hbody =>
      simp only [List.cons_append, List.append_assoc] at heq
      obtain ⟨rfl, rfl, heq⟩ := codeUnit_unique hcode hcode' (List.cons.inj (List.cons.inj heq).2).2
      obtain ⟨rfl, rfl, hr⟩ := ih hbody heq
      exact ⟨rfl, rfl, hr⟩
    | surrogates hcode' _ hhigh =>
      simp only [List.cons_append, List.append_assoc] at heq
      obtain ⟨-, rfl, -⟩ := codeUnit_unique hcode hcode' (List.cons.inj (List.cons.inj heq).2).2
      omega
  | surrogates hhigh hlow hhighRange _ _ ih =>
    simp only [List.cons_append, List.append_assoc] at heq
    cases h' with
    | nil => exact absurd (List.cons.inj heq).1.symm hquote
    | plain _ _ hbackslash _ => exact absurd (List.cons.inj heq).1.symm hbackslash
    | escape hescape' _ =>
      exact absurd (List.cons.inj (List.cons.inj heq).2).1.symm (ne_of_simpleEscape hescape')
    | unicode hcode' hrange' _ =>
      simp only [List.cons_append, List.append_assoc] at heq
      obtain ⟨-, rfl, -⟩ := codeUnit_unique hhigh hcode' (List.cons.inj (List.cons.inj heq).2).2
      omega
    | surrogates hhigh' hlow' _ _ hbody =>
      simp only [List.cons_append, List.append_assoc] at heq
      obtain ⟨rfl, rfl, heq⟩ := codeUnit_unique hhigh hhigh' (List.cons.inj (List.cons.inj heq).2).2
      obtain ⟨rfl, rfl, heq⟩ := codeUnit_unique hlow hlow' (List.cons.inj (List.cons.inj heq).2).2
      obtain ⟨rfl, rfl, hr⟩ := ih hbody heq
      exact ⟨rfl, rfl, hr⟩

theorem quote_unique {body body' bytes bytes' : List UInt8} (h : StringBody body bytes)
    (h' : StringBody body' bytes') (heq : quote body ++ r = quote body' ++ r') :
    body = body' ∧ bytes = bytes' ∧ r = r' := by
  simp only [quote, List.cons_append, List.append_assoc, List.nil_append] at heq
  exact h.unique h' (List.cons.inj heq).2

/-! ## 3. Values -/

/-- The first byte of a value's text. -/
def Value.Starts : Value → UInt8 → Prop
  | .null, ch => ch = 'n'.toUInt8
  | .bool true, ch => ch = 't'.toUInt8
  | .bool false, ch => ch = 'f'.toUInt8
  | .number _, ch => isDigit ch = true ∨ ch = '-'.toUInt8
  | .string _, ch => ch = '"'.toUInt8
  | .array _, ch => ch = '['.toUInt8
  | .object _, ch => ch = '\x7b'.toUInt8

theorem Value.Text.starts {v : Value} (h : v.Text s) : ∃ ch rest, s = ch :: rest ∧ v.Starts ch := by
  cases h with
  | null | true | false | string | array | object => exact ⟨_, _, rfl, rfl⟩
  | number hnumber =>
    cases s with
    | nil =>
      obtain ⟨sign, int, fraction, exponent, hs, -, ⟨⟨hnonempty, -⟩, -⟩, -, -⟩ := hnumber.parts
      have hempty := List.append_eq_nil_iff.mp (List.append_eq_nil_iff.mp hs.symm).1
      exact absurd (List.append_eq_nil_iff.mp hempty.1).2 hnonempty
    | cons ch rest => exact ⟨ch, rest, rfl, hnumber.head.imp id And.left⟩

/-- No value starts with white space, a comma or a closing bracket. -/
theorem Value.Starts.visible {v : Value} {ch : UInt8} (h : v.Starts ch) : isBlank ch = false ∧
    ch ≠ ']'.toUInt8 := by
  have hdigit := forall_byte (P := fun ch => isDigit ch = true → isBlank ch = false ∧
    ch ≠ ']'.toUInt8) (by decide +kernel) ch
  match v, h with
  | .number _, .inl h => exact hdigit h
  | .number _, .inr h => rw [h]; decide
  | .null, h | .bool true, h | .bool false, h | .string _, h | .array _, h | .object _, h =>
    rw [show ch = _ from h]
    decide

/-- What follows a value: nothing that a number could go on with. -/
def Stops (r : List UInt8) : Prop := ∀ ch ∈ r.head?, isNumberByte ch = false

/-- Whatever follows, another text that starts in the same place writes the same value. -/
def Value.Only (v : Value) (s : List UInt8) : Prop :=
  ∀ (v' : Value) (s' r r' : List UInt8), v'.Text s' → Stops r → Stops r' → s ++ r = s' ++ r' →
    v = v' ∧ s = s' ∧ r = r'

/-- Behind an element or a member stands a comma or the closing bracket. -/
def Closes (close ch : UInt8) : Prop := ch = ','.toUInt8 ∨ ch = close

theorem stops_blank {blank : Blank} {ch : UInt8} (h : isNumberByte ch = false) :
    Stops (blank.text ++ ch :: r) := by
  intro c hc
  cases hblank : blank.text with
  | nil =>
    rw [hblank] at hc
    cases hc
    exact h
  | cons b text =>
    have hb := List.all_eq_true.mp blank.blank b (hblank ▸ List.mem_cons_self)
    rw [hblank] at hc
    cases hc
    exact forall_byte (P := fun ch => isBlank ch = true → isNumberByte ch = false)
      (by decide +kernel) _ hb

/-- Parts with commas between them, up to a closing bracket, are taken apart in one way. -/
theorem commaSep_unique {ι : Type} {render : ι → List UInt8} {R : ι → ι → Prop} {close : UInt8}
    (hclose : close ≠ ','.toUInt8) {l l' : List ι} (hne : l ≠ []) (hne' : l' ≠ [])
    (h : ∀ i ∈ l, ∀ i' ∈ l', ∀ c c' t t', Closes close c → Closes close c' →
      render i ++ c :: t = render i' ++ c' :: t' → R i i' ∧ render i = render i')
    (heq : commaSep (l.map render) ++ close :: r = commaSep (l'.map render) ++ close :: r') :
    List.Forall₂ R l l' ∧ commaSep (l.map render) = commaSep (l'.map render) := by
  induction l generalizing l' with
  | nil => exact absurd rfl hne
  | cons i l ih =>
    cases l' with
    | nil => exact absurd rfl hne'
    | cons i' l' =>
      have hfirst := h i List.mem_cons_self i' List.mem_cons_self
      cases l with
      | nil =>
        cases l' with
        | nil =>
          obtain ⟨hR, hrender⟩ := hfirst _ _ r r' (.inr rfl) (.inr rfl) heq
          exact ⟨.cons hR .nil, hrender⟩
        | cons j' l' =>
          simp only [List.map_cons, commaSep, List.append_assoc, List.cons_append] at heq
          obtain ⟨-, hrender⟩ := hfirst _ _ _ _ (.inr rfl) (.inl rfl) heq
          rw [hrender] at heq
          exact absurd (List.cons.inj (List.append_cancel_left heq)).1 hclose
      | cons j l =>
        cases l' with
        | nil =>
          simp only [List.map_cons, commaSep, List.append_assoc, List.cons_append] at heq
          obtain ⟨-, hrender⟩ := hfirst _ _ _ _ (.inl rfl) (.inr rfl) heq
          rw [hrender] at heq
          exact absurd (List.cons.inj (List.append_cancel_left heq)).1.symm hclose
        | cons j' l' =>
          simp only [List.map_cons, commaSep, List.append_assoc, List.cons_append] at heq
          obtain ⟨hR, hrender⟩ := hfirst _ _ _ _ (.inl rfl) (.inl rfl) heq
          rw [hrender] at heq
          have hrest := (List.cons.inj (List.append_cancel_left heq)).2
          obtain ⟨hall, hsep⟩ := ih (List.cons_ne_nil _ _) (List.cons_ne_nil _ _)
            (fun a ha b hb => h a (List.mem_cons_of_mem _ ha) b (List.mem_cons_of_mem _ hb)) hrest
          refine ⟨.cons hR hall, ?_⟩
          simp only [List.map_cons, commaSep, hrender]
          exact congrArg (render i' ++ ','.toUInt8 :: ·) hsep

/-! ## 4. Arrays and objects -/

section Layout
variable {close c c' : UInt8}

/-- The bytes behind an element or a member end it. -/
structure IsClose (close : UInt8) : Prop where
  visible : ∀ ch, Closes close ch → isBlank ch = false
  stops : ∀ ch, Closes close ch → isNumberByte ch = false

theorem isClose_bracket : IsClose ']'.toUInt8 :=
  ⟨by rintro ch (rfl | rfl) <;> decide, by rintro ch (rfl | rfl) <;> decide⟩

theorem isClose_brace : IsClose '\x7d'.toUInt8 :=
  ⟨by rintro ch (rfl | rfl) <;> decide, by rintro ch (rfl | rfl) <;> decide⟩

theorem head_visible {ch : UInt8} (h : isBlank ch = false) :
    ∀ c ∈ (ch :: r).head?, isBlank c = false := by
  rintro c ⟨⟩
  exact h

/-- A value with blanks around it, up to the byte that closes it. -/
theorem padded_unique (hclose : IsClose close) {before before' after after' : Blank}
    {v v' : Value} (hv : v.Text s) (honly : v.Only s) (hv' : v'.Text s')
    (hc : Closes close c) (hc' : Closes close c')
    (heq : before.text ++ s ++ after.text ++ c :: t = before'.text ++ s' ++ after'.text ++ c' :: t') :
    v = v' ∧ before.text ++ s ++ after.text = before'.text ++ s' ++ after'.text := by
  obtain ⟨ch, rest, hs, hstarts⟩ := hv.starts
  obtain ⟨ch', rest', hs', hstarts'⟩ := hv'.starts
  simp only [List.append_assoc] at heq ⊢
  -- the blanks in front, the text, and the blanks behind it
  obtain ⟨hbefore, heq⟩ := Blank.unique
    (by rw [hs]; exact head_visible hstarts.visible.1)
    (by rw [hs']; exact head_visible hstarts'.visible.1) heq
  obtain ⟨hvalue, htext, heq⟩ := honly v' s' _ _ hv' (stops_blank (hclose.stops c hc))
    (stops_blank (hclose.stops c' hc')) heq
  obtain ⟨hafter, -⟩ := Blank.unique (head_visible (hclose.visible c hc))
    (head_visible (hclose.visible c' hc')) heq
  exact ⟨hvalue, by rw [hbefore, htext, hafter]⟩

theorem Item.unique {item item' : Item} (htext : item.value.Text item.text)
    (honly : item.value.Only item.text) (htext' : item'.value.Text item'.text)
    (hc : Closes ']'.toUInt8 c) (hc' : Closes ']'.toUInt8 c')
    (heq : item.render ++ c :: t = item'.render ++ c' :: t') :
    item.value = item'.value ∧ item.render = item'.render :=
  padded_unique isClose_bracket htext honly htext' hc hc' heq

theorem Member.unique {m m' : Member} (htext : m.value.Text m.text) (honly : m.value.Only m.text)
    (htext' : m'.value.Text m'.text) (hc : Closes '\x7d'.toUInt8 c) (hc' : Closes '\x7d'.toUInt8 c')
    (heq : m.render ++ c :: t = m'.render ++ c' :: t') :
    (m.key, m.value) = (m'.key, m'.value) ∧ m.render = m'.render := by
  have hsplit (m : Member) : m.render = m.beforeKey.text ++ (quote m.keyBody ++ (m.afterKey.text ++
      ':'.toUInt8 :: (m.beforeValue.text ++ m.text ++ m.afterValue.text))) := by
    simp [Member.render, Member.head]
  have hquote (body rest : List UInt8) : ∀ c ∈ (quote body ++ rest).head?, isBlank c = false :=
    head_visible (by decide)
  rw [hsplit, hsplit] at heq ⊢
  simp only [List.append_assoc, List.cons_append] at heq
  obtain ⟨hbefore, heq⟩ := Blank.unique (hquote _ _) (hquote _ _) heq
  obtain ⟨hbody, hkey, heq⟩ := quote_unique m.keyText m'.keyText heq
  obtain ⟨hafter, heq⟩ := Blank.unique (head_visible (by decide)) (head_visible (by decide)) heq
  have hvalue := (List.cons.inj heq).2
  simp only [← List.append_assoc] at hvalue
  obtain ⟨hvalue, hpadded⟩ := padded_unique isClose_brace htext honly htext' hc hc' hvalue
  rw [hbefore, hbody, hkey, hafter, hvalue, hpadded]
  exact ⟨rfl, rfl⟩

/-- What stands behind the blanks of an empty list is no part of a list. -/
theorem blank_ne_parts {blank blank' : Blank} {ch ch' : UInt8} (hch : isBlank ch = false)
    (hch' : isBlank ch' = false) (hne : ch ≠ ch') (h : blank.text ++ ch :: r = blank'.text ++ ch' :: r') :
    False := by
  obtain ⟨-, heq⟩ := Blank.unique (head_visible hch) (head_visible hch') h
  exact hne (List.cons.inj heq).1

theorem map_eq_of_forall₂ {ι α : Type} {f : ι → α} {l l' : List ι}
    (h : List.Forall₂ (fun i i' => f i = f i') l l') : l.map f = l'.map f := by
  induction h with
  | nil => rfl
  | cons hi _ ih => rw [List.map_cons, List.map_cons, hi, ih]

/-- Where a list of parts begins. -/
theorem commaSep_head {s : List UInt8} {parts : List (List UInt8)} {blank : Blank} {ch : UInt8}
    {rest : List UInt8} (h : s = blank.text ++ ch :: rest) :
    ∃ x, commaSep (s :: parts) ++ r = blank.text ++ ch :: x := by
  refine ⟨rest ++ (parts.flatMap (','.toUInt8 :: ·) ++ r), ?_⟩
  rw [commaSep_cons, h]
  simp only [List.append_assoc, List.cons_append]

theorem Item.head {item : Item} (h : item.value.Text item.text) : ∃ ch rest,
    isBlank ch = false ∧ ch ≠ ']'.toUInt8 ∧ item.render = item.before.text ++ ch :: rest := by
  obtain ⟨ch, rest, htext, hstarts⟩ := h.starts
  refine ⟨ch, rest ++ item.after.text, hstarts.visible.1, hstarts.visible.2, ?_⟩
  rw [Item.render, htext, List.append_assoc, List.cons_append]

theorem Member.render_head (m : Member) :
    ∃ rest, m.render = m.beforeKey.text ++ '"'.toUInt8 :: rest := by
  refine ⟨m.keyBody ++ ['"'.toUInt8] ++ m.afterKey.text ++ ':'.toUInt8 ::
    (m.beforeValue.text ++ m.text ++ m.afterValue.text), ?_⟩
  simp [Member.render, Member.head, quote]

/-- Brackets around parts, which are taken apart in one way. -/
theorem brackets_unique {ι : Type} {render : ι → List UInt8} {R : ι → ι → Prop} {first : UInt8}
    (hclose : IsClose close) (hcomma : close ≠ ','.toUInt8) {blank blank' : Blank} {l l' : List ι}
    (hhead : ∀ i ∈ l ++ l', ∃ (b : Blank) (ch : UInt8) (rest : List UInt8),
      isBlank ch = false ∧ ch ≠ close ∧ render i = b.text ++ ch :: rest)
    (h : ∀ i ∈ l, ∀ i' ∈ l', ∀ c c' t t', Closes close c → Closes close c' →
      render i ++ c :: t = render i' ++ c' :: t' → R i i' ∧ render i = render i')
    (heq : first :: (if l = [] then blank.text else commaSep (l.map render)) ++ [close] ++ r =
      first :: (if l' = [] then blank'.text else commaSep (l'.map render)) ++ [close] ++ r') :
    List.Forall₂ R l l' ∧ (if l = [] then blank.text else commaSep (l.map render)) =
      if l' = [] then blank'.text else commaSep (l'.map render) := by
  simp only [List.cons_append, List.append_assoc, List.nil_append, List.cons.injEq, true_and] at heq
  have hvisible := hclose.visible close (.inr rfl)
  cases l with
  | nil =>
    cases l' with
    | nil => exact ⟨.nil, (Blank.unique (head_visible hvisible) (head_visible hvisible) heq).1⟩
    | cons i' l' =>
      obtain ⟨b, ch, rest, hch, hne, hrender⟩ := hhead i' (by simp)
      simp only [if_true, List.cons_ne_nil, if_false, List.map_cons] at heq
      obtain ⟨x, hx⟩ := @commaSep_head (close :: r') _ (l'.map render) _ _ _ hrender
      rw [hx] at heq
      exact (blank_ne_parts hvisible hch hne.symm heq).elim
  | cons i l =>
    cases l' with
    | nil =>
      obtain ⟨b, ch, rest, hch, hne, hrender⟩ := hhead i (by simp)
      simp only [if_true, List.cons_ne_nil, if_false, List.map_cons] at heq
      obtain ⟨x, hx⟩ := @commaSep_head (close :: r) _ (l.map render) _ _ _ hrender
      rw [hx] at heq
      exact (blank_ne_parts hch hvisible hne heq).elim
    | cons i' l' =>
      simp only [List.cons_ne_nil, if_false] at heq ⊢
      exact commaSep_unique hcomma (List.cons_ne_nil _ _) (List.cons_ne_nil _ _) h heq

end Layout

/-! ## 5. One value -/

/-- What the first byte of a text tells. -/
inductive Kind where
  | null
  | true
  | false
  | number
  | string
  | array
  | object

def Value.kind : Value → Kind
  | .null => .null
  | .bool Bool.true => .true
  | .bool Bool.false => .false
  | .number _ => .number
  | .string _ => .string
  | .array _ => .array
  | .object _ => .object

def kindOf (ch : UInt8) : Kind :=
  if isDigit ch = true ∨ ch = '-'.toUInt8 then .number
  else if ch = 'n'.toUInt8 then .null
  else if ch = 't'.toUInt8 then .true
  else if ch = 'f'.toUInt8 then .false
  else if ch = '"'.toUInt8 then .string
  else if ch = '['.toUInt8 then .array
  else .object

theorem Value.Starts.kind {v : Value} {ch : UInt8} (h : v.Starts ch) : v.kind = kindOf ch := by
  match v, h with
  | .number _, h => exact (if_pos h).symm
  | .null, h | .bool true, h | .bool false, h | .string _, h | .array _, h | .object _, h =>
    rw [show ch = _ from h]
    rfl

theorem Value.Text.kind_eq {v v' : Value} (h : v.Text s) (h' : v'.Text s')
    (heq : s ++ r = s' ++ r') : v.kind = v'.kind := by
  obtain ⟨ch, rest, rfl, hstarts⟩ := h.starts
  obtain ⟨ch', rest', rfl, hstarts'⟩ := h'.starts
  obtain ⟨rfl, -⟩ := List.cons.inj heq
  rw [hstarts.kind, hstarts'.kind]

theorem Value.Text.only {v : Value} (h : v.Text s) : v.Only s := by
  induction h with
  | null | true | false =>
    intro v' s' r r' h' _ _ heq
    have hkind := Value.Text.kind_eq (by constructor) h' heq
    cases h' <;> first
      | exact ⟨rfl, rfl, List.append_cancel_left heq⟩
      | cases hkind
  | number hnumber =>
    intro v' s' r r' h' hr hr' heq
    have hkind := Value.Text.kind_eq (.number hnumber) h' heq
    cases h' with
    | number hnumber' =>
      obtain ⟨rfl, hrest⟩ := append_unique hnumber.isNumberByte hnumber'.isNumberByte hr hr' heq
      exact ⟨rfl, rfl, hrest⟩
    | _ => cases hkind
  | string hbody =>
    intro v' s' r r' h' _ _ heq
    have hkind := Value.Text.kind_eq (.string hbody) h' heq
    cases h' with
    | string hbody' =>
      obtain ⟨rfl, rfl, hrest⟩ := quote_unique hbody hbody' heq
      exact ⟨rfl, rfl, hrest⟩
    | _ => cases hkind
  | array blank items hitems ih =>
    intro v' s' r r' h' _ _ heq
    have hkind := Value.Text.kind_eq (.array blank items hitems) h' heq
    cases h' with
    | array blank' items' hitems' =>
      have hhead : ∀ item ∈ items ++ items', ∃ (b : Blank) (ch : UInt8) (rest : List UInt8),
          isBlank ch = Bool.false ∧ ch ≠ ']'.toUInt8 ∧ item.render = b.text ++ ch :: rest := by
        intro item hitem
        have htext : item.value.Text item.text :=
          (List.mem_append.mp hitem).elim (hitems item) (hitems' item)
        obtain ⟨ch, rest, hch, hne, hrender⟩ := item.head htext
        exact ⟨item.before, ch, rest, hch, hne, hrender⟩
      obtain ⟨hvalues, hinner⟩ := brackets_unique isClose_bracket (by decide) hhead
        (fun i hi i' hi' c c' t t' hc hc' => Item.unique (hitems i hi) (ih i hi) (hitems' i' hi') hc hc')
        heq
      have htext : arrayText blank items = arrayText blank' items' := by
        rw [arrayText, arrayText, hinner]
      rw [htext] at heq
      exact ⟨congrArg Value.array (map_eq_of_forall₂ hvalues), htext, List.append_cancel_left heq⟩
    | _ => cases hkind
  | object blank members hmembers ih =>
    intro v' s' r r' h' _ _ heq
    have hkind := Value.Text.kind_eq (.object blank members hmembers) h' heq
    cases h' with
    | object blank' members' hmembers' =>
      have hhead : ∀ m ∈ members ++ members', ∃ (b : Blank) (ch : UInt8) (rest : List UInt8),
          isBlank ch = Bool.false ∧ ch ≠ '\x7d'.toUInt8 ∧ m.render = b.text ++ ch :: rest := by
        intro m _
        obtain ⟨rest, hrender⟩ := m.render_head
        exact ⟨m.beforeKey, '"'.toUInt8, rest, by decide, by decide, hrender⟩
      obtain ⟨hvalues, hinner⟩ := brackets_unique isClose_brace (by decide) hhead
        (fun m hm m' hm' c c' t t' hc hc' => Member.unique (hmembers m hm) (ih m hm) (hmembers' m' hm')
          hc hc') heq
      have htext : objectText blank members = objectText blank' members' := by
        rw [objectText, objectText, hinner]
      rw [htext] at heq
      exact ⟨congrArg Value.object (map_eq_of_forall₂ hvalues), htext, List.append_cancel_left heq⟩
    | _ => cases hkind

/-- A text writes one value only. -/
theorem Value.Text.unique {v v' : Value} (h : v.Text s) (h' : v'.Text s) : v = v' :=
  (h.only v' s [] [] h' (by simp [Stops]) (by simp [Stops]) rfl).1

end Json
