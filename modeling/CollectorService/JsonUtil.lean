import CollectorService.Quoted
import CollectorService.Text

/-!
# JSON text helpers

`util::escapeJson` writes the five characters that it lists with a backslash and every other byte as
it is.
-/

namespace CollectorService

/-- One turn of the loop of `escapeJson`. -/
def escapeByte (ch : UInt8) : Str :=
  if ch = byte '\\' then [byte '\\', byte '\\']
  else if ch = byte '"' then [byte '\\', byte '"']
  else if ch = byte '\n' then [byte '\\', byte 'n']
  else if ch = byte '\r' then [byte '\\', byte 'r']
  else if ch = byte '\t' then [byte '\\', byte 't']
  else [ch]

def escapeJson (value : Str) : Str := value.flatMap escapeByte

/-- `boolText`. -/
def boolText (value : Bool) : Str := if value then lit "true" else lit "false"

/-! ## Texts without line breaks and tabs -/

/-- A value between its quotes, with a backslash before every quote and every backslash. -/
abbrev quotedBody (value : Str) : Str := Quoted.body (byte '"') (byte '\\') value

/-- A text that `escapeJson` writes with no other escapes than those of quotes and backslashes. -/
def NoControl (value : Str) : Prop :=
  byte '\n' ∉ value ∧ byte '\r' ∉ value ∧ byte '\t' ∉ value

instance (value : Str) : Decidable (NoControl value) :=
  inferInstanceAs (Decidable (byte '\n' ∉ value ∧ byte '\r' ∉ value ∧ byte '\t' ∉ value))

theorem escapeJson_eq_body {value : Str} (h : NoControl value) :
    escapeJson value = quotedBody value := by
  obtain ⟨hnewline, hreturn, htab⟩ := h
  refine List.flatMap_congr fun ch hch => ?_
  have hn : ch ≠ byte '\n' := fun h => hnewline (h ▸ hch)
  have hr : ch ≠ byte '\r' := fun h => hreturn (h ▸ hch)
  have ht : ch ≠ byte '\t' := fun h => htab (h ▸ hch)
  simp only [escapeByte, hn, hr, ht, if_false]
  grind

theorem quoted_eq (word : Str) : quoted word = byte '"' :: (word ++ [byte '"']) := rfl

/-- The scan for the closing quote reads the value back. -/
theorem scanString_body (value rest : Str) :
    scanString false (quotedBody value ++ byte '"' :: rest) = some value := by
  induction value with
  | nil => rfl
  | cons ch value ih =>
    cases hmark : decide (ch = byte '"' ∨ ch = byte '\\') with
    | true =>
      rw [quotedBody, Quoted.body_cons_marked (of_decide_eq_true hmark), List.cons_append,
        List.cons_append, scanString, if_pos rfl, scanString, ih]
      rfl
    | false =>
      have hmark := of_decide_eq_false hmark
      push Not at hmark
      rw [quotedBody, Quoted.body_cons_plain hmark.1 hmark.2, List.cons_append, scanString,
        if_neg hmark.2, if_neg hmark.1, ih]
      rfl

/-- A field is read from the first colon behind its name and the first quote behind the colon. -/
theorem extractStringField_of_afterFirst {text fieldName rest : Str} (gap gap' value : Str)
    (hgap : byte ':' ∉ gap) (hgap' : byte '"' ∉ gap')
    (h : Search.afterFirst (quoted fieldName) text =
      some (gap ++ byte ':' :: (gap' ++ byte '"' :: (quotedBody value ++ byte '"' :: rest)))) :
    extractStringField text fieldName = value := by
  have hquote : byte '"' ∉ byte ':' :: gap' := by
    simp only [List.mem_cons, not_or]
    exact ⟨by decide, hgap'⟩
  rw [extractStringField, h]
  simp only [Search.fromFirst_eq hgap]
  rw [← List.cons_append, Search.fromFirst_eq hquote]
  simp only [List.tail_cons, scanString_body, Option.getD_some]

end CollectorService
