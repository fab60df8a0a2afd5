import CollectorService.Provenance

/-!
# Matching a brace

`extractObjectForPath` counts braces in one pass and skips strings with two flags. Over the text of a
JSON value the flags and the depth come back to what they were (`passes_text`), so the brace that
takes the depth to zero is the one that closes the object.

* `extractObjectForPath_text`: the object is taken whole, whatever it holds and whatever follows.
-/

namespace CollectorService

namespace CollectionResponseParser

open Json (Blank Member Value objectText)

section Objects
variable {path before gap object rest : Str} {members : List (Str × Value)}

/-- The scan from the first byte of an object's text ends with its last one. -/
theorem scanObject_object (h : (Value.object members).Text object) (rest : Str) :
    scanObject 0 false false (object ++ rest) = some object := by
  generalize hobject : Value.object members = v at h
  cases h with
  | object blank members hmembers => exact scanObject_text blank hmembers rest
  | _ => cases hobject

theorem head?_object (h : (Value.object members).Text object) :
    object.head? = some (byte '\x7b') := by
  generalize hobject : Value.object members = v at h
  cases h with
  | object => rfl
  | _ => cases hobject

/-- Where the first brace behind the first occurrence of the quoted path opens the text of a JSON
object, in any layout and with any members, `extractObjectForPath` returns exactly this text. -/
theorem extractObjectForPath_text (hobject : (Value.object members).Text object)
    (hfirst : ∀ v w, before ++ quoted path ++ gap ++ object ++ rest = v ++ quoted path ++ w →
      before.length ≤ v.length)
    (hgap : byte '\x7b' ∉ gap) :
    extractObjectForPath (before ++ quoted path ++ gap ++ object ++ rest) path = object := by
  let slice : Slice := ⟨before ++ quoted path ++ gap, object, rest⟩
  have hhead : (object ++ rest).head? = some (byte '\x7b') := by
    rw [List.head?_append, head?_object hobject, Option.some_or]
  have hfrom : fromObject slice.whole path = some (object ++ rest) :=
    (fromObject_eq_some_iff (List.append_assoc _ _ _).symm hhead).mpr ⟨before, gap, rfl, hgap, hfirst⟩
  have hslice : objectSlice slice.whole path = some slice :=
    objectSlice_of_fromObject rfl hfrom (scanObject_object hobject rest)
  show ((objectSlice slice.whole path).map (·.text)).getD [] = object
  rw [hslice]
  rfl

end Objects

/-! ## A text with braces and quotes in its strings -/

/-- `"a\"}":["\\\\{",{ }]` -/
def bracesMember : Member where
  key := lit "a\"\x7d"
  keyBody := lit "a\\\"\x7d"
  keyText := .plain (by decide) (by decide) (by decide)
    (.escape rfl (.plain (by decide) (by decide) (by decide) .nil))
  value := .array [.string (lit "\\\x7b"), .object []]
  text := Json.arrayText {} [{ value := .string (lit "\\\x7b"), text := lit "\"\\\\\x7b\"" },
    { value := .object [], text := lit "\x7b \x7d" }]

theorem bracesMember_text : bracesMember.value.Text bracesMember.text := by
  refine .array {} [{ value := .string (lit "\\\x7b"), text := lit "\"\\\\\x7b\"" },
    { value := .object [], text := lit "\x7b \x7d" }] fun item hitem => ?_
  simp only [List.mem_cons, List.not_mem_nil, or_false] at hitem
  rcases hitem with rfl | rfl
  · exact .string (.escape rfl (.plain (by decide) (by decide) (by decide) .nil))
  · exact .object ⟨lit " ", rfl⟩ [] (by simp)

/-- In `{"/P":{"a\"}":["\\\\{",{ }]}}`, the object of `/P` ends before the last brace. -/
theorem extractObjectForPath_text_braces :
    extractObjectForPath (lit "\x7b" ++ quoted (lit "/P") ++ lit ":" ++
      objectText {} [bracesMember] ++ lit "\x7d") (lit "/P") = objectText {} [bracesMember] := by
  have hobject : (Value.object [(bracesMember.key, bracesMember.value)]).Text
      (objectText {} [bracesMember]) :=
    .object {} [bracesMember] fun m hm => by
      rw [List.mem_singleton.mp hm]
      exact bracesMember_text
  obtain ⟨u, hu, hfirst⟩ : Search.Behind (quoted (lit "/P")) (lit "\x7b" ++ quoted (lit "/P") ++
      lit ":" ++ objectText {} [bracesMember] ++ lit "\x7d")
      (lit ":" ++ objectText {} [bracesMember] ++ lit "\x7d") :=
    Search.afterFirst_eq_some_iff.mp (by decide)
  have hlength : u.length = (lit "\x7b").length := by
    have hsum := congrArg List.length hu
    simp only [List.length_append] at hsum
    omega
  exact extractObjectForPath_text hobject (fun v w h => hlength ▸ hfirst v w h) (by decide)

end CollectionResponseParser

end CollectorService
