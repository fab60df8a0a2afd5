import CollectorService.CollectionQueryBuilder
import CollectorService.Documents
import CollectorService.JsonReading

/-!
# The query as a document

What a JSON reader takes from the text that is sent to a driver: an object with the cid and the
paths of the data points, in their order.
-/

namespace CollectorService.CollectionQueryBuilder

open Json (Value commaSep)

/-- What a query says. -/
def queryValue (cid : Str) (points : List DataPoint) : Value :=
  .object [(lit "cid", .string cid),
    (lit "query", .array (points.map fun point => .string point.namePath))]

def queryPart (cid : Str) (points : List DataPoint) : Part := .object
  [("cid", .string cid), ("query", .array (points.map fun point => .string point.namePath))]

section Query
variable {cid : Str} {points : List DataPoint}

theorem queryPart_value : (queryPart cid points).value = queryValue cid points := by
  unfold queryPart queryValue Part.object Part.array
  rw [List.map_map]
  rfl

theorem queryPaths_eq : queryPaths points =
    commaSep (points.map fun point => Json.quote (escapeJson point.namePath)) := by
  induction points with
  | nil => rfl
  | cons point rest ih =>
    cases rest with
    | nil => rfl
    | cons point' rest =>
      rw [queryPaths, ih]
      · exact List.append_assoc ..
      · exact List.cons_ne_nil _ _

theorem buildQuery_eq (hne : points ≠ []) :
    buildQuery cid points = .ok (queryPart cid points).text := by
  have hpaths : (points.map fun point => Part.string point.namePath).map (·.text) =
      points.map fun point => Json.quote (escapeJson point.namePath) := List.map_map ..
  rw [buildQuery, if_neg hne, queryPaths_eq, ← hpaths]
  simp only [queryPart, Part.object, Part.array, Part.string, Part.memberText, List.map_cons,
    List.map_nil, commaSep, Json.quote, List.append_assoc, List.cons_append]
  rfl

theorem queryPart_written : (queryPart cid points).Written := by
  refine .object ?_ ?_ <;> simp only [List.forall_mem_cons, List.not_mem_nil, false_imp_iff,
    implies_true, and_true]
  · decide
  · exact ⟨.string _, .array (List.forall_mem_map.mpr fun _ _ => .string _)⟩

theorem text_mem_leaves {value : Str} : .text value ∈ (queryPart cid points).leaves ↔
    value = cid ∨ ∃ point ∈ points, value = point.namePath := by
  simp [queryPart, Part.object, Part.array, Part.string, eq_comm]

theorem time_notMem_leaves {x : Double} : .time x ∉ (queryPart cid points).leaves := by
  simp [queryPart, Part.object, Part.array, Part.string]

end Query

/-- When no string has other control bytes than line feeds, carriage returns and tabs, the query of
one point or more is a JSON text from which the cid and the paths are read, and nothing else. It is
UTF-8 exactly when all of them are. -/
theorem buildQuery_text (cid : Str) (points : List DataPoint) (hne : points ≠ [])
    (hcid : NoOtherControl cid) (hpaths : ∀ point ∈ points, NoOtherControl point.namePath) :
    ∃ text, buildQuery cid points = .ok text ∧
      (∀ v : Value, v.Text text ↔ v = queryValue cid points) ∧
      (IsUtf8 text ↔ IsUtf8 cid ∧ ∀ point ∈ points, IsUtf8 point.namePath) := by
  have hwritten := @queryPart_written cid points
  have htext : (queryValue cid points).Text (queryPart cid points).text := by
    rw [← queryPart_value]
    refine hwritten.text (fun value hvalue => ?_) fun x hx => absurd hx time_notMem_leaves
    rcases text_mem_leaves.mp hvalue with rfl | ⟨point, hpoint, rfl⟩
    · exact hcid
    · exact hpaths point hpoint
  refine ⟨_, buildQuery_eq hne, fun v => ⟨fun h => h.unique htext, fun h => h ▸ htext⟩, ?_⟩
  rw [hwritten.isUtf8_iff]
  constructor
  · intro h
    exact ⟨h cid (text_mem_leaves.mpr (.inl rfl)), fun point hpoint =>
      h point.namePath (text_mem_leaves.mpr (.inr ⟨point, hpoint, rfl⟩))⟩
  · rintro ⟨hutf8, hpoints⟩ value hvalue
    rcases text_mem_leaves.mp hvalue with rfl | ⟨point, hpoint, rfl⟩
    · exact hutf8
    · exact hpoints point hpoint

/-- Paths with a quote, a backslash, a comma and a line feed. -/
theorem buildQuery_text_escapes :
    let points : List DataPoint := [{ namePath := lit "/a\",\"b" }, { namePath := lit "/c\\\n" }]
    ∃ text, buildQuery (lit "A-1") points = .ok text ∧
      (∀ v : Value, v.Text text ↔ v = queryValue (lit "A-1") points) :=
  have ⟨text, hbuild, hvalue, _⟩ := buildQuery_text (lit "A-1")
    [{ namePath := lit "/a\",\"b" }, { namePath := lit "/c\\\n" }] (List.cons_ne_nil _ _)
    (by decide) (by decide)
  ⟨text, hbuild, hvalue⟩

end CollectorService.CollectionQueryBuilder
