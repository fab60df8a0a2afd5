import CollectorService.CollectionResponseParser

/-!
# Truncated responses

The searches of the response parser stop at the first thing that they find, and the scan for the
matching brace does not look behind it. So a response that is cut off gives some of the records of
the whole response, with the same values.
-/

namespace CollectorService.CollectionResponseParser

variable {device : Device} {point : DataPoint} {fallbackTime : Double} {text path object : Str}

theorem scanObject_append_right {depth : ℤ} {inString escaped : Bool}
    (h : scanObject depth inString escaped text = some object) (rest : Str) :
    scanObject depth inString escaped (text ++ rest) = some object := by
  induction text generalizing object depth inString escaped with
  | nil => cases h
  | cons ch text ih =>
    have hmap : ∀ {depth inString escaped},
        (scanObject depth inString escaped text).map (ch :: ·) = some object →
        (scanObject depth inString escaped (text ++ rest)).map (ch :: ·) = some object := by
      intro depth inString escaped hscan
      obtain ⟨object', hobject', rfl⟩ := Option.map_eq_some_iff.mp hscan
      rw [ih hobject']
      rfl
    rw [List.cons_append]
    unfold scanObject at h ⊢
    split_ifs at h ⊢
    all_goals first
      | exact hmap h
      | exact h

/-- The object of a path that has been found is not lost when the text goes on. -/
theorem extractObjectForPath_append_right (h : extractObjectForPath text path ≠ []) (rest : Str) :
    extractObjectForPath (text ++ rest) path = extractObjectForPath text path := by
  unfold extractObjectForPath at h ⊢
  cases hslice : objectSlice text path with
  | none =>
    rw [hslice] at h
    exact absurd rfl h
  | some slice =>
    obtain ⟨found, hfound, hscan⟩ := Option.bind_eq_some_iff.mp hslice
    obtain ⟨object, hobject, rfl⟩ := Option.map_eq_some_iff.mp hscan
    obtain ⟨behind, hbehind, hbrace⟩ := Option.bind_eq_some_iff.mp hfound
    have hfound' : fromObject (text ++ rest) path = some (found ++ rest) := by
      rw [fromObject, Search.afterFirst_append_right hbehind, Option.bind_some,
        Search.fromFirst_append_right hbrace]
    rw [objectSlice, hfound', Option.bind_some, scanObject_append_right hobject]
    rfl

theorem recordFor_append_right {record : ResourceRecord}
    (h : recordFor device text fallbackTime point = some record) (rest : Str) :
    recordFor device (text ++ rest) fallbackTime point = some record := by
  have hfound : extractObjectForPath text point.namePath ≠ [] := fun hempty => by
    rw [recordFor, if_pos hempty] at h
    cases h
  unfold recordFor at h ⊢
  rwa [extractObjectForPath_append_right hfound]

theorem filterMap_sublist {α β : Type} {f g : α → Option β} (h : ∀ a b, f a = some b → g a = some b)
    (l : List α) : (l.filterMap f).Sublist (l.filterMap g) := by
  induction l with
  | nil => exact .refl _
  | cons a l ih =>
    cases hf : f a with
    | none =>
      rw [List.filterMap_cons_none hf]
      exact ih.trans ((List.sublist_cons_self a l).filterMap g)
    | some b =>
      rw [List.filterMap_cons_some hf, List.filterMap_cons_some (h a b hf)]
      exact ih.cons_cons b

/-- The records that a response gives; none when `processResponse` throws. -/
def recordsOf (device : Device) (points : List DataPoint) (text : Str) (fallbackTime : Double) :
    List ResourceRecord :=
  match processResponse device points text fallbackTime with
  | .ok records => records
  | .error _ => []

theorem recordsOf_eq (points : List DataPoint) : recordsOf device points text fallbackTime =
    points.filterMap (recordFor device text fallbackTime) := by
  unfold recordsOf processResponse
  dsimp only
  split
  · next hok =>
    split at hok
    · cases hok
    · cases hok
      rfl
  · next herror =>
    split at herror
    · next hempty => exact hempty.symm
    · cases herror

/-- A response that is cut off at any place gives a sublist of the records of the whole response. -/
theorem recordsOf_sublist (device : Device) (points : List DataPoint) (text rest : Str)
    (fallbackTime : Double) : (recordsOf device points text fallbackTime).Sublist
      (recordsOf device points (text ++ rest) fallbackTime) := by
  rw [recordsOf_eq, recordsOf_eq]
  exact filterMap_sublist (fun point record h => recordFor_append_right h rest) points

end CollectorService.CollectionResponseParser
