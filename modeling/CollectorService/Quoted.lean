import CollectorService.Search

/-!
# Words in quoted texts

A text of quoted values with gaps between them. Inside the quotes an escape mark stands before every
quote and every escape mark of the value. The results say where a search for a quoted word ends in
such a text: it passes over every gap, and it stops at a value exactly when the value is the word or
ends with a quote and the word.

* `body`: a value between its quotes.
* `Skips`: a search for the quoted word passes over the text; closed under `append`.
* `afterFirst_of_skips`: the search stops behind the first value that it does not skip.
-/

namespace Quoted

variable {α : Type} [DecidableEq α] {q e a : α} {word value rest : List α}

/-! ## 1. Bodies -/

/-- What stands between the quotes of a value. -/
def body (q e : α) (value : List α) : List α :=
  value.flatMap fun a => if a = q ∨ a = e then [e, a] else [a]

theorem body_cons_plain (hq : a ≠ q) (he : a ≠ e) (value : List α) :
    body q e (a :: value) = a :: body q e value := by
  simp [body, hq, he]

theorem body_cons_marked (h : a = q ∨ a = e) (value : List α) :
    body q e (a :: value) = e :: a :: body q e value := by
  simp [body, h]

/-- A value without quotes and escape marks is its own body. -/
theorem body_of_plain : ∀ {value : List α}, q ∉ value → e ∉ value → body q e value = value
  | [], _, _ => rfl
  | a :: value, hq, he => by
    have haq : a ≠ q := fun h => hq (by simp [h])
    have hae : a ≠ e := fun h => he (by simp [h])
    rw [body_cons_plain haq hae,
      body_of_plain (fun h => hq (List.mem_cons_of_mem a h)) fun h => he (List.mem_cons_of_mem a h)]

/-- A word that is read from the start of a body up to a quote is the whole value. -/
theorem prefix_body_iff (hqe : q ≠ e) (hq : q ∉ word) (he : e ∉ word) :
    word ++ [q] <+: body q e value ++ q :: rest ↔ value = word := by
  induction value generalizing word with
  | nil =>
    cases word with
    | nil => simp [body]
    | cons b word =>
      have hb : b ≠ q := fun h => hq (h ▸ List.mem_cons_self)
      simp [body, hb]
  | cons a value ih =>
    cases hmark : decide (a = q ∨ a = e) with
    | true =>
      have hmark := of_decide_eq_true hmark
      rw [body_cons_marked hmark]
      -- the body starts with an escape mark, and the word does not
      cases word with
      | nil => simp [hqe]
      | cons b word =>
        have hbq : b ≠ q := fun h => hq (h ▸ List.mem_cons_self)
        have hbe : b ≠ e := fun h => he (h ▸ List.mem_cons_self)
        rcases hmark with rfl | rfl
        · simp [hbe, Ne.symm hbq]
        · simp [hbe, Ne.symm hbe]
    | false =>
      have hmark := of_decide_eq_false hmark
      push Not at hmark
      rw [body_cons_plain hmark.1 hmark.2]
      cases word with
      | nil => simp [Ne.symm hmark.1]
      | cons b word =>
        rw [List.cons_append, List.cons_append, List.cons_prefix_cons,
          ih (fun h => hq (List.mem_cons_of_mem b h)) fun h => he (List.mem_cons_of_mem b h),
          List.cons.injEq, eq_comm]

omit [DecidableEq α] in
/-- A value ends with a quote and a word, or is one. -/
theorem quote_suffix_cons (value : List α) :
    q :: word <:+ a :: value ↔ (a = q ∧ value = word) ∨ q :: word <:+ value := by
  rw [List.suffix_cons_iff, List.cons.injEq, eq_comm (a := q), eq_comm (a := word)]

/-! ## 2. Searches -/

/-- A search for a quoted word inside a value finds the word at the value's end only. -/
theorem afterFirst_body (hqe : q ≠ e) (hq : q ∉ word) (he : e ∉ word) :
    Search.afterFirst (q :: (word ++ [q])) (body q e value ++ q :: rest) =
      if q :: word <:+ value then some rest
      else Search.afterFirst (q :: (word ++ [q])) (q :: rest) := by
  induction value with
  | nil => simp [body]
  | cons a value ih =>
    have hstop : (word ++ [q] <+: body q e value ++ q :: rest) ↔ value = word :=
      prefix_body_iff hqe hq he
    cases hmark : decide (a = q ∨ a = e) with
    | true =>
      rw [body_cons_marked (of_decide_eq_true hmark), List.cons_append, List.cons_append,
        Search.afterFirst_cons, if_neg fun h => hqe h.1.symm, Search.afterFirst_cons, ih]
      simp only [hstop, quote_suffix_cons]
      split
      · next h =>
        rw [if_pos (Or.inl h), h.2, body_of_plain hq he]
        simp
      · next h => simp only [h, false_or]
    | false =>
      have hmark := of_decide_eq_false hmark
      push Not at hmark
      rw [body_cons_plain hmark.1 hmark.2, List.cons_append, Search.afterFirst_cons,
        if_neg fun h => hmark.1 h.1, ih]
      simp only [quote_suffix_cons, hmark.1, false_and, false_or]

/-- A search for the quoted word passes over the text, unless what follows completes a word that
starts at its end. -/
def Skips (q : α) (word text : List α) : Prop := ∀ rest, ¬ word ++ [q] <+: rest →
  Search.afterFirst (q :: (word ++ [q])) (text ++ rest) =
      Search.afterFirst (q :: (word ++ [q])) rest ∧ ¬ word ++ [q] <+: text ++ rest

namespace Skips

theorem nil : Skips q word [] := fun _ hrest => ⟨rfl, hrest⟩

theorem append {text text' : List α} (h : Skips q word text) (h' : Skips q word text') :
    Skips q word (text ++ text') := by
  intro rest hrest
  obtain ⟨hsearch', hrest'⟩ := h' rest hrest
  obtain ⟨hsearch, hwhole⟩ := h _ hrest'
  rw [List.append_assoc]
  exact ⟨hsearch.trans hsearch', hwhole⟩

theorem flatMap {β : Type} {f : β → List α} : ∀ {l : List β}, (∀ b ∈ l, Skips q word (f b)) →
    Skips q word (l.flatMap f)
  | [], _ => nil
  | b :: l, h => by
    rw [List.flatMap_cons]
    exact (h b List.mem_cons_self).append (flatMap fun c hc => h c (List.mem_cons_of_mem b hc))

/-- A gap is passed over that does not start like the word. -/
theorem gap {text : List α} (hquote : q ∉ text)
    (hhead : ∀ a ∈ text.head?, word.head? ≠ some a) (hword : word ≠ []) : Skips q word text := by
  intro rest hrest
  refine ⟨Search.afterFirst_append hquote, ?_⟩
  cases text with
  | nil => exact hrest
  | cons a text =>
    cases word with
    | nil => exact absurd rfl hword
    | cons b word =>
      rw [List.cons_append, List.cons_append, List.cons_prefix_cons]
      exact fun h => hhead a rfl (congrArg some h.1)

omit [DecidableEq α] in
theorem not_prefix_quote (hq : q ∉ word) (hword : word ≠ []) (rest : List α) :
    ¬ word ++ [q] <+: q :: rest := by
  cases word with
  | nil => exact absurd rfl hword
  | cons b word =>
    rw [List.cons_append, List.cons_prefix_cons]
    exact fun h => hq (h.1 ▸ List.mem_cons_self)

/-- A quoted value is passed over that is not the word and does not end with a quote and the word. -/
theorem quoted (hqe : q ≠ e) (hq : q ∉ word) (he : e ∉ word) (hword : word ≠ [])
    (hvalue : ¬ q :: word <:+ q :: value) : Skips q word (q :: (body q e value ++ [q])) := by
  intro rest hrest
  rw [quote_suffix_cons] at hvalue
  push Not at hvalue
  have hopen := not_prefix_quote hq hword (body q e value ++ q :: rest)
  have hwhole : q :: (body q e value ++ [q]) ++ rest = q :: (body q e value ++ q :: rest) := by simp
  rw [hwhole]
  refine ⟨?_, hopen⟩
  rw [Search.afterFirst_cons, if_neg fun h => hvalue.1 rfl ((prefix_body_iff hqe hq he).mp h.2),
    afterFirst_body hqe hq he, if_neg hvalue.2, Search.afterFirst_cons, if_neg fun h => hrest h.2]

end Skips

/-- The search stops behind the first value that it does not pass over. -/
theorem afterFirst_of_skips (hqe : q ≠ e) (hq : q ∉ word) (he : e ∉ word) (hword : word ≠ [])
    {text : List α} (htext : Skips q word text) (value rest : List α)
    (hvalue : q :: word <:+ q :: value) :
    Search.afterFirst (q :: (word ++ [q])) (text ++ q :: (body q e value ++ q :: rest)) =
      some rest := by
  have hopen := Skips.not_prefix_quote hq hword (body q e value ++ q :: rest)
  rw [quote_suffix_cons] at hvalue
  rw [(htext _ hopen).1, Search.afterFirst_cons, afterFirst_body hqe hq he]
  simp only [prefix_body_iff hqe hq he]
  split
  · next h =>
    rw [h.2, body_of_plain hq he]
    simp
  · next h => rw [if_pos (hvalue.resolve_left fun hv => h ⟨trivial, hv.2⟩)]

/-- Without a value that it stops at the search finds nothing. -/
theorem afterFirst_of_skips_all {text : List α} (htext : Skips q word text) :
    Search.afterFirst (q :: (word ++ [q])) text = none := by
  have hend : ¬ word ++ [q] <+: [] := by simp
  have hsearch := (htext [] hend).1
  rw [List.append_nil] at hsearch
  rw [hsearch]
  rfl

end Quoted
