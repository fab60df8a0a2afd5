import Mathlib.Data.List.Infix
import Mathlib.Tactic.Common

/-!
# First-occurrence search in a list

`afterFirst pat l` is what follows the first occurrence of `pat` in `l`, and `fromFirst p l` is `l`
from its first entry that satisfies `p` on. A search that goes on from where the last one ended is a
search in the rest that it returned.
-/

namespace Search

section Decide
variable {α : Type} {p : α → Prop} [DecidablePred p]

/-- What is said of the elements of a list is decided along the list, also for a finite type. -/
instance (priority := high) decidableForallMem (l : List α) : Decidable (∀ a ∈ l, p a) :=
  List.decidableBAll p l

instance (priority := high) decidableForallMemOption (o : Option α) : Decidable (∀ a ∈ o, p a) :=
  Option.decidableForallMem o

end Decide

variable {α : Type} [DecidableEq α] {pat l r : List α}

/-- What follows the first occurrence of `pat`. -/
def afterFirst (pat : List α) : List α → Option (List α)
  | [] => if pat = [] then some [] else none
  | a :: l =>
    if pat.isPrefixOf (a :: l) then some ((a :: l).drop pat.length) else afterFirst pat l

/-- The list from its first entry that satisfies `p` on. -/
def fromFirst (p : α → Bool) : List α → Option (List α)
  | [] => none
  | a :: l => if p a then some (a :: l) else fromFirst p l

/-- `afterFirst` cuts the list at an occurrence. -/
theorem afterFirst_eq_some : ∀ {l : List α}, afterFirst pat l = some r → ∃ u, l = u ++ pat ++ r
  | [], h => by
    unfold afterFirst at h
    split at h
    · next hpat =>
      cases h
      exact ⟨[], by simp [hpat]⟩
    · cases h
  | a :: l, h => by
    unfold afterFirst at h
    split at h
    · next hpre =>
      cases h
      obtain ⟨t, ht⟩ := List.isPrefixOf_iff_prefix.mp hpre
      exact ⟨[], by rw [← ht]; simp⟩
    · obtain ⟨u, hu⟩ := afterFirst_eq_some h
      exact ⟨a :: u, by rw [hu]; simp⟩

/-- No occurrence starts before the one that `afterFirst` cuts at. -/
theorem afterFirst_minimal : ∀ {l : List α} {v w : List α}, afterFirst pat l = some r →
    l = v ++ pat ++ w → w.length ≤ r.length
  | [], v, w, h, hl => by
    have hw : w = [] := by
      have := congrArg List.length hl
      simp only [List.length_nil, List.length_append] at this
      exact List.length_eq_zero_iff.mp (by omega)
    simp [hw]
  | a :: l, v, w, h, hl => by
    unfold afterFirst at h
    split at h
    · cases h
      have := congrArg List.length hl
      simp only [List.length_append] at this
      simp only [List.length_drop]
      omega
    · next hpre =>
      cases v with
      | nil =>
        exact absurd (List.isPrefixOf_iff_prefix.mpr ⟨w, by rw [hl]; simp⟩) hpre
      | cons b v =>
        simp only [List.cons_append, List.cons.injEq] at hl
        exact afterFirst_minimal h hl.2

/-- Without an occurrence there is nothing to cut at. -/
theorem afterFirst_eq_none_iff : ∀ {l : List α},
    afterFirst pat l = none ↔ ∀ v w, l ≠ v ++ pat ++ w
  | [] => by
    unfold afterFirst
    split
    · next hpat =>
      simp only [reduceCtorEq, false_iff, not_forall, not_not]
      exact ⟨[], [], by simp [hpat]⟩
    · next hpat =>
      simp only [true_iff]
      intro v w h
      exact hpat (List.append_eq_nil_iff.mp (List.append_eq_nil_iff.mp h.symm).1).2
  | a :: l => by
    unfold afterFirst
    split
    · next hpre =>
      obtain ⟨t, ht⟩ := List.isPrefixOf_iff_prefix.mp hpre
      simp only [reduceCtorEq, false_iff, not_forall, not_not]
      exact ⟨[], t, by rw [← ht]; simp⟩
    · next hpre =>
      rw [afterFirst_eq_none_iff]
      constructor
      · intro h v w hl
        cases v with
        | nil => exact hpre (List.isPrefixOf_iff_prefix.mpr ⟨w, by rw [hl]; simp⟩)
        | cons b v =>
          simp only [List.cons_append, List.cons.injEq] at hl
          exact h v w hl.2
      · intro h v w hl
        exact h (a :: v) w (by rw [hl]; simp)

/-- An occurrence that none starts before is the one that `afterFirst` cuts at. -/
theorem afterFirst_of_first {u : List α} (hl : l = u ++ pat ++ r)
    (hfirst : ∀ v w, l = v ++ pat ++ w → u.length ≤ v.length) : afterFirst pat l = some r := by
  cases h : afterFirst pat l with
  | none => exact absurd hl (afterFirst_eq_none_iff.mp h u r)
  | some r' =>
    obtain ⟨u', hu'⟩ := afterFirst_eq_some h
    have hlater := hfirst u' r' hu'
    have hearlier := afterFirst_minimal h hl
    have hlength := congrArg List.length (hu'.symm.trans hl)
    simp only [List.length_append] at hlength
    have heq : u' ++ pat = u ++ pat ∧ r' = r := by
      refine List.append_inj (hu'.symm.trans hl) ?_
      simp only [List.length_append]
      omega
    rw [heq.2]

/-- An occurrence that has been found stays the first one when the list goes on. -/
theorem afterFirst_append_right (h : afterFirst pat l = some r) (t : List α) :
    afterFirst pat (l ++ t) = some (r ++ t) := by
  obtain ⟨u, hu⟩ := afterFirst_eq_some h
  refine afterFirst_of_first (u := u) (by rw [hu, List.append_assoc]) fun v w hvw => ?_
  by_contra hlt
  have hlt := not_le.mp hlt
  -- an earlier occurrence would end before the list goes on
  have hlength := congrArg List.length hu
  simp only [List.length_append] at hlength
  have hbefore : v ++ pat <+: l :=
    List.prefix_of_prefix_length_le ⟨w, hvw.symm⟩ (List.prefix_append l t)
      (by simp only [List.length_append]; omega)
  obtain ⟨w', hw'⟩ := hbefore
  have hminimal := afterFirst_minimal h hw'.symm
  have hlength' := congrArg List.length hw'
  simp only [List.length_append] at hlength'
  omega

omit [DecidableEq α] in
theorem fromFirst_append_right {p : α → Bool} (h : fromFirst p l = some r) (t : List α) :
    fromFirst p (l ++ t) = some (r ++ t) := by
  induction l with
  | nil => cases h
  | cons a l ih =>
    unfold fromFirst at h
    rw [List.cons_append, fromFirst]
    split at h
    · next hp =>
      cases h
      rw [if_pos hp, List.cons_append]
    · next hp =>
      rw [if_neg hp]
      exact ih h

omit [DecidableEq α] in
/-- `fromFirst` drops entries that do not satisfy `p`, up to one that does. -/
theorem fromFirst_eq_some {p : α → Bool} : ∀ {l : List α}, fromFirst p l = some r →
    ∃ u a r', l = u ++ r ∧ r = a :: r' ∧ p a = true ∧ ∀ x ∈ u, p x = false
  | [], h => by cases h
  | a :: l, h => by
    unfold fromFirst at h
    split at h
    · next hp =>
      cases h
      exact ⟨[], a, l, rfl, rfl, hp, by simp⟩
    · next hp =>
      obtain ⟨u, b, r', rfl, rfl, hb, hu⟩ := fromFirst_eq_some h
      refine ⟨a :: u, b, r', rfl, rfl, hb, ?_⟩
      intro x hx
      rcases List.mem_cons.mp hx with rfl | hx
      · simpa using hp
      · exact hu x hx

omit [DecidableEq α] in
/-- A search over entries that do not satisfy `p` goes on behind them. -/
theorem fromFirst_append {p : α → Bool} {u : List α} (hu : ∀ x ∈ u, p x = false) :
    fromFirst p (u ++ l) = fromFirst p l := by
  induction u with
  | nil => rfl
  | cons a u ih =>
    rw [List.cons_append, fromFirst, hu a List.mem_cons_self]
    exact ih fun x hx => hu x (List.mem_cons_of_mem _ hx)

/-- A search for a pattern that starts with `b`, one entry at a time. -/
theorem afterFirst_cons {a b : α} : afterFirst (b :: pat) (a :: l) =
    if a = b ∧ pat <+: l then some (l.drop pat.length) else afterFirst (b :: pat) l := by
  rw [afterFirst]
  refine if_congr ?_ (by rw [List.length_cons, List.drop_succ_cons]) rfl
  rw [List.isPrefixOf_iff_prefix, List.cons_prefix_cons]
  exact and_congr_left fun _ => eq_comm

/-- Entries that cannot start the pattern are passed over. -/
theorem afterFirst_append {b : α} {u : List α} (hu : b ∉ u) :
    afterFirst (b :: pat) (u ++ l) = afterFirst (b :: pat) l := by
  induction u with
  | nil => rfl
  | cons a u ih =>
    have hne : a ≠ b := fun h => hu (h ▸ List.mem_cons_self)
    rw [List.cons_append, afterFirst_cons, if_neg fun h => hne h.1,
      ih fun h => hu (List.mem_cons_of_mem a h)]

/-- The first entry that is `a`, behind a text without it. -/
theorem fromFirst_eq {a : α} {u : List α} (hu : a ∉ u) :
    fromFirst (· = a) (u ++ a :: l) = some (a :: l) := by
  have hskip : ∀ x ∈ u, decide (x = a) = false := fun x hx =>
    decide_eq_false fun h => hu (h ▸ hx)
  rw [fromFirst_append hskip, fromFirst, if_pos (decide_eq_true rfl)]

/-- What stands before the first entry that is `a`. -/
theorem takeWhile_ne {a : α} {u : List α} (hu : a ∉ u) :
    (u ++ a :: l).takeWhile (· ≠ a) = u := by
  have hne : ∀ x ∈ u, decide (x ≠ a) = true := fun x hx =>
    decide_eq_true fun h : x = a => hu (h ▸ hx)
  rw [List.takeWhile_append_of_pos hne, List.takeWhile_cons_of_neg (by simp), List.append_nil]

omit [DecidableEq α] in
/-- A run ends where the text behind it stops. -/
theorem takeWhile_run {p : α → Bool} {u r : List α} (hu : ∀ a ∈ u, p a = true)
    (hr : ∀ a ∈ r.head?, p a = false) : (u ++ r).takeWhile p = u := by
  rw [List.takeWhile_append_of_pos hu]
  cases r with
  | nil => rw [List.takeWhile_nil, List.append_nil]
  | cons a r => rw [List.takeWhile_cons_of_neg (by simp [hr a rfl]), List.append_nil]

omit [DecidableEq α] in
theorem dropWhile_run {p : α → Bool} {u r : List α} (hu : ∀ a ∈ u, p a = true)
    (hr : ∀ a ∈ r.head?, p a = false) : (u ++ r).dropWhile p = r := by
  rw [List.dropWhile_append_of_pos hu]
  cases r with
  | nil => rfl
  | cons a r => rw [List.dropWhile_cons_of_neg (by simp [hr a rfl])]

omit [DecidableEq α] in
/-- A search without a hit finds nothing. -/
theorem fromFirst_eq_none {p : α → Bool} : ∀ {u : List α}, (∀ x ∈ u, p x = false) →
    fromFirst p u = none
  | [], _ => rfl
  | a :: u, h => by
    rw [fromFirst, h a List.mem_cons_self]
    exact fromFirst_eq_none fun x hx => h x (List.mem_cons_of_mem a hx)

/-- `r` stands behind the first occurrence of `pat` in `l`. -/
def Behind (pat l r : List α) : Prop :=
  ∃ u, l = u ++ pat ++ r ∧ ∀ v w, l = v ++ pat ++ w → u.length ≤ v.length

theorem afterFirst_eq_some_iff : afterFirst pat l = some r ↔ Behind pat l r := by
  constructor
  · intro h
    obtain ⟨u, hu⟩ := afterFirst_eq_some h
    refine ⟨u, hu, fun v w hvw => ?_⟩
    have hminimal := afterFirst_minimal h hvw
    have hlength := congrArg List.length (hu.symm.trans hvw)
    simp only [List.length_append] at hlength
    omega
  · rintro ⟨u, hu, hfirst⟩
    exact afterFirst_of_first hu hfirst

theorem fromFirst_eq_some_iff {a : α} : fromFirst (· = a) l = some r ↔
    ∃ gap r', l = gap ++ a :: r' ∧ a ∉ gap ∧ r = a :: r' := by
  constructor
  · intro h
    obtain ⟨gap, b, r', rfl, rfl, hb, hgap⟩ := fromFirst_eq_some h
    obtain rfl := of_decide_eq_true hb
    exact ⟨gap, r', rfl, fun hmem => of_decide_eq_false (hgap _ hmem) rfl, rfl⟩
  · rintro ⟨gap, r', rfl, hgap, rfl⟩
    exact fromFirst_eq hgap

end Search
