import Mathlib.Algebra.GroupWithZero.Nat
import Mathlib.Tactic.Common

/-!
# Pools

A pool is a list of parties of which one at a time is replaced. The lemmas say how what holds of
some party, or of at most one, carries over from a pool to the next.
-/

namespace Pool

variable {α : Type} {p : α → Prop} {l : List α} {a a' : α} {i : ℕ}

/-- No two places of the pool hold parties with `p`. -/
def AtMostOne (p : α → Prop) (l : List α) : Prop :=
  ∀ (i j : ℕ) a b, l[i]? = some a → l[j]? = some b → p a → p b → i = j

theorem AtMostOne.cons (h : AtMostOne p l) (ha : ¬ p a) : AtMostOne p (a :: l) := by
  intro i j b c hb hc hpb hpc
  cases i with
  | zero =>
    cases hb
    exact absurd hpb ha
  | succ i =>
    cases j with
    | zero =>
      cases hc
      exact absurd hpc ha
    | succ j => exact congrArg (· + 1) (h i j b c hb hc hpb hpc)

theorem AtMostOne.cons_of_forall (h : ∀ b ∈ l, ¬ p b) : AtMostOne p (a :: l) := by
  intro i j b c hb hc hpb hpc
  cases i with
  | zero =>
    cases j with
    | zero => rfl
    | succ j => exact absurd hpc (h c (List.mem_of_getElem? hc))
  | succ i => exact absurd hpb (h b (List.mem_of_getElem? hb))

/-- The party that is replaced may keep its `p`. -/
theorem AtMostOne.set (h : AtMostOne p l) (hi : l[i]? = some a) (ha : p a' → p a) :
    AtMostOne p (l.set i a') := by
  have hold : ∀ (j : ℕ) b, (l.set i a')[j]? = some b → p b → ∃ c, l[j]? = some c ∧ p c := by
    intro j b hb hpb
    rw [List.getElem?_set] at hb
    split at hb
    · next hij =>
      split at hb
      · cases hb
        exact ⟨a, hij ▸ hi, ha hpb⟩
      · cases hb
    · exact ⟨b, hb, hpb⟩
  intro j k b c hb hc hpb hpc
  obtain ⟨b', hb', hpb'⟩ := hold j b hb hpb
  obtain ⟨c', hc', hpc'⟩ := hold k c hc hpc
  exact h j k b' c' hb' hc' hpb' hpc'

/-- A party may take `p` when no other has it. -/
theorem AtMostOne.set_of_forall (h : ∀ b ∈ l, ¬ p b) : AtMostOne p (l.set i a') := by
  have hplace : ∀ (j : ℕ) b, (l.set i a')[j]? = some b → p b → j = i := by
    intro j b hb hpb
    rw [List.getElem?_set] at hb
    split at hb
    · next hij => exact hij.symm
    · exact absurd hpb (h b (List.mem_of_getElem? hb))
  intro j k b c hb hc hpb hpc
  exact (hplace j b hb hpb).trans (hplace k c hc hpc).symm

theorem AtMostOne.imp {q : α → Prop} (h : AtMostOne q l) (himp : ∀ a, p a → q a) :
    AtMostOne p l := fun i j a b ha hb hpa hpb => h i j a b ha hb (himp a hpa) (himp b hpb)

/-- When the only party with `p` loses it, none is left. -/
theorem AtMostOne.not_exists_set (h : AtMostOne p l) (hi : l[i]? = some a) (ha : p a)
    (ha' : ¬ p a') : ¬ ∃ b ∈ l.set i a', p b := by
  rintro ⟨b, hb, hpb⟩
  obtain ⟨j, hj⟩ := List.mem_iff_getElem?.mp hb
  rw [List.getElem?_set] at hj
  split at hj
  · split at hj
    · cases hj
      exact ha' hpb
    · cases hj
  · next hij => exact hij (h i j a b hi hj ha hpb)

theorem AtMostOne.eq (h : AtMostOne p l) (hi : l[i]? = some a) (ha : p a) {b : α} (hb : b ∈ l)
    (hpb : p b) : b = a := by
  obtain ⟨j, hj⟩ := List.mem_iff_getElem?.mp hb
  rw [h j i b a hj hi hpb ha, hi] at hj
  exact (Option.some_inj.mp hj).symm

theorem exists_of_set (hi : l[i]? = some a) (ha : p a' → p a) (h : ∃ b ∈ l.set i a', p b) :
    ∃ b ∈ l, p b := by
  obtain ⟨b, hb, hpb⟩ := h
  rcases List.mem_or_eq_of_mem_set hb with hmem | rfl
  · exact ⟨b, hmem, hpb⟩
  · exact ⟨a, List.mem_of_getElem? hi, ha hpb⟩

theorem exists_set (hi : l[i]? = some a) (ha : p a → p a') (h : ∃ b ∈ l, p b) :
    ∃ b ∈ l.set i a', p b := by
  obtain ⟨b, hb, hpb⟩ := h
  obtain ⟨j, hj⟩ := List.mem_iff_getElem?.mp hb
  by_cases hij : i = j
  · subst hij
    rw [hi] at hj
    cases hj
    exact ⟨a', List.mem_set (List.getElem?_eq_some_iff.mp hi).1 a', ha hpb⟩
  · exact ⟨b, List.mem_of_getElem? (by rw [List.getElem?_set_ne hij]; exact hj), hpb⟩

theorem exists_of_cons (ha : ¬ p a) (h : ∃ b ∈ a :: l, p b) : ∃ b ∈ l, p b := by
  simpa [ha] using h

/-- A party that is replaced by a smaller one makes the sum smaller. -/
theorem sum_map_set_lt {f : α → ℕ} (h : f a' < f a) :
    ∀ {l : List α} {i : ℕ}, l[i]? = some a → ((l.set i a').map f).sum < (l.map f).sum
  | [], _, hi => by cases hi
  | b :: l, 0, hi => by
    cases hi
    simpa using h
  | b :: l, i + 1, hi => by
    have hrest : ((l.set i a').map f).sum < (l.map f).sum := sum_map_set_lt h hi
    simpa using hrest

end Pool
