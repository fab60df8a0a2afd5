import Mathlib.Data.List.Pairwise
import Mathlib.Tactic.Common

/-!
# Tables with generated ids

A table is a list of rows, each under the id it got when it was inserted. Ids grow strictly and
are never handed out twice, also after a deletion: the counter `seq` only grows. A uniqueness
constraint is a relation `compat` that any two rows of the table satisfy.

* `insert?` appends a row under the next id, or fails when a row is incompatible with it.
* `update?` rewrites the selected rows in place, or fails when two rows become incompatible.
* `deleteWhere` removes the selected rows.

The order of ids, the bound on them and the constraint are fields of the structure, so every
table that the operations produce satisfies them.
-/

/-- Rows of type `ρ` under strictly growing ids, pairwise `compat`. -/
structure AutoTable (ρ : Type) (compat : ρ → ρ → Prop) where
  rows : List (ℕ × ρ)
  /-- The largest id handed out so far. -/
  seq : ℕ
  ordered : rows.Pairwise fun a b => a.1 < b.1 ∧ compat a.2 b.2
  bounded : ∀ r ∈ rows, r.1 ≤ seq

namespace AutoTable

variable {ρ : Type} {compat : ρ → ρ → Prop}

/-! ## 1. Operations -/

/-- Two tables with the same rows and the same counter are equal. -/
@[ext] theorem ext {t u : AutoTable ρ compat} (hrows : t.rows = u.rows) (hseq : t.seq = u.seq) :
    t = u := by
  cases t
  cases u
  cases hrows
  cases hseq
  rfl

/-- The empty table. -/
def empty : AutoTable ρ compat := ⟨[], 0, .nil, by simp⟩

/-- Append `r` under the next id, unless some row is incompatible with it. -/
def insert? [DecidableRel compat] (t : AutoTable ρ compat) (r : ρ) :
    Option (AutoTable ρ compat) :=
  if h : ∀ x ∈ t.rows, compat x.2 r then
    some {
      rows := t.rows ++ [(t.seq + 1, r)]
      seq := t.seq + 1
      ordered := by
        refine List.pairwise_append.mpr ⟨t.ordered, List.pairwise_singleton _ _, ?_⟩
        intro x hx y hy
        cases List.mem_singleton.mp hy
        exact ⟨Nat.lt_succ_of_le (t.bounded x hx), h x hx⟩
      bounded := by
        intro x hx
        rcases List.mem_append.mp hx with hx | hx
        · exact Nat.le_succ_of_le (t.bounded x hx)
        · cases List.mem_singleton.mp hx
          exact Nat.le_refl _ }
  else none

/-- Append the rows of a list one after the other. -/
def insertAll? [DecidableRel compat] (t : AutoTable ρ compat) :
    List ρ → Option (AutoTable ρ compat)
  | [] => some t
  | r :: rs => (t.insert? r).bind (·.insertAll? rs)

/-- Remove every row that satisfies `p`. -/
def deleteWhere (t : AutoTable ρ compat) (p : ℕ × ρ → Bool) : AutoTable ρ compat where
  rows := t.rows.filter fun x => !p x
  seq := t.seq
  ordered := t.ordered.sublist List.filter_sublist
  bounded := fun x hx => t.bounded x (List.mem_filter.mp hx).1

/-- The row that `update?` puts in the place of `x`. -/
def updateRow (p : ρ → Bool) (f : ρ → ρ) (x : ℕ × ρ) : ℕ × ρ :=
  if p x.2 then (x.1, f x.2) else x

@[simp] theorem updateRow_fst (p : ρ → Bool) (f : ρ → ρ) (x : ℕ × ρ) :
    (updateRow p f x).1 = x.1 := by
  unfold updateRow
  split <;> rfl

/-- Replace the content of every row that satisfies `p`, unless two rows become incompatible. -/
def update? [DecidableRel compat] (t : AutoTable ρ compat) (p : ρ → Bool) (f : ρ → ρ) :
    Option (AutoTable ρ compat) :=
  if h : (t.rows.map (updateRow p f)).Pairwise fun a b => compat a.2 b.2 then
    some {
      rows := t.rows.map (updateRow p f)
      seq := t.seq
      ordered := by
        have hids : (t.rows.map (updateRow p f)).Pairwise fun a b => a.1 < b.1 := by
          rw [List.pairwise_map]
          simpa using t.ordered.imp And.left
        exact hids.and h
      bounded := by
        intro x hx
        obtain ⟨y, hy, rfl⟩ := List.mem_map.mp hx
        simpa using t.bounded y hy }
  else none

/-- The table under another schema, when compatible rows stay compatible. -/
def mapRows {σ : Type} {compat' : σ → σ → Prop} (t : AutoTable ρ compat) (f : ρ → σ)
    (h : ∀ a b, compat a b → compat' (f a) (f b)) : AutoTable σ compat' where
  rows := t.rows.map fun x => (x.1, f x.2)
  seq := t.seq
  ordered := List.pairwise_map.mpr (t.ordered.imp fun hab => ⟨hab.1, h _ _ hab.2⟩)
  bounded := by
    intro x hx
    obtain ⟨y, hy, rfl⟩ := List.mem_map.mp hx
    exact t.bounded y hy

/-- The rows whose content satisfies `p`, in the order of their ids. -/
def select (t : AutoTable ρ compat) (p : ρ → Bool) : List (ℕ × ρ) := t.rows.filter fun x => p x.2

/-! ## 2. What a row of the table satisfies -/

theorem mem_select {t : AutoTable ρ compat} {p : ρ → Bool} {x : ℕ × ρ} :
    x ∈ t.select p ↔ x ∈ t.rows ∧ p x.2 = true := List.mem_filter

/-- An id names one row. -/
theorem eq_of_id_eq {t : AutoTable ρ compat} {x y : ℕ × ρ} (hx : x ∈ t.rows) (hy : y ∈ t.rows)
    (h : x.1 = y.1) : x = y := by
  by_contra hne
  have hsymm : Std.Symm fun a b : ℕ × ρ => a.1 ≠ b.1 := ⟨fun _ _ hab => hab.symm⟩
  have hpair : t.rows.Pairwise fun a b => a.1 ≠ b.1 := t.ordered.imp fun hab => Nat.ne_of_lt hab.1
  exact hpair.forall hx hy hne h

/-- Two different rows are compatible, for a symmetric constraint. -/
theorem compat_of_ne [Std.Symm compat] {t : AutoTable ρ compat} {x y : ℕ × ρ} (hx : x ∈ t.rows)
    (hy : y ∈ t.rows) (hne : x ≠ y) : compat x.2 y.2 := by
  have hsymm : Std.Symm fun a b : ℕ × ρ => compat a.2 b.2 := ⟨fun _ _ hab => symm hab⟩
  have hpair : t.rows.Pairwise fun a b => compat a.2 b.2 := t.ordered.imp And.right
  exact hpair.forall hx hy hne

theorem ids_nodup (t : AutoTable ρ compat) : (t.rows.map (·.1)).Nodup := by
  rw [List.Nodup, List.pairwise_map]
  exact t.ordered.imp fun hab => Nat.ne_of_lt hab.1

theorem rows_nodup (t : AutoTable ρ compat) : t.rows.Nodup :=
  t.ordered.imp fun {a b} hab heq => by
    subst heq
    exact Nat.lt_irrefl _ hab.1

/-- Among the rows with `p` are those with a stronger `q`. -/
theorem select_of_imp (t : AutoTable ρ compat) {p q : ρ → Bool}
    (h : ∀ r, q r = true → p r = true) : t.select q = (t.select p).filter fun x => q x.2 := by
  rw [select, select, List.filter_filter]
  refine List.filter_congr fun x _ => ?_
  cases hq : q x.2 with
  | true => rw [h x.2 hq, Bool.and_self]
  | false => rfl

/-- A search for a row with `p` may look at the rows with `p` only. -/
theorem find?_select (t : AutoTable ρ compat) {p : ρ → Bool} {f : ℕ × ρ → Bool}
    (h : ∀ x, f x = true → p x.2 = true) : (t.select p).find? f = t.rows.find? f := by
  rw [select, List.find?_filter]
  refine congrArg (fun g => t.rows.find? g) (funext fun x => ?_)
  cases hf : f x with
  | true => simp [h x hf]
  | false => simp

/-! ## 3. Rows after an operation -/

section Insert
variable [DecidableRel compat] {t u : AutoTable ρ compat} {r : ρ}

theorem insert?_eq_some : t.insert? r = some u ↔
    (∀ x ∈ t.rows, compat x.2 r) ∧ u.rows = t.rows ++ [(t.seq + 1, r)] ∧ u.seq = t.seq + 1 := by
  unfold insert?
  split
  · next h =>
    simp only [Option.some.injEq]
    constructor
    · rintro rfl
      exact ⟨h, rfl, rfl⟩
    · rintro ⟨_, hrows, hseq⟩
      exact ext hrows.symm hseq.symm
  · next h =>
    constructor
    · intro hnone
      cases hnone
    · rintro ⟨hall, _⟩
      exact absurd hall h

theorem insert?_eq_none : t.insert? r = none ↔ ∃ x ∈ t.rows, ¬ compat x.2 r := by
  unfold insert?
  split
  · next h => simpa using h
  · next h => simpa using h

@[simp] theorem insertAll?_cons {rs : List ρ} :
    t.insertAll? (r :: rs) = (t.insert? r).bind (·.insertAll? rs) := rfl

/-- Inserting a list keeps the rows that are there and appends the list, in order. -/
theorem insertAll?_rows : ∀ {rs : List ρ} {t u : AutoTable ρ compat}, t.insertAll? rs = some u →
    ∃ new, u.rows = t.rows ++ new ∧ new.map (·.2) = rs ∧ ∀ x ∈ new, t.seq < x.1
  | [], t, u, h => by
    cases h
    exact ⟨[], by simp⟩
  | r :: rs, t, u, h => by
    obtain ⟨t', ht', hu⟩ := Option.bind_eq_some_iff.mp h
    obtain ⟨_, hrows, hseq⟩ := insert?_eq_some.mp ht'
    obtain ⟨new, hnew, hmap, hids⟩ := insertAll?_rows hu
    refine ⟨(t.seq + 1, r) :: new, ?_, by simp [hmap], ?_⟩
    · rw [hnew, hrows]
      simp
    · intro x hx
      rcases List.mem_cons.mp hx with rfl | hx
      · exact Nat.lt_succ_self _
      · have := hids x hx
        omega

/-- What a successful insertion of a list says about its rows. -/
theorem insertAll?_compat {rs : List ρ} (h : t.insertAll? rs = some u) :
    (∀ x ∈ t.rows, ∀ r ∈ rs, compat x.2 r) ∧ rs.Pairwise compat := by
  obtain ⟨new, hrows, hmap, -⟩ := insertAll?_rows h
  have hord := u.ordered
  rw [hrows, List.pairwise_append] at hord
  obtain ⟨-, hnew, hcross⟩ := hord
  constructor
  · intro x hx r hr
    obtain ⟨y, hy, rfl⟩ := List.mem_map.mp (hmap ▸ hr)
    exact (hcross x hx y hy).2
  · rw [← hmap, List.pairwise_map]
    exact hnew.imp And.right

/-- Inserting a list of rows that are compatible with the table and among themselves succeeds. -/
theorem insertAll?_isSome : ∀ {rs : List ρ} {t : AutoTable ρ compat},
    (∀ x ∈ t.rows, ∀ r ∈ rs, compat x.2 r) → rs.Pairwise compat → ∃ u, t.insertAll? rs = some u
  | [], t, _, _ => ⟨t, rfl⟩
  | r :: rs, t, hold, hnew => by
    obtain ⟨hr, hrs⟩ := List.pairwise_cons.mp hnew
    cases hins : t.insert? r with
    | none =>
      obtain ⟨x, hx, hbad⟩ := insert?_eq_none.mp hins
      exact absurd (hold x hx r List.mem_cons_self) hbad
    | some t' =>
      obtain ⟨_, hrows, _⟩ := insert?_eq_some.mp hins
      have hold' : ∀ x ∈ t'.rows, ∀ s ∈ rs, compat x.2 s := by
        intro x hx s hs
        rw [hrows] at hx
        rcases List.mem_append.mp hx with hx | hx
        · exact hold x hx s (List.mem_cons_of_mem _ hs)
        · cases List.mem_singleton.mp hx
          exact hr s hs
      obtain ⟨u, hu⟩ := insertAll?_isSome hold' hrs
      exact ⟨u, by simp [hins, hu]⟩

/-- Of a list that is inserted, a query finds what satisfies it. -/
theorem select_insertAll? {rs : List ρ} {q : ρ → Bool} (h : t.insertAll? rs = some u) :
    ∃ new, u.select q = t.select q ++ new ∧ new.map (·.2) = rs.filter q := by
  obtain ⟨new, hrows, rfl, -⟩ := insertAll?_rows h
  refine ⟨new.filter fun x => q x.2, ?_, by rw [List.filter_map]; rfl⟩
  rw [select, hrows, List.filter_append]
  rfl

/-- An insertion of rows without `q` does not show among the rows with `q`. -/
theorem select_insertAll?_of_disjoint {rs : List ρ} {q : ρ → Bool} (h : t.insertAll? rs = some u)
    (hq : ∀ r ∈ rs, q r = false) : u.select q = t.select q := by
  obtain ⟨new, hselect, hmap⟩ := select_insertAll? (q := q) h
  rw [List.filter_eq_nil_iff.mpr fun r hr => Bool.eq_false_iff.mp (hq r hr)] at hmap
  rw [hselect, List.map_eq_nil_iff.mp hmap, List.append_nil]

end Insert

section Update
variable [DecidableRel compat] {t u : AutoTable ρ compat} {p : ρ → Bool} {f : ρ → ρ}

theorem update?_eq_some : t.update? p f = some u ↔
    (t.rows.map (updateRow p f)).Pairwise (fun a b => compat a.2 b.2) ∧
      u.rows = t.rows.map (updateRow p f) ∧ u.seq = t.seq := by
  unfold update?
  split
  · next h =>
    simp only [Option.some.injEq]
    constructor
    · rintro rfl
      exact ⟨h, rfl, rfl⟩
    · rintro ⟨_, hrows, hseq⟩
      exact ext hrows.symm hseq.symm
  · next h => simp [h]

/-- An update fails exactly when it makes two rows incompatible. -/
theorem update?_eq_none [Std.Symm compat] : t.update? p f = none ↔
    ∃ x ∈ t.rows, ∃ y ∈ t.rows, x ≠ y ∧ ¬ compat (updateRow p f x).2 (updateRow p f y).2 := by
  constructor
  · intro h
    by_contra hall
    push Not at hall
    have hpair : (t.rows.map (updateRow p f)).Pairwise fun a b => compat a.2 b.2 := by
      rw [List.pairwise_map]
      refine t.rows_nodup.imp_of_mem fun {a b} ha hb hne => ?_
      exact hall a ha b hb hne
    rw [update?, dif_pos hpair] at h
    cases h
  · rintro ⟨x, hx, y, hy, hne, hbad⟩
    cases hu : t.update? p f with
    | none => rfl
    | some u =>
      obtain ⟨-, hrows, -⟩ := update?_eq_some.mp hu
      have hmem : ∀ z ∈ t.rows, updateRow p f z ∈ u.rows := fun z hz =>
        hrows ▸ List.mem_map_of_mem hz
      have hne' : updateRow p f x ≠ updateRow p f y := fun heq =>
        hne (eq_of_id_eq hx hy (by simpa using congrArg Prod.fst heq))
      exact absurd (compat_of_ne (hmem x hx) (hmem y hy) hne') hbad

section Back
variable {q : ρ → Bool} {g : ρ → ρ}

/-- An update that takes the rows out of `p` and into `q`, where there are none, is taken back by one
that inverts it on each of these rows. -/
theorem update?_back (h : t.update? p f = some u)
    (hback : ∀ x ∈ t.rows, p x.2 = true → q (f x.2) = true ∧ g (f x.2) = x.2)
    (hfree : ∀ x ∈ t.rows, p x.2 = false → q x.2 = false) : u.update? q g = some t := by
  obtain ⟨-, hrows, hseq⟩ := update?_eq_some.mp h
  have hsame : u.rows.map (updateRow q g) = t.rows := by
    rw [hrows, List.map_map]
    refine (List.map_congr_left fun x hx => ?_).trans (List.map_id _)
    cases hp : p x.2 with
    | true => simp [updateRow, hp, hback x hx hp]
    | false => simp [updateRow, hp, hfree x hx hp]
  refine update?_eq_some.mpr ⟨?_, hsame.symm, hseq.symm⟩
  rw [hsame]
  exact t.ordered.imp And.right

/-- Such an update brings the rows with `p`, under their ids, to `q`. -/
theorem select_update?_into (h : t.update? p f = some u)
    (hinto : ∀ x ∈ t.rows, p x.2 = true → q (f x.2) = true)
    (hfree : ∀ x ∈ t.rows, p x.2 = false → q x.2 = false) :
    u.select q = (t.select p).map fun x => (x.1, f x.2) := by
  obtain ⟨-, hrows, -⟩ := update?_eq_some.mp h
  have hfilter : t.rows.filter (fun x => q (updateRow p f x).2) = t.rows.filter fun x => p x.2 := by
    refine List.filter_congr fun x hx => ?_
    cases hp : p x.2 with
    | true => simp [updateRow, hp, hinto x hx hp]
    | false => simp [updateRow, hp, hfree x hx hp]
  rw [select, select, hrows, List.filter_map]
  refine (congrArg (List.map _) hfilter).trans (List.map_congr_left fun x hx => ?_)
  simp [updateRow, (List.mem_filter.mp hx).2]

/-- And it leaves none behind. -/
theorem select_update?_out (h : t.update? p f = some u)
    (hout : ∀ x ∈ t.rows, p x.2 = true → p (f x.2) = false) : u.select p = [] := by
  obtain ⟨-, hrows, -⟩ := update?_eq_some.mp h
  rw [select, hrows, List.filter_eq_nil_iff]
  intro y hy
  obtain ⟨x, hx, rfl⟩ := List.mem_map.mp hy
  cases hp : p x.2 with
  | true => simp [updateRow, hp, hout x hx hp]
  | false => simp [updateRow, hp]

end Back

section Select
variable {t' u' : AutoTable ρ compat} {q : ρ → Bool}

/-- The rows with `q` after an update that does not lead into `q` or out of it. -/
theorem select_update? (h : t.update? p f = some u) (hq : ∀ r, p r = true → q (f r) = q r) :
    u.select q = (t.select q).map (updateRow p f) := by
  obtain ⟨-, hrows, -⟩ := update?_eq_some.mp h
  rw [select, select, hrows, List.filter_map]
  refine congrArg _ (List.filter_congr fun x _ => ?_)
  show q (updateRow p f x).2 = q x.2
  unfold updateRow
  split
  · next hx => exact hq x.2 hx
  · rfl

/-- An update of rows without `q` does not show among the rows with `q`. -/
theorem select_update?_of_disjoint (h : t.update? p f = some u)
    (hold : ∀ r, p r = true → q r = false) (hnew : ∀ r, p r = true → q (f r) = false) :
    u.select q = t.select q := by
  rw [select_update? h fun r hr => (hnew r hr).trans (hold r hr).symm]
  refine (List.map_congr_left fun x hx => ?_).trans (List.map_id _)
  unfold updateRow
  split
  · next hp =>
    have hq := (mem_select.mp hx).2
    rw [hold x.2 hp] at hq
    cases hq
  · rfl

end Select

end Update

theorem select_deleteWhere (t : AutoTable ρ compat) (p : ℕ × ρ → Bool) (q : ρ → Bool) :
    (t.deleteWhere p).select q = (t.select q).filter fun x => !p x := by
  simp only [select, deleteWhere, List.filter_filter, Bool.and_comm]

/-- A deletion of rows without `q` does not show among the rows with `q`. -/
theorem select_deleteWhere_of_disjoint (t : AutoTable ρ compat) {p : ℕ × ρ → Bool} {q : ρ → Bool}
    (h : ∀ x, p x = true → q x.2 = false) : (t.deleteWhere p).select q = t.select q := by
  rw [select_deleteWhere, List.filter_eq_self]
  intro x hx
  have hq := (mem_select.mp hx).2
  rw [Bool.not_eq_true']
  refine Bool.eq_false_iff.mpr fun hp => ?_
  rw [h x hp] at hq
  cases hq

theorem mem_deleteWhere {t : AutoTable ρ compat} {p : ℕ × ρ → Bool} {x : ℕ × ρ} :
    x ∈ (t.deleteWhere p).rows ↔ x ∈ t.rows ∧ p x = false := by
  simp [deleteWhere]

theorem deleteWhere_eq_self {t : AutoTable ρ compat} {p : ℕ × ρ → Bool}
    (h : ∀ x ∈ t.rows, p x = false) : t.deleteWhere p = t :=
  ext (List.filter_eq_self.mpr fun x hx => by simp [h x hx]) rfl

end AutoTable
