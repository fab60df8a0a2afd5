import CollectorService.AutoTable

/-!
# Owners and their parts in two tables

A table of owners with unique names, and a table of parts, each of which names its owner. Together
they stand for a list of owners, each with the list of its parts.

* `nest`: that list.
* `nest_insert?`, `nest_remove`, `nest_update?`, `nest_rename`: what the operations on the owners
  do to it.
* `nest_replace`, `nest_clear`: what the operations on the parts of one owner do to it.
* `find?_nest`: a search by name.
-/

/-- An owner under its id, with its parts. -/
@[ext] structure Owner (ρ β : Type) where
  id : ℕ
  row : ρ
  parts : List β
  deriving DecidableEq

namespace Owner

variable {κ ρ π β : Type} [DecidableEq κ]

/-! ## 1. Lists of owners -/

section Lists
variable (name : ρ → κ) (k : κ)

/-- The owner with a name. -/
def find (l : List (Owner ρ β)) : Option (Owner ρ β) := l.find? fun e => name e.row = k

/-- A new owner has no parts. -/
def add (id : ℕ) (row : ρ) (l : List (Owner ρ β)) : List (Owner ρ β) := l ++ [⟨id, row, []⟩]

/-- An owner goes with its parts. -/
def remove (l : List (Owner ρ β)) : List (Owner ρ β) := l.filter fun e => name e.row ≠ k

/-- An owner whose row changes keeps its id and its parts. -/
def setRow (row : ρ) (l : List (Owner ρ β)) : List (Owner ρ β) :=
  l.map fun e => if name e.row = k then { e with row } else e

def setParts (parts : List β) (l : List (Owner ρ β)) : List (Owner ρ β) :=
  l.map fun e => if name e.row = k then { e with parts } else e

end Lists

/-! ## 2. The two tables -/

variable {c : ρ → ρ → Prop} {d : π → π → Prop} (name : ρ → κ) (link : π → Option κ) (body : π → β)

/-- The parts of the owner with a name, without the link. -/
def partsOf (p : AutoTable π d) (k : κ) : List β :=
  (p.select fun r => link r = some k).map fun x => body x.2

/-- The owners of the first table with their parts in the second one. -/
def nest (o : AutoTable ρ c) (p : AutoTable π d) : List (Owner ρ β) :=
  o.rows.map fun x => ⟨x.1, x.2, partsOf link body p (name x.2)⟩

/-- Every part has an owner. -/
def Linked (o : AutoTable ρ c) (p : AutoTable π d) : Prop :=
  ∀ r ∈ p.rows, ∃ x ∈ o.rows, link r.2 = some (name x.2)

section Tables
variable {name link body} {o o' : AutoTable ρ c} {p p' : AutoTable π d} {k k' : κ} {row : ρ}

/-- A name that no owner has has no parts. -/
theorem Linked.partsOf_eq_nil (h : Linked name link o p) (hnew : ∀ x ∈ o.rows, name x.2 ≠ k) :
    partsOf link body p k = [] := by
  rw [partsOf, List.map_eq_nil_iff, AutoTable.select, List.filter_eq_nil_iff]
  intro r hr
  obtain ⟨x, hx, hlink⟩ := h r hr
  simpa [hlink] using hnew x hx

theorem partsOf_deleteWhere : partsOf link body (p.deleteWhere fun x => link x.2 = some k) k' =
    if k' = k then [] else partsOf link body p k' := by
  split
  · next heq =>
    subst heq
    rw [partsOf, List.map_eq_nil_iff, AutoTable.select_deleteWhere, List.filter_eq_nil_iff]
    intro x hx
    simpa using (AutoTable.mem_select.mp hx).2
  · next hne =>
    rw [partsOf, AutoTable.select_deleteWhere_of_disjoint _ fun x hx => ?_, partsOf]
    rw [decide_eq_true_eq] at hx
    rw [hx, decide_eq_false_iff_not]
    exact fun heq => hne (Option.some.inj heq).symm

theorem find?_nest : find name k (nest name link body o p) =
    (o.rows.find? fun x => name x.2 = k).map
      fun x => ⟨x.1, x.2, partsOf link body p (name x.2)⟩ := by
  rw [find, nest, List.find?_map]
  rfl

/-- An insertion of an owner whose name is free. -/
theorem nest_insert? [DecidableRel c] (h : o.insert? row = some o')
    (hfree : partsOf link body p (name row) = []) :
    nest name link body o' p = add (o.seq + 1) row (nest name link body o p) := by
  obtain ⟨-, hrows, -⟩ := AutoTable.insert?_eq_some.mp h
  rw [nest, hrows, List.map_append, List.map_singleton, hfree]
  rfl

/-- A deletion of an owner and of its parts. -/
theorem nest_remove : nest name link body (o.deleteWhere fun x => name x.2 = k)
    (p.deleteWhere fun x => link x.2 = some k) = remove name k (nest name link body o p) := by
  have hfilter : (o.deleteWhere fun x => name x.2 = k).rows =
      o.rows.filter ((fun e : Owner ρ β => decide (name e.row ≠ k)) ∘
        fun x => ⟨x.1, x.2, partsOf link body p (name x.2)⟩) :=
    List.filter_congr fun x _ => by simp
  rw [nest, remove, nest, List.filter_map, hfilter]
  refine List.map_congr_left fun x hx => ?_
  have hne : name x.2 ≠ k := by simpa using (List.mem_filter.mp hx).2
  rw [partsOf_deleteWhere, if_neg hne]

/-- An owner whose row changes and whose name does not. -/
theorem nest_update? [DecidableRel c] (h : o.update? (fun r => name r = k) (fun _ => row) = some o')
    (hname : name row = k) :
    nest name link body o' p = setRow name k row (nest name link body o p) := by
  obtain ⟨-, hrows, -⟩ := AutoTable.update?_eq_some.mp h
  rw [nest, setRow, nest, hrows, List.map_map, List.map_map]
  refine List.map_congr_left fun x _ => ?_
  by_cases hx : name x.2 = k
  · simp [AutoTable.updateRow, hx, hname]
  · simp [AutoTable.updateRow, hx]

/-- An owner whose row and name change, with its parts, to a name that is free. -/
theorem nest_rename [DecidableRel c] [DecidableRel d] {f : π → π}
    (h : o.update? (fun r => name r = k) (fun _ => row) = some o')
    (hparts : p.update? (fun r => link r = some k) f = some p')
    (hlink : ∀ r, link (f r) = some (name row)) (hbody : ∀ r, body (f r) = body r)
    (hfree : ∀ x ∈ o.rows, name x.2 ≠ name row) (hnew : partsOf link body p (name row) = []) :
    nest name link body o' p' = setRow name k row (nest name link body o p) := by
  obtain ⟨-, hrows, -⟩ := AutoTable.update?_eq_some.mp h
  have hmoved : partsOf link body p' (name row) = partsOf link body p k := by
    rw [partsOf, List.map_eq_nil_iff, AutoTable.select, List.filter_eq_nil_iff] at hnew
    rw [partsOf, partsOf, AutoTable.select_update?_into hparts
      (fun x _ _ => decide_eq_true (hlink x.2))
      (fun x hx _ => Bool.eq_false_iff.mpr (hnew x hx)), List.map_map]
    exact List.map_congr_left fun x _ => hbody x.2
  have hothers : ∀ k', k' ≠ k → k' ≠ name row →
      partsOf link body p' k' = partsOf link body p k' := by
    intro k' hk hrow
    rw [partsOf, partsOf, AutoTable.select_update?_of_disjoint hparts (fun r hr => ?_) fun r _ => ?_]
    · rw [decide_eq_true_eq] at hr
      rw [hr, decide_eq_false_iff_not]
      exact fun heq => hk (Option.some.inj heq).symm
    · rw [hlink, decide_eq_false_iff_not]
      exact fun heq => hrow (Option.some.inj heq).symm
  rw [nest, setRow, nest, hrows, List.map_map, List.map_map]
  refine List.map_congr_left fun x hx => ?_
  by_cases hk : name x.2 = k
  · simp [AutoTable.updateRow, hk, hmoved]
  · simp [AutoTable.updateRow, hk, hothers _ hk (hfree x hx)]

/-- A deletion of the parts of an owner. -/
theorem nest_clear : nest name link body o (p.deleteWhere fun x => link x.2 = some k) =
    setParts name k [] (nest name link body o p) := by
  rw [nest, setParts, nest, List.map_map]
  refine List.map_congr_left fun x _ => ?_
  simp only [Function.comp_apply, partsOf_deleteWhere]
  split <;> rfl

/-- New parts in the place of those that an owner has. -/
theorem nest_replace [DecidableRel d] {rows : List π}
    (h : (p.deleteWhere fun x => link x.2 = some k).insertAll? rows = some p')
    (hlink : ∀ r ∈ rows, link r = some k) :
    nest name link body o p' = setParts name k (rows.map body) (nest name link body o p) := by
  have hparts : ∀ k', partsOf link body p' k' =
      if k' = k then rows.map body else partsOf link body p k' := by
    intro k'
    obtain ⟨new, hselect, hnew⟩ := AutoTable.select_insertAll? (q := fun r => link r = some k') h
    have hold : partsOf link body (p.deleteWhere fun x => link x.2 = some k) k' =
        if k' = k then [] else partsOf link body p k' := partsOf_deleteWhere
    rw [partsOf] at hold ⊢
    rw [hselect, List.map_append, hold]
    have hbody : new.map (fun x => body x.2) = (new.map (·.2)).map body := by
      rw [List.map_map]
      rfl
    rw [hbody, hnew]
    split
    · next heq =>
      subst heq
      rw [List.nil_append, List.filter_eq_self.mpr fun r hr => decide_eq_true (hlink r hr)]
    · next hne =>
      rw [List.filter_eq_nil_iff.mpr, List.map_nil, List.append_nil]
      intro r hr
      rw [hlink r hr, decide_eq_true_eq]
      exact fun heq => hne (Option.some.inj heq).symm
  rw [nest, setParts, nest, List.map_map]
  refine List.map_congr_left fun x _ => ?_
  simp only [Function.comp_apply, hparts]
  split <;> rfl

end Tables

end Owner
