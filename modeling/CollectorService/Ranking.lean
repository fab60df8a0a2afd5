import Mathlib.Data.List.Sort
import Mathlib.Data.Prod.Lex

/-!
# The entries of a list in descending order of a key

`ranked key l` lists `l` from the greatest key down, and `top key n l` is its first `n` entries.
When the keys of `l` are distinct, `ranked` is determined by the entries alone:

* `ranked_append_singleton`: a new entry is inserted at its place;
* `ranked_filter`: dropping entries drops them from the ranking;
* `ranked_filter_top`: keeping the `n` entries of greatest key leaves the first `n` of the ranking;
* `greatest_filter`: what is kept then are the `n` greatest entries, and no others (`Greatest`).

`top_append_singleton` is the congruence that long runs need: the top of a list after an insertion
depends on the top before it only.
-/

namespace Ranking

variable {α κ : Type} [LinearOrder κ] {key : α → κ} {l l' : List α}

/-- The entries of `l` from the greatest key down. -/
def ranked (key : α → κ) (l : List α) : List α := l.insertionSort fun a b => key b ≤ key a

/-- The `n` entries of greatest key, the greatest first. -/
def top (key : α → κ) (n : ℕ) (l : List α) : List α := (ranked key l).take n

/-! ## 1. The ranking and its entries -/

theorem ranked_perm (key : α → κ) (l : List α) : (ranked key l).Perm l :=
  List.perm_insertionSort _ l

theorem mem_ranked {x : α} : x ∈ ranked key l ↔ x ∈ l := (ranked_perm key l).mem_iff

theorem ranked_pairwise (key : α → κ) (l : List α) :
    (ranked key l).Pairwise fun a b => key b ≤ key a := by
  have htotal : Std.Total fun a b : α => key b ≤ key a := ⟨fun a b => le_total (key b) (key a)⟩
  have htrans : IsTrans α fun a b => key b ≤ key a := ⟨fun _ _ _ hab hbc => hbc.trans hab⟩
  exact List.pairwise_insertionSort _ l

omit [LinearOrder κ] in
/-- Distinct keys: two entries of one key are one entry. -/
theorem eq_of_key_eq (hkeys : (l.map key).Nodup) {a b : α} (ha : a ∈ l) (hb : b ∈ l)
    (h : key a = key b) : a = b :=
  List.inj_on_of_nodup_map hkeys ha hb h

/-- A list in descending order with the entries of `l` is the ranking of `l`. -/
theorem eq_ranked (hkeys : (l.map key).Nodup) (hperm : l'.Perm l)
    (hdesc : l'.Pairwise fun a b => key b ≤ key a) : l' = ranked key l := by
  refine List.Perm.eq_of_pairwise ?_ hdesc (ranked_pairwise key l)
    (hperm.trans (ranked_perm key l).symm)
  intro a b ha hb hba hab
  exact eq_of_key_eq hkeys (hperm.mem_iff.mp ha) (mem_ranked.mp hb) (le_antisymm hab hba)

/-! ## 2. The ranking after an insertion or a deletion -/

theorem ranked_append_singleton {x : α} (hkeys : ((l ++ [x]).map key).Nodup) :
    ranked key (l ++ [x]) = (ranked key l).orderedInsert (fun a b => key b ≤ key a) x := by
  have htotal : Std.Total fun a b : α => key b ≤ key a := ⟨fun a b => le_total (key b) (key a)⟩
  have htrans : IsTrans α fun a b => key b ≤ key a := ⟨fun _ _ _ hab hbc => hbc.trans hab⟩
  refine (eq_ranked hkeys ?_ ((ranked_pairwise key l).orderedInsert x _)).symm
  calc ((ranked key l).orderedInsert _ x).Perm (x :: ranked key l) := List.perm_orderedInsert _ x _
    _ |>.Perm (x :: l) := (ranked_perm key l).cons x
    _ |>.Perm (l ++ [x]) := (List.perm_append_singleton x l).symm

theorem ranked_filter (hkeys : (l.map key).Nodup) (p : α → Bool) :
    ranked key (l.filter p) = (ranked key l).filter p := by
  have hsub : ((l.filter p).map key).Nodup := hkeys.sublist (List.filter_sublist.map key)
  exact (eq_ranked hsub ((ranked_perm key l).filter p)
    ((ranked_pairwise key l).sublist List.filter_sublist)).symm

/-- Without duplicates, dropping the entries of a tail leaves the front. -/
theorem filter_notMem_append [DecidableEq α] {front tail : List α} (h : (front ++ tail).Nodup) :
    (front ++ tail).filter (fun x => !decide (x ∈ tail)) = front := by
  have hdisj := (List.nodup_append'.mp h).2.2
  have hfront : front.filter (fun x => !decide (x ∈ tail)) = front :=
    List.filter_eq_self.mpr fun x hx => by simpa using fun ht => hdisj hx ht
  have htail : tail.filter (fun x => !decide (x ∈ tail)) = [] :=
    List.filter_eq_nil_iff.mpr fun x hx => by simpa using hx
  rw [List.filter_append, hfront, htail, List.append_nil]

/-- Keeping exactly the entries that are not ranked after place `n` keeps the first `n` places. -/
theorem ranked_filter_top (hkeys : (l.map key).Nodup) {n : ℕ} {p : α → Bool}
    (hp : ∀ x ∈ l, p x = true ↔ x ∉ (ranked key l).drop n) :
    ranked key (l.filter p) = top key n l := by
  classical
  have hnodup : ((ranked key l).take n ++ (ranked key l).drop n).Nodup := by
    rw [List.take_append_drop]
    exact (ranked_perm key l).nodup_iff.mpr (List.Nodup.of_map key hkeys)
  have hkeep := filter_notMem_append hnodup
  rw [List.take_append_drop] at hkeep
  rw [ranked_filter hkeys, top, ← hkeep]
  refine List.filter_congr fun x hx => ?_
  rw [Bool.eq_iff_iff, hp x (mem_ranked.mp hx)]
  simp

/-- `kept` are the `n` entries of `l` of greatest key, or all of them, in the order of `l`. -/
structure Greatest (key : α → κ) (n : ℕ) (l kept : List α) : Prop where
  sublist : kept.Sublist l
  length : kept.length = min n l.length
  greater : ∀ x ∈ kept, ∀ y ∈ l, y ∉ kept → key y < key x

/-- Dropping exactly the entries that are ranked after place `n` keeps the `n` greatest. -/
theorem greatest_filter (hkeys : (l.map key).Nodup) {n : ℕ} {p : α → Bool}
    (hp : ∀ x ∈ l, p x = true ↔ x ∉ (ranked key l).drop n) : Greatest key n l (l.filter p) := by
  have hlength : (l.filter p).length = min n l.length := by
    rw [← (ranked_perm key (l.filter p)).length_eq, ranked_filter_top hkeys hp, top,
      List.length_take, (ranked_perm key l).length_eq]
  refine ⟨List.filter_sublist, hlength, fun x hx y hy hdropped => ?_⟩
  obtain ⟨hxl, hkept⟩ := List.mem_filter.mp hx
  have hbeyond : y ∈ (ranked key l).drop n := by
    by_contra hnot
    exact hdropped (List.mem_filter.mpr ⟨hy, (hp y hy).mpr hnot⟩)
  have hwithin : x ∈ (ranked key l).take n := by
    have hmem : x ∈ ranked key l := mem_ranked.mpr hxl
    rw [← List.take_append_drop n (ranked key l)] at hmem
    exact (List.mem_append.mp hmem).resolve_right ((hp x hxl).mp hkept)
  have hdesc := ranked_pairwise key l
  rw [← List.take_append_drop n (ranked key l)] at hdesc
  have hle : key y ≤ key x := (List.pairwise_append.mp hdesc).2.2 x hwithin y hbeyond
  refine lt_of_le_of_ne hle fun heq => hdropped ?_
  rwa [eq_of_key_eq hkeys hy hxl heq]

/-! ## 3. The top of a list -/

/-- The top `n` of a ranking cut at a place from `n` on. -/
theorem take_top {m n : ℕ} (h : n ≤ m) : (top key m l).take n = top key n l := by
  simp [top, List.take_take, h]

/-- An insertion into a list, cut at place `n`, looks at the first `n` places of the list only. -/
theorem take_orderedInsert (r : α → α → Prop) [DecidableRel r] (x : α) :
    ∀ (n : ℕ) (l : List α),
      (l.orderedInsert r x).take n = ((l.take n).orderedInsert r x).take n
  | 0, l => rfl
  | n + 1, [] => rfl
  | n + 1, b :: l => by
    simp only [List.take_succ_cons, List.orderedInsert_cons]
    split
    · cases n <;> simp [List.take_take]
    · simp only [List.take_succ_cons]
      rw [take_orderedInsert r x n l]

/-- Lists of one top have one top after the same entry is appended to both. -/
theorem top_append_singleton {x : α} {n : ℕ} (hl : ((l ++ [x]).map key).Nodup)
    (hl' : ((l' ++ [x]).map key).Nodup) (h : top key n l = top key n l') :
    top key n (l ++ [x]) = top key n (l' ++ [x]) := by
  unfold top at h ⊢
  rw [ranked_append_singleton hl, ranked_append_singleton hl', take_orderedInsert, h,
    ← take_orderedInsert]

/-! ## 4. Times and ids -/

section Times
variable {β τ : Type} [LinearOrder τ] {time : β → τ} {l : List (ℕ × β)} {x : ℕ × β}

/-- An insertion looks at the new entry's place before the others only. -/
theorem map_orderedInsert_of_iff {r : α → α → Prop} {s : β → β → Prop} [DecidableRel r]
    [DecidableRel s] (f : α → β) {x : α} : ∀ {l : List α}, (∀ a ∈ l, r x a ↔ s (f x) (f a)) →
    (l.orderedInsert r x).map f = (l.map f).orderedInsert s (f x)
  | [], _ => rfl
  | a :: l, h => by
    obtain ⟨ha, hl⟩ := List.forall_mem_cons.mp h
    rw [List.orderedInsert_cons, List.map_cons, List.orderedInsert_cons]
    by_cases hr : r x a
    · rw [if_pos hr, if_pos (ha.mp hr), List.map_cons, List.map_cons]
    · rw [if_neg hr, if_neg fun hs => hr (ha.mpr hs), List.map_cons, map_orderedInsert_of_iff f hl]

/-- Ranked by time and then by id, an entry with a new id is placed before those of the same time. -/
theorem map_snd_ranked_append (hids : ∀ y ∈ l, y.1 < x.1)
    (hkeys : ((l ++ [x]).map fun y => toLex (time y.2, y.1)).Nodup) :
    (ranked (fun y : ℕ × β => toLex (time y.2, y.1)) (l ++ [x])).map (·.2) =
      ((ranked (fun y : ℕ × β => toLex (time y.2, y.1)) l).map (·.2)).orderedInsert
        (fun a b => time b ≤ time a) x.2 := by
  rw [ranked_append_singleton hkeys]
  refine map_orderedInsert_of_iff Prod.snd fun y hy => ?_
  have hid : y.1 ≤ x.1 := Nat.le_of_lt (hids y (mem_ranked.mp hy))
  rw [Prod.Lex.toLex_le_toLex']
  exact ⟨And.left, fun htime => ⟨htime, fun _ => hid⟩⟩

end Times

end Ranking
