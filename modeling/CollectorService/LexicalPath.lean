import Mathlib.Tactic.Common

/-!
# Lexical normal forms of paths

A path is a list of parts, one of which (`up`) leads to the parent. Normalizing it cancels each `up`
against the part before it; what cannot be cancelled stays in front of a relative path, and is dropped
from an absolute one.

* `normal_append_of_stays`: parts that never lead above their start extend the normal form of any
  directory.
* `notMem_normal_of_not_stays`: other parts lead out of a directory, and do not come back to one
  whose name they do not hold.
-/

namespace LexicalPath

variable {α : Type*} [DecidableEq α]

/-- One part of a path, met in a directory. The directory is given with its innermost part first. -/
def enter (up : α) (absolute : Bool) (stack : List α) (part : α) : List α :=
  if part = up then
    match stack with
    | [] => if absolute then [] else [up]
    | top :: below => if top = up then up :: top :: below else below
  else part :: stack

def normal (up : α) (absolute : Bool) (parts : List α) : List α :=
  (parts.foldl (enter up absolute) []).reverse

/-- From `depth` parts below its start, a path never leads above it. -/
def Stays (up : α) : ℕ → List α → Prop
  | _, [] => True
  | depth, part :: parts =>
    if part = up then 0 < depth ∧ Stays up (depth - 1) parts else Stays up (depth + 1) parts

instance decidableStays (up : α) : (depth : ℕ) → (parts : List α) → Decidable (Stays up depth parts)
  | _, [] => .isTrue trivial
  | depth, part :: parts =>
    have := decidableStays up (depth - 1) parts
    have := decidableStays up (depth + 1) parts
    inferInstanceAs (Decidable
      (if part = up then 0 < depth ∧ Stays up (depth - 1) parts else Stays up (depth + 1) parts))

section Enter
variable {up part top x : α} {absolute : Bool} {stack below : List α}

theorem enter_of_ne (h : part ≠ up) : enter up absolute stack part = part :: stack := if_neg h

theorem enter_up (h : top ≠ up) : enter up absolute (top :: below) up = below := by
  simp [enter, h]

theorem mem_enter (h : x ∈ enter up absolute stack part) : x = part ∨ x = up ∨ x ∈ stack := by
  unfold enter at h
  split at h
  · split at h
    · split at h
      · cases h
      · exact .inr (.inl (List.mem_singleton.mp h))
    · split at h
      · exact .inr (List.mem_cons.mp h)
      · exact .inr (.inr (List.mem_cons_of_mem _ h))
  · exact (List.mem_cons.mp h).imp_right .inr

end Enter

section Stays
variable {up mark : α} {absolute : Bool} {directory parts rest stack : List α} {depth : ℕ}

theorem stays_cons_of_ne {part : α} (h : part ≠ up) :
    Stays up depth (part :: parts) ↔ Stays up (depth + 1) parts := by
  rw [Stays, if_neg h]

theorem stays_cons_up : Stays up depth (up :: parts) ↔ 0 < depth ∧ Stays up (depth - 1) parts := by
  rw [Stays, if_pos rfl]

/-- A last part that does not lead up is all one. -/
theorem stays_concat {part : α} (h : part ≠ up) :
    Stays up depth (parts ++ [part]) ↔ Stays up depth parts := by
  induction parts generalizing depth with
  | nil => exact stays_cons_of_ne h
  | cons first parts ih =>
    rw [List.cons_append]
    by_cases hfirst : first = up
    · subst hfirst
      rw [stays_cons_up, stays_cons_up, ih]
    · rw [stays_cons_of_ne hfirst, stays_cons_of_ne hfirst, ih]

/-- What is cancelled has been entered before. -/
theorem foldl_of_stays (h : Stays up rest.length parts) (hrest : up ∉ rest) :
    ∃ rest', up ∉ rest' ∧ parts.foldl (enter up absolute) (rest ++ stack) = rest' ++ stack := by
  induction parts generalizing rest with
  | nil => exact ⟨rest, hrest, rfl⟩
  | cons part parts ih =>
    rw [List.foldl_cons]
    by_cases hup : part = up
    · subst hup
      obtain ⟨hdepth, hstays⟩ := stays_cons_up.mp h
      obtain ⟨top, below, rfl⟩ := List.exists_cons_of_length_pos hdepth
      -- it cancels the part that was entered last
      obtain ⟨htop, hbelow⟩ := List.ne_and_not_mem_of_not_mem_cons hrest
      rw [List.cons_append, enter_up (Ne.symm htop)]
      exact ih hstays hbelow
    · rw [enter_of_ne hup, ← List.cons_append]
      exact ih ((stays_cons_of_ne hup).mp h) fun hmem =>
        (List.mem_cons.mp hmem).elim (fun heq => hup heq.symm) hrest

/-- Parts that never lead above their start extend every directory, and add no `up`. -/
theorem normal_append_of_stays (h : Stays up 0 parts) (directory : List α) :
    ∃ rest, up ∉ rest ∧
      normal up absolute (directory ++ parts) = normal up absolute directory ++ rest := by
  obtain ⟨rest, hrest, hfold⟩ := @foldl_of_stays _ _ up absolute parts []
    (directory.foldl (enter up absolute) []) h List.not_mem_nil
  refine ⟨rest.reverse, by simpa using hrest, ?_⟩
  rw [normal, List.foldl_append, ← List.nil_append (directory.foldl _ _), hfold, List.reverse_append,
    normal]

theorem notMem_foldl (hup : mark ≠ up) (hparts : mark ∉ parts) (hstack : mark ∉ stack) :
    mark ∉ parts.foldl (enter up absolute) stack := by
  induction parts generalizing stack with
  | nil => exact hstack
  | cons part parts ih =>
    obtain ⟨hpart, hrest⟩ := List.ne_and_not_mem_of_not_mem_cons hparts
    refine ih hrest fun hmem => ?_
    rcases mem_enter hmem with heq | heq | hmem
    · exact hpart heq
    · exact hup heq
    · exact hstack hmem

/-- A path that leads above its start takes the directory away. -/
theorem notMem_foldl_of_not_stays (hup : mark ≠ up) (hparts : mark ∉ parts)
    (h : ¬ Stays up rest.length parts) (hrest : up ∉ rest) :
    mark ∉ parts.foldl (enter up absolute) (rest ++ [mark]) := by
  induction parts generalizing rest with
  | nil => exact absurd trivial h
  | cons part parts ih =>
    obtain ⟨hpart, hmark⟩ := List.ne_and_not_mem_of_not_mem_cons hparts
    rw [List.foldl_cons]
    by_cases heq : part = up
    · subst heq
      rw [stays_cons_up] at h
      cases rest with
      | nil =>
        -- it cancels the directory, and no part brings it back
        rw [List.nil_append, enter_up hup]
        exact notMem_foldl hup hmark List.not_mem_nil
      | cons top below =>
        obtain ⟨htop, hbelow⟩ := List.ne_and_not_mem_of_not_mem_cons hrest
        rw [List.cons_append, enter_up (Ne.symm htop)]
        exact ih hmark (fun hstays => h ⟨Nat.succ_pos _, hstays⟩) hbelow
    · rw [enter_of_ne heq, ← List.cons_append]
      exact ih hmark (fun hstays => h ((stays_cons_of_ne heq).mpr hstays)) fun hmem =>
        (List.mem_cons.mp hmem).elim (fun h => heq h.symm) hrest

/-- Parts that lead above their start lead out of a directory whose name they do not hold. -/
theorem notMem_normal_of_not_stays (hup : mark ≠ up) (hparts : mark ∉ parts)
    (h : ¬ Stays up 0 parts) : mark ∉ normal up absolute (mark :: parts) := by
  have hfold := @notMem_foldl_of_not_stays _ _ up mark absolute parts [] hup hparts h List.not_mem_nil
  rwa [normal, List.mem_reverse, List.foldl_cons, enter_of_ne hup]

end Stays

end LexicalPath
