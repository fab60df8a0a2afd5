import Mathlib.Tactic.Common

/-!
# Guarded runs of a partial step function

`step s a` is the state after action `a`, or `none` when `a` is not enabled in `s`. `Reach` collects
the states of the runs from `start` in which every step `(s, a)` satisfies `ok`: an `ok` that always
holds gives the reachable states, a stronger one restricts the schedules.

* `Reach.invariant`: what holds at the start and is kept by every admitted step holds throughout.
* `Inevitable.of_rank`, `Inevitable.bind`: what every run comes to.
* `exists_reach_of_run`: an executed list of actions is a run.
-/

namespace Steps

variable {σ α : Type} {step : σ → α → Option σ} {ok : σ → α → Prop} {start s : σ}

/-- The states of the runs from `start` whose steps all satisfy `ok`. -/
inductive Reach (step : σ → α → Option σ) (ok : σ → α → Prop) (start : σ) : σ → Prop
  | start : Reach step ok start start
  | step {s s' : σ} {a : α} : Reach step ok start s → ok s a → step s a = some s' →
      Reach step ok start s'

/-- The invariant rule. -/
theorem Reach.invariant {I : σ → Prop} (hs : Reach step ok start s) (hstart : I start)
    (hstep : ∀ s a s', I s → ok s a → step s a = some s' → I s') : I s := by
  induction hs with
  | start => exact hstart
  | step _ hok hs ih => exact hstep _ _ _ ih hok hs

/-- Every run from the state gets to `P`: until then there is a next step, and no run goes on for
ever. -/
inductive Inevitable (step : σ → α → Option σ) (P : σ → Prop) : σ → Prop
  | here {s : σ} : P s → Inevitable step P s
  | next {s : σ} : (∃ a s', step s a = some s') →
      (∀ a s', step s a = some s' → Inevitable step P s') → Inevitable step P s

/-- The ranking rule. -/
theorem Inevitable.of_rank {I P : σ → Prop} (rank : σ → ℕ)
    (hnext : ∀ s, I s → ¬ P s → ∃ a s', step s a = some s')
    (hstep : ∀ s a s', I s → ¬ P s → step s a = some s' → P s' ∨ I s' ∧ rank s' < rank s)
    (hs : I s) : Inevitable step P s := by
  induction hrank : rank s using Nat.strongRecOn generalizing s with
  | _ n ih =>
    subst hrank
    by_cases hP : P s
    · exact .here hP
    · refine .next (hnext s hs hP) fun a s' h => ?_
      rcases hstep s a s' hs hP h with hP' | ⟨hI, hlt⟩
      · exact .here hP'
      · exact ih _ hlt hI rfl

/-- What is inevitable from wherever the run inevitably gets to, is inevitable. -/
theorem Inevitable.bind {P Q : σ → Prop} (h : Inevitable step P s)
    (hnext : ∀ s, P s → Inevitable step Q s) : Inevitable step Q s := by
  induction h with
  | here hP => exact hnext _ hP
  | next henabled _ ih => exact .next henabled ih

/-- An invariant holds where the run gets to. -/
theorem Inevitable.with_invariant {I P : σ → Prop} (h : Inevitable step P s) (hs : I s)
    (hstep : ∀ s a s', I s → step s a = some s' → I s') : Inevitable step (fun s => P s ∧ I s) s := by
  induction h with
  | here hP => exact .here ⟨hP, hs⟩
  | next henabled _ ih =>
    exact .next henabled fun a s' ha => ih a s' ha (hstep _ a s' hs ha)

section Run
variable [∀ s a, Decidable (ok s a)]

/-- Execute a list of actions; `none` when one of them is not enabled, or not admitted. -/
def run (step : σ → α → Option σ) (ok : σ → α → Prop) [∀ s a, Decidable (ok s a)] :
    σ → List α → Option σ
  | s, [] => some s
  | s, a :: as => if ok s a then (step s a).bind fun s' => run step ok s' as else none

theorem reach_of_run {s' : σ} : ∀ {as : List α} {s : σ}, Reach step ok start s →
    run step ok s as = some s' → Reach step ok start s'
  | [], _, hs, h => by
    cases h
    exact hs
  | _ :: _, _, hs, h => by
    unfold run at h
    split at h
    · next hok =>
      obtain ⟨s₁, hs₁, hrest⟩ := Option.bind_eq_some_iff.mp h
      exact reach_of_run (hs.step hok hs₁) hrest
    · cases h

/-- A state with a decidable property is reached when executing a list of actions ends in one. -/
theorem exists_reach_of_run {P : σ → Prop} [DecidablePred P] (as : List α)
    (h : (run step ok start as).any P = true) : ∃ s, Reach step ok start s ∧ P s := by
  obtain ⟨s, hs, hP⟩ := (Option.any_eq_true _ _).mp h
  exact ⟨s, reach_of_run .start hs, of_decide_eq_true hP⟩

end Run

end Steps
