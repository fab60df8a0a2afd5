import Mathlib.Tactic.Common

/-!
# Triples for computations with state and exceptions

`Ends P m Q E`: from a state with `P`, the computation `m` ends in a state that `Q` admits for the
value it returns, or `E` for the exception it throws. The state is not restored when an exception is
thrown, so `E` speaks of what had been done by then.

* `Ends.bind`, `Ends.tryCatch`: the rules for sequences and for handlers.
-/

namespace Hoare

variable {ε σ α β : Type} {P P' : σ → Prop} {Q Q' : α → σ → Prop} {E E' : ε → σ → Prop}

/-- From `P`, the computation ends in `Q`, or throws and ends in `E`. -/
def Ends (P : σ → Prop) (m : EStateM ε σ α) (Q : α → σ → Prop) (E : ε → σ → Prop) : Prop :=
  ∀ s, P s → match m s with
    | .ok a s' => Q a s'
    | .error e s' => E e s'

theorem bind_eq_ok {m : EStateM ε σ α} {f : α → EStateM ε σ β} {s s' : σ} {b : β} :
    (m >>= f) s = .ok b s' ↔ ∃ a s₁, m s = .ok a s₁ ∧ f a s₁ = .ok b s' := by
  show EStateM.bind m f s = _ ↔ _
  unfold EStateM.bind
  cases m s with
  | ok a s₁ => simp
  | error e s₁ => simp

theorem bind_eq_error {m : EStateM ε σ α} {f : α → EStateM ε σ β} {s s' : σ} {e : ε} :
    (m >>= f) s = .error e s' ↔
      m s = .error e s' ∨ ∃ a s₁, m s = .ok a s₁ ∧ f a s₁ = .error e s' := by
  show EStateM.bind m f s = _ ↔ _
  unfold EStateM.bind
  cases m s with
  | ok a s₁ => simp
  | error e s₁ => simp

section TryCatch
variable {m : EStateM ε σ α} {h : ε → EStateM ε σ α} {s s' : σ}

theorem tryCatch_ok {a : α} (hm : m s = .ok a s') : tryCatch m h s = .ok a s' := by
  show EStateM.tryCatch m h s = _
  rw [EStateM.tryCatch, hm]

theorem tryCatch_error {e : ε} (hm : m s = .error e s') : tryCatch m h s = h e s' := by
  show EStateM.tryCatch m h s = _
  rw [EStateM.tryCatch, hm]
  rfl

end TryCatch

namespace Ends

variable {m : EStateM ε σ α} {f : α → EStateM ε σ β} {R : β → σ → Prop}

theorem pure {a : α} (h : ∀ s, P s → Q a s) : Ends P (pure a) Q E := h

theorem throw {e : ε} (h : ∀ s, P s → E e s) : Ends P (throw e : EStateM ε σ α) Q E := h

theorem modify {g : σ → σ} {Q : PUnit → σ → Prop} (h : ∀ s, P s → Q ⟨⟩ (g s)) :
    Ends P (modify g) Q E := h

theorem get {Q : σ → σ → Prop} (h : ∀ s, P s → Q s s) : Ends P get Q E := h

theorem bind (hm : Ends P m Q E) (hf : ∀ a, Ends (Q a) (f a) R E) : Ends P (m >>= f) R E := by
  intro s hs
  have hm' := hm s hs
  show match EStateM.bind m f s with
    | .ok a s' => R a s'
    | .error e s' => E e s'
  unfold EStateM.bind
  cases hrun : m s with
  | ok a s' =>
    rw [hrun] at hm'
    exact hf a s' hm'
  | error e s' =>
    rw [hrun] at hm'
    exact hm'

theorem tryCatch {h : ε → EStateM ε σ α} (hm : Ends P m Q E') (hh : ∀ e, Ends (E' e) (h e) Q E) :
    Ends P (tryCatch m h) Q E := by
  intro s hs
  have hm' := hm s hs
  show match EStateM.tryCatch m h s with
    | .ok a s' => Q a s'
    | .error e s' => E e s'
  unfold EStateM.tryCatch
  cases hrun : m s with
  | ok a s' =>
    rw [hrun] at hm'
    exact hm'
  | error e s' =>
    rw [hrun] at hm'
    exact hh e s' hm'

/-- What would come after an exception does not matter. -/
theorem throw_bind {e : ε} (h : ∀ s, P s → E e s) :
    Ends P ((MonadExcept.throw e : EStateM ε σ α) >>= f) R E := h

/-- A fact that does not depend on the state. -/
theorem given {p : Prop} (h : p → Ends P m Q E) : Ends (fun s => p ∧ P s) m Q E :=
  fun s hs => h hs.1 s hs.2

theorem weaken (h : Ends P' m Q' E') (hP : ∀ s, P s → P' s) (hQ : ∀ a s, Q' a s → Q a s)
    (hE : ∀ e s, E' e s → E e s) : Ends P m Q E := by
  intro s hs
  have hm := h s (hP s hs)
  cases hrun : m s with
  | ok a s' =>
    rw [hrun] at hm
    exact hQ a s' hm
  | error e s' =>
    rw [hrun] at hm
    exact hE e s' hm

end Ends

end Hoare
