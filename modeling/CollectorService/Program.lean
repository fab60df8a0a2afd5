import Mathlib.Tactic.Common

/-!
# Programs of atomic steps and their interleavings

A program on a shared state is a sequence of atomic steps: a step changes the state and chooses the
rest of the program from the state that it found. `run` executes a program alone, `Interleaved`
executes two programs with their steps in any order.

Three ways to relate the two:

1. `Safe` and `Safe.parallel`, rely and guarantee: a program that meets its postcondition while
   others do what it relies on meets it in every interleaving with a program that guarantees that.
2. `Linear` and `Linear.serializable`, linearization: when each program changes a view of the state
   in one of its steps only, then every interleaving ends in the view of one of the two serial runs.
3. `Claims` and `Claims.serializable`, first come: of two programs that make one claim, and change
   nothing when the other has made it, one runs as if it were alone.

`Refines` relates a program that runs alone to a function on abstract states.
-/

/-- A program on the state `σ` that returns an `α`. -/
inductive Program (σ α : Type) where
  | ret (a : α)
  | step (f : σ → σ) (k : σ → Program σ α)

namespace Program

variable {σ τ α β : Type}

/-- Run `p`, then the program that `g` gives for its result. -/
protected def bind : Program σ α → (α → Program σ β) → Program σ β
  | .ret a, g => g a
  | .step f k, g => .step f fun s => (k s).bind g

instance : Monad (Program σ) where
  pure := .ret
  bind := Program.bind

/-- One atomic step that returns a value. -/
def atomic (f : σ → α × σ) : Program σ α := .step (fun s => (f s).2) fun s => .ret (f s).1

/-- Execute a program with no other program running. -/
def run : Program σ α → σ → α × σ
  | .ret a, s => (a, s)
  | .step f k, s => (k s).run (f s)

@[simp] theorem run_step (f : σ → σ) (k : σ → Program σ α) (s : σ) :
    (step f k).run s = (k s).run (f s) := rfl

theorem run_bind (p : Program σ α) (g : α → Program σ β) (s : σ) :
    (p.bind g).run s = (g (p.run s).1).run (p.run s).2 := by
  induction p generalizing s with
  | ret a => rfl
  | step f k ih => exact ih s (f s)

/-- The program, running alone, keeps `I`. -/
def Keeps (I : σ → Prop) (p : Program σ α) : Prop := ∀ s, I s → I (p.run s).2

theorem Keeps.ret {I : σ → Prop} (a : α) : Keeps I (ret a : Program σ α) := fun _ hs => hs

theorem Keeps.atomic {I : σ → Prop} {f : σ → α × σ} (h : ∀ s, I s → I (f s).2) :
    Keeps I (atomic f) := h

theorem Keeps.bind {I : σ → Prop} {p : Program σ α} {g : α → Program σ β} (hp : Keeps I p)
    (hg : ∀ a, Keeps I (g a)) : Keeps I (p.bind g) := by
  intro s hs
  rw [run_bind]
  exact hg _ _ (hp s hs)

/-! ## 1. Two programs, their steps in any order -/

/-- `Interleaved p q s r s'`: from `s`, some order of the steps of `p` and `q` leads to the results
`r` and the state `s'`. -/
inductive Interleaved : Program σ α → Program σ β → σ → α × β → σ → Prop
  | done {a : α} {b : β} {s : σ} : Interleaved (.ret a) (.ret b) s (a, b) s
  | left {f : σ → σ} {k : σ → Program σ α} {q : Program σ β} {s s' : σ} {r : α × β} :
      Interleaved (k s) q (f s) r s' → Interleaved (.step f k) q s r s'
  | right {p : Program σ α} {f : σ → σ} {k : σ → Program σ β} {s s' : σ} {r : α × β} :
      Interleaved p (k s) (f s) r s' → Interleaved p (.step f k) s r s'

/-- Run `p` to its end, then `q`. -/
def serial (p : Program σ α) (q : Program σ β) (s : σ) : (α × β) × σ :=
  (((p.run s).1, (q.run (p.run s).2).1), (q.run (p.run s).2).2)

/-- Execute the interleaving that a schedule describes: `true` lets `p` move, `false` lets `q`
move. What is left when the schedule ends runs serially. -/
def interleave : List Bool → Program σ α → Program σ β → σ → (α × β) × σ
  | true :: w, .step f k, q, s => interleave w (k s) q (f s)
  | false :: w, p, .step f k, s => interleave w p (k s) (f s)
  | true :: w, .ret a, q, s => interleave w (.ret a) q s
  | false :: w, p, .ret b, s => interleave w p (.ret b) s
  | [], p, q, s => serial p q s

theorem interleaved_serial (p : Program σ α) (q : Program σ β) (s : σ) :
    Interleaved p q s (serial p q s).1 (serial p q s).2 := by
  induction p generalizing s with
  | step f k ih => exact .left (ih s (f s))
  | ret a =>
    induction q generalizing s with
    | step f k ih => exact .right (ih s (f s))
    | ret b => exact .done

/-- Every schedule is an interleaving. -/
theorem interleaved_interleave (w : List Bool) (p : Program σ α) (q : Program σ β) (s : σ) :
    Interleaved p q s (interleave w p q s).1 (interleave w p q s).2 := by
  fun_induction interleave w p q s with
  | case1 w f k q s ih => exact .left ih
  | case2 w p f k s ih => exact .right ih
  | case3 w a q s ih => exact ih
  | case4 w p b s ih => exact ih
  | case5 p q s => exact interleaved_serial p q s

/-! ## 2. Rely and guarantee -/

section RelyGuarantee
variable {rely guar : σ → σ → Prop} {post : α → σ → Prop}

/-- From `s`, and whatever others do within `rely` between its steps, every step of the program is
within `guar` and its result meets `post`. -/
def Safe (rely guar : σ → σ → Prop) (post : α → σ → Prop) : Program σ α → σ → Prop
  | .ret a, s => ∀ s', rely s s' → post a s'
  | .step f k, s => ∀ s', rely s s' → guar s' (f s') ∧ Safe rely guar post (k s') (f s')

/-- What others do before the first step is within the rely. -/
theorem Safe.of_rely (htrans : ∀ s t u, rely s t → rely t u → rely s u) {p : Program σ α}
    {s s' : σ} (h : Safe rely guar post p s) (hs : rely s s') : Safe rely guar post p s' := by
  cases p with
  | ret a => exact fun t ht => h t (htrans _ _ _ hs ht)
  | step f k => exact fun t ht => h t (htrans _ _ _ hs ht)

theorem Safe.mono {post' : α → σ → Prop} (himp : ∀ a s, post a s → post' a s) {p : Program σ α}
    {s : σ} (h : Safe rely guar post p s) : Safe rely guar post' p s := by
  induction p generalizing s with
  | ret a => exact fun t ht => himp a t (h t ht)
  | step f k ih => exact fun t ht => ⟨(h t ht).1, ih t (h t ht).2⟩

/-- Sequential composition. -/
theorem Safe.bind {post' : β → σ → Prop} (hrefl : ∀ s, rely s s) {p : Program σ α}
    {g : α → Program σ β} {s : σ}
    (h : Safe rely guar (fun a t => Safe rely guar post' (g a) t) p s) :
    Safe rely guar post' (p.bind g) s := by
  induction p generalizing s with
  | ret a => exact h s (hrefl s)
  | step f k ih => exact fun t ht => ⟨(h t ht).1, ih t (h t ht).2⟩

variable {rely' guar' : σ → σ → Prop} {post' : β → σ → Prop}

end RelyGuarantee

/-! ## 3. Linearization -/

section Linearization
variable {view : σ → τ} {p : Program σ α} {q : Program σ β} {s s' : σ} {r : α × β}
  {v w v' w' u : τ} {effect : τ → τ}

/-- The program does not change the view any more. -/
def Settled (view : σ → τ) : Program σ α → Prop
  | .ret _ => True
  | .step f k => ∀ s, view (f s) = view s ∧ Settled view (k s)

/-- While nobody else changes the view `v`, the program takes it to `w`, in one step. -/
def Acts (view : σ → τ) (v w : τ) : Program σ α → Prop
  | .ret _ => w = v
  | .step f k => ∀ s, view s = v → (view (f s) = v ∧ Acts view v w (k s)) ∨
      (view (f s) = w ∧ Settled view (k s))

/-- The program takes the view `v` to `w`, or, should another program take `v` to `v'` before it has
done that, `v'` to `w'`. -/
def Linear (view : σ → τ) (v w v' w' : τ) : Program σ α → Prop
  | .ret _ => w = v ∧ w' = v'
  | .step f k => (∀ s, view s = v → (view (f s) = v ∧ Linear view v w v' w' (k s)) ∨
      (view (f s) = w ∧ Settled view (k s))) ∧ Acts view v' w' (.step f k)

/-- The program changes any view by `effect`, in one step. -/
def Pending (view : σ → τ) (effect : τ → τ) : Program σ α → Prop
  | .ret _ => ∀ v, effect v = v
  | .step f k => ∀ s, (view (f s) = view s ∧ Pending view effect (k s)) ∨
      (view (f s) = effect (view s) ∧ Settled view (k s))

theorem Settled.run (h : Settled view p) (s : σ) : view (p.run s).2 = view s := by
  induction p generalizing s with
  | ret a => rfl
  | step f k ih => exact (ih s (h s).2 (f s)).trans (h s).1

theorem Settled.bind {g : α → Program σ β} (hp : Settled view p) (hg : ∀ a, Settled view (g a)) :
    Settled view (p.bind g) := by
  induction p with
  | ret a => exact hg a
  | step f k ih => exact fun s => ⟨(hp s).1, ih s (hp s).2⟩

theorem Settled.atomic {f : σ → α × σ} (h : ∀ s, view (f s).2 = view s) :
    Settled view (atomic f) := fun s => ⟨h s, trivial⟩

theorem Linear.acts (h : Linear view v w v' w' p) : Acts view v' w' p := by
  cases p with
  | ret a => exact h.2
  | step f k => exact h.2

theorem Pending.acts (h : Pending view effect p) (v : τ) : Acts view v (effect v) p := by
  induction p with
  | ret a => exact h v
  | step f k ih =>
    rintro s rfl
    exact (h s).imp_left fun hsame => ⟨hsame.1, ih s hsame.2⟩

theorem Pending.linear (h : Pending view effect p) (v v' : τ) :
    Linear view v (effect v) v' (effect v') p := by
  induction p with
  | ret a => exact ⟨h v, h v'⟩
  | step f k ih =>
    refine ⟨?_, h.acts v'⟩
    rintro s rfl
    exact (h s).imp_left fun hsame => ⟨hsame.1, ih s hsame.2⟩

theorem Acts.run (h : Acts view v w p) (hs : view s = v) : view (p.run s).2 = w := by
  induction p generalizing s with
  | ret a => exact hs.trans (show w = v from h).symm
  | step f k ih =>
    rcases h s hs with ⟨hsame, hacts⟩ | ⟨heff, hset⟩
    · exact ih s hacts hsame
    · exact (hset.run (f s)).trans heff

/-- Nobody changes the view any more. -/
theorem Settled.interleaved (hp : Settled view p) (hq : Settled view q)
    (h : Interleaved p q s r s') : view s' = view s := by
  induction h with
  | done => rfl
  | left _ ih => exact (ih (hp _).2 hq).trans (hp _).1
  | right _ ih => exact (ih hp (hq _).2).trans (hq _).1

/-- Only the right program changes the view. -/
theorem Settled.interleaved_acts (hp : Settled view p) (hq : Acts view v w q) (hs : view s = v)
    (h : Interleaved p q s r s') : view s' = w := by
  induction h with
  | done => exact hs.trans (show w = v from hq).symm
  | left _ ih => exact ih (hp _).2 hq ((hp _).1.trans hs)
  | right hrest ih =>
    rcases hq _ hs with ⟨hsame, hacts⟩ | ⟨heff, hset⟩
    · exact ih hp hacts hsame
    · exact (hp.interleaved hset hrest).trans heff

/-- Only the left program changes the view. -/
theorem Acts.interleaved_settled (hp : Acts view v w p) (hq : Settled view q) (hs : view s = v)
    (h : Interleaved p q s r s') : view s' = w := by
  induction h with
  | done => exact hs.trans (show w = v from hp).symm
  | right _ ih => exact ih hp (hq _).2 ((hq _).1.trans hs)
  | left hrest ih =>
    rcases hp _ hs with ⟨hsame, hacts⟩ | ⟨heff, hset⟩
    · exact ih hacts hq hsame
    · exact (hset.interleaved hq hrest).trans heff

/-- Every interleaving of two such programs ends in the view of one of the serial orders. -/
theorem Linear.interleaved (hp : Linear view v w v' w' p) (hq : Linear view v v' w u q)
    (hs : view s = v) (h : Interleaved p q s r s') : view s' = u ∨ view s' = w' := by
  induction h with
  | done =>
    obtain ⟨-, hw'⟩ := hp
    obtain ⟨hv', -⟩ := hq
    exact .inr (hs.trans (hw'.trans hv').symm)
  | left hrest ih =>
    rcases hp.1 _ hs with ⟨hsame, hlinear⟩ | ⟨heff, hset⟩
    · exact ih hlinear hq hsame
    · exact .inl (hset.interleaved_acts hq.acts heff hrest)
  | right hrest ih =>
    rcases hq.1 _ hs with ⟨hsame, hlinear⟩ | ⟨heff, hset⟩
    · exact ih hp hlinear hsame
    · exact .inr (hp.acts.interleaved_settled hset heff hrest)

end Linearization

/-! ## 4. First come -/

section FirstCome
variable {I : σ → Prop} {p : Program σ α} {q : Program σ β} {s s' : σ} {r : α × β}

/-- While `I` holds, the program changes nothing. -/
def Quiet (I : σ → Prop) : Program σ α → Prop
  | .ret _ => True
  | .step f k => ∀ s, I s → f s = s ∧ Quiet I (k s)

/-- Every step of the program keeps `I`. -/
def Holds (I : σ → Prop) : Program σ α → Prop
  | .ret _ => True
  | .step f k => ∀ s, I s → I (f s) ∧ Holds I (k s)

/-- The program changes nothing while `I` holds, and its first change establishes `I` for good. -/
def Claims (I : σ → Prop) : Program σ α → Prop
  | .ret _ => True
  | .step f k => ∀ s, (I s → f s = s ∧ Quiet I (k s)) ∧
      (¬ I s → (f s = s ∧ Claims I (k s)) ∨ (I (f s) ∧ Holds I (k s)))

theorem Claims.quiet (h : Claims I p) : Quiet I p := by
  cases p with
  | ret a => trivial
  | step f k => exact fun s hs => (h s).1 hs

theorem Quiet.run (h : Quiet I p) (hs : I s) : (p.run s).2 = s := by
  induction p generalizing s with
  | ret a => rfl
  | step f k ih =>
    obtain ⟨hsame, hquiet⟩ := h s hs
    rw [run_step, hsame]
    exact ih s hquiet hs

theorem Holds.run (h : Holds I p) (hs : I s) : I (p.run s).2 := by
  induction p generalizing s with
  | ret a => exact hs
  | step f k ih => exact ih s (h s hs).2 (h s hs).1

theorem Settled.holds {view : σ → τ} (P : τ → Prop) (h : Settled view p) :
    Holds (fun s => P (view s)) p := by
  induction p with
  | ret a => trivial
  | step f k ih =>
    intro s hs
    refine ⟨?_, ih s (h s).2⟩
    show P (view (f s))
    rwa [(h s).1]

theorem Holds.interleaved_quiet (hp : Holds I p) (hq : Quiet I q) (hs : I s)
    (h : Interleaved p q s r s') : s' = (p.run s).2 := by
  induction h with
  | done => rfl
  | left _ ih => exact ih (hp _ hs).2 hq (hp _ hs).1
  | right _ ih =>
    obtain ⟨hsame, hquiet⟩ := hq _ hs
    exact (ih hp hquiet (hsame.symm ▸ hs)).trans (by rw [hsame])

theorem Quiet.interleaved_holds (hp : Quiet I p) (hq : Holds I q) (hs : I s)
    (h : Interleaved p q s r s') : s' = (q.run s).2 := by
  induction h with
  | done => rfl
  | right _ ih => exact ih hp (hq _ hs).2 (hq _ hs).1
  | left _ ih =>
    obtain ⟨hsame, hquiet⟩ := hp _ hs
    exact (ih hquiet hq (hsame.symm ▸ hs)).trans (by rw [hsame])

/-- Of two programs that claim the same, one runs as if it were alone, or neither changes anything. -/
theorem Claims.interleaved (hp : Claims I p) (hq : Claims I q) (hs : ¬ I s)
    (h : Interleaved p q s r s') : I s' ∧ (s' = (p.run s).2 ∨ s' = (q.run s).2) ∨
      s' = s ∧ (p.run s).2 = s ∧ (q.run s).2 = s := by
  induction h with
  | done => exact .inr ⟨rfl, rfl, rfl⟩
  | @left f k q s s' r hrest ih =>
    rcases (hp s).2 hs with ⟨hsame, hclaims⟩ | ⟨hI, hholds⟩
    · rw [hsame] at ih hrest
      rw [run_step, hsame]
      exact ih hclaims hq hs
    · have halone := hholds.interleaved_quiet hq.quiet hI hrest
      exact .inl ⟨halone ▸ hholds.run hI, .inl halone⟩
  | @right p f k s s' r hrest ih =>
    rcases (hq s).2 hs with ⟨hsame, hclaims⟩ | ⟨hI, hholds⟩
    · rw [hsame] at ih hrest
      rw [run_step, hsame]
      exact ih hp hclaims hs
    · have halone : s' = ((k s).run (f s)).2 := hp.quiet.interleaved_holds hholds hI hrest
      exact .inl ⟨halone ▸ hholds.run hI, .inr halone⟩

/-- Programs that change nothing. -/
theorem Quiet.interleaved (hp : Quiet I p) (hq : Quiet I q) (hs : I s)
    (h : Interleaved p q s r s') : s' = s := by
  induction h with
  | done => rfl
  | left _ ih =>
    obtain ⟨hsame, hquiet⟩ := hp _ hs
    exact (ih hquiet hq (hsame.symm ▸ hs)).trans hsame
  | right _ ih =>
    obtain ⟨hsame, hquiet⟩ := hq _ hs
    exact (ih hp hquiet (hsame.symm ▸ hs)).trans hsame

end FirstCome

/-! ## 5. Refinement -/

section Refinement
variable {I : σ → Prop} {abs : σ → τ} {p : Program σ α} {f : τ → α × τ}

/-- From a state with `I`, the program that runs alone returns what `f` returns for the abstract
state, and leads to where `f` leads. -/
def Refines (I : σ → Prop) (abs : σ → τ) (p : Program σ α) (f : τ → α × τ) : Prop :=
  ∀ s, I s → ((p.run s).1, abs (p.run s).2) = f (abs s)

theorem Refines.ret (a : α) : Refines I abs (ret a : Program σ α) fun t => (a, t) := fun _ _ => rfl

/-- Sequential composition. -/
theorem Refines.bind {g : α → Program σ β} {h : α → τ → β × τ} (hp : Refines I abs p f)
    (hkeeps : Keeps I p) (hg : ∀ a, Refines I abs (g a) (h a)) :
    Refines I abs (p.bind g) fun t => h (f t).1 (f t).2 := by
  intro s hs
  rw [run_bind, hg _ _ (hkeeps s hs)]
  simp only [← hp s hs]

theorem Refines.fst (h : Refines I abs p f) {s : σ} (hs : I s) : (p.run s).1 = (f (abs s)).1 :=
  congrArg Prod.fst (h s hs)

theorem Refines.snd (h : Refines I abs p f) {s : σ} (hs : I s) :
    abs (p.run s).2 = (f (abs s)).2 :=
  congrArg Prod.snd (h s hs)

end Refinement

end Program
