import CollectorService.WorkerLoop

/-!
# The sleep between two cycles

`sleepUntilNextCycle` from its first turn to its last. A timeline says what each turn reads from the
stop flag, so it covers every moment at which another thread may set it.

* `sleepsFrom_prefix`: a flag that is set cuts the sleeps off, and changes none before.
* `sleepUntilNextCycle_exact`: how long the sleeps are, one by one, altogether and after a request to
  stop.
-/

namespace CollectorService

/-! ## 1. The loop -/

/-- The sleeps that the loop asks for, in milliseconds, from turn `turn` on, when so many milliseconds
have been slept. What is left of the interval goes down with every sleep. -/
def sleepsFrom (sampleIntervalMs : ℤ) (timeline : ℕ → Bool) (turn : ℕ) (slept : ℤ) : List ℤ :=
  match h : sleepUntilNextCycle sampleIntervalMs (timeline turn) slept with
  | some slept' => (slept' - slept) :: sleepsFrom sampleIntervalMs timeline (turn + 1) slept'
  | none => []
termination_by (max sampleIntervalMs 100 - slept).toNat
decreasing_by
  obtain ⟨-, hlater, hlt⟩ := WorkerLoop.sleepUntilNextCycle_eq_some h
  omega

/-- The sleeps of one call. -/
def sleeps (sampleIntervalMs : ℤ) (timeline : ℕ → Bool) : List ℤ :=
  sleepsFrom sampleIntervalMs timeline 0 0

section Turns
variable {sampleIntervalMs slept : ℤ} {timeline : ℕ → Bool} {turn n : ℕ}

/-- A turn that finds the flag clear sleeps what is left of the interval, but no more than a step. -/
theorem sleepUntilNextCycle_of_clear (hlt : slept < max sampleIntervalMs 100) :
    sleepUntilNextCycle sampleIntervalMs false slept =
      some (slept + min (max sampleIntervalMs 100 - slept) 100) := by
  simp only [sleepUntilNextCycle, hlt, and_self, if_true, Option.some.injEq]
  split <;> omega

theorem sleepsFrom_of_clear (hclear : timeline turn = false)
    (hlt : slept < max sampleIntervalMs 100) :
    sleepsFrom sampleIntervalMs timeline turn slept =
      min (max sampleIntervalMs 100 - slept) 100 ::
        sleepsFrom sampleIntervalMs timeline (turn + 1)
          (slept + min (max sampleIntervalMs 100 - slept) 100) := by
  have hturn := sleepUntilNextCycle_of_clear hlt
  rw [sleepsFrom]
  split
  · next slept' h =>
    rw [hclear, hturn, Option.some.injEq] at h
    subst h
    rw [add_sub_cancel_left]
  · next h =>
    rw [hclear, hturn] at h
    cases h

theorem sleepsFrom_of_set (hset : timeline turn = true) :
    sleepsFrom sampleIntervalMs timeline turn slept = [] := by
  rw [sleepsFrom]
  split
  · next h =>
    rw [(WorkerLoop.sleepUntilNextCycle_eq_some h).1] at hset
    cases hset
  · rfl

theorem sleepsFrom_of_over (hover : max sampleIntervalMs 100 ≤ slept) :
    sleepsFrom sampleIntervalMs timeline turn slept = [] := by
  rw [sleepsFrom]
  split
  · next h =>
    have hlt := (WorkerLoop.sleepUntilNextCycle_eq_some h).2.2
    omega
  · rfl

/-- The induction along the turns: the last one sleeps no more, and every other one sleeps a step. -/
theorem sleepsFrom_induction {P : ℕ → ℤ → List ℤ → Prop}
    (stop : ∀ turn slept, timeline turn = true ∨ max sampleIntervalMs 100 ≤ slept → P turn slept [])
    (sleep : ∀ turn slept rest, timeline turn = false → slept < max sampleIntervalMs 100 →
      P (turn + 1) (slept + min (max sampleIntervalMs 100 - slept) 100) rest →
      P turn slept (min (max sampleIntervalMs 100 - slept) 100 :: rest)) (turn : ℕ) (slept : ℤ) :
    P turn slept (sleepsFrom sampleIntervalMs timeline turn slept) := by
  induction hrank : (max sampleIntervalMs 100 - slept).toNat using Nat.strongRecOn
    generalizing turn slept with
  | _ rank ih =>
    cases hflag : timeline turn with
    | true =>
      rw [sleepsFrom_of_set hflag]
      exact stop turn slept (.inl hflag)
    | false =>
      by_cases hlt : slept < max sampleIntervalMs 100
      · rw [sleepsFrom_of_clear hflag hlt]
        exact sleep turn slept _ hflag hlt (ih _ (by omega) _ _ rfl)
      · rw [sleepsFrom_of_over (by omega)]
        exact stop turn slept (.inr (by omega))

end Turns

/-! ## 2. The sleeps of a call -/

section Sleeps
variable {sampleIntervalMs slept : ℤ} {timeline : ℕ → Bool} {turn n : ℕ}

/-- Each sleep is at least one millisecond and at most a step. -/
theorem mem_sleepsFrom : ∀ ms ∈ sleepsFrom sampleIntervalMs timeline turn slept,
    1 ≤ ms ∧ ms ≤ 100 := by
  refine sleepsFrom_induction (P := fun _ _ l => ∀ ms ∈ l, 1 ≤ ms ∧ ms ≤ 100) ?_ ?_ turn slept
  · intro turn slept _ ms hms
    cases hms
  · intro turn slept rest _ hlt hrest ms hms
    rcases List.mem_cons.mp hms with rfl | hms
    · omega
    · exact hrest ms hms

/-- With the flag clear throughout, the sleeps fill the interval. -/
theorem sum_sleepsFrom (hclear : ∀ m, timeline m = false)
    (hslept : slept ≤ max sampleIntervalMs 100) :
    (sleepsFrom sampleIntervalMs timeline turn slept).sum = max sampleIntervalMs 100 - slept := by
  refine sleepsFrom_induction (P := fun _ slept l => slept ≤ max sampleIntervalMs 100 →
    l.sum = max sampleIntervalMs 100 - slept) ?_ ?_ turn slept hslept
  · rintro turn slept (hset | hover) hslept
    · rw [hclear] at hset
      cases hset
    · rw [List.sum_nil]
      omega
  · intro turn slept rest _ hlt ih _
    rw [List.sum_cons, ih (by omega)]
    omega

/-- Up to the turn that finds the flag set there is one sleep for each turn. -/
theorem length_sleepsFrom (hset : timeline (turn + n) = true) :
    (sleepsFrom sampleIntervalMs timeline turn slept).length ≤ n := by
  refine sleepsFrom_induction (P := fun turn _ l => ∀ n, timeline (turn + n) = true → l.length ≤ n)
    ?_ ?_ turn slept n hset
  · intro turn slept _ n _
    exact Nat.zero_le n
  · intro turn slept rest hclear _ ih n hset
    cases n with
    | zero =>
      rw [Nat.add_zero, hclear] at hset
      cases hset
    | succ n =>
      rw [List.length_cons]
      exact Nat.succ_le_succ (ih n (by rwa [Nat.add_right_comm, Nat.add_assoc]))

/-- Until it is set, the flag makes no difference. -/
theorem sleepsFrom_prefix (hset : timeline (turn + n) = true)
    (hclear : ∀ m < n, timeline (turn + m) = false) :
    sleepsFrom sampleIntervalMs timeline turn slept =
      (sleepsFrom sampleIntervalMs (fun _ => false) turn slept).take n := by
  induction n generalizing turn slept with
  | zero =>
    rw [Nat.add_zero] at hset
    rw [sleepsFrom_of_set hset, List.take_zero]
  | succ n ih =>
    by_cases hlt : slept < max sampleIntervalMs 100
    · have hnow : timeline turn = false := hclear 0 (Nat.zero_lt_succ n)
      have hset' : timeline (turn + 1 + n) = true := by rwa [Nat.add_right_comm]
      rw [sleepsFrom_of_clear hnow hlt, sleepsFrom_of_clear rfl hlt, List.take_succ_cons,
        ih hset' fun m hm => by rw [Nat.add_right_comm]; exact hclear (m + 1) (Nat.succ_lt_succ hm)]
    · rw [sleepsFrom_of_over (by omega), sleepsFrom_of_over (by omega), List.take_nil]

/-- The turn behind the last sleep leaves the loop. -/
theorem sleepsFrom_leaves : sleepUntilNextCycle sampleIntervalMs
    (timeline (turn + (sleepsFrom sampleIntervalMs timeline turn slept).length))
    (slept + (sleepsFrom sampleIntervalMs timeline turn slept).sum) = none := by
  refine sleepsFrom_induction (P := fun turn slept l =>
    sleepUntilNextCycle sampleIntervalMs (timeline (turn + l.length)) (slept + l.sum) = none)
    ?_ ?_ turn slept
  · rintro turn slept (hset | hover)
    · simp [sleepUntilNextCycle, hset]
    · simp only [sleepUntilNextCycle, List.sum_nil, add_zero]
      rw [if_neg (by omega)]
  · intro turn slept rest _ _ ih
    rw [List.length_cons, List.sum_cons, ← Nat.add_assoc, Nat.add_right_comm, ← add_assoc]
    exact ih

end Sleeps

/-! ## 3. A call of the loop -/

/-- The loop comes to its end for every interval and every timeline. Each of its sleeps is between 1
and 100 milliseconds; while the flag stays clear they come to the interval exactly. There is no sleep
behind a turn that finds the flag set: the sleeps are those of the turns before it, as without the
request, and only the last of them can end behind it. -/
theorem sleepUntilNextCycle_exact (sampleIntervalMs : ℤ) (timeline : ℕ → Bool) :
    let requested := sleeps sampleIntervalMs timeline
    sleepUntilNextCycle sampleIntervalMs (timeline requested.length) requested.sum = none ∧
    (∀ ms ∈ requested, 1 ≤ ms ∧ ms ≤ 100) ∧
    ((∀ n, timeline n = false) → requested.sum = max sampleIntervalMs 100) ∧
    ∀ n, timeline n = true → requested.length ≤ n ∧ (requested.drop (n - 1)).sum ≤ 100 ∧
      ((∀ m < n, timeline m = false) →
        requested = (sleeps sampleIntervalMs fun _ => false).take n) := by
  refine ⟨?_, mem_sleepsFrom, fun hclear => ?_, fun n hset => ?_⟩
  · have hleaves := @sleepsFrom_leaves sampleIntervalMs 0 timeline 0
    rwa [Nat.zero_add, zero_add] at hleaves
  · rw [sleeps, sum_sleepsFrom hclear (by omega), sub_zero]
  · have hlength : (sleeps sampleIntervalMs timeline).length ≤ n :=
      length_sleepsFrom (by rwa [Nat.zero_add])
    refine ⟨hlength, ?_, fun hclear => sleepsFrom_prefix (by rwa [Nat.zero_add]) fun m hm => by
      rw [Nat.zero_add]
      exact hclear m hm⟩
    -- no more than one sleep can end behind the request
    rcases hlast : (sleeps sampleIntervalMs timeline).drop (n - 1) with _ | ⟨ms, _ | ⟨ms', rest⟩⟩
    · decide
    · rw [List.sum_singleton]
      exact (mem_sleepsFrom ms (List.mem_of_mem_drop (hlast ▸ List.mem_singleton_self ms))).2
    · have htwo := congrArg List.length hlast
      rw [List.length_drop, List.length_cons, List.length_cons] at htwo
      omega

end CollectorService
