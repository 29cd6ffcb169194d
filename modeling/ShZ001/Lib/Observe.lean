/-
Observers: a machine paired with a record that every step updates and no
step reads.

# What they are for

What a run has amounted to (how often, how much, since when) is not in
the state of the program that runs. With an observer it becomes part of
the state, so a law about totals can be an invariant, proved by the same
induction as the others.

# Why they may be added

The observer sees the state before the step, the action and the state
after it. Since it never answers `none`, the observed machine runs
exactly as the machine does: an observed step is a step with its
observation (`observe_apply`), and an observed run is a run
(`Reach.fst`), so that what is known of the machine may be used of the
observed one.
-/
import ShZ001.Lib.Machine

namespace ShZ001.Lib.Machine

variable {σ α μ : Type*} {M : Machine σ α} {m₀ : μ}
  {watch : σ → α → σ → μ → μ}

/-- The machine with an observer. -/
def observe (M : Machine σ α) (m₀ : μ) (watch : σ → α → σ → μ → μ) :
    Machine (σ × μ) α where
  init := (M.init, m₀)
  apply a s :=
    match M.apply a s.1 with
    | some s' => some (s', watch s.1 a s' s.2)
    | none => none

/-- An observed step is a step, and its observation. -/
theorem observe_apply {a : α} {s s' : σ × μ} :
    (M.observe m₀ watch).apply a s = some s' ↔
      M.apply a s.1 = some s'.1 ∧ s'.2 = watch s.1 a s'.1 s.2 := by
  unfold observe
  simp only
  cases h : M.apply a s.1 with
  | none => simp
  | some s₁ =>
      rw [Option.some.injEq, Option.some.injEq]
      constructor
      · intro h
        subst h
        exact ⟨rfl, rfl⟩
      · intro h
        obtain ⟨rfl, hm⟩ := h
        rw [← hm]

/-- Observed runs are runs. -/
theorem Reach.fst {s : σ × μ} (h : (M.observe m₀ watch).Reach anyStep s) :
    M.Reach anyStep s.1 := by
  induction h with
  | init => exact .init
  | step a _ _ happ ih =>
      exact ih.step a trivial (observe_apply.mp happ).1

end ShZ001.Lib.Machine
