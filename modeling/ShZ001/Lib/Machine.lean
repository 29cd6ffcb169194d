/-
Partial labelled machines: a start state and a step function that
answers `none` where an action is disabled.

# Conditioned runs

Safety results come in two strengths: over every run, and over the runs
whose steps all meet a side condition (an environment contract, or the
circumstances under which a faulty program still behaves). Both are one
notion here: `Reach ok s` says `s` ends a run whose every step `(s, a)`
satisfied `ok s a`, and `anyStep` is the condition that admits
everything. The condition is read at the state BEFORE the step, so it
can only restrict inputs and timing, never what a step computes.

# Replays

`run` executes a list of actions, checking a decidable condition on the
way; `reach_run` turns a successful execution into a `Reach` fact, which
is how concrete runs (counterexamples, inhabited hypotheses) enter
proofs.
-/
import Mathlib.Data.Option.Basic

namespace ShZ001.Lib

/-- A machine over states `σ` and actions `α`; `apply` is partial,
`none` meaning that the action is disabled in that state. -/
structure Machine (σ : Type*) (α : Type*) where
  init : σ
  apply : α → σ → Option σ

namespace Machine

variable {σ α : Type*} {M : Machine σ α} {ok : σ → α → Prop}

/-- The side condition that admits every step. -/
def anyStep : σ → α → Prop := fun _ _ => True

instance (s : σ) (a : α) : Decidable (anyStep s a) := isTrue trivial

/-- States at the end of a run all of whose steps meet `ok`. -/
inductive Reach (M : Machine σ α) (ok : σ → α → Prop) : σ → Prop
  | init : Reach M ok M.init
  | step {s s' : σ} (a : α) :
      Reach M ok s → ok s a → M.apply a s = some s' → Reach M ok s'

/-- Execute actions from a state, failing on the first one that is
disabled or breaks the side condition. -/
def run (M : Machine σ α) (ok : σ → α → Prop)
    [∀ s a, Decidable (ok s a)] (s : σ) : List α → Option σ
  | [] => some s
  | a :: rest =>
      if ok s a then
        match M.apply a s with
        | some s' => M.run ok s' rest
        | none => none
      else none

-- ========================================================= invariants

/-- The induction rule: what holds at the start and survives every
admitted step holds at the end of every admitted run. -/
theorem Reach.invariant {I : σ → Prop} (hinit : I M.init)
    (hstep : ∀ s a s', I s → ok s a → M.apply a s = some s' → I s')
    {s : σ} (h : M.Reach ok s) : I s := by
  induction h with
  | init => exact hinit
  | step a _ hok happ ih => exact hstep _ a _ ih hok happ

/-- The induction rule over an invariant already established: the step
obligation may use `J` at both ends of the step. -/
theorem Reach.invariant_of {I J : σ → Prop} (hJ : ∀ s, M.Reach ok s → J s)
    (hinit : I M.init)
    (hstep : ∀ s a s', I s → J s → J s' → ok s a →
      M.apply a s = some s' → I s')
    {s : σ} (h : M.Reach ok s) : I s := by
  induction h with
  | init => exact hinit
  | step a hr hok happ ih =>
      exact hstep _ a _ ih (hJ _ hr) (hJ _ (hr.step a hok happ)) hok happ

/-- A condition that is weaker wherever the run goes admits the run. -/
theorem Reach.mono {ok' : σ → α → Prop} {s : σ} (h : M.Reach ok s)
    (hle : ∀ s a, M.Reach ok s → ok s a → ok' s a) : M.Reach ok' s := by
  induction h with
  | init => exact .init
  | step a hr hok happ ih => exact ih.step a (hle _ _ hr hok) happ

/-- Every conditioned run is a run. -/
theorem Reach.any {s : σ} (h : M.Reach ok s) : M.Reach anyStep s :=
  h.mono fun _ _ _ _ => trivial

-- ============================================================ replays

section Replay

variable [∀ s a, Decidable (ok s a)]

/-- A successful execution extends reachability. -/
theorem Reach.run {acts : List α} :
    ∀ {s s' : σ}, M.Reach ok s → M.run ok s acts = some s' →
      M.Reach ok s' := by
  induction acts with
  | nil =>
      intro s s' hr hrun
      simp only [Machine.run, Option.some.injEq] at hrun
      exact hrun ▸ hr
  | cons a rest ih =>
      intro s s' hr hrun
      unfold Machine.run at hrun
      split at hrun
      case isFalse => cases hrun
      case isTrue hok =>
          split at hrun
          case h_1 s₁ happ => exact ih (hr.step a hok happ) hrun
          case h_2 => cases hrun

/-- A replay from the start state ends in a reachable state. -/
theorem reach_run {acts : List α} {s : σ}
    (h : M.run ok M.init acts = some s) : M.Reach ok s :=
  Reach.init.run h

/-- A replay that passes a Boolean check exhibits a reachable state that
passes it. -/
theorem exists_reach (M : Machine σ α) (ok : σ → α → Prop)
    [∀ s a, Decidable (ok s a)] (acts : List α) (p : σ → Bool)
    (h : (M.run ok M.init acts).any p = true) :
    ∃ s, M.Reach ok s ∧ p s = true := by
  cases hrun : M.run ok M.init acts with
  | none => simp [hrun] at h
  | some s => exact ⟨s, reach_run hrun, by simpa [hrun] using h⟩

end Replay

-- ============================================================== loops

/-- The loop rule, with a budget: if every step from a state with `k`
ticks left either reaches the goal `E` or leaves a budget that its tick
has been paid from, a run with more ticks than the first budget has been
in `E` on the way. -/
theorem leaves_budget {L : Nat → σ → Prop} {E : σ → Prop}
    {ticks : α → Bool}
    (hstep : ∀ k s a s', L k s → M.apply a s = some s' →
      E s' ∨ ∃ k', L k' s' ∧ k' + (if ticks a then 1 else 0) ≤ k)
    {acts : List α} :
    ∀ {k : Nat} {s s' : σ}, L k s → M.run anyStep s acts = some s' →
      k < acts.countP ticks →
      ∃ before after s₁, acts = before ++ after ∧
        M.run anyStep s before = some s₁ ∧ E s₁ := by
  induction acts with
  | nil =>
      intro k s s' _ _ hlong
      simp at hlong
  | cons a rest ih =>
      intro k s s' hL hrun hlong
      have hok : anyStep s a := trivial
      rw [Machine.run, if_pos hok] at hrun
      split at hrun
      case h_2 => cases hrun
      case h_1 s₁ happ =>
          rcases hstep k s a s₁ hL happ with hE | ⟨k₁, hL₁, hpay⟩
          · refine ⟨[a], rest, s₁, rfl, ?_, hE⟩
            rw [Machine.run, if_pos hok, happ]
            rfl
          · have hlong₁ : k₁ < rest.countP ticks := by
              rw [List.countP_cons] at hlong
              omega
            obtain ⟨before, after, s₂, rfl, hbefore, hE⟩ :=
              ih hL₁ hrun hlong₁
            refine ⟨a :: before, after, s₂, rfl, ?_, hE⟩
            rw [Machine.run, if_pos hok, happ]
            exact hbefore

/-- The loop rule: if every step from a state of the loop `L` either
leaves it for `E` or pays for its tick out of the measure, a run with
more ticks than the measure has left the loop for `E` on the way. -/
theorem leaves_within {L E : σ → Prop} {μ : σ → Nat} {ticks : α → Bool}
    (hstep : ∀ s a s', L s → M.apply a s = some s' →
      E s' ∨ L s' ∧ μ s' + (if ticks a then 1 else 0) ≤ μ s)
    {acts : List α} {s s' : σ} (hL : L s)
    (hrun : M.run anyStep s acts = some s')
    (hlong : μ s < acts.countP ticks) :
    ∃ before after s₁, acts = before ++ after ∧
      M.run anyStep s before = some s₁ ∧ E s₁ := by
  refine leaves_budget (L := fun k s => L s ∧ k = μ s) ?_ ⟨hL, rfl⟩ hrun
    hlong
  intro k s a s' h happ
  obtain ⟨hL, rfl⟩ := h
  rcases hstep s a s' hL happ with hE | ⟨hL', hpay⟩
  · exact .inl hE
  · exact .inr ⟨_, ⟨hL', rfl⟩, hpay⟩

end Machine

end ShZ001.Lib
