/-
Goals reached in time, for any machine.

# Ticks

`Within ticks n E s` says that every run from `s` with more than `n`
ticks has been in `E` on the way. Which actions tick is a parameter, so
the same run can be timed by the steps of one party or by the messages
it exchanges; the other parties may do what they like in between and are
not counted.

# Stages

A liveness proof is a chain of stages. `Within.of_budget` and
`Within.of_measure` bound one loop, `Within.seq` puts two stages behind
each other, `Within.mono` takes a later deadline or a weaker goal, and
`Within.lift` carries a stage over to a machine that refines the one it
was proved for.

# The other side

`not_within` shows that a goal is not reached in any time: a set of
states that no step leaves, in which the clock can go on, never gets to
a goal outside it. Both sides speak of all runs, so a law of the form
"returns exactly if" is proved with the two of them.
-/
import ShZ001.Lib.Machine

namespace ShZ001.Lib.Machine

variable {σ τ α : Type*} {M : Machine σ α} {N : Machine τ α}
  {ticks : α → Bool}

-- ================================================================== runs

/-- A run begins with its first action. -/
theorem run_cons {a : α} {rest : List α} {s s' : σ} :
    M.run anyStep s (a :: rest) = some s' ↔
      ∃ s₁, M.apply a s = some s₁ ∧ M.run anyStep s₁ rest = some s' := by
  have hok : anyStep s a := trivial
  rw [Machine.run, if_pos hok]
  cases M.apply a s <;> simp

/-- A run in two parts. -/
theorem run_append {as bs : List α} {s s' : σ} :
    M.run anyStep s (as ++ bs) = some s' ↔
      ∃ s₁, M.run anyStep s as = some s₁ ∧
        M.run anyStep s₁ bs = some s' := by
  induction as generalizing s with
  | nil => simp [Machine.run]
  | cons a as ih =>
      rw [List.cons_append, run_cons]
      constructor
      · intro h
        obtain ⟨s₁, happ, hrun⟩ := h
        obtain ⟨s₂, has, hbs⟩ := ih.mp hrun
        exact ⟨s₂, run_cons.mpr ⟨s₁, happ, has⟩, hbs⟩
      · intro h
        obtain ⟨s₂, has, hbs⟩ := h
        obtain ⟨s₁, happ, hrun⟩ := run_cons.mp has
        exact ⟨s₁, happ, ih.mpr ⟨s₂, hrun, hbs⟩⟩

/-- What every step preserves, a run preserves. -/
theorem run_invariant {I : σ → Prop}
    (hstep : ∀ s a s', I s → M.apply a s = some s' → I s')
    {acts : List α} {s s' : σ} (hi : I s)
    (h : M.run anyStep s acts = some s') : I s' := by
  induction acts generalizing s with
  | nil =>
      rw [Machine.run, Option.some.injEq] at h
      exact h ▸ hi
  | cons a rest ih =>
      obtain ⟨s₁, happ, hrun⟩ := run_cons.mp h
      exact ih (hstep _ _ _ hi happ) hrun

/-- What every admitted step preserves, and what it takes of a measure. -/
theorem run_spends {ok : σ → α → Prop} [∀ s a, Decidable (ok s a)]
    {I : σ → Prop} {μ : σ → Nat}
    (hstep : ∀ s a s', I s → ok s a → M.apply a s = some s' →
      I s' ∧ μ s' ≤ μ s - (if ticks a then 1 else 0))
    {acts : List α} {s s' : σ} (hi : I s) (h : M.run ok s acts = some s') :
    I s' ∧ μ s' ≤ μ s - acts.countP ticks := by
  induction acts generalizing s with
  | nil =>
      rw [Machine.run, Option.some.injEq] at h
      subst h
      exact ⟨hi, Nat.le_refl _⟩
  | cons a rest ih =>
      rw [Machine.run] at h
      split at h
      case isFalse => cases h
      case isTrue hok =>
          split at h
          case h_2 => cases h
          case h_1 s₁ happ =>
              obtain ⟨hi₁, hle⟩ := hstep s a s₁ hi hok happ
              obtain ⟨hi', hle'⟩ := ih hi₁ h
              refine ⟨hi', ?_⟩
              rw [List.countP_cons]
              omega

/-- A step for step image of a run. -/
theorem run_image {f : τ → σ}
    (hf : ∀ a t t', N.apply a t = some t' → M.apply a (f t) = some (f t'))
    {acts : List α} {t t' : τ} (h : N.run anyStep t acts = some t') :
    M.run anyStep (f t) acts = some (f t') := by
  induction acts generalizing t with
  | nil =>
      rw [Machine.run, Option.some.injEq] at h
      rw [Machine.run, h]
  | cons a rest ih =>
      obtain ⟨t₁, happ, hrun⟩ := run_cons.mp h
      exact run_cons.mpr ⟨f t₁, hf a t t₁ happ, ih hrun⟩

/-- What a machine reaches, a step for step image of it reaches too. -/
theorem Reach.image {f : τ → σ} (hinit : f N.init = M.init)
    (hf : ∀ a t t', N.apply a t = some t' → M.apply a (f t) = some (f t'))
    {t : τ} (h : N.Reach anyStep t) : M.Reach anyStep (f t) := by
  induction h with
  | init => exact hinit ▸ .init
  | step a _ _ happ ih => exact ih.step a trivial (hf a _ _ happ)

/-- The shortest part of a list that counts `n + 1`. -/
private theorem exists_countP {ticks : α → Bool} {n : Nat}
    {acts : List α} (h : n < acts.countP ticks) :
    ∃ as bs, acts = as ++ bs ∧ as.countP ticks = n + 1 := by
  induction acts generalizing n with
  | nil => simp at h
  | cons a rest ih =>
      rw [List.countP_cons] at h
      by_cases ha : ticks a = true
      · rw [if_pos ha] at h
        cases n with
        | zero => exact ⟨[a], rest, rfl, by simp [ha]⟩
        | succ n =>
            obtain ⟨as, bs, rfl, hcount⟩ := ih (Nat.lt_of_succ_lt_succ h)
            exact ⟨a :: as, bs, rfl, by rw [List.countP_cons_of_pos ha, hcount]⟩
      · rw [if_neg ha] at h
        obtain ⟨as, bs, rfl, hcount⟩ := ih h
        exact ⟨a :: as, bs, rfl, by rw [List.countP_cons_of_neg ha, hcount]⟩

-- ================================================================= stages

/-- Every run from `s` with more than `n` ticks has been in `E` on the
way. -/
def Within (M : Machine σ α) (ticks : α → Bool) (n : Nat) (E : σ → Prop)
    (s : σ) : Prop :=
  ∀ acts s', M.run anyStep s acts = some s' → n < acts.countP ticks →
    ∃ before after s₁, acts = before ++ after ∧
      M.run anyStep s before = some s₁ ∧ E s₁

/-- The loop rule. -/
theorem Within.of_budget {L : Nat → σ → Prop} {E : σ → Prop}
    (hstep : ∀ k s a s', L k s → M.apply a s = some s' →
      E s' ∨ ∃ k', L k' s' ∧ k' + (if ticks a then 1 else 0) ≤ k)
    {n : Nat} {s : σ} (h : L n s) : M.Within ticks n E s :=
  fun _ _ => leaves_budget hstep h

/-- And with a measure of the state. -/
theorem Within.of_measure {L E : σ → Prop} {μ : σ → Nat}
    (hstep : ∀ s a s', L s → M.apply a s = some s' →
      E s' ∨ L s' ∧ μ s' + (if ticks a then 1 else 0) ≤ μ s)
    {s : σ} (h : L s) : M.Within ticks (μ s) E s :=
  fun _ _ => leaves_within hstep h

/-- A later deadline, and a goal that is easier to be in. -/
theorem Within.mono {n n' : Nat} {E E' : σ → Prop} {s : σ}
    (h : M.Within ticks n E s) (hn : n ≤ n') (hE : ∀ s, E s → E' s) :
    M.Within ticks n' E' s := by
  intro acts s' hrun hlong
  obtain ⟨before, after, s₁, hacts, hbefore, hs₁⟩ :=
    h acts s' hrun (by omega)
  exact ⟨before, after, s₁, hacts, hbefore, hE s₁ hs₁⟩

/-- Two stages: the first is over within `n` ticks, and the second takes
`n'` from wherever it ended. -/
theorem Within.seq {n n' : Nat} {E E' : σ → Prop} {s : σ}
    (hr : M.Reach anyStep s) (h : M.Within ticks n E s)
    (hnext : ∀ s₁, M.Reach anyStep s₁ → E s₁ → M.Within ticks n' E' s₁) :
    M.Within ticks (n + 1 + n') E' s := by
  intro acts s' hrun hlong
  obtain ⟨as, bs, rfl, hcount⟩ := exists_countP (Nat.lt_of_lt_of_le
    (Nat.lt_succ_self n) (Nat.le_of_lt (Nat.lt_of_add_right_lt hlong)))
  obtain ⟨s₂, has, hbs⟩ := run_append.mp hrun
  obtain ⟨before, after, s₁, rfl, hbefore, hs₁⟩ :=
    h as s₂ has (by omega)
  obtain ⟨s₁', hbefore', hafter⟩ := run_append.mp has
  obtain rfl : s₁ = s₁' := Option.some.inj (hbefore.symm.trans hbefore')
  -- what is left of the run has more than `n'` ticks
  have hrest : M.run anyStep s₁ (after ++ bs) = some s' :=
    run_append.mpr ⟨s₂, hafter, hbs⟩
  obtain ⟨before', after', s₃, hacts, hbefore'', hs₃⟩ :=
    hnext s₁ (hr.run hbefore) hs₁ (after ++ bs) s' hrest (by
      simp only [List.countP_append] at hlong hcount ⊢
      omega)
  refine ⟨before ++ before', after', s₃, ?_, ?_, hs₃⟩
  · rw [List.append_assoc, hacts, List.append_assoc]
  · exact run_append.mpr ⟨s₁, hbefore, hbefore''⟩

/-- A machine whose steps are steps of `M` in other words keeps the
times of `M`. -/
theorem Within.lift {f : τ → σ}
    (hf : ∀ a t t', N.apply a t = some t' → M.apply a (f t) = some (f t'))
    {n : Nat} {E : σ → Prop} {t : τ} (h : M.Within ticks n E (f t)) :
    N.Within ticks n (fun t => E (f t)) t := by
  intro acts t' hrun hlong
  obtain ⟨before, after, s₁, rfl, hbefore, hs₁⟩ :=
    h acts (f t') (run_image hf hrun) hlong
  obtain ⟨t₁, hrun₁, -⟩ := run_append.mp hrun
  have himage := run_image hf hrun₁
  rw [hbefore, Option.some.injEq] at himage
  subst himage
  exact ⟨before, after, t₁, rfl, hrun₁, hs₁⟩

/-- A trap outside the goal in which the clock goes on. -/
theorem not_within {D E : σ → Prop}
    (hstep : ∀ s a s', D s → M.apply a s = some s' → D s')
    (hmove : ∀ s, D s → ∃ acts s', M.run anyStep s acts = some s' ∧
      0 < acts.countP ticks)
    (hout : ∀ s, D s → ¬ E s) {s : σ} (hs : D s) (n : Nat) :
    ¬ M.Within ticks n E s := by
  -- runs as long as one likes
  have hlong : ∀ n, ∃ acts s', M.run anyStep s acts = some s' ∧
      n < acts.countP ticks := by
    intro n
    induction n with
    | zero => exact hmove s hs
    | succ n ih =>
        obtain ⟨acts, s₁, hrun, hn⟩ := ih
        obtain ⟨more, s₂, hmore, hpos⟩ :=
          hmove s₁ (run_invariant hstep hs hrun)
        refine ⟨acts ++ more, s₂, run_append.mpr ⟨s₁, hrun, hmore⟩, ?_⟩
        rw [List.countP_append]
        omega
  intro h
  obtain ⟨acts, s', hrun, hn⟩ := hlong n
  obtain ⟨before, after, s₁, rfl, hbefore, hs₁⟩ := h acts s' hrun hn
  exact hout s₁ (run_invariant hstep hs hbefore) hs₁

end ShZ001.Lib.Machine
