/-
Walks that go on by themselves: each place has at most one next place.

# Rings

A place lies on a ring if the walk comes back to it. Every step of a
ring lies on the ring (`ring_on`), so what never falls along a step
stays as it is there (`OnRing.level`): a walk that only ever goes on or
stays cannot go on inside a ring. That is how the places of a ring are
found when steps are of different kinds.

# Ending

A walk that comes to a ring goes on for ever (`not_ends_of_ring`). A
walk that does not end and has only finitely many places to go through
comes to one twice, by the pigeonhole (`exists_ring`). Together: a walk
through finitely many places ends exactly if it never comes to a ring
(`ends_iff`), and whether it does is a statement about what can be
reached and no longer about numbers of steps.
-/
import Mathlib.Data.Set.Finite.Basic
import Mathlib.Logic.Relation
import Mathlib.Order.Preorder.Finite

namespace ShZ001.Lib

open Relation

variable {σ : Type*}

section

variable (next : σ → Option σ)

/-- One step of the walk. -/
def Goes (s t : σ) : Prop := next s = some t

/-- The place after `n` steps; `none` if the walk has ended. -/
def walk : Nat → σ → Option σ
  | 0, s => some s
  | n + 1, s =>
      match next s with
      | none => none
      | some t => walk n t

/-- The walk from `s` ends. -/
def Ends (s : σ) : Prop := ∃ n, walk next n s = none

end

-- ================================================================== rings

/-- `a` lies on the ring through `t`. -/
def OnRing (r : σ → σ → Prop) (t a : σ) : Prop :=
  TransGen r t a ∧ TransGen r a t

section

variable {r : σ → σ → Prop} {t : σ} (h : TransGen r t t)

include h

/-- The steps of a ring begin and end on it. -/
theorem ring_on :
    TransGen (fun a b => r a b ∧ OnRing r t a ∧ OnRing r t b) t t := by
  suffices ∀ a, TransGen r a t → TransGen r t a →
      TransGen (fun a b => r a b ∧ OnRing r t a ∧ OnRing r t b) a t from
    this t h h
  intro a ha
  induction ha using TransGen.head_induction_on with
  | single hstep =>
      exact fun hta => .single ⟨hstep, ⟨hta, .single hstep⟩, h, h⟩
  | head hstep hct ih =>
      exact fun hta =>
        .head ⟨hstep, ⟨hta, .head hstep hct⟩, hta.tail hstep, hct⟩
          (ih (hta.tail hstep))

omit h in
/-- A level that never falls along a step is one and the same on a
ring. -/
theorem OnRing.level {μ : σ → Nat} (hμ : ∀ a b, r a b → μ a ≤ μ b) {a : σ}
    (ha : OnRing r t a) : μ a = μ t := by
  have hle : ∀ {b c}, TransGen r b c → μ b ≤ μ c := by
    intro b c hbc
    induction hbc with
    | single hstep => exact hμ _ _ hstep
    | tail _ hstep ih => exact ih.trans (hμ _ _ hstep)
  exact le_antisymm (hle ha.2) (hle ha.1)

end

-- ================================================================== walks

section

variable {next : σ → Option σ} {s t : σ}

/-- A walk goes on from where it has got to. -/
theorem walk_add {m : Nat} (h : walk next m s = some t) (n : Nat) :
    walk next (m + n) s = walk next n t := by
  induction m generalizing s with
  | zero =>
      rw [Nat.zero_add]
      exact congrArg (walk next n) (Option.some.inj h)
  | succ m ih =>
      rw [Nat.succ_add, walk]
      rw [walk] at h
      cases hs : next s with
      | none =>
          rw [hs] at h
          cases h
      | some u =>
          rw [hs] at h
          exact ih h

/-- An ended walk has ended. -/
theorem walk_none {m : Nat} (h : walk next m s = none) (n : Nat) :
    walk next (m + n) s = none := by
  induction m generalizing s with
  | zero => cases h
  | succ m ih =>
      rw [Nat.succ_add, walk]
      rw [walk] at h
      cases hs : next s with
      | none => rfl
      | some u =>
          rw [hs] at h
          exact ih h

/-- What can be reached is reached in some number of steps. -/
theorem exists_walk (h : ReflTransGen (Goes next) s t) :
    ∃ n, walk next n s = some t := by
  induction h using ReflTransGen.head_induction_on with
  | refl => exact ⟨0, rfl⟩
  | @head a b hstep _ ih =>
      obtain ⟨n, hn⟩ := ih
      refine ⟨n + 1, ?_⟩
      rw [walk, show next a = some b from hstep]
      exact hn

/-- What a number of steps leads to can be reached. -/
theorem reaches_of_walk {n : Nat} (h : walk next n s = some t) :
    ReflTransGen (Goes next) s t := by
  induction n generalizing s with
  | zero => rw [Option.some.inj h]
  | succ n ih =>
      rw [walk] at h
      cases hs : next s with
      | none =>
          rw [hs] at h
          cases h
      | some u =>
          rw [hs] at h
          exact .head hs (ih h)

/-- A walk around a ring can be made as long as one likes. -/
theorem exists_walk_ring (h : TransGen (Goes next) t t) (n : Nat) :
    ∃ m, n ≤ m ∧ walk next m t = some t := by
  obtain ⟨u, hu, hut⟩ := TransGen.head'_iff.mp h
  obtain ⟨k, hk⟩ := exists_walk hut
  have honce : walk next (k + 1) t = some t := by
    rw [walk, show next t = some u from hu]
    exact hk
  induction n with
  | zero => exact ⟨0, Nat.le_refl 0, rfl⟩
  | succ n ih =>
      obtain ⟨m, hm, hround⟩ := ih
      exact ⟨m + (k + 1), by omega, (walk_add hround (k + 1)).trans honce⟩

/-- A walk that comes to a ring does not end. -/
theorem not_ends_of_ring (hst : ReflTransGen (Goes next) s t)
    (ht : TransGen (Goes next) t t) : ¬ Ends next s := by
  intro h
  obtain ⟨n, hn⟩ := h
  obtain ⟨k, hk⟩ := exists_walk hst
  obtain ⟨m, hm, hround⟩ := exists_walk_ring ht n
  have hlong := (walk_add hk m).trans hround
  rw [show k + m = n + (k + m - n) by omega, walk_none hn] at hlong
  cases hlong

/-- A walk that does not end comes to a ring, if it goes through finitely
many places. -/
theorem exists_ring {S : Set σ} (hS : S.Finite)
    (hgoes : ∀ t, TransGen (Goes next) s t → t ∈ S) (h : ¬ Ends next s) :
    ∃ t, ReflTransGen (Goes next) s t ∧ TransGen (Goes next) t t := by
  have hall : ∀ n, ∃ t, walk next n s = some t := fun n =>
    Option.ne_none_iff_exists'.mp fun hn => h ⟨n, hn⟩
  choose place hplace using hall
  have hstep : ∀ n, Goes next (place n) (place (n + 1)) := by
    intro n
    have hone := (walk_add (hplace n) 1).symm.trans (hplace (n + 1))
    rw [walk] at hone
    cases hs : next (place n) with
    | none =>
        rw [hs] at hone
        cases hone
    | some u =>
        rw [hs] at hone
        exact hs.trans hone
  have hmem : ∀ n, place (n + 1) ∈ S := fun n =>
    hgoes _ (.tail' (reaches_of_walk (hplace n)) (hstep n))
  -- two of infinitely many visits are to one place
  obtain ⟨a, b, hlt, heq⟩ := hS.exists_lt_map_eq_of_forall_mem hmem
  refine ⟨place (a + 1), reaches_of_walk (hplace (a + 1)), ?_⟩
  have hway : ∀ k, TransGen (Goes next) (place (a + 1))
      (place (a + 1 + (k + 1))) := by
    intro k
    induction k with
    | zero => exact .single (hstep (a + 1))
    | succ k ih => exact ih.tail (hstep (a + 1 + (k + 1)))
  have hback := hway (b - a - 1)
  rw [show a + 1 + (b - a - 1 + 1) = b + 1 by omega] at hback
  rwa [← heq] at hback

/-- A walk through finitely many places ends exactly if it never comes to
a ring. -/
theorem ends_iff {S : Set σ} (hS : S.Finite)
    (hgoes : ∀ t, TransGen (Goes next) s t → t ∈ S) :
    Ends next s ↔ ∀ t, ReflTransGen (Goes next) s t →
      ¬ TransGen (Goes next) t t := by
  constructor
  · exact fun h t hst ht => not_ends_of_ring hst ht h
  · intro h
    by_contra hno
    obtain ⟨t, hst, ht⟩ := exists_ring hS hgoes hno
    exact h t hst ht

end

end ShZ001.Lib
