/-
Choosing the places of a list one after the other, each time a best one
of those left: what a selection sort does, whatever it marks places with
and wherever it copies to.

# The invariant

`Picked n r is` is the loop's invariant, `r i j` saying that place `i`
may come before place `j`: the places picked so far are distinct, in
order, and no worse than any place that is left. A further place extends
it (`Picked.concat`), there is one as long as not all are picked
(`exists_left`), and once all are, the elements come out rearranged
(`Picked.perm_map`).

A loop that picks by another rule, or that may find nothing although
places are left, fails at `Picked.concat`: it is the one place where the
choice is looked at.
-/
import Mathlib.Data.List.Perm.Subperm
import Mathlib.Data.List.Range

namespace ShZ001.Lib

variable {n : Nat} {r : Nat → Nat → Prop} {is : List Nat}

/-- Distinct places below `n`, each of them at least as good as the ones
picked later or not at all. -/
structure Picked (n : Nat) (r : Nat → Nat → Prop) (is : List Nat) :
    Prop where
  lt : ∀ i ∈ is, i < n
  nodup : is.Nodup
  ordered : is.Pairwise r
  best : ∀ i ∈ is, ∀ j, j < n → j ∉ is → r i j

/-- Before the first turn nothing is picked, and nothing has to be
compared. -/
theorem picked_nil (n : Nat) (r : Nat → Nat → Prop) : Picked n r [] :=
  ⟨nofun, List.nodup_nil, List.Pairwise.nil, nofun⟩

/-- Picking a best place of those left. -/
theorem Picked.concat (h : Picked n r is) {i : Nat} (hi : i < n)
    (hnew : i ∉ is) (hbest : ∀ j, j < n → j ∉ is → r i j) :
    Picked n r (is ++ [i]) := by
  refine ⟨?_, ?_, ?_, ?_⟩
  · intro j hj
    rcases List.mem_append.mp hj with hj | hj
    · exact h.lt j hj
    · rwa [List.mem_singleton.mp hj]
  · refine List.nodup_append.mpr ⟨h.nodup, List.pairwise_singleton _ i, ?_⟩
    intro j hj k hk h
    subst h
    exact hnew (List.mem_singleton.mp hk ▸ hj)
  · refine List.pairwise_append.mpr
      ⟨h.ordered, List.pairwise_singleton r i, ?_⟩
    intro j hj k hk
    rw [List.mem_singleton.mp hk]
    exact h.best j hj i hi hnew
  · intro j hj k hk hleft
    rw [List.mem_append, not_or] at hleft
    rcases List.mem_append.mp hj with hj | hj
    · exact h.best j hj k hk hleft.1
    · rw [List.mem_singleton.mp hj]
      exact hbest k hk hleft.1

/-- As long as fewer than `n` places are picked, one is left. -/
theorem exists_left (hlen : is.length < n) : ∃ i, i < n ∧ i ∉ is := by
  by_contra hall
  have hsub : List.range n ⊆ is := by
    intro i hi
    by_contra hno
    exact hall ⟨i, List.mem_range.mp hi, hno⟩
  have hle := (List.subperm_of_subset List.nodup_range hsub).length_le
  rw [List.length_range] at hle
  omega

/-- All places are picked. -/
theorem Picked.perm (h : Picked n r is) (hlen : is.length = n) :
    is.Perm (List.range n) := by
  have hsub : is ⊆ List.range n :=
    fun i hi => List.mem_range.mpr (h.lt i hi)
  refine (List.subperm_of_subset h.nodup hsub).perm_of_length_le ?_
  rw [List.length_range, hlen]

section

variable {α : Type*} {l : List α} {get : Nat → α}
  (hget : ∀ i (hi : i < l.length), get i = l[i])

include hget

/-- A list is what its places hold, in their order. -/
theorem map_range_get : (List.range l.length).map get = l := by
  refine List.ext_getElem (by simp) fun i hi hi' => ?_
  rw [List.getElem_map, List.getElem_range, hget i hi']

/-- What the places hold comes out rearranged. -/
theorem Picked.perm_map (h : Picked l.length r is)
    (hlen : is.length = l.length) : (is.map get).Perm l := by
  have hperm := (h.perm hlen).map get
  rwa [map_range_get hget] at hperm

end

end ShZ001.Lib
