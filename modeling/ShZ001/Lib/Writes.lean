/-
Writes to a store of typed entries, made one after the other until one
fails.

# What is left

A write that fails leaves its entry as it was, and those before it stay
made: there is no transaction. So what is left of the store is its
contents overlaid with the writes before the first failure
(`putAll_contents`, `made`), and the caller is told whether there was
none (`putAll_all`).

# All or nothing

With distinct keys, the writes either have all been made, and each entry
holds its value (`putAll_stored`), or the store may be a mixture. It is
what it was before exactly if the writes that were made wrote what was
there (`putAll_eq_self`), which is the condition under which a failure
goes unnoticed.
-/
import Mathlib.Logic.Function.Basic
import Mathlib.Data.List.Nodup
import Mathlib.Data.List.TakeWhile

namespace ShZ001.Lib

variable {κ : Type} [DecidableEq κ] {ν : κ → Type}

/-- What the entries hold. -/
abbrev Contents (ν : κ → Type) : Type := (k : κ) → Option (ν k)

/-- A write, and whether it succeeds. -/
structure Put (ν : κ → Type) where
  key : κ
  value : ν key
  stored : Bool

/-- A write that is made. -/
def Put.into (c : Contents ν) (p : Put ν) : Contents ν :=
  if p.stored then Function.update c p.key (some p.value) else c

/-- The writes until one fails: are all made, and what is there then. -/
def putAll (c : Contents ν) : List (Put ν) → Bool × Contents ν
  | [] => (true, c)
  | p :: ps =>
      if p.stored then putAll (p.into c) ps else (false, p.into c)

/-- The writes before the first that fails. -/
def made (ps : List (Put ν)) : List (Put ν) := ps.takeWhile Put.stored

-- ============================================================== the contents

/-- Success is that no write failed. -/
theorem putAll_all (c : Contents ν) (ps : List (Put ν)) :
    (putAll c ps).1 = ps.all Put.stored := by
  induction ps generalizing c with
  | nil => rfl
  | cons p ps ih =>
      unfold putAll
      cases hp : p.stored with
      | true => simp [ih, hp]
      | false => simp [hp]

/-- And whatever happened, the store is overlaid with the writes before the
first failure. -/
theorem putAll_contents (c : Contents ν) (ps : List (Put ν)) :
    (putAll c ps).2 = (made ps).foldl Put.into c := by
  induction ps generalizing c with
  | nil => rfl
  | cons p ps ih =>
      unfold putAll made
      rw [List.takeWhile_cons]
      cases hp : p.stored with
      | true => exact ih _
      | false => simp [Put.into, hp]

/-- An entry that is not written stays. -/
theorem foldl_into_other {ps : List (Put ν)} {k : κ}
    (h : ∀ p ∈ ps, p.key ≠ k) (c : Contents ν) :
    ps.foldl Put.into c k = c k := by
  induction ps generalizing c with
  | nil => rfl
  | cons p ps ih =>
      obtain ⟨hp, hps⟩ := List.forall_mem_cons.mp h
      rw [List.foldl_cons, ih hps]
      unfold Put.into
      split
      · exact Function.update_of_ne hp.symm _ _
      · rfl

/-- One that is written once holds what was written. -/
theorem foldl_into_mem {ps : List (Put ν)} (h : (ps.map Put.key).Nodup)
    {p : Put ν} (hp : p ∈ ps) (hs : p.stored = true) (c : Contents ν) :
    ps.foldl Put.into c p.key = some p.value := by
  induction ps generalizing c with
  | nil => cases hp
  | cons q ps ih =>
      obtain ⟨hq, hps⟩ := List.nodup_cons.mp h
      rw [List.foldl_cons]
      rcases List.mem_cons.mp hp with heq | hmem
      · subst heq
        have hother : ∀ r ∈ ps, r.key ≠ p.key :=
          fun r hr heq => hq (List.mem_map.mpr ⟨r, hr, heq⟩)
        rw [foldl_into_other hother]
        unfold Put.into
        rw [if_pos hs, Function.update_self]
      · exact ih hps hmem _

/-- No write takes an entry away. -/
theorem putAll_isSome {c : Contents ν} {k : κ} (h : (c k).isSome = true)
    (ps : List (Put ν)) : ((putAll c ps).2 k).isSome = true := by
  rw [putAll_contents]
  refine List.foldlRecOn
    (motive := fun c : Contents ν => (c k).isSome = true)
    (made ps) Put.into h fun c hc p _ => ?_
  unfold Put.into
  split
  · by_cases hk : k = p.key
    · subst hk
      rw [Function.update_self]
      rfl
    · rwa [Function.update_of_ne hk]
  · exact hc

-- ============================================================ all or nothing

/-- All writes have been made. -/
theorem putAll_stored {ps : List (Put ν)} (h : (ps.map Put.key).Nodup)
    (c : Contents ν) (hall : (putAll c ps).1 = true) {p : Put ν}
    (hp : p ∈ ps) : (putAll c ps).2 p.key = some p.value := by
  rw [putAll_all, List.all_eq_true] at hall
  have hmade : made ps = ps := List.takeWhile_eq_self_iff.mpr hall
  rw [putAll_contents, hmade]
  exact foldl_into_mem h hp (hall p hp) c

/-- Nothing has changed exactly if the writes that were made wrote what was
there. -/
theorem putAll_eq_self {ps : List (Put ν)} (h : (ps.map Put.key).Nodup)
    (c : Contents ν) :
    (putAll c ps).2 = c ↔ ∀ p ∈ made ps, c p.key = some p.value := by
  have hnodup : ((made ps).map Put.key).Nodup :=
    h.sublist ((List.takeWhile_sublist _).map _)
  rw [putAll_contents]
  constructor
  · intro heq p hp
    rw [← foldl_into_mem hnodup hp (List.mem_takeWhile_imp hp) c, heq]
  · intro hsame
    funext k
    by_cases hk : ∃ p ∈ made ps, p.key = k
    · obtain ⟨p, hp, rfl⟩ := hk
      rw [foldl_into_mem hnodup hp (List.mem_takeWhile_imp hp) c, hsame p hp]
    · exact foldl_into_other (fun p hp heq => hk ⟨p, hp, heq⟩) c

end ShZ001.Lib
