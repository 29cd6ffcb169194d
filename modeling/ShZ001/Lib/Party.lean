/-
A party of a machine: a part of the state that some of the actions move
and all others leave alone.

# What a run does to a party

A machine of several parties interleaves them, and a fact about one of
them should not have to mention the others. `Party` says where in the
state the party stands, which actions are its own and what these do to
it. Then a run takes the party along its own inputs, whatever comes
between them (`trail_of_run`): the induction over the interleaving is
done once, here.
-/
import ShZ001.Lib.Machine

namespace ShZ001.Lib.Machine

variable {σ α ι β : Type*} {M : Machine σ α}

/-- The place of the party in the state, its inputs among the actions, and
what one of these does to the place. -/
structure Party (M : Machine σ α) (ι β : Type*) where
  place : σ → β
  input : α → Option ι
  step : ι → β → β → Prop
  own : ∀ {s s' : σ} {a : α} {i : ι}, M.apply a s = some s' →
    input a = some i → step i (place s) (place s')
  other : ∀ {s s' : σ} {a : α}, M.apply a s = some s' → input a = none →
    place s' = place s

/-- Inputs one after the other. -/
inductive Party.Trail (P : Party M ι β) : β → List ι → β → Prop
  | nil {b} : Trail P b [] b
  | cons {b b₁ b' i is} (h : P.step i b b₁) (hrest : Trail P b₁ is b') :
      Trail P b (i :: is) b'

/-- A run takes the party along its inputs. -/
theorem Party.trail_of_run (P : Party M ι β) {s s' : σ} {acts : List α}
    (h : M.run anyStep s acts = some s') :
    P.Trail (P.place s) (acts.filterMap P.input) (P.place s') := by
  induction acts generalizing s with
  | nil =>
      rw [Machine.run, Option.some.injEq] at h
      subst h
      exact .nil
  | cons a acts ih =>
      have hok : anyStep s a := trivial
      rw [Machine.run, if_pos hok] at h
      split at h
      case h_2 => cases h
      case h_1 s₁ happ =>
          rw [List.filterMap_cons]
          split
          case h_1 hnone => exact P.other happ hnone ▸ ih h
          case h_2 i hsome => exact .cons (P.own happ hsome) (ih h)

end ShZ001.Lib.Machine
