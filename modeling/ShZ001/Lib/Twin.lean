/-
One program on two memories. The blocks start with different contents,
and the program makes the same writes to both.

# Telling what was never written

Where the program has written, the two blocks agree; elsewhere each
still holds what it started with (`Twin`). So what is read of a block at
the end depends on its first contents exactly if some position that is
read was never written: in one direction written memory is the same in
both (`slice_eq`), and in the other two starts that differ everywhere
show up wherever nothing has been written (`mem_of_agree`).

Reads need no lemma. A program that reads what it has written reads the
same in both, and goes the same way in both.
-/
import ShZ001.Lib.Slots

namespace ShZ001.Lib

variable {α : Type*}

/-- The block `s`, which started as `init`, and `s'`, which started as
`init'`, after the same writes. -/
structure Twin (init init' : Nat → α) (s s' : Slots α) : Prop where
  touched : s'.touched = s.touched
  written : ∀ p ∈ s.touched, s'.cell p = s.cell p
  kept : ∀ p ∉ s.touched, s.cell p = init p
  kept' : ∀ p ∉ s.touched, s'.cell p = init' p

namespace Twin

variable {init init' : Nat → α} {s s' : Slots α}

/-- Two uninitialised arrays are twins: nothing has been written yet. -/
theorem start (n : Nat) :
    Twin init init' (.array n init) (.array n init') :=
  ⟨rfl, fun _ h => absurd h List.not_mem_nil, fun _ _ => rfl,
    fun _ _ => rfl⟩

/-- A write to the same position of both. -/
theorem write (h : Twin init init' s s') (p : Nat) (v : α) :
    Twin init init' (s.write p v) (s'.write p v) := by
  refine ⟨congrArg (p :: ·) h.touched, fun q hq => ?_, fun q hq => ?_,
    fun q hq => ?_⟩
  · by_cases hqp : q = p
    · subst hqp
      rw [Slots.write_cell_self, Slots.write_cell_self]
    · rw [Slots.write_cell_ne hqp, Slots.write_cell_ne hqp]
      exact h.written q ((Slots.mem_touched_write.mp hq).resolve_left hqp)
  · rw [Slots.mem_touched_write, not_or] at hq
    rw [Slots.write_cell_ne hq.1]
    exact h.kept q hq.2
  · rw [Slots.mem_touched_write, not_or] at hq
    rw [Slots.write_cell_ne hq.1]
    exact h.kept' q hq.2

/-- A run of writes to the same positions of both. -/
theorem writeAll (h : Twin init init' s s') (p : Nat) (vs : List α) :
    Twin init init' (s.writeAll p vs) (s'.writeAll p vs) := by
  induction vs generalizing p s s' with
  | nil => exact h
  | cons v vs ih => exact ih (h.write p v) (p + 1)

/-- If the two start out different everywhere, a position where they
agree has been written. -/
theorem mem_of_agree (h : Twin init init' s s') {p : Nat}
    (hne : init' p ≠ init p) (heq : s'.cell p = s.cell p) :
    p ∈ s.touched := by
  by_contra hp
  exact hne ((h.kept' p hp).symm.trans (heq.trans (h.kept p hp)))

/-- Memory that has been written is the same in both. -/
theorem slice_eq {init init' : Nat → UInt8} {s s' : Slots UInt8}
    (h : Twin init init' s s') {p n : Nat}
    (hw : ∀ q, p ≤ q → q < p + n → q ∈ s.touched) :
    slice s'.cell p n = slice s.cell p n :=
  slice_congr fun k hk =>
    h.written (p + k) (hw _ (Nat.le_add_right p k) (by omega))

end Twin

end ShZ001.Lib
