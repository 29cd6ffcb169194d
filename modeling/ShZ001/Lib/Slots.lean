/-
Blocks of memory under hand-computed positions.

# Accesses on the record

A block knows how many elements it was allocated with and which
positions have been touched. An access past the end is not a fault here,
as it is none in C: it reads or overwrites whatever is there, and it is
on the record. So a function that strays is still a function, and that
it does not stray is a statement about what it has touched (`InBounds`).

# What a block holds

`cell` goes on past the end of the block. What it has there is the
memory behind, a parameter of the program that uses the block. Writes
change one position each, and `writeAll` is a run of them; the lemmas
say which positions it touches and what the block holds below, in and
behind it, so a text that is put together in a buffer can be read back
without following the single writes.
-/
import Mathlib.Logic.Function.Basic
import ShZ001.Lib.Bytes

namespace ShZ001.Lib

/-- A block of `size` elements; `cell` goes on past its end. -/
structure Slots (α : Type*) where
  size : Nat
  cell : Nat → α
  touched : List Nat

namespace Slots

variable {α : Type*}

/-- `calloc`: `n` zeroed elements, `beyond` behind them. -/
def calloc (n : Nat) (zero : α) (beyond : Nat → α) : Slots α where
  size := n
  cell p := if p < n then zero else beyond p
  touched := []

/-- A local array of `n` elements, uninitialised: what it and the memory
behind it happen to hold is `cell`. -/
def array (n : Nat) (cell : Nat → α) : Slots α where
  size := n
  cell := cell
  touched := []

/-- A read of position `p`; the value is `cell p`. -/
def touch (p : Nat) (s : Slots α) : Slots α :=
  { s with touched := p :: s.touched }

/-- A write to position `p`. -/
def write (p : Nat) (v : α) (s : Slots α) : Slots α :=
  { s with
    cell := Function.update s.cell p v
    touched := p :: s.touched }

/-- Writes to consecutive positions, from `p` on. -/
def writeAll : Nat → List α → Slots α → Slots α
  | _, [], s => s
  | p, v :: vs, s => writeAll (p + 1) vs (s.write p v)

/-- Every access was to an element of the block. -/
def InBounds (s : Slots α) : Prop := ∀ p ∈ s.touched, p < s.size

instance (s : Slots α) : Decidable s.InBounds :=
  inferInstanceAs (Decidable (∀ p ∈ s.touched, p < s.size))

@[simp] theorem touch_cell (p : Nat) (s : Slots α) :
    (s.touch p).cell = s.cell := rfl

@[simp] theorem write_size (p : Nat) (v : α) (s : Slots α) :
    (s.write p v).size = s.size := rfl

@[simp] theorem write_cell_self (p : Nat) (v : α) (s : Slots α) :
    (s.write p v).cell p = v := Function.update_self ..

/-- A write changes no other position. -/
theorem write_cell_ne {p q : Nat} (h : q ≠ p) (v : α) (s : Slots α) :
    (s.write p v).cell q = s.cell q := Function.update_of_ne h ..

@[simp] theorem calloc_size (n : Nat) (zero : α) (beyond : Nat → α) :
    (calloc n zero beyond).size = n := rfl

/-- The elements of a fresh block are zeroed; those behind it are not. -/
theorem calloc_cell {n p : Nat} (h : p < n) (zero : α) (beyond : Nat → α) :
    (calloc n zero beyond).cell p = zero := if_pos h

/-- A fresh block has not been touched. -/
@[simp] theorem inBounds_calloc (n : Nat) (zero : α) (beyond : Nat → α) :
    (calloc n zero beyond).InBounds := by
  simp [InBounds, calloc]

/-- A write stays inside exactly if it is to an element of the block and
all before it were. -/
@[simp] theorem inBounds_write {p : Nat} {v : α} {s : Slots α} :
    (s.write p v).InBounds ↔ p < s.size ∧ s.InBounds := by
  simp [InBounds, write]

@[simp] theorem array_size (n : Nat) (cell : Nat → α) :
    (array n cell).size = n := rfl

@[simp] theorem inBounds_array (n : Nat) (cell : Nat → α) :
    (array n cell).InBounds := by
  simp [InBounds, array]

@[simp] theorem writeAll_size (p : Nat) (vs : List α) (s : Slots α) :
    (s.writeAll p vs).size = s.size := by
  induction vs generalizing p s with
  | nil => rfl
  | cons v vs ih => exact ih (p + 1) (s.write p v)

/-- A run of writes is made in two parts, the second where the first one
ends. -/
theorem writeAll_append (p : Nat) (vs ws : List α) (s : Slots α) :
    s.writeAll p (vs ++ ws)
      = (s.writeAll p vs).writeAll (p + vs.length) ws := by
  induction vs generalizing p s with
  | nil => rfl
  | cons v vs ih =>
      rw [List.cons_append, writeAll, ih, List.length_cons, writeAll,
        Nat.add_assoc, Nat.add_comm 1]

/-- Consecutive writes stay inside exactly if the last one does. -/
theorem inBounds_writeAll {p : Nat} {vs : List α} {s : Slots α}
    (hvs : vs ≠ []) :
    (s.writeAll p vs).InBounds ↔ p + vs.length ≤ s.size ∧ s.InBounds := by
  induction vs generalizing p s with
  | nil => exact absurd rfl hvs
  | cons v vs ih =>
      rw [writeAll]
      by_cases hvs : vs = []
      · subst hvs
        exact inBounds_write
      · rw [ih hvs, inBounds_write, write_size, List.length_cons,
          ← and_assoc]
        refine and_congr_left fun _ => ?_
        omega

/-- The direction a loop steps by: one more write inside the block. -/
theorem InBounds.write {s : Slots α} (h : s.InBounds) {p : Nat}
    (hp : p < s.size) (v : α) : (s.write p v).InBounds :=
  inBounds_write.mpr ⟨hp, h⟩

/-- A write touches the position it is to. -/
theorem mem_touched_write {p q : Nat} {v : α} {s : Slots α} :
    q ∈ (s.write p v).touched ↔ q = p ∨ q ∈ s.touched := List.mem_cons

/-- A run of writes touches a range. -/
theorem mem_touched_writeAll {p q : Nat} {vs : List α} {s : Slots α} :
    q ∈ (s.writeAll p vs).touched ↔
      (p ≤ q ∧ q < p + vs.length) ∨ q ∈ s.touched := by
  induction vs generalizing p s with
  | nil =>
      rw [writeAll, List.length_nil]
      exact (or_iff_right (by omega)).symm
  | cons v vs ih =>
      rw [writeAll, ih, mem_touched_write, ← or_assoc, List.length_cons]
      exact or_congr_left (by omega)

/-- Consecutive writes, or none, that end inside. -/
theorem InBounds.writeAll {s : Slots α} (h : s.InBounds) {p : Nat}
    {vs : List α} (hp : p + vs.length ≤ s.size) :
    (s.writeAll p vs).InBounds := by
  intro q hq
  rw [writeAll_size]
  rcases mem_touched_writeAll.mp hq with hq | hq
  · exact lt_of_lt_of_le hq.2 hp
  · exact h q hq

-- ================================================================ contents

/-- What is below a run of writes stays as it was. -/
theorem writeAll_cell_below {p q : Nat} (h : q < p) (vs : List α)
    (s : Slots α) : (s.writeAll p vs).cell q = s.cell q := by
  induction vs generalizing p s with
  | nil => rfl
  | cons v vs ih =>
      rw [writeAll, ih (Nat.lt_succ_of_lt h), write_cell_ne (by omega)]

/-- And so does what is behind it. -/
theorem writeAll_cell_above {p q : Nat} {vs : List α}
    (h : p + vs.length ≤ q) (s : Slots α) :
    (s.writeAll p vs).cell q = s.cell q := by
  induction vs generalizing p s with
  | nil => rfl
  | cons v vs ih =>
      rw [List.length_cons] at h
      rw [writeAll, ih (by omega), write_cell_ne (by omega)]

/-- Each place of consecutive writes. -/
theorem writeAll_cell {p : Nat} {vs : List α} {s : Slots α} {k : Nat}
    (h : k < vs.length) : (s.writeAll p vs).cell (p + k) = vs[k] := by
  induction vs generalizing p s k with
  | nil => exact absurd h (Nat.not_lt_zero k)
  | cons v vs ih =>
      rw [writeAll]
      cases k with
      | zero =>
          exact (writeAll_cell_below (Nat.lt_succ_self p) vs _).trans
            (write_cell_self p v s)
      | succ k =>
          rw [show p + (k + 1) = p + 1 + k by omega]
          exact ih (Nat.lt_of_succ_lt_succ h)

/-- Memory that ends before a write. -/
theorem slice_writeAll_below {a n p : Nat} (h : a + n ≤ p)
    (vs : List UInt8) (s : Slots UInt8) :
    slice (s.writeAll p vs).cell a n = slice s.cell a n :=
  slice_congr fun k hk => writeAll_cell_below (by omega) vs s

/-- Memory that begins behind a write. -/
theorem slice_writeAll_above {a n p : Nat} {vs : List UInt8}
    (h : p + vs.length ≤ a) (s : Slots UInt8) :
    slice (s.writeAll p vs).cell a n = slice s.cell a n :=
  slice_congr fun k _ => writeAll_cell_above (by omega) s

/-- What was written is there. -/
theorem slice_writeAll_self (p : Nat) (vs : List UInt8) (s : Slots UInt8) :
    slice (s.writeAll p vs).cell p vs.length = vs := by
  induction vs generalizing p s with
  | nil => rfl
  | cons v vs ih =>
      rw [List.length_cons, slice, writeAll, ih,
        writeAll_cell_below (Nat.lt_succ_self p), write_cell_self]

/-- A write right behind known memory extends it. -/
theorem slice_writeAll_append {a n p : Nat} {m : List UInt8}
    {s : Slots UInt8} (h : slice s.cell a n = m) (hp : p = a + n)
    (vs : List UInt8) :
    slice (s.writeAll p vs).cell a (n + vs.length) = m ++ vs := by
  rw [slice_add, slice_writeAll_below hp.ge, h, ← hp, slice_writeAll_self]

end Slots

end ShZ001.Lib
