/-
C strings as byte lists.

# Text as a list

A pointer into a NUL-terminated text is the suffix it points at, so
pointer arithmetic is list arithmetic and the terminator is the end of
the list. A function that moves a `char *` along a text becomes a
function from suffixes to suffixes, and a difference of two pointers a
difference of two lengths. `strstr` is written that way: it gives the
suffix at the first place where the pattern begins.

# Text in a memory

Where bytes are addressed instead, a memory is a function from positions
to bytes, and `slice` reads a piece of it out. Whatever is beyond the
piece plays no part (`slice_congr`), and a piece is made of pieces
(`slice_add`, `slice_append_eq`), so what a program has written field by
field can be read back field by field. `cstr` is the text that a stored
array holds: what precedes its first NUL.
-/
import Mathlib.Data.List.Infix
import Mathlib.Data.List.TakeWhile

namespace ShZ001.Lib

/-- A string literal of the source, as bytes (its terminator is the end
of the list). -/
def bytes (s : String) : List UInt8 :=
  s.toList.map fun c => c.toNat.toUInt8

/-- The C string stored in a byte array: what precedes its first NUL. -/
def cstr (l : List UInt8) : List UInt8 := l.takeWhile (· ≠ 0)

/-- The `n` bytes of a memory from `p` on. -/
def slice (mem : Nat → UInt8) : Nat → Nat → List UInt8
  | _, 0 => []
  | p, n + 1 => mem p :: slice mem (p + 1) n

/-- `strstr`: the suffix of the text at the first occurrence of `pat`. -/
def strstr (pat : List UInt8) : List UInt8 → Option (List UInt8)
  | [] => if pat = [] then some [] else none
  | c :: rest =>
      if pat.isPrefixOf (c :: rest) then some (c :: rest)
      else strstr pat rest

-- =================================================================== slices

/-- A slice has as many bytes as were asked for, whether or not the memory
means anything there. -/
@[simp] theorem slice_length (mem : Nat → UInt8) (p n : Nat) :
    (slice mem p n).length = n := by
  induction n generalizing p with
  | zero => rfl
  | succ n ih => simp [slice, ih]

/-- A slice is read in two parts, the second where the first one ends. -/
theorem slice_add (mem : Nat → UInt8) (p m n : Nat) :
    slice mem p (m + n) = slice mem p m ++ slice mem (p + m) n := by
  induction m generalizing p with
  | zero => simp [slice]
  | succ m ih =>
      have hstep : p + (m + 1) = p + 1 + m := by omega
      rw [Nat.succ_add, slice, slice, ih, List.cons_append, hstep]

/-- What stands in a slice is what the memory holds at that place. -/
theorem slice_getElem? (mem : Nat → UInt8) (p n : Nat) {k : Nat}
    (h : k < n) : (slice mem p n)[k]? = some (mem (p + k)) := by
  induction n generalizing p k with
  | zero => exact absurd h (Nat.not_lt_zero k)
  | succ n ih =>
      cases k with
      | zero => rfl
      | succ k =>
          rw [slice, List.getElem?_cons_succ, ih (p + 1) (by omega)]
          congr 2
          omega

/-- A memory holds two pieces one behind the other. -/
theorem slice_append_eq {mem : Nat → UInt8} {p : Nat} {a b : List UInt8} :
    slice mem p (a ++ b).length = a ++ b ↔
      slice mem p a.length = a ∧ slice mem (p + a.length) b.length = b := by
  rw [List.length_append, slice_add]
  constructor
  · intro h
    exact List.append_inj h (slice_length ..)
  · intro h
    obtain ⟨ha, hb⟩ := h
    rw [ha, hb]

/-- A memory holds a byte and a piece behind it: a text is checked from its
front. -/
theorem slice_cons_eq {mem : Nat → UInt8} {p : Nat} {c : UInt8}
    {b : List UInt8} :
    slice mem p (c :: b).length = c :: b ↔
      mem p = c ∧ slice mem (p + 1) b.length = b := by
  rw [List.length_cons, slice, List.cons.injEq]

/-- Memories that agree on a range have the same slice there. -/
theorem slice_congr {mem mem' : Nat → UInt8} {p n : Nat}
    (h : ∀ k, k < n → mem' (p + k) = mem (p + k)) :
    slice mem' p n = slice mem p n := by
  induction n generalizing p with
  | zero => rfl
  | succ n ih =>
      have hrest : slice mem' (p + 1) n = slice mem (p + 1) n := by
        refine ih fun k hk => ?_
        have := h (k + 1) (by omega)
        rwa [show p + (k + 1) = p + 1 + k by omega] at this
      rw [slice, slice, hrest, show mem' p = mem p from h 0 (by omega)]

/-- A memory that agrees with a text holds it. -/
theorem slice_eq {mem : Nat → UInt8} {p : Nat} {l : List UInt8}
    (h : ∀ k, k < l.length → l[k]? = some (mem (p + k))) :
    slice mem p l.length = l := by
  refine List.ext_getElem? fun k => ?_
  rcases Nat.lt_or_ge k l.length with hlt | hge
  · rw [slice_getElem? mem p l.length hlt, h k hlt]
  · rw [List.getElem?_eq_none hge, List.getElem?_eq_none (by simpa)]

/-- A C string ends at its terminator, whatever follows. -/
theorem cstr_append_zero (l rest : List UInt8) :
    cstr (l ++ 0 :: rest) = cstr l := by
  unfold cstr
  induction l with
  | nil => simp
  | cons b l ih =>
      rw [List.cons_append, List.takeWhile_cons, List.takeWhile_cons, ih]

-- ============================================================ what it finds

/-- The search succeeds exactly on the texts that contain the pattern. -/
theorem strstr_isSome {pat s : List UInt8} :
    (strstr pat s).isSome = true ↔ pat <:+: s := by
  induction s with
  | nil =>
      unfold strstr
      split
      case isTrue hp => simp [hp]
      case isFalse hp => simpa using hp
  | cons c rest ih =>
      unfold strstr
      rw [List.infix_cons_iff]
      split
      case isTrue hp =>
          simpa using Or.inl (List.isPrefixOf_iff_prefix.mp hp)
      case isFalse hp =>
          rw [ih]
          exact ⟨Or.inr, fun h => h.resolve_left fun hpre =>
            hp (List.isPrefixOf_iff_prefix.mpr hpre)⟩

end ShZ001.Lib
