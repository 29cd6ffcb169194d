/-
The string functions of C on texts that lie in blocks of memory, with
the positions they touch.

# Functions without a length

A text without a terminator has no end, and C does not say where a
search stops then: the functions take a number of bytes to look at, and
answer `none` if there is no NUL among them. A program that uses them
says how many bytes it is ready to follow.

# Texts in their places

`TextAt mem p t` says that the C string `t` stands at a place of a
memory: its bytes, the NUL behind them, and no NUL before. There each
function does what it does on lists (`strlen_eq`, `strstrAt_eq`,
`strncpy_eq`, `strcpy_eq`), and what it touches is the text and its
terminator. There is only one text at a place (`textAt_unique`), so a
function that reads a text can be described by the text.
-/
import ShZ001.Lib.Slots

namespace ShZ001.Lib

-- ============================================================= the functions

/-- `strlen`, of the text at `p`. -/
def strlen (mem : Nat → UInt8) : Nat → Nat → Option Nat
  | 0, _ => none
  | fuel + 1, p =>
      if mem p = 0 then some 0 else (strlen mem fuel (p + 1)).map (· + 1)

namespace Slots

/-- Reads of `n` consecutive positions, from `p` on. -/
def touchAll {α : Type*} (p n : Nat) (s : Slots α) : Slots α :=
  { s with touched := List.range' p n ++ s.touched }

/-- `strstr`, in the text at `p`. It may read all of the text and its
terminator, and nothing else. -/
def strstrAt (fuel : Nat) (pat : List UInt8) (p : Nat) (s : Slots UInt8) :
    Option (Option Nat × Slots UInt8) :=
  match strlen s.cell fuel p with
  | none => none
  | some n =>
      some ((strstr pat (slice s.cell p n)).map fun r => p + (n - r.length),
        s.touchAll p (n + 1))

/-- `strncpy` of `n` bytes, from `p` on, to the beginning of `dst`: the text
there, cut off or filled up with zeros. -/
def strncpy (src : Slots UInt8) (p n : Nat) (dst : Slots UInt8) :
    Slots UInt8 × Slots UInt8 :=
  let t := cstr (slice src.cell p n)
  (src.touchAll p (min n (t.length + 1)),
    dst.writeAll 0 (t ++ List.replicate (n - t.length) 0))

/-- `strcpy` of the text at the beginning of `src`. -/
def strcpy (fuel : Nat) (src dst : Slots UInt8) :
    Option (Slots UInt8 × Slots UInt8) :=
  match strlen src.cell fuel 0 with
  | none => none
  | some n =>
      some (src.touchAll 0 (n + 1), dst.writeAll 0 (slice src.cell 0 (n + 1)))

/-- Reads of positions that are all in the block. -/
theorem InBounds.touchAll {α : Type*} {s : Slots α} (h : s.InBounds)
    {p n : Nat} (hn : p + n ≤ s.size) : (s.touchAll p n).InBounds := by
  intro q hq
  rcases List.mem_append.mp hq with hq | hq
  · have := (List.mem_range'_1.mp hq).2
    exact lt_of_lt_of_le this hn
  · exact h q hq

end Slots

-- =================================================================== the texts

/-- The C string `t` stands at `p`. -/
structure TextAt (mem : Nat → UInt8) (p : Nat) (t : List UInt8) : Prop where
  bytes : slice mem p t.length = t
  nul : mem (p + t.length) = 0
  clean : ∀ b ∈ t, b ≠ 0

/-- `strlen` counts a text that ends within its budget. -/
theorem strlen_eq {mem : Nat → UInt8} {p : Nat} {t : List UInt8}
    (h : TextAt mem p t) {fuel : Nat} (hfuel : t.length < fuel) :
    strlen mem fuel p = some t.length := by
  obtain ⟨hbytes, hnul, hclean⟩ := h
  induction t generalizing fuel p with
  | nil =>
      obtain ⟨fuel, rfl⟩ := Nat.exists_eq_add_one_of_ne_zero
        (Nat.ne_of_gt hfuel)
      exact if_pos hnul
  | cons c t ih =>
      obtain ⟨fuel, rfl⟩ := Nat.exists_eq_add_one_of_ne_zero
        (Nat.ne_of_gt (Nat.zero_lt_of_lt hfuel))
      obtain ⟨hc, ht⟩ := slice_cons_eq.mp hbytes
      obtain ⟨hne, hclean⟩ := List.forall_mem_cons.mp hclean
      rw [List.length_cons] at hfuel hnul
      rw [strlen, if_neg (by rw [hc]; exact hne),
        ih (Nat.lt_of_succ_lt_succ hfuel) ht
          (by rw [← hnul]; congr 1; omega) hclean]
      rfl

/-- There is one C string at a place. -/
theorem textAt_unique {mem : Nat → UInt8} {p : Nat} {t t' : List UInt8}
    (h : TextAt mem p t) (h' : TextAt mem p t') : t = t' := by
  have hlen : strlen mem (t.length + t'.length + 1) p = some t.length :=
    strlen_eq h (by omega)
  rw [strlen_eq h' (by omega)] at hlen
  rw [← h.bytes, ← h'.bytes, Option.some.inj hlen]

/-- The part of a text from a position on. -/
theorem TextAt.drop {mem : Nat → UInt8} {p : Nat} {t : List UInt8}
    (h : TextAt mem p t) {k : Nat} (hk : k ≤ t.length) :
    TextAt mem (p + k) (t.drop k) := by
  have hsplit := h.bytes
  rw [← List.take_append_drop k t, slice_append_eq,
    List.length_take_of_le hk] at hsplit
  refine ⟨hsplit.2, ?_, fun b hb => h.clean b (List.mem_of_mem_drop hb)⟩
  rw [List.length_drop, Nat.add_assoc, Nat.add_sub_cancel' hk]
  exact h.nul

namespace Slots

/-- `strstr` in a text finds the place it finds on the list, and touches
the text and its terminator. -/
theorem strstrAt_eq {s : Slots UInt8} {p : Nat} {t : List UInt8}
    (h : TextAt s.cell p t) {fuel : Nat} (hfuel : t.length < fuel)
    (pat : List UInt8) :
    s.strstrAt fuel pat p
      = some ((strstr pat t).map fun r => p + (t.length - r.length),
        s.touchAll p (t.length + 1)) := by
  rw [strstrAt, strlen_eq h hfuel]
  dsimp only
  rw [h.bytes]

/-- `strcpy` reads the text with its terminator and writes both. -/
theorem strcpy_eq {src : Slots UInt8} {t : List UInt8}
    (h : TextAt src.cell 0 t) {fuel : Nat} (hfuel : t.length < fuel)
    (dst : Slots UInt8) :
    src.strcpy fuel dst
      = some (src.touchAll 0 (t.length + 1), dst.writeAll 0 (t ++ [0])) := by
  have hbytes : slice src.cell 0 (t.length + 1) = t ++ [0] := by
    rw [slice_add, h.bytes]
    congr 1
    exact congrArg (· :: []) h.nul
  rw [strcpy, strlen_eq h hfuel]
  dsimp only
  rw [hbytes]

/-- A part of a text is copied as it is. -/
theorem strncpy_eq {src : Slots UInt8} {p : Nat} {t : List UInt8}
    (h : TextAt src.cell p t) {n : Nat} (hn : n ≤ t.length)
    (dst : Slots UInt8) :
    src.strncpy p n dst = (src.touchAll p n, dst.writeAll 0 (t.take n)) := by
  have hbytes : slice src.cell p n = t.take n := by
    have hsplit := h.bytes
    rw [← List.take_append_drop n t, slice_append_eq,
      List.length_take_of_le hn] at hsplit
    exact hsplit.1
  have hcstr : cstr (t.take n) = t.take n :=
    List.takeWhile_eq_self_iff.mpr fun b hb =>
      decide_eq_true (h.clean b (List.mem_of_mem_take hb))
  have hmin : min n (n + 1) = n := by omega
  unfold strncpy
  rw [hbytes]
  dsimp only
  rw [hcstr, List.length_take_of_le hn, hmin, Nat.sub_self,
    List.replicate_zero, List.append_nil]

/-- A text that was written with its terminator stands there. -/
theorem textAt_writeAll {t : List UInt8} (h : ∀ b ∈ t, b ≠ 0) (p : Nat)
    (s : Slots UInt8) : TextAt (s.writeAll p (t ++ [0])).cell p t := by
  have hall := slice_writeAll_self p (t ++ [0]) s
  obtain ⟨hbytes, hnul⟩ := slice_append_eq.mp hall
  exact ⟨hbytes, (List.cons.inj hnul).1, h⟩

end Slots

end ShZ001.Lib
