/-
What the storage of an object holds after a list of uses, and whether
the stores among these stay inside.

# Blocks that grow

A `realloc` that succeeds keeps the contents and changes the size. Bytes
that have never been stored to hold whatever the memory held, those that
a `realloc` adds too: `cell` goes on past the end of a block
(`Lib/Slots.lean`), and what it has there is what the block will grow
into. So no use has to be told what fresh memory holds, and a program
that reads a byte it never wrote reads that of the parameter.

# Following a list of uses

`contentsAfter` and `homeAfter` follow the same uses, one the bytes, the
other the address; `StoresInside` asks of every store that it goes to
the place where the object is then, and into its size. A program that
records its uses in order adds at the end, so the lemmas here are about
one more use at the end.
-/
import ShZ001.Lib.Slots
import ShZ001.Lib.Storage

namespace ShZ001.Lib

/-- The object after one use. -/
def Use.onto (s : Slots UInt8) : Use → Slots UInt8
  | realloc _ size (some _) => { s with size := size }
  | realloc _ _ none => s
  | store _ offset bytes => s.writeAll offset bytes
  | load _ => s
  | free _ => s

/-- The object after all of them. -/
def contentsAfter : Slots UInt8 → List Use → Slots UInt8
  | s, [] => s
  | s, u :: us => contentsAfter (u.onto s) us

/-- A store is to the object, where it is, and inside it. -/
def Use.Inside (h : Option Ptr) (s : Slots UInt8) : Use → Prop
  | realloc _ _ _ => True
  | store p offset bytes => h = some p ∧ offset + bytes.length ≤ s.size
  | load _ => True
  | free _ => True

/-- All stores are; the object starts at `h` as `s`. -/
def StoresInside : Option Ptr → Slots UInt8 → List Use → Prop
  | _, _, [] => True
  | h, s, u :: us => u.Inside h s ∧ StoresInside (u.home h) (u.onto s) us

/-- One more use acts on what the uses before it have left. -/
theorem contentsAfter_concat (s : Slots UInt8) (us : List Use) (u : Use) :
    contentsAfter s (us ++ [u]) = u.onto (contentsAfter s us) := by
  induction us generalizing s with
  | nil => rfl
  | cons v us ih => exact ih (v.onto s)

/-- One more use may move the object again. -/
theorem homeAfter_concat (h : Option Ptr) (us : List Use) (u : Use) :
    homeAfter h (us ++ [u]) = u.home (homeAfter h us) := by
  rw [homeAfter_append]
  rfl

/-- One more use stays inside if it does so where, and of the size that,
the object is by then. -/
theorem storesInside_concat {h : Option Ptr} {s : Slots UInt8}
    {us : List Use} {u : Use} :
    StoresInside h s (us ++ [u]) ↔
      StoresInside h s us ∧
        u.Inside (homeAfter h us) (contentsAfter s us) := by
  induction us generalizing h s with
  | nil => exact and_comm
  | cons v us ih =>
      show v.Inside h s ∧ StoresInside (v.home h) (v.onto s) (us ++ [u]) ↔ _
      rw [ih, ← and_assoc]
      rfl

end ShZ001.Lib
