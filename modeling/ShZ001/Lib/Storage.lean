/-
Who may use the storage of one object, and through which pointer.

# Objects that move

The object lives in an array of some frame or in a heap block, and moves
when a `realloc` answers with another address. A program that keeps the
old address, or that hands an array to `realloc`, uses storage that is
not its own. Whether it does is decided by the order of its uses alone,
so a program is modelled by the list of its uses.

# Ownership

`OwnedUses` says that every use goes through a pointer to where the
object is at that moment, and that `realloc` and `free` are given blocks
only. `homeAfter` is where the object is then, if it is anywhere.
Nothing is assumed of the allocator: it may hand an address out again,
so a stale pointer can be right again later, and the law is about each
use at its moment.
-/
import Mathlib.Data.List.Basic

namespace ShZ001.Lib

/-- A pointer into an array, or to a heap block. -/
inductive Ptr
  | array
  | block (addr : Nat)
  deriving DecidableEq, Repr

/-- What can be done with the storage; `realloc` with its answer. -/
inductive Use
  | realloc (p : Ptr) (size : Nat) (answer : Option Nat)
  | store (p : Ptr) (offset : Nat) (bytes : List UInt8)
  | load (p : Ptr)
  | free (p : Ptr)

/-- Where the object is afterwards, `none` once it is freed. A `realloc`
that fails leaves it where it was. -/
def Use.home (h : Option Ptr) : Use → Option Ptr
  | realloc _ _ (some a) => some (.block a)
  | realloc _ _ none => h
  | store _ _ _ => h
  | load _ => h
  | free _ => none

/-- Is the use one of the object? -/
def Use.Allowed (h : Option Ptr) : Use → Prop
  | realloc p _ _ => h = some p ∧ p ≠ .array
  | store p _ _ => h = some p
  | load p => h = some p
  | free p => h = some p ∧ p ≠ .array

instance (h : Option Ptr) : (u : Use) → Decidable (u.Allowed h)
  | .realloc p _ _ => inferInstanceAs (Decidable (h = some p ∧ p ≠ .array))
  | .store p _ _ => inferInstanceAs (Decidable (h = some p))
  | .load p => inferInstanceAs (Decidable (h = some p))
  | .free p => inferInstanceAs (Decidable (h = some p ∧ p ≠ .array))

/-- Where the object is after all of them. -/
def homeAfter : Option Ptr → List Use → Option Ptr
  | h, [] => h
  | h, u :: us => homeAfter (u.home h) us

/-- Every use is one of the object, which starts at `h`. -/
def OwnedUses : Option Ptr → List Use → Prop
  | _, [] => True
  | h, u :: us => u.Allowed h ∧ OwnedUses (u.home h) us

instance decidableOwned : (h : Option Ptr) → (us : List Use) →
    Decidable (OwnedUses h us)
  | _, [] => isTrue trivial
  | h, u :: us =>
      have := decidableOwned (u.home h) us
      inferInstanceAs (Decidable (u.Allowed h ∧ OwnedUses (u.home h) us))

/-- Uses are followed in two parts. -/
theorem homeAfter_append (h : Option Ptr) (us us' : List Use) :
    homeAfter h (us ++ us') = homeAfter (homeAfter h us) us' := by
  induction us generalizing h with
  | nil => rfl
  | cons u us ih => exact ih (u.home h)

/-- And judged in two parts, the second from where the first one has left
the object. -/
theorem owned_append {h : Option Ptr} {us us' : List Use} :
    OwnedUses h (us ++ us') ↔
      OwnedUses h us ∧ OwnedUses (homeAfter h us) us' := by
  induction us generalizing h with
  | nil => simp [OwnedUses, homeAfter]
  | cons u us ih =>
      show u.Allowed h ∧ OwnedUses (u.home h) (us ++ us') ↔ _
      rw [ih, ← and_assoc]
      rfl

/-- One more use. -/
theorem owned_concat {h : Option Ptr} {us : List Use} {u : Use} :
    OwnedUses h (us ++ [u]) ↔ OwnedUses h us ∧ u.Allowed (homeAfter h us) := by
  simp [owned_append, OwnedUses]

/-- Reading the object where it is. -/
theorem owned_loads {p : Ptr} (n : Nat) :
    OwnedUses (some p) (List.replicate n (.load p)) ∧
      homeAfter (some p) (List.replicate n (.load p)) = some p := by
  induction n with
  | zero => exact ⟨trivial, rfl⟩
  | succ n ih => exact ⟨⟨rfl, ih.1⟩, ih.2⟩

end ShZ001.Lib
