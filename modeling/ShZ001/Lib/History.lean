/-
Newest-first histories: what a system has done, one entry consed on per
observable event.

# Why histories

A property of a run that talks about the past ("the last callback since
the last connect", "no free of a freed block") is not a property of the
state a program keeps, but it is one of the history, so with the history
in the state it can be an invariant. The newest entry comes first: what
a step adds is a cons, and the past of an entry is the tail behind it.

# What is said about them

`Always P h` says that every entry satisfied `P` against the entries
before it. Consing one entry costs one `P` (`always_cons`), which is
what a step of an invariant proof has to show; `always_at` reads the
fact off again at any place of a long history. `since mark h` cuts a
history at the newest entry that satisfies `mark`: what has happened in
the present episode.
-/
import Mathlib.Data.List.Basic

namespace ShZ001.Lib

variable {ε β : Type*}

/-- Every entry of the history satisfies `P` against its own past. -/
def Always (P : ε → List ε → Prop) : List ε → Prop
  | [] => True
  | e :: past => P e past ∧ Always P past

@[simp] theorem always_nil (P : ε → List ε → Prop) : Always P [] := trivial

/-- The rule an invariant proof steps by: the new entry against the past,
and the past by itself. -/
@[simp] theorem always_cons {P : ε → List ε → Prop} {e : ε}
    {past : List ε} : Always P (e :: past) ↔ P e past ∧ Always P past :=
  Iff.rfl

/-- Every entry, wherever it is. -/
theorem always_at {P : ε → List ε → Prop} {later past : List ε} {e : ε}
    (h : Always P (later ++ e :: past)) : P e past := by
  induction later with
  | nil => exact h.1
  | cons e' later ih => exact ih h.2

/-- Entries that satisfy `P` against any past can be put on top. -/
theorem always_append {P : ε → List ε → Prop} {es h : List ε}
    (hes : ∀ e ∈ es, ∀ past, P e past) (hP : Always P h) :
    Always P (es ++ h) := by
  induction es with
  | nil => exact hP
  | cons e rest ih =>
      exact ⟨hes e List.mem_cons_self _,
        ih fun e' he' => hes e' (List.mem_cons_of_mem _ he')⟩

/-- The entries since (and without) the most recent one satisfying
`mark`, newest first; the whole history if there is none. -/
def since (mark : ε → Bool) : List ε → List ε
  | [] => []
  | e :: past => if mark e then [] else e :: since mark past

end ShZ001.Lib
