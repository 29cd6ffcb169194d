/-
Searching texts that are put together from pieces.

# Patterns across a boundary

A pattern that is in none of two pieces may still lie across their
boundary. It does not if the second piece begins with a byte that the
pattern has in its first place at most (`Parts`): a match that reaches
into the second piece would have that byte further back. Texts with
separators are of this kind, and so are texts whose pieces begin with
the pattern itself.

# Passing over a piece

Then `strstr` passes over a piece without the pattern (`strstr_skip`),
and it finds the pattern where a piece begins with it (`strstr_here`).
In the other direction, a text in which the pattern occurs can be cut at
the first place (`exists_first`), so a search can be followed without
knowing how the text was made.

# Counting

`occurs` counts the places where the pattern begins, overlapping ones
too. Occurrences of pieces add up (`occurs_append`), and a search that
jumps from one place to the next meets each of them (`occurs_strstr`).
-/
import ShZ001.Lib.Bytes

namespace ShZ001.Lib

/-- The text does not begin in the middle of the pattern. -/
def Parts (pat s : List UInt8) : Prop := ∀ c ∈ s.head?, c ∉ pat.tail

/-- Behind the last piece there is nothing to reach into. -/
theorem parts_nil (pat : List UInt8) : Parts pat [] := nofun

/-- It is the first byte that matters. -/
theorem parts_cons {pat : List UInt8} {c : UInt8} {s : List UInt8} :
    Parts pat (c :: s) ↔ c ∉ pat.tail := by
  simp [Parts]

/-- A pattern that begins before such a text is inside what is before. -/
theorem prefix_of_parts {pat a s : List UInt8} (hs : Parts pat s)
    (ha : a ≠ []) (h : pat <+: a ++ s) : pat <+: a := by
  rcases Nat.lt_or_ge a.length pat.length with hlt | hge
  · -- the text begins inside the pattern, behind its first byte
    exfalso
    obtain ⟨c, a, rfl⟩ := List.exists_cons_of_ne_nil ha
    obtain ⟨rest, hrest⟩ :=
      List.prefix_of_prefix_length_le (List.prefix_append (c :: a) s) h
        hlt.le
    subst hrest
    have hrest : rest <+: s := by
      simpa using h
    cases rest with
    | nil => simp at hlt
    | cons d rest =>
        obtain ⟨s', rfl⟩ := hrest
        exact parts_cons.mp hs (by simp)
  · exact List.prefix_of_prefix_length_le h (List.prefix_append a s) hge

/-- A pattern that is in two pieces together is in one of them. -/
theorem infix_append_parts {pat a s : List UInt8} (hs : Parts pat s) :
    pat <:+: a ++ s ↔ pat <:+: a ∨ pat <:+: s := by
  constructor
  · intro h
    induction a with
    | nil => exact .inr h
    | cons c a ih =>
        rw [List.cons_append, List.infix_cons_iff] at h
        rcases h with h | h
        · exact .inl (prefix_of_parts hs (List.cons_ne_nil c a) h).isInfix
        · rcases ih h with h | h
          · exact .inl (List.infix_cons_iff.mpr (.inr h))
          · exact .inr h
  · intro h'
    rcases h' with h | h
    · exact h.trans (List.prefix_append a s).isInfix
    · exact h.trans (List.suffix_append a s).isInfix

-- =================================================================== strstr

/-- A text that begins with the pattern is found at once. -/
theorem strstr_here {pat : List UInt8} (hpat : pat ≠ []) (s : List UInt8) :
    strstr pat (pat ++ s) = some (pat ++ s) := by
  obtain ⟨c, pat, rfl⟩ := List.exists_cons_of_ne_nil hpat
  rw [List.cons_append, strstr, if_pos]
  exact List.isPrefixOf_iff_prefix.mpr (List.prefix_append (c :: pat) s)

/-- A text without the pattern is searched in vain. -/
theorem strstr_none {pat s : List UInt8} (h : ¬ pat <:+: s) :
    strstr pat s = none := by
  cases hs : strstr pat s with
  | none => rfl
  | some r => exact absurd (strstr_isSome.mp (by rw [hs]; rfl)) h

/-- The search passes over a piece without the pattern. -/
theorem strstr_skip {pat a s : List UInt8} (hs : Parts pat s)
    (h : ¬ pat <:+: a) : strstr pat (a ++ s) = strstr pat s := by
  induction a with
  | nil => rfl
  | cons c a ih =>
      rw [List.infix_cons_iff, not_or] at h
      rw [List.cons_append, strstr, if_neg, ih h.2]
      intro hpre
      exact h.1 (prefix_of_parts hs (List.cons_ne_nil c a)
        (List.isPrefixOf_iff_prefix.mp hpre))

/-- A pattern is not in a text without its first byte. -/
theorem not_infix_of_head {c : UInt8} {pat a : List UInt8} (h : c ∉ a) :
    ¬ c :: pat <:+: a :=
  fun hin => h (hin.subset List.mem_cons_self)

/-- A text with the pattern, cut at its first occurrence. -/
theorem exists_first {pat s : List UInt8} (h : pat <:+: s)
    (hpat : pat ≠ []) : ∃ a b, s = a ++ (pat ++ b) ∧
      (Parts pat pat → ¬ pat <:+: a) := by
  induction s with
  | nil => exact absurd (List.eq_nil_of_infix_nil h) hpat
  | cons c s ih =>
      by_cases hpre : pat <+: c :: s
      · obtain ⟨b, hb⟩ := hpre
        refine ⟨[], b, hb.symm, fun _ hin => hpat ?_⟩
        exact List.eq_nil_of_infix_nil hin
      · obtain ⟨a, b, rfl, hfree⟩ :=
          ih ((List.infix_cons_iff.mp h).resolve_left hpre)
        refine ⟨c :: a, b, rfl, fun hparts hin => ?_⟩
        rcases List.infix_cons_iff.mp hin with hin | hin
        · exact hpre (hin.trans (List.prefix_append (c :: a) (pat ++ b)))
        · exact hfree hparts hin

-- ============================================================== occurrences

/-- The places where the pattern occurs. -/
def occurs (pat : List UInt8) : List UInt8 → Nat
  | [] => 0
  | c :: s => (if pat.isPrefixOf (c :: s) then 1 else 0) + occurs pat s

/-- The places of two pieces are the places of both. -/
theorem occurs_append {pat a s : List UInt8} (hs : Parts pat s) :
    occurs pat (a ++ s) = occurs pat a + occurs pat s := by
  induction a with
  | nil => simp [occurs]
  | cons c a ih =>
      have hiff : pat.isPrefixOf (c :: (a ++ s))
          = pat.isPrefixOf (c :: a) := by
        rw [Bool.eq_iff_iff, List.isPrefixOf_iff_prefix,
          List.isPrefixOf_iff_prefix]
        refine ⟨prefix_of_parts hs (List.cons_ne_nil c a), fun h => ?_⟩
        exact h.trans (List.prefix_append (c :: a) s)
      rw [List.cons_append, occurs, occurs, ih, hiff, Nat.add_assoc]

/-- There is no place exactly if the pattern is not in the text. -/
theorem occurs_eq_zero {pat s : List UInt8} (hpat : pat ≠ []) :
    occurs pat s = 0 ↔ ¬ pat <:+: s := by
  induction s with
  | nil => simpa [occurs] using hpat
  | cons c s ih =>
      rw [occurs, Nat.add_eq_zero_iff, ih, List.infix_cons_iff, not_or]
      simp

/-- It does not occur in a text without its first byte, nor across the end
of one. -/
theorem occurs_free {c : UInt8} {a : List UInt8} (h : c ∉ a)
    (pat s : List UInt8) :
    occurs (c :: pat) (a ++ s) = occurs (c :: pat) s := by
  induction a with
  | nil => rfl
  | cons d a ih =>
      rw [List.mem_cons, not_or] at h
      have hpre : ¬ (c :: pat).isPrefixOf (d :: (a ++ s)) = true := by
        rw [List.isPrefixOf_iff_prefix, List.cons_prefix_cons]
        exact fun hpre => h.1 hpre.1
      rw [List.cons_append, occurs, if_neg hpre, Nat.zero_add, ih h.2]

/-- The pattern occurs in itself once, if its first byte is nowhere else
in it. -/
theorem occurs_self {c : UInt8} {pat : List UInt8} (hc : c ∉ pat)
    (s : List UInt8) :
    occurs (c :: pat) (c :: pat ++ s) = occurs (c :: pat) s + 1 := by
  have hpre : (c :: pat).isPrefixOf (c :: (pat ++ s)) = true :=
    List.isPrefixOf_iff_prefix.mpr (List.prefix_append (c :: pat) s)
  rw [List.cons_append, occurs, if_pos hpre, occurs_free hc, Nat.add_comm]

/-- Nothing occurs before the place that the search finds. -/
theorem occurs_strstr {pat s r : List UInt8} (h : strstr pat s = some r) :
    occurs pat s = occurs pat r := by
  induction s with
  | nil =>
      unfold strstr at h
      split at h
      · cases h
        rfl
      · cases h
  | cons c s ih =>
      unfold strstr at h
      split at h
      · cases h
        rfl
      · rename_i hpre
        rw [occurs, if_neg hpre, Nat.zero_add, ih h]

/-- Nor anywhere, if it finds none. -/
theorem occurs_none {pat s : List UInt8} (hpat : pat ≠ [])
    (h : strstr pat s = none) : occurs pat s = 0 := by
  rw [occurs_eq_zero hpat, ← strstr_isSome, h]
  exact Bool.false_ne_true

/-- A part of a text has no more occurrences. -/
theorem occurs_suffix {pat s t : List UInt8} (h : s <:+ t) :
    occurs pat s ≤ occurs pat t := by
  obtain ⟨a, rfl⟩ := h
  induction a with
  | nil => exact Nat.le_refl _
  | cons c a ih =>
      rw [List.cons_append, occurs]
      exact ih.trans (Nat.le_add_left _ _)

/-- What the search gives is an end of the text. -/
theorem strstr_suffix {pat s r : List UInt8} (h : strstr pat s = some r) :
    r <:+ s := by
  induction s with
  | nil =>
      unfold strstr at h
      split at h
      · cases h
        exact List.suffix_refl _
      · cases h
  | cons c s ih =>
      unfold strstr at h
      split at h
      · cases h
        exact List.suffix_refl _
      · exact (ih h).trans (List.suffix_cons c s)

/-- It finds the pattern. -/
theorem strstr_begins {pat s r : List UInt8} (h : strstr pat s = some r) :
    pat <+: r := by
  induction s with
  | nil =>
      unfold strstr at h
      split at h
      · rename_i hpat
        cases h
        exact hpat ▸ List.nil_prefix
      · cases h
  | cons c s ih =>
      unfold strstr at h
      split at h
      · rename_i hpre
        cases h
        exact List.isPrefixOf_iff_prefix.mp hpre
      · exact ih h

end ShZ001.Lib
