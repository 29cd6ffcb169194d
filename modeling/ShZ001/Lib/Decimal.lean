/-
Numbers as decimal text: the conversions `%u` and `%d` of `printf`, and
that what they print is read back.

# The texts

`decimal n` is the text of `n`, without leading zeros. Its loop takes off
the last digit first, so it appends; `fuel` is a bound on the digits that
are left, and one more than the number is enough for any number.

# Reading back

`decimalLoop_digits` says that the text consists of digits and denotes its
number. All else follows: a text is read back by `strtol`
(`strtol_decimal`) and by a reader that takes digits only
(`readDecimal_decimal`), two numbers have different texts
(`decimal_injective`), and what is no digit does not occur in one
(`not_mem_decimal`), which is what a text format with separators around
its numbers rests on.
-/
import ShZ001.Lib.Scan

namespace ShZ001.Lib

-- ================================================================= the texts

/-- The decimal digits of a number, at most `fuel` of them. -/
def decimalLoop : Nat → Nat → List UInt8
  | 0, _ => []
  | fuel + 1, n =>
      if n < 10 then [(0x30 + n).toUInt8]
      else decimalLoop fuel (n / 10) ++ [(0x30 + n % 10).toUInt8]

/-- `%u`. -/
def decimal (n : Nat) : List UInt8 := decimalLoop (n + 1) n

/-- `%d`. -/
def printInt (v : Int) : List UInt8 :=
  if v < 0 then 0x2d :: decimal v.natAbs else decimal v.natAbs

/-- The number that a text of nothing but digits denotes. -/
def readDecimal (ds : List UInt8) : Option Nat :=
  if ds ≠ [] ∧ ds.all (isDigit 10) then some (digitsVal 10 ds)
  else none

-- ================================================================ the digits

/-- The digits of a number denote it. -/
theorem decimalLoop_digits {fuel n : Nat} (h : n < fuel) :
    (∀ b ∈ decimalLoop fuel n, isDigit 10 b = true) ∧
      digitsVal 10 (decimalLoop fuel n) = n := by
  induction fuel generalizing n with
  | zero => exact absurd h (Nat.not_lt_zero n)
  | succ fuel ih =>
      unfold decimalLoop
      split
      case isTrue hlt =>
          refine ⟨fun b hb => ?_, ?_⟩
          · rw [List.mem_singleton.mp hb]
            exact isDigit_digit hlt
          · have hval := digitsVal_concat 10 [] (0x30 + n).toUInt8
            rw [digitVal_digit hlt] at hval
            simpa [digitsVal] using hval
      case isFalse hge =>
          have hmod : n % 10 < 10 := Nat.mod_lt n (by decide)
          obtain ⟨hall, hval⟩ := ih (show n / 10 < fuel by omega)
          refine ⟨fun b hb => ?_, ?_⟩
          · rcases List.mem_append.mp hb with hb | hb
            · exact hall b hb
            · rw [List.mem_singleton.mp hb]
              exact isDigit_digit hmod
          · rw [digitsVal_concat, hval, digitVal_digit hmod,
              Option.getD_some]
            omega

/-- A number below `10 ^ (k + 1)` has at most `k + 1` digits. -/
theorem decimalLoop_length {fuel n k : Nat}
    (hn : n < Nat.pow 10 (k + 1)) :
    (decimalLoop fuel n).length ≤ k + 1 := by
  induction fuel generalizing n k with
  | zero => exact Nat.zero_le _
  | succ fuel ih =>
      unfold decimalLoop
      split
      case isTrue => exact Nat.succ_le_succ (Nat.zero_le k)
      case isFalse hge =>
          cases k with
          | zero =>
              change n < 10 at hn
              exact absurd hn hge
          | succ k =>
              have hdiv : n / 10 < Nat.pow 10 (k + 1) := by
                change n < Nat.pow 10 (k + 1) * 10 at hn
                omega
              rw [List.length_append, List.length_singleton]
              exact Nat.succ_le_succ (ih hdiv)

/-- There is a digit, and the first one is not a zero, but for zero. -/
theorem decimalLoop_head {fuel n : Nat} (h : n < fuel) :
    ∃ b ds, decimalLoop fuel n = b :: ds ∧ (b = 0x30 → n = 0) := by
  induction fuel generalizing n with
  | zero => exact absurd h (Nat.not_lt_zero n)
  | succ fuel ih =>
      unfold decimalLoop
      split
      case isTrue hlt =>
          have hzero : ∀ d < 10, (0x30 + d).toUInt8 = 0x30 → d = 0 := by
            decide
          exact ⟨_, [], rfl, hzero n hlt⟩
      case isFalse hge =>
          obtain ⟨b, ds, hds, hb⟩ := ih (show n / 10 < fuel by omega)
          refine ⟨b, ds ++ [(0x30 + n % 10).toUInt8], by rw [hds]; rfl,
            fun h0 => ?_⟩
          have := hb h0
          omega

/-- What is no digit is in no text of a number. -/
theorem not_mem_decimal {c : UInt8} (hc : isDigit 10 c = false) (n : Nat) :
    c ∉ decimal n := fun h => by
  have hall := (decimalLoop_digits (Nat.lt_succ_self n)).1 c h
  rw [hc] at hall
  cases hall

/-- Nor in that of an `int`, if it is no minus sign either. -/
theorem not_mem_printInt {c : UInt8} (hc : isDigit 10 c = false)
    (hsign : c ≠ 0x2d) (v : Int) : c ∉ printInt v := by
  have hdigits := not_mem_decimal hc v.natAbs
  unfold printInt
  split
  · rw [List.mem_cons, not_or]
    exact ⟨hsign, hdigits⟩
  · exact hdigits

-- ============================================================== reading back

/-- The text of a number that an `int` can hold is read back. -/
theorem strtol_decimal {n : Nat} (h : n < 2147483648) :
    strtol (decimal n) = n := by
  obtain ⟨hall, hval⟩ := decimalLoop_digits (Nat.lt_succ_self n)
  obtain ⟨b, ds, hds, hzero⟩ := decimalLoop_head (Nat.lt_succ_self n)
  by_cases hn : n = 0
  · subst hn
    decide
  have hb : b ≠ 0x30 := fun h0 => hn (hzero h0)
  unfold decimal
  rw [hds] at hall hval ⊢
  have hdigit := hall b List.mem_cons_self
  unfold strtol
  rw [List.dropWhile_cons, if_neg (by simp [isDigit_not_space hdigit]),
    readSign_digit hdigit]
  dsimp only
  rw [if_neg Bool.false_ne_true]
  split
  · rename_i heq
    cases heq
    exact absurd rfl hb
  · rename_i heq
    cases heq
    exact absurd rfl hb
  · rw [List.takeWhile_eq_self_iff.mpr hall, hval]
    unfold clamp32 int32Min int32Max
    omega

/-- A reader of digits gets the number. -/
theorem readDecimal_decimal (n : Nat) : readDecimal (decimal n) = some n := by
  obtain ⟨hall, hval⟩ := decimalLoop_digits (Nat.lt_succ_self n)
  obtain ⟨b, ds, hds, -⟩ := decimalLoop_head (Nat.lt_succ_self n)
  unfold readDecimal decimal
  rw [if_pos ⟨by rw [hds]; exact List.cons_ne_nil _ _,
    List.all_eq_true.mpr hall⟩, hval]

/-- Two numbers have two texts. -/
theorem decimal_injective {m n : Nat} (h : decimal m = decimal n) : m = n := by
  obtain ⟨-, hm⟩ := decimalLoop_digits (Nat.lt_succ_self m)
  obtain ⟨-, hn⟩ := decimalLoop_digits (Nat.lt_succ_self n)
  have heq : decimalLoop (m + 1) m = decimalLoop (n + 1) n := h
  rw [← hm, ← hn, heq]

end ShZ001.Lib
