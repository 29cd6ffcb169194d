/-
The C library's number readers, on texts as byte lists: `strtol` with
base 0 and the integer conversions of `sscanf`.

# Ranges

`int` and `long` have 32 bits, as on the target. A value out of range
saturates (`clamp32`), except that `%u` takes the value of `strtoul`,
whose minus is modulo 2^32, and what is stored in an `int` is the bits
(`asInt32`).

# The scan

A format is a list of directives, each with the variable it assigns. A
conversion that fails leaves its variable alone and ends the scan, so
`sscanf` is a function from the variables before to the variables after.
It is also the list of the values it converts, assigned one after the
other (`sscanf_eq`), and in that form it is plain that a variable the
text does not get to keeps the value it had (`sscanf_keeps`).
-/
import ShZ001.Lib.Bytes

namespace ShZ001.Lib

/-- `isspace` in the C locale. -/
def isSpace (b : UInt8) : Bool :=
  decide (b = 0x20) || (decide (9 ≤ b) && decide (b ≤ 13))

/-- The value of a digit below 36, letters in either case. -/
def digitVal (b : UInt8) : Option Nat :=
  if 0x30 ≤ b ∧ b ≤ 0x39 then some (b.toNat - 0x30)
  else if 0x41 ≤ b ∧ b ≤ 0x5a then some (b.toNat - 0x41 + 10)
  else if 0x61 ≤ b ∧ b ≤ 0x7a then some (b.toNat - 0x61 + 10)
  else none

/-- Is the byte a digit in this base? -/
def isDigit (base : Nat) (b : UInt8) : Bool :=
  match digitVal b with
  | some d => decide (d < base)
  | none => false

/-- The number that a string of digits denotes. -/
def digitsVal (base : Nat) (ds : List UInt8) : Nat :=
  ds.foldl (fun n b => n * base + (digitVal b).getD 0) 0

/-- An optional sign: is it a minus, and what follows. -/
def readSign : List UInt8 → Bool × List UInt8
  | 0x2d :: rest => (true, rest)
  | 0x2b :: rest => (false, rest)
  | t => (false, t)

/-- The bounds of a signed 32-bit integer. -/
def int32Min : Int := -2147483648

def int32Max : Int := 2147483647

/-- A value out of range becomes the nearest bound. -/
def clamp32 (v : Int) : Int := max int32Min (min v int32Max)

/-- The `int` with the bits of an unsigned 32-bit value. -/
def asInt32 (n : Nat) : Int :=
  let m := n % 4294967296
  if m < 2147483648 then m else (m : Int) - 4294967296

/-- `strtol(t, NULL, 0)`: blanks, a sign, and a number in the base its
prefix names. -/
def strtol (t : List UInt8) : Int :=
  let (neg, t) := readSign (t.dropWhile isSpace)
  let n : Nat :=
    match t with
    | 0x30 :: x :: d :: rest =>
        if (x = 0x78 ∨ x = 0x58) ∧ isDigit 16 d then
          digitsVal 16 ((d :: rest).takeWhile (isDigit 16))
        else digitsVal 8 ((x :: d :: rest).takeWhile (isDigit 8))
    | 0x30 :: rest => digitsVal 8 (rest.takeWhile (isDigit 8))
    | t => digitsVal 10 (t.takeWhile (isDigit 10))
  clamp32 (if neg then -n else n)

/-- What an integer conversion reads: blanks, a sign, at least one
decimal digit. -/
def scanNumber (t : List UInt8) : Option ((Bool × Nat) × List UInt8) :=
  let (neg, t) := readSign (t.dropWhile isSpace)
  let ds := t.takeWhile (isDigit 10)
  if ds = [] then none
  else some ((neg, digitsVal 10 ds), t.dropWhile (isDigit 10))

/-- `%u` into an `int`: `strtoul`'s value, which saturates, and whose
minus is modulo 2^32. -/
def unsignedVal (neg : Bool) (n : Nat) : Int :=
  if 4294967295 < n then asInt32 4294967295
  else asInt32 (if neg then 4294967296 - n else n)

/-- `%d` into an `int`: `strtol`'s value. -/
def signedVal (neg : Bool) (n : Nat) : Int :=
  clamp32 (if neg then -n else n)

/-- A directive of a `sscanf` format; `σ` are the variables it assigns. -/
inductive Directive (σ : Type*)
  | unsigned (assign : Int → σ → σ)
  | signed (assign : Int → σ → σ)
  | literal (c : UInt8)

/-- `sscanf`: the variables after the scan. -/
def sscanf {σ : Type*} : List (Directive σ) → List UInt8 → σ → σ
  | [], _, vars => vars
  | .unsigned assign :: rest, t, vars =>
      match scanNumber t with
      | some ((neg, n), t) => sscanf rest t (assign (unsignedVal neg n) vars)
      | none => vars
  | .signed assign :: rest, t, vars =>
      match scanNumber t with
      | some ((neg, n), t) => sscanf rest t (assign (signedVal neg n) vars)
      | none => vars
  | .literal c :: rest, t, vars =>
      match t with
      | b :: t => if b = c then sscanf rest t vars else vars
      | [] => vars

/-- The values `sscanf` assigns, in order. Their number is what it returns
(or `EOF`, if the text ends before the first). -/
def converted {σ : Type*} : List (Directive σ) → List UInt8 → List Int
  | [], _ => []
  | .unsigned _ :: rest, t =>
      match scanNumber t with
      | some ((neg, n), t) => unsignedVal neg n :: converted rest t
      | none => []
  | .signed _ :: rest, t =>
      match scanNumber t with
      | some ((neg, n), t) => signedVal neg n :: converted rest t
      | none => []
  | .literal c :: rest, t =>
      match t with
      | b :: t => if b = c then converted rest t else []
      | [] => []

/-- The variables a format has places for, in order. -/
def targets {σ : Type*} : List (Directive σ) → List (Int → σ → σ)
  | [] => []
  | .unsigned assign :: rest => assign :: targets rest
  | .signed assign :: rest => assign :: targets rest
  | .literal _ :: rest => targets rest

-- ================================================================= digits

/-- The ten digits have the values 0 to 9. -/
theorem digitVal_digit {d : Nat} (h : d < 10) :
    digitVal (0x30 + d).toUInt8 = some d := by
  have hall : ∀ d < 10, digitVal (0x30 + d).toUInt8 = some d := by decide
  exact hall d h

/-- And they are digits in base ten. -/
theorem isDigit_digit {d : Nat} (h : d < 10) :
    isDigit 10 (0x30 + d).toUInt8 = true := by
  unfold isDigit
  rw [digitVal_digit h]
  exact decide_eq_true h

/-- A digit more shifts the number by one place. -/
theorem digitsVal_concat (base : Nat) (ds : List UInt8) (b : UInt8) :
    digitsVal base (ds ++ [b])
      = digitsVal base ds * base + (digitVal b).getD 0 := by
  simp [digitsVal]

/-- Decimal digits are the bytes from 0x30 to 0x39. -/
theorem isDigit_range {b : UInt8} (h : isDigit 10 b = true) :
    48 ≤ b.toNat ∧ b.toNat ≤ 57 := by
  unfold isDigit digitVal at h
  split_ifs at h with hdig hup hlow
  · exact ⟨UInt8.le_iff_toNat_le.mp hdig.1, UInt8.le_iff_toNat_le.mp hdig.2⟩
  · have := of_decide_eq_true h
    omega
  · have := of_decide_eq_true h
    omega

/-- A digit ends the blanks before a number. -/
theorem isDigit_not_space {b : UInt8} (h : isDigit 10 b = true) :
    isSpace b = false := by
  obtain ⟨hlo, -⟩ := isDigit_range h
  have hne : b ≠ 0x20 := by
    intro h
    subst h
    exact absurd hlo (by decide)
  have hgt : ¬ b ≤ 13 := by
    rw [UInt8.le_iff_toNat_le]
    show ¬ b.toNat ≤ 13
    omega
  simp [isSpace, hne, hgt]

/-- Nor is it a sign. -/
theorem readSign_digit {b : UInt8} (h : isDigit 10 b = true)
    (ds : List UInt8) : readSign (b :: ds) = (false, b :: ds) := by
  unfold readSign
  split
  · rename_i heq
    cases heq
    exact absurd h (by decide)
  · rename_i heq
    cases heq
    exact absurd h (by decide)
  · rfl

-- ============================================================ conversions

/-- A run of digits is read as the number it denotes. -/
theorem scanNumber_digits {ds rest : List UInt8} (hne : ds ≠ [])
    (hds : ∀ b ∈ ds, isDigit 10 b = true)
    (hrest : ∀ b ∈ rest.head?, isDigit 10 b = false) :
    scanNumber (ds ++ rest) = some ((false, digitsVal 10 ds), rest) := by
  have hstop : rest.takeWhile (isDigit 10) = [] ∧
      rest.dropWhile (isDigit 10) = rest := by
    cases rest with
    | nil => exact ⟨rfl, rfl⟩
    | cons b rest => simp [hrest b rfl]
  have htake : (ds ++ rest).takeWhile (isDigit 10) = ds := by
    rw [List.takeWhile_append_of_pos hds, hstop.1, List.append_nil]
  have hdrop : (ds ++ rest).dropWhile (isDigit 10) = rest := by
    rw [List.dropWhile_append_of_pos hds, hstop.2]
  -- no blanks and no sign in front
  have hfront : readSign ((ds ++ rest).dropWhile isSpace)
      = (false, ds ++ rest) := by
    obtain ⟨d, ds, rfl⟩ := List.exists_cons_of_ne_nil hne
    have hd := hds d List.mem_cons_self
    rw [List.cons_append, List.dropWhile_cons,
      if_neg (Bool.eq_false_iff.mp (isDigit_not_space hd)),
      readSign_digit hd]
  unfold scanNumber
  rw [hfront]
  dsimp only
  rw [htake, hdrop, if_neg hne]

section

variable {σ : Type*} {ds : List (Directive σ)} {vars : σ}

/-- `%u`, up to what an `int` can hold. -/
theorem sscanf_unsigned {n : Nat} (hn : n < 2147483648)
    {t rest : List UInt8} (h : scanNumber t = some ((false, n), rest))
    (assign : Int → σ → σ) :
    sscanf (.unsigned assign :: ds) t vars
      = sscanf ds rest (assign n vars) := by
  have hval : unsignedVal false n = n := by
    unfold unsignedVal asInt32
    rw [if_neg (by omega), if_neg Bool.false_ne_true]
    dsimp only
    rw [Nat.mod_eq_of_lt (by omega), if_pos (by omega)]
  rw [sscanf, h]
  dsimp only
  rw [hval]

/-- A literal that is there is passed over. -/
theorem sscanf_literal (c : UInt8) (rest : List UInt8) :
    sscanf (.literal c :: ds) (c :: rest) vars = sscanf ds rest vars := by
  rw [sscanf, if_pos rfl]

/-- The scan is its conversions, assigned one after the other. -/
theorem sscanf_eq (ds : List (Directive σ)) (t : List UInt8) (vars : σ) :
    sscanf ds t vars = ((targets ds).zip (converted ds t)).foldl
      (fun vars p => p.1 p.2 vars) vars := by
  induction ds generalizing t vars with
  | nil => rfl
  | cons d ds ih =>
      cases d with
      | unsigned assign =>
          rw [sscanf, converted, targets]
          cases scanNumber t with
          | none => rfl
          | some r => exact ih _ _
      | signed assign =>
          rw [sscanf, converted, targets]
          cases scanNumber t with
          | none => rfl
          | some r => exact ih _ _
      | literal c =>
          cases t with
          | nil => simp [sscanf, converted]
          | cons b t =>
              rw [sscanf, converted, targets]
              by_cases hb : b = c
              · rw [if_pos hb, if_pos hb]
                exact ih t vars
              · rw [if_neg hb, if_neg hb, List.zip_nil_right]
                rfl

/-- What only later conversions would change is kept. -/
theorem sscanf_keeps {β : Type*} (get : σ → β) {k : Nat} {t : List UInt8}
    (hk : (converted ds t).length ≤ k)
    (hkeep : ∀ assign ∈ (targets ds).take k, ∀ v vars,
      get (assign v vars) = get vars) :
    get (sscanf ds t vars) = get vars := by
  have htake : (targets ds).zip (converted ds t)
      = ((targets ds).take k).zip (converted ds t) := by
    have hall : (converted ds t).take k = converted ds t :=
      List.take_of_length_le hk
    have hzip : (((targets ds).zip (converted ds t)).take k)
        = (targets ds).zip (converted ds t) :=
      List.take_of_length_le (by rw [List.length_zip]; omega)
    rw [← hzip, List.zip, List.take_zipWith, hall]
  rw [sscanf_eq, htake]
  refine List.foldlRecOn (motive := fun s => get s = get vars) _ _ rfl ?_
  intro s hs p hp
  exact (hkeep p.1 (List.of_mem_zip hp).1 p.2 s).trans hs

/-- No more is converted than there are places for. -/
theorem length_converted_le (ds : List (Directive σ)) (t : List UInt8) :
    (converted ds t).length ≤ (targets ds).length := by
  induction ds generalizing t with
  | nil => exact Nat.le_refl _
  | cons d ds ih =>
      cases d with
      | unsigned assign =>
          rw [converted, targets]
          cases scanNumber t with
          | none => exact Nat.zero_le _
          | some r => exact Nat.succ_le_succ (ih _)
      | signed assign =>
          rw [converted, targets]
          cases scanNumber t with
          | none => exact Nat.zero_le _
          | some r => exact Nat.succ_le_succ (ih _)
      | literal c =>
          cases t with
          | nil => exact Nat.zero_le _
          | cons b t =>
              rw [converted, targets]
              by_cases hb : b = c
              · rw [if_pos hb]
                exact ih t
              · rw [if_neg hb]
                exact Nat.zero_le _

end

end ShZ001.Lib
