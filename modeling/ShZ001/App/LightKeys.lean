/-
The names of the entries in which the parameters of the lights are kept
(wifi_ap_task.c 125–128, sh_z_001.h 33–36): a prefix, an underline and
the index of the light.

# Names that are cut

The name goes into a buffer of 15 bytes, and `snprintf` cuts off what
does not fit. That takes the last digits of the index, so two lights may
get one name. `keyLaw_iff` says from which length of the prefix on: ten
characters leave room for the underline and three digits, with eleven
the lights 10 and 100 share a name (`key_collides`).

# Names that are whole

The last underline ends the prefix, since digits hold none, and the
digits behind it are read back (`Lib/Decimal.lean`). So whole names are
different for different prefixes and for different lights
(`keyText_injective`).
-/
import ShZ001.Lib.Decimal
import ShZ001.Lib.Strings

namespace ShZ001.App

open Lib

-- =============================================================== the function

/-- `"%s_%u"`. -/
def keyText (keyNamePrefix : List UInt8) (lightIndex : UInt8) : List UInt8 :=
  keyNamePrefix ++ 0x5f :: decimal lightIndex.toNat

/-- `get_light_para_nvs_key_by_index`: `key_name`, which held `mem`, and
what is returned. -/
def getLightParaNvsKeyByIndex (mem : Nat → UInt8)
    (keyNamePrefix : List UInt8) (lightIndex : UInt8) : Slots UInt8 × Nat :=
  let text := keyText keyNamePrefix lightIndex
  ((Slots.array 15 mem).writeAll 0 (text.take 14 ++ [0]), text.length)

/-- The prefixes of sh_z_001.h. -/
def lightPrefixes : List (List UInt8) :=
  [bytes "TIME_ON", bytes "TIME_OFF", bytes "POS_ON", bytes "POS_OFF"]

/-- The names with this prefix are whole, and no other prefix that is not
longer, and no other light, has one of them. -/
structure KeyLaw (keyNamePrefix : List UInt8) : Prop where
  whole : ∀ mem i, (getLightParaNvsKeyByIndex mem keyNamePrefix i).2 < 15
  distinct : ∀ mem mem' p i j name, 0 ∉ p →
    p.length ≤ keyNamePrefix.length →
    TextAt (getLightParaNvsKeyByIndex mem keyNamePrefix i).1.cell 0 name →
    TextAt (getLightParaNvsKeyByIndex mem' p j).1.cell 0 name →
    p = keyNamePrefix ∧ j = i

-- ================================================================== the names

/-- The index has at most three digits. -/
theorem decimal_byte (i : UInt8) : (decimal i.toNat).length ≤ 3 := by
  have hpow : Nat.pow 10 (2 + 1) = 1000 := rfl
  have hlt := i.toNat_lt
  exact decimalLoop_length (by omega)

/-- The last underline ends the prefix. -/
theorem keyText_injective {p q : List UInt8} {i j : UInt8}
    (h : keyText p i = keyText q j) : p = q ∧ i = j := by
  have hfree : ∀ n, ∀ b ∈ (decimal n).reverse, decide (b ≠ 0x5f) = true := by
    intro n b hb
    have hno : (0x5f : UInt8) ∉ decimal n := not_mem_decimal rfl n
    refine decide_eq_true fun heq => hno ?_
    rw [← heq]
    exact List.mem_reverse.mp hb
  have hrev : (decimal i.toNat).reverse ++ 0x5f :: p.reverse
      = (decimal j.toNat).reverse ++ 0x5f :: q.reverse := by
    simpa [keyText] using congrArg List.reverse h
  have hdigits := congrArg (List.takeWhile fun b => decide (b ≠ 0x5f)) hrev
  rw [List.takeWhile_append_of_pos (hfree _),
    List.takeWhile_append_of_pos (hfree _)] at hdigits
  have hsame : decimal i.toNat = decimal j.toNat := by
    simpa using hdigits
  refine ⟨?_, UInt8.toNat_inj.mp (decimal_injective hsame)⟩
  rw [hsame] at hrev
  simpa using hrev

/-- The buffer holds the first 14 bytes of the name, with a terminator. -/
theorem textAt_key {p : List UInt8} (h : 0 ∉ p) (mem : Nat → UInt8)
    (i : UInt8) :
    TextAt (getLightParaNvsKeyByIndex mem p i).1.cell 0
      ((keyText p i).take 14) := by
  refine Slots.textAt_writeAll (fun b hb h0 => ?_) 0 _
  have hdigits : (0 : UInt8) ∉ decimal i.toNat := not_mem_decimal rfl _
  have hmem := List.mem_of_mem_take (h0 ▸ hb)
  unfold keyText at hmem
  rw [List.mem_append, List.mem_cons] at hmem
  rcases hmem with hp | hunder | hd
  · exact h hp
  · cases hunder
  · exact hdigits hd

-- =================================================================== the law

/-- From eleven characters on the lights 10 and 100 have one name. -/
theorem key_collides {p : List UInt8} (hlong : 11 ≤ p.length) :
    (keyText p 10).take 14 = (keyText p 100).take 14 := by
  have hten : keyText p 10 = (p ++ [0x5f, 0x31, 0x30]) ++ [] := by
    have hdigits : decimal (10 : UInt8).toNat = [0x31, 0x30] := rfl
    unfold keyText
    rw [hdigits, List.append_nil]
  have hhundred : keyText p 100 = (p ++ [0x5f, 0x31, 0x30]) ++ [0x30] := by
    have hdigits : decimal (100 : UInt8).toNat = [0x31, 0x30, 0x30] := rfl
    unfold keyText
    rw [hdigits, List.append_assoc]
    rfl
  have hlen : 14 ≤ (p ++ [0x5f, 0x31, 0x30]).length := by
    rw [List.length_append]
    exact Nat.add_le_add_right hlong 3
  rw [hten, hhundred, List.take_append_of_le_length hlen,
    List.take_append_of_le_length hlen]

/-- The names are whole and distinct exactly up to ten characters.

The buffer has fifteen bytes, of which the underline, an index of three
digits and the NUL take five. Of a name that is longer `snprintf` cuts off
the end, and that is the index. -/
theorem keyLaw_iff {p : List UInt8} (h : 0 ∉ p) :
    KeyLaw p ↔ p.length ≤ 10 := by
  constructor
  · intro hlaw
    by_contra hlong
    have hname := textAt_key h (fun _ => 0) 10
    have hname' := textAt_key h (fun _ => 0) 100
    rw [← key_collides (by omega)] at hname'
    obtain ⟨-, heq⟩ := hlaw.distinct _ _ p 10 100 _ h (le_refl _) hname hname'
    cases heq
  · intro hshort
    have hfits : ∀ q : List UInt8, q.length ≤ p.length → ∀ i,
        (keyText q i).length ≤ 14 := by
      intro q hq i
      have hdigits := decimal_byte i
      unfold keyText
      rw [List.length_append, List.length_cons]
      omega
    refine ⟨fun mem i => Nat.lt_succ_of_le (hfits p (le_refl _) i), ?_⟩
    intro mem mem' q i j name hq hlen hp hq'
    have hkey := textAt_unique hp (textAt_key h mem i)
    rw [textAt_unique hq' (textAt_key hq mem' j),
      List.take_of_length_le (hfits q hlen j),
      List.take_of_length_le (hfits p (le_refl _) i)] at hkey
    exact keyText_injective hkey

theorem keyLaw_iff_timeOff : KeyLaw (bytes "TIME_OFF") :=
  (keyLaw_iff (by decide)).mpr (by decide)

example : ∀ p ∈ lightPrefixes, 0 ∉ p ∧ p.length ≤ 10 := by decide

end ShZ001.App
