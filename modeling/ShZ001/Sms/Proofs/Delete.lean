/-
What `smsDelete` sends (libGSM.c 1100–1108).

# The buffer

The index is printed with `%d` into a buffer of 64 bytes. Every `int`
fits: it has a sign and ten digits at most, and the command around it is
of ten bytes.

# The line

No byte of a printed index ends the line early, so that the modem's
grammar (`Framing.lean`) hears one line, and `readIndex` reads the index
back from it. A negative index is printed with its sign and is no index
of the grammar; the function sends it all the same.
-/
import ShZ001.Sms.Delete
import ShZ001.Sms.Proofs.Framing

namespace ShZ001.Sms

open Lib Gsm

-- ================================================================= the indices

/-- A printed index is read back, unless it is negative. -/
theorem readIndex_printInt (idx : Int) :
    readIndex (cmgdStr ++ printInt idx)
      = if idx < 0 then none else some idx.natAbs := by
  unfold readIndex printInt
  rw [if_pos (List.isPrefixOf_iff_prefix.mpr (List.prefix_append _ _)),
    List.drop_left]
  split
  · have hsign : isDigit 10 0x2d = false := by decide
    unfold readDecimal
    rw [if_neg]
    intro h
    have hdigit := List.all_eq_true.mp h.2 0x2d List.mem_cons_self
    rw [hdigit] at hsign
    cases hsign
  · exact readDecimal_decimal _

/-- The command line of `smsDelete`. -/
theorem deleteOne_line (env : SendEnv) (idx : Int) :
    (deleteOne env idx).cmd = cmgdStr ++ printInt idx ++ crlfStr ∧
      ¬ crlfStr <:+: cmgdStr ++ printInt idx ∧
      readNumber (cmgdStr ++ printInt idx) = none := by
  refine ⟨rfl, ?_, ?_⟩
  · refine not_infix_of_head ?_
    rw [List.mem_append, not_or]
    exact ⟨by decide, not_mem_printInt (by decide) (by decide) idx⟩
  · have hno : cmgsStr.isPrefixOf (cmgdStr ++ printInt idx) = false := rfl
    unfold readNumber
    rw [hno, if_neg Bool.false_ne_true]

-- ==================================================================== the law

/-- The command fits, is what is sent, and is heard as one line, from which
the index is read back. Besides it only `sms_ready` is heard. -/
structure DeleteLaw (idx : Int) : Prop where
  buf : ∀ mem, (deleteBuf idx mem).InBounds
  sent : ∀ mem env, TextAt (deleteBuf idx mem).cell 0 (deleteOne env idx).cmd
  heard : ∀ env, ∃ before, (∀ e ∈ before, Asked e) ∧
    (smsDelete idx env).heard = before ++
      if (smsReady env .delete).1 = true then
        [.command (cmgdStr ++ printInt idx)]
      else []
  index : readIndex (cmgdStr ++ printInt idx)
    = if idx < 0 then none else some idx.natAbs

/-- The longest is that of the least `int`. -/
theorem printInt_length {idx : Int}
    (h : -2147483648 ≤ idx ∧ idx < 2147483648) :
    (printInt idx).length ≤ 11 := by
  have hpow : Nat.pow 10 (9 + 1) = 10000000000 := rfl
  have hdigits : (decimal idx.natAbs).length ≤ 9 + 1 :=
    decimalLoop_length (by omega)
  unfold printInt
  split
  · rw [List.length_cons]
    omega
  · omega

/-- The law holds for every `int`, with any stack under the buffer and
whatever the exchanges come to. -/
theorem deleteLaw_int {idx : Int}
    (h : -2147483648 ≤ idx ∧ idx < 2147483648) : DeleteLaw idx where
  buf mem := by
    have hlen := printInt_length h
    have hcmd : (bytes "AT+CMGD=").length = 8 := by decide
    have hend : (bytes "\r\n").length = 2 := by decide
    unfold deleteBuf
    rw [Slots.inBounds_writeAll (List.append_ne_nil_of_right_ne_nil _
        (List.cons_ne_nil _ _)), and_iff_left (Slots.inBounds_array 64 mem),
      Slots.array_size]
    simp only [List.length_append, hcmd, hend, List.length_singleton]
    omega
  sent mem env := by
    have hdigits := not_mem_printInt (c := 0) (by decide) (by decide) idx
    refine Slots.textAt_writeAll ?_ 0 _
    simp only [List.forall_mem_append]
    exact ⟨⟨by decide +kernel, fun b hb h0 => hdigits (h0 ▸ hb)⟩,
      by decide +kernel⟩
  heard env := by
    obtain ⟨before, hasked, hready⟩ := hear_asked env .delete
    refine ⟨before, hasked, ?_⟩
    obtain ⟨hcmd, hline, hnum⟩ := deleteOne_line env idx
    unfold SendOut.heard SendOut.sent smsDelete
    generalize smsReady env .delete = r at hready ⊢
    obtain ⟨ready, done⟩ := r
    dsimp only at hready ⊢
    cases ready with
    | false =>
        rw [if_pos rfl, if_neg Bool.false_ne_true, hready, List.append_nil]
    | true =>
        rw [if_neg nofun, if_pos rfl, List.flatMap_append,
          List.flatMap_singleton, List.foldl_append, hready, hcmd,
          hear_other hline hnum]
  index := readIndex_printInt idx

theorem deleteLaw_int_last : DeleteLaw 2147483647 :=
  deleteLaw_int ⟨by decide, by decide⟩

end ShZ001.Sms
