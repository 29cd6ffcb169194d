/-
`labelToStr` undoes `strToLabel` (captdns.c 117–165).

# Lengths before and after

The encoder fills in a length once it has come to the end of the part,
the decoder reads it first. Between them stands the encoded name: the
bytes that the one leaves (`strLoop_bytes`) are a name the other can
read (`nameAt_of_slice`), so neither loop has to be followed against the
other.

# The condition

Parts of a dotted text can be labels if they have 1 to 63 bytes, none of
them NUL (`PartsAreLabels`). An empty part would encode as the end of
the name, a longer one as a pointer; with either the round trip fails by
the format and not by the code.
-/
import ShZ001.Dns.Proofs.Pointers

namespace ShZ001.Dns

open Lib

-- ================================================================== the law

/-- The parts of a dotted text can be labels: 1 to 63 bytes, none of them
NUL. -/
def PartsAreLabels (s : List UInt8) : Prop :=
  ∀ l ∈ s.splitOn 0x2e, IsLabel l ∧ ∀ b ∈ l, b ≠ 0

instance (s : List UInt8) : Decidable (PartsAreLabels s) :=
  inferInstanceAs (Decidable (∀ l ∈ s.splitOn 0x2e, _ ∧ _))

-- ================================================================== the parts

/-- The dotted text of labels is the labels with dots between them. -/
theorem dotted_eq_intercalate (ls : List (List UInt8)) :
    dotted ls = [0x2e].intercalate ls := by
  have htail : ∀ (l : List UInt8) (ls : List (List UInt8)),
      [0x2e].intercalate (l :: ls) = l ++ dottedTail ls := by
    intro l ls
    induction ls generalizing l with
    | nil => simp [dottedTail]
    | cons l' ls ih =>
        rw [List.intercalate_cons_cons, ih, dottedTail, List.append_assoc]
        rfl
  cases ls with
  | nil => rfl
  | cons l ls => exact (htail l ls).symm

/-- A text is that of its parts. -/
theorem dotted_splitOn (s : List UInt8) : dotted (s.splitOn 0x2e) = s :=
  (dotted_eq_intercalate _).trans (List.intercalate_splitOn _)

/-- The parts hold no dots. -/
theorem ne_dot_of_part {s l : List UInt8} (hl : l ∈ s.splitOn 0x2e) :
    ∀ b ∈ l, b ≠ 0x2e := by
  induction s generalizing l with
  | nil =>
      obtain rfl := List.mem_singleton.mp hl
      nofun
  | cons c s ih =>
      rw [List.splitOn_cons_eq_if_modifyHead] at hl
      split at hl
      case isTrue =>
          rcases List.mem_cons.mp hl with rfl | hl
          · nofun
          · exact ih hl
      case isFalse hc =>
          obtain ⟨first, rest, hparts⟩ :=
            List.exists_cons_of_ne_nil (List.splitOn_ne_nil 0x2e s)
          rw [hparts] at hl ih
          rcases List.mem_cons.mp hl with rfl | hl
          · exact List.forall_mem_cons.mpr
              ⟨fun h => hc (beq_iff_eq.mpr h), ih List.mem_cons_self⟩
          · exact ih (List.mem_cons_of_mem _ hl)

-- ================================================================= the name

section

variable {packet : Nat → UInt8} {packetSz : Nat}

/-- Labels as they are encoded are a name without pointers. -/
theorem nameAt_of_slice {ls : List (List UInt8)} (hls : ∀ l ∈ ls, IsLabel l)
    {p : Nat} (hbytes : slice packet p (encodeName ls).length = encodeName ls)
    (hin : p + (encodeName ls).length ≤ packetSz) :
    NameAt packet packetSz p ls (p + (encodeName ls).length) [] := by
  induction ls generalizing p with
  | nil => exact .root hin (List.cons.inj hbytes).1
  | cons l ls ih =>
      obtain ⟨hl, hls⟩ := List.forall_mem_cons.mp hls
      obtain ⟨hhead, hlabel, hrest⟩ := slice_encodeName.mp hbytes
      rw [encodeName_length] at hin ⊢
      have hname := ih hls hrest (by omega)
      rw [show p + 1 + l.length + (encodeName ls).length
        = p + (l.length + 1 + (encodeName ls).length) by omega] at hname
      exact .label hl hhead hlabel hname

/-- A name without pointers ends in its zero byte. -/
theorem NameAt.zero {p : Nat} {ls : List (List UInt8)} {finish : Nat}
    (h : NameAt packet packetSz p ls finish []) :
    ∃ z, finish = z + 1 ∧ packet z = 0 := by
  generalize hps : ([] : List Nat) = ps at h
  induction h with
  | @root p _ h0 => exact ⟨p, rfl, h0⟩
  | label _ _ _ _ ih => exact ih hps
  | pointer _ _ _ _ _ => cases hps

/-- A name with a part begins with its length. -/
theorem NameAt.ne_zero {p : Nat} {ls : List (List UInt8)} {finish : Nat}
    {ps : List Nat} (h : NameAt packet packetSz p ls finish ps)
    (hls : ls ≠ []) : packet p ≠ 0 := by
  cases h with
  | root _ _ => exact absurd rfl hls
  | label hl hhead _ _ =>
      rw [hhead]
      exact label_ne_zero hl
  | pointer h _ _ _ => exact pointer_ne_zero h

end

/-- What `strToLabel` leaves is the name of the parts. -/
theorem strToLabel_nameAt {s : List UInt8} (hs : PartsAreLabels s)
    (packet : Slots UInt8) {p packetSz : Nat}
    (hroom : p + s.length + 2 ≤ packetSz) :
    NameAt (strToLabel s p packet).2.cell packetSz p (s.splitOn 0x2e)
      (strToLabel s p packet).1 [] := by
  have hencode : encodeText [] s = encodeName (s.splitOn 0x2e) := by
    obtain ⟨l, ls, hparts⟩ :=
      List.exists_cons_of_ne_nil (List.splitOn_ne_nil 0x2e s)
    have htext : encodeText [] (dotted (l :: ls)) = encodeName (l :: ls) :=
      encodeText_dotted fun l' hl => ne_dot_of_part (s := s) (hparts ▸ hl)
    rw [← hparts, dotted_splitOn] at htext
    exact htext
  have hlength : (encodeName (s.splitOn 0x2e)).length = s.length + 2 := by
    rw [← hencode, encodeText_length, List.length_nil, Nat.zero_add]
  have hbytes := strLoop_bytes s (Nat.lt_succ_self p) packet
  rw [show p + 1 - p + (s.length + 1) = s.length + 2 by omega,
    show p + 1 - p - 1 = 0 by omega] at hbytes
  have hcursor : (strToLabel s p packet).1 = p + (s.length + 2) := by
    unfold strToLabel
    rw [strLoop_cursor]
    omega
  rw [hcursor, ← hlength]
  refine nameAt_of_slice (fun l hl => (hs l hl).1) ?_ (by omega)
  rw [hlength]
  exact hbytes.trans hencode

-- ================================================================== the law

/-- A dotted name that `strToLabel` has placed is decoded by `labelToStr`
to the same text, and both return the position behind its zero byte.

The induction is on the parts of the name. `strToLabel` comes back to the
length byte of a part when it has seen its end, so what is carried through
it is the name written so far, with the place of the length that is still
open. -/
theorem labelToStr_strToLabel {s : List UInt8} (hs : PartsAreLabels s)
    (packet : Slots UInt8) {p : Nat}
    (hroom : p + s.length + 2 ≤ packet.size) (res : Slots UInt8)
    {resMaxLen : Nat} (hres : s.length < resMaxLen) :
    ∃ z, (strToLabel s p packet).1 = z + 1 ∧
      (strToLabel s p packet).2.cell z = 0 ∧
      Decodes (strToLabel s p packet).2.cell p packet.size res resMaxLen s
        (z + 1) := by
  have hname := strToLabel_nameAt hs packet hroom
  obtain ⟨z, hz, h0⟩ := hname.zero
  have hlen : (dotted (s.splitOn 0x2e)).length ≤ resMaxLen := by
    rw [dotted_splitOn]
    exact hres.le
  have hdecodes : Decodes _ p packet.size res resMaxLen _ _ :=
    (decodes_iff_of_part hname hlen
      (hname.ne_zero (List.splitOn_ne_nil 0x2e s))).mpr (Nat.zero_le 1)
  rw [dotted_splitOn, hz] at hdecodes
  exact ⟨z, hz, h0, hdecodes⟩

/-- The name "a.bc" behind a header of twelve bytes. -/
theorem labelToStr_strToLabel_short :
    ∃ z, (strToLabel (bytes "a.bc") 12 (.array 18 fun _ => 0xFF)).1 = z + 1 ∧
      (strToLabel (bytes "a.bc") 12 (.array 18 fun _ => 0xFF)).2.cell z = 0 ∧
      Decodes (strToLabel (bytes "a.bc") 12 (.array 18 fun _ => 0xFF)).2.cell
        12 18 (.array dnsLen fun _ => 0) dnsLen (bytes "a.bc") (z + 1) :=
  labelToStr_strToLabel (by decide +kernel) (.array 18 fun _ => 0xFF)
    (by decide +kernel) (.array dnsLen fun _ => 0) (by decide +kernel)

end ShZ001.Dns
