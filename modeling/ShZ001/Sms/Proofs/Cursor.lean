/-
Where the field loop of `getSMS` reads and writes (libGSM.c 947–991).

# The cursor

It goes two bytes on behind a separator of one byte or of two. So it
comes to `len + 1` at most, one past the terminator, when the last byte
of the line is a quote; there it is still among the zeros behind the
line, and what it points at is the empty text (`Header`).

# The arrays

What is copied to `buf` is shorter than 32 bytes, by the guard of line
974, and so is everything that goes on from there (`Holds`). An array
that has not been written holds the empty text, since the message has
been cleared; `buf` is the one that has not.

# The simulation

`Scanning` ties a state of the loop to the texts of `Parse.lean`: a turn
of the one is a turn of the other (`scanning_turn`), so the loop ends,
and with the same message (`scanHeader_ends`). The law about positions
is then a law about every state that belongs to some message, and these
are all that are reached.
-/
import Mathlib.Logic.Relation
import ShZ001.Sms.Header
import ShZ001.Sms.Proofs.Recover

namespace ShZ001.Sms

open Lib Relation

-- ================================================================== the law

/-- One turn of the loop. -/
def Turn (fuel : Nat) (v w : HeaderVars) : Prop :=
  ∃ pend, v.pend = some pend ∧ fieldTurn fuel pend v = some w

/-- The variables after some turns. -/
def Reached (fuel : Nat) (line : List UInt8) (mem : HeaderMem)
    (v : HeaderVars) : Prop :=
  ∃ v₀, scanStart fuel line mem = some v₀ ∧ ReflTransGen (Turn fuel) v₀ v

/-- An array of 32 bytes is only accessed inside, and has a NUL. -/
structure Terminated (s : Slots UInt8) : Prop where
  inside : ∀ p ∈ s.touched, p < 32
  nul : ∃ p, p < 32 ∧ s.cell p = 0

/-- Every access to `hdr` was below `len + 4`, every one to the arrays
below 32, and they have a NUL; `buf` has one once it has been written. -/
structure ScanLaw (len : Nat) (v : HeaderVars) : Prop where
  hdr : ∀ p ∈ v.hdr.touched, p < len + 4
  buf : v.buf.touched = [] ∨ Terminated v.buf
  stat : Terminated v.stat
  from' : Terminated v.from'
  time : Terminated v.time

-- =============================================================== the blocks

/-- The header line in its block: from each position on, up to the last of
the zeros behind it, the rest of the line. -/
structure Header (line : List UInt8) (hdr : Slots UInt8) : Prop where
  size : hdr.size = line.length + 4
  inside : hdr.InBounds
  text : ∀ p, p < line.length + 4 → TextAt hdr.cell p (line.drop p)

/-- An array of 32 bytes with a C string. -/
structure Holds (s : Slots UInt8) (t : List UInt8) : Prop where
  size : s.size = 32
  inside : s.InBounds
  text : TextAt s.cell 0 t
  fits : t.length < 32

theorem Holds.terminated {s : Slots UInt8} {t : List UInt8}
    (h : Holds s t) : Terminated s where
  inside := by
    rw [← h.size]
    exact h.inside
  nul := ⟨t.length, h.fits, by simpa using h.text.nul⟩

/-- `memset` with 0, of a whole block. -/
theorem zeroed_block {s : Slots UInt8} {n : Nat} (hsize : s.size = n)
    (hin : s.InBounds) :
    (s.writeAll 0 (List.replicate n 0)).size = n ∧
      (s.writeAll 0 (List.replicate n 0)).InBounds ∧
      ∀ p, p < n → (s.writeAll 0 (List.replicate n 0)).cell p = 0 := by
  refine ⟨(Slots.writeAll_size ..).trans hsize,
    hin.writeAll (by simp [hsize]), fun p hp => ?_⟩
  have hlt : p < (List.replicate n (0 : UInt8)).length := by
    rwa [List.length_replicate]
  have hset : (s.writeAll 0 (List.replicate n 0)).cell (0 + p)
      = (List.replicate n 0)[p] :=
    Slots.writeAll_cell hlt
  rwa [Nat.zero_add, List.getElem_replicate] at hset

/-- The copy of a line into zeroed memory is such a block. -/
theorem header_copy {line : List UInt8} (hline : ∀ b ∈ line, b ≠ 0)
    (mem : Nat → UInt8) : Header line (copyHeader line mem) := by
  unfold copyHeader
  dsimp only
  obtain ⟨hsize, hin, hzero⟩ := zeroed_block
    (Slots.array_size (line.length + 4) mem) (Slots.inBounds_array _ mem)
  generalize (Slots.array (line.length + 4) mem).writeAll 0
    (List.replicate (line.length + 4) 0) = s at hsize hin hzero
  have hall : TextAt ((s.writeAll 0 line).write line.length 0).cell 0
      line := by
    refine ⟨?_, ?_, hline⟩
    · refine Eq.trans (slice_congr fun k hk => ?_)
        (Slots.slice_writeAll_self 0 line s)
      exact Slots.write_cell_ne (by omega) _ _
    · rw [Nat.zero_add]
      exact Slots.write_cell_self ..
  refine ⟨(Slots.writeAll_size ..).trans hsize, ?_, fun p hp => ?_⟩
  · refine Slots.InBounds.write (hin.writeAll (by omega)) ?_ 0
    rw [Slots.writeAll_size]
    omega
  · rcases Nat.lt_or_ge line.length p with hlt | hle
    · -- the zeros behind the line
      have hcell : ((s.writeAll 0 line).write line.length 0).cell p = 0 := by
        rw [Slots.write_cell_ne (by omega),
          Slots.writeAll_cell_above (by omega), hzero p hp]
      rw [List.drop_of_length_le hlt.le]
      exact ⟨rfl, hcell, nofun⟩
    · have htext := hall.drop hle
      rwa [Nat.zero_add] at htext

-- ================================================================= searches

/-- Reading some of the line or its terminator. -/
theorem Header.touchAll {line : List UInt8} {hdr : Slots UInt8}
    (h : Header line hdr) {p n : Nat} (hn : p + n ≤ line.length + 4) :
    Header line (hdr.touchAll p n) where
  size := h.size
  inside := h.inside.touchAll (by rw [h.size]; exact hn)
  text := h.text

/-- A search from `p` finds the place of what it finds in the text. -/
def placeOf (line : List UInt8) (p : Nat) (r : List UInt8) : Nat :=
  p + ((line.drop p).length - r.length)

/-- The text at that place is what was found, and it is not empty. -/
theorem placeOf_spec {line pat r : List UInt8} (hpat : pat ≠ []) {p : Nat}
    (h : strstr pat (line.drop p) = some r) :
    p ≤ placeOf line p r ∧ placeOf line p r < line.length ∧
      line.drop (placeOf line p r) = r := by
  have hsuffix := strstr_suffix h
  have hpos : 0 < r.length :=
    (List.length_pos_iff.mpr hpat).trans_le (strstr_begins h).length_le
  have hlen := hsuffix.length_le
  have hdrop := List.suffix_iff_eq_drop.mp hsuffix
  rw [List.length_drop] at hlen
  refine ⟨Nat.le_add_right _ _, ?_, ?_⟩
  · unfold placeOf
    rw [List.length_drop]
    omega
  · unfold placeOf
    rw [← List.drop_drop]
    exact hdrop.symm

section

variable {line : List UInt8} {hdr : Slots UInt8} (h : Header line hdr)
  {p fuel : Nat} (hp : p ≤ line.length + 1) (hfuel : line.length < fuel)

include h hp hfuel

/-- The search in memory is the search in the text, and keeps to the block.
-/
theorem strstrAt_header (pat : List UInt8) :
    ∃ hdr', Header line hdr' ∧ hdr.strstrAt fuel pat p
      = some ((strstr pat (line.drop p)).map (placeOf line p), hdr') := by
  have hlen : (line.drop p).length < fuel := by
    rw [List.length_drop]
    omega
  refine ⟨_, h.touchAll ?_, Slots.strstrAt_eq (h.text p (by omega)) hlen pat⟩
  rw [List.length_drop]
  omega

/-- The next separator in memory is that in the text. -/
theorem findField_header :
    ∃ hdr', Header line hdr' ∧ findField fuel p hdr
      = some ((nextField (line.drop p)).map (placeOf line p), hdr') := by
  obtain ⟨hdr₁, h₁, heq₁⟩ := strstrAt_header h hp hfuel (bytes ",\"")
  unfold findField nextField
  rw [heq₁]
  cases strstr (bytes ",\"") (line.drop p) with
  | some r => exact ⟨hdr₁, h₁, rfl⟩
  | none =>
      obtain ⟨hdr₂, h₂, heq₂⟩ := strstrAt_header h₁ hp hfuel (bytes "\"")
      exact ⟨hdr₂, h₂, heq₂⟩

end

/-- A separator is in the line, not among the zeros behind it. -/
theorem nextField_place {line r : List UInt8} {p : Nat}
    (h : nextField (line.drop p) = some r) :
    p ≤ placeOf line p r ∧ placeOf line p r < line.length ∧
      line.drop (placeOf line p r) = r := by
  unfold nextField at h
  split at h
  case h_1 hfound =>
      cases h
      exact placeOf_spec (by decide) hfound
  case h_2 => exact placeOf_spec (by decide) h

/-- Where the next separator is found in memory stands what is found in the
text. -/
theorem drop_placeOf (line : List UInt8) (p : Nat) :
    ((nextField (line.drop p)).map (placeOf line p)).map line.drop
      = nextField (line.drop p) := by
  cases hr : nextField (line.drop p) with
  | none => rfl
  | some r => exact congrArg some (nextField_place hr).2.2

/-- A turn of the loop on texts, with the texts given by their places. -/
theorem fieldLoop_drop {line : List UInt8} {msgidx pend : Nat}
    (hle : msgidx ≤ pend) (hlt : pend < line.length) (turns i : Nat)
    (msg : SmsMsg) :
    fieldLoop (turns + 1) (line.drop msgidx) (some (line.drop pend)) i msg
      = fieldLoop turns (line.drop (pend + 2))
        (nextField (line.drop (pend + 2))) (i + 1)
        (storeField i ((line.drop msgidx).take (pend - msgidx)) msg) := by
  have hlen : (line.drop msgidx).length - (line.drop pend).length
      = pend - msgidx := by
    rw [List.length_drop, List.length_drop]
    omega
  have htake : ((line.drop msgidx).take (pend - msgidx)).length
      = pend - msgidx := by
    rw [List.length_take, List.length_drop]
    omega
  rw [fieldLoop, hlen, List.drop_drop, storeField, htake]

-- =============================================================== the fields

/-- Text that is written with a NUL behind it loses a quote at its end. -/
theorem holds_field {s : Slots UInt8} (hsize : s.size = 32)
    (hin : s.InBounds) {f : List UInt8} (hf : ∀ b ∈ f, b ≠ 0)
    (hpos : 0 < f.length) (hfit : f.length < 32) :
    let buf := ((s.writeAll 0 f).write f.length 0).touch (f.length - 1)
    Holds (if buf.cell (f.length - 1) = 0x22 then
        buf.write (f.length - 1) 0 else buf) (fieldText f) := by
  intro buf
  have hbufsize : buf.size = 32 := (Slots.writeAll_size ..).trans hsize
  have hbufin : buf.InBounds := by
    have hwritten : ((s.writeAll 0 f).write f.length 0).InBounds :=
      Slots.InBounds.write (hin.writeAll (by omega))
        (by rw [Slots.writeAll_size]; omega) 0
    exact List.forall_mem_cons.mpr
      ⟨by rw [hbufsize]; omega, hwritten⟩
  have hbytes : slice buf.cell 0 f.length = f := by
    refine Eq.trans (slice_congr fun k hk => ?_)
      (Slots.slice_writeAll_self 0 f s)
    exact Slots.write_cell_ne (by omega) _ _
  have hend : buf.cell f.length = 0 := Slots.write_cell_self ..
  have hlast : f.getLast? = some (buf.cell (f.length - 1)) := by
    have hget := slice_getElem? buf.cell 0 f.length
      (show f.length - 1 < f.length by omega)
    rw [hbytes, Nat.zero_add] at hget
    rw [List.getLast?_eq_getElem?, hget]
  unfold fieldText
  rw [hlast]
  by_cases hq : buf.cell (f.length - 1) = 0x22
  · rw [if_pos hq, if_pos (congrArg some hq)]
    have hlen : f.dropLast.length = f.length - 1 := List.length_dropLast
    refine ⟨hbufsize, hbufin.write (by rw [hbufsize]; omega) 0,
      ⟨?_, ?_, fun b hb => hf b (List.mem_of_mem_dropLast hb)⟩, by omega⟩
    · have hsplit := hbytes
      rw [← List.dropLast_append_getLast (List.length_pos_iff.mp hpos),
        slice_append_eq] at hsplit
      refine Eq.trans (slice_congr fun k hk => ?_) hsplit.1
      exact Slots.write_cell_ne (by omega) _ _
    · rw [hlen, Nat.zero_add]
      exact Slots.write_cell_self ..
  · rw [if_neg hq, if_neg (fun h => hq (Option.some.inj h))]
    exact ⟨hbufsize, hbufin, ⟨hbytes, by rwa [Nat.zero_add], hf⟩, hfit⟩

/-- A text of less than 32 bytes is copied from one array to another. -/
theorem Holds.strcpy {s dst : Slots UInt8} {t t' : List UInt8}
    (h : Holds s t) (h' : Holds dst t') {fuel : Nat} (hfuel : 32 ≤ fuel) :
    ∃ dst', Holds dst' t ∧
      s.strcpy fuel dst = some (s.touchAll 0 (t.length + 1), dst') := by
  refine ⟨_, ?_, Slots.strcpy_eq h.text (h.fits.trans_le hfuel) dst⟩
  have hfits := h.fits
  refine ⟨(Slots.writeAll_size ..).trans h'.size, h'.inside.writeAll ?_,
    Slots.textAt_writeAll h.text.clean 0 dst, hfits⟩
  rw [h'.size, List.length_append, List.length_singleton]
  omega

/-- Reading the text keeps it. -/
theorem Holds.touchAll {s : Slots UInt8} {t : List UInt8} (h : Holds s t) :
    Holds (s.touchAll 0 (t.length + 1)) t where
  size := h.size
  inside := h.inside.touchAll (by
    have := h.fits
    rw [h.size]
    omega)
  text := h.text
  fits := h.fits

/-- `buf` is not written yet, or holds a text. -/
def BufOk (s : Slots UInt8) : Prop :=
  (s.size = 32 ∧ s.touched = []) ∨ ∃ t, Holds s t

theorem BufOk.size {s : Slots UInt8} (h : BufOk s) : s.size = 32 :=
  h.elim And.left fun h => h.elim fun _ h => h.size

theorem BufOk.inside {s : Slots UInt8} (h : BufOk s) : s.InBounds := by
  rcases h with ⟨-, h⟩ | ⟨t, h⟩
  · intro p hp
    rw [h] at hp
    exact absurd hp List.not_mem_nil
  · exact h.inside

/-- The arrays of the message hold its texts. -/
structure Stores (v : HeaderVars) (msg : SmsMsg) : Prop where
  idx : v.idx = msg.idx
  stat : Holds v.stat msg.stat
  from' : Holds v.from' msg.from'
  time : Holds v.time msg.time

/-- A state of the loop, and the message parsed so far. -/
structure Scanning (line : List UInt8) (v : HeaderVars) (msg : SmsMsg) :
    Prop where
  hdr : Header line v.hdr
  cursor : v.msgidx ≤ line.length + 1
  pend : ∀ p, v.pend = some p → v.msgidx ≤ p ∧ p < line.length
  buf : BufOk v.buf
  stores : Stores v msg

/-- `buf` gets the field's text. -/
theorem copyField_holds {line : List UInt8} (hline : ∀ b ∈ line, b ≠ 0)
    {v : HeaderVars} {msg : SmsMsg} (h : Scanning line v msg) {len : Nat}
    (hpos : 0 < len) (hfit : len < 32)
    (hin : v.msgidx + len ≤ line.length) :
    ∃ hdr buf, copyField len v
        = { v with
            hdr := hdr
            buf := buf } ∧
      Header line hdr ∧
      Holds buf (fieldText ((line.drop v.msgidx).take len)) := by
  have hlen : len ≤ (line.drop v.msgidx).length := by
    rw [List.length_drop]
    omega
  have hf : ((line.drop v.msgidx).take len).length = len :=
    List.length_take_of_le hlen
  obtain ⟨hsize, hzin, -⟩ := zeroed_block h.buf.size h.buf.inside
  have hcopy := Slots.strncpy_eq (h.hdr.text v.msgidx (by omega)) hlen
    (v.buf.writeAll 0 (List.replicate 32 0))
  have hholds := holds_field hsize hzin
    (f := (line.drop v.msgidx).take len)
    (fun b hb => hline b (List.mem_of_mem_drop (List.mem_of_mem_take hb)))
    (by omega) (by omega)
  rw [hf] at hholds
  refine ⟨_, _, ?_, h.hdr.touchAll (p := v.msgidx) (n := len) (by omega),
    hholds⟩
  unfold copyField
  dsimp only
  rw [hcopy]

/-- What is stored is what `setField` sets. -/
theorem storeBuf_stores {v : HeaderVars} {msg : SmsMsg} {t : List UInt8}
    (hbuf : Holds v.buf t) (hmsg : Stores v msg) {fuel : Nat}
    (hfuel : 32 ≤ fuel) :
    ∃ w, storeBuf fuel v = some w ∧ Stores w (setField v.i t msg) ∧
      Holds w.buf t ∧ w.hdr = v.hdr ∧ w.i = v.i := by
  have htouch := hbuf.touchAll
  unfold storeBuf setField
  split_ifs
  · rw [strlen_eq hbuf.text (hbuf.fits.trans_le hfuel)]
    have hidx : strtol (slice v.buf.cell 0 t.length) = strtol t :=
      congrArg strtol hbuf.text.bytes
    exact ⟨_, rfl, ⟨hidx, hmsg.stat, hmsg.from', hmsg.time⟩, htouch, rfl,
      rfl⟩
  · obtain ⟨stat, hstat, heq⟩ := hbuf.strcpy hmsg.stat hfuel
    rw [heq]
    exact ⟨_, rfl, ⟨hmsg.idx, hstat, hmsg.from', hmsg.time⟩, htouch, rfl,
      rfl⟩
  · obtain ⟨from', hfrom, heq⟩ := hbuf.strcpy hmsg.from' hfuel
    rw [heq]
    exact ⟨_, rfl, ⟨hmsg.idx, hmsg.stat, hfrom, hmsg.time⟩, htouch, rfl,
      rfl⟩
  · obtain ⟨time, htime, heq⟩ := hbuf.strcpy hmsg.time hfuel
    rw [heq]
    exact ⟨_, rfl, ⟨hmsg.idx, hmsg.stat, hmsg.from', htime⟩, htouch, rfl,
      rfl⟩
  · exact ⟨v, rfl, hmsg, hbuf, rfl, rfl⟩

-- ================================================================= the turns

section

variable {line : List UInt8} (hline : ∀ b ∈ line, b ≠ 0) {fuel : Nat}
  (hfuel : line.length + 32 ≤ fuel)

include hline hfuel

/-- A turn stores a field, and goes on behind its separator. -/
theorem scanning_turn {v : HeaderVars} {msg : SmsMsg}
    (h : Scanning line v msg) {pend : Nat} (hpend : v.pend = some pend) :
    ∃ w, fieldTurn fuel pend v = some w ∧
      Scanning line w (storeField v.i
        ((line.drop v.msgidx).take (pend - v.msgidx)) msg) ∧
      w.msgidx = pend + 2 ∧ w.i = v.i + 1 ∧
      w.pend = (nextField (line.drop (pend + 2))).map
        (placeOf line (pend + 2)) := by
  obtain ⟨hle, hlt⟩ := h.pend pend hpend
  have hlen : ((line.drop v.msgidx).take (pend - v.msgidx)).length
      = pend - v.msgidx := by
    rw [List.length_take, List.length_drop]
    omega
  have hstored : ∃ u, takeField fuel (pend - v.msgidx) v = some u ∧
      Stores u (storeField v.i
        ((line.drop v.msgidx).take (pend - v.msgidx)) msg) ∧
      BufOk u.buf ∧ Header line u.hdr ∧ u.i = v.i := by
    unfold takeField storeField
    rw [hlen]
    by_cases hfit : pend - v.msgidx < 32 ∧ 0 < pend - v.msgidx
    · rw [if_pos hfit, if_pos hfit]
      obtain ⟨hdr, buf, hcopy, hhdr, hbuf⟩ :=
        copyField_holds hline h hfit.2 hfit.1 (by omega)
      rw [hcopy]
      have hstores : Stores { v with
          hdr := hdr
          buf := buf } msg :=
        ⟨h.stores.idx, h.stores.stat, h.stores.from', h.stores.time⟩
      obtain ⟨u, hu, hmsg, hbuf', hhdr', hi⟩ :=
        storeBuf_stores hbuf hstores (show 32 ≤ fuel by omega)
      exact ⟨u, hu, hmsg, .inr ⟨_, hbuf'⟩, by rw [hhdr']; exact hhdr, hi⟩
    · rw [if_neg hfit, if_neg hfit]
      exact ⟨v, rfl, h.stores, h.buf, h.hdr, rfl⟩
  obtain ⟨u, hu, hmsg, hbuf, hhdr, hi⟩ := hstored
  obtain ⟨hdr', hhdr', hfind⟩ := findField_header hhdr (p := pend + 2)
    (show pend + 2 ≤ line.length + 1 by omega) (show line.length < fuel by omega)
  unfold fieldTurn
  rw [hu]
  dsimp only [Option.bind_eq_bind, Option.bind_some]
  rw [hfind]
  refine ⟨_, rfl, ⟨hhdr', ?_, ?_, hbuf,
    ⟨hmsg.idx, hmsg.stat, hmsg.from', hmsg.time⟩⟩, rfl,
    congrArg (· + 1) hi, rfl⟩
  · show pend + 2 ≤ line.length + 1
    omega
  · intro p hp
    obtain ⟨r, hr, rfl⟩ := Option.map_eq_some_iff.mp hp
    obtain ⟨hbehind, hinside, -⟩ := nextField_place hr
    exact ⟨hbehind, hinside⟩

/-- The loop is entered at the first byte of the line, with a message whose
arrays are empty. -/
theorem scanning_start (mem : HeaderMem) (body : List UInt8) :
    ∃ v, scanStart fuel line mem = some v ∧
      Scanning line v { SmsMsg.zero with msg := some body } ∧
      v.msgidx = 0 ∧ v.i = 1 ∧
      v.pend = (strstr (bytes ",\"") line).map (placeOf line 0) := by
  have hempty : ∀ beyond, Holds (.calloc 32 0 beyond) [] := fun beyond =>
    ⟨rfl, Slots.inBounds_calloc 32 0 beyond,
      ⟨rfl, Slots.calloc_cell (by decide) 0 beyond, nofun⟩, by decide⟩
  obtain ⟨hdr, hhdr, hfind⟩ := strstrAt_header (header_copy hline mem.hdr)
    (Nat.zero_le _) (show line.length < fuel by omega) (bytes ",\"")
  rw [List.drop_zero] at hfind
  unfold scanStart
  rw [hfind]
  refine ⟨_, rfl, ⟨hhdr, Nat.zero_le _, ?_, .inl ⟨rfl, rfl⟩,
    ⟨rfl, hempty _, hempty _, hempty _⟩⟩, rfl, rfl, rfl⟩
  intro p hp
  obtain ⟨r, hr, rfl⟩ := Option.map_eq_some_iff.mp hp
  have hsep : bytes ",\"" ≠ [] := by decide
  obtain ⟨hbehind, hinside, -⟩ :=
    placeOf_spec (p := 0) hsep (by rwa [List.drop_zero])
  exact ⟨hbehind, hinside⟩

/-- The loop ends, with the fields that the loop on texts stores. -/
theorem scanLoop_ends {turns turns' : Nat} {v : HeaderVars} {msg : SmsMsg}
    (h : Scanning line v msg) (hturns : line.length - v.msgidx < turns)
    (hturns' : line.length - v.msgidx < turns') :
    ∃ w, scanLoop fuel turns v = some w ∧ ReflTransGen (Turn fuel) v w ∧
      Scanning line w (fieldLoop turns' (line.drop v.msgidx)
        (v.pend.map line.drop) v.i msg) := by
  induction turns generalizing turns' v msg with
  | zero => exact absurd hturns (Nat.not_lt_zero _)
  | succ turns ih =>
      obtain ⟨turns', rfl⟩ := Nat.exists_eq_add_one_of_ne_zero
        (Nat.ne_of_gt (Nat.zero_lt_of_lt hturns'))
      unfold scanLoop
      cases hpend : v.pend with
      | none => exact ⟨v, rfl, .refl, h⟩
      | some pend =>
          obtain ⟨hle, hlt⟩ := h.pend pend hpend
          obtain ⟨u, hturn, hu, hmsgidx, hi, hupend⟩ :=
            scanning_turn hline hfuel h hpend
          obtain ⟨w, hloop, hsteps, hw⟩ := ih hu (by omega)
            (show line.length - u.msgidx < turns' by omega)
          refine ⟨w, ?_, .head ⟨pend, hpend, hturn⟩ hsteps, ?_⟩
          · dsimp only
            rw [hturn]
            exact hloop
          · rw [hmsgidx, hi, hupend, drop_placeOf] at hw
            rw [Option.map_some, fieldLoop_drop hle hlt]
            exact hw

-- ================================================================== the law

/-- Every state of the loop belongs to some message. -/
theorem Reached.scanning {mem : HeaderMem} {v : HeaderVars}
    (h : Reached fuel line mem v) : ∃ msg, Scanning line v msg := by
  obtain ⟨v₀, hstart, hsteps⟩ := h
  obtain ⟨v₁, hstart', h₀, -⟩ := scanning_start hline hfuel mem []
  obtain rfl : v₀ = v₁ := Option.some.inj (hstart.symm.trans hstart')
  induction hsteps with
  | refl => exact ⟨_, h₀⟩
  | tail _ hturn ih =>
      obtain ⟨msg, hmsg⟩ := ih
      obtain ⟨pend, hpend, hstep⟩ := hturn
      obtain ⟨w, hstep', hw, -⟩ := scanning_turn hline hfuel hmsg hpend
      obtain rfl := Option.some.inj (hstep.symm.trans hstep')
      exact ⟨_, hw⟩

omit hline hfuel in
/-- What the law asks of a state, such a state has. -/
theorem Scanning.law {v : HeaderVars} {msg : SmsMsg}
    (h : Scanning line v msg) : ScanLaw line.length v where
  hdr := by
    rw [← h.hdr.size]
    exact h.hdr.inside
  buf := h.buf.imp And.right fun h => h.elim fun _ h => h.terminated
  stat := h.stores.stat.terminated
  from' := h.stores.from'.terminated
  time := h.stores.time.terminated

/-- The field loop of `getSMS` ends in one of the states it reaches, with the
message that `parsed` describes. -/
theorem scanHeader_ends (mem : HeaderMem) (body : List UInt8) :
    ∃ v, scanHeader fuel line mem = some v ∧ Reached fuel line mem v ∧
      Stores v (parsed line body) := by
  obtain ⟨v₀, hstart, h₀, hmsgidx, hi, hpend⟩ :=
    scanning_start hline hfuel mem body
  obtain ⟨v, hloop, hsteps, hv⟩ := scanLoop_ends hline hfuel h₀
    (show line.length - v₀.msgidx < fuel by omega)
    (show line.length - v₀.msgidx < line.length + 1 by omega)
  have htexts : v₀.pend.map line.drop = strstr (bytes ",\"") line := by
    rw [hpend]
    cases hr : strstr (bytes ",\"") line with
    | none => rfl
    | some r =>
        have hsep : bytes ",\"" ≠ [] := by decide
        exact congrArg some
          (placeOf_spec (p := 0) hsep (by rwa [List.drop_zero])).2.2
  rw [hmsgidx, hi, htexts, List.drop_zero] at hv
  refine ⟨v, ?_, ⟨v₀, hstart, hsteps⟩, hv.stores⟩
  unfold scanHeader
  rw [hstart]
  exact hloop

end

/-- On every header line the field loop of `getSMS` ends, and in every
state up to its end all positions accessed in `hdr` and the arrays are
inside, and the arrays have their NUL.

The line is any C string, not only one that a modem sends: quotes and
commas may stand anywhere. The memory may hold anything before. -/
theorem scanHeader_safe {line : List UInt8} (hline : ∀ b ∈ line, b ≠ 0)
    {fuel : Nat} (hfuel : line.length + 32 ≤ fuel) (mem : HeaderMem) :
    (∃ v, scanHeader fuel line mem = some v ∧ Reached fuel line mem v) ∧
      ∀ v, Reached fuel line mem v → ScanLaw line.length v := by
  obtain ⟨v, hscan, hreached, -⟩ := scanHeader_ends hline hfuel mem []
  refine ⟨⟨v, hscan, hreached⟩, fun w hw => ?_⟩
  obtain ⟨msg, hmsg⟩ := hw.scanning hline hfuel
  exact hmsg.law

/-- Memory without a NUL. -/
def fullMem : HeaderMem where
  hdr _ := 0xff
  buf _ := 0xff
  stat _ := 0xff
  from' _ := 0xff
  time _ := 0xff

/-- A line that ends in a quote: the cursor goes past its terminator. -/
theorem scanHeader_safe_quote :
    (∃ v, scanHeader 36 [0x31, 0x2c, 0x22, 0x22] fullMem = some v ∧
        Reached 36 [0x31, 0x2c, 0x22, 0x22] fullMem v) ∧
      ∀ v, Reached 36 [0x31, 0x2c, 0x22, 0x22] fullMem v → ScanLaw 4 v :=
  scanHeader_safe (by decide +kernel) (by decide) fullMem

end ShZ001.Sms
