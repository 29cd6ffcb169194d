/-
The names of a packet as texts.

# A name without a buffer

`readName` decodes a name without a buffer: its state is the cursor, the
text so far and what the last pointer left behind. It follows the code's
reading of a name, its quirks included: the first byte is taken as a
label even when it is the terminator, a full text stops the cursor
inside a label, and a reserved byte is stood upon for ever.

# The buffer shows the text

`labelToStr_result` connects the two: the buffer of `labelToStr` shows
the text of `readName` at every turn (`Shows`), and at the end holds it
with a terminator that is outside the buffer exactly if the text fills
it (`Stored`). The lemmas follow the code: one byte (`Shows.put`), the
copy of a label (`copyLabel_shows`), the separator, one turn
(`turn_shows`), the loop.

# Questions

`asked` reads the questions of a datagram with it, up to one whose name
leaves the datagram.
-/
import ShZ001.Dns.Recv

namespace ShZ001.Dns

open Lib

-- =================================================================== names

/-- A name being decoded. -/
structure Name where
  pos : Nat
  text : List UInt8
  after : Option Nat

/-- No part of the name at `pos` is decoded yet. -/
def Name.start (pos : Nat) : Name where
  pos := pos
  text := []
  after := none

/-- Where the caller goes on. -/
def Name.finish (n : Name) : Nat := n.after.getD (n.pos + 1)

/-- Another byte of text, the cursor stays. -/
def Name.put (c : UInt8) (n : Name) : Name :=
  { n with text := n.text ++ [c] }

/-- A separator, unless the text is empty or full. -/
def Name.separate (max : Nat) (n : Name) : Name :=
  if n.text.length < max ∧ n.text.length ≠ 0 then n.put 0x2e else n

/-- Up to `len` bytes of a label, as many as there is room for. -/
def Name.take (packet : Nat → UInt8) (max len : Nat) (n : Name) : Name :=
  let k := min len (max - n.text.length)
  { n with
    pos := n.pos + k
    text := n.text ++ slice packet n.pos k }

/-- One part of a name: a label, a pointer, or a reserved byte. -/
def Name.step (packet : Nat → UInt8) (max : Nat) (n : Name) : Name :=
  let b := packet n.pos
  if b &&& 0xC0 = 0 then
    (({ n with pos := n.pos + 1 } : Name).separate max).take packet max
      b.toNat
  else if b &&& 0xC0 = 0xC0 then
    { n with
      pos := ntohs packet n.pos &&& 0x3FFF
      after := some (n.pos + 2) }
  else n

/-- The name from here on, in at most `fuel` parts: `none` if they are not
enough, `some none` if it leaves the packet. -/
def readName (packet : Nat → UInt8) (size max : Nat) :
    Nat → Name → Option (Option Name)
  | 0, _ => none
  | fuel + 1, n =>
      let n := n.step packet max
      if size < n.pos then some none
      else if packet n.pos ≠ 0 then readName packet size max fuel n
      else some (some n)

/-- Of no bytes none is taken. -/
theorem Name.take_zero (packet : Nat → UInt8) (max : Nat) (n : Name) :
    n.take packet max 0 = n := by
  simp [Name.take, slice]

/-- A full text takes none, and the cursor stays. -/
theorem Name.take_full (packet : Nat → UInt8) {max : Nat} (len : Nat)
    {n : Name} (h : max ≤ n.text.length) : n.take packet max len = n := by
  simp [Name.take, Nat.sub_eq_zero_of_le h, slice]

/-- One byte after the other is taken while there is room. -/
theorem Name.take_succ (packet : Nat → UInt8) {max : Nat} (len : Nat)
    {n : Name} (h : n.text.length < max) :
    n.take packet max (len + 1) =
      ({ n.put (packet n.pos) with pos := n.pos + 1 } : Name).take packet
        max len := by
  have hmin : min (len + 1) (max - n.text.length)
      = min len (max - (n.text.length + 1)) + 1 := by omega
  simp [Name.take, Name.put, hmin, slice]
  omega

/-- Taking bytes never moves the cursor back. -/
theorem Name.le_take_pos (packet : Nat → UInt8) (max len : Nat) (n : Name) :
    n.pos ≤ (n.take packet max len).pos := Nat.le_add_right ..

-- ============================================================ the buffer

/-- A buffer after writes inside it. -/
structure Written (res₀ res : Slots UInt8) : Prop where
  size : res.size = res₀.size
  inBounds : res.InBounds ↔ res₀.InBounds

/-- The variables of `labelToStr` show the name. -/
structure Shows (res₀ : Slots UInt8) (max : Nat) (v : LabelVars)
    (n : Name) : Prop where
  labelPtr : v.labelPtr = n.pos
  i : v.i = n.text.length
  endPtr : v.endPtr = n.after
  room : n.text.length ≤ max
  res : ∀ k, k < n.text.length → n.text[k]? = some (v.res.cell k)
  written : Written res₀ v.res

section

variable {res₀ : Slots UInt8} {max : Nat} (hmax : max ≤ res₀.size)
  (packet : Nat → UInt8) (packetSz : Nat)

include hmax

/-- A byte put into a buffer that is not full. -/
theorem Shows.put {v : LabelVars} {n : Name} (h : Shows res₀ max v n)
    (hi : v.i < max) (c : UInt8) : Shows res₀ max (v.put c) (n.put c) := by
  obtain ⟨hpos, hlen, hafter, -, hres, hsize, hin⟩ := h
  refine ⟨hpos, ?_, hafter, ?_, fun k hk => ?_, ?_, ?_⟩
  · simp [LabelVars.put, Name.put, hlen]
  · simp only [Name.put, List.length_append, List.length_singleton]
    omega
  · simp only [Name.put, List.length_append, List.length_singleton] at hk
    rcases Nat.lt_succ_iff_lt_or_eq.mp hk with hlt | rfl
    · have hne : k ≠ v.i := by omega
      simp only [Name.put, LabelVars.put, Slots.write_cell_ne hne,
        List.getElem?_append_left hlt, hres k hlt]
    · simp [Name.put, LabelVars.put, hlen]
  · exact hsize
  · simp only [LabelVars.put, Slots.inBounds_write, hin, hsize]
    exact and_iff_right (by omega)

/-- The copy loop takes the bytes there is room for; it returns `NULL`
only where they lead out of the packet. -/
theorem copyLabel_shows (len : Nat) {v : LabelVars} {n : Name}
    (h : Shows res₀ max v n) :
    ((copyLabel packet packetSz max len v).2 = true ∧
      packetSz < (n.take packet max len).pos ∧
      Written res₀ (copyLabel packet packetSz max len v).1.res) ∨
    ((copyLabel packet packetSz max len v).2 = false ∧
      Shows res₀ max (copyLabel packet packetSz max len v).1
        (n.take packet max len)) := by
  induction len generalizing v n with
  | zero => exact .inr ⟨rfl, by rwa [Name.take_zero]⟩
  | succ len ih =>
      unfold copyLabel
      split
      case isTrue hout =>
          rw [h.labelPtr] at hout
          exact .inl ⟨rfl, hout.trans_le (n.le_take_pos ..), h.written⟩
      case isFalse =>
          split
          case isTrue hroom =>
              rw [Name.take_succ packet len (h.i ▸ hroom), ← h.labelPtr]
              have hput := h.put hmax hroom (packet v.labelPtr)
              refine ih ⟨by rw [h.labelPtr], hput.i, hput.endPtr,
                hput.room, hput.res, hput.written⟩
          case isFalse hfull =>
              have hle : max ≤ n.text.length := by
                rw [← h.i]
                omega
              have hrest := ih h
              rwa [Name.take_full packet _ hle,
                ← Name.take_full packet (len + 1) hle] at hrest

/-- The separator. -/
theorem Shows.separate {v : LabelVars} {n : Name} (h : Shows res₀ max v n) :
    Shows res₀ max (if v.i < max ∧ v.i ≠ 0 then v.put 0x2e else v)
      (n.separate max) := by
  unfold Name.separate
  rw [← h.i]
  split
  case isTrue hsep => exact h.put hmax hsep.1 0x2e
  case isFalse => exact h

/-- A turn of the loop takes one step of the name. -/
inductive TurnShows (res₀ : Slots UInt8) (max : Nat)
    (packet : Nat → UInt8) (packetSz : Nat) (n : Name) :
    LabelVars × TurnEnd → Prop
  | null {v} (hout : packetSz < n.pos) (h : Written res₀ v.res) :
      TurnShows res₀ max packet packetSz n (v, .null)
  | again {v} (hin : ¬ packetSz < n.pos) (hb : packet n.pos ≠ 0)
      (h : Shows res₀ max v n) :
      TurnShows res₀ max packet packetSz n (v, .again)
  | done {v} (hin : ¬ packetSz < n.pos) (hb : ¬ packet n.pos ≠ 0)
      (h : Shows res₀ max v n) :
      TurnShows res₀ max packet packetSz n (v, .done)

omit hmax in
/-- The tests at the end of a turn. -/
theorem turnShows_end {v : LabelVars} {n : Name} {null : Bool}
    (h : (null = true ∧ packetSz < n.pos ∧ Written res₀ v.res) ∨
      (null = false ∧ Shows res₀ max v n)) :
    TurnShows res₀ max packet packetSz n
      (if null then (v, .null)
      else if packetSz < v.labelPtr then (v, .null)
      else if packet v.labelPtr ≠ 0 then (v, .again)
      else (v, .done)) := by
  rcases h with ⟨rfl, hout, hw⟩ | ⟨rfl, hs⟩
  · exact .null hout hw
  · rw [if_neg Bool.false_ne_true, hs.labelPtr]
    split_ifs with hout hb
    · exact .null hout hs.written
    · exact .again hout hb hs
    · exact .done hout hb hs

/-- A turn of the loop, on the name it shows. -/
theorem turn_shows {v : LabelVars} {n : Name} (h : Shows res₀ max v n) :
    TurnShows res₀ max packet packetSz (n.step packet max)
      (turn packet packetSz max v) := by
  unfold turn Name.step
  dsimp only
  refine turnShows_end packet packetSz ?_
  rw [h.labelPtr]
  by_cases hlabel : packet n.pos &&& 0xC0 = 0
  · rw [if_pos hlabel, if_pos hlabel]
    have hnext : Shows res₀ max { v with labelPtr := n.pos + 1 }
        { n with pos := n.pos + 1 } :=
      ⟨rfl, h.i, h.endPtr, h.room, h.res, h.written⟩
    exact copyLabel_shows hmax packet packetSz _ (hnext.separate hmax)
  · rw [if_neg hlabel, if_neg hlabel]
    split_ifs with hptr hout
    · exact .inl ⟨rfl, hout, h.written⟩
    · exact .inr ⟨rfl, rfl, h.i, rfl, h.room, h.res, h.written⟩
    · exact .inr ⟨rfl, h⟩

/-- The loop ends as the name does. -/
inductive LoopShows (res₀ : Slots UInt8) (max : Nat) :
    Option (Option Name) → Option (LabelVars × Bool) → Prop
  | running : LoopShows res₀ max none none
  | null {v} (h : Written res₀ v.res) :
      LoopShows res₀ max (some none) (some (v, true))
  | name {v n} (h : Shows res₀ max v n) :
      LoopShows res₀ max (some (some n)) (some (v, false))

/-- And the loop, by induction on its turns: each shows one step of the
name more. -/
theorem labelLoop_shows (fuel : Nat) {v : LabelVars} {n : Name}
    (h : Shows res₀ max v n) :
    LoopShows res₀ max (readName packet packetSz max fuel n)
      (labelLoop packet packetSz max fuel v) := by
  induction fuel generalizing v n with
  | zero => exact .running
  | succ fuel ih =>
      unfold readName labelLoop
      dsimp only
      have hturn := turn_shows hmax packet packetSz h
      generalize turn packet packetSz max v = r at hturn
      cases hturn with
      | null hout hw =>
          rw [if_pos hout]
          exact .null hw
      | again hin hb hs =>
          rw [if_neg hin, if_pos hb]
          exact ih hs
      | done hin hb hs =>
          rw [if_neg hin, if_neg hb]
          exact .name hs

end

/-- The buffer after a name was stored in it: the text and its terminator,
which is outside when the text fills the buffer. -/
structure Stored (res₀ res : Slots UInt8) (t : List UInt8) : Prop where
  size : res.size = res₀.size
  inBounds : res.InBounds ↔ t.length < res₀.size ∧ res₀.InBounds
  text : text res = cstr t

/-- The terminator behind the text is the last write, at the position the
text has come to. -/
theorem stored_write {res₀ : Slots UInt8} {v : LabelVars} {n : Name}
    (h : Shows res₀ res₀.size v n) :
    Stored res₀ (v.res.write v.i 0) n.text := by
  obtain ⟨-, hlen, -, hroom, hres, hsize, hin⟩ := h
  refine ⟨hsize, ?_, ?_⟩
  · rw [Slots.inBounds_write, hin, hsize, hlen]
  · have hsplit : (v.res.write v.i 0).size + 1
        = n.text.length + (res₀.size - n.text.length + 1) := by
      rw [Slots.write_size, hsize]
      omega
    have hcells : slice (v.res.write v.i 0).cell 0 n.text.length
        = n.text := by
      refine slice_eq fun k hk => ?_
      rw [Nat.zero_add, Slots.write_cell_ne (by omega)]
      exact hres k hk
    unfold text
    rw [hsplit, slice_add, hcells, Nat.zero_add, slice, hlen,
      Slots.write_cell_self, cstr_append_zero]

/-- What `labelToStr` returns, and what it leaves in the buffer. -/
inductive NameResult (res₀ : Slots UInt8) :
    Option (Option Name) → Option (Option Nat × Slots UInt8) → Prop
  | running : NameResult res₀ none none
  | null {res} (h : Written res₀ res) :
      NameResult res₀ (some none) (some (none, res))
  | name {n res} (h : Stored res₀ res n.text) :
      NameResult res₀ (some (some n)) (some (some n.finish, res))

/-- `labelToStr` decodes the name at its cursor into its buffer. -/
theorem labelToStr_result (fuel : Nat) (packet : Nat → UInt8)
    (labelPtr packetSz : Nat) (res : Slots UInt8) :
    NameResult res
      (readName packet packetSz res.size fuel (.start labelPtr))
      (labelToStr fuel packet labelPtr packetSz res res.size) := by
  have hstart : Shows res res.size
      { labelPtr := labelPtr
        i := 0
        endPtr := none
        res := res } (.start labelPtr) :=
    ⟨rfl, rfl, rfl, Nat.zero_le _, fun k hk => absurd hk (Nat.not_lt_zero k),
      rfl, Iff.rfl⟩
  have hloop := labelLoop_shows (le_refl res.size) packet packetSz fuel
    hstart
  unfold labelToStr
  generalize labelLoop packet packetSz res.size fuel _ = r at hloop
  generalize readName packet packetSz res.size fuel _ = r' at hloop ⊢
  cases hloop with
  | running => exact .running
  | null h => exact .null h
  | @name v n h =>
      have hfinish : v.endPtr.getD (v.labelPtr + 1) = n.finish := by
        rw [h.endPtr, h.labelPtr]
        rfl
      dsimp only
      rw [hfinish]
      exact .name (stored_write h)

-- =============================================================== questions

/-- A question: the text of its name as it is decoded, and its type. -/
structure Question where
  name : List UInt8
  type : Nat

/-- The next `n` questions from `p` on, up to one whose name leaves the
datagram. -/
def askedLoop (fuel : Nat) (packet : Nat → UInt8) (length : Nat) :
    Nat → Nat → Option (List Question)
  | 0, _ => some []
  | n + 1, p =>
      match readName packet length dnsLen fuel (.start p) with
      | none => none
      | some none => some []
      | some (some name) =>
          let q :=
            { name := name.text
              type := ntohs packet name.finish }
          (askedLoop fuel packet length n
            (name.finish + sizeofDnsQuestionFooter)).map (q :: ·)

/-- The questions that a datagram gets answered; `none` if one of their
names does not end within `fuel` parts. -/
def asked (fuel : Nat) (packet : Nat → UInt8) (length : Nat) :
    Option (List Question) :=
  if accepted packet length then
    askedLoop fuel packet length (qdcount packet) sizeofDnsHeader
  else some []

end ShZ001.Dns
