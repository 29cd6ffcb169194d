/-
The two name routines of the captive DNS responder (captdns.c 94–165):
`labelToStr` decodes a name of the packet into a dotted C string,
`strToLabel` encodes a dotted string as labels.

# Memory

The packet is the memory from its first byte on, past its end too: the
code tests its cursor against the packet's size, but reads before some
of these tests. A pointer into it is its distance from the start, a
pointer into a buffer likewise. The buffers record the positions written
(`Lib/Slots.lean`); reads are not recorded here. Nothing is claimed of
the memory after a write outside its buffer: the model lets it go on as
if the bytes behind the buffer were its own.

# Turns

`labelToStr` need not end, so it takes a number of turns of its loop,
and `none` is the answer when they are not enough. One turn is a
definition of its own (`turn`), with the way it ends: at `NULL`, at the
zero byte, or with another turn to come. `strToLabel` runs over a C
string and always ends.
-/
import ShZ001.Lib.Bytes
import ShZ001.Lib.Slots

namespace ShZ001.Dns

open Lib

-- ========================================================== network order

/-- `setn16`. -/
def setn16 (pp n : Nat) (s : Slots UInt8) : Slots UInt8 :=
  s.writeAll pp [(n / 256).toUInt8, n.toUInt8]

/-- `setn32`. -/
def setn32 (pp n : Nat) (s : Slots UInt8) : Slots UInt8 :=
  s.writeAll pp [(n / 16777216).toUInt8, (n / 65536).toUInt8,
    (n / 256).toUInt8, n.toUInt8]

/-- `my_ntohs`. -/
def ntohs (mem : Nat → UInt8) (p : Nat) : Nat :=
  (mem p).toNat * 256 + (mem (p + 1)).toNat

/-- The network-order writes leave the buffer its size. -/
@[simp] theorem setn16_size (pp n : Nat) (s : Slots UInt8) :
    (setn16 pp n s).size = s.size := Slots.writeAll_size ..

@[simp] theorem setn32_size (pp n : Nat) (s : Slots UInt8) :
    (setn32 pp n s).size = s.size := Slots.writeAll_size ..

/-- They stay inside if their last byte does. -/
@[simp] theorem inBounds_setn16 {pp n : Nat} {s : Slots UInt8} :
    (setn16 pp n s).InBounds ↔ pp + 2 ≤ s.size ∧ s.InBounds :=
  Slots.inBounds_writeAll (List.cons_ne_nil _ _)

@[simp] theorem inBounds_setn32 {pp n : Nat} {s : Slots UInt8} :
    (setn32 pp n s).InBounds ↔ pp + 4 ≤ s.size ∧ s.InBounds :=
  Slots.inBounds_writeAll (List.cons_ne_nil _ _)

-- ============================================================= labelToStr

/-- The variables of `labelToStr`. -/
structure LabelVars where
  labelPtr : Nat
  i : Nat
  endPtr : Option Nat
  res : Slots UInt8

/-- `res[i++]=c`. -/
def LabelVars.put (c : UInt8) (v : LabelVars) : LabelVars :=
  { v with
    i := v.i + 1
    res := v.res.write v.i c }

/-- Lines 127–130, with `n` bytes of the label to go; is `NULL`
returned? A full result is not written, and its cursor stays. -/
def copyLabel (packet : Nat → UInt8) (packetSz resMaxLen : Nat) :
    Nat → LabelVars → LabelVars × Bool
  | 0, v => (v, false)
  | n + 1, v =>
      if packetSz < v.labelPtr then (v, true)
      else if v.i < resMaxLen then
        copyLabel packet packetSz resMaxLen n
          { v.put (packet v.labelPtr) with labelPtr := v.labelPtr + 1 }
      else copyLabel packet packetSz resMaxLen n v

/-- How a turn of the loop ends. -/
inductive TurnEnd
  | null
  | again
  | done

/-- Lines 122–141: one turn of the loop. A byte whose top bits are 01 or
10 is neither a length nor a pointer; the cursor stays on it. -/
def turn (packet : Nat → UInt8) (packetSz resMaxLen : Nat)
    (v : LabelVars) : LabelVars × TurnEnd :=
  let b := packet v.labelPtr
  let (v, null) :=
    if b &&& 0xC0 = 0 then
      let v := { v with labelPtr := v.labelPtr + 1 }
      -- the separator
      let v := if v.i < resMaxLen ∧ v.i ≠ 0 then v.put 0x2e else v
      copyLabel packet packetSz resMaxLen b.toNat v
    else if b &&& 0xC0 = 0xC0 then
      let offset := ntohs packet v.labelPtr &&& 0x3FFF
      let v := { v with endPtr := some (v.labelPtr + 2) }
      if packetSz < offset then (v, true)
      else ({ v with labelPtr := offset }, false)
    else (v, false)
  if null then (v, .null)
  else if packetSz < v.labelPtr then (v, .null)
  else if packet v.labelPtr ≠ 0 then (v, .again)
  else (v, .done)

/-- The loop for at most `fuel` turns; is `NULL` returned? -/
def labelLoop (packet : Nat → UInt8) (packetSz resMaxLen : Nat) :
    Nat → LabelVars → Option (LabelVars × Bool)
  | 0, _ => none
  | fuel + 1, v =>
      match turn packet packetSz resMaxLen v with
      | (v, .null) => some (v, true)
      | (v, .again) => labelLoop packet packetSz resMaxLen fuel v
      | (v, .done) => some (v, false)

/-- `labelToStr`: the returned pointer, `none` for `NULL`, and the
result buffer. -/
def labelToStr (fuel : Nat) (packet : Nat → UInt8)
    (labelPtr packetSz : Nat) (res : Slots UInt8) (resMaxLen : Nat) :
    Option (Option Nat × Slots UInt8) :=
  match labelLoop packet packetSz resMaxLen fuel
      { labelPtr := labelPtr
        i := 0
        endPtr := none
        res := res } with
  | none => none
  | some (v, true) => some (none, v.res)
  | some (v, false) =>
      some (some (v.endPtr.getD (v.labelPtr + 1)), v.res.write v.i 0)

-- ============================================================= strToLabel

/-- Lines 149–164: `len` is the place of the current length byte, `p` the
next byte to be written; the cursor past the last byte is returned. -/
def strLoop : List UInt8 → Nat → Nat → Slots UInt8 → Nat × Slots UInt8
  | [], len, p, s => (p + 1, (s.write len (p - len - 1).toUInt8).write p 0)
  | c :: str, len, p, s =>
      if c = 0x2e then
        strLoop str p (p + 1) (s.write len (p - len - 1).toUInt8)
      else strLoop str len (p + 1) (s.write p c)

/-- `strToLabel`, on the C string `str`. Its test of `maxLen` is commented
out, so it has no bound and never returns `NULL`. -/
def strToLabel (str : List UInt8) (label : Nat) (s : Slots UInt8) :
    Nat × Slots UInt8 :=
  strLoop str label (label + 1) s

end ShZ001.Dns
