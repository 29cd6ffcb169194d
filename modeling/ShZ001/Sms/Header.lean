/-
The field loop of `getSMS` in memory (libGSM.c 947–991): the header line
in its block of `len + 4` bytes, `buf`, and the three arrays of the
message.

# Two models of one loop

`Parse.lean` has the same loop on texts, which is what the laws about
the messages are stated with. Here pointers are positions, and the
blocks record every access (`Lib/Strings.lean`), so that it can be said
which positions are read and written. `Proofs/Cursor.lean` ties the two
together.

# Fuel

The string functions look at `fuel` bytes at most; `none` is the answer
if that, or as many turns of the loop, are not enough. Both are
arguments, so that "it ends" is a statement about some fuel being
enough.

# Memory

What is not written by the function is what was there: the block of the
header line has been zeroed, the message has been cleared, and `buf`
holds whatever the stack held.
-/
import ShZ001.Lib.Strings
import ShZ001.Sms.Parse

namespace ShZ001.Sms

open Lib

/-- What memory holds before it is written: `hdr`, `buf`, and what lies
behind the three arrays of the message. -/
structure HeaderMem where
  hdr : Nat → UInt8
  buf : Nat → UInt8
  stat : Nat → UInt8
  from' : Nat → UInt8
  time : Nat → UInt8

/-- The variables of the loop: `msgidx` and `pend` are positions in `hdr`. -/
structure HeaderVars where
  msgidx : Nat
  pend : Option Nat
  i : Nat
  hdr : Slots UInt8
  buf : Slots UInt8
  idx : Int
  stat : Slots UInt8
  from' : Slots UInt8
  time : Slots UInt8

/-- Lines 950–956: the header line, in zeroed memory. -/
def copyHeader (line : List UInt8) (mem : Nat → UInt8) : Slots UInt8 :=
  let len := line.length
  let hdr := (Slots.array (len + 4) mem).writeAll 0
    (List.replicate (len + 4) 0)
  (hdr.writeAll 0 line).write len 0

/-- Lines 975–979: the field's text goes to `buf`, without the quote that
closes it. -/
def copyField (len : Nat) (v : HeaderVars) : HeaderVars :=
  let buf := v.buf.writeAll 0 (List.replicate 32 0)
  let (hdr, buf) := v.hdr.strncpy v.msgidx len buf
  let buf := (buf.write len 0).touch (len - 1)
  { v with
    hdr := hdr
    buf := if buf.cell (len - 1) = 0x22 then buf.write (len - 1) 0 else buf }

/-- Lines 981–984. -/
def storeBuf (fuel : Nat) (v : HeaderVars) : Option HeaderVars :=
  if v.i = 1 then do
    let n ← strlen v.buf.cell fuel 0
    return { v with
      buf := v.buf.touchAll 0 (n + 1)
      idx := strtol (slice v.buf.cell 0 n) }
  else if v.i = 2 then do
    let (buf, stat) ← v.buf.strcpy fuel v.stat
    return { v with
      buf := buf
      stat := stat }
  else if v.i = 3 then do
    let (buf, from') ← v.buf.strcpy fuel v.from'
    return { v with
      buf := buf
      from' := from' }
  else if v.i = 5 then do
    let (buf, time) ← v.buf.strcpy fuel v.time
    return { v with
      buf := buf
      time := time }
  else some v

/-- Lines 974–985: a field of `len` bytes, if it fits. -/
def takeField (fuel len : Nat) (v : HeaderVars) : Option HeaderVars :=
  if len < 32 ∧ 0 < len then storeBuf fuel (copyField len v) else some v

/-- Lines 988–990: the next separator. -/
def findField (fuel msgidx : Nat) (hdr : Slots UInt8) :
    Option (Option Nat × Slots UInt8) := do
  let (pend, hdr) ← hdr.strstrAt fuel (bytes ",\"") msgidx
  match pend with
  | some pend => return (some pend, hdr)
  | none => hdr.strstrAt fuel (bytes "\"") msgidx

/-- Lines 973–990: a turn of the loop, with the separator at `pend`. -/
def fieldTurn (fuel pend : Nat) (v : HeaderVars) : Option HeaderVars := do
  let v ← takeField fuel (pend - v.msgidx) v
  let msgidx := pend + 2
  let (pend, hdr) ← findField fuel msgidx v.hdr
  return { v with
    msgidx := msgidx
    pend := pend
    i := v.i + 1
    hdr := hdr }

/-- Lines 947–956 and 969–971: the variables when the loop is come to. The
message has been cleared. -/
def scanStart (fuel : Nat) (line : List UInt8) (mem : HeaderMem) :
    Option HeaderVars := do
  let (pend, hdr) ←
    (copyHeader line mem.hdr).strstrAt fuel (bytes ",\"") 0
  return {
    msgidx := 0
    pend := pend
    i := 1
    hdr := hdr
    buf := .array 32 mem.buf
    idx := 0
    stat := .calloc 32 0 mem.stat
    from' := .calloc 32 0 mem.from'
    time := .calloc 32 0 mem.time }

/-- The loop for at most so many turns. -/
def scanLoop (fuel : Nat) : Nat → HeaderVars → Option HeaderVars
  | 0, _ => none
  | turns + 1, v =>
      match v.pend with
      | none => some v
      | some pend => (fieldTurn fuel pend v).bind (scanLoop fuel turns)

/-- Lines 947–991, of a header line. -/
def scanHeader (fuel : Nat) (line : List UInt8) (mem : HeaderMem) :
    Option HeaderVars :=
  (scanStart fuel line mem).bind (scanLoop fuel fuel)

end ShZ001.Sms
