/-
`smsDelete` (libGSM.c 1100–1108), as `Send.lean` has `smsSend`: the
buffer it builds its command in, and its exchanges.

# The index

It is an `int` and goes into the command by `%d`, whatever it is:
nothing in the function asks whether it is one that the modem has
listed, or whether it is negative. So the model takes every integer, and
what becomes of it is for the laws to say (`Proofs/Delete.lean`).

# The exchanges

Like the other SMS functions it begins with `sms_ready`, and if that
fails nothing is sent. What it returns is the verdict of the one
exchange behind it.
-/
import ShZ001.Lib.Decimal
import ShZ001.Lib.Slots
import ShZ001.Sms.Send

namespace ShZ001.Sms

open Lib Gsm

/-- Lines 1104–1105: `buf` after `sprintf`; `mem` is what the stack
held. -/
def deleteBuf (idx : Int) (mem : Nat → UInt8) : Slots UInt8 :=
  (Slots.array 64 mem).writeAll 0
    (bytes "AT+CMGD=" ++ printInt idx ++ bytes "\r\n" ++ [0])

/-- Line 1107. -/
def deleteOne (env : SendEnv) (idx : Int) : Exchanged where
  name := .smsDelete
  cmd := bytes "AT+CMGD=" ++ printInt idx ++ bytes "\r\n"
  resp := gsmOkStr
  resp1 := none
  timeout := 5000
  link := env.link .smsDelete

/-- `smsDelete`. -/
def smsDelete (idx : Int) (env : SendEnv) : SendOut :=
  let (ready, done) := smsReady env .delete
  if ready = false then
    { ret := 0
      exchanges := done }
  else
    { ret := (deleteOne env idx).verdict
      exchanges := done ++ [deleteOne env idx] }

end ShZ001.Sms
