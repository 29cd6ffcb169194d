/-
The two buffers in which `smsSend` builds what it sends (libGSM.c
887–901), and what a modem makes of the bytes it gets.

# The buffers

`buf` is an array of 64 bytes on the stack, `msgbuf` a block as long as
the message needs. `sprintf` fills both, and neither asks whether the
text fits. The stores are recorded, as everywhere (`Lib/Slots.lean`),
and what the memory held before is an input.

# The modem's side

It is a grammar, not code of the repository: a command line ends with CR
LF; after `AT+CMGS="<number>"` there is text, which 0x1A ends and ESC
cancels. `hear` takes it one byte at a time, so that every byte that
`smsSend` sends is accounted for, whatever it was meant as. How a modem
answers is no part of this: the answers of the exchanges are inputs, and
the bytes sent depend on their verdicts only.

# What is read from a line

`readNumber` and `readIndex` take the argument out of the two command
lines that have one. They are exact about the form, so that a number
with a quote in it is not a number.
-/
import ShZ001.Lib.Decimal
import ShZ001.Lib.Strings
import ShZ001.Sms.Parse
import ShZ001.Sms.Send

namespace ShZ001.Sms

open Lib

-- ================================================================ the buffers

/-- Lines 887 and 890: `buf` after `sprintf`; `mem` is what the stack held. -/
def promptBuf (smsnum : List UInt8) (mem : Nat → UInt8) : Slots UInt8 :=
  (Slots.array 64 mem).writeAll 0
    (bytes "AT+CMGS=\"" ++ smsnum ++ bytes "\"\r\n" ++ [0])

/-- Lines 897 and 900: `msgbuf` after `sprintf`. -/
def textBuf (msg : List UInt8) (mem : Nat → UInt8) : Slots UInt8 :=
  (Slots.array (msg.length + 2) mem).writeAll 0 (msg ++ [0x1a] ++ [0])

-- ================================================================== the modem

/-- What the modem understands. -/
inductive Heard
  | command (line : List UInt8)
  | message (number text : List UInt8)
  | cancelled (number : List UInt8)
  deriving DecidableEq

/-- What it is in the middle of. -/
inductive Hearing
  | command (line : List UInt8)
  | text (number text : List UInt8)
  deriving DecidableEq

/-- The modem, and what it has understood so far. -/
structure Listener where
  hearing : Hearing
  heard : List Heard
  deriving DecidableEq

def Listener.idle : Listener where
  hearing := .command []
  heard := []

/-- `AT+CMGS="`. -/
def cmgsStr : List UInt8 := bytes "AT+CMGS=\""

/-- The number of a line `AT+CMGS="<number>"`: what is between the quotes,
of which the second is the last byte. -/
def readNumber (line : List UInt8) : Option (List UInt8) :=
  if cmgsStr.isPrefixOf line then
    let quoted := line.drop cmgsStr.length
    if quoted.getLast? = some 0x22 ∧ 0x22 ∉ quoted.dropLast then
      some quoted.dropLast
    else none
  else none

/-- `AT+CMGD=`. -/
def cmgdStr : List UInt8 := bytes "AT+CMGD="

/-- The index of a line `AT+CMGD=<index>`. -/
def readIndex (line : List UInt8) : Option Nat :=
  if cmgdStr.isPrefixOf line then readDecimal (line.drop cmgdStr.length)
  else none

/-- A line is complete. -/
def Listener.takeLine (line : List UInt8) (m : Listener) : Listener :=
  match readNumber line with
  | some number => { m with hearing := .text number [] }
  | none =>
      { hearing := .command []
        heard := m.heard ++ [.command line] }

/-- A byte comes. -/
def Listener.hear (m : Listener) (b : UInt8) : Listener :=
  match m.hearing with
  | .command line =>
      if b = 0x0a ∧ line.getLast? = some 0x0d then m.takeLine line.dropLast
      else { m with hearing := .command (line ++ [b]) }
  | .text number text =>
      if b = 0x1a then
        { hearing := .command []
          heard := m.heard ++ [.message number text] }
      else if b = 0x1b then
        { hearing := .command []
          heard := m.heard ++ [.cancelled number] }
      else { m with hearing := .text number (text ++ [b]) }

/-- The bytes that a call of `smsSend` gives to the UART. -/
def SendOut.sent (out : SendOut) : List UInt8 :=
  out.exchanges.flatMap Exchanged.cmd

/-- What the modem makes of them. -/
def SendOut.heard (out : SendOut) : List Heard :=
  (out.sent.foldl Listener.hear .idle).heard

end ShZ001.Sms
