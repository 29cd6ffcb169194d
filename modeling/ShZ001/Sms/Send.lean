/-
`smsSend` (libGSM.c 870–909): the exchanges it makes with the modem,
with what each of them sends and looks for.

# Exchanges

An exchange is given by its timeline of reads and by the memory behind
the buffer that is searched (`Gsm/At.lean`); its verdict follows. No
call makes two exchanges of one name, so the link is described name by
name. The names are those of the system's AT calls (`Gsm/Sys.lean`),
where the same exchanges are steps with a verdict for an input.

# The prompt

The number is sent first, and `"> "` waited for; then the text, and
`+CMGS: ` waited for; where either does not come, an ESC is sent to take
the modem out of its text. What the exchange returns is what the
function goes by, not what the modem has said.

# Buffers

`buf` holds numbers of up to 51 characters; nothing is claimed of the
memory that a longer one overwrites. What is written into the two
buffers is in `Framing.lean`.
-/
import ShZ001.Gsm.At
import ShZ001.Gsm.Sys

namespace ShZ001.Sms

open Lib Gsm

-- ============================================================= the exchanges

/-- What the modem does during an exchange, and the bytes behind `sresp`. -/
structure Link where
  past : List UInt8
  reads : List (List UInt8)

/-- An exchange: the bytes sent, the strings waited for, and the link. -/
structure Exchanged where
  name : AtCmd
  cmd : List UInt8
  resp : List UInt8
  resp1 : Option (List UInt8)
  timeout : Nat
  link : Link

/-- What `atCmd_waitResponse` returns. -/
def Exchanged.verdict (e : Exchanged) : Nat :=
  atCmdWaitResponse e.link.past e.resp e.resp1 e.timeout e.link.reads

/-- What `smsSend` gets from its surroundings. -/
structure SendEnv where
  gsmStatus : GsmState
  link : AtCmd → Link
  msgbufAlloc : Bool

/-- What it returns, and the exchanges it has made. -/
structure SendOut where
  ret : Nat
  exchanges : List Exchanged

-- ============================================================== the functions

/-- Line 874: is the radio on? -/
def askRf (env : SendEnv) (op : SmsOp) : Exchanged where
  name := .smsRf op
  cmd := bytes "AT+CFUN?\r\n"
  resp := bytes "+CFUN: 1"
  resp1 := none
  timeout := 1000
  link := env.link (.smsRf op)

/-- Line 877: text mode messages. -/
def setFormat (env : SendEnv) (op : SmsOp) : Exchanged where
  name := .smsFormat op
  cmd := bytes "AT+CMGF=1\r\n"
  resp := gsmOkStr
  resp1 := none
  timeout := 1000
  link := env.link (.smsFormat op)

/-- `sms_ready`. -/
def smsReady (env : SendEnv) (op : SmsOp) : Bool × List Exchanged :=
  if env.gsmStatus ≠ .idle then (false, [])
  else if (askRf env op).verdict ≠ 1 then (false, [askRf env op])
  else if (setFormat env op).verdict ≠ 1 then
    (false, [askRf env op, setFormat env op])
  else (true, [askRf env op, setFormat env op])

/-- Lines 890–891: the number is sent, the prompt waited for. -/
def prompt (env : SendEnv) (smsnum : List UInt8) : Exchanged where
  name := .smsPrompt
  cmd := bytes "AT+CMGS=\"" ++ smsnum ++ bytes "\"\r\n"
  resp := bytes "> "
  resp1 := none
  timeout := 1000
  link := env.link .smsPrompt

/-- Lines 900–901: the message, and the character that ends it. -/
def sendText (env : SendEnv) (msg : List UInt8) : Exchanged where
  name := .smsText
  cmd := msg ++ [0x1a]
  resp := bytes "+CMGS: "
  resp1 := some (bytes "ERROR")
  timeout := 40000
  link := env.link .smsText

/-- Lines 893, 903. -/
def escape (env : SendEnv) : Exchanged where
  name := .smsEscape
  cmd := [0x1b]
  resp := gsmOkStr
  resp1 := none
  timeout := 1000
  link := env.link .smsEscape

/-- `smsSend`. -/
def smsSend (smsnum msg : List UInt8) (env : SendEnv) : SendOut :=
  let (ready, done) := smsReady env .send
  if ready = false then
    { ret := 0
      exchanges := done }
  else if (prompt env smsnum).verdict ≠ 1 then
    { ret := 0
      exchanges := done ++ [prompt env smsnum, escape env] }
  -- line 898
  else if env.msgbufAlloc = false then
    { ret := 0
      exchanges := done ++ [prompt env smsnum] }
  else if (sendText env msg).verdict ≠ 1 then
    { ret := 0
      exchanges := done ++
        [prompt env smsnum, sendText env msg, escape env] }
  else
    { ret := (sendText env msg).verdict
      exchanges := done ++ [prompt env smsnum, sendText env msg] }

end ShZ001.Sms
