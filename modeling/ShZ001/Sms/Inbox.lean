/-
`smsRead` from the UART up (libGSM.c 1010–1097): `sms_ready`, the reply to
`AT+CMGL` collected into a block that grows, and the text of that block
parsed and sorted.

# From the reads to the text

`Read.lean` starts from the text in the block and from what the exchanges
have returned. Here these come from the reads: `ready` is what `sms_ready`
makes of its two exchanges, `res` and the block are what the collecting
branch of `atCmd_waitResponse` leaves (`Gsm/Reply.lean`). The text is the C
string that stands in the block.

# What a call may do to its surroundings

The code writes where it must not in three ways: it frees a block that
`realloc` has moved (lines 346–364), it puts null pointers behind its
variable `rbuffer` on the stack (line 359), and it strides out of the
arrays of messages (lines 1038–1087). `Contained` says of a call that none
of these does any harm. What a call does that is not contained is not
foretold: `Reads` then holds of anything.
-/
import ShZ001.Gsm.Reply
import ShZ001.Lib.Contents
import ShZ001.Lib.Strings
import ShZ001.Sms.Render
import ShZ001.Sms.Send

namespace ShZ001.Sms

open Lib Gsm

-- =========================================================== the surroundings

/-- What a call gets: the status and the links of `sms_ready`, the reads
of the reply with the answers of `realloc`, what the block of `malloc` and
the memory it grows into hold, which of the words behind `rbuffer` on the
stack are still in use, and the rest of the surroundings (of which `ready`,
`res` and `rbuffer` are not used). -/
structure InboxEnv where
  send : SendEnv
  reply : ReplyEnv
  block : Nat → UInt8
  inUse : Nat → Bool
  rest : ReadEnv

/-- Line 1022: what `atCmd_waitResponse` returns and leaves in `rbuffer` for
`AT+CMGL="ALL"`. -/
def InboxEnv.collected (x : InboxEnv) : Collected :=
  collect x.reply (.block 0) 512

/-- The block at `rbuffer`. -/
def InboxEnv.rbuffer (x : InboxEnv) : Slots UInt8 :=
  contentsAfter (.array 512 x.block) x.collected.uses

/-- The surroundings of the rest of `smsRead`, if `text` stands in the
block. -/
def InboxEnv.readEnv (x : InboxEnv) (text : List UInt8) : ReadEnv :=
  { x.rest with
    ready := (smsReady x.send .read).1
    res := x.collected.ret
    rbuffer := text }

/-- No allocation fails. -/
structure InboxEnv.Allocates (x : InboxEnv) : Prop where
  rbuffer : x.rest.rbufferAlloc = true
  grows : ∀ k, x.reply.grow k ≠ none
  messages : x.rest.messagesAlloc = true
  smessages : x.rest.smessagesAlloc = true

-- ==================================================================== the call

/-- The call gets as far as the reply (lines 1015–1020). -/
def InboxEnv.collects (x : InboxEnv) : Bool :=
  (smsReady x.send .read).1 && x.rest.rbufferAlloc

/-- What there is to parse, if anything is: the C string in the block. -/
def InboxEnv.Parses (x : InboxEnv) (text : List UInt8) : Prop :=
  x.collects = true → 0 < x.collected.ret →
    TextAt x.rbuffer.cell 0 text ∧ text.length < x.rbuffer.size

/-- The call does no harm: no null pointer hits a word that is in use, the
block ends its text, it is used only as long and where it is there, and the
two arrays are left at no access. -/
structure InboxEnv.Contained (x : InboxEnv) (sort : Int) : Prop where
  words : x.collects = true → ∀ t ∈ x.collected.stray, x.inUse t = false
  terminated : ∃ text, x.Parses text
  owned : ∀ text, x.Parses text →
    OwnedUses (some (.block 0)) (smsReadUses (x.readEnv text) x.reply 0)
  messages : ∀ text, x.Parses text →
    (smsRead (x.readEnv text) sort).messages.InBounds
  smessages : ∀ text, x.Parses text →
    (smsRead (x.readEnv text) sort).smessages.InBounds

/-- A call of `smsRead` may return this. -/
def Reads (x : InboxEnv) (sort : Int) (out : ReadOut) : Prop :=
  x.Contained sort →
    ∃ text, x.Parses text ∧ out = smsRead (x.readEnv text) sort

end ShZ001.Sms
