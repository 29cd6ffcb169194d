/-
Collecting a reply: the branch of `atCmd_waitResponse` that copies it
for the caller (libGSM.c 346–364), and its three callers.

# The loop

The reads are a timeline as in `At.lean`; here the first silent read
ends the reply, and the contents do not matter. Each chunk is stored
behind those before it, and where there is no room for it and a
terminator, the buffer is reallocated with 512 bytes more. What
`realloc` answers is an input: nothing, or the block where the contents
are now.

# What is on record

Whether the storage is used as it may be is not for the code to say, so
its uses of the caller's buffer are on record (`Lib/Storage.lean`):
reallocations with their answers, the stores, and at last what the
callers do with the block. So are the stores of `response[tot] = '\0'`.
There `response` is the address of the caller's pointer, so that they
put no byte behind the text but a null pointer `tot` pointers behind
that variable. What they overwrite is a matter of the stack layout;
`stray` records where they go.

# The callers

`gsm_RFOff` and `gsm_RFOn` pass an array of their own, which is not
there to be reallocated; `smsRead` passes a block. The two RF functions
are one function with two settings, as they are in the source but for
the copied text.
-/
import ShZ001.Lib.Storage
import ShZ001.Gsm.At
import ShZ001.Gsm.Sys
import ShZ001.Sms.Read

namespace ShZ001.Gsm

open Lib

/-- What a reply is collected from: the reads, of up to 256 bytes each,
and the answers of `realloc`. -/
structure ReplyEnv where
  reads : List (List UInt8)
  grow : Nat → Option Nat
  short : ∀ chunk ∈ reads, chunk.length ≤ 256

/-- The variables of the branch: the copy `pbuf` of the caller's pointer,
`size` and `tot`, how often `realloc` has been called, and the record. -/
structure CollectVars where
  pbuf : Ptr
  size : Nat
  tot : Nat
  grown : Nat
  uses : List Use
  stray : List Nat

/-- Lines 351–356: room for `len` more bytes; `false` if `realloc`
fails. -/
def reserve (grow : Nat → Option Nat) (len : Nat) (v : CollectVars) :
    CollectVars × Bool :=
  if v.size ≤ v.tot + len then
    let answer := grow v.grown
    let v := { v with
      grown := v.grown + 1
      uses := v.uses ++ [.realloc v.pbuf (v.size + 512) answer] }
    match answer with
    | none => (v, false)
    | some a =>
        ({ v with
          size := v.size + 512
          pbuf := .block a }, true)
  else (v, true)

/-- Lines 357–359. -/
def store (data : List UInt8) (v : CollectVars) : CollectVars :=
  let tot := v.tot + data.length
  { v with
    tot := tot
    uses := v.uses ++ [.store v.pbuf v.tot data]
    stray := v.stray ++ [tot] }

/-- The loop of lines 350–361; `false` if it is left by the return of
line 353. -/
def collectLoop (grow : Nat → Option Nat) :
    List (List UInt8) → CollectVars → CollectVars × Bool
  | [], v => (v, true)
  | data :: rest, v =>
      if data = [] then (v, true)
      else
        match reserve grow data.length v with
        | (v, false) => (v, false)
        | (v, true) => collectLoop grow rest (store data v)

/-- The variables before the loop. -/
def collectStart (response : Ptr) (size : Nat) : CollectVars where
  pbuf := response
  size := size
  tot := 0
  grown := 0
  uses := []
  stray := []

/-- What the branch returns, and what it leaves in `*response`. -/
structure Collected where
  ret : Nat
  response : Ptr
  uses : List Use
  stray : List Nat

/-- `atCmd_waitResponse(…, response, size)`. The caller's pointer is set
behind the loop only. -/
def collect (env : ReplyEnv) (response : Ptr) (size : Nat) : Collected :=
  match collectLoop env.grow env.reads (collectStart response size) with
  | (v, false) =>
      { ret := 0
        response := response
        uses := v.uses
        stray := v.stray }
  | (v, true) =>
      { ret := v.tot
        response := v.pbuf
        uses := v.uses
        stray := v.stray }

-- ==================================================== gsm_RFOff, gsm_RFOn

/-- What the two functions get: the status, the reply to `AT+CFUN?`, and
the exchange that follows. -/
structure RfEnv where
  gsmStatus : GsmState
  reply : ReplyEnv
  past : List UInt8
  reads : List (List UInt8)

/-- What they return, the timeout they put into `cmd_Reg`, and their uses
of the storage of the reply, which starts as their array `buf`. -/
structure RfOut where
  ret : Nat
  timeoutMs : Option Nat
  uses : List Use

/-- What was stored into the array. -/
def stored : List Use → List UInt8
  | [] => []
  | .store .array _ data :: us => data ++ stored us
  | _ :: us => stored us

/-- Lines 824–842 and 848–866, which differ in the setting they look for
and in the timeout. The setting is looked for in `buf`. -/
def gsmRF (setting : List UInt8) (timeoutMs : Nat) (env : RfEnv) : RfOut :=
  if env.gsmStatus ≠ .idle then
    { ret := 0
      timeoutMs := none
      uses := [] }
  else
    let c := collect env.reply .array 63
    let uses := if 0 < c.ret then c.uses ++ [.load .array] else c.uses
    if 0 < c.ret ∧ (strstr setting (cstr (stored c.uses))).isSome then
      { ret := 1
        timeoutMs := none
        uses := uses }
    else
      { ret := atCmdWaitResponse env.past gsmOkStr none 10000 env.reads
        timeoutMs := some timeoutMs
        uses := uses }

/-- `gsm_RFOff`. -/
def gsmRFOff : RfEnv → RfOut := gsmRF (bytes "+CFUN: 4") 500

/-- `gsm_RFOn`. -/
def gsmRFOn : RfEnv → RfOut := gsmRF (bytes "+CFUN: 1") 0

-- ================================================================= smsRead

/-- The uses `smsRead` makes of `rbuffer`, from the block at `r` on that
`malloc` gave it (lines 1017–1044, 1095). -/
def smsReadUses (env : Sms.ReadEnv) (reply : ReplyEnv) (r : Nat) :
    List Use :=
  if env.ready = false then []
  else if env.rbufferAlloc = false then []
  else
    let c := collect reply (.block r) 512
    if c.ret = 0 then c.uses ++ [.free c.response]
    else
      let n := Sms.numSMS env.rbuffer
      -- `numSMS`, and `getSMS` for every message
      let loads := if n = 0 ∨ env.messagesAlloc = false then 1 else n + 1
      c.uses ++ List.replicate loads (.load c.response)
        ++ [.free c.response]

end ShZ001.Gsm
