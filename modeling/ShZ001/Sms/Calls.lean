/-
The functions of the modem API as callers of the whole system.

`Gsm/Sys.lean` has an API caller as a party that goes from one exchange to
the next; `Send.lean`, `Delete.lean`, `Inbox.lean` and `Gsm/Reply.lean` have
the functions themselves. Here a call of a function, with what it gets, is
put into the acts of such a party.

# What a call leaves behind

`ApiCall.trace` is what the system sees of a call: its exchanges, what each
of them returns, whether memory runs out behind them, and the timeout that
is written. It is read off the functions.

# Calls that go astray

Four of the five functions can write where they must not: a reply of 63
bytes has `gsm_RFOff` and `gsm_RFOn` call `realloc` on an array, a reply of
any length puts null pointers behind the variable at which it is collected,
`smsRead` strides out of its arrays, and a long number runs over the buffer
of `smsSend`. `ApiCall.Contained` excludes that. Of a call that is not
contained the model's functions would still say something, and it would
mean nothing: `ApiCall.Leaves` allows such a call any trace.
-/
import ShZ001.Lib.Party
import ShZ001.Gsm.Sys
import ShZ001.Gsm.Reply
import ShZ001.Sms.Delete
import ShZ001.Sms.Framing
import ShZ001.Sms.Inbox

namespace ShZ001.Sms

open Lib Machine Gsm

-- ================================================================= the calls

/-- A call, with what it gets; `inUse` are the words on the stack behind
the variable `pbuf`, at which a reply is collected, that are still in
use. -/
inductive ApiCall
  | rf (on : Bool) (env : RfEnv) (inUse : Nat → Bool)
  | send (smsnum msg : List UInt8) (env : SendEnv)
  | read (x : InboxEnv) (sort : Int)
  | delete (idx : Int) (env : SendEnv)

def ApiCall.api : ApiCall → AtApi
  | .rf on _ _ => .rf on
  | .send .. => .sms .send
  | .read .. => .sms .read
  | .delete .. => .sms .delete

/-- What the call samples. -/
def ApiCall.gsmStatus : ApiCall → GsmState
  | .rf _ env _ => env.gsmStatus
  | .send _ _ env => env.gsmStatus
  | .read x _ => x.send.gsmStatus
  | .delete _ env => env.gsmStatus

/-- `gsm_RFOn` or `gsm_RFOff`. -/
def gsmRf (on : Bool) : RfEnv → RfOut := if on then gsmRFOn else gsmRFOff

/-- The exchanges and what they have returned. For the query of `gsm_RFOff`
and `gsm_RFOn` this is whether the reply names the setting. -/
def ApiCall.exchanges : ApiCall → List (AtCmd × Nat)
  | .rf on env _ =>
      if (gsmRf on env).timeoutMs = none then [(.rfQuery on, 1)]
      else [(.rfQuery on, 0), (.rfSet on, (gsmRf on env).ret)]
  | .send smsnum msg env =>
      (smsSend smsnum msg env).exchanges.map fun e => (e.name, e.verdict)
  | .read x _ =>
      (smsReady x.send .read).2.map (fun e => (e.name, e.verdict))
        ++ if x.collects = true then [(.smsList, x.collected.ret)] else []
  | .delete idx env =>
      (smsDelete idx env).exchanges.map fun e => (e.name, e.verdict)

/-- A failed `malloc` ends the call (lines 898, 1019). -/
def ApiCall.oom : ApiCall → Bool
  | .rf .. => false
  | .send smsnum _ env =>
      (smsReady env .send).1 && decide ((prompt env smsnum).verdict = 1)
        && !env.msgbufAlloc
  | .read x _ => (smsReady x.send .read).1 && !x.rest.rbufferAlloc
  | .delete .. => false

/-- The timeout that it puts into `cmd_Reg`. -/
def ApiCall.timeoutMs : ApiCall → Option Nat
  | .rf on env _ => (gsmRf on env).timeoutMs
  | .send .. => none
  | .read .. => none
  | .delete .. => none

/-- The same as a write of the system. -/
def ApiCall.reg : ApiCall → Option RegWriter
  | .rf on env _ =>
      if (gsmRf on env).timeoutMs = none then none
      else some (if on then .rfOn else .rfOff)
  | .send .. => none
  | .read .. => none
  | .delete .. => none

/-- What the system sees of a call. -/
structure CallTrace where
  exchanges : List (AtCmd × Nat)
  oom : Bool
  timeoutMs : Option Nat

def ApiCall.trace (x : ApiCall) : CallTrace where
  exchanges := x.exchanges
  oom := x.oom
  timeoutMs := x.timeoutMs

-- ==================================================================== astray

/-- The call writes to nothing but what is its own: the reply to `AT+CFUN?`
stays in its array, no null pointer hits a word that is in use, a listing
is read by a contained `smsRead`, and a command line fits its buffer. -/
def ApiCall.Contained : ApiCall → Prop
  | .rf on env inUse =>
      OwnedUses (some .array) (gsmRf on env).uses ∧
        (env.gsmStatus = .idle →
          ∀ t ∈ (collect env.reply .array 63).stray, inUse t = false)
  | .send smsnum _ env =>
      (smsReady env .send).1 = true →
        ∀ mem, (promptBuf smsnum mem).InBounds
  | .read x sort => x.Contained sort
  | .delete idx env =>
      (smsReady env .delete).1 = true → ∀ mem, (deleteBuf idx mem).InBounds

/-- A call may leave this trace. -/
def ApiCall.Leaves (x : ApiCall) (tr : CallTrace) : Prop :=
  x.Contained → tr = x.trace

-- ================================================================= the party

/-- Where an exchange leads. -/
def landing (c : AtCmd) (v : Nat) : AtLoc :=
  match c.next v with
  | some c' => .ready c'
  | none => .outside

/-- What an input does to the place of a caller; a call may find the modem
busy. -/
def callStep : AtIn → AtLoc → AtLoc → Prop
  | .call api, l, l' => l = .outside ∧ (l' = .ready api.first ∨ l' = .outside)
  | .send, l, l' => ∃ c, l = .ready c ∧ l' = .inside c
  | .oom, l, l' => ∃ c, l = .ready c ∧ l' = .outside
  | .done v, l, l' => ∃ c, l = .inside c ∧ l' = landing c v

/-- The inputs of caller `n`. -/
def callInput (n : Nat) : Act → Option AtIn
  | .modem k i => if k = n then some i else none
  | _ => none

/-- The inputs of a caller that makes these exchanges. -/
def inputs (es : List (AtCmd × Nat)) (oom : Bool) : List AtIn :=
  es.flatMap (fun e => [.send, .done e.2]) ++ if oom then [.oom] else []

/-- All of a call with this trace. -/
def CallTrace.acts (tr : CallTrace) (api : AtApi) (n : Nat) : List Act :=
  (.call api :: inputs tr.exchanges tr.oom).map (.modem n)

/-- What a write of the timeout leaves behind. -/
def regAfter (reg : Option RegWriter) (s : Sys) : Sys :=
  { s with
    cmds := regWrite reg s.cmds
    log := match reg with
      | some w => .regTimeout w :: s.log
      | none => s.log }

end ShZ001.Sms
