/-
The PPPoS client as one interleaved system (libGSM.c): the client task,
the TCP/IP thread that runs its two PPP callbacks, and the threads that
call the API. Every party is a location plus a step function; one action
of the machine is one step of one party.

# Granularity

A step is one critical section (or one unlocked access to a shared
variable), or one call into lwIP, or one end of an AT exchange, together
with the local computation up to the next such point. The critical
sections of the source each sit between one `xSemaphoreTake` and one
`xSemaphoreGive`, so taking them as one step is the interleaving the
mutex produces; the few unlocked accesses (lines 626, 686) are single
byte reads and writes and are steps of their own.

# What the environment chooses

Results of calls the source does not contain are inputs of the step:
whether a set-up call fails, what `atCmd_waitResponse` answers (its own
model is `At.lean`), how many bytes the UART delivers, when and with
which code lwIP calls back. Delays are not modelled: a party may always
be slower than any other.

# Parties

There is one thread that calls `ppposInit`, one that calls
`ppposDisconnect` (a single caller doing both in turn is the special
case in which they never overlap), and any number of threads that use
the modem through `gsm_RFOff`, `gsm_RFOn` and the SMS functions. With
one `ppposInit` at a time there is at most one client task, so the task
is one location, `dead` between its lives.

# The log

`log` records, newest first, the calls and returns that the properties
are about: lwIP calls with the control block they were given, callbacks,
initialisation commands with their outcome, API entries and returns. No
step reads it.
-/
import Mathlib.Logic.Function.Basic
import ShZ001.Lib.Machine
import ShZ001.Gsm.Cmd

namespace ShZ001.Gsm

-- ============================================================ vocabulary

/-- `gsm_status` (libGSM.h 11–14). -/
inductive GsmState
  | disconnected
  | connected
  | idle
  | firstInit
  deriving DecidableEq, Repr

/-- The `PPPERR_*` codes `ppp_status_cb` distinguishes; `unknown` is its
`default` case. -/
inductive PppErr
  | errNone
  | errParam
  | errOpen
  | errDevice
  | errAlloc
  | errUser
  | errConnect
  | errAuthfail
  | errProtocol
  | errPeerdead
  | errIdletimeout
  | errConnecttime
  | errLoopback
  | unknown (code : Int)
  deriving DecidableEq, Repr

/-- lwIP calls that take the control block. -/
inductive PcbCall
  | setDefault
  | setAuth
  | connect
  | close
  | input (len : Nat)
  | free
  deriving DecidableEq, Repr

/-- The functions that assign `cmd_Reg.timeoutMs`. -/
inductive RegWriter
  | disconnect
  | rfOff
  | rfOn
  deriving DecidableEq, Repr

/-- The values they assign (lines 431 and 466, 839, 863). -/
def RegWriter.timeoutMs : RegWriter → Nat
  | .disconnect => 10000
  | .rfOff => 500
  | .rfOn => 0

/-- Entries of the log. -/
inductive Ev
  | taskStart
  | taskEnd
  | create (block : Option Nat)
  | pcb (call : PcbCall) (block : Option Nat)
  | cb (err : PppErr)
  | tx (k : Nat)
  | ack (k : Nat)
  | nack (k : Nat)
  | regTimeout (w : RegWriter)
  | uartRead (len : Nat)
  | uartWrite (ret : UInt32)
  | counts (rx tx : UInt32) (rst : Bool)
  | resetCounts
  | initStart
  | initRet (res : Nat)
  | discStart
  | discRet
  deriving DecidableEq, Repr

-- ============================================================= locations

/-- The exchanges of `_disconnect`: `AT`, `ATH` with its retry counter,
`AT+CFUN=4`. -/
inductive OffCmd
  | probe
  | ath (n : Nat)
  | cfun
  deriving DecidableEq, Repr

/-- Where `_disconnect` returns to: the start-up call (line 527) or the
one that serves a disconnect request (line 645). -/
inductive OffRet
  | boot
  | served (endTask : Int)
  deriving DecidableEq, Repr

/-- The client task's location. A `Option Int` argument tells the two
receive loops apart: `none` is the data loop, `some endTask` the loop
that drains the link after a disconnect request. -/
inductive Loc
  | dead
  | start
  | setup (k : Nat)
  | off (ret : OffRet) (rfOff : Bool) (c : OffCmd) (inside : Bool)
  | reset
  | cmd (gsmCmdIter nfail : Nat)
  | cmdWait (gsmCmdIter nfail : Nat)
  | statusTest
  | create
  | setDefault
  | setAuth
  | markIdle
  | connect
  | loopHead
  | read (draining : Option Int)
  | input (draining : Option Int) (len : Nat)
  | count (draining : Option Int) (len : Nat)
  | close (endTask : Int)
  | drain (endTask : Int)
  | readRfOff (endTask : Int)
  | park (endTask : Int)
  | parked
  | redialClose
  | redial
  | exit
  | exitFlag
  deriving DecidableEq, Repr

/-- `ppposInit`: outside, about to create the task, in the loop that
waits for `pppos_task_started` (`made`: `xTaskCreate` succeeded), in the
loop that waits for the connection. -/
inductive InitLoc
  | outside
  | create
  | startWait (made : Bool)
  | upWait
  deriving DecidableEq, Repr

/-- `ppposDisconnect`: outside, past its status sample, in its first and
second polling loop. -/
inductive DiscLoc
  | outside
  | delay (endTask rfoff : Bool)
  | loop1
  | loop2
  deriving DecidableEq, Repr

/-- The SMS functions. -/
inductive SmsOp
  | send
  | read
  | delete
  deriving DecidableEq, Repr

/-- The API functions that use the modem: `gsm_RFOff`/`gsm_RFOn` and the
SMS functions. -/
inductive AtApi
  | rf (on : Bool)
  | sms (op : SmsOp)
  deriving DecidableEq, Repr

/-- Their AT exchanges, named by the command sent. -/
inductive AtCmd
  | rfQuery (on : Bool)
  | rfSet (on : Bool)
  | smsRf (op : SmsOp)
  | smsFormat (op : SmsOp)
  | smsPrompt
  | smsText
  | smsEscape
  | smsList
  | smsDelete
  deriving DecidableEq, Repr

/-- An API caller: outside, about to start an exchange, inside one. -/
inductive AtLoc
  | outside
  | ready (c : AtCmd)
  | inside (c : AtCmd)
  deriving DecidableEq, Repr

/-- The whole system: libGSM.c's globals (lines 42–62), the locations of
all parties, and the log. `ppp` is the global pointer, `none` for `NULL`;
blocks are named by the number of the `pppapi_pppos_create` call that
returned them, so an address reused after a free is a new name.
`tcpip` holds what `ppp_output_callback` has written but not counted. -/
structure Sys where
  gsmStatus : GsmState
  doPpposConnect : Int
  ppposRxCount : UInt32
  ppposTxCount : UInt32
  ppposTaskStarted : Bool
  gsmRfOff : Bool
  ppposMutex : Bool
  tcpipAdapterInitialized : Bool
  ppp : Option Nat
  nextBlock : Nat
  cmds : List GsmCmd
  task : Loc
  tcpip : Option UInt32
  initCall : InitLoc
  discCall : DiscLoc
  atCall : Nat → AtLoc
  log : List Ev

/-- The state at boot. -/
def Sys.boot : Sys where
  gsmStatus := .firstInit
  doPpposConnect := 1
  ppposRxCount := 0
  ppposTxCount := 0
  ppposTaskStarted := false
  gsmRfOff := false
  ppposMutex := false
  tcpipAdapterInitialized := false
  ppp := none
  nextBlock := 0
  cmds := gsmInit
  task := .dead
  tcpip := none
  initCall := .outside
  discCall := .outside
  atCall := fun _ => .outside
  log := []

-- ========================================================= the callbacks

/-- `ppp_status_cb` (lines 186–296), as its effect on `gsm_status`: only
three of the cases assign it. -/
def pppStatusCb (err : PppErr) (status : GsmState) : GsmState :=
  match err with
  | .errNone => .connected
  | .errParam => status
  | .errOpen => status
  | .errDevice => status
  | .errAlloc => status
  | .errUser => .disconnected
  | .errConnect => .disconnected
  | .errAuthfail => status
  | .errProtocol => status
  | .errPeerdead => status
  | .errIdletimeout => status
  | .errConnecttime => status
  | .errLoopback => status
  | .unknown _ => status

/-- The TCP/IP thread runs `ppp_status_cb`. -/
def cbStep (err : PppErr) (s : Sys) : Option Sys :=
  if s.tcpip = none then
    some { s with
      gsmStatus := pppStatusCb err s.gsmStatus
      log := .cb err :: s.log }
  else none

/-- `ppp_output_callback` (lines 300–310), first half: the UART takes `ret`
bytes. `ret` is `uart_write_bytes`' result in the callback's `uint32_t`, so
that its -1, of a write that is refused, is 4294967295 here. -/
def outStep (ret : UInt32) (s : Sys) : Option Sys :=
  if s.tcpip = none then
    some { s with tcpip := some ret, log := .uartWrite ret :: s.log }
  else none

/-- `ppp_output_callback`, second half: the bytes written are added to
`pppos_rx_count`. -/
def outCountStep (s : Sys) : Option Sys :=
  match s.tcpip with
  | some ret =>
      some { s with
        ppposRxCount :=
          if 0 < ret then s.ppposRxCount + ret else s.ppposRxCount
        tcpip := none }
  | none => none

-- ======================================================= the client task

/-- What the environment contributes to a task step: nothing, a failed
call, the verdict of an AT exchange, the length of a UART read. -/
inductive TaskIn
  | go
  | fail
  | verdict (v : Nat)
  | read (len : Nat)
  deriving DecidableEq, Repr

/-- The fallible set-up calls of lines 494–520: `malloc`, three GPIO
calls, three UART calls. -/
def setupCalls : Nat := 7

def OffRet.loc : OffRet → Loc
  | .boot => .reset
  | .served endTask => .park endTask

/-- The head of the receive loop a read belongs to. -/
def recvHead : Option Int → Loc
  | none => .loopHead
  | some endTask => .drain endTask

/-- `_disconnect` once the modem is off-line (lines 430–434, 465–468):
with `rfOff` the radio is switched off and the registration timeout
raised. -/
def offTail (ret : OffRet) (rfOff : Bool) (s : Sys) : Sys :=
  if rfOff then
    { s with
      cmds := setRegTimeout RegWriter.disconnect.timeoutMs s.cmds
      task := .off ret rfOff .cfun false
      log := .regTimeout .disconnect :: s.log }
  else { s with task := ret.loc }

/-- One step of `pppos_client_task` (lines 487–717), `_disconnect`
(lines 426–472) included. -/
def taskStep (i : TaskIn) (s : Sys) : Option Sys :=
  match s.task, i with
  -- 489–491
  | .start, .go =>
      some { s with
        ppposTaskStarted := true
        task := .setup 0
        log := .taskStart :: s.log }
  -- 494–520: any failing call goes to `exit`
  | .setup _, .fail => some { s with task := .exit }
  | .setup k, .go =>
      if k + 1 < setupCalls then some { s with task := .setup (k + 1) }
      else
        some { s with
          cmds := setApn s.cmds
          task := .off .boot true .probe false }
  -- 426–472: `_disconnect`
  | .off ret rfOff c false, .go =>
      some { s with task := .off ret rfOff c true }
  | .off ret rfOff .probe true, .verdict v =>
      if v = 1 then some (offTail ret rfOff s)
      else some { s with task := .off ret rfOff (.ath 0) false }
  | .off ret rfOff (.ath n) true, .verdict v =>
      if v = 0 then
        some { s with
          task := .off ret rfOff (.ath (if n + 1 > 10 then 0 else n + 1))
            false }
      else some (offTail ret rfOff s)
  | .off ret _ .cfun true, .verdict _ => some { s with task := ret.loc }
  -- 529–535
  | .reset, .go =>
      some { s with
        ppposTxCount := 0
        ppposRxCount := 0
        gsmStatus := .firstInit
        cmds := enableAllInitCmd s.cmds
        task := .cmd 0 0
        log := .resetCounts :: s.log }
  -- 547–579: the initialisation loop
  | .cmd iter nfail, .go =>
      if iter < gsmInitCmdsSize then
        if (skips s.cmds).getD iter false then
          some { s with task := .cmd (iter + 1) nfail }
        else
          some { s with
            task := .cmdWait iter nfail
            log := .tx iter :: s.log }
      else some { s with task := .statusTest }
  | .cmdWait iter nfail, .verdict v =>
      if v = 0 then
        some { s with
          task := if nfail + 1 > 20 then .exit else .cmd 0 (nfail + 1)
          log := .nack iter :: s.log }
      else
        some { s with
          cmds := skipCmd iter s.cmds
          task := .cmd (iter + 1) nfail
          log := .ack iter :: s.log }
  -- 585–600
  | .statusTest, .go =>
      some { s with
        task := if s.gsmStatus = .firstInit then .create else .setDefault }
  | .create, .go =>
      some { s with
        ppp := some s.nextBlock
        nextBlock := s.nextBlock + 1
        task := .setDefault
        log := .create (some s.nextBlock) :: s.log }
  | .create, .fail =>
      some { s with
        ppp := none
        task := .exit
        log := .create none :: s.log }
  -- 602–609
  | .setDefault, .go =>
      some { s with
        task := .setAuth
        log := .pcb .setDefault s.ppp :: s.log }
  | .setAuth, .go =>
      some { s with
        task := .markIdle
        log := .pcb .setAuth s.ppp :: s.log }
  | .markIdle, .go =>
      some { s with gsmStatus := .idle, task := .connect }
  | .connect, .go =>
      some { s with
        task := .loopHead
        log := .pcb .connect s.ppp :: s.log }
  -- 612–618, 676–677, 690: one critical section, three ways out
  | .loopHead, .go =>
      if s.doPpposConnect ≤ 0 then
        some { s with
          doPpposConnect := 1
          task := .close s.doPpposConnect }
      else if s.gsmStatus = .disconnected then
        some { s with task := .redialClose }
      else some { s with task := .read none }
  -- 628–635, 693–700: one receive turn
  | .read d, .read len =>
      if 0 < len then
        some { s with
          task := .input d len
          log := .uartRead len :: s.log }
      else some { s with task := recvHead d }
  | .input d len, .go =>
      some { s with
        task := .count d len
        log := .pcb (.input len) s.ppp :: s.log }
  | .count d len, .go =>
      some { s with
        ppposTxCount := s.ppposTxCount + UInt32.ofNat len
        task := recvHead d }
  -- 624–640; the re-read of the status into `gstat` (636–638) is dead
  | .close endTask, .go =>
      some { s with
        task := .drain endTask
        log := .pcb .close s.ppp :: s.log }
  | .drain endTask, .go =>
      some { s with
        task := if s.gsmStatus = .disconnected then .readRfOff endTask
          else .read (some endTask) }
  -- 642–645
  | .readRfOff endTask, .go =>
      some { s with task := .off (.served endTask) s.gsmRfOff .probe false }
  -- 651–658
  | .park endTask, .go =>
      some { s with
        cmds := enableAllInitCmd s.cmds
        gsmStatus := .idle
        doPpposConnect := 0
        task := if endTask < 0 then .exit else .parked }
  -- 661–672: any non-zero value counts as a reconnect request
  | .parked, .go =>
      some { s with
        task := if s.doPpposConnect = 0 then .parked else .cmd 0 0 }
  -- 682–688
  | .redialClose, .go =>
      some { s with
        task := .redial
        log := .pcb .close s.ppp :: s.log }
  | .redial, .go =>
      some { s with
        cmds := enableAllInitCmd s.cmds
        gsmStatus := .idle
        task := .cmd 0 0 }
  -- 706–707: `if (ppp) ppp_free(ppp)`
  | .exit, .go =>
      some { s with
        task := .exitFlag
        log := if s.ppp.isSome then .pcb .free s.ppp :: s.log else s.log }
  -- 709–716
  | .exitFlag, .go =>
      some { s with
        ppposTaskStarted := false
        gsmStatus := .firstInit
        task := .dead
        log := .taskEnd :: s.log }
  | _, _ => none

-- ============================================================ ppposInit

/-- Inputs of `ppposInit`'s steps: the call, a failed mutex creation,
the task creation with `xTaskCreate`'s result, a poll. -/
inductive InitIn
  | call
  | noMutex
  | make (made : Bool)
  | poll
  deriving DecidableEq, Repr

/-- One step of `ppposInit` (lines 720–755). The result of `xTaskCreate`
is not looked at: without a task the first loop is entered all the
same. -/
def initStep (i : InitIn) (s : Sys) : Option Sys :=
  match s.initCall, i with
  -- 722–728
  | .outside, .call =>
      some { s with
        doPpposConnect := 1
        initCall := if s.ppposTaskStarted then .upWait else .create
        log := .initStart :: s.log }
  -- 729–730
  | .create, .noMutex =>
      if s.ppposMutex then none
      else
        some { s with
          initCall := .outside
          log := .initRet 0 :: s.log }
  -- 729–736
  | .create, .make made =>
      some { s with
        ppposMutex := true
        tcpipAdapterInitialized := true
        task := if made then .start else s.task
        initCall := .startWait made }
  -- 737–742
  | .startWait made, .poll =>
      some { s with
        initCall := if s.ppposTaskStarted then .upWait else .startWait made }
  -- 745–754
  | .upWait, .poll =>
      if s.ppposTaskStarted = false then
        some { s with
          initCall := .outside
          log := .initRet 0 :: s.log }
      else if s.gsmStatus = .connected then
        some { s with
          initCall := .outside
          log := .initRet 1 :: s.log }
      else some s
  | _, _ => none

-- ======================================================= ppposDisconnect

/-- Inputs of `ppposDisconnect`'s steps. -/
inductive DiscIn
  | call (endTask rfoff : Bool)
  | write
  | poll
  deriving DecidableEq, Repr

/-- One step of `ppposDisconnect` (lines 758–787). Before the first
`ppposInit` there is no mutex and the call does not get past its first
`xSemaphoreTake`. -/
def discStep (i : DiscIn) (s : Sys) : Option Sys :=
  match s.discCall, i with
  -- 760–764
  | .outside, .call endTask rfoff =>
      if s.ppposMutex then
        if s.gsmStatus = .idle then
          some { s with log := .discRet :: .discStart :: s.log }
        else
          some { s with
            discCall := .delay endTask rfoff
            log := .discStart :: s.log }
      else none
  -- 768–773
  | .delay endTask rfoff, .write =>
      some { s with
        doPpposConnect := if endTask then -1 else 0
        gsmRfOff := rfoff
        discCall := .loop1 }
  -- 775–780
  | .loop1, .poll =>
      some { s with
        discCall := if s.doPpposConnect = 0 then .loop1 else .loop2 }
  -- 781–786
  | .loop2, .poll =>
      if s.doPpposConnect = 0 then
        some { s with
          discCall := .outside
          log := .discRet :: s.log }
      else some s
  | _, _ => none

-- ================================================== the modem API calls

/-- Inputs of an API caller's steps: the call, the start of an exchange,
a failed `malloc` before it, the end of an exchange. -/
inductive AtIn
  | call (api : AtApi)
  | send
  | oom
  | done (v : Nat)
  deriving DecidableEq, Repr

/-- The first exchange of each function. -/
def AtApi.first : AtApi → AtCmd
  | .rf on => .rfQuery on
  | .sms op => .smsRf op

/-- What follows an exchange with verdict `v`; `none` is the function's
return. For `rfQuery` a non-zero verdict is a reply that already names
the wanted radio state. -/
def AtCmd.next (c : AtCmd) (v : Nat) : Option AtCmd :=
  match c with
  -- 834–842, 858–866
  | .rfQuery on => if v = 0 then some (.rfSet on) else none
  | .rfSet _ => none
  -- 874–879: `sms_ready`
  | .smsRf op => if v = 1 then some (.smsFormat op) else none
  | .smsFormat op =>
      if v = 1 then
        match op with
        | .send => some .smsPrompt
        | .read => some .smsList
        | .delete => some .smsDelete
      else none
  -- 891–908
  | .smsPrompt => if v = 1 then some .smsText else some .smsEscape
  | .smsText => if v = 1 then none else some .smsEscape
  | .smsEscape => none
  | .smsList => none
  | .smsDelete => none

/-- The registration timeout an exchange's continuation writes. -/
def AtCmd.regWriter (c : AtCmd) (v : Nat) : Option RegWriter :=
  match c with
  | .rfQuery on => if v = 0 then some (if on then .rfOn else .rfOff) else none
  | _ => none

/-- Does a failed `malloc` (lines 898, 1019) return before this
exchange? -/
def AtCmd.allocates : AtCmd → Bool
  | .smsText => true
  | .smsList => true
  | _ => false

/-- The command records after an exchange of an API caller. -/
def regWrite (w : Option RegWriter) (cmds : List GsmCmd) : List GsmCmd :=
  match w with
  | some w => setRegTimeout w.timeoutMs cmds
  | none => cmds

/-- One step of API caller `n` (lines 822–909, 1010–1026, 1100–1108). -/
def atStep (n : Nat) (i : AtIn) (s : Sys) : Option Sys :=
  match s.atCall n, i with
  | .outside, .call api =>
      if s.ppposMutex then
        if s.gsmStatus = .idle then
          some { s with
            atCall := Function.update s.atCall n (.ready api.first) }
        else some s
      else none
  | .ready c, .send =>
      some { s with atCall := Function.update s.atCall n (.inside c) }
  | .ready c, .oom =>
      if c.allocates then
        some { s with atCall := Function.update s.atCall n .outside }
      else none
  | .inside c, .done v =>
      some { s with
        cmds := regWrite (c.regWriter v) s.cmds
        atCall := Function.update s.atCall n
          (match c.next v with
          | some c' => .ready c'
          | none => .outside)
        log := match c.regWriter v with
          | some w => .regTimeout w :: s.log
          | none => s.log }
  | _, _ => none

-- ========================================================= the counters

/-- `getRxTxCount` (lines 800–810). -/
def getRxTxCount (rst : Bool) (s : Sys) : Option Sys :=
  if s.ppposMutex then
    some { s with
      ppposRxCount := if rst then 0 else s.ppposRxCount
      ppposTxCount := if rst then 0 else s.ppposTxCount
      log := .counts s.ppposRxCount s.ppposTxCount rst :: s.log }
  else none

/-- `resetRxTxCount` (lines 813–819). -/
def resetRxTxCount (s : Sys) : Option Sys :=
  if s.ppposMutex then
    some { s with
      ppposRxCount := 0
      ppposTxCount := 0
      log := .resetCounts :: s.log }
  else none

-- ========================================================== the machine

/-- One step of one party. -/
inductive Act
  | task (i : TaskIn)
  | cb (err : PppErr)
  | out (ret : UInt32)
  | outCount
  | init (i : InitIn)
  | disc (i : DiscIn)
  | modem (n : Nat) (i : AtIn)
  | getCounts (rst : Bool)
  | resetCounts
  deriving DecidableEq, Repr

/-- The system's step function. -/
def apply : Act → Sys → Option Sys
  | .task i, s => taskStep i s
  | .cb err, s => cbStep err s
  | .out ret, s => outStep ret s
  | .outCount, s => outCountStep s
  | .init i, s => initStep i s
  | .disc i, s => discStep i s
  | .modem n i, s => atStep n i s
  | .getCounts rst, s => getRxTxCount rst s
  | .resetCounts, s => resetRxTxCount s

/-- The system as a machine. -/
def client : Lib.Machine Sys Act where
  init := Sys.boot
  apply := apply

end ShZ001.Gsm
