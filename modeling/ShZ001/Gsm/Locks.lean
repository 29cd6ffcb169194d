/-
The functions that take `pppos_mutex`, as far as locking goes (libGSM.c
186–310, 327–472, 487–867), once the mutex exists.

# The bodies

Each body is a statement of `Lib/Lock.lean`: the takes, gives and
blocking calls of the source in its order, with its loops, `break`s,
`return`s and `goto`s. Branches go either way, so that the paths of a
body include all that the source can take; what neither locks, blocks
nor jumps is `work`. `goto exit` leaves the scope that ends before the
label. The debug output is left out; it takes no lock.

# Blocking

A call blocks if the thread may have to wait for another one in it, or
for time to pass. The `pppapi` functions hand their work to the TCP/IP
thread and wait for its answer, so that a thread that calls one with the
mutex held would keep the callbacks, which run in that thread and take
the mutex, waiting for it. The rest comes back by itself.

# The threads

`parties` runs any number of client tasks and of API callers beside the
one TCP/IP thread. `lock_discipline` gives, of every path of every
function, that takes and gives alternate, that no call blocks while the
mutex is held and that none returns with it, and of all interleavings
that no threads wait for each other in a ring.
-/
import ShZ001.Lib.LockSystem

namespace ShZ001.Gsm.Paths

open Lib Lib.Lock Stmt

/-- The calls that may block. -/
inductive Blocking
  | pppapiPpposCreate
  | pppapiSetDefault
  | pppapiSetAuth
  | pppapiConnect
  | pppapiClose
  | uartParamConfig
  | uartSetPin
  | uartDriverInstall
  | uartFlush
  | uartReadBytes
  | uartWriteBytes
  | uartWaitTxDone
  | vTaskDelay
  deriving DecidableEq, Repr

/-- The `pppapi` calls wait for the TCP/IP thread; the others end by
themselves. -/
def Blocking.waits : Blocking → Bool
  | pppapiPpposCreate => true
  | pppapiSetDefault => true
  | pppapiSetAuth => true
  | pppapiConnect => true
  | pppapiClose => true
  | _ => false

abbrev Code := Stmt Blocking

-- ============================================================ AT exchanges

/-- `atCmd_waitResponse`: the command is sent, then the reply is copied
(lines 346–364) or waited for (366–420). -/
def atCmdWaitResponse (response : Bool) : Code :=
  scope (block
    [call .vTaskDelay,
      call .uartFlush,
      when (block [call .uartWriteBytes, call .uartWaitTxDone]),
      if response then
        block
          [call .uartReadBytes,
            whileDo (block
              [when (block [work, when exit]),
                work,
                call .uartReadBytes]),
            exit]
      else
        loop (block
          [call .uartReadBytes,
            alt work (when brk),
            when brk])])

/-- Asking the modem to hang up (lines 440–444 and 455–459). -/
def escape : Code :=
  block
    [call .vTaskDelay,
      call .uartFlush,
      call .uartWriteBytes,
      call .uartWaitTxDone,
      call .vTaskDelay]

/-- `_disconnect`. -/
def disconnect : Code :=
  scope (block
    [atCmdWaitResponse false,
      when (block [when (atCmdWaitResponse false), exit]),
      escape,
      atCmdWaitResponse false,
      whileDo (block
        [when escape,
          call .vTaskDelay,
          atCmdWaitResponse false]),
      call .vTaskDelay,
      when (atCmdWaitResponse false)])

-- ======================================================== pppos_client_task

/-- Lines 494–520. -/
def setUp : Code :=
  block
    [when exit,
      when exit,
      when exit,
      when exit,
      call .uartParamConfig,
      when exit,
      call .uartSetPin,
      when exit,
      call .uartDriverInstall,
      when exit]

/-- Data from the modem, in either receive loop. -/
def receive : Code :=
  block [call .uartReadBytes, when (block [work, critical])]

/-- The initialisation loop (lines 547–579). -/
def initLoop : Code :=
  whileDo (alt work
    (block
      [atCmdWaitResponse false,
        alt (block [when exit, call .vTaskDelay])
          (block [when (call .vTaskDelay), work])]))

/-- A disconnect request (lines 615–673), the mutex being taken. -/
def serveRequest : Code :=
  block
    [work,
      give,
      call .pppapiClose,
      whileDo (block [receive, critical]),
      call .vTaskDelay,
      critical,
      disconnect,
      work,
      critical,
      when exit,
      whileDo (block [call .vTaskDelay, critical]),
      brk]

/-- The loop that handles the modem (lines 612–702). -/
def modemLoop : Code :=
  loop (block
    [take,
      when serveRequest,
      alt
        (block [give, call .pppapiClose, work, call .vTaskDelay, brk])
        give,
      receive])

/-- `pppos_client_task`. -/
def ppposClientTask : Code :=
  block
    [scope (block
      [critical,
        setUp,
        work,
        disconnect,
        critical,
        work,
        loop (block
          [call .vTaskDelay,
            initLoop,
            take,
            alt
              (block [give, call .pppapiPpposCreate, when brk])
              give,
            call .pppapiSetDefault,
            call .pppapiSetAuth,
            critical,
            call .pppapiConnect,
            modemLoop])]),
      work,
      critical]

-- ============================================================ the callbacks

/-- `ppp_status_cb`: three of its cases take the mutex. -/
def pppStatusCb : Code :=
  block [work, alt critical (alt critical (alt critical work))]

/-- `ppp_output_callback`. -/
def pppOutputCallback : Code :=
  block [call .uartWriteBytes, call .uartWaitTxDone, when critical]

-- =================================================================== the API

/-- Lines 728–754, behind the first section. -/
def ppposInitFrom (first : Code) : Code :=
  scope (block
    [first,
      when (block
        [work,
          when exit,
          work,
          whileDo (block [call .vTaskDelay, critical])]),
      whileDo (block [call .vTaskDelay, critical, when exit]),
      exit])

/-- `ppposInit`. -/
def ppposInit : Code := ppposInitFrom critical

/-- The call of `ppposInit` that creates the mutex: there was none to take
at first. -/
def ppposInitFirst : Code := ppposInitFrom work

/-- `ppposDisconnect`. -/
def ppposDisconnect : Code :=
  scope (block
    [critical,
      when exit,
      call .vTaskDelay,
      block [take, alt work work, work, give],
      whileDo (block [critical, call .vTaskDelay]),
      whileDo (block [call .vTaskDelay, critical])])

/-- `ppposStatus`. -/
def ppposStatus : Code := critical

/-- `getRxTxCount`. -/
def getRxTxCount : Code := block [take, work, when work, give]

/-- `resetRxTxCount`. -/
def resetRxTxCount : Code := critical

/-- Lines 824–842 and 848–866, which differ in texts and numbers only. -/
def gsmRF : Code :=
  scope (block
    [critical,
      when exit,
      atCmdWaitResponse true,
      when work,
      when (block [work, atCmdWaitResponse false, exit]),
      exit])

/-- `gsm_RFOff`. -/
def gsmRFOff : Code := gsmRF

/-- `gsm_RFOn`. -/
def gsmRFOn : Code := gsmRF

-- =============================================================== the threads

/-- The client tasks, the TCP/IP thread, and the threads that call the
API. -/
inductive Party
  | client (n : Nat)
  | tcpip
  | api (n : Nat)
  deriving DecidableEq, Repr

/-- What they run. The TCP/IP thread answers the `pppapi` calls and runs
the callbacks, as it likes. -/
def parties : LockSystem Party Blocking where
  server := .tcpip
  code
    | .client _ => [ppposClientTask]
    | .tcpip => [pppStatusCb, pppOutputCallback]
    | .api _ =>
        [ppposInit, ppposInitFirst, ppposDisconnect, ppposStatus,
          getRxTxCount, resetRxTxCount, gsmRFOff, gsmRFOn]
  waits := Blocking.waits

/-- The check of each body is a computation (`Lib/Lock.lean`). -/
theorem parties_safe : parties.Safe := by
  refine ⟨fun p => ?_, ?_⟩
  · cases p with
    | client _ =>
        show ∀ s ∈ [ppposClientTask], Sound s
        decide
    | tcpip =>
        show ∀ s ∈ [pppStatusCb, pppOutputCallback], Sound s
        decide
    | api _ =>
        show ∀ s ∈ [ppposInit, ppposInitFirst, ppposDisconnect, ppposStatus,
          getRxTxCount, resetRxTxCount, gsmRFOff, gsmRFOn], Sound s
        decide
  · show ∀ s ∈ [pppStatusCb, pppOutputCallback],
      s.callsOnly (fun b => !b.waits) = true
    decide

example : ¬ Sound (block [take, call Blocking.vTaskDelay, give]) := by
  decide

/-- Every path keeps the discipline; whoever holds the mutex can release it
by its own steps; and no waits form a cycle.

The first part is one about the code of each function, whatever the others
do. The second and third are about all interleavings: a holder needs nobody
to get to its give, and so a chain of waiting threads ends with one that
does not wait. -/
theorem lock_discipline :
    (∀ p, ∀ f ∈ parties.code p, ∀ tr k,
      Path [.stmt f] tr k → Disciplined tr k) ∧
    (∀ s, parties.machine.Reach Machine.anyStep s → ∀ p,
      s.owner = some p → Releases parties p s) ∧
    ∀ s, parties.machine.Reach Machine.anyStep s → ∀ p,
      ¬ Relation.TransGen (WaitsFor parties s) p p := by
  refine ⟨fun p f hf tr k hpath => ?_, fun s hs p hown => ?_, fun s hs p => ?_⟩
  · exact (parties_safe.sound p f hf).disciplined hpath
  · exact releases_of_reach parties_safe hs hown
  · exact waitsFor_acyclic parties_safe hs p

/-- `ppposStatus` up to its take. -/
theorem lock_discipline_status :
    (∃ tr k, Path [.stmt ppposStatus] tr k ∧ tr.length = 1 ∧
      Disciplined tr k) ∧
    ∃ s, parties.machine.Reach Machine.anyStep s ∧
      s.owner = some (.api 0) ∧ Releases parties (.api 0) s ∧
      ¬ Relation.TransGen (WaitsFor parties s) (.api 0) (.api 0) := by
  obtain ⟨hpaths, hholder, hwaits⟩ := lock_discipline
  constructor
  · have h := Path.nil [Item.stmt ppposStatus]
    have h := Path.snoc true none h rfl
    have h := Path.snoc true (some .take) h rfl
    exact ⟨_, _, h, rfl, hpaths (.api 0) ppposStatus (by simp [parties]) _ _ h⟩
  · obtain ⟨s, hr, hs⟩ := Machine.exists_reach parties.machine
      Machine.anyStep
      [.start (.api 0) 3, .step (.api 0) true, .step (.api 0) true]
      (fun s => s.owner = some (.api 0)) (by decide)
    have hown := of_decide_eq_true hs
    exact ⟨s, hr, hown, hholder s hr _ hown, hwaits s hr _⟩

end ShZ001.Gsm.Paths
