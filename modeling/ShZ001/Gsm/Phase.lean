/-
The client task's life cycle, abstracted from its locations: eleven
phases and the fourteen ways a step can move between them.

# Why a second machine

The handshakes between the task and its callers (`gsm_status`,
`do_pppos_connect`, `pppos_task_started`) never look at where in the
initialisation table or in which receive turn the task is; they depend
on which part of its life the task is in. `Loc.phase` forgets the rest,
and `taskStep_effect` says once, for every step of the task, how the
phase and the three shared variables can change together. The invariants
about the handshakes are proved against `TaskEffect`; when a step of the
task's code changes without leaving its phase, only that inversion
moves.

# Standing towards a request

A disconnect request is taken at the head of the data loop only (line
615). `Stand` is the phase seen from there: the task has the head still
ahead of it, it has taken a request that it has not answered, or it
rests until it is asked to reconnect.

# The frame

`taskStep_frame` is the other half: what no step of the task touches,
among it the locations of the callers, and what it adds to the log. Of
the entries that the properties of the link look at, the task writes
one, its `pppapi_connect`.
-/
import ShZ001.Gsm.Sys

namespace ShZ001.Gsm

-- ============================================================= the phases

/-- The parts of a client task's life. `draining` is the wait for the
session to end after a disconnect request with the given `end_task`,
`closed` what follows until the task parks or exits. -/
inductive Phase
  | dead
  | starting
  | booting
  | initialising
  | dialling
  | online
  | redialling
  | draining (endTask : Int)
  | closed (endTask : Int)
  | parked
  | exiting
  deriving DecidableEq, Repr

/-- The receive loop a location belongs to. -/
def recvPhase : Option Int → Phase
  | none => .online
  | some endTask => .draining endTask

/-- `_disconnect` runs while booting and while closing. -/
def OffRet.phase : OffRet → Phase
  | .boot => .booting
  | .served endTask => .closed endTask

def Loc.phase : Loc → Phase
  | .dead => .dead
  | .start => .starting
  | .setup _ => .booting
  | .off ret _ _ _ => ret.phase
  | .reset => .booting
  | .cmd _ _ => .initialising
  | .cmdWait _ _ => .initialising
  | .statusTest => .initialising
  | .create => .initialising
  | .setDefault => .initialising
  | .setAuth => .initialising
  | .markIdle => .initialising
  | .connect => .dialling
  | .loopHead => .online
  | .read d => recvPhase d
  | .input d _ => recvPhase d
  | .count d _ => recvPhase d
  | .close endTask => .draining endTask
  | .drain endTask => .draining endTask
  | .readRfOff endTask => .closed endTask
  | .park endTask => .closed endTask
  | .parked => .parked
  | .redialClose => .redialling
  | .redial => .redialling
  | .exit => .exiting
  | .exitFlag => .exiting

/-- The three receive loops share their code; what tells them apart is
whether, and with which `end_task`, a request is being served. -/
@[simp] theorem phase_recvHead (d : Option Int) :
    (recvHead d).phase = recvPhase d := by
  cases d <;> rfl

@[simp] theorem phase_offRet_loc (ret : OffRet) :
    ret.loc.phase = ret.phase := by
  cases ret <;> rfl

/-- Four phases have a single location, the exit label has two. -/
private theorem sole_loc (l : Loc) :
    match l.phase with
    | .dead => l = .dead
    | .starting => l = .start
    | .dialling => l = .connect
    | .parked => l = .parked
    | .exiting => l = .exit ∨ l = .exitFlag
    | _ => True := by
  cases l with
  | off ret rfOff c inside => cases ret <;> trivial
  | read d => cases d <;> trivial
  | input d len => cases d <;> trivial
  | count d len => cases d <;> trivial
  | exit => exact .inl rfl
  | exitFlag => exact .inr rfl
  | _ => first | rfl | trivial

theorem phase_dead {l : Loc} (h : l.phase = .dead) : l = .dead := by
  have := sole_loc l
  rwa [h] at this

theorem phase_dialling {l : Loc} (h : l.phase = .dialling) :
    l = .connect := by
  have := sole_loc l
  rwa [h] at this

theorem phase_exiting {l : Loc} (h : l.phase = .exiting) :
    l = .exit ∨ l = .exitFlag := by
  have := sole_loc l
  rwa [h] at this

/-- `_disconnect` is not called while dialling. -/
theorem phase_offRet_ne (ret : OffRet) : ret.phase ≠ .dialling := by
  cases ret <;> nofun

theorem phase_recv_ne (d : Option Int) : recvPhase d ≠ .dialling := by
  cases d <;> nofun

/-- The data loop of lines 612–702, up to the point where the task acts
on the end of the session by writing `GSM_STATE_IDLE`. -/
def Phase.inDataLoop : Phase → Bool
  | .online => true
  | .redialling => true
  | .draining _ => true
  | .closed _ => true
  | _ => false

/-- Where a task stands towards a disconnect request: the head of the
data loop, where requests are taken, is still ahead of it; it has taken
one and not answered yet; it will not touch modem or request again
unless it is asked to. -/
inductive Stand
  | heading
  | serving
  | resting
  deriving DecidableEq, Repr

def Phase.stand : Phase → Stand
  | .dead => .resting
  | .starting => .heading
  | .booting => .heading
  | .initialising => .heading
  | .dialling => .heading
  | .online => .heading
  | .redialling => .heading
  | .draining _ => .serving
  | .closed _ => .serving
  | .parked => .resting
  | .exiting => .resting

/-- Between the two writes of `pppos_task_started`. -/
def Phase.flagUp : Phase → Bool
  | .dead => false
  | .starting => false
  | _ => true

-- =========================================================== the effects

/-- The steps by which the task gives up: a failed set-up call, no
control block, the 21st failed initialisation command. -/
def failureExit (i : TaskIn) (s : Sys) : Bool :=
  match s.task, i with
  | .setup _, .fail => true
  | .create, .fail => true
  | .cmdWait _ nfail, .verdict v => v == 0 && decide (nfail + 1 > 20)
  | _, _ => false

/-- The step that answers a disconnect request. -/
def Loc.parks : Loc → Bool
  | .park _ => true
  | _ => false

/-- The shared variables of the handshakes are left alone. -/
structure SameShared (s s' : Sys) : Prop where
  status : s'.gsmStatus = s.gsmStatus
  request : s'.doPpposConnect = s.doPpposConnect
  started : s'.ppposTaskStarted = s.ppposTaskStarted

/-- What one step of the client task does to its phase and to the shared
variables of the handshakes. -/
inductive TaskEffect (i : TaskIn) (s s' : Sys) : Prop
  /-- nothing -/
  | stay (hphase : s'.task.phase = s.task.phase)
      (hne : s.task.phase ≠ .dialling) (hsame : SameShared s s')
  /-- line 490 -/
  | raise (hp : s.task.phase = .starting) (hp' : s'.task.phase = .booting)
      (hst : s'.gsmStatus = s.gsmStatus)
      (hdo : s'.doPpposConnect = s.doPpposConnect)
      (hup : s'.ppposTaskStarted = true)
  /-- a set-up call fails -/
  | bootFail (hp : s.task.phase = .booting)
      (hp' : s'.task.phase = .exiting) (hsame : SameShared s s')
      (hfail : failureExit i s = true)
  /-- line 532 -/
  | boot (hp : s.task.phase = .booting)
      (hp' : s'.task.phase = .initialising)
      (hst : s'.gsmStatus = .firstInit)
      (hdo : s'.doPpposConnect = s.doPpposConnect)
      (hup : s'.ppposTaskStarted = s.ppposTaskStarted)
  /-- more than 20 failed commands, or no control block -/
  | initFail (hp : s.task.phase = .initialising)
      (hp' : s'.task.phase = .exiting) (hsame : SameShared s s')
      (hfail : failureExit i s = true)
  /-- line 607 -/
  | ready (hp : s.task.phase = .initialising)
      (hp' : s'.task.phase = .dialling) (hst : s'.gsmStatus = .idle)
      (hdo : s'.doPpposConnect = s.doPpposConnect)
      (hup : s'.ppposTaskStarted = s.ppposTaskStarted)
  /-- line 609 -/
  | dial (hp : s.task.phase = .dialling) (hp' : s'.task.phase = .online)
      (hsame : SameShared s s')
  /-- lines 615–618: a request is taken -/
  | request (hp : s.task.phase = .online)
      (hp' : s'.task.phase = .draining s.doPpposConnect)
      (hreq : s.doPpposConnect ≤ 0) (hdo : s'.doPpposConnect = 1)
      (hst : s'.gsmStatus = s.gsmStatus)
      (hup : s'.ppposTaskStarted = s.ppposTaskStarted)
  /-- line 676: the session is over -/
  | dropped (hp : s.task.phase = .online)
      (hp' : s'.task.phase = .redialling)
      (hst : s.gsmStatus = .disconnected) (hsame : SameShared s s')
  /-- line 686 -/
  | redial (hp : s.task.phase = .redialling)
      (hp' : s'.task.phase = .initialising) (hst : s'.gsmStatus = .idle)
      (hdo : s'.doPpposConnect = s.doPpposConnect)
      (hup : s'.ppposTaskStarted = s.ppposTaskStarted)
  /-- line 626: the drained session is over -/
  | drained (endTask : Int) (hp : s.task.phase = .draining endTask)
      (hp' : s'.task.phase = .closed endTask)
      (hst : s.gsmStatus = .disconnected) (hsame : SameShared s s')
  /-- lines 653–658 -/
  | park (endTask : Int) (hp : s.task = .park endTask)
      (hp' : s'.task.phase = if endTask < 0 then .exiting else .parked)
      (hst : s'.gsmStatus = .idle) (hdo : s'.doPpposConnect = 0)
      (hup : s'.ppposTaskStarted = s.ppposTaskStarted)
  /-- line 672 -/
  | resume (hp : s.task.phase = .parked)
      (hp' : s'.task.phase = .initialising)
      (hreq : s.doPpposConnect ≠ 0) (hsame : SameShared s s')
  /-- lines 710–711 -/
  | die (hp : s.task.phase = .exiting) (hp' : s'.task.phase = .dead)
      (hst : s'.gsmStatus = .firstInit)
      (hdo : s'.doPpposConnect = s.doPpposConnect)
      (hup : s'.ppposTaskStarted = false)

/-- A step that leaves phase and shared variables alone, read off its
two locations. -/
private theorem stay_of {i : TaskIn} {s s' : Sys} {l : Loc}
    (ht : s.task = l) (hphase : s'.task.phase = l.phase)
    (hne : l.phase ≠ .dialling) (hsame : SameShared s s') :
    TaskEffect i s s' :=
  .stay (hphase.trans (congrArg Loc.phase ht).symm) (by rwa [ht]) hsame

/-- `_disconnect`'s tail keeps the phase of the caller it returns to. -/
private theorem offTail_stay {i : TaskIn} {s : Sys} {ret : OffRet}
    {rfOff inside : Bool} {c : OffCmd}
    (ht : s.task = .off ret rfOff c inside) :
    TaskEffect i s (offTail ret rfOff s) := by
  unfold offTail
  split
  · exact stay_of ht rfl (phase_offRet_ne ret) ⟨rfl, rfl, rfl⟩
  · exact stay_of ht (phase_offRet_loc ret) (phase_offRet_ne ret)
      ⟨rfl, rfl, rfl⟩

/-- Every step of the client task is one of the effects. -/
theorem taskStep_effect {i : TaskIn} {s s' : Sys}
    (h : taskStep i s = some s') : TaskEffect i s s' := by
  unfold taskStep at h
  split at h
  -- start and set-up
  case h_1 ht =>
      cases h
      exact .raise (congrArg Loc.phase ht) rfl rfl rfl rfl
  case h_2 k ht =>
      cases h
      exact .bootFail (congrArg Loc.phase ht) rfl ⟨rfl, rfl, rfl⟩
        (by simp [failureExit, ht])
  case h_3 k ht =>
      split at h <;> cases h
      all_goals exact stay_of ht rfl nofun ⟨rfl, rfl, rfl⟩
  -- `_disconnect`
  case h_4 ret rfOff c ht =>
      cases h
      exact stay_of ht rfl (phase_offRet_ne ret) ⟨rfl, rfl, rfl⟩
  case h_5 ret rfOff v ht | h_6 ret rfOff n v ht =>
      split at h <;> cases h
      all_goals first
        | exact offTail_stay ht
        | exact stay_of ht rfl (phase_offRet_ne ret) ⟨rfl, rfl, rfl⟩
  case h_7 ret rfOff v ht =>
      cases h
      exact stay_of ht (phase_offRet_loc ret) (phase_offRet_ne ret)
        ⟨rfl, rfl, rfl⟩
  -- the initialisation loop
  case h_8 ht =>
      cases h
      exact .boot (congrArg Loc.phase ht) rfl rfl rfl rfl
  case h_9 iter nfail ht =>
      split at h
      · split at h <;> cases h
        all_goals exact stay_of ht rfl nofun ⟨rfl, rfl, rfl⟩
      · cases h
        exact stay_of ht rfl nofun ⟨rfl, rfl, rfl⟩
  case h_10 iter nfail v ht =>
      split at h <;> cases h
      case isTrue hv =>
          by_cases hn : nfail + 1 > 20
          · exact .initFail (congrArg Loc.phase ht)
              (congrArg Loc.phase (if_pos hn)) ⟨rfl, rfl, rfl⟩
              (by simp [failureExit, ht, hv, hn])
          · exact stay_of ht (by simp [hn, Loc.phase]) nofun ⟨rfl, rfl, rfl⟩
      case isFalse => exact stay_of ht rfl nofun ⟨rfl, rfl, rfl⟩
  -- to the connection
  case h_11 ht =>
      cases h
      refine stay_of ht ?_ nofun ⟨rfl, rfl, rfl⟩
      show (if s.gsmStatus = .firstInit then Loc.create
        else .setDefault).phase = .initialising
      split <;> rfl
  case h_12 ht | h_14 ht | h_15 ht =>
      cases h
      exact stay_of ht rfl nofun ⟨rfl, rfl, rfl⟩
  case h_13 ht =>
      cases h
      exact .initFail (congrArg Loc.phase ht) rfl ⟨rfl, rfl, rfl⟩
        (by simp [failureExit, ht])
  case h_16 ht =>
      cases h
      exact .ready (congrArg Loc.phase ht) rfl rfl rfl rfl
  case h_17 ht =>
      cases h
      exact .dial (congrArg Loc.phase ht) rfl ⟨rfl, rfl, rfl⟩
  -- the data loop
  case h_18 ht =>
      split at h
      case isTrue hreq =>
          cases h
          exact .request (congrArg Loc.phase ht) rfl hreq rfl rfl rfl
      case isFalse =>
          split at h <;> cases h
          case isTrue hst =>
              exact .dropped (congrArg Loc.phase ht) rfl hst ⟨rfl, rfl, rfl⟩
          case isFalse => exact stay_of ht rfl nofun ⟨rfl, rfl, rfl⟩
  case h_19 d len ht =>
      split at h <;> cases h
      · exact stay_of ht rfl (phase_recv_ne d) ⟨rfl, rfl, rfl⟩
      · exact stay_of ht (phase_recvHead d) (phase_recv_ne d)
          ⟨rfl, rfl, rfl⟩
  case h_20 d len ht =>
      cases h
      exact stay_of ht rfl (phase_recv_ne d) ⟨rfl, rfl, rfl⟩
  case h_21 d len ht =>
      cases h
      exact stay_of ht (phase_recvHead d) (phase_recv_ne d) ⟨rfl, rfl, rfl⟩
  -- a disconnect request
  case h_22 e ht | h_24 e ht =>
      cases h
      exact stay_of ht rfl nofun ⟨rfl, rfl, rfl⟩
  case h_23 e ht =>
      cases h
      by_cases hst : s.gsmStatus = .disconnected
      · exact .drained e (congrArg Loc.phase ht)
          (congrArg Loc.phase (if_pos hst)) hst ⟨rfl, rfl, rfl⟩
      · exact stay_of ht (by simp [hst, Loc.phase, recvPhase]) nofun
          ⟨rfl, rfl, rfl⟩
  case h_25 e ht =>
      cases h
      refine .park e ht ?_ rfl rfl rfl
      show (if e < 0 then Loc.exit else .parked).phase = _
      split <;> rfl
  case h_26 ht =>
      cases h
      by_cases hdo : s.doPpposConnect = 0
      · exact stay_of ht (congrArg Loc.phase (if_pos hdo)) nofun
          ⟨rfl, rfl, rfl⟩
      · exact .resume (congrArg Loc.phase ht)
          (congrArg Loc.phase (if_neg hdo)) hdo ⟨rfl, rfl, rfl⟩
  -- a dropped session, and the exit
  case h_27 ht | h_29 ht =>
      cases h
      exact stay_of ht rfl nofun ⟨rfl, rfl, rfl⟩
  case h_28 ht =>
      cases h
      exact .redial (congrArg Loc.phase ht) rfl rfl rfl rfl
  case h_30 ht =>
      cases h
      exact .die (congrArg Loc.phase ht) rfl rfl rfl rfl
  case h_31 => cases h

-- ============================================================= the frame

/-- Log entries the link properties look at: callbacks, connects, and
the API entries and returns that delimit a disconnected period. -/
def Ev.isLink : Ev → Bool
  | .cb _ => true
  | .pcb .connect _ => true
  | .initStart => true
  | .discRet => true
  | _ => false

/-- Nothing was logged that the link properties look at. -/
def QuietLog (log log' : List Ev) : Prop :=
  log' = log ∨ ∃ e, e.isLink = false ∧ log' = e :: log

/-- What no step of the client task touches, and what it logs. -/
structure TaskFrame (s s' : Sys) : Prop where
  gsmRfOff : s'.gsmRfOff = s.gsmRfOff
  ppposMutex : s'.ppposMutex = s.ppposMutex
  tcpip : s'.tcpip = s.tcpip
  initCall : s'.initCall = s.initCall
  discCall : s'.discCall = s.discCall
  atCall : s'.atCall = s.atCall
  quiet : s.task ≠ .connect → QuietLog s.log s'.log
  dial : s.task = .connect → s'.log = .pcb .connect s.ppp :: s.log

/-- Every step of the client task keeps to the frame. -/
theorem taskStep_frame {i : TaskIn} {s s' : Sys}
    (h : taskStep i s = some s') : TaskFrame s s' := by
  unfold taskStep offTail at h
  repeat' split at h
  all_goals cases h
  all_goals refine ⟨rfl, rfl, rfl, rfl, rfl, rfl, fun hc => ?_, fun hc => ?_⟩
  all_goals first
    | exact .inl rfl
    | exact .inr ⟨_, rfl, rfl⟩
    | rfl
    | simp_all

end ShZ001.Gsm
