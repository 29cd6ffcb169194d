/-
The link's history, read off the log: the last callback since the last
connect, whether a PPP session can still be alive, whether the caller is
in a disconnected period, who wrote the registration timeout last.

# Why a log

None of this is a variable of the source. The documentation of the
interface speaks of it all the same: of a session that has ended, of the
last event of the connection, of the time between a disconnect and the
next reconnect. The system therefore keeps a log of the calls and
callbacks of its run (`Sys.log`), newest first, and the readings are
functions of it. The log is only written; no step depends on it.

# One entry more

Each reading looks back to the newest entry of some kind (`since` of
`Lib/History.lean`), so it moves only when such an entry is logged. The
simp lemmas of the second section say how each reading moves with one
more entry, by cases on the entry.

# Frames

The lemmas behind them say what one step of each small party (the
callback thread, a caller of an AT function) does, and what the parties
other than the task leave alone.
-/
import ShZ001.Gsm.Phase
import ShZ001.Lib.History

namespace ShZ001.Gsm

open Lib

-- ============================================================ the readings

/-- A `pppapi_connect` call. -/
def Ev.isConnect : Ev → Bool
  | .pcb .connect _ => true
  | _ => false

/-- The code of a `ppp_status_cb` call. -/
def Ev.cbCode : Ev → Option PppErr
  | .cb err => some err
  | _ => none

/-- A callback that tells the end of a session: any code other than
`PPPERR_NONE`. -/
def Ev.endsSession : Ev → Bool
  | .cb err => decide (err ≠ .errNone)
  | _ => false

/-- What happened since the last `pppapi_connect`, newest first. -/
def session (log : List Ev) : List Ev := since Ev.isConnect log

/-- The most recent `ppp_status_cb` code since the last
`pppapi_connect`. -/
def lastCb (log : List Ev) : Option PppErr :=
  (session log).findSome? Ev.cbCode

/-- A session-ending callback has arrived since the last
`pppapi_connect`. -/
def ended (log : List Ev) : Bool := (session log).any Ev.endsSession

/-- A session is alive: there has been a `pppapi_connect`, and no
session-ending callback since. -/
def live (log : List Ev) : Bool := log.any Ev.isConnect && !ended log

/-- Between the return of a `ppposDisconnect` call and the start of the
next `ppposInit` call. -/
def sticky (log : List Ev) : Bool :=
  (log.findSome? fun
    | .discRet => some true
    | .initStart => some false
    | _ => none).getD false

/-- The registration timeout written by a logged event. -/
def Ev.regWriter : Ev → Option RegWriter
  | .regTimeout w => some w
  | _ => none

/-- The function that wrote the registration timeout last. -/
def lastReg (log : List Ev) : Option RegWriter :=
  log.findSome? Ev.regWriter

-- ====================================================== one more entry

private theorem session_cons (e : Ev) (log : List Ev) :
    session (e :: log)
      = if e.isConnect then [] else e :: session log := rfl

@[simp] theorem lastCb_cons (e : Ev) (log : List Ev) :
    lastCb (e :: log) = match e with
      | .cb err => some err
      | .pcb .connect _ => none
      | _ => lastCb log := by
  unfold lastCb
  rw [session_cons]
  cases e with
  | pcb call p => cases call <;> rfl
  | _ => rfl

@[simp] theorem ended_cons (e : Ev) (log : List Ev) :
    ended (e :: log) = match e with
      | .cb err => decide (err ≠ .errNone) || ended log
      | .pcb .connect _ => false
      | _ => ended log := by
  unfold ended
  rw [session_cons]
  cases e with
  | pcb call p => cases call <;> rfl
  | _ => rfl

@[simp] theorem live_cons (e : Ev) (log : List Ev) :
    live (e :: log) = match e with
      | .cb err => decide (err = .errNone) && live log
      | .pcb .connect _ => true
      | _ => live log := by
  unfold live
  rw [List.any_cons, ended_cons]
  cases e with
  | cb err =>
      by_cases h : err = .errNone <;> simp [h, Ev.isConnect]
  | pcb call p => cases call <;> rfl
  | _ => rfl

@[simp] theorem sticky_cons (e : Ev) (log : List Ev) :
    sticky (e :: log) = match e with
      | .discRet => true
      | .initStart => false
      | _ => sticky log := by
  cases e <;> rfl

@[simp] theorem lastReg_cons (e : Ev) (log : List Ev) :
    lastReg (e :: log) = match e with
      | .regTimeout w => some w
      | _ => lastReg log := by
  cases e <;> rfl

/-- Quiet steps move none of the readings. -/
theorem link_quiet {log log' : List Ev} (h : QuietLog log log') :
    lastCb log' = lastCb log ∧ ended log' = ended log
      ∧ live log' = live log ∧ sticky log' = sticky log := by
  rcases h with rfl | ⟨e, he, rfl⟩
  · exact ⟨rfl, rfl, rfl, rfl⟩
  · cases e with
    | pcb call p => cases call <;> simp_all [Ev.isLink]
    | _ => simp_all [Ev.isLink]

-- ========================================================= the callback

/-- The codes for which `ppp_status_cb` assigns `gsm_status`. -/
def PppErr.isHandled : PppErr → Bool
  | .errNone => true
  | .errUser => true
  | .errConnect => true
  | _ => false

/-- The other cases of the callback only print. -/
theorem pppStatusCb_unhandled {err : PppErr} (h : err.isHandled = false)
    (status : GsmState) : pppStatusCb err status = status := by
  cases err <;> first | rfl | cases h

/-- A handled code other than `PPPERR_NONE` says disconnected. -/
theorem pppStatusCb_ended {err : PppErr} (h : err.isHandled = true)
    (hne : err ≠ .errNone) (status : GsmState) :
    pppStatusCb err status = .disconnected := by
  cases err <;> first | exact absurd rfl hne | rfl | cases h

-- ==================================================== the small parties

/-- What the status callback does. -/
theorem cb_cases {err : PppErr} {s s' : Sys}
    (h : apply (.cb err) s = some s') :
    s.tcpip = none ∧ s' = { s with
      gsmStatus := pppStatusCb err s.gsmStatus
      log := .cb err :: s.log } := by
  change cbStep err s = some s' at h
  unfold cbStep at h
  split at h
  case isTrue hidle => exact ⟨hidle, (Option.some.inj h).symm⟩
  case isFalse => cases h

/-- The output callback, up to its write. -/
theorem out_cases {ret : UInt32} {s s' : Sys}
    (h : apply (.out ret) s = some s') :
    s.tcpip = none ∧ s' = { s with
      tcpip := some ret
      log := .uartWrite ret :: s.log } := by
  change outStep ret s = some s' at h
  unfold outStep at h
  split at h
  case isTrue hidle => exact ⟨hidle, (Option.some.inj h).symm⟩
  case isFalse => cases h

/-- And its count. -/
theorem outCount_cases {s s' : Sys} (h : apply .outCount s = some s') :
    ∃ ret, s.tcpip = some ret ∧ s' = { s with
      ppposRxCount :=
        if 0 < ret then s.ppposRxCount + ret else s.ppposRxCount
      tcpip := none } := by
  change outCountStep s = some s' at h
  unfold outCountStep at h
  cases hret : s.tcpip with
  | none =>
      rw [hret] at h
      cases h
  | some ret =>
      rw [hret] at h
      exact ⟨ret, rfl, (Option.some.inj h).symm⟩

theorem getCounts_cases {rst : Bool} {s s' : Sys}
    (h : apply (.getCounts rst) s = some s') :
    s' = { s with
      ppposRxCount := if rst then 0 else s.ppposRxCount
      ppposTxCount := if rst then 0 else s.ppposTxCount
      log := .counts s.ppposRxCount s.ppposTxCount rst :: s.log } := by
  change getRxTxCount rst s = some s' at h
  unfold getRxTxCount at h
  split at h
  case isTrue => exact (Option.some.inj h).symm
  case isFalse => cases h

theorem resetCounts_cases {s s' : Sys}
    (h : apply .resetCounts s = some s') :
    s' = { s with
      ppposRxCount := 0
      ppposTxCount := 0
      log := .resetCounts :: s.log } := by
  change resetRxTxCount s = some s' at h
  unfold resetRxTxCount at h
  split at h
  case isTrue => exact (Option.some.inj h).symm
  case isFalse => cases h

-- ================================================== the other parties

/-- The actions of the parties other than the task and the status
callback. -/
def Act.isBystander : Act → Bool
  | .task _ => false
  | .cb _ => false
  | _ => true

/-- What an API call, an output callback or a counter access leaves
alone: the status and the task, except that `ppposInit` puts a created
task at its start. -/
structure BystanderFrame (s s' : Sys) : Prop where
  status : s'.gsmStatus = s.gsmStatus
  started : s'.ppposTaskStarted = s.ppposTaskStarted
  ppp : s'.ppp = s.ppp
  nextBlock : s'.nextBlock = s.nextBlock
  task : s'.task = s.task ∨ s.initCall = .create ∧ s'.task = .start
  lastCb : lastCb s'.log = lastCb s.log
  ended : ended s'.log = ended s.log
  live : live s'.log = live s.log

/-- Every step of a bystander keeps to the frame. -/
theorem bystander_frame {a : Act} {s s' : Sys} (ha : a.isBystander = true)
    (h : apply a s = some s') : BystanderFrame s s' := by
  cases a with
  | task i => cases ha
  | cb err => cases ha
  | out ret =>
      obtain ⟨-, rfl⟩ := out_cases h
      exact ⟨rfl, rfl, rfl, rfl, .inl rfl, by simp, by simp, by simp⟩
  | outCount =>
      obtain ⟨_, -, rfl⟩ := outCount_cases h
      exact ⟨rfl, rfl, rfl, rfl, .inl rfl, rfl, rfl, rfl⟩
  | init i =>
      simp only [apply, initStep] at h
      repeat' split at h
      all_goals cases h
      all_goals refine ⟨rfl, rfl, rfl, rfl, ?_, by simp, by simp, by simp⟩
      -- `make` is the one step that touches the task
      all_goals first
        | exact .inl rfl
        | exact .inr ⟨‹_›, rfl⟩
  | disc i =>
      simp only [apply, discStep] at h
      repeat' split at h
      all_goals cases h
      all_goals exact ⟨rfl, rfl, rfl, rfl, .inl rfl, by simp, by simp, by simp⟩
  | modem n i =>
      simp only [apply, atStep] at h
      repeat' split at h
      all_goals cases h
      all_goals exact ⟨rfl, rfl, rfl, rfl, .inl rfl, by simp, by simp, by simp⟩
  | getCounts rst =>
      obtain rfl := getCounts_cases h
      exact ⟨rfl, rfl, rfl, rfl, .inl rfl, by simp, by simp, by simp⟩
  | resetCounts =>
      obtain rfl := resetCounts_cases h
      exact ⟨rfl, rfl, rfl, rfl, .inl rfl, by simp, by simp, by simp⟩

/-- Entries that only the client task logs. -/
def Ev.isTask : Ev → Bool
  | .taskStart => true
  | .taskEnd => true
  | .create _ => true
  | .pcb _ _ => true
  | .tx _ => true
  | .ack _ => true
  | .nack _ => true
  | .uartRead _ => true
  | _ => false

def Act.isTask : Act → Bool
  | .task _ => true
  | _ => false

/-- The other parties log none of them. -/
theorem foreign_log {a : Act} {s s' : Sys} (ha : a.isTask = false)
    (h : apply a s = some s') :
    ∃ es, s'.log = es ++ s.log ∧ ∀ e ∈ es, e.isTask = false := by
  -- at most two entries at a time, none of them the task's
  have hnone : s'.log = s.log →
      ∃ es, s'.log = es ++ s.log ∧ ∀ e ∈ es, e.isTask = false :=
    fun hl => ⟨[], hl, nofun⟩
  have hone : ∀ e : Ev, e.isTask = false → s'.log = e :: s.log →
      ∃ es, s'.log = es ++ s.log ∧ ∀ e ∈ es, e.isTask = false :=
    fun e he hl => ⟨[e], hl, by simpa using he⟩
  cases a with
  | task i => cases ha
  | cb err =>
      obtain ⟨-, rfl⟩ := cb_cases h
      exact hone _ rfl rfl
  | out ret =>
      obtain ⟨-, rfl⟩ := out_cases h
      exact hone _ rfl rfl
  | outCount =>
      obtain ⟨_, -, rfl⟩ := outCount_cases h
      exact hnone rfl
  | init i =>
      simp only [apply, initStep] at h
      repeat' split at h
      all_goals cases h
      all_goals first | exact hnone rfl | exact hone _ rfl rfl
  | disc i =>
      simp only [apply, discStep] at h
      repeat' split at h
      all_goals cases h
      all_goals first
        | exact hnone rfl
        | exact hone _ rfl rfl
        | exact ⟨[.discRet, .discStart], rfl, by simp [Ev.isTask]⟩
  | modem n i =>
      simp only [apply, atStep] at h
      repeat' split at h
      all_goals cases h
      all_goals first | exact hnone rfl | exact hone _ rfl rfl
  | getCounts rst =>
      obtain rfl := getCounts_cases h
      exact hone _ rfl rfl
  | resetCounts =>
      obtain rfl := resetCounts_cases h
      exact hone _ rfl rfl

/-- The other parties leave the task where it is, except that
`ppposInit` puts a created task at its start. -/
theorem foreign_task {a : Act} {s s' : Sys} (ha : a.isTask = false)
    (h : apply a s = some s') :
    s'.task = s.task ∨ s.initCall = .create ∧ s'.task = .start := by
  cases a with
  | task i => cases ha
  | cb err =>
      obtain ⟨-, rfl⟩ := cb_cases h
      exact .inl rfl
  | _ => exact (bystander_frame rfl h).task

/-- All they write to the command records is the registration timeout,
and they log it. -/
theorem foreign_cmds {a : Act} {s s' : Sys} (ha : a.isTask = false)
    (h : apply a s = some s') :
    ∃ w, s'.cmds = regWrite w s.cmds ∧
      lastReg s'.log = w.or (lastReg s.log) := by
  -- every party but the modem's callers leaves the records alone
  have hkeep : s'.cmds = s.cmds → lastReg s'.log = lastReg s.log →
      ∃ w, s'.cmds = regWrite w s.cmds ∧
        lastReg s'.log = w.or (lastReg s.log) :=
    fun hc hl => ⟨none, hc, hl⟩
  cases a with
  | task i => cases ha
  | modem n i =>
      simp only [apply, atStep] at h
      split at h
      case h_1 =>
          repeat' split at h
          all_goals cases h
          all_goals exact hkeep rfl rfl
      case h_2 =>
          cases h
          exact hkeep rfl rfl
      case h_3 =>
          split at h <;> cases h
          exact hkeep rfl rfl
      case h_4 c v hloc =>
          cases h
          refine ⟨c.regWriter v, rfl, ?_⟩
          cases hw : c.regWriter v <;> simp
      case h_5 => cases h
  | cb err =>
      obtain ⟨-, rfl⟩ := cb_cases h
      exact hkeep rfl (lastReg_cons _ _)
  | out ret =>
      obtain ⟨-, rfl⟩ := out_cases h
      exact hkeep rfl (lastReg_cons _ _)
  | outCount =>
      obtain ⟨_, -, rfl⟩ := outCount_cases h
      exact hkeep rfl rfl
  | init i =>
      simp only [apply, initStep] at h
      repeat' split at h
      all_goals cases h
      all_goals exact hkeep rfl rfl
  | disc i =>
      simp only [apply, discStep] at h
      repeat' split at h
      all_goals cases h
      all_goals exact hkeep rfl rfl
  | getCounts rst =>
      obtain rfl := getCounts_cases h
      exact hkeep rfl (lastReg_cons _ _)
  | resetCounts =>
      obtain rfl := resetCounts_cases h
      exact hkeep rfl (lastReg_cons _ _)

-- ================================================= a run to build on

/-- From boot to the initialisation loop: `ppposInit` creates the task,
every set-up call succeeds, the modem goes off-line at once. -/
def startUp : List Act :=
  [.init .call, .init (.make true)] ++ List.replicate 9 (.task .go)
    ++ [.task (.verdict 1), .task .go, .task (.verdict 1), .task .go]

/-- One pass of the initialisation loop, every command acknowledged. -/
def initPass : List Act :=
  (List.replicate gsmInitCmdsSize [.task .go, .task (.verdict 1)]).flatten
    ++ [.task .go]

/-- From boot to an established connection that `ppposInit` has
reported. -/
def bringUp : List Act :=
  startUp ++ initPass ++ List.replicate 6 (.task .go)
    ++ [.cb .errNone, .init .poll, .init .poll]

/-- From there, a `ppposDisconnect` call that is served and returns. -/
def hangUp (endTask : Bool) : List Act :=
  [.disc (.call endTask false), .disc .write, .task .go, .disc .poll,
    .task .go, .cb .errUser] ++ List.replicate 3 (.task .go)
    ++ [.task (.verdict 1), .task .go, .disc .poll]

end ShZ001.Gsm
