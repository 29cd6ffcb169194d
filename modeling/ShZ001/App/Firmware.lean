/-
The two programs as `app_main` starts them (sh_z_001.c 29–47):
`gprs_task` is the one user of the client. It calls `ppposInit`, once,
and then only reads the status (internet.c 37–96); nothing calls
`ppposDisconnect`, the SMS functions or the radio switches.

# The parties

They are `gprs_task`, the client task, and the TCP/IP thread in its two
callbacks. `gprs_task` is inside `ppposInit` or behind it, and what it
reads of the link is the client's status (`Firmware.polled`), so the two
machines share no other state. `Sound` is lwIP's part: the codes that
the status callback acts on come while the control block exists.

# What cannot happen here

What the client's code has to fear from its callers cannot: it has one
life and makes one block (`firmware_law`, by `OneLife`), no disconnect
request is ever made, and nothing is done about the time before the link
has been up. `firmware_parts` says that a run of the firmware is a run
of the client and a run of `gprs_task`, so the laws of both hold of it.

# What can

What its one caller has to fear does happen. When the client task gives
up, nobody starts it again, and `gprs_task` waits for a reconnection
that does not come (`firmware_down`).
-/
import ShZ001.Lib.Within
import ShZ001.App.Gprs
import ShZ001.Gsm.Proofs.OneLife

namespace ShZ001.App

open Lib Machine Gsm

-- ================================================================ the machine

structure Firmware where
  gprs : Gprs
  client : Sys

def Firmware.boot : Firmware where
  gprs := .boot
  client := .boot

/-- The actions of the client task and of the TCP/IP thread. -/
def isInner : Act → Bool
  | .task _ => true
  | .cb _ => true
  | .out _ => true
  | .outCount => true
  | _ => false

/-- `gprs` is a step of `gprs_task` after its call of `ppposInit`, `init` a
step inside it. -/
inductive FirmAct
  | gprs
  | init (i : InitIn)
  | client (a : Act)
  | clock (now : Int)
  deriving DecidableEq, Repr

/-- `ppposStatus` reads the client's status. -/
def Firmware.polled (f : Firmware) : Gprs :=
  { f.gprs with status := f.client.gsmStatus }

/-- A step inside `ppposInit`; its return takes `gprs_task` to line 46, or
to the loop of lines 40–42. -/
def initApply (i : InitIn) (f : Firmware) : Option Firmware :=
  if f.gprs.loc = .start then
    match initStep i f.client with
    | some c =>
        if c.initCall = .outside then
          (gprsStep (c.log.head? = some (.initRet 1)) f.gprs).map (⟨·, c⟩)
        else some { f with client := c }
    | none => none
  else none

def firmApply : FirmAct → Firmware → Option Firmware
  | .gprs, f =>
      if f.gprs.loc = .start then none
      else (gprsStep true f.polled).map fun g => { f with gprs := g }
  | .init i, f => initApply i f
  | .client a, f =>
      if isInner a then (apply a f.client).map fun c => { f with client := c }
      else none
  | .clock now, f => some { f with gprs := { f.gprs with clock := now } }

def firmware : Machine Firmware FirmAct where
  init := .boot
  apply := firmApply

/-- The codes that `ppp_status_cb` acts on come while the block exists. -/
def Sound (f : Firmware) : FirmAct → Prop
  | .client (.cb err) => Owned f.client (.cb err)
  | _ => True

instance (f : Firmware) : ∀ a, Decidable (Sound f a)
  | .client (.cb err) =>
      inferInstanceAs (Decidable (Owned f.client (.cb err)))
  | .client (.task _) | .client (.out _) | .client .outCount => isTrue trivial
  | .client (.init _) | .client (.disc _) => isTrue trivial
  | .client (.modem _ _) | .client (.getCounts _) => isTrue trivial
  | .client .resetCounts => isTrue trivial
  | .gprs | .init _ | .clock _ => isTrue trivial

-- =================================================================== one step

/-- What a step amounts to. -/
inductive FirmStep (f : Firmware) : FirmAct → Firmware → Prop
  | gprs {g} (hloc : f.gprs.loc ≠ .start) (h : gprsStep true f.polled = some g) :
      FirmStep f .gprs { f with gprs := g }
  | inside {i c} (hloc : f.gprs.loc = .start) (h : initStep i f.client = some c)
      (hin : c.initCall ≠ .outside) :
      FirmStep f (.init i) { f with client := c }
  | back {i c g} (hloc : f.gprs.loc = .start)
      (h : initStep i f.client = some c) (hout : c.initCall = .outside)
      (hg : gprsStep (c.log.head? = some (.initRet 1)) f.gprs = some g) :
      FirmStep f (.init i) ⟨g, c⟩
  | client {a c} (ha : isInner a = true) (h : apply a f.client = some c) :
      FirmStep f (.client a) { f with client := c }
  | clock (now : Int) :
      FirmStep f (.clock now) { f with gprs := { f.gprs with clock := now } }

/-- Every step is one of these. -/
theorem firm_cases {a : FirmAct} {f f' : Firmware}
    (h : firmware.apply a f = some f') : FirmStep f a f' := by
  cases a with
  | gprs =>
      simp only [firmware, firmApply] at h
      split at h
      case isTrue => cases h
      case isFalse hloc =>
          obtain ⟨g, hg, rfl⟩ := Option.map_eq_some_iff.mp h
          exact .gprs hloc hg
  | init i =>
      simp only [firmware, firmApply, initApply] at h
      split at h
      case isFalse => cases h
      case isTrue hloc =>
          split at h
          case h_2 => cases h
          case h_1 c hc =>
              split at h
              case isTrue hout =>
                  obtain ⟨g, hg, rfl⟩ := Option.map_eq_some_iff.mp h
                  exact .back hloc hc hout hg
              case isFalse hin =>
                  cases h
                  exact .inside hloc hc hin
  | client a =>
      simp only [firmware, firmApply] at h
      split at h
      case isFalse => cases h
      case isTrue ha =>
          obtain ⟨c, hc, rfl⟩ := Option.map_eq_some_iff.mp h
          exact .client ha hc
  | clock now =>
      cases h
      exact .clock now

/-- What leaves `ppposInit` has logged its result, and 1 is a connection. -/
theorem initStep_back {i : InitIn} {s s' : Sys} (h : initStep i s = some s')
    (hout : s'.initCall = .outside) :
    ∃ r, s'.log = .initRet r :: s.log ∧
      (r = 1 → s.gsmStatus = .connected) := by
  unfold initStep at h
  repeat' split at h
  all_goals cases h
  all_goals first
    | (cases hout; done)
    | exact ⟨0, rfl, by simp⟩
    | exact ⟨1, rfl, fun _ => ‹_›⟩
    | simp_all

/-- The call comes first, and is logged. -/
theorem initStep_log {i : InitIn} {s s' : Sys} (h : initStep i s = some s') :
    i = .call ∧ s.initCall = .outside ∧ s'.log = .initStart :: s.log ∨
      s'.log.count .initStart = s.log.count .initStart := by
  unfold initStep at h
  repeat' split at h
  all_goals cases h
  all_goals first
    | exact .inl ⟨rfl, ‹_›, rfl⟩
    | exact .inr rfl

/-- The client task and the callbacks make no call of `ppposInit`. -/
theorem inner_log {a : Act} {s s' : Sys} (ha : isInner a = true)
    (h : apply a s = some s') :
    s'.log.count .initStart = s.log.count .initStart := by
  cases a with
  | task i =>
      have hf := taskStep_frame h
      by_cases hconn : s.task = .connect
      · rw [hf.dial hconn, List.count_cons_of_ne (by simp)]
      · rcases hf.quiet hconn with hlog | ⟨e, he, hlog⟩
        · rw [hlog]
        · rw [hlog, List.count_cons_of_ne]
          rintro rfl
          cases he
  | cb err =>
      obtain ⟨-, rfl⟩ := cb_cases h
      exact List.count_cons_of_ne (by simp)
  | out ret =>
      obtain ⟨-, rfl⟩ := out_cases h
      exact List.count_cons_of_ne (by simp)
  | outCount =>
      obtain ⟨_, -, rfl⟩ := outCount_cases h
      rfl
  | _ => cases ha

/-- Nor do they move a call that is being made. -/
theorem inner_initCall {a : Act} {s s' : Sys} (ha : isInner a = true)
    (h : apply a s = some s') : s'.initCall = s.initCall := by
  cases a with
  | task i => exact (taskStep_frame h).initCall
  | cb err | out ret | outCount => exact (outsider_frame rfl h).initCall
  | _ => cases ha

/-- They add to the log and take nothing away. -/
theorem inner_past {a : Act} {s s' : Sys} (ha : isInner a = true)
    (h : apply a s = some s') {e : Ev} (he : e ∈ s.log) : e ∈ s'.log := by
  cases a with
  | task i => exact taskStep_past h he
  | cb err | out ret | outCount =>
      obtain ⟨es, hlog, -⟩ := foreign_log rfl h
      rw [hlog]
      exact List.mem_append_right _ he
  | _ => cases ha

theorem inner_sound {f : Firmware} {a : Act} (ha : isInner a = true)
    (hi : OneLife f.client) (hok : Sound f (.client a)) :
    Owned f.client a := by
  cases a with
  | task i => exact oneLife_owned hi i
  | cb err => exact hok
  | out ret | outCount => trivial
  | _ => cases ha

-- ============================================================== the invariant

/-- Nobody has called `ppposInit`. -/
structure Fresh (s : Sys) : Prop where
  dead : s.task = .dead
  unborn : Unborn s
  uncalled : .initStart ∉ s.log

/-- `gprs_task` is behind its call of `ppposInit`, and got a 1. -/
def Gprs.isUp (g : Gprs) : Prop := g.loc ≠ .start ∧ g.loc ≠ .halted

structure FirmwareInv (f : Firmware) : Prop where
  life : OneLife f.client
  once : f.client.log.count .initStart ≤ 1
  fresh : f.gprs.loc = .start → f.client.initCall = .outside →
    Fresh f.client
  link : f.gprs.isUp → .cb .errNone ∈ f.client.log
  mute : ¬ f.gprs.isUp → f.gprs.log = []

/-- So they keep what holds of a client with one life. -/
theorem oneLife_inner {a : Act} {s s' : Sys} (ha : isInner a = true)
    (hi : OneLife s) (hok : Owned s a) (h : apply a s = some s') :
    OneLife s' := by
  cases a with
  | task i => exact oneLife_task hi hok h
  | cb err | out ret | outCount => exact oneLife_callback hi rfl hok h rfl
  | _ => cases ha

/-- With nobody having called, there is nothing for them to do. -/
theorem fresh_inner {a : Act} {s s' : Sys} (ha : isInner a = true)
    (hf : Fresh s) (hok : Owned s a) (h : apply a s = some s') :
    Fresh s' := by
  have hlog : .initStart ∉ s'.log := by
    rw [← List.count_eq_zero, inner_log ha h, List.count_eq_zero]
    exact hf.uncalled
  cases a with
  | task i => simp [Gsm.apply, taskStep, hf.dead] at h
  | cb err | out ret | outCount =>
      exact ⟨(outsider_frame rfl h).task.trans hf.dead,
        hf.unborn.aside (foreign_aside rfl hok h), hlog⟩
  | _ => cases ha

/-- From line 46 on `gprs_task` is behind its call. -/
theorem gprsStep_isUp {up : Bool} {g g' : Gprs} (hloc : g.loc ≠ .start)
    (h : gprsStep up g = some g') : g.isUp ∧ g'.isUp := by
  unfold gprsStep loopTest at h
  unfold Gprs.isUp
  repeat' split at h
  all_goals first
    | exact absurd ‹g.loc = .start› hloc
    | cases h
  all_goals simp_all

/-- At line 39 the answer of `ppposInit` decides whether `gprs_task` goes
on. -/
theorem gprsStep_mute {up : Bool} {g g' : Gprs} (hloc : g.loc = .start)
    (h : gprsStep up g = some g') :
    g'.log = g.log ∧ g'.loc = if up then .firstRead else .halted := by
  simp only [gprsStep, hloc] at h
  cases h
  exact ⟨rfl, rfl⟩

/-- One step: inside `ppposInit`, of `gprs_task` behind it, of the client,
or of the clock. -/
theorem firmwareInv_step {a : FirmAct} {f f' : Firmware}
    (hi : FirmwareInv f) (hok : Sound f a)
    (h : firmware.apply a f = some f') : FirmwareInv f' := by
  cases firm_cases h with
  | @gprs g hloc hg =>
      obtain ⟨hup, hup'⟩ := gprsStep_isUp (g := f.polled) hloc hg
      exact ⟨hi.life, hi.once, fun hstart => absurd hstart hup'.1,
        fun _ => hi.link hup, fun hno => absurd hup' hno⟩
  | @inside i c hloc hc hin =>
      have hno : ¬ f.gprs.isUp := fun hup => hup.1 hloc
      refine ⟨?_, ?_, fun _ hout => absurd hout hin,
        fun hup => absurd hup hno, hi.mute⟩
      · refine oneLife_init hi.life (fun hcall => ?_) hc
        cases hout : f.client.initCall with
        | outside => exact (hi.fresh hloc hout).unborn
        | _ => simp [hcall, initStep, hout] at hc
      · rcases initStep_log hc with ⟨-, hout, hlog⟩ | hlog
        · have huncalled := (hi.fresh hloc hout).uncalled
          rw [hlog, List.count_cons_self, List.count_eq_zero.mpr huncalled]
        · exact hlog.trans_le hi.once
  | @back i c g hloc hc hout hg =>
      obtain ⟨r, hlog, hconn⟩ := initStep_back hc hout
      obtain ⟨hmute, hloc'⟩ := gprsStep_mute hloc hg
      have hcall : i ≠ .call := by
        rintro rfl
        cases hc' : f.client.initCall <;> simp [initStep, hc'] at hc
        subst hc
        split at hout <;> cases hout
      have hno : ¬ f.gprs.isUp := fun hup => hup.1 hloc
      refine ⟨oneLife_init hi.life (fun h => absurd h hcall) hc, ?_, ?_, ?_,
        fun _ => hmute.trans (hi.mute hno)⟩
      · rcases initStep_log hc with ⟨h, -, -⟩ | hcount
        · exact absurd h hcall
        · exact hcount.trans_le hi.once
      · intro hstart
        rw [hloc'] at hstart
        split at hstart <;> cases hstart
      · intro hup
        have hone : c.log.head? = some (.initRet 1) := by
          by_contra hne
          refine hup.2 ?_
          rw [hloc', if_neg]
          simpa using hne
        rw [hlog] at hone ⊢
        refine List.mem_cons_of_mem _ (hi.life.connected (hconn ?_))
        simpa using hone
  | @client a c ha hc =>
      have hown := inner_sound ha hi.life hok
      refine ⟨oneLife_inner ha hi.life hown hc,
        (inner_log ha hc).trans_le hi.once, fun hloc hout => ?_,
        fun hup => inner_past ha hc (hi.link hup), hi.mute⟩
      exact fresh_inner ha
        (hi.fresh hloc ((inner_initCall ha hc).symm.trans hout)) hown hc
  | clock now => exact ⟨hi.life, hi.once, hi.fresh, hi.link, hi.mute⟩

theorem firmwareInv_boot : FirmwareInv Firmware.boot :=
  ⟨oneLife_boot, by decide, fun _ _ => ⟨rfl, ⟨nofun, nofun, rfl⟩, nofun⟩,
    fun h => absurd rfl h.1, fun _ => rfl⟩

/-- And any number of steps. -/
theorem firmwareInv_of_reach {f : Firmware} (h : firmware.Reach Sound f) :
    FirmwareInv f :=
  h.invariant firmwareInv_boot fun _ _ _ => firmwareInv_step

-- =================================================================== the parts

/-- The firmware is a run of the client with a run of `gprs_task`. -/
theorem firmware_parts {f : Firmware} (h : firmware.Reach Sound f) :
    client.Reach Owned f.client ∧ gprs.Reach anyStep f.gprs := by
  induction h with
  | init => exact ⟨.init, .init⟩
  | @step f f' a hr hok happ ih =>
      obtain ⟨hclient, hgprs⟩ := ih
      have hpolled : gprs.Reach anyStep f.polled :=
        hgprs.step (.link f.client.gsmStatus) trivial rfl
      cases firm_cases happ with
      | gprs hloc hg => exact ⟨hclient, hpolled.step (.task true) trivial hg⟩
      | @inside i c hloc hc hin =>
          exact ⟨hclient.step (.init i) trivial hc, hgprs⟩
      | @back i c g hloc hc hout hg =>
          exact ⟨hclient.step (.init i) trivial hc,
            hgprs.step (.task _) trivial hg⟩
      | client ha hc =>
          have hown :=
            inner_sound ha (firmwareInv_of_reach hr).life hok
          exact ⟨hclient.step _ hown hc, hgprs⟩
      | clock now => exact ⟨hclient, hgprs.step (.clock now) trivial rfl⟩

-- ==================================================================== the law

/-- What holds of the firmware at any time. -/
structure FirmwareLaw (f : Firmware) : Prop where
  called : f.client.log.count .initStart ≤ 1
  started : f.client.log.count .taskStart ≤ 1
  blocks : f.client.nextBlock ≤ 1
  block : BlockLaw f.client
  unasked : f.client.doPpposConnect = 1 ∧
    f.client.task.phase.stand ≠ .serving ∧ f.client.task ≠ .parked
  ended : .taskEnd ∈ f.client.log →
    f.client.task = .dead ∧ f.client.gsmStatus = .firstInit
  online : f.gprs.log ≠ [] → .cb .errNone ∈ f.client.log
  sober : Always Sober f.gprs.log

/-- `ppposInit` is called once, the client task has one life and makes one
control block, no call gets a block that does not exist, no disconnect
request is made or served, nothing is done about the time before the link
has been up, and what is done is sober. -/
theorem firmware_law {f : Firmware} (h : firmware.Reach Sound f) :
    FirmwareLaw f := by
  have hi := firmwareInv_of_reach h
  have hcalls := hi.life.block.calls
  refine ⟨hi.once, hi.life.started_le, hi.life.law.1,
    ⟨hcalls, count_free_le_one hcalls⟩, ⟨hi.life.request, hi.life.law.2⟩,
    fun hend => ?_, fun hlog => ?_, sober_of_reach (firmware_parts h).2⟩
  · obtain ⟨hdead, hover⟩ := hi.life.over hend
    exact ⟨hdead, hover.status⟩
  · by_contra hno
    exact hlog (hi.mute fun hup => hno (hi.link hup))

/-- The actions of a run of the client, as the firmware's. -/
def firmActs (acts : List Act) : List FirmAct :=
  acts.map fun
    | .init i => .init i
    | a => .client a

/-- The link comes up, `gprs_task` reads the clock, starts SNTP and finds
the link lost. -/
theorem firmware_law_online : ∃ f, firmware.Reach Sound f ∧
    f.gprs.loc = .waitLink ∧ f.client.log.count .taskStart = 1 ∧
    FirmwareLaw f := by
  obtain ⟨f, hr, hf⟩ := exists_reach firmware Sound
    (firmActs bringUp ++ [.gprs, .gprs, .client (.cb .errConnect), .gprs,
      .gprs, .gprs])
    (fun f => f.gprs.loc = .waitLink ∧ f.client.log.count .taskStart = 1)
    (by decide +kernel)
  obtain ⟨hloc, hcount⟩ := of_decide_eq_true hf
  exact ⟨f, hr, hloc, hcount, firmware_law hr⟩

-- =============================================================== the link down

/-- The steps that `gprs_task` may take yet before it waits. -/
def GprsLoc.ahead : GprsLoc → Nat
  | .firstRead => 5
  | .round => 4
  | .delay => 3
  | .poll => 2
  | .testLink => 1
  | _ => 0

/-- What has come of the firmware since the client task ended in `f`. -/
structure Down (f f' : Firmware) : Prop where
  task : f'.client.task = .dead
  status : f'.client.gsmStatus = .firstInit
  events : ∃ es, f'.client.log = es ++ f.client.log ∧
    ∀ e ∈ es, e.isTask = false ∧ e ≠ .initRet 1
  unset : f'.gprs.log.count .timeSet = f.gprs.log.count .timeSet
  unfinished : f'.gprs.loc = .done → f.gprs.loc = .done

/-- A step of `gprs_task` on a link that is down. -/
theorem gprsStep_down {g g' : Gprs} (hloc : g.loc ≠ .start)
    (hst : g.status ≠ .connected) (h : gprsStep true g = some g') :
    g'.log.count .timeSet = g.log.count .timeSet ∧ g'.loc ≠ .done ∧
      g'.loc.ahead ≤ g.loc.ahead - 1 := by
  unfold gprsStep loopTest readClock at h
  repeat' split at h
  all_goals first
    | exact absurd ‹g.loc = .start› hloc
    | exact absurd ‹g.status = .connected› hst
    | cases h
  all_goals simp_all [GprsLoc.ahead]

/-- The other parties of a client whose task is over. -/
theorem foreign_down {a : Act} {s s' : Sys} (ha : a.isTask = false)
    (hst : s.gsmStatus = .firstInit) (h : apply a s = some s') :
    ∃ es, s'.log = es ++ s.log ∧ ∀ e ∈ es, e.isTask = false ∧ e ≠ .initRet 1 := by
  obtain ⟨es, hes⟩ := foreign_reports ha h
  refine ⟨es, hes.log, fun e he => ⟨hes.foreign e he, ?_⟩⟩
  rintro rfl
  rw [hes.reported he] at hst
  cases hst

/-- Behind the end of its task the client only answers: no step of the
task, no connection. -/
theorem firm_client_down {a : FirmAct} {f f' : Firmware}
    (hdead : f.client.task = .dead) (hst : f.client.gsmStatus = .firstInit)
    (h : firmware.apply a f = some f') :
    ∃ es, f'.client.log = es ++ f.client.log ∧
      ∀ e ∈ es, e.isTask = false ∧ e ≠ .initRet 1 := by
  cases firm_cases h with
  | gprs hloc hg => exact ⟨[], rfl, nofun⟩
  | @inside i c hloc hc hin => exact foreign_down (a := .init i) rfl hst hc
  | @back i c g hloc hc hout hg =>
      exact foreign_down (a := .init i) rfl hst hc
  | @client b c hb hc =>
      cases b with
      | task i => simp [Gsm.apply, taskStep, hdead] at hc
      | _ => exact foreign_down rfl hst hc
  | clock now => exact ⟨[], rfl, nofun⟩

/-- `gprs_task` does not come to its report, and is never ahead of where
it was. -/
theorem firm_gprs_down {a : FirmAct} {f f' : Firmware}
    (hst : f.client.gsmStatus = .firstInit)
    (h : firmware.apply a f = some f') :
    f'.gprs.log.count .timeSet = f.gprs.log.count .timeSet ∧
      (f'.gprs.loc = .done → f.gprs.loc = .done) ∧
      f'.gprs.loc.ahead ≤
        f.gprs.loc.ahead - (if a = .gprs then 1 else 0) := by
  have hne : f.client.gsmStatus ≠ .connected := by
    rw [hst]
    nofun
  cases firm_cases h with
  | gprs hloc hg =>
      obtain ⟨hcount, hdone, hahead⟩ :=
        gprsStep_down (g := f.polled) hloc hne hg
      exact ⟨hcount, fun h => absurd h hdone, hahead⟩
  | inside hloc hc hin => exact ⟨rfl, id, Nat.le_refl _⟩
  | @back i c g hloc hc hout hg =>
      obtain ⟨r, hret, hconn⟩ := initStep_back hc hout
      have hr : r ≠ 1 := fun h => hne (hconn h)
      obtain ⟨hmute, hloc'⟩ := gprsStep_mute hloc hg
      have hhalt : g.loc = .halted := by
        rw [hloc', if_neg]
        simpa [hret] using hr
      exact ⟨congrArg _ hmute, by rw [hhalt]; nofun,
        by rw [hhalt]; exact Nat.zero_le _⟩
  | client ha hc => exact ⟨rfl, id, Nat.le_refl _⟩
  | clock now => exact ⟨rfl, id, Nat.le_refl _⟩

/-- One step of the firmware. -/
theorem down_step {a : FirmAct} {f f₁ f' : Firmware} (hdown : Down f f₁)
    (hi : FirmwareInv f₁) (hend : .taskEnd ∈ f₁.client.log)
    (hok : Sound f₁ a) (h : firmware.apply a f₁ = some f') :
    Down f f' ∧ .taskEnd ∈ f'.client.log := by
  obtain ⟨es, hlog, hes⟩ := hdown.events
  obtain ⟨es', hlog', hes'⟩ := firm_client_down hdown.task hdown.status h
  obtain ⟨hcount, hdone, -⟩ := firm_gprs_down hdown.status h
  have hend' : .taskEnd ∈ f'.client.log := by
    rw [hlog']
    exact List.mem_append_right _ hend
  obtain ⟨hdead, hover⟩ := (firmwareInv_step hi hok h).life.over hend'
  refine ⟨⟨hdead, hover.status, ⟨es' ++ es, ?_, ?_⟩,
    hcount.trans hdown.unset, fun h => hdown.unfinished (hdone h)⟩, hend'⟩
  · rw [hlog', hlog, List.append_assoc]
  · exact List.forall_mem_append.mpr ⟨hes', hes⟩

/-- Once the client task has ended there is no link: the task is not
started again, `ppposInit` reports no connection, the time is not reported,
and within five steps `gprs_task` waits, unless it was done. -/
theorem firmware_down {acts : List FirmAct} {f f' : Firmware}
    (h : firmware.Reach Sound f) (hend : .taskEnd ∈ f.client.log)
    (hrun : firmware.run Sound f acts = some f') :
    Down f f' ∧
      (5 ≤ acts.count .gprs →
        f'.gprs.loc ∈ [GprsLoc.start, .halted, .waitLink] ∨
          f.gprs.loc = .done) := by
  have hi := firmwareInv_of_reach h
  obtain ⟨hdead, hover⟩ := hi.life.over hend
  have hdown : Down f f := ⟨hdead, hover.status, ⟨[], rfl, nofun⟩, rfl, id⟩
  have hstep : ∀ f₁ a f₂,
      Down f f₁ ∧ FirmwareInv f₁ ∧ .taskEnd ∈ f₁.client.log → Sound f₁ a →
        firmware.apply a f₁ = some f₂ →
          (Down f f₂ ∧ FirmwareInv f₂ ∧ .taskEnd ∈ f₂.client.log) ∧
            f₂.gprs.loc.ahead ≤
              f₁.gprs.loc.ahead - (if (a == .gprs) = true then 1 else 0) := by
    intro f₁ a f₂ h hok happ
    obtain ⟨hdown, hi, hend⟩ := h
    obtain ⟨hdown', hend'⟩ := down_step hdown hi hend hok happ
    refine ⟨⟨hdown', firmwareInv_step hi hok happ, hend'⟩, ?_⟩
    simpa using (firm_gprs_down hdown.status happ).2.2
  obtain ⟨⟨hdown', -, -⟩, hahead⟩ :=
    run_spends hstep ⟨hdown, hi, hend⟩ hrun
  refine ⟨hdown', fun hfive => ?_⟩
  have hle : f.gprs.loc.ahead ≤ 5 := by
    cases f.gprs.loc <;> decide
  have hzero : f'.gprs.loc.ahead = 0 := by
    rw [← List.count] at hahead
    omega
  by_cases hdone : f'.gprs.loc = .done
  · exact .inr (hdown'.unfinished hdone)
  · refine .inl ?_
    revert hzero hdone
    cases f'.gprs.loc <;> decide

/-- The link is lost, the modem refuses 21 commands in a row on the way to
the next dial, and the client task gives up. -/
def firmGiveUp : List FirmAct :=
  firmActs (bringUp ++ [.cb .errConnect, .task .go, .task .go, .task .go]
    ++ (List.replicate 21 [.task .go, .task (.verdict 0)]).flatten
    ++ [.task .go, .task .go])

/-- And `gprs_task` waits. -/
theorem firmware_down_waits : ∃ f f', firmware.Reach Sound f ∧
    .cb .errNone ∈ f.client.log ∧ f'.gprs.loc = .waitLink ∧ Down f f' ∧
    (5 ≤ (List.replicate 5 FirmAct.gprs).count .gprs →
      f'.gprs.loc ∈ [GprsLoc.start, .halted, .waitLink] ∨
        f.gprs.loc = .done) := by
  obtain ⟨f, hr, hf⟩ := exists_reach firmware Sound firmGiveUp
    (fun f => .taskEnd ∈ f.client.log ∧ .cb .errNone ∈ f.client.log ∧
      (firmware.run Sound f (List.replicate 5 .gprs)).any
        (·.gprs.loc = .waitLink) = true) (by decide +kernel)
  obtain ⟨hend, hup, hf⟩ := of_decide_eq_true hf
  obtain ⟨f', hrun, hloc⟩ := (Option.any_eq_true _ _).mp hf
  exact ⟨f, f', hr, hup, of_decide_eq_true hloc, firmware_down hr hend hrun⟩

end ShZ001.App
