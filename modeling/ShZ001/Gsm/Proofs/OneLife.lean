/-
The client in the hands of one caller, who calls `ppposInit` once and
does nothing else with it.

# One life

Then the task has one life: nobody asks it to hang up, so it never parks
and never ends but by giving up, and nobody starts it again. The status
is `FIRSTINIT` at the status test (line 585) of the first pass only, so
one block is made. This is how the firmware uses the library (`App/`).

# Stages

`OneLife` says so location by location: `Loc.stage` is how far the life
has come, from the first step over the making of the block to the data
loop, and the locations behind a disconnect request have no stage. One
step of the task goes from one stage to the next (`stage_task`).

# The callback

What `ppp_status_cb` does to the status matters at the test. `Owned`
takes from lwIP that it is called for a block that exists; before the
block is made, and after it has been freed, there is then nothing it can
do. Of the task the condition asks nothing here, since it holds by
itself (`oneLife_owned`).
-/
import ShZ001.Gsm.Proofs.Block
import ShZ001.Gsm.Proofs.Restart

namespace ShZ001.Gsm

open Lib Machine

-- ============================================================= the locations

/-- No task has run. -/
structure Unborn (s : Sys) : Prop where
  started : .taskStart ∉ s.log
  ended : .taskEnd ∉ s.log
  blocks : s.nextBlock = 0

/-- One does. -/
structure Born (s : Sys) : Prop where
  started : s.log.count .taskStart = 1
  ended : .taskEnd ∉ s.log

/-- It has ended, and left nothing to the next one. -/
structure Over (s : Sys) : Prop where
  started : s.log.count .taskStart = 1
  ended : .taskEnd ∈ s.log
  blocks : s.nextBlock ≤ 1
  status : s.gsmStatus = .firstInit
  freed : Freed s s.log

/-- The block has been made, and the status shows it. -/
def Made (s : Sys) : Prop := s.nextBlock = 1 ∧ s.gsmStatus ≠ .firstInit

/-- The status test will find out whether a block has been made. -/
def Testable (s : Sys) : Prop :=
  s.nextBlock = 0 ∧ s.gsmStatus = .firstInit ∨ Made s

/-- How far the only life has come. Nothing leads to the locations behind a
disconnect request. -/
def Loc.stage (s : Sys) : Loc → Prop
  | .setup _ => s.nextBlock = 0
  | .off .boot _ _ _ => s.nextBlock = 0
  | .reset => s.nextBlock = 0
  | .cmd _ _ => Testable s
  | .cmdWait _ _ => Testable s
  | .statusTest => Testable s
  | .create => s.nextBlock = 0
  | .setDefault => s.nextBlock = 1
  | .setAuth => s.nextBlock = 1
  | .markIdle => s.nextBlock = 1
  | .connect => Made s
  | .loopHead => Made s
  | .read none => Made s
  | .input none _ => Made s
  | .count none _ => Made s
  | .redialClose => Made s
  | .redial => Made s
  | .exit => s.nextBlock ≤ 1
  | .exitFlag => s.nextBlock ≤ 1 ∧ Freed s s.log
  | _ => False

def Loc.single (s : Sys) : Loc → Prop
  | .dead => Unborn s ∨ Over s
  | .start => Unborn s
  | l => Born s ∧ l.stage s

/-- The invariant. -/
structure OneLife (s : Sys) : Prop where
  life : Life s
  block : BlockInv s
  request : s.doPpposConnect = 1
  task : s.task.single s
  create : s.initCall = .create → Unborn s
  connected : s.gsmStatus = .connected → .cb .errNone ∈ s.log

theorem single_of_stage {s : Sys} {l : Loc} (hborn : Born s)
    (h : l.stage s) : l.single s := by
  cases l with
  | dead => cases h
  | start => cases h
  | _ => exact ⟨hborn, h⟩

theorem stage_of_single {s : Sys} {l : Loc} (h : l.single s)
    (hdead : l ≠ .dead) (hstart : l ≠ .start) : Born s ∧ l.stage s := by
  cases l with
  | dead => exact absurd rfl hdead
  | start => exact absurd rfl hstart
  | _ => exact h

/-- Of the two cases of the test neither makes a second block. -/
theorem Testable.le {s : Sys} (h : Testable s) : s.nextBlock ≤ 1 := by
  rcases h with ⟨h0, -⟩ | ⟨h1, -⟩ <;> omega

-- ================================================================== the task

/-- What the task logs between its first and its last step. -/
theorem taskStep_log {i : TaskIn} {s s' : Sys}
    (h : taskStep i s = some s') (hstart : s.task ≠ .start)
    (hend : s.task ≠ .exitFlag) :
    s'.log = s.log ∨
      ∃ e, e ≠ .taskStart ∧ e ≠ .taskEnd ∧ s'.log = e :: s.log := by
  unfold taskStep offTail at h
  repeat' split at h
  all_goals cases h
  all_goals first
    | exact absurd ‹s.task = .start› hstart
    | exact absurd ‹s.task = .exitFlag› hend
    | exact .inl rfl
    | exact .inr ⟨_, by simp, by simp, rfl⟩

/-- An entry that is neither the start nor the end keeps the life as it is.
-/
theorem Born.step {s s' : Sys} (h : Born s)
    (hlog : s'.log = s.log ∨
      ∃ e, e ≠ .taskStart ∧ e ≠ .taskEnd ∧ s'.log = e :: s.log) :
    Born s' := by
  obtain ⟨hcount, hno⟩ := h
  rcases hlog with hlog | ⟨e, hstart, hend, hlog⟩
  · exact ⟨by rwa [hlog], by rwa [hlog]⟩
  · refine ⟨?_, ?_⟩
    · rw [hlog, List.count_cons_of_ne hstart, hcount]
    · rw [hlog, List.mem_cons, not_or]
      exact ⟨hend.symm, hno⟩

/-- `_disconnect` at the start-up makes no block. -/
theorem stage_offTail {s : Sys} {rfOff : Bool} (h : s.nextBlock = 0) :
    (offTail .boot rfOff s).task.stage (offTail .boot rfOff s) := by
  unfold offTail
  split <;> exact h

/-- The stages follow each other. -/
theorem stage_task {i : TaskIn} {s s' : Sys}
    (hreq : s.doPpposConnect = 1) (hstart : s.task ≠ .start)
    (hend : s.task ≠ .exitFlag) (hstage : s.task.stage s)
    (h : taskStep i s = some s') : s'.task.stage s' := by
  have hfreed : s'.task = .exitFlag → Freed s' s'.log := exitFlag_freed h
  unfold taskStep at h
  split at h
  case h_1 ht => exact absurd ht hstart
  case h_2 k ht =>
      rw [ht] at hstage
      cases h
      show s.nextBlock ≤ 1
      exact hstage.trans_le (Nat.zero_le 1)
  case h_3 k ht =>
      rw [ht] at hstage
      split at h <;> cases h <;> exact hstage
  -- `_disconnect`
  case h_4 ret rfOff c ht =>
      rw [ht] at hstage
      cases h
      cases ret <;> exact hstage
  case h_5 ret rfOff v ht | h_6 ret rfOff n v ht =>
      rw [ht] at hstage
      cases ret with
      | served endTask => cases hstage
      | boot =>
          split at h <;> cases h
          all_goals first
            | exact stage_offTail hstage
            | exact hstage
  case h_7 ret rfOff v ht =>
      rw [ht] at hstage
      cases h
      cases ret with
      | served endTask => cases hstage
      | boot => exact hstage
  case h_8 ht =>
      rw [ht] at hstage
      cases h
      exact .inl ⟨hstage, rfl⟩
  -- the initialisation loop
  case h_9 iter nfail ht =>
      rw [ht] at hstage
      split at h
      · split at h <;> cases h <;> exact hstage
      · cases h
        exact hstage
  case h_10 iter nfail v ht =>
      rw [ht] at hstage
      split at h <;> cases h
      · show Loc.stage _ (if _ then _ else _)
        split
        · exact hstage.le
        · exact hstage
      · exact hstage
  -- to the connection
  case h_11 ht =>
      rw [ht] at hstage
      cases h
      show Loc.stage _ (if _ then _ else _)
      split
      case isTrue hfirst =>
          rcases hstage with ⟨h0, -⟩ | ⟨-, hne⟩
          · exact h0
          · exact absurd hfirst hne
      case isFalse hne =>
          rcases hstage with ⟨-, hfirst⟩ | ⟨h1, -⟩
          · exact absurd hfirst hne
          · exact h1
  case h_12 ht =>
      rw [ht] at hstage
      cases h
      show s.nextBlock + 1 = 1
      rw [show s.nextBlock = 0 from hstage]
  case h_13 ht =>
      rw [ht] at hstage
      cases h
      show s.nextBlock ≤ 1
      exact hstage.trans_le (Nat.zero_le 1)
  case h_14 ht | h_15 ht | h_17 ht | h_27 ht =>
      rw [ht] at hstage
      cases h
      exact hstage
  case h_16 ht =>
      rw [ht] at hstage
      cases h
      exact ⟨hstage, nofun⟩
  -- the data loop: there is no request
  case h_18 ht =>
      rw [ht] at hstage
      split at h
      case isTrue hle => omega
      case isFalse =>
          split at h <;> cases h <;> exact hstage
  case h_19 d len ht =>
      rw [ht] at hstage
      cases d with
      | some endTask => cases hstage
      | none => split at h <;> cases h <;> exact hstage
  case h_20 d len ht | h_21 d len ht =>
      rw [ht] at hstage
      cases h
      cases d with
      | some endTask => cases hstage
      | none => exact hstage
  case h_22 e ht | h_23 e ht | h_24 e ht | h_25 e ht | h_26 ht =>
      rw [ht] at hstage
      cases hstage
  -- a dropped session, and the exit
  case h_28 ht =>
      rw [ht] at hstage
      cases h
      exact .inr ⟨hstage.1, nofun⟩
  case h_29 ht =>
      rw [ht] at hstage
      cases h
      exact ⟨hstage, hfreed rfl⟩
  case h_30 ht => exact absurd ht hend
  case h_31 => cases h

/-- The task connects nothing: only the status callback does. -/
theorem taskStep_connected {i : TaskIn} {s s' : Sys}
    (h : taskStep i s = some s') (hconn : s'.gsmStatus = .connected) :
    s.gsmStatus = .connected := by
  unfold taskStep offTail at h
  repeat' split at h
  all_goals cases h
  all_goals first
    | exact hconn
    | cases hconn

/-- Nothing in the code withdraws the request but the parties that are not
there. -/
theorem taskStep_request_one {i : TaskIn} {s s' : Sys}
    (h : taskStep i s = some s') (hreq : s.doPpposConnect = 1)
    (hstage : s.task.single s) : s'.doPpposConnect = 1 := by
  cases taskStep_request h with
  | keep _ _ hdo => exact hdo.trans hreq
  | take _ _ _ hdo => exact hdo
  | done hparks _ _ =>
      cases ht : s.task with
      | park e =>
          rw [ht] at hstage
          cases hstage.2
      | _ =>
          rw [ht] at hparks
          cases hparks
  | giveUp _ _ _ hdo => exact hdo.trans hreq
  | resume _ _ _ hdo => exact hdo.trans hreq

/-- No step of the task takes an entry back. -/
theorem taskStep_past {i : TaskIn} {s s' : Sys}
    (h : taskStep i s = some s') {e : Ev} (he : e ∈ s.log) : e ∈ s'.log := by
  have hf := taskStep_frame h
  by_cases hconn : s.task = .connect
  · rw [hf.dial hconn]
    exact List.mem_cons_of_mem _ he
  · rcases hf.quiet hconn with hlog | ⟨_, -, hlog⟩
    · rwa [hlog]
    · rw [hlog]
      exact List.mem_cons_of_mem _ he

/-- The first step begins the life, the last one ends it, and in between one
stage follows the other. -/
theorem single_task {i : TaskIn} {s s' : Sys} (hreq : s.doPpposConnect = 1)
    (hl : s.task.single s) (h : taskStep i s = some s') :
    s'.task.single s' := by
  by_cases hdead : s.task = .dead
  · simp [taskStep, hdead] at h
  by_cases hstart : s.task = .start
  · rw [hstart] at hl
    obtain ⟨hstarted, hended, hblocks⟩ := hl
    cases i <;> simp only [taskStep, hstart] at h <;> cases h
    refine ⟨⟨?_, ?_⟩, hblocks⟩
    · rw [List.count_cons_self, List.count_eq_zero.mpr hstarted]
    · rw [List.mem_cons, not_or]
      exact ⟨by simp, hended⟩
  by_cases hend : s.task = .exitFlag
  · rw [hend] at hl
    obtain ⟨⟨hstarted, -⟩, hblocks, hfreed⟩ := hl
    cases i <;> simp only [taskStep, hend] at h <;> cases h
    refine .inr ⟨?_, List.mem_cons_self, hblocks, rfl, ?_⟩
    · rw [List.count_cons_of_ne (by simp), hstarted]
    · exact fun hsome => List.mem_cons_of_mem _ (hfreed hsome)
  obtain ⟨hborn, hstage⟩ := stage_of_single hl hdead hstart
  exact single_of_stage (hborn.step (taskStep_log h hstart hend))
    (stage_task hreq hstart hend hstage h)

/-- The steps of the task keep the invariant, if the block they free
exists. -/
theorem oneLife_task {i : TaskIn} {s s' : Sys} (hi : OneLife s)
    (hok : Owned s (.task i)) (h : taskStep i s = some s') : OneLife s' := by
  refine ⟨life_step (a := .task i) hi.life h,
    blockInv_step (a := .task i) hi.block hok h,
    taskStep_request_one h hi.request hi.task,
    single_task hi.request hi.task h, ?_, ?_⟩
  · rw [(taskStep_frame h).initCall]
    intro hcreate
    have hdead := phase_dead (hi.life.create hcreate)
    simp [taskStep, hdead] at h
  · exact fun hconn =>
      taskStep_past h (hi.connected (taskStep_connected h hconn))

-- =========================================================== the other parties

/-- The callback sets the status while the block exists, and never back to
`FIRSTINIT`. -/
def Moved (s s' : Sys) : Prop :=
  s'.gsmStatus = s.gsmStatus ∨
    Live s.ppp s.log ∧ s'.gsmStatus ≠ .firstInit

/-- Only the callback writes the status beside the task. -/
theorem foreign_moved {a : Act} {s s' : Sys} (ha : a.isTask = false)
    (hok : Owned s a) (h : apply a s = some s') : Moved s s' := by
  cases a with
  | task i => cases ha
  | cb err =>
      obtain ⟨-, rfl⟩ := cb_cases h
      cases hh : err.isHandled with
      | false => exact .inl (pppStatusCb_unhandled hh _)
      | true =>
          refine .inr ⟨live_of_owns (hok hh), ?_⟩
          show pppStatusCb err s.gsmStatus ≠ .firstInit
          cases err with
          | errNone | errUser | errConnect => nofun
          | _ => cases hh
  | _ => exact .inl (bystander_frame rfl h).status

/-- Only the task makes blocks. -/
theorem foreign_blocks {a : Act} {s s' : Sys} (ha : a.isTask = false)
    (h : apply a s = some s') : s'.nextBlock = s.nextBlock := by
  cases a with
  | task i => cases ha
  | cb err =>
      obtain ⟨-, rfl⟩ := cb_cases h
      rfl
  | _ => exact (bystander_frame rfl h).nextBlock

/-- What no other party does. -/
structure Aside (s s' : Sys) : Prop where
  blocks : s'.nextBlock = s.nextBlock
  ppp : s'.ppp = s.ppp
  log : ∃ es, s'.log = es ++ s.log ∧ ∀ e ∈ es, e.isTask = false
  moved : Moved s s'

theorem foreign_aside {a : Act} {s s' : Sys} (ha : a.isTask = false)
    (hok : Owned s a) (h : apply a s = some s') : Aside s s' :=
  ⟨foreign_blocks ha h, foreign_ppp ha h, foreign_log ha h,
    foreign_moved ha hok h⟩

/-- The other parties log nothing about the task. -/
theorem Aside.count {s s' : Sys} (h : Aside s s') {e : Ev}
    (he : e.isTask = true) : s'.log.count e = s.log.count e := by
  obtain ⟨es, hlog, hes⟩ := h.log
  have hno : e ∉ es := fun hmem => by simp [hes e hmem] at he
  rw [hlog, List.count_append, List.count_eq_zero.mpr hno, Nat.zero_add]

theorem Aside.mem {s s' : Sys} (h : Aside s s') {e : Ev}
    (he : e.isTask = true) : e ∈ s'.log ↔ e ∈ s.log := by
  rw [← List.count_pos_iff, ← List.count_pos_iff, h.count he]

theorem Unborn.aside {s s' : Sys} (hu : Unborn s) (h : Aside s s') :
    Unborn s' :=
  ⟨by rw [h.mem rfl]; exact hu.started, by rw [h.mem rfl]; exact hu.ended,
    h.blocks.trans hu.blocks⟩

/-- The block of a task that is over has been freed, so that the callback
has nothing to say. -/
theorem Over.aside {s s' : Sys} (ho : Over s) (h : Aside s s') :
    Over s' := by
  refine ⟨(h.count rfl).trans ho.started, (h.mem rfl).mpr ho.ended,
    h.blocks.le.trans ho.blocks, ?_, ?_⟩
  · rcases h.moved with hst | ⟨⟨b, hp, -, hnot⟩, -⟩
    · exact hst.trans ho.status
    · have hfreed := ho.freed (by rw [hp]; rfl)
      rw [hp] at hfreed
      exact absurd hfreed hnot
  · intro hsome
    rw [h.ppp] at hsome ⊢
    exact (h.mem rfl).mpr (ho.freed hsome)

theorem Made.aside {s s' : Sys} (hm : Made s) (h : Aside s s') :
    Made s' := by
  refine ⟨h.blocks.trans hm.1, ?_⟩
  rcases h.moved with hst | ⟨-, hne⟩
  · rw [hst]
    exact hm.2
  · exact hne

/-- Before the block is made the callback has nothing to say either. -/
theorem Testable.aside {s s' : Sys} (hi : BlockInv s) (ht : Testable s)
    (h : Aside s s') : Testable s' := by
  rcases ht with ⟨h0, hst⟩ | hm
  · rcases h.moved with hsame | ⟨⟨b, hp, -⟩, -⟩
    · exact .inl ⟨h.blocks.trans h0, hsame.trans hst⟩
    · have := (hi.known b hp).1
      omega
  · exact .inr (hm.aside h)

theorem stage_aside {s s' : Sys} (hi : BlockInv s) {l : Loc}
    (hl : l.stage s) (h : Aside s s') : l.stage s' := by
  have hzero : s.nextBlock = 0 → s'.nextBlock = 0 := h.blocks.trans
  have hone : s.nextBlock = 1 → s'.nextBlock = 1 := h.blocks.trans
  have hle : s.nextBlock ≤ 1 → s'.nextBlock ≤ 1 := h.blocks.le.trans
  cases l with
  | setup | reset | create => exact hzero hl
  | off ret rfOff c inside =>
      cases ret with
      | boot => exact hzero hl
      | served endTask => cases hl
  | cmd | cmdWait | statusTest => exact Testable.aside hi hl h
  | setDefault | setAuth | markIdle => exact hone hl
  | connect | loopHead | redialClose | redial => exact Made.aside hl h
  | read d | input d | count d =>
      cases d with
      | none => exact Made.aside hl h
      | some endTask => cases hl
  | exit => exact hle hl
  | exitFlag =>
      refine ⟨hle hl.1, fun hsome => ?_⟩
      rw [h.ppp] at hsome ⊢
      exact (h.mem rfl).mpr (hl.2 hsome)
  | _ => cases hl

theorem single_aside {s s' : Sys} (hi : BlockInv s) {l : Loc}
    (hl : l.single s) (h : Aside s s') : l.single s' := by
  by_cases hdead : l = .dead
  · subst hdead
    exact hl.imp (·.aside h) (·.aside h)
  by_cases hstart : l = .start
  · subst hstart
    exact Unborn.aside hl h
  obtain ⟨⟨hcount, hno⟩, hstage⟩ := stage_of_single hl hdead hstart
  refine single_of_stage ⟨(h.count rfl).trans hcount, ?_⟩
    (stage_aside hi hstage h)
  rwa [h.mem rfl]

/-- Another party's step, given what it does to the request and whether it
is about to make the task. -/
theorem oneLife_foreign {a : Act} {s s' : Sys} (hi : OneLife s)
    (ha : a.isTask = false) (hok : Owned s a) (h : apply a s = some s')
    (hreq : s'.doPpposConnect = 1)
    (hcreate : s'.initCall = .create → Unborn s) : OneLife s' := by
  have haside := foreign_aside ha hok h
  refine ⟨life_step hi.life h, blockInv_step hi.block hok h, hreq, ?_,
    fun hc => (hcreate hc).aside haside, ?_⟩
  · rcases foreign_task ha h with htask | ⟨hc, htask⟩
    · rw [htask]
      exact single_aside hi.block hi.task haside
    · rw [htask]
      exact (hi.create hc).aside haside
  · intro hconn
    obtain ⟨es, hes⟩ := foreign_reports ha h
    rw [hes.log]
    rcases hes.connected hconn with hc | hc
    · exact List.mem_append_right _ (hi.connected hc)
    · exact List.mem_append_left _ hc

/-- `ppposInit` is called while no task has run. -/
theorem oneLife_init {i : InitIn} {s s' : Sys} (hi : OneLife s)
    (honce : i = .call → Unborn s) (h : initStep i s = some s') :
    OneLife s' := by
  refine oneLife_foreign (a := .init i) hi rfl trivial h ?_ ?_
  · have hreq := hi.request
    unfold initStep at h
    repeat' split at h
    all_goals cases h
    all_goals first
      | rfl
      | exact hreq
  · intro hc
    cases hcall : s.initCall with
    | create => exact hi.create hcall
    | outside =>
        cases i with
        | call => exact honce rfl
        | _ => simp [initStep, hcall] at h
    | startWait made =>
        cases i <;> simp only [initStep, hcall] at h <;> cases h
        split at hc <;> cases hc
    | upWait =>
        cases i <;> simp only [initStep, hcall] at h
        all_goals repeat' split at h
        all_goals cases h
        all_goals simp_all

/-- A step that has no part in the request. -/
theorem oneLife_callback {a : Act} {s s' : Sys} (hi : OneLife s)
    (ha : a.isTask = false) (hok : Owned s a) (h : apply a s = some s')
    (hhand : a.isHandshake = false) : OneLife s' := by
  have hf := outsider_frame hhand h
  refine oneLife_foreign hi ha hok h (hf.request.trans hi.request) ?_
  rw [hf.initCall]
  exact hi.create

/-- Nothing is freed that has been freed: where the task gives up, the
pointer is null or to the block that exists. -/
theorem oneLife_owned {s : Sys} (hi : OneLife s) (i : TaskIn) :
    Owned s (.task i) := by
  have hnone : s.nextBlock = 0 → s.stale = false := by
    intro h0
    cases hp : s.ppp with
    | none => simp [Sys.stale, hp]
    | some b =>
        have := (hi.block.known b hp).1
        omega
  have hlive : Live s.ppp s.log → s.stale = false := by
    intro h
    obtain ⟨b, hp, -, hnot⟩ := h
    simp [Sys.stale, hp, hnot]
  intro hfail hne
  have hsingle := hi.task
  have hholds := hi.block.loc
  unfold failureExit at hfail
  split at hfail
  case h_1 k ht =>
      rw [ht] at hsingle
      exact hnone hsingle.2
  case h_2 ht => exact absurd ht hne
  case h_3 iter nfail v ht =>
      rw [ht] at hsingle hholds
      rcases hsingle.2 with ⟨h0, -⟩ | ⟨-, hst⟩
      · exact hnone h0
      · exact hlive (hholds.resolve_right hst)
  case h_4 => cases hfail

theorem oneLife_boot : OneLife Sys.boot :=
  ⟨life_boot, blockInv_boot, rfl, .inl ⟨nofun, nofun, rfl⟩, nofun, nofun⟩

-- ============================================================ what it comes to

theorem Unborn.started_le {s : Sys} (h : Unborn s) :
    s.log.count .taskStart ≤ 1 := by
  rw [List.count_eq_zero.mpr h.started]
  exact Nat.zero_le 1

theorem OneLife.started_le {s : Sys} (h : OneLife s) :
    s.log.count .taskStart ≤ 1 := by
  have hsingle := h.task
  cases ht : s.task with
  | dead =>
      rw [ht] at hsingle
      exact hsingle.elim (·.started_le) (·.started.le)
  | start =>
      rw [ht] at hsingle
      exact Unborn.started_le hsingle
  | _ =>
      rw [ht] at hsingle
      exact hsingle.1.started.le

/-- The stages know how many blocks there are, and lead to no request. -/
theorem stage_law {s : Sys} {l : Loc} (h : l.stage s) :
    s.nextBlock ≤ 1 ∧ l.phase.stand ≠ .serving ∧ l ≠ .parked := by
  have hzero : s.nextBlock = 0 → s.nextBlock ≤ 1 := by omega
  cases l with
  | setup | reset | create => exact ⟨hzero h, nofun, nofun⟩
  | off ret rfOff c inside =>
      cases ret with
      | boot => exact ⟨hzero h, nofun, nofun⟩
      | served endTask => cases h
  | cmd | cmdWait | statusTest => exact ⟨Testable.le h, nofun, nofun⟩
  | setDefault | setAuth | markIdle => exact ⟨Nat.le_of_eq h, nofun, nofun⟩
  | connect | loopHead | redialClose | redial =>
      exact ⟨Nat.le_of_eq h.1, nofun, nofun⟩
  | read d | input d | count d =>
      cases d with
      | none => exact ⟨Nat.le_of_eq h.1, nofun, nofun⟩
      | some endTask => cases h
  | exit => exact ⟨h, nofun, nofun⟩
  | exitFlag => exact ⟨h.1, nofun, nofun⟩
  | _ => cases h

/-- There is one block at most, and no request is served. -/
theorem OneLife.law {s : Sys} (h : OneLife s) :
    s.nextBlock ≤ 1 ∧ s.task.phase.stand ≠ .serving ∧ s.task ≠ .parked := by
  have hsingle := h.task
  by_cases hdead : s.task = .dead
  · rw [hdead] at hsingle ⊢
    refine ⟨?_, nofun, nofun⟩
    exact hsingle.elim (fun hu => by rw [hu.blocks]; exact Nat.zero_le 1)
      (·.blocks)
  by_cases hstart : s.task = .start
  · rw [hstart] at hsingle ⊢
    refine ⟨?_, nofun, nofun⟩
    rw [Unborn.blocks hsingle]
    exact Nat.zero_le 1
  exact stage_law (stage_of_single hsingle hdead hstart).2

/-- A task that has logged its end is over. -/
theorem OneLife.over {s : Sys} (h : OneLife s) (hend : .taskEnd ∈ s.log) :
    s.task = .dead ∧ Over s := by
  have hsingle := h.task
  by_cases hdead : s.task = .dead
  · rw [hdead] at hsingle
    exact ⟨hdead, hsingle.resolve_left fun hu => hu.ended hend⟩
  by_cases hstart : s.task = .start
  · rw [hstart] at hsingle
    exact absurd hend (Unborn.ended hsingle)
  exact absurd hend (stage_of_single hsingle hdead hstart).1.ended

end ShZ001.Gsm
