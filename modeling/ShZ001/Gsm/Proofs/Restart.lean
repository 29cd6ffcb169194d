/-
The UART driver over the lives of the client task (libGSM.c 487–717).

# The driver

The last set-up call of a life installs the driver (line 520), and no
line of the code deletes it. `uart_driver_install` is not part of the
repository; it refuses a port that has a driver, and `Refuses` is that
as a condition on the step. The observer `driven` keeps whose the driver
is. No step reads it, so that what is said of the observed runs is said
of the system's (`Lib/Observe.lean`).

# The lives

So the first life that gets past its set-up is the last one to do so:
every later life takes the exit of line 520, where it frees the control
block of that first life once more. `Lives` is the invariant. While no
driver is there, or the life that has it goes on, it says little; once
that life is over it says what all later ones have in common: their
locations are those of the set-up and the exit, and what they log is
barren, frees of the old block apart.

# The law

`restart_futile` reads it off: no byte to the modem, no block, no dial.
`ppposInit` can report a connection to its caller all the same, if the
status callback makes one up, because it looks at the status only.
-/
import ShZ001.Lib.Observe
import ShZ001.Gsm.Link

namespace ShZ001.Gsm

open Lib Machine

-- ================================================================ the driver

/-- Nobody has installed the driver; the life that is running has; one has
that ended, when the log was `before`. -/
inductive Driver
  | absent
  | owned
  | orphaned (before : List Ev)
  deriving DecidableEq

/-- The task gets past line 520. -/
def installs (s : Sys) : Act → Bool
  | .task .go =>
      match s.task with
      | .setup k => decide (setupCalls ≤ k + 1)
      | _ => false
  | _ => false

def driverStep (s : Sys) (a : Act) (s' : Sys) : Driver → Driver
  | .absent => if installs s a then .owned else .absent
  | .owned => if s'.task = .dead then .orphaned s'.log else .owned
  | .orphaned before => .orphaned before

/-- The system, with the driver watched. -/
def driven : Machine (Sys × Driver) Act := client.observe .absent driverStep

/-- A port that has a driver gets no other. -/
def Refuses (p : Sys × Driver) (a : Act) : Prop :=
  installs p.1 a = true → p.2 = .absent

instance (p : Sys × Driver) (a : Act) : Decidable (Refuses p a) :=
  inferInstanceAs (Decidable (_ → _))

-- ================================================================ the lives

/-- What the task logs in a life that does not get past line 520; the other
parties may log what they like. -/
def Ev.isBarren : Ev → Bool
  | .taskStart => true
  | .taskEnd => true
  | .pcb .free _ => true
  | e => !e.isTask

theorem isBarren_foreign {e : Ev} (h : e.isTask = false) :
    e.isBarren = true := by
  cases e <;> first | rfl | cases h

/-- The places of such a life. -/
def Loc.isFutile : Loc → Bool
  | .dead => true
  | .start => true
  | .setup k => decide (k < setupCalls)
  | .exit => true
  | .exitFlag => true
  | _ => false

/-- What has been logged since a life that installed the driver ended. -/
structure Aftermath (s : Sys) (later before : List Ev) : Prop where
  log : s.log = later ++ before
  barren : ∀ e ∈ later, e.isBarren = true
  freed : ∀ b, .pcb .free b ∈ later → .pcb .free b ∈ before
  connected : s.gsmStatus = .connected → .cb .errNone ∈ later
  reported : .initRet 1 ∈ later → .cb .errNone ∈ later

/-- A free of the block is on record when the exit has been passed. -/
def Freed (s : Sys) (log : List Ev) : Prop :=
  s.ppp.isSome → .pcb .free s.ppp ∈ log

/-- The invariant. -/
def Lives : Sys × Driver → Prop
  | (_, .absent) => True
  | (s, .owned) => s.task ≠ .dead ∧ (s.task = .exitFlag → Freed s s.log)
  | (s, .orphaned before) =>
      s.task.isFutile = true ∧ Freed s before ∧
        ∃ later, Aftermath s later before

-- ================================================================= one step

/-- A step that logs barren entries only, and neither connects nor
reports. -/
theorem Aftermath.step {s s' : Sys} {later before : List Ev}
    (h : Aftermath s later before) {es : List Ev} (hlog : s'.log = es ++ s.log)
    (hbarren : ∀ e ∈ es, e.isBarren = true)
    (hfreed : ∀ b, .pcb .free b ∈ es → .pcb .free b ∈ before)
    (hconnected : s'.gsmStatus = .connected →
      s.gsmStatus = .connected ∨ .cb .errNone ∈ es)
    (hreported : .initRet 1 ∈ es → s.gsmStatus = .connected) :
    Aftermath s' (es ++ later) before := by
  have hcb : ∀ e, e ∈ later → e ∈ es ++ later :=
    fun _ => List.mem_append_right _
  constructor
  · rw [hlog, h.log, List.append_assoc]
  · exact List.forall_mem_append.mpr ⟨hbarren, h.barren⟩
  · intro b hb
    exact (List.mem_append.mp hb).elim (hfreed b) (h.freed b)
  · intro hc
    rcases hconnected hc with hc | hc
    · exact hcb _ (h.connected hc)
    · exact List.mem_append_left _ hc
  · intro hr
    rcases List.mem_append.mp hr with hr | hr
    · exact hcb _ (h.connected (hreported hr))
    · exact hcb _ (h.reported hr)

/-- What the other parties log: no connection is reported without one, and
none is made but in the status callback. -/
structure ForeignLog (s s' : Sys) (es : List Ev) : Prop where
  log : s'.log = es ++ s.log
  foreign : ∀ e ∈ es, e.isTask = false
  connected : s'.gsmStatus = .connected →
    s.gsmStatus = .connected ∨ .cb .errNone ∈ es
  reported : .initRet 1 ∈ es → s.gsmStatus = .connected

/-- Each of the other parties logs entries of this kind only. -/
theorem foreign_reports {a : Act} {s s' : Sys} (ha : a.isTask = false)
    (h : apply a s = some s') : ∃ es, ForeignLog s s' es := by
  have hnone : s'.log = s.log → s'.gsmStatus = s.gsmStatus →
      ∃ es, ForeignLog s s' es :=
    fun hl hs => ⟨[], hl, nofun, fun hc => .inl (hs ▸ hc), nofun⟩
  have hone : ∀ e : Ev, s'.log = e :: s.log →
      s'.gsmStatus = s.gsmStatus → e.isTask = false →
      (e = .initRet 1 → s.gsmStatus = .connected) →
      ∃ es, ForeignLog s s' es :=
    fun e hl hs he hr => ⟨[e], hl, List.forall_mem_singleton.mpr he,
      fun hc => .inl (hs ▸ hc), fun h => hr (List.mem_singleton.mp h).symm⟩
  -- all but the return of `ppposInit`
  have hmute : ∀ e : Ev, s'.log = e :: s.log →
      s'.gsmStatus = s.gsmStatus → e.isTask = false → e ≠ .initRet 1 →
      ∃ es, ForeignLog s s' es :=
    fun e hl hs he hne => hone e hl hs he fun h => absurd h hne
  cases a with
  | task i => cases ha
  | cb err =>
      obtain ⟨-, rfl⟩ := cb_cases h
      refine ⟨[.cb err], rfl, List.forall_mem_singleton.mpr rfl, ?_, ?_⟩
      · intro hc
        cases err with
        | errNone => exact .inr List.mem_cons_self
        | errUser | errConnect => cases hc
        | _ => exact .inl hc
      · intro hr
        cases List.mem_singleton.mp hr
  | out ret =>
      obtain ⟨-, rfl⟩ := out_cases h
      exact hmute _ rfl rfl rfl (by simp)
  | outCount =>
      obtain ⟨_, -, rfl⟩ := outCount_cases h
      exact hnone rfl rfl
  | init i =>
      simp only [apply, initStep] at h
      repeat' split at h
      all_goals cases h
      all_goals first
        | exact hnone rfl rfl
        | exact hone _ rfl rfl rfl fun _ => ‹_›
        | exact hmute _ rfl rfl rfl (by simp)
  | disc i =>
      simp only [apply, discStep] at h
      repeat' split at h
      all_goals cases h
      all_goals first
        | exact hnone rfl rfl
        | exact hmute _ rfl rfl rfl (by simp)
        | exact ⟨[.discRet, .discStart], rfl, by simp [Ev.isTask],
            fun hc => .inl hc, by simp⟩
  | modem n i =>
      simp only [apply, atStep] at h
      repeat' split at h
      all_goals cases h
      all_goals first
        | exact hnone rfl rfl
        | exact hmute _ rfl rfl rfl (by simp)
  | getCounts rst =>
      obtain rfl := getCounts_cases h
      exact hmute _ rfl rfl rfl (by simp)
  | resetCounts =>
      obtain rfl := resetCounts_cases h
      exact hmute _ rfl rfl rfl (by simp)

/-- The task, without the driver. -/
structure FutileStep (s s' : Sys) (es : List Ev) : Prop where
  task : s'.task.isFutile = true
  ppp : s'.ppp = s.ppp
  log : s'.log = es ++ s.log
  barren : ∀ e ∈ es, e.isBarren = true
  freed : ∀ b, .pcb .free b ∈ es → s.ppp.isSome ∧ b = s.ppp
  connected : s'.gsmStatus = .connected → s.gsmStatus = .connected
  reported : .initRet 1 ∉ es

/-- By cases on the set-up and the exit, the only places there are. -/
theorem futile_task {i : TaskIn} {s s' : Sys}
    (hloc : s.task.isFutile = true) (hno : installs s (.task i) = false)
    (h : taskStep i s = some s') : ∃ es, FutileStep s s' es := by
  cases ht : s.task with
  | dead => simp [taskStep, ht] at h
  | start =>
      cases i <;> simp only [taskStep, ht] at h <;> cases h
      exact ⟨[.taskStart], rfl, rfl, rfl, by simp [Ev.isBarren], by simp,
        id, by simp⟩
  | setup k =>
      cases i with
      | go =>
          have hk : k + 1 < setupCalls := by
            simpa [installs, ht] using hno
          simp only [taskStep, ht] at h
          rw [if_pos hk] at h
          cases h
          exact ⟨[], decide_eq_true hk, rfl, rfl, nofun, nofun, id, nofun⟩
      | fail =>
          simp only [taskStep, ht] at h
          cases h
          exact ⟨[], rfl, rfl, rfl, nofun, nofun, id, nofun⟩
      | verdict v => simp [taskStep, ht] at h
      | read len => simp [taskStep, ht] at h
  | exit =>
      cases i <;> simp only [taskStep, ht] at h <;> cases h
      by_cases hppp : s.ppp.isSome = true
      · refine ⟨[.pcb .free s.ppp], rfl, rfl, if_pos hppp,
          by simp [Ev.isBarren], fun b hb => ⟨hppp, ?_⟩, id, by simp⟩
        simpa using hb
      · exact ⟨[], rfl, rfl, if_neg hppp, nofun, nofun, id, nofun⟩
  | exitFlag =>
      cases i <;> simp only [taskStep, ht] at h <;> cases h
      exact ⟨[.taskEnd], rfl, rfl, rfl, by simp [Ev.isBarren], by simp,
        nofun, by simp⟩
  | _ =>
      rw [ht] at hloc
      cases hloc

/-- Only line 707 leads to the last step of the task, and only that step
ends its life. -/
theorem exitFlag_freed {i : TaskIn} {s s' : Sys}
    (h : taskStep i s = some s') (hloc : s'.task = .exitFlag) :
    Freed s' s'.log := by
  have hret : ∀ ret : OffRet, ret.loc ≠ .exitFlag := fun ret => by
    cases ret <;> nofun
  have hhead : ∀ d, recvHead d ≠ .exitFlag := fun d => by cases d <;> nofun
  intro hppp
  unfold taskStep offTail at h
  repeat' split at h
  all_goals cases h
  all_goals first
    | cases hloc
    | exact absurd hloc (hret _)
    | exact absurd hloc (hhead _)
  · exact List.mem_cons_self
  · exact absurd hppp ‹_›

/-- And it leaves the status at `FIRSTINIT`, as it was before the first
life. -/
theorem dead_exitFlag {i : TaskIn} {s s' : Sys}
    (h : taskStep i s = some s') (hloc : s'.task = .dead) :
    s.task = .exitFlag ∧ s'.ppp = s.ppp ∧ s'.gsmStatus = .firstInit ∧
      s'.log = .taskEnd :: s.log := by
  have hret : ∀ ret : OffRet, ret.loc ≠ .dead := fun ret => by
    cases ret <;> nofun
  have hhead : ∀ d, recvHead d ≠ .dead := fun d => by cases d <;> nofun
  unfold taskStep offTail at h
  repeat' split at h
  all_goals cases h
  all_goals first
    | cases hloc
    | exact absurd hloc (hret _)
    | exact absurd hloc (hhead _)
  exact ⟨‹_›, rfl, rfl, rfl⟩

theorem installs_task {a : Act} {s s' : Sys} (hin : installs s a = true)
    (h : apply a s = some s') : s'.task = .off .boot true .probe false := by
  unfold installs at hin
  split at hin
  case h_2 => cases hin
  split at hin
  case h_2 => cases hin
  case h_1 k ht =>
      have hk : ¬ k + 1 < setupCalls := by simpa using hin
      simp only [apply, taskStep, ht] at h
      rw [if_neg hk] at h
      cases h
      rfl

/-- Nobody but the task writes the pointer. -/
theorem foreign_ppp {a : Act} {s s' : Sys} (ha : a.isTask = false)
    (h : apply a s = some s') : s'.ppp = s.ppp := by
  cases a with
  | task i => cases ha
  | cb err =>
      obtain ⟨-, rfl⟩ := cb_cases h
      rfl
  | _ => exact (bystander_frame rfl h).ppp

/-- The life that has the driver goes on, or ends and leaves it behind. -/
theorem lives_owned {a : Act} {s s' : Sys} (hi : Lives (s, .owned))
    (h : apply a s = some s') :
    Lives (s', driverStep s a s' .owned) := by
  obtain ⟨hne, hfree⟩ := hi
  have hfree' : s'.task = .exitFlag → Freed s' s'.log := by
    intro hloc
    cases a with
    | task i => exact exitFlag_freed h hloc
    | _ =>
        obtain ⟨es, hlog, -⟩ := foreign_log rfl h
        have hppp := foreign_ppp rfl h
        rcases foreign_task rfl h with htask | ⟨-, htask⟩
        · intro hsome
          rw [hppp] at hsome ⊢
          rw [hlog]
          exact List.mem_append_right _ (hfree (htask ▸ hloc) hsome)
        · rw [htask] at hloc
          cases hloc
  simp only [driverStep]
  split
  case isFalse halive => exact ⟨halive, hfree'⟩
  case isTrue hdead =>
      refine ⟨by rw [hdead]; rfl, ?_, [], rfl, nofun, nofun, ?_, nofun⟩
      · cases a with
        | task i =>
            obtain ⟨hloc, hppp, -, hlog⟩ := dead_exitFlag h hdead
            intro hsome
            rw [hppp] at hsome ⊢
            rw [hlog]
            exact List.mem_cons_of_mem _ (hfree hloc hsome)
        | _ =>
            rcases foreign_task rfl h with htask | ⟨-, htask⟩
            · exact absurd (htask ▸ hdead) hne
            · rw [htask] at hdead
              cases hdead
      · intro hconnected
        cases a with
        | task i =>
            obtain ⟨-, -, hst, -⟩ := dead_exitFlag h hdead
            rw [hst] at hconnected
            cases hconnected
        | _ =>
            rcases foreign_task rfl h with htask | ⟨-, htask⟩
            · exact absurd (htask ▸ hdead) hne
            · rw [htask] at hdead
              cases hdead

/-- After it nothing comes of a life. -/
theorem lives_orphaned {a : Act} {s s' : Sys} {before : List Ev}
    (hi : Lives (s, .orphaned before)) (hno : installs s a = false)
    (h : apply a s = some s') : Lives (s', .orphaned before) := by
  obtain ⟨hloc, hfree, later, hafter⟩ := hi
  cases a with
  | task i =>
      obtain ⟨es, hstep⟩ := futile_task hloc hno h
      refine ⟨hstep.task, ?_, es ++ later, hafter.step hstep.log hstep.barren
        (fun b hb => ?_) (fun hc => .inl (hstep.connected hc))
        fun hr => absurd hr hstep.reported⟩
      · intro hsome
        rw [hstep.ppp] at hsome ⊢
        exact hfree hsome
      · obtain ⟨hsome, rfl⟩ := hstep.freed b hb
        exact hfree hsome
  | _ =>
      obtain ⟨es, hes⟩ := foreign_reports rfl h
      refine ⟨?_, ?_, es ++ later, hafter.step hes.log
        (fun e he => isBarren_foreign (hes.foreign e he)) (fun b hb => ?_)
        hes.connected hes.reported⟩
      · rcases foreign_task rfl h with htask | ⟨-, htask⟩
        · rwa [htask]
        · rw [htask]
          rfl
      · intro hsome
        rw [foreign_ppp rfl h] at hsome ⊢
        exact hfree hsome
      · cases hes.foreign _ hb

theorem lives_step {a : Act} {p p' : Sys × Driver} (hi : Lives p)
    (hok : Refuses p a) (h : driven.apply a p = some p') : Lives p' := by
  obtain ⟨s, d⟩ := p
  obtain ⟨s', d'⟩ := p'
  obtain ⟨happ, hd⟩ := observe_apply.mp h
  obtain rfl : d' = driverStep s a s' d := hd
  cases d with
  | absent =>
      simp only [driverStep]
      split
      case isFalse => trivial
      case isTrue hin =>
          have htask := installs_task hin happ
          exact ⟨by rw [htask]; nofun, by rw [htask]; nofun⟩
  | owned => exact lives_owned hi happ
  | orphaned before =>
      have hno : installs s a = false := by
        by_contra hin
        cases hok (by simpa using hin)
      exact lives_orphaned hi hno happ

-- ================================================================== the law

/-- Once a life that installed the driver has ended, no life does anything
with the modem or makes a block; what it frees is free already; and
`ppposInit` reports a connection only if the status callback makes one up. -/
theorem restart_futile {s : Sys} {before : List Ev}
    (h : driven.Reach Refuses (s, .orphaned before)) :
    ∃ later, s.log = later ++ before ∧
      (∀ e ∈ later, e.isBarren = true) ∧
      (∀ b, .pcb .free b ∈ later → .pcb .free b ∈ before) ∧
      (.initRet 1 ∈ later → .cb .errNone ∈ later) := by
  have hi : Lives (s, .orphaned before) := by
    have hboot : Lives driven.init := trivial
    refine h.invariant (I := Lives) hboot ?_
    exact fun _ _ _ hi hok happ => lives_step hi hok happ
  obtain ⟨-, -, later, hafter⟩ := hi
  exact ⟨later, hafter.log, hafter.barren, hafter.freed, hafter.reported⟩

/-- The link is taken down for good, and up again: the block is freed
twice. -/
theorem restart_futile_again : ∃ s before,
    driven.Reach Refuses (s, .orphaned before) ∧
      s.log.count (.pcb .free (some 0)) = 2 ∧
      ∃ later, s.log = later ++ before ∧
        (∀ e ∈ later, e.isBarren = true) ∧
        (∀ b, .pcb .free b ∈ later → .pcb .free b ∈ before) ∧
        (.initRet 1 ∈ later → .cb .errNone ∈ later) := by
  obtain ⟨p, hr, hp⟩ := exists_reach driven Refuses
    (bringUp ++ hangUp true ++ [.task .go, .task .go, .init .call,
      .init (.make true)] ++ List.replicate 7 (.task .go)
      ++ [.task .fail, .task .go, .task .go])
    (fun p => p.2 ≠ .absent ∧ p.2 ≠ .owned ∧
      p.1.log.count (.pcb .free (some 0)) = 2) (by decide +kernel)
  obtain ⟨habsent, howned, hcount⟩ := of_decide_eq_true hp
  obtain ⟨s, d⟩ := p
  cases d with
  | absent => exact absurd rfl habsent
  | owned => exact absurd rfl howned
  | orphaned before => exact ⟨s, before, hr, hcount, restart_futile hr⟩

end ShZ001.Gsm
