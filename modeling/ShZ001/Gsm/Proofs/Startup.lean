/-
The start-up wait of `ppposInit` (lines 737–742) and the task it waits
for: it polls a flag that the task raises in its first step and lowers in
its last.

# A level, sampled

The flag is a level. Seven set-up calls stand between its rise and the
first place where the task blocks, each with a way to the exit label, and
nothing makes the task wait there for the caller's poll. A task that
fails at once can therefore have come and gone between two polls, and the
caller waits for a rise that will not come again.

# When the wait is safe

`Seen` is about the order of two steps: a poll falls between the rise of
the flag and the task's last step. How far the task runs before that, and
which of its ways to the exit label it takes, does not matter. Runs that
keep this order meet the law, and any step against it breaks the law at
once (`startupLaw_of_seen`). A task that ends after the poll is reported:
`Life` says that the flag of an ended task is down, which is what the
second loop looks at.
-/
import ShZ001.Gsm.Handshake

namespace ShZ001.Gsm

open Lib Machine

/-- The start-up law. `ppposInit` is not waiting for the flag of a task
that has ended, and once past that wait it answers 0 at its first poll
after the task has ended. -/
structure StartupLaw (s : Sys) : Prop where
  noOrphan : s.initCall = .startWait true → s.task ≠ .dead
  reports : s.initCall = .upWait → s.task = .dead →
    ∀ s', initStep .poll s = some s' →
      s'.initCall = .outside ∧ s'.log = .initRet 0 :: s.log

/-- The first set-up call fails, and the task has come and gone before
the caller polls. -/
theorem startupLaw_fails : ∃ s, client.Reach anyStep s ∧ ¬ StartupLaw s := by
  obtain ⟨s, hr, hs⟩ := exists_reach client anyStep
    [.init .call, .init (.make true), .task .go, .task .fail, .task .go,
      .task .go]
    (fun s => s.initCall = .startWait true ∧ s.task = .dead) (by decide)
  obtain ⟨hwait, hdead⟩ := of_decide_eq_true hs
  exact ⟨s, hr, fun hlaw => hlaw.noOrphan hwait hdead⟩

/-- The task does not take its last step, which lowers the flag, before
`ppposInit` has seen the flag up. -/
def Seen (s : Sys) : Act → Prop
  | .task _ => s.initCall = .startWait true → s.task ≠ .exitFlag
  | _ => True

instance (s : Sys) : (a : Act) → Decidable (Seen s a)
  | .task _ =>
      inferInstanceAs (Decidable
        (s.initCall = .startWait true → s.task ≠ .exitFlag))
  | .cb _ | .init _ | .disc _ => isTrue trivial
  | .out _ | .outCount | .modem _ _ | .getCounts _ | .resetCounts =>
      isTrue trivial

/-- While the flag is waited for, the task has not ended. -/
def StartWaited (s : Sys) : Prop :=
  s.initCall = .startWait true → s.task.phase ≠ .dead

/-- The last step of the task is the one that lowers the flag. -/
private theorem exitFlag_of_die {i : TaskIn} {s s' : Sys}
    (hp : s.task.phase = .exiting) (hp' : s'.task.phase = .dead)
    (h : taskStep i s = some s') : s.task = .exitFlag := by
  rcases phase_exiting hp with hl | hl
  · cases i <;> simp only [taskStep, hl, reduceCtorEq] at h
    cases h
    cases hp'
  · exact hl

/-- A step of the task: of its moves only the last one ends it. -/
private theorem startWaited_task {i : TaskIn} {s s' : Sys}
    (hi : StartWaited s) (hok : Seen s (.task i))
    (h : taskStep i s = some s') : StartWaited s' := by
  intro hwait
  rw [(taskStep_frame h).initCall] at hwait
  cases taskStep_effect h with
  | stay hphase hne hsame =>
      rw [hphase]
      exact hi hwait
  | die hp hp' hst hdo hup =>
      exact absurd (exitFlag_of_die hp hp' h) (hok hwait)
  | park endTask hp hp' hst hdo hup =>
      rw [hp']
      split <;> nofun
  | bootFail hp hp' hsame hfail => simp [hp']
  | initFail hp hp' hsame hfail => simp [hp']
  | raise hp hp' hst hdo hup => simp [hp']
  | boot hp hp' hst hdo hup => simp [hp']
  | ready hp hp' hst hdo hup => simp [hp']
  | dial hp hp' hsame => simp [hp']
  | request hp hp' hreq hdo hst hup => simp [hp']
  | dropped hp hp' hst hsame => simp [hp']
  | redial hp hp' hst hdo hup => simp [hp']
  | drained endTask hp hp' hst hsame => simp [hp']
  | resume hp hp' hreq hsame => simp [hp']

/-- A step of `ppposInit`: it begins the wait by creating the task. -/
private theorem startWaited_init {i : InitIn} {s s' : Sys}
    (hi : StartWaited s) (h : initStep i s = some s') :
    StartWaited s' := by
  intro hwait
  cases initStep_effect h with
  | make made hloc hloc' hdo htask hsticky =>
      obtain rfl : made = true := by
        rw [hloc'] at hwait
        exact InitLoc.startWait.inj hwait
      rw [htask]
      nofun
  | wait made hloc hdown hloc' hsame =>
      rw [hsame.task]
      exact hi (by rw [hloc, ← hloc', hwait])
  | call hin hloc hloc' hdo htask hsticky =>
      rw [hloc'] at hwait
      split at hwait <;> cases hwait
  | abandon hloc hloc' hsame => simp [hloc'] at hwait
  | seen made hloc hup hloc' hsame => simp [hloc'] at hwait
  | poll hloc hloc' hsame =>
      rcases hloc' with hloc' | hloc' <;> simp [hloc'] at hwait

theorem startWaited_step {a : Act} {s s' : Sys} (hi : StartWaited s)
    (hok : Seen s a) (h : apply a s = some s') : StartWaited s' := by
  cases a with
  | task i => exact startWaited_task hi hok h
  | init i => exact startWaited_init hi h
  | disc i =>
      have hf := discStep_frame h
      unfold StartWaited
      rw [hf.task, hf.initCall]
      exact hi
  | _ =>
      have hf := outsider_frame rfl h
      unfold StartWaited
      rw [hf.task, hf.initCall]
      exact hi

/-- A poll after the end of the task answers 0: the flag is down. -/
private theorem reports_of_life {s s' : Sys} (hl : Life s)
    (hup : s.initCall = .upWait) (hdead : s.task = .dead)
    (h : initStep .poll s = some s') :
    s'.initCall = .outside ∧ s'.log = .initRet 0 :: s.log := by
  have hdown : s.ppposTaskStarted = false := by rw [hl.flag, hdead]; rfl
  simp only [initStep, hup, hdown, if_true] at h
  cases h
  exact ⟨rfl, rfl⟩

/-- A step against the order ends the task under a caller that waits for
its flag. -/
private theorem orphan_of_unseen {a : Act} {s s' : Sys}
    (hbad : ¬ Seen s a) (h : apply a s = some s') : ¬ StartupLaw s' := by
  cases a with
  | task i =>
      simp only [Seen, Classical.not_imp, not_not] at hbad
      obtain ⟨hwait, hlast⟩ := hbad
      intro hlaw
      have hwait' : s'.initCall = .startWait true :=
        (taskStep_frame h).initCall.trans hwait
      refine hlaw.noOrphan hwait' ?_
      cases i <;>
        simp only [apply, taskStep, hlast, reduceCtorEq] at h
      cases h
      rfl
  | _ => exact absurd trivial hbad

/-- No start-up wait is orphaned, and an ended task is reported, in the
runs in which `ppposInit` sees the flag up before the task's last step;
a last step before that orphans the wait. -/
theorem startupLaw_of_seen (s : Sys) :
    (client.Reach Seen s → StartupLaw s) ∧
    (∀ a s', ¬ Seen s a → client.apply a s = some s' →
      ¬ StartupLaw s') := by
  constructor
  · intro h
    have hw : StartWaited s :=
      h.invariant nofun fun _ _ _ => startWaited_step
    refine ⟨fun hwait hdead => ?_, fun hup hdead s' => ?_⟩
    · exact hw hwait (congrArg Loc.phase hdead)
    · exact reports_of_life (life_of_reach h) hup hdead
  · exact fun a s' hbad h => orphan_of_unseen hbad h

/-- A set-up call fails at once, `ppposInit` polls while the task is at
its exit label, and the task ends while `ppposInit` waits for the
connection. -/
theorem startupLaw_early_failure : ∃ s, client.Reach Seen s
    ∧ s.initCall = .upWait ∧ s.task = .dead ∧ StartupLaw s := by
  obtain ⟨s, hr, hs⟩ := exists_reach client Seen
    [.init .call, .init (.make true), .task .go, .task .fail,
      .task .go, .init .poll, .task .go]
    (fun s => s.initCall = .upWait ∧ s.task = .dead) (by decide)
  obtain ⟨hup, hdead⟩ := of_decide_eq_true hs
  exact ⟨s, hr, hup, hdead, (startupLaw_of_seen s).1 hr⟩

end ShZ001.Gsm
