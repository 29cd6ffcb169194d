/-
The access-point task (wifi_ap_task.c): a loop that waits for the enable
bit of an event group, starts the access point, waits for the disable
bit and stops it. Other tasks request either by setting a bit.

# The two bits are not treated alike

Both waits leave the bit they waited for standing (`xClearOnExit` is
`false`). The task clears the enable bit itself before it starts the
access point; nothing clears the disable bit. After the first stop it
stays set for ever, and from then on the second wait of every turn
returns at once.

# The law

`Served` says that every stop answers a disable request no earlier stop
has answered. The first cycle obeys it: before the first stop the
disable bit is up only if a request has set it, and that request is
unanswered. From the second cycle on the bit says nothing any more, and
what counts is whether the task is asked again before it passes its wait.
`AtWait` is that condition, read where the task leaves the wait for the
disable bit. Runs that keep it meet the law; any step against it can be
followed by a stop nobody asked for (`served_of_atWait`).

# The invariant

`BitInv` says what the disable bit records: that a request was ever made.
`ServeInv` adds to the law itself that a task about to stop has a request
pending. Between the wait and the stop other tasks can only add to what
is pending.
-/
import Mathlib.Logic.Function.Basic
import ShZ001.Lib.Machine
import ShZ001.Lib.History

namespace ShZ001.App

open Lib Machine

-- ========================================================= the event group

/-- The bits of `wifi_event_group` (sh_z_001.h 22–24). -/
inductive WifiBit
  | connected
  | apEnabled
  | apDisabled
  deriving DecidableEq, Repr

/-- An event group's bits. -/
abbrev EventBits := WifiBit → Bool

def xEventGroupSetBits (b : WifiBit) (g : EventBits) : EventBits :=
  Function.update g b true

def xEventGroupClearBits (b : WifiBit) (g : EventBits) : EventBits :=
  Function.update g b false

@[simp] theorem setBits_disabled (g : EventBits) :
    xEventGroupSetBits .apDisabled g .apDisabled = true := rfl

@[simp] theorem setBits_enabled (g : EventBits) :
    xEventGroupSetBits .apEnabled g .apDisabled = g .apDisabled := rfl

@[simp] theorem clearBits_enabled (g : EventBits) :
    xEventGroupClearBits .apEnabled g .apDisabled = g .apDisabled := rfl

-- ================================================================ the task

/-- Entries of the log: requests of other tasks, and the calls that
switch the access point. -/
inductive ApEv
  | enable
  | disable
  | wifiStart
  | wifiStop
  deriving DecidableEq, Repr

/-- Where the task stands. `setup k` is before the `k`-th of its set-up
calls, `aborted` the end of a failed one. -/
inductive ApLoc
  | create
  | setup (k : Nat)
  | raise
  | waitEnabled
  | clearEnabled
  | startAp
  | waitDisabled
  | stopAp
  | savePara
  | aborted
  deriving DecidableEq, Repr

/-- The task, its event group (which no other task has a handle to at
`create`) and the log, newest first. -/
structure Ap where
  loc : ApLoc
  group : EventBits
  log : List ApEv

def Ap.boot : Ap where
  loc := .create
  group := fun _ => false
  log := []

/-- The set-up calls under `ESP_ERROR_CHECK` (lines 135–151, 158–163):
the event loop, DHCP stop, static address, DHCP start, Wi-Fi
initialisation, storage, mode. -/
def apSetupCalls : Nat := 7

/-- One step of `wifi_ap_task` (lines 153–180); `ok` is the result of
the set-up call it makes. -/
def apTaskStep (ok : Bool) (s : Ap) : Option Ap :=
  match s.loc with
  -- 156–157: the new group has no bit set
  | .create =>
      some { s with
        group := xEventGroupClearBits .connected s.group
        loc := .setup 0 }
  -- 158–163: `ESP_ERROR_CHECK` aborts
  | .setup k =>
      if ok then
        some { s with
          loc := if k + 1 < apSetupCalls then .setup (k + 1) else .raise }
      else some { s with loc := .aborted }
  -- 164
  | .raise =>
      some { s with
        group := xEventGroupSetBits .apEnabled s.group
        loc := .waitEnabled }
  -- 166: waits, and leaves the bit set
  | .waitEnabled =>
      if s.group .apEnabled then some { s with loc := .clearEnabled }
      else none
  -- 168
  | .clearEnabled =>
      some { s with
        group := xEventGroupClearBits .apEnabled s.group
        loc := .startAp }
  -- 169: `start_wifi_ap` ends in `esp_wifi_start`
  | .startAp =>
      some { s with loc := .waitDisabled, log := .wifiStart :: s.log }
  -- 171: waits, and leaves the bit set
  | .waitDisabled =>
      if s.group .apDisabled then some { s with loc := .stopAp } else none
  -- 173
  | .stopAp =>
      some { s with loc := .savePara, log := .wifiStop :: s.log }
  -- 175: `save_para_to_nvs` is empty
  | .savePara => some { s with loc := .waitEnabled }
  | .aborted => none

/-- Another task sets a request bit. -/
def request (b : WifiBit) (e : ApEv) (s : Ap) : Option Ap :=
  if s.loc = .create then none
  else
    some { s with
      group := xEventGroupSetBits b s.group
      log := e :: s.log }

/-- `event_handler` on `SYSTEM_EVENT_AP_START` (lines 28–45); the other
events change nothing. -/
def apStarted (s : Ap) : Option Ap :=
  if s.loc = .create then none
  else some { s with group := xEventGroupSetBits .connected s.group }

/-- One step of one party. -/
inductive ApAct
  | task (ok : Bool)
  | enable
  | disable
  | started
  deriving DecidableEq, Repr

def apApply : ApAct → Ap → Option Ap
  | .task ok, s => apTaskStep ok s
  | .enable, s => request .apEnabled .enable s
  | .disable, s => request .apDisabled .disable s
  | .started, s => apStarted s

/-- The task among its requesters. -/
def wifiAp : Machine Ap ApAct where
  init := Ap.boot
  apply := apApply

-- ================================================================= the law

/-- A disable request stands that no stop has answered yet. -/
def Pending (log : List ApEv) : Prop :=
  .disable ∈ since (· = .wifiStop) log

instance (log : List ApEv) : Decidable (Pending log) :=
  inferInstanceAs (Decidable (_ ∈ _))

/-- Every stop answers a disable request of its own. -/
def Served (log : List ApEv) : Prop :=
  Always (fun e past => e = .wifiStop → Pending past) log

/-- The task passes its wait for the disable bit with a request to
answer: the access point was never stopped, or a disable request has been
made since. -/
def AtWait (s : Ap) : ApAct → Prop
  | .task _ =>
      s.loc = .waitDisabled → .wifiStop ∉ s.log ∨ Pending s.log
  | _ => True

instance (s : Ap) : ∀ a, Decidable (AtWait s a)
  | .task _ =>
      inferInstanceAs (Decidable
        (s.loc = .waitDisabled → .wifiStop ∉ s.log ∨ Pending s.log))
  | .enable => isTrue trivial
  | .disable => isTrue trivial
  | .started => isTrue trivial

/-- A disable request is pending from the moment it is made. -/
theorem pending_cons {e : ApEv} {log : List ApEv} (he : e ≠ .wifiStop) :
    Pending (e :: log) ↔ e = .disable ∨ Pending log := by
  unfold Pending
  rw [since, if_neg (by simpa using he), List.mem_cons, eq_comm]

/-- An entry other than a stop leaves the law as it was. -/
theorem served_cons {e : ApEv} {log : List ApEv} (he : e ≠ .wifiStop) :
    Served (e :: log) ↔ Served log := by
  unfold Served
  rw [always_cons]
  exact ⟨And.right, fun h => ⟨fun heq => absurd heq he, h⟩⟩

-- ============================================================== one step

/-- What a step of the task can do to the location and the log: move on
without a trace, start the access point, stop it. -/
inductive ApMove (s s' : Ap) : Prop
  | on (hlog : s'.log = s.log)
      (hstop : s'.loc = .stopAp →
        s.loc = .waitDisabled ∧ s.group .apDisabled = true)
  | start (hlog : s'.log = .wifiStart :: s.log)
      (hloc' : s'.loc = .waitDisabled)
  | stop (hlog : s'.log = .wifiStop :: s.log) (hloc : s.loc = .stopAp)
      (hloc' : s'.loc = .savePara)

/-- Every step of the task is such a move, and leaves the disable bit
alone. -/
theorem apTaskStep_move {ok : Bool} {s s' : Ap}
    (h : apTaskStep ok s = some s') :
    ApMove s s' ∧ s'.group .apDisabled = s.group .apDisabled := by
  unfold apTaskStep at h
  split at h
  case h_2 k _ =>
      split at h
      · cases h
        refine ⟨.on rfl fun hc => ?_, rfl⟩
        dsimp only at hc
        split at hc <;> cases hc
      · cases h
        exact ⟨.on rfl nofun, rfl⟩
  case h_4 =>
      split at h
      · cases h
        exact ⟨.on rfl nofun, rfl⟩
      · cases h
  case h_6 =>
      cases h
      exact ⟨.start rfl rfl, rfl⟩
  case h_7 hloc =>
      split at h
      · rename_i hbit
        cases h
        exact ⟨.on rfl fun _ => ⟨hloc, hbit⟩, rfl⟩
      · cases h
  case h_8 hloc =>
      cases h
      exact ⟨.stop rfl hloc rfl, rfl⟩
  case h_10 => cases h
  all_goals
    cases h
    exact ⟨.on rfl nofun, rfl⟩

-- ============================================================== the bits

/-- The disable bit is the record of a disable request ever made, since
no step clears it. -/
def BitInv (s : Ap) : Prop :=
  s.group .apDisabled = true ↔ .disable ∈ s.log

/-- The task leaves the bit alone and the others only set it. -/
theorem bitInv_step {a : ApAct} {s s' : Ap} (hi : BitInv s)
    (h : apApply a s = some s') : BitInv s' := by
  unfold BitInv at hi ⊢
  cases a with
  | task ok =>
      obtain ⟨hmove, hgroup⟩ := apTaskStep_move h
      rw [hgroup, hi]
      cases hmove with
      | on hlog _ => rw [hlog]
      | start hlog _ => simp [hlog]
      | stop hlog _ _ => simp [hlog]
  | enable =>
      simp only [apApply, request] at h
      split at h
      · cases h
      · cases h
        simpa using hi
  | disable =>
      simp only [apApply, request] at h
      split at h
      · cases h
      · cases h
        simp
  | started =>
      simp only [apApply, apStarted] at h
      split at h
      · cases h
      · cases h
        exact hi

theorem bitInv_of_reach {s : Ap} (h : wifiAp.Reach anyStep s) : BitInv s :=
  h.invariant (I := BitInv) (by decide : _ ↔ _)
    fun _ _ _ hi _ h => bitInv_step hi h

-- ================================================================ the runs

/-- Without a stop every disable request made is pending. -/
theorem pending_of_unstopped {log : List ApEv} (h : .wifiStop ∉ log)
    (hd : .disable ∈ log) : Pending log := by
  have hall : since (fun e => decide (e = ApEv.wifiStop)) log = log := by
    clear hd
    induction log with
    | nil => rfl
    | cons e past ih =>
        have he : e ≠ .wifiStop := fun heq => h (heq ▸ List.mem_cons_self)
        rw [since, if_neg (by simpa using he),
          ih fun hm => h (List.mem_cons_of_mem _ hm)]
  unfold Pending
  rw [hall]
  exact hd

/-- What the runs of the law preserve: a task about to stop the access
point has a request pending. -/
structure ServeInv (s : Ap) : Prop where
  served : Served s.log
  stopping : s.loc = .stopAp → Pending s.log

/-- A task that passes its wait has a request to answer: the one that set
the bit, if the access point was never stopped. -/
private theorem pending_of_wait {s : Ap} {ok : Bool} (hb : BitInv s)
    (hok : AtWait s (.task ok)) (hloc : s.loc = .waitDisabled)
    (hbit : s.group .apDisabled = true) : Pending s.log := by
  rcases hok hloc with hn | hp
  · exact pending_of_unstopped hn (hb.mp hbit)
  · exact hp

/-- An entry other than a stop on the log of a state whose location
stays. -/
private theorem serveInv_cons {e : ApEv} {s : Ap} {g : EventBits}
    (hi : ServeInv s) (he : e ≠ .wifiStop) :
    ServeInv { s with group := g, log := e :: s.log } where
  served := (served_cons he).mpr hi.served
  stopping hl := (pending_cons he).mpr (.inr (hi.stopping hl))

/-- Where the task passes its wait the condition gives the pending request;
from there to the stop nothing takes it away. -/
theorem serveInv_step {a : ApAct} {s s' : Ap} (hi : ServeInv s)
    (hb : BitInv s) (hok : AtWait s a) (h : apApply a s = some s') :
    ServeInv s' := by
  cases a with
  | task ok =>
      obtain ⟨hserved, hstop⟩ := hi
      obtain ⟨hmove, -⟩ := apTaskStep_move h
      cases hmove with
      | on hlog hs =>
          refine ⟨by rwa [hlog], fun hl => ?_⟩
          rw [hlog]
          obtain ⟨hloc, hbit⟩ := hs hl
          exact pending_of_wait hb hok hloc hbit
      | start hlog hloc' =>
          refine ⟨?_, by rw [hloc']; nofun⟩
          rw [hlog]
          exact (served_cons (by decide)).mpr hserved
      | stop hlog hloc hloc' =>
          refine ⟨?_, by rw [hloc']; nofun⟩
          rw [hlog]
          exact ⟨fun _ => hstop hloc, hserved⟩
  | enable =>
      simp only [apApply, request] at h
      split at h
      · cases h
      · cases h
        exact serveInv_cons hi (by decide)
  | disable =>
      simp only [apApply, request] at h
      split at h
      · cases h
      · cases h
        exact serveInv_cons hi (by decide)
  | started =>
      simp only [apApply, apStarted] at h
      split at h
      · cases h
      · cases h
        exact ⟨hi.served, hi.stopping⟩

/-- A task that passes its wait on the bit of a request already answered
stops the access point without being asked. -/
theorem stop_unserved {ok : Bool} {s s₁ : Ap}
    (hbad : ¬ AtWait s (.task ok))
    (h : apApply (.task ok) s = some s₁) :
    ∃ acts s', wifiAp.run anyStep s₁ acts = some s' ∧ ¬ Served s'.log := by
  simp only [AtWait, Classical.not_imp, not_or, not_not] at hbad
  obtain ⟨hloc, -, hp⟩ := hbad
  simp only [apApply, apTaskStep, hloc] at h
  split at h
  · cases h
    refine ⟨[.task true], ⟨.savePara, s.group, .wifiStop :: s.log⟩, ?_, ?_⟩
    · simp [run, anyStep, wifiAp, apApply, apTaskStep]
    · exact fun h => hp (h.1 rfl)
  · cases h

/-- Every stop answers a disable request of its own in the runs in which
the task passes its wait only before the first stop or with such a request
standing; any other passage can be followed by a stop nobody asked for.

The second half takes one step that breaks the condition, in whatever
state, and goes on from there to a stop without another request. -/
theorem served_of_atWait (s : Ap) :
    (wifiAp.Reach AtWait s → Served s.log) ∧
    (∀ a s₁, ¬ AtWait s a → wifiAp.apply a s = some s₁ →
      ∃ acts s', wifiAp.run anyStep s₁ acts = some s' ∧ ¬ Served s'.log) := by
  constructor
  · intro h
    have hb : ∀ s, wifiAp.Reach AtWait s → BitInv s :=
      fun _ h => bitInv_of_reach h.any
    have hi : ServeInv s :=
      h.invariant_of (I := ServeInv) hb
        ⟨trivial, nofun⟩
        fun _ _ _ hi hb _ hok h => serveInv_step hi hb hok h
    exact hi.served
  · intro a s₁ hbad h
    cases a with
    | task ok => exact stop_unserved hbad h
    | _ => exact absurd trivial hbad

/-- The task's steps up to its first wait. -/
def apBringUp : List ApAct := List.replicate 9 (.task true)

/-- One turn of the loop. -/
def apTurn : List ApAct := List.replicate 6 (.task true)

/-- On, off, on again: the access point is stopped although the one
disable request has been answered. -/
theorem served_fails : ∃ s, wifiAp.Reach anyStep s ∧ ¬ Served s.log := by
  obtain ⟨s, hr, hs⟩ := exists_reach wifiAp anyStep
    (apBringUp ++ [.disable] ++ apTurn ++ [.enable] ++ apTurn)
    (fun s => s.log = [.wifiStop, .wifiStart, .enable, .wifiStop,
      .wifiStart, .disable]) (by decide)
  refine ⟨s, hr, ?_⟩
  rw [of_decide_eq_true hs]
  intro h
  obtain ⟨hserved, -⟩ := h
  exact absurd (hserved rfl) (by decide)

/-- Two cycles, the access point switched off the second time while the
task is starting it: both stops are served. -/
theorem served_of_atWait_twice : ∃ s, wifiAp.Reach AtWait s
    ∧ s.log.count .wifiStop = 2 ∧ Served s.log := by
  obtain ⟨s, hr, hs⟩ := exists_reach wifiAp AtWait
    (apBringUp ++ [.disable] ++ apTurn
      ++ [.enable, .task true, .task true, .disable, .task true]
      ++ [.task true, .task true])
    (fun s => s.log.count .wifiStop = 2) (by decide)
  exact ⟨s, hr, of_decide_eq_true hs, (served_of_atWait s).1 hr⟩

end ShZ001.App
