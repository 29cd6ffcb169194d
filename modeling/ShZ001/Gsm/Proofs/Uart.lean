/-
Who owns the modem UART: the exclusion that `gsm_RFOff`, `gsm_RFOn` and
the SMS functions take from one look at `gsm_status`.

# Three meanings of idle

`IDLE` is documented as the parked task (libGSM.h 66–76), but the task
also writes it before it dials (line 607) and before it re-initialises
after a drop (line 686), and nothing holds it there while a caller that
has read it starts its exchange.

# The condition

`Guarded` asks that the look finds the task at rest and unasked and no
other caller inside, and that nobody wakes the task while a caller is
busy: neither by `ppposInit` nor by a disconnect request to a parked
task.

# The invariant

Then the exclusion is one invariant, `QuietInv`: a busy caller is the
only one, and the task rests until it is done. It is said of the caller
that is busy, so a run without callers keeps it trivially, and that is
how the guarded runs of the example are reached.
-/
import ShZ001.Gsm.Handshake

namespace ShZ001.Gsm

open Lib Machine

-- ================================================================ the law

/-- The task is inside an AT exchange. -/
def Loc.exchanging : Loc → Bool
  | .off _ _ _ inside => inside
  | .cmdWait _ _ => true
  | _ => false

/-- The task runs its set-up and disconnect commands, its initialisation
commands, or a PPP session. -/
def Phase.usesModem : Phase → Bool
  | .booting => true
  | .initialising => true
  | .dialling => true
  | .online => true
  | .redialling => true
  | .draining _ => true
  | .closed _ => true
  | _ => false

/-- An API caller is inside an AT exchange. -/
def AtLoc.exchanging : AtLoc → Bool
  | .inside _ => true
  | _ => false

/-- Exclusive use of the UART. -/
structure UartLaw (s : Sys) : Prop where
  callers : ∀ m n, (s.atCall m).exchanging = true →
    (s.atCall n).exchanging = true → m = n
  task : ∀ n, (s.atCall n).exchanging = true → s.task.exchanging = false
  modem : ∀ n, (s.atCall n).exchanging = true →
    s.task.phase.usesModem = false

/-- After a drop the task marks itself idle and starts the
initialisation commands; `gsm_RFOn` sees `IDLE` and talks into them. -/
theorem uartLaw_fails : ∃ s, client.Reach anyStep s ∧ ¬ UartLaw s := by
  obtain ⟨s, hr, hs⟩ := exists_reach client anyStep
    (bringUp ++ [.cb .errConnect] ++ List.replicate 4 (.task .go)
      ++ [.modem 0 (.call (.rf true)), .modem 0 .send])
    (fun s => (s.atCall 0).exchanging ∧ s.task.exchanging) (by decide)
  obtain ⟨hcaller, htask⟩ := of_decide_eq_true hs
  refine ⟨s, hr, fun hlaw => ?_⟩
  simp [hlaw.task 0 hcaller] at htask

/-- Nobody uses the modem through the API. -/
def Sys.modemFree (s : Sys) : Prop := ∀ n, s.atCall n = .outside

/-- A caller's look at the status reads `IDLE` only of a task at rest
and not asked to reconnect, while no other caller is busy. `ppposInit`
is not called, and no disconnect request written to a parked task, while
a caller is. -/
def Guarded (s : Sys) : Act → Prop
  | .modem n (.call _) =>
      s.gsmStatus = .idle → s.task.phase.stand = .resting ∧
        (s.task.phase = .parked → s.doPpposConnect = 0) ∧
        ∀ m, m ≠ n → s.atCall m = .outside
  | .init .call => s.modemFree
  | .disc .write => s.task.phase = .parked → s.modemFree
  | _ => True

-- ============================================================ the invariant

/-- A busy caller is alone, and the task rests until it is done. -/
structure QuietInv (s : Sys) (n : Nat) : Prop where
  stand : s.task.phase.stand = .resting
  parked : s.task.phase = .parked → s.doPpposConnect = 0
  create : s.initCall ≠ .create
  alone : ∀ m, m ≠ n → s.atCall m = .outside

/-- Every busy caller finds the modem quiet. -/
def Quiet (s : Sys) : Prop := ∀ n, s.atCall n ≠ .outside → QuietInv s n

/-- With nobody inside there is nothing to show. -/
theorem quiet_of_modemFree {s : Sys} (h : s.modemFree) : Quiet s :=
  fun n hn => absurd (h n) hn

/-- Whatever the task does while a caller is busy, it stays at rest. -/
private theorem quiet_task {i : TaskIn} {s s' : Sys} (hi : Quiet s)
    (h : taskStep i s = some s') : Quiet s' := by
  have hf := taskStep_frame h
  intro n hn
  rw [hf.atCall] at hn
  obtain ⟨hrest, hparked, hcreate, halone⟩ := hi n hn
  have hcreate' : s'.initCall ≠ .create := by rwa [hf.initCall]
  have halone' : ∀ m, m ≠ n → s'.atCall m = .outside := by rwa [hf.atCall]
  cases taskStep_request h with
  | keep hstand hpk hdo =>
      refine ⟨by rw [hstand, hrest], fun hp => ?_, hcreate', halone'⟩
      rw [hdo]
      exact hparked (hpk hp)
  | take hstand hreq hstand' hdo => simp [hstand] at hrest
  | done hparks hstand' hdo => simp [stand_of_parks hparks] at hrest
  | giveUp hstand hp' hfail hdo => simp [hstand] at hrest
  | resume hp hreq hp' hdo => exact absurd (hparked hp) hreq

/-- `ppposInit` neither starts nor continues towards a new task while a
caller is busy. -/
private theorem quiet_init {i : InitIn} {s s' : Sys} (hi : Quiet s)
    (hok : Guarded s (.init i)) (h : initStep i s = some s') :
    Quiet s' := by
  have hf := initStep_frame h
  have hkeep : SameRequest s s' → s'.initCall ≠ .create → Quiet s' := by
    intro hsame hc n hn
    rw [hf.atCall] at hn
    obtain ⟨hrest, hparked, -, halone⟩ := hi n hn
    refine ⟨?_, ?_, hc, by rwa [hf.atCall]⟩
    · rwa [hsame.task]
    · rwa [hsame.task, hsame.request]
  cases initStep_effect h with
  | call hin hloc hloc' hdo htask hsticky =>
      subst hin
      have hfree : s.modemFree := hok
      refine quiet_of_modemFree fun n => ?_
      rw [hf.atCall]
      exact hfree n
  | make made hloc hloc' hdo htask hsticky =>
      intro n hn
      rw [hf.atCall] at hn
      exact absurd hloc (hi n hn).create
  | abandon hloc hloc' hsame => exact hkeep hsame (by simp [hloc'])
  | wait made hloc hdown hloc' hsame => exact hkeep hsame (by simp [hloc'])
  | seen made hloc hup hloc' hsame => exact hkeep hsame (by simp [hloc'])
  | poll hloc hloc' hsame =>
      refine hkeep hsame ?_
      rcases hloc' with hloc' | hloc' <;> simp [hloc']

/-- `ppposDisconnect` does not wake a parked task under a busy caller. -/
private theorem quiet_disc {i : DiscIn} {s s' : Sys} (hi : Quiet s)
    (hok : Guarded s (.disc i)) (h : discStep i s = some s') :
    Quiet s' := by
  have hf := discStep_frame h
  intro n hn
  rw [hf.atCall] at hn
  obtain ⟨hrest, hparked, hcreate, halone⟩ := hi n hn
  have hkeep : (s.task.phase = .parked →
      s'.doPpposConnect = s.doPpposConnect) → QuietInv s' n := by
    intro hdo
    refine ⟨by rwa [hf.task], ?_, by rwa [hf.initCall],
      by rwa [hf.atCall]⟩
    rw [hf.task]
    exact fun hp => (hdo hp).trans (hparked hp)
  cases discStep_effect h with
  | skip endTask rfoff hin hloc hidle hloc' hdo hsticky =>
      exact hkeep fun _ => hdo
  | enter endTask rfoff hin hloc hst hloc' hsame =>
      exact hkeep fun _ => hsame.request
  | write endTask rfoff hin hloc hloc' hdo hsticky =>
      subst hin
      exact hkeep fun hp => absurd (hok hp n) hn
  | spin hloc hdo hloc' hsame => exact hkeep fun _ => hsame.request
  | taken hloc hdo hloc' hsame => exact hkeep fun _ => hsame.request
  | await hloc hdo hloc' hsame => exact hkeep fun _ => hsame.request
  | finish hloc hdo hloc' hdo' hsticky => exact hkeep fun _ => hdo'

/-- A step of an API caller changes its own location only, and a caller
gets inside by reading `IDLE`. -/
theorem atStep_atCall {n : Nat} {i : AtIn} {s s' : Sys}
    (h : atStep n i s = some s') :
    (∀ m, m ≠ n → s'.atCall m = s.atCall m) ∧
    (s'.atCall n ≠ .outside → s.atCall n ≠ .outside ∨
      ∃ api, i = .call api ∧ s.gsmStatus = .idle) := by
  unfold atStep at h
  split at h
  case h_1 api hloc =>
      split at h
      case isFalse => cases h
      case isTrue =>
          split at h <;> cases h
          case isTrue hidle =>
              refine ⟨fun m hm => Function.update_of_ne hm _ _, fun _ => ?_⟩
              exact .inr ⟨api, rfl, hidle⟩
          case isFalse => exact ⟨fun _ _ => rfl, fun hn => .inl hn⟩
  case h_2 c hloc =>
      cases h
      exact ⟨fun m hm => Function.update_of_ne hm _ _,
        fun _ => .inl (by simp [hloc])⟩
  case h_3 c hloc =>
      split at h <;> cases h
      exact ⟨fun m hm => Function.update_of_ne hm _ _,
        fun _ => .inl (by simp [hloc])⟩
  case h_4 c v hloc =>
      cases h
      exact ⟨fun m hm => Function.update_of_ne hm _ _,
        fun _ => .inl (by simp [hloc])⟩
  case h_5 => cases h

def Act.isModem : Act → Bool
  | .modem _ _ => true
  | _ => false

/-- Nobody else changes a caller's location. -/
theorem otherStep_atCall {a : Act} {s s' : Sys} (ha : a.isModem = false)
    (h : apply a s = some s') : s'.atCall = s.atCall := by
  cases a with
  | task i => exact (taskStep_frame h).atCall
  | init i => exact (initStep_frame h).atCall
  | disc i => exact (discStep_frame h).atCall
  | modem n i => cases ha
  | cb err =>
      obtain ⟨-, rfl⟩ := cb_cases h
      rfl
  | out ret =>
      obtain ⟨-, rfl⟩ := out_cases h
      rfl
  | outCount =>
      obtain ⟨_, -, rfl⟩ := outCount_cases h
      rfl
  | getCounts rst =>
      obtain rfl := getCounts_cases h
      rfl
  | resetCounts =>
      obtain rfl := resetCounts_cases h
      rfl

/-- A caller gets inside by a guarded look, and leaves again. -/
private theorem quiet_modem {n : Nat} {i : AtIn} {s s' : Sys}
    (hi : Quiet s) (hl : Life s) (hok : Guarded s (.modem n i))
    (h : atStep n i s = some s') : Quiet s' := by
  obtain ⟨hother, hown⟩ := atStep_atCall h
  have hf : OutsiderFrame s s' := outsider_frame (a := .modem n i) rfl h
  -- what the frame and a rest before the step leave to show
  have hkeep : ∀ m, QuietInv s m → (∀ k, k ≠ m → s'.atCall k = .outside) →
      QuietInv s' m := by
    intro m hq halone
    refine ⟨?_, ?_, ?_, halone⟩
    · rw [hf.task]
      exact hq.stand
    · rw [hf.task, hf.request]
      exact hq.parked
    · rw [hf.initCall]
      exact hq.create
  intro m hm
  by_cases hmn : m = n
  · subst hmn
    have hq : QuietInv s m := by
      rcases hown hm with hbusy | ⟨api, rfl, hidle⟩
      · exact hi m hbusy
      · obtain ⟨hrest, hparked, halone⟩ := hok hidle
        exact ⟨hrest, hparked, fun hc => hl.dead (hl.create hc) hidle,
          halone⟩
    refine hkeep m hq fun k hk => ?_
    rw [hother k hk]
    exact hq.alone k hk
  · -- the mover has to be outside, and stays there
    rw [hother m hmn] at hm
    have hq := hi m hm
    refine hkeep m hq fun k hk => ?_
    by_cases hkn : k = n
    · subst hkn
      have hout := hq.alone k hk
      by_contra hne
      rcases hown hne with hbusy | ⟨api, rfl, hidle⟩
      · exact hbusy hout
      · exact hm ((hok hidle).2.2 m hmn)
    · rw [hother k hkn]
      exact hq.alone k hk

/-- Every step of a guarded run keeps the modem quiet around a busy
caller. -/
theorem quiet_step {a : Act} {s s' : Sys} (hi : Quiet s) (hl : Life s)
    (hok : Guarded s a) (h : apply a s = some s') : Quiet s' := by
  -- the parties without a say in it
  have hframe : a.isHandshake = false → s'.atCall = s.atCall →
      Quiet s' := by
    intro ha hcalls n hn
    have hf := outsider_frame ha h
    rw [hcalls] at hn
    obtain ⟨hrest, hparked, hcreate, halone⟩ := hi n hn
    refine ⟨by rwa [hf.task], ?_, by rwa [hf.initCall], by rwa [hcalls]⟩
    rwa [hf.task, hf.request]
  cases a with
  | task i => exact quiet_task hi h
  | init i => exact quiet_init hi hok h
  | disc i => exact quiet_disc hi hok h
  | modem n i => exact quiet_modem hi hl hok h
  | cb err => exact hframe rfl (otherStep_atCall rfl h)
  | out ret => exact hframe rfl (otherStep_atCall rfl h)
  | outCount => exact hframe rfl (otherStep_atCall rfl h)
  | getCounts rst => exact hframe rfl (otherStep_atCall rfl h)
  | resetCounts => exact hframe rfl (otherStep_atCall rfl h)

/-- In a guarded run the modem is used by one party at a time.

For a caller that is inside an exchange `QuietInv` says what the law asks:
it is alone, and the task is at rest, where it neither is inside an
exchange nor has a session. -/
theorem uartLaw_of_guarded {s : Sys} (h : client.Reach Guarded s) :
    UartLaw s := by
  have hq : Quiet s := by
    refine h.invariant_of (I := Quiet) (J := Life) (fun _ => life_of_reach)
      (quiet_of_modemFree fun _ => rfl) ?_
    exact fun _ _ _ hi hl _ hok h => quiet_step hi hl hok h
  have hbusy : ∀ n, (s.atCall n).exchanging = true → QuietInv s n := by
    intro n hn
    refine hq n fun hout => ?_
    simp [hout, AtLoc.exchanging] at hn
  refine ⟨fun m n hm hn => ?_, fun n hn => ?_, fun n hn => ?_⟩
  · by_contra hne
    have hout := (hbusy n hn).alone m hne
    simp [hout, AtLoc.exchanging] at hm
  · have hrest := (hbusy n hn).stand
    cases ht : s.task with
    | off ret rfOff c inside =>
        cases ret <;> simp [ht, Loc.phase, OffRet.phase, Phase.stand] at hrest
    | cmdWait iter nfail => simp [ht, Loc.phase, Phase.stand] at hrest
    | _ => rfl
  · have hrest := (hbusy n hn).stand
    cases hp : s.task.phase <;> simp_all [Phase.stand, Phase.usesModem]

-- =============================================================== a run

/-- No API caller moves. -/
def CallerFree (_ : Sys) (a : Act) : Prop := a.isModem = false

instance (s : Sys) (a : Act) : Decidable (CallerFree s a) := by
  unfold CallerFree
  infer_instance

/-- Nobody gets inside who does not move. -/
theorem modemFree_of_callerFree {s : Sys}
    (h : client.Reach CallerFree s) : s.modemFree := by
  refine h.invariant (I := Sys.modemFree) (fun _ => rfl) ?_
  intro s a s' hi hok happ n
  rw [otherStep_atCall hok happ]
  exact hi n

/-- Without callers every run is guarded. -/
theorem guarded_of_callerFree {s : Sys} (h : client.Reach CallerFree s) :
    client.Reach Guarded s := by
  refine h.mono fun s₁ a hr hok => ?_
  have hfree := modemFree_of_callerFree hr
  unfold Guarded
  split
  · cases hok
  · exact hfree
  · exact fun _ => hfree
  · trivial

/-- A caller that reads `IDLE` goes on to its first exchange. -/
private theorem atStep_call {n : Nat} {s : Sys} (api : AtApi)
    (hout : s.atCall n = .outside) (hmutex : s.ppposMutex = true)
    (hidle : s.gsmStatus = .idle) :
    ∃ s', atStep n (.call api) s = some s'
      ∧ s'.atCall n = .ready api.first := by
  unfold atStep
  rw [hout]
  simp [hmutex, hidle]

private theorem atStep_send {n : Nat} {s : Sys} {c : AtCmd}
    (h : s.atCall n = .ready c) :
    ∃ s', atStep n .send s = some s' ∧ s'.atCall n = .inside c := by
  unfold atStep
  rw [h]
  simp

/-- A guarded run in which a caller is inside an exchange, the task
parked. -/
theorem uartLaw_parked : ∃ s, client.Reach Guarded s
    ∧ (s.atCall 0).exchanging = true ∧ UartLaw s := by
  obtain ⟨s, hr, hs⟩ := exists_reach client CallerFree
    (bringUp ++ hangUp false)
    (fun s => s.task = .parked ∧ s.doPpposConnect = 0 ∧ s.gsmStatus = .idle
      ∧ s.ppposMutex = true) (by decide)
  obtain ⟨htask, hdo, hidle, hmutex⟩ := of_decide_eq_true hs
  have hfree := modemFree_of_callerFree hr
  have hlook : Guarded s (.modem 0 (.call (.rf true))) := fun _ =>
    ⟨by rw [htask]; rfl, fun _ => hdo, fun m _ => hfree m⟩
  obtain ⟨s₁, happ₁, hready⟩ := atStep_call (.rf true) (hfree 0) hmutex hidle
  obtain ⟨s₂, happ₂, hinside⟩ := atStep_send hready
  have hr₁ := (guarded_of_callerFree hr).step _ hlook happ₁
  have hr₂ := hr₁.step (Act.modem 0 .send) trivial happ₂
  exact ⟨s₂, hr₂, by simp [hinside, AtLoc.exchanging],
    uartLaw_of_guarded hr₂⟩

end ShZ001.Gsm
