/-
The handshakes between the client task and its callers: what one step of
`ppposInit` and `ppposDisconnect` can do to the request variable, the
task and their own location, what everyone else leaves alone, and the
invariants that tie the parties together in every run.

# The effects

Each of the two functions gets an inversion lemma: `initStep_effect` and
`discStep_effect` list the ways in which a step of theirs can go, with
the lines of the source, and the frame lemmas say what none of these
ways touches. The task's own steps are listed in `Phase.lean`;
`taskStep_request` reads that list from the point of view of a
disconnect request. All proofs about handshakes go by cases on these
effects, and none looks at a step function.

# The lives

`Life` holds in every run: the start flag is up exactly between the
task's first step and its last, a task that has not taken its first step
has a `ppposInit` waiting for it, a `ppposInit` about to create a task
has none alive, and a task that has ended has not left `IDLE` behind.

# Between the requests

`Unasked` is what a returned `ppposDisconnect` leaves behind as long as
nobody calls again: no request is being served, and none is to be found
by a task on its way to the loop that would serve it.
-/
import ShZ001.Gsm.Link

namespace ShZ001.Gsm

open Lib Machine

-- ========================================================= the API calls

/-- Request, task and disconnected period are left alone. -/
structure SameRequest (s s' : Sys) : Prop where
  request : s'.doPpposConnect = s.doPpposConnect
  task : s'.task = s.task
  sticky : sticky s'.log = sticky s.log

/-- What one step of `ppposInit` does. -/
inductive InitEffect (i : InitIn) (s s' : Sys) : Prop
  /-- lines 722–728 -/
  | call (hin : i = .call) (hloc : s.initCall = .outside)
      (hloc' : s'.initCall
        = if s.ppposTaskStarted then .upWait else .create)
      (hdo : s'.doPpposConnect = 1) (htask : s'.task = s.task)
      (hsticky : sticky s'.log = false)
  /-- no mutex -/
  | abandon (hloc : s.initCall = .create) (hloc' : s'.initCall = .outside)
      (hsame : SameRequest s s')
  /-- line 735 -/
  | make (made : Bool) (hloc : s.initCall = .create)
      (hloc' : s'.initCall = .startWait made)
      (hdo : s'.doPpposConnect = s.doPpposConnect)
      (htask : s'.task = if made then .start else s.task)
      (hsticky : sticky s'.log = sticky s.log)
  /-- line 737, the flag still down -/
  | wait (made : Bool) (hloc : s.initCall = .startWait made)
      (hdown : s.ppposTaskStarted = false)
      (hloc' : s'.initCall = .startWait made) (hsame : SameRequest s s')
  /-- line 737, the flag up -/
  | seen (made : Bool) (hloc : s.initCall = .startWait made)
      (hup : s.ppposTaskStarted = true)
      (hloc' : s'.initCall = .upWait) (hsame : SameRequest s s')
  /-- lines 745–754 -/
  | poll (hloc : s.initCall = .upWait)
      (hloc' : s'.initCall = .outside ∨ s'.initCall = .upWait)
      (hsame : SameRequest s s')

/-- What no step of `ppposInit` touches. -/
structure InitFrame (s s' : Sys) : Prop where
  status : s'.gsmStatus = s.gsmStatus
  started : s'.ppposTaskStarted = s.ppposTaskStarted
  discCall : s'.discCall = s.discCall
  atCall : s'.atCall = s.atCall

/-- `ppposInit` never writes the status nor the start flag; it waits for
the task to do so. -/
theorem initStep_frame {i : InitIn} {s s' : Sys}
    (h : initStep i s = some s') : InitFrame s s' := by
  unfold initStep at h
  repeat' split at h
  all_goals cases h
  all_goals exact ⟨rfl, rfl, rfl, rfl⟩

/-- Every step of `ppposInit` is one of the effects. -/
theorem initStep_effect {i : InitIn} {s s' : Sys}
    (h : initStep i s = some s') : InitEffect i s s' := by
  unfold initStep at h
  split at h
  case h_1 hloc =>
      cases h
      exact .call rfl hloc rfl rfl rfl rfl
  case h_2 hloc =>
      split at h <;> cases h
      exact .abandon hloc rfl ⟨rfl, rfl, sticky_cons _ _⟩
  case h_3 made hloc =>
      cases h
      exact .make made hloc rfl rfl rfl rfl
  case h_4 made hloc =>
      cases h
      by_cases hup : s.ppposTaskStarted = true
      · exact .seen made hloc hup (if_pos hup) ⟨rfl, rfl, rfl⟩
      · exact .wait made hloc (by simpa using hup) (if_neg hup)
          ⟨rfl, rfl, rfl⟩
  case h_5 hloc =>
      split at h
      · cases h
        exact .poll hloc (.inl rfl) ⟨rfl, rfl, sticky_cons _ _⟩
      · split at h <;> cases h
        · exact .poll hloc (.inl rfl) ⟨rfl, rfl, sticky_cons _ _⟩
        · exact .poll hloc (.inr hloc) ⟨rfl, rfl, rfl⟩
  case h_6 => cases h

/-- What one step of `ppposDisconnect` does. -/
inductive DiscEffect (i : DiscIn) (s s' : Sys) : Prop
  /-- line 762: the sample says there is nothing to do -/
  | skip (endTask rfoff : Bool) (hin : i = .call endTask rfoff)
      (hloc : s.discCall = .outside) (hidle : s.gsmStatus = .idle)
      (hloc' : s'.discCall = .outside)
      (hdo : s'.doPpposConnect = s.doPpposConnect)
      (hsticky : sticky s'.log = true)
  /-- line 762: there is -/
  | enter (endTask rfoff : Bool) (hin : i = .call endTask rfoff)
      (hloc : s.discCall = .outside) (hst : s.gsmStatus ≠ .idle)
      (hloc' : s'.discCall = .delay endTask rfoff)
      (hsame : SameRequest s s')
  /-- lines 769–772 -/
  | write (endTask rfoff : Bool) (hin : i = .write)
      (hloc : s.discCall = .delay endTask rfoff)
      (hloc' : s'.discCall = .loop1)
      (hdo : s'.doPpposConnect = if endTask then -1 else 0)
      (hsticky : sticky s'.log = sticky s.log)
  /-- lines 775–780 -/
  | spin (hloc : s.discCall = .loop1) (hdo : s.doPpposConnect = 0)
      (hloc' : s'.discCall = .loop1) (hsame : SameRequest s s')
  | taken (hloc : s.discCall = .loop1) (hdo : s.doPpposConnect ≠ 0)
      (hloc' : s'.discCall = .loop2) (hsame : SameRequest s s')
  /-- lines 781–786 -/
  | await (hloc : s.discCall = .loop2) (hdo : s.doPpposConnect ≠ 0)
      (hloc' : s'.discCall = .loop2) (hsame : SameRequest s s')
  | finish (hloc : s.discCall = .loop2) (hdo : s.doPpposConnect = 0)
      (hloc' : s'.discCall = .outside)
      (hdo' : s'.doPpposConnect = s.doPpposConnect)
      (hsticky : sticky s'.log = true)

/-- What no step of `ppposDisconnect` touches. -/
structure DiscFrame (s s' : Sys) : Prop where
  status : s'.gsmStatus = s.gsmStatus
  started : s'.ppposTaskStarted = s.ppposTaskStarted
  task : s'.task = s.task
  initCall : s'.initCall = s.initCall
  atCall : s'.atCall = s.atCall

/-- Nor does `ppposDisconnect`, which asks through the request variable
only. -/
theorem discStep_frame {i : DiscIn} {s s' : Sys}
    (h : discStep i s = some s') : DiscFrame s s' := by
  unfold discStep at h
  repeat' split at h
  all_goals cases h
  all_goals exact ⟨rfl, rfl, rfl, rfl, rfl⟩

/-- Every step of `ppposDisconnect` is one of the effects. -/
theorem discStep_effect {i : DiscIn} {s s' : Sys}
    (h : discStep i s = some s') : DiscEffect i s s' := by
  unfold discStep at h
  split at h
  case h_1 endTask rfoff hloc =>
      split at h
      case isTrue =>
          split at h <;> cases h
          case isTrue hidle =>
              exact .skip endTask rfoff rfl hloc hidle hloc rfl rfl
          case isFalse hst =>
              exact .enter endTask rfoff rfl hloc hst rfl
                ⟨rfl, rfl, sticky_cons _ _⟩
      case isFalse => cases h
  case h_2 endTask rfoff hloc =>
      cases h
      exact .write endTask rfoff rfl hloc rfl rfl rfl
  case h_3 hloc =>
      cases h
      by_cases hdo : s.doPpposConnect = 0
      · exact .spin hloc hdo (if_pos hdo) ⟨rfl, rfl, rfl⟩
      · exact .taken hloc hdo (if_neg hdo) ⟨rfl, rfl, rfl⟩
  case h_4 hloc =>
      split at h <;> cases h
      case isTrue hdo => exact .finish hloc hdo rfl rfl rfl
      case isFalse hdo => exact .await hloc hdo hloc ⟨rfl, rfl, rfl⟩
  case h_5 => cases h

-- ======================================================== everyone else

/-- The actions of the three parties that take part in the handshakes. -/
def Act.isHandshake : Act → Bool
  | .task _ => true
  | .init _ => true
  | .disc _ => true
  | _ => false

/-- What a callback, a modem call or a counter access leaves alone. -/
structure OutsiderFrame (s s' : Sys) : Prop where
  task : s'.task = s.task
  started : s'.ppposTaskStarted = s.ppposTaskStarted
  request : s'.doPpposConnect = s.doPpposConnect
  initCall : s'.initCall = s.initCall
  discCall : s'.discCall = s.discCall
  sticky : sticky s'.log = sticky s.log

/-- Every step of a party outside the handshakes keeps to the frame. -/
theorem outsider_frame {a : Act} {s s' : Sys} (ha : a.isHandshake = false)
    (h : apply a s = some s') : OutsiderFrame s s' := by
  cases a with
  | task i => cases ha
  | init i => cases ha
  | disc i => cases ha
  | cb err =>
      obtain ⟨-, rfl⟩ := cb_cases h
      exact ⟨rfl, rfl, rfl, rfl, rfl, by simp⟩
  | out ret =>
      obtain ⟨-, rfl⟩ := out_cases h
      exact ⟨rfl, rfl, rfl, rfl, rfl, by simp⟩
  | outCount =>
      obtain ⟨_, -, rfl⟩ := outCount_cases h
      exact ⟨rfl, rfl, rfl, rfl, rfl, rfl⟩
  | modem n i =>
      simp only [apply, atStep] at h
      repeat' split at h
      all_goals cases h
      all_goals exact ⟨rfl, rfl, rfl, rfl, rfl, by simp⟩
  | getCounts rst =>
      obtain rfl := getCounts_cases h
      exact ⟨rfl, rfl, rfl, rfl, rfl, by simp⟩
  | resetCounts =>
      obtain rfl := resetCounts_cases h
      exact ⟨rfl, rfl, rfl, rfl, rfl, by simp⟩

-- ===================================================== the request's view

/-- What one step of the task means for a disconnect request: nothing,
it is taken, it is answered, the task gives up, the task leaves its
parking place. -/
inductive RequestEffect (i : TaskIn) (s s' : Sys) : Prop
  | keep (hstand : s'.task.phase.stand = s.task.phase.stand)
      (hparked : s'.task.phase = .parked → s.task.phase = .parked)
      (hdo : s'.doPpposConnect = s.doPpposConnect)
  | take (hstand : s.task.phase.stand = .heading)
      (hreq : s.doPpposConnect ≤ 0)
      (hstand' : s'.task.phase.stand = .serving)
      (hdo : s'.doPpposConnect = 1)
  | done (hparks : s.task.parks = true)
      (hstand' : s'.task.phase.stand = .resting)
      (hdo : s'.doPpposConnect = 0)
  | giveUp (hstand : s.task.phase.stand = .heading)
      (hp' : s'.task.phase = .exiting) (hfail : failureExit i s = true)
      (hdo : s'.doPpposConnect = s.doPpposConnect)
  | resume (hp : s.task.phase = .parked) (hreq : s.doPpposConnect ≠ 0)
      (hp' : s'.task.phase = .initialising)
      (hdo : s'.doPpposConnect = s.doPpposConnect)

/-- The step that answers a request is one of a task that serves it. -/
theorem stand_of_parks {l : Loc} (h : l.parks = true) :
    l.phase.stand = .serving := by
  cases l <;> first | rfl | cases h

/-- A move between two phases that stand alike, neither of them
parked. -/
private theorem keep_of {i : TaskIn} {s s' : Sys} {p p' : Phase}
    (hp : s.task.phase = p) (hp' : s'.task.phase = p')
    (hdo : s'.doPpposConnect = s.doPpposConnect)
    (hstand : p'.stand = p.stand) (hne : p' ≠ .parked) :
    RequestEffect i s s' :=
  .keep (by rw [hp, hp', hstand]) (fun h => absurd (hp'.symm.trans h) hne)
    hdo

/-- Every step of the task is one of these. The order of the two cases
`take` and `done` is the whole protocol: a request is answered by nobody
who has not taken it. -/
theorem taskStep_request {i : TaskIn} {s s' : Sys}
    (h : taskStep i s = some s') : RequestEffect i s s' := by
  cases taskStep_effect h with
  | stay hphase hne hsame =>
      exact .keep (by rw [hphase]) (by rw [hphase]; exact id) hsame.request
  | raise hp hp' hst hdo hup => exact keep_of hp hp' hdo rfl nofun
  | bootFail hp hp' hsame hfail =>
      exact .giveUp (by rw [hp]; rfl) hp' hfail hsame.request
  | boot hp hp' hst hdo hup => exact keep_of hp hp' hdo rfl nofun
  | initFail hp hp' hsame hfail =>
      exact .giveUp (by rw [hp]; rfl) hp' hfail hsame.request
  | ready hp hp' hst hdo hup => exact keep_of hp hp' hdo rfl nofun
  | dial hp hp' hsame => exact keep_of hp hp' hsame.request rfl nofun
  | request hp hp' hreq hdo hst hup =>
      exact .take (by rw [hp]; rfl) hreq (by rw [hp']; rfl) hdo
  | dropped hp hp' hst hsame => exact keep_of hp hp' hsame.request rfl nofun
  | redial hp hp' hst hdo hup => exact keep_of hp hp' hdo rfl nofun
  | drained endTask hp hp' hst hsame =>
      exact keep_of hp hp' hsame.request rfl nofun
  | park endTask hp hp' hst hdo hup =>
      refine .done (by rw [hp]; rfl) ?_ hdo
      rw [hp']
      split <;> rfl
  | resume hp hp' hreq hsame => exact .resume hp hreq hp' hsame.request
  | die hp hp' hst hdo hup => exact keep_of hp hp' hdo rfl nofun

-- ============================================================= the lives

/-- The start flag, the task's life and `ppposInit` belong together. -/
structure Life (s : Sys) : Prop where
  flag : s.ppposTaskStarted = s.task.phase.flagUp
  starting : s.task.phase = .starting → s.initCall = .startWait true
  create : s.initCall = .create → s.task.phase = .dead
  dead : s.task.phase = .dead → s.gsmStatus ≠ .idle

/-- A step of the task keeps `Life`: only `raise` and `die` move the
flag, and no step leads back to the start. -/
private theorem life_task {i : TaskIn} {s s' : Sys} (hi : Life s)
    (h : taskStep i s = some s') : Life s' := by
  have hcall := (taskStep_frame h).initCall
  -- a step between two phases of a started task
  have hmove : s.task.phase.flagUp = true → s'.task.phase.flagUp = true →
      s'.ppposTaskStarted = s.ppposTaskStarted → Life s' := by
    intro hup hup' hst
    refine ⟨by rw [hst, hi.flag, hup, hup'], ?_, ?_, ?_⟩
    · intro hp
      simp [hp, Phase.flagUp] at hup'
    · intro hc
      rw [hcall] at hc
      simp [hi.create hc, Phase.flagUp] at hup
    · intro hp
      simp [hp, Phase.flagUp] at hup'
  cases taskStep_effect h with
  | stay hphase hne hsame =>
      refine ⟨?_, ?_, ?_, ?_⟩
      · rw [hsame.started, hphase, hi.flag]
      · rw [hphase, hcall]
        exact hi.starting
      · rw [hphase, hcall]
        exact hi.create
      · rw [hphase, hsame.status]
        exact hi.dead
  | raise hp hp' hst hdo hup =>
      refine ⟨by rw [hup, hp']; rfl, by simp [hp'], ?_, by simp [hp']⟩
      rw [hcall]
      intro hc
      simp [hi.create hc] at hp
  | die hp hp' hst hdo hup =>
      exact ⟨by rw [hup, hp']; rfl, by simp [hp'], fun _ => hp',
        by simp [hst]⟩
  | bootFail hp hp' hsame hfail =>
      exact hmove (by rw [hp]; rfl) (by rw [hp']; rfl) hsame.started
  | boot hp hp' hst hdo hup =>
      exact hmove (by rw [hp]; rfl) (by rw [hp']; rfl) hup
  | initFail hp hp' hsame hfail =>
      exact hmove (by rw [hp]; rfl) (by rw [hp']; rfl) hsame.started
  | ready hp hp' hst hdo hup =>
      exact hmove (by rw [hp]; rfl) (by rw [hp']; rfl) hup
  | dial hp hp' hsame =>
      exact hmove (by rw [hp]; rfl) (by rw [hp']; rfl) hsame.started
  | request hp hp' hreq hdo hst hup =>
      exact hmove (by rw [hp]; rfl) (by rw [hp']; rfl) hup
  | dropped hp hp' hst hsame =>
      exact hmove (by rw [hp]; rfl) (by rw [hp']; rfl) hsame.started
  | redial hp hp' hst hdo hup =>
      exact hmove (by rw [hp]; rfl) (by rw [hp']; rfl) hup
  | drained endTask hp hp' hst hsame =>
      exact hmove (by rw [hp]; rfl) (by rw [hp']; rfl) hsame.started
  | park endTask hp hp' hst hdo hup =>
      refine hmove (by rw [hp]; rfl) ?_ hup
      rw [hp']
      split <;> rfl
  | resume hp hp' hreq hsame =>
      exact hmove (by rw [hp]; rfl) (by rw [hp']; rfl) hsame.started

/-- A step of `ppposInit` keeps `Life`: a task is created only where
none is alive. -/
private theorem life_init {i : InitIn} {s s' : Sys} (hi : Life s)
    (h : initStep i s = some s') : Life s' := by
  have hf := initStep_frame h
  -- a step that leaves the task alone
  have hkeep : s'.task = s.task →
      (s.initCall = .startWait true → s.task.phase = .starting →
        s'.initCall = .startWait true) →
      (s'.initCall = .create → s.task.phase = .dead) → Life s' := by
    intro ht hwait hcreate
    refine ⟨by rw [hf.started, ht, hi.flag], ?_, by rwa [ht], ?_⟩
    · rw [ht]
      exact fun hp => hwait (hi.starting hp) hp
    · rw [ht, hf.status]
      exact hi.dead
  cases initStep_effect h with
  | call hin hloc hloc' hdo htask hsticky =>
      refine hkeep htask (by simp [hloc]) ?_
      intro hc
      cases hup : s.ppposTaskStarted with
      | true => simp [hloc', hup] at hc
      | false =>
          -- the flag is down: dead, or not yet started; the latter has
          -- its own `ppposInit`
          have hflag := hi.flag
          rw [hup] at hflag
          cases hp : s.task.phase with
          | dead => rfl
          | starting => simp [hi.starting hp] at hloc
          | _ => simp [hp, Phase.flagUp] at hflag
  | abandon hloc hloc' hsame =>
      exact hkeep hsame.task (by simp [hloc]) (by simp [hloc'])
  | make made hloc hloc' hdo htask hsticky =>
      have hdead := hi.create hloc
      cases made with
      | true =>
          refine ⟨?_, fun _ => hloc', by simp [hloc'], ?_⟩
          · rw [hf.started, hi.flag, hdead, htask]
            rfl
          · simp [htask, Loc.phase]
      | false => exact hkeep htask (by simp [hloc]) (by simp [hloc'])
  | wait made hloc hdown hloc' hsame =>
      exact hkeep hsame.task (fun hl _ => by rw [hloc', ← hloc, hl])
        (by simp [hloc'])
  | seen made hloc hup hloc' hsame =>
      refine hkeep hsame.task (fun _ hp => ?_) (by simp [hloc'])
      simp [hi.flag, hp, Phase.flagUp] at hup
  | poll hloc hloc' hsame =>
      refine hkeep hsame.task (by simp [hloc]) ?_
      rcases hloc' with hloc' | hloc' <;> simp [hloc']

/-- The status callback never says idle. -/
theorem pppStatusCb_ne_idle {err : PppErr} {status : GsmState}
    (h : status ≠ .idle) : pppStatusCb err status ≠ .idle := by
  cases err <;> first | exact h | nofun

/-- A step that moves neither task, flag nor `ppposInit`. -/
private theorem life_congr {s s' : Sys} (hi : Life s)
    (ht : s'.task = s.task)
    (hup : s'.ppposTaskStarted = s.ppposTaskStarted)
    (hcall : s'.initCall = s.initCall)
    (hst : s.gsmStatus ≠ .idle → s'.gsmStatus ≠ .idle) : Life s' := by
  refine ⟨?_, ?_, ?_, ?_⟩
  · rw [hup, ht, hi.flag]
  · rw [ht, hcall]
    exact hi.starting
  · rw [ht, hcall]
    exact hi.create
  · rw [ht]
    exact fun hp => hst (hi.dead hp)

/-- `Life` holds in every run. -/
theorem life_step {a : Act} {s s' : Sys} (hi : Life s)
    (h : apply a s = some s') : Life s' := by
  cases a with
  | task i => exact life_task hi h
  | init i => exact life_init hi h
  | disc i =>
      have hf := discStep_frame h
      exact life_congr hi hf.task hf.started hf.initCall
        (by rw [hf.status]; exact id)
  | cb err =>
      have hf : OutsiderFrame s s' := outsider_frame (a := .cb err) rfl h
      refine life_congr hi hf.task hf.started hf.initCall ?_
      obtain ⟨-, rfl⟩ := cb_cases h
      exact pppStatusCb_ne_idle
  | _ =>
      have hf := outsider_frame rfl h
      have hb := bystander_frame rfl h
      exact life_congr hi hf.task hf.started hf.initCall
        (by rw [hb.status]; exact id)

theorem life_boot : Life Sys.boot := ⟨rfl, nofun, fun _ => rfl, nofun⟩

theorem life_of_reach {ok : Sys → Act → Prop} {s : Sys}
    (h : client.Reach ok s) : Life s :=
  h.invariant (I := Life) life_boot fun _ _ _ hi _ h => life_step hi h

/-- The other parties leave a task that is alive where it is. -/
theorem foreign_alive {a : Act} {s s' : Sys} (ha : a.isTask = false)
    (hi : Life s) (halive : s.task ≠ .dead) (h : apply a s = some s') :
    s'.task = s.task :=
  (foreign_task ha h).resolve_right fun hc =>
    halive (phase_dead (hi.create hc.1))

-- ================================================== between the requests

/-- No request is open: nobody is being served, nothing that is on its
way to the head of the data loop would find one there, and a parked task
is at most asked to reconnect. -/
structure Unasked (s : Sys) : Prop where
  serving : s.task.phase.stand ≠ .serving
  heading : s.task.phase.stand = .heading → 0 < s.doPpposConnect
  parked : s.task.phase = .parked → 0 ≤ s.doPpposConnect

theorem Unasked.congr {s s' : Sys} (hi : Unasked s)
    (ht : s'.task = s.task)
    (hdo : s'.doPpposConnect = s.doPpposConnect) : Unasked s' := by
  refine ⟨?_, ?_, ?_⟩
  · rw [ht]
    exact hi.serving
  · rw [ht, hdo]
    exact hi.heading
  · rw [ht, hdo]
    exact hi.parked

/-- The task opens no request. -/
theorem unasked_task {i : TaskIn} {s s' : Sys} (hi : Unasked s)
    (h : taskStep i s = some s') : Unasked s' := by
  cases taskStep_request h with
  | keep hstand hparked hdo =>
      refine ⟨?_, ?_, ?_⟩
      · rw [hstand]
        exact hi.serving
      · rw [hstand, hdo]
        exact hi.heading
      · rw [hdo]
        exact fun hp => hi.parked (hparked hp)
  | take hstand hreq hstand' hdo =>
      have := hi.heading hstand
      omega
  | done hparks hstand' hdo =>
      exact absurd (stand_of_parks hparks) hi.serving
  | giveUp hstand hp' hfail hdo =>
      exact ⟨by simp [hp', Phase.stand], by simp [hp', Phase.stand],
        by simp [hp']⟩
  | resume hp hreq hp' hdo =>
      have := hi.parked hp
      refine ⟨by simp [hp', Phase.stand], fun _ => ?_, by simp [hp']⟩
      rw [hdo]
      omega

/-- `ppposInit` opens none either, if the task it creates starts under
the 1 it wrote. -/
theorem unasked_init {i : InitIn} {s s' : Sys} (hi : Unasked s)
    (hcreate : s.initCall = .create → s.doPpposConnect = 1)
    (h : initStep i s = some s') : Unasked s' := by
  have hkeep : SameRequest s s' → Unasked s' := fun hsame =>
    hi.congr hsame.task hsame.request
  cases initStep_effect h with
  | call hin hloc hloc' hdo htask hsticky =>
      refine ⟨?_, fun _ => by omega, fun _ => by omega⟩
      rw [htask]
      exact hi.serving
  | make made hloc hloc' hdo htask hsticky =>
      have hreq := hdo.trans (hcreate hloc)
      refine ⟨?_, fun _ => by omega, fun _ => by omega⟩
      rw [htask]
      cases made
      · exact hi.serving
      · simp [Loc.phase, Phase.stand]
  | abandon hloc hloc' hsame => exact hkeep hsame
  | wait made hloc hdown hloc' hsame => exact hkeep hsame
  | seen made hloc hup hloc' hsame => exact hkeep hsame
  | poll hloc hloc' hsame => exact hkeep hsame

end ShZ001.Gsm
