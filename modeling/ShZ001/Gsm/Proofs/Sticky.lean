/-
A disconnect sticks (libGSM.h 44–51): between the return of a
`ppposDisconnect` call and the next `ppposInit` call nothing dials and
the status never says connected.

# Where it fails

`ppposDisconnect` returns at once when its one status sample reads
`IDLE`, and `IDLE` has three meanings: parked, dialling, about to
re-initialise after a drop. Only the first is disconnected; from the
other two the task goes on and connects behind the caller's back.

# The condition

`Kept` asks that the sample reads `IDLE` only of a task at rest. Its
other two parts are the calling discipline (one thread makes the two
calls) and lwIP's contract with the status callback:

- `PPPERR_NONE` comes from a session that is alive;
- a code that says disconnected comes from a session that is alive or
  in answer to `pppapi_close`, which on a session that is over calls
  back with `PPPERR_USER` before it returns. The client relies on that
  answer: after a drop it closes the dead session once more (line 682),
  and a disconnect request waits for it (lines 624–626).

The second part is asked in the weakest form the proof needs: such a
code may come at any moment but two, while the task dials and while it
is parked. There the status must read the `IDLE` that the task wrote,
and neither place is inside a `pppapi_close` or behind one.

# The three invariants

- `SessionInv`: where a session can be alive, and what the status says
  outside the session's phases.
- `AskInv`: where a request can be; the two calls do not overlap.
- `RestInv`: what a disconnected period looks like.

`keptInv_of_kept` carries the three through a kept run together, and
`disconnectSticks_of_kept` reads the law off them.
-/
import ShZ001.Gsm.Handshake

namespace ShZ001.Gsm

open Lib Machine

/-- An entry is no dial in a disconnected period: no `pppapi_connect` is
logged while the entries before it end in the return of a
`ppposDisconnect` call. -/
def NotInPeriod (e : Ev) (past : List Ev) : Prop :=
  e.isConnect = true → sticky past = false

/-- The law: no dial and no connection in a disconnected period. -/
structure DisconnectSticks (s : Sys) : Prop where
  connect : Always NotInPeriod s.log
  status : sticky s.log = true → s.gsmStatus ≠ .connected

/-- The link drops, the task marks itself idle and re-initialises; a
disconnect at that moment returns at once, and the redial connects. -/
theorem disconnectSticks_fails :
    ∃ s, client.Reach anyStep s ∧ ¬ DisconnectSticks s := by
  obtain ⟨s, hr, hs⟩ := exists_reach client anyStep
    (bringUp ++ [.cb .errConnect, .task .go, .task .go, .task .go,
      .disc (.call false false)] ++ initPass
      ++ List.replicate 5 (.task .go) ++ [.cb .errNone])
    (fun s => sticky s.log ∧ s.gsmStatus = .connected) (by decide)
  obtain ⟨hsticky, hst⟩ := of_decide_eq_true hs
  exact ⟨s, hr, fun hlaw => hlaw.status hsticky hst⟩

/-- The sample of `ppposDisconnect` reads `IDLE` only of a task at rest
and not asked to reconnect. One thread calls `ppposInit` and
`ppposDisconnect`. A code the callback acts on comes from a live
session, or it says disconnected and the task is neither dialling nor
parked: the answers to the closes of lines 624 and 682 are of this
kind, whether or not a session is left to close. -/
def Kept (s : Sys) : Act → Prop
  | .disc (.call _ _) =>
      s.initCall = .outside ∧
      (s.gsmStatus = .idle → s.task.phase.stand = .resting ∧
        (s.task.phase = .parked → s.doPpposConnect = 0))
  | .init .call => s.discCall = .outside
  | .cb err => err.isHandled = true → live s.log = true ∨
      err ≠ .errNone ∧ s.task.phase ≠ .dialling ∧ s.task.phase ≠ .parked
  | _ => True

instance (s : Sys) : (a : Act) → Decidable (Kept s a)
  | .disc (.call _ _) =>
      inferInstanceAs (Decidable (s.initCall = .outside ∧
        (s.gsmStatus = .idle → s.task.phase.stand = .resting ∧
          (s.task.phase = .parked → s.doPpposConnect = 0))))
  | .init .call => inferInstanceAs (Decidable (s.discCall = .outside))
  | .cb err =>
      inferInstanceAs (Decidable (err.isHandled = true →
        live s.log = true ∨ err ≠ .errNone ∧
          s.task.phase ≠ .dialling ∧ s.task.phase ≠ .parked))
  | .init .noMutex | .init (.make _) | .init .poll => isTrue trivial
  | .disc .write | .disc .poll | .task _ => isTrue trivial
  | .out _ | .outCount | .modem _ _ | .getCounts _ | .resetCounts =>
      isTrue trivial

-- ============================================================ the session

/-- The phases in which a session can be alive. -/
def Phase.inSession : Phase → Bool
  | .online => true
  | .draining _ => true
  | _ => false

/-- Outside those phases no session is alive and the status says so;
inside them `DISCONNECTED` means that the session is over. -/
structure SessionInv (s : Sys) : Prop where
  outside : s.task.phase.inSession = false →
    live s.log = false ∧ s.gsmStatus ≠ .connected
  inside : s.task.phase.inSession = true → s.gsmStatus = .disconnected →
    live s.log = false
  idle : s.task.phase = .dialling ∨ s.task.phase = .parked →
    s.gsmStatus = .idle

/-- A state outside the sessions that does not wait for its status to
read idle. -/
private theorem sessionInv_out {s : Sys}
    (hp : s.task.phase.inSession = false) (hlive : live s.log = false)
    (hst : s.gsmStatus ≠ .connected)
    (hidle : s.task.phase = .dialling ∨ s.task.phase = .parked →
      s.gsmStatus = .idle) : SessionInv s :=
  ⟨fun _ => ⟨hlive, hst⟩, fun h => by simp [hp] at h, hidle⟩

/-- A step of the task: it enters the session with the dial and leaves it
when the status has told its end. -/
private theorem sessionInv_task {i : TaskIn} {s s' : Sys}
    (hi : SessionInv s) (h : taskStep i s = some s') : SessionInv s' := by
  have hf := taskStep_frame h
  have hlive : s.task.phase ≠ .dialling → live s'.log = live s.log := by
    intro hp
    exact (link_quiet (hf.quiet fun hc =>
      hp (congrArg Loc.phase hc))).2.2.1
  -- a move between two phases outside the sessions
  have hmove : s.task.phase ≠ .dialling → s.task.phase.inSession = false →
      s'.task.phase.inSession = false → s'.gsmStatus ≠ .connected →
      (s'.task.phase = .dialling ∨ s'.task.phase = .parked →
        s'.gsmStatus = .idle) → SessionInv s' := by
    intro hne hp hp' hst hidle
    refine sessionInv_out hp' ?_ hst hidle
    rw [hlive hne]
    exact (hi.outside hp).1
  cases taskStep_effect h with
  | stay hphase hne hsame =>
      refine ⟨?_, ?_, ?_⟩
      · rw [hphase, hlive hne, hsame.status]
        exact hi.outside
      · rw [hphase, hlive hne, hsame.status]
        exact hi.inside
      · rw [hphase, hsame.status]
        exact hi.idle
  | raise hp hp' hst hdo hup =>
      refine hmove (by simp [hp]) (by rw [hp]; rfl) (by rw [hp']; rfl) ?_
        (by simp [hp'])
      rw [hst]
      exact (hi.outside (by rw [hp]; rfl)).2
  | bootFail hp hp' hsame hfail =>
      refine hmove (by simp [hp]) (by rw [hp]; rfl) (by rw [hp']; rfl) ?_
        (by simp [hp'])
      rw [hsame.status]
      exact (hi.outside (by rw [hp]; rfl)).2
  | boot hp hp' hst hdo hup =>
      exact hmove (by simp [hp]) (by rw [hp]; rfl) (by rw [hp']; rfl)
        (by simp [hst]) (by simp [hp'])
  | initFail hp hp' hsame hfail =>
      refine hmove (by simp [hp]) (by rw [hp]; rfl) (by rw [hp']; rfl) ?_
        (by simp [hp'])
      rw [hsame.status]
      exact (hi.outside (by rw [hp]; rfl)).2
  | ready hp hp' hst hdo hup =>
      exact hmove (by simp [hp]) (by rw [hp]; rfl) (by rw [hp']; rfl)
        (by simp [hst]) fun _ => hst
  | dial hp hp' hsame =>
      -- a new session, under the `IDLE` that precedes it
      have hst := hsame.status.trans (hi.idle (.inl hp))
      refine ⟨?_, ?_, ?_⟩
      · simp [hp', Phase.inSession]
      · simp [hst]
      · simp [hp']
  | request hp hp' hreq hdo hst hup =>
      refine ⟨?_, ?_, ?_⟩
      · simp [hp', Phase.inSession]
      · rw [hlive (by simp [hp]), hst]
        exact fun _ => hi.inside (by rw [hp]; rfl)
      · simp [hp']
  | dropped hp hp' hst hsame =>
      have hst' := hsame.status.trans hst
      refine sessionInv_out (by rw [hp']; rfl) ?_ (by simp [hst'])
        (by simp [hp'])
      rw [hlive (by simp [hp])]
      exact hi.inside (by rw [hp]; rfl) hst
  | redial hp hp' hst hdo hup =>
      exact hmove (by simp [hp]) (by rw [hp]; rfl) (by rw [hp']; rfl)
        (by simp [hst]) (by simp [hp'])
  | drained endTask hp hp' hst hsame =>
      have hst' := hsame.status.trans hst
      refine sessionInv_out (by rw [hp']; rfl) ?_ (by simp [hst'])
        (by simp [hp'])
      rw [hlive (by simp [hp])]
      exact hi.inside (by rw [hp]; rfl) hst
  | park endTask hp hp' hst hdo hup =>
      refine hmove (by simp [hp, Loc.phase]) (by rw [hp]; rfl) ?_
        (by simp [hst]) fun _ => hst
      rw [hp']
      split <;> rfl
  | resume hp hp' hreq hsame =>
      refine hmove (by simp [hp]) (by rw [hp]; rfl) (by rw [hp']; rfl) ?_
        (by simp [hp'])
      rw [hsame.status]
      exact (hi.outside (by rw [hp]; rfl)).2
  | die hp hp' hst hdo hup =>
      exact hmove (by simp [hp]) (by rw [hp]; rfl) (by rw [hp']; rfl)
        (by simp [hst]) (by simp [hp'])

/-- An ending code that finds no session alive: it writes
`DISCONNECTED` at most, and in the phases that ask the status for `IDLE`
a kept one is not acted on. -/
private theorem sessionInv_over {err : PppErr} {s : Sys}
    (hi : SessionInv s) (hok : Kept s (.cb err))
    (hl : live s.log = false) :
    SessionInv { s with
      gsmStatus := pppStatusCb err s.gsmStatus
      log := .cb err :: s.log } := by
  have hlive : live (.cb err :: s.log) = false := by simp [hl]
  cases hh : err.isHandled with
  | false =>
      have hst := pppStatusCb_unhandled hh s.gsmStatus
      refine ⟨fun hp => ⟨hlive, ?_⟩, fun _ _ => hlive, fun hp => ?_⟩
      · exact hst.trans_ne (hi.outside hp).2
      · exact hst.trans (hi.idle hp)
  | true =>
      obtain h | ⟨hne, hdial, hpark⟩ := hok hh
      · simp [hl] at h
      · have hst := pppStatusCb_ended hh hne s.gsmStatus
        refine ⟨fun _ => ⟨hlive, ?_⟩, fun _ _ => hlive, fun hp => ?_⟩
        · exact hst.trans_ne nofun
        · exact (hp.elim hdial hpark).elim

/-- A code from a session that is alive: the task is in one of the
session's phases, and only an ending code says disconnected. -/
private theorem sessionInv_alive {err : PppErr} {s : Sys}
    (hi : SessionInv s) (hl : live s.log = true) :
    SessionInv { s with
      gsmStatus := pppStatusCb err s.gsmStatus
      log := .cb err :: s.log } := by
  have hin : s.task.phase.inSession = true := by
    cases hp : s.task.phase.inSession with
    | true => rfl
    | false => exact absurd (hi.outside hp).1 (by simp [hl])
  refine ⟨fun hp => ?_, fun _ hst => ?_, fun hp => ?_⟩
  · exact absurd hin (by simp [show s.task.phase.inSession = false
      from hp])
  · have hne : err ≠ .errNone := by
      intro h
      subst h
      cases hst
    change live (.cb err :: s.log) = false
    simp [hne]
  · rcases (hp : s.task.phase = .dialling ∨ s.task.phase = .parked)
      with hp | hp <;> simp [hp, Phase.inSession] at hin

/-- A kept call of the status callback. -/
private theorem sessionInv_cb {err : PppErr} {s s' : Sys}
    (hi : SessionInv s) (hok : Kept s (.cb err))
    (h : cbStep err s = some s') : SessionInv s' := by
  unfold cbStep at h
  split at h <;> cases h
  cases hl : live s.log with
  | false => exact sessionInv_over hi hok hl
  | true => exact sessionInv_alive hi hl

/-- The others write neither status nor session, and a task they make is at
its start. -/
private theorem sessionInv_bystander {a : Act} {s s' : Sys}
    (hi : SessionInv s) (hl : Life s) (ha : a.isBystander = true)
    (h : apply a s = some s') : SessionInv s' := by
  have hf := bystander_frame ha h
  rcases hf.task with ht | ⟨hc, ht⟩
  · refine ⟨?_, ?_, ?_⟩
    · rw [ht, hf.live, hf.status]
      exact hi.outside
    · rw [ht, hf.live, hf.status]
      exact hi.inside
    · rw [ht, hf.status]
      exact hi.idle
  · obtain ⟨hlive, hst⟩ := hi.outside (by rw [hl.create hc]; rfl)
    refine sessionInv_out (by rw [ht]; rfl) ?_ ?_ (by simp [ht, Loc.phase])
    · rw [hf.live, hlive]
    · rwa [hf.status]

theorem sessionInv_step {a : Act} {s s' : Sys} (hi : SessionInv s)
    (hl : Life s) (hok : Kept s a) (h : apply a s = some s') :
    SessionInv s' := by
  cases a with
  | task i => exact sessionInv_task hi h
  | cb err => exact sessionInv_cb hi hok h
  | _ => exact sessionInv_bystander hi hl rfl h

-- ============================================================ the request

/-- The two calls do not overlap, and a `ppposDisconnect` that sees its
0 sees a task at rest. -/
structure AskInv (s : Sys) : Prop where
  alone : s.discCall = .outside ∨ s.initCall = .outside
  create : s.initCall = .create → s.doPpposConnect = 1
  idle : s.discCall ≠ .loop1 → s.discCall ≠ .loop2 → Unasked s
  loop2 : s.discCall = .loop2 → s.doPpposConnect = 0 →
    s.task.phase.stand = .resting

/-- The task takes a request, and answers it at rest. -/
private theorem askInv_task {i : TaskIn} {s s' : Sys} (hi : AskInv s)
    (hl : Life s) (h : taskStep i s = some s') : AskInv s' := by
  have hf := taskStep_frame h
  refine ⟨?_, ?_, ?_, ?_⟩
  · rw [hf.discCall, hf.initCall]
    exact hi.alone
  · rw [hf.initCall]
    intro hc
    have hdead := hl.create hc
    cases taskStep_request h with
    | keep hstand hparked hdo => rw [hdo, hi.create hc]
    | take hstand hreq hstand' hdo => exact hdo
    | done hparks hstand' hdo =>
        have := stand_of_parks hparks
        simp [hdead, Phase.stand] at this
    | giveUp hstand hp' hfail hdo => rw [hdo, hi.create hc]
    | resume hp hreq hp' hdo => rw [hdo, hi.create hc]
  · rw [hf.discCall]
    exact fun h1 h2 => unasked_task (hi.idle h1 h2) h
  · rw [hf.discCall]
    intro h2
    cases taskStep_request h with
    | keep hstand hparked hdo =>
        rw [hstand, hdo]
        exact hi.loop2 h2
    | take hstand hreq hstand' hdo => simp [hdo]
    | done hparks hstand' hdo => exact fun _ => hstand'
    | giveUp hstand hp' hfail hdo =>
        rw [hp']
        exact fun _ => rfl
    | resume hp hreq hp' hdo =>
        rw [hdo]
        exact fun hz => absurd hz hreq

/-- `ppposInit` is called by the thread that is not in `ppposDisconnect`.
-/
private theorem askInv_init {i : InitIn} {s s' : Sys} (hi : AskInv s)
    (hok : Kept s (.init i)) (h : initStep i s = some s') :
    AskInv s' := by
  have hf := initStep_frame h
  -- whichever step it is, the other call is outside
  have hout : s.discCall = .outside := by
    cases initStep_effect h with
    | call hin hloc hloc' hdo htask hsticky =>
        subst hin
        exact hok
    | abandon hloc hloc' hsame => simpa [hloc] using hi.alone
    | make made hloc hloc' hdo htask hsticky => simpa [hloc] using hi.alone
    | wait made hloc hdown hloc' hsame => simpa [hloc] using hi.alone
    | seen made hloc hup hloc' hsame => simpa [hloc] using hi.alone
    | poll hloc hloc' hsame => simpa [hloc] using hi.alone
  refine ⟨.inl (hf.discCall.trans hout), ?_, ?_, ?_⟩
  · intro hc
    cases initStep_effect h with
    | call hin hloc hloc' hdo htask hsticky => exact hdo
    | abandon hloc hloc' hsame => simp [hloc'] at hc
    | make made hloc hloc' hdo htask hsticky => simp [hloc'] at hc
    | wait made hloc hdown hloc' hsame => simp [hloc'] at hc
    | seen made hloc hup hloc' hsame => simp [hloc'] at hc
    | poll hloc hloc' hsame =>
        rcases hloc' with hloc' | hloc' <;> simp [hloc'] at hc
  · rw [hf.discCall]
    exact fun h1 h2 => unasked_init (hi.idle h1 h2) hi.create h
  · simp [hf.discCall, hout]

/-- `ppposDisconnect` leaves its loops on the value it waits for. -/
private theorem askInv_disc {i : DiscIn} {s s' : Sys} (hi : AskInv s)
    (hok : Kept s (.disc i)) (h : discStep i s = some s') :
    AskInv s' := by
  have hf := discStep_frame h
  -- whichever step it is, the other call is outside
  have hout : s.initCall = .outside := by
    cases discStep_effect h with
    | skip endTask rfoff hin hloc hidle hloc' hdo hsticky =>
        subst hin
        exact hok.1
    | enter endTask rfoff hin hloc hst hloc' hsame =>
        subst hin
        exact hok.1
    | write endTask rfoff hin hloc hloc' hdo hsticky =>
        simpa [hloc] using hi.alone
    | spin hloc hdo hloc' hsame => simpa [hloc] using hi.alone
    | taken hloc hdo hloc' hsame => simpa [hloc] using hi.alone
    | await hloc hdo hloc' hsame => simpa [hloc] using hi.alone
    | finish hloc hdo hloc' hdo' hsticky => simpa [hloc] using hi.alone
  have halone : s'.discCall = .outside ∨ s'.initCall = .outside :=
    .inr (hf.initCall.trans hout)
  have hcreate : s'.initCall = .create → s'.doPpposConnect = 1 := by
    simp [hf.initCall, hout]
  cases discStep_effect h with
  | skip endTask rfoff hin hloc hidle hloc' hdo hsticky =>
      refine ⟨halone, hcreate, fun _ _ => ?_, by simp [hloc']⟩
      exact (hi.idle (by simp [hloc]) (by simp [hloc])).congr hf.task hdo
  | enter endTask rfoff hin hloc hst hloc' hsame =>
      refine ⟨halone, hcreate, fun _ _ => ?_, by simp [hloc']⟩
      exact (hi.idle (by simp [hloc]) (by simp [hloc])).congr hf.task
        hsame.request
  | write endTask rfoff hin hloc hloc' hdo hsticky =>
      exact ⟨halone, hcreate, by simp [hloc'], by simp [hloc']⟩
  | spin hloc hdo hloc' hsame =>
      exact ⟨halone, hcreate, by simp [hloc'], by simp [hloc']⟩
  | taken hloc hdo hloc' hsame =>
      refine ⟨halone, hcreate, by simp [hloc'], fun _ hz => ?_⟩
      rw [hsame.request] at hz
      exact absurd hz hdo
  | await hloc hdo hloc' hsame =>
      refine ⟨halone, hcreate, by simp [hloc'], fun _ hz => ?_⟩
      rw [hsame.request] at hz
      exact absurd hz hdo
  | finish hloc hdo hloc' hdo' hsticky =>
      have hrest := hi.loop2 hloc hdo
      refine ⟨halone, hcreate, fun _ _ => ?_, by simp [hloc']⟩
      exact ⟨by simp [hf.task, hrest], by simp [hf.task, hrest],
        fun _ => by omega⟩

theorem askInv_step {a : Act} {s s' : Sys} (hi : AskInv s) (hl : Life s)
    (hok : Kept s a) (h : apply a s = some s') : AskInv s' := by
  cases a with
  | task i => exact askInv_task hi hl h
  | init i => exact askInv_init hi hok h
  | disc i => exact askInv_disc hi hok h
  | _ =>
      have hf := outsider_frame rfl h
      refine ⟨?_, ?_, ?_, ?_⟩
      · rw [hf.discCall, hf.initCall]
        exact hi.alone
      · rw [hf.initCall, hf.request]
        exact hi.create
      · rw [hf.discCall]
        exact fun h1 h2 => (hi.idle h1 h2).congr hf.task hf.request
      · rw [hf.discCall, hf.request, hf.task]
        exact hi.loop2

-- ================================================= the disconnected period

/-- What a disconnected period looks like: the task rests, a parked one
without a request and with nobody about to make one. -/
structure RestInv (s : Sys) : Prop where
  initCall : sticky s.log = true → s.initCall = .outside
  stand : sticky s.log = true → s.task.phase.stand = .resting
  parked : sticky s.log = true → s.task.phase = .parked →
    s.doPpposConnect = 0 ∧ s.discCall = .outside

/-- A task that rests goes on resting, unless it is parked and has been
asked. -/
private theorem restInv_task {i : TaskIn} {s s' : Sys} (hi : RestInv s)
    (h : taskStep i s = some s') : RestInv s' := by
  have hf := taskStep_frame h
  -- the task opens and ends no disconnected period
  have hsticky : sticky s'.log = sticky s.log := by
    by_cases hc : s.task = .connect
    · simp [hf.dial hc]
    · exact (link_quiet (hf.quiet hc)).2.2.2
  refine ⟨?_, ?_, ?_⟩
  · rw [hsticky, hf.initCall]
    exact hi.initCall
  · rw [hsticky]
    intro hs
    have hrest := hi.stand hs
    cases taskStep_request h with
    | keep hstand hparked hdo => rw [hstand, hrest]
    | take hstand hreq hstand' hdo => simp [hstand] at hrest
    | done hparks hstand' hdo => exact hstand'
    | giveUp hstand hp' hfail hdo => simp [hstand] at hrest
    | resume hp hreq hp' hdo => exact absurd (hi.parked hs hp).1 hreq
  · rw [hsticky, hf.discCall]
    intro hs hp'
    have hrest := hi.stand hs
    cases taskStep_request h with
    | keep hstand hparked hdo =>
        rw [hdo]
        exact hi.parked hs (hparked hp')
    | take hstand hreq hstand' hdo => simp [hstand] at hrest
    | done hparks hstand' hdo =>
        simp [stand_of_parks hparks] at hrest
    | giveUp hstand hp₁ hfail hdo => simp [hstand] at hrest
    | resume hp hreq hp₁ hdo => exact absurd (hi.parked hs hp).1 hreq

/-- `ppposInit` ends the period with its first step. -/
private theorem restInv_init {i : InitIn} {s s' : Sys} (hi : RestInv s)
    (h : initStep i s = some s') : RestInv s' := by
  -- inside the call there is no disconnected period
  have hbusy : s.initCall ≠ .outside → sticky s.log = false := by
    intro hne
    cases hs : sticky s.log with
    | true => exact absurd (hi.initCall hs) hne
    | false => rfl
  have hend : sticky s'.log = false → RestInv s' := by
    intro hs
    refine ⟨?_, ?_, ?_⟩ <;> simp [hs]
  cases initStep_effect h with
  | call hin hloc hloc' hdo htask hsticky => exact hend hsticky
  | abandon hloc hloc' hsame =>
      exact hend (hsame.sticky.trans (hbusy (by simp [hloc])))
  | make made hloc hloc' hdo htask hsticky =>
      exact hend (hsticky.trans (hbusy (by simp [hloc])))
  | wait made hloc hdown hloc' hsame =>
      exact hend (hsame.sticky.trans (hbusy (by simp [hloc])))
  | seen made hloc hup hloc' hsame =>
      exact hend (hsame.sticky.trans (hbusy (by simp [hloc])))
  | poll hloc hloc' hsame =>
      exact hend (hsame.sticky.trans (hbusy (by simp [hloc])))

/-- `ppposDisconnect` opens it with its last one: by its sample, which the
condition reads, or by the 0 of a task that has parked or is about to end.
-/
private theorem restInv_disc {i : DiscIn} {s s' : Sys} (hi : RestInv s)
    (hses : SessionInv s) (hask : AskInv s) (hok : Kept s (.disc i))
    (h : discStep i s = some s') : RestInv s' := by
  have hf := discStep_frame h
  -- a step inside the call: it is not inside a period of a parked task
  have hkeep : s.discCall ≠ .outside → sticky s'.log = sticky s.log →
      RestInv s' := by
    intro hne hs
    refine ⟨?_, ?_, ?_⟩
    · rw [hs, hf.initCall]
      exact hi.initCall
    · rw [hs, hf.task]
      exact hi.stand
    · rw [hs, hf.task]
      exact fun hst hp => absurd (hi.parked hst hp).2 hne
  cases discStep_effect h with
  | skip endTask rfoff hin hloc hidle hloc' hdo hsticky =>
      subst hin
      obtain ⟨hout, hrest⟩ := hok
      obtain ⟨hstand, hparked⟩ := hrest hidle
      refine ⟨fun _ => ?_, fun _ => ?_, fun _ hp => ⟨?_, hloc'⟩⟩
      · rw [hf.initCall, hout]
      · rw [hf.task, hstand]
      · rw [hdo]
        exact hparked (by rwa [← hf.task])
  | enter endTask rfoff hin hloc hst hloc' hsame =>
      refine ⟨?_, ?_, ?_⟩
      · rw [hsame.sticky, hf.initCall]
        exact hi.initCall
      · rw [hsame.sticky, hf.task]
        exact hi.stand
      · -- a parked task reads `IDLE`
        rw [hf.task]
        exact fun _ hp => absurd (hses.idle (.inr hp)) hst
  | write endTask rfoff hin hloc hloc' hdo hsticky =>
      exact hkeep (by simp [hloc]) hsticky
  | spin hloc hdo hloc' hsame => exact hkeep (by simp [hloc]) hsame.sticky
  | taken hloc hdo hloc' hsame => exact hkeep (by simp [hloc]) hsame.sticky
  | await hloc hdo hloc' hsame => exact hkeep (by simp [hloc]) hsame.sticky
  | finish hloc hdo hloc' hdo' hsticky =>
      refine ⟨fun _ => ?_, fun _ => ?_, fun _ _ => ⟨?_, hloc'⟩⟩
      · rw [hf.initCall]
        simpa [hloc] using hask.alone
      · rw [hf.task, hask.loop2 hloc hdo]
      · rw [hdo', hdo]

theorem restInv_step {a : Act} {s s' : Sys} (hi : RestInv s)
    (hses : SessionInv s) (hask : AskInv s) (hok : Kept s a)
    (h : apply a s = some s') : RestInv s' := by
  cases a with
  | task i => exact restInv_task hi h
  | init i => exact restInv_init hi h
  | disc i => exact restInv_disc hi hses hask hok h
  | _ =>
      have hf := outsider_frame rfl h
      refine ⟨?_, ?_, ?_⟩
      · rw [hf.sticky, hf.initCall]
        exact hi.initCall
      · rw [hf.sticky, hf.task]
        exact hi.stand
      · rw [hf.sticky, hf.task, hf.request, hf.discCall]
        exact hi.parked

-- ================================================================ the law

/-- The four invariants of a kept run, together. -/
structure KeptInv (s : Sys) : Prop where
  life : Life s
  session : SessionInv s
  ask : AskInv s
  rest : RestInv s

theorem keptInv_of_kept {s : Sys} (h : client.Reach Kept s) :
    KeptInv s := by
  refine h.invariant (I := KeptInv) ⟨life_boot, ?_, ?_, ?_⟩ ?_
  · exact ⟨fun _ => ⟨rfl, nofun⟩, nofun, nofun⟩
  · exact ⟨.inl rfl, nofun, fun _ _ => ⟨nofun, nofun, nofun⟩, nofun⟩
  · exact ⟨nofun, nofun, nofun⟩
  · intro s a s' hi hok h
    exact ⟨life_step hi.life h, sessionInv_step hi.session hi.life hok h,
      askInv_step hi.ask hi.life hok h,
      restInv_step hi.rest hi.session hi.ask hok h⟩

/-- No step of a kept run dials in a disconnected period: only the task
dials, and there it rests. -/
private theorem connect_step {a : Act} {s s' : Sys} (hi : RestInv s)
    (hlog : Always NotInPeriod s.log) (h : apply a s = some s') :
    Always NotInPeriod s'.log := by
  have hforeign : a.isTask = false → Always NotInPeriod s'.log := by
    intro ha
    obtain ⟨es, hes, hnone⟩ := foreign_log ha h
    rw [hes]
    refine always_append (fun e he past hc => ?_) hlog
    have := hnone e he
    cases e <;> simp_all [Ev.isTask, Ev.isConnect]
  cases a with
  | task i =>
      have hf := taskStep_frame h
      by_cases hc : s.task = .connect
      · rw [hf.dial hc]
        refine ⟨fun _ => ?_, hlog⟩
        cases hs : sticky s.log with
        | false => rfl
        | true =>
            have := hi.stand hs
            simp [hc, Loc.phase, Phase.stand] at this
      · rcases hf.quiet hc with hl | ⟨e, he, hl⟩
        · rwa [hl]
        · rw [hl]
          refine ⟨fun hcon => ?_, hlog⟩
          cases e with
          | pcb call p => cases call <;> simp_all [Ev.isLink, Ev.isConnect]
          | _ => simp [Ev.isConnect] at hcon
  | _ => exact hforeign rfl

/-- In a kept run a disconnect sticks.

The period may be entered at any time, by a call that finds nothing to do
or by one that has been served, and lasts as long as the caller likes. In
it the task is at rest, and so it neither dials nor is in a phase in which
the callback could say connected. -/
theorem disconnectSticks_of_kept {s : Sys} (h : client.Reach Kept s) :
    DisconnectSticks s := by
  have hi := keptInv_of_kept h
  refine ⟨?_, fun hs => ?_⟩
  · refine h.invariant_of (I := fun t => Always NotInPeriod t.log)
      (J := KeptInv) (fun _ => keptInv_of_kept) (always_nil _) ?_
    intro s a s' hlog hj _ _ h
    exact connect_step hj.rest hlog h
  · have hrest := hi.rest.stand hs
    refine (hi.session.outside ?_).2
    cases hp : s.task.phase <;> simp_all [Phase.stand, Phase.inSession]

/-- After a drop: the dead session is closed, which is answered at
once, and the task dials again and connects. -/
def redialUp : List Act :=
  [.cb .errConnect, .task .go, .task .go, .cb .errUser, .task .go]
    ++ initPass ++ List.replicate 5 (.task .go) ++ [.cb .errNone]

/-- A kept run through a connection, a drop with the redial after it and
a disconnect, into the disconnected period. -/
theorem disconnectSticks_parked : ∃ s, client.Reach Kept s
    ∧ sticky s.log = true ∧ s.task = .parked ∧ DisconnectSticks s := by
  obtain ⟨s, hr, hs⟩ := exists_reach client Kept
    (bringUp ++ redialUp ++ hangUp false)
    (fun s => sticky s.log ∧ s.task = .parked) (by decide)
  obtain ⟨hsticky, hpark⟩ := of_decide_eq_true hs
  exact ⟨s, hr, hsticky, hpark, disconnectSticks_of_kept hr⟩

end ShZ001.Gsm
