/-
What `gsm_status` says about the session (libGSM.h 66–76): that
`CONNECTED` means connected, and that a session that has ended is seen
as `DISCONNECTED` by the data loop that would redial it.

# Where it fails

Eleven of the fourteen cases of `ppp_status_cb` leave the status alone
(`pppStatusCb_unhandled`). A session that ends with one of their codes
stays `CONNECTED`, or stays `IDLE` while it is being negotiated, and the
task waits for ever on a link that is gone.

# The condition

`Settled` lets those codes arrive only where nothing depends on them,
and `PPPERR_NONE` only from a session that has not ended. It asks
nothing of the task or of the callers.

# The invariant

`StatusInv` is the law, and what a dial needs besides: that the status
is not connected when `pppapi_connect` starts a session that no callback
has spoken for. The cases are those of the phases (`Phase.lean`): a step
of the task inside its phase leaves the status alone, and the few that
leave it write the status themselves.
-/
import ShZ001.Gsm.Link

namespace ShZ001.Gsm

open Lib Machine

-- ================================================================ the law

/-- The status tells the truth about the session: connected only after
`PPPERR_NONE`, and once the session has ended, disconnected for as long
as the task is in that data loop. -/
structure StatusLaw (s : Sys) : Prop where
  connected : s.gsmStatus = .connected → lastCb s.log = some .errNone
  ended : ended s.log = true → s.task.phase.inDataLoop = true →
    s.gsmStatus = .disconnected

instance (s : Sys) : Decidable (StatusLaw s) :=
  decidable_of_iff
    ((s.gsmStatus = .connected → lastCb s.log = some .errNone) ∧
      (ended s.log = true → s.task.phase.inDataLoop = true →
        s.gsmStatus = .disconnected))
    ⟨fun h => ⟨h.1, h.2⟩, fun h => ⟨h.connected, h.ended⟩⟩

/-- The peer dies on an established connection: the status stays
connected and the data loop never redials. -/
theorem statusLaw_fails : ∃ s, client.Reach anyStep s ∧ ¬ StatusLaw s := by
  obtain ⟨s, hr, hs⟩ := exists_reach client anyStep
    (bringUp ++ [.cb .errPeerdead]) (fun s => !decide (StatusLaw s))
    (by decide)
  exact ⟨s, hr, by simpa using hs⟩

/-- When a callback is harmless. `PPPERR_NONE` comes from a session that
has not ended, and not in the window between the task's write of `IDLE`
and its `pppapi_connect`; a code the callback does not handle comes when
the status is already disconnected, or when it is not connected and no
data loop is running. -/
def Settled (s : Sys) : Act → Prop
  | .cb err =>
      (err = .errNone → ended s.log = false ∧ s.task.phase ≠ .dialling) ∧
      (err.isHandled = false → s.gsmStatus = .disconnected ∨
        s.gsmStatus ≠ .connected ∧ s.task.phase.inDataLoop = false)
  | _ => True

instance (s : Sys) : (a : Act) → Decidable (Settled s a)
  | .cb err =>
      inferInstanceAs (Decidable
        ((err = .errNone → ended s.log = false ∧ s.task.phase ≠ .dialling) ∧
        (err.isHandled = false → s.gsmStatus = .disconnected ∨
          s.gsmStatus ≠ .connected ∧ s.task.phase.inDataLoop = false)))
  | .task _ | .init _ | .disc _ => isTrue trivial
  | .out _ | .outCount | .modem _ _ | .getCounts _ | .resetCounts =>
      isTrue trivial

-- ============================================================ the invariant

/-- The law, and what a dial needs: the status is not connected when
`pppapi_connect` starts a session that no callback has spoken for. -/
structure StatusInv (s : Sys) : Prop extends StatusLaw s where
  dialling : s.task.phase = .dialling → s.gsmStatus ≠ .connected

/-- A state in which the status does not say connected, and says
disconnected inside the data loop. -/
private theorem statusInv_of_ne {s : Sys} (hst : s.gsmStatus ≠ .connected)
    (hloop : s.task.phase.inDataLoop = true → s.gsmStatus = .disconnected) :
    StatusInv s :=
  ⟨⟨fun hc => absurd hc hst, fun _ => hloop⟩, fun _ => hst⟩

/-- A step that leaves status and callbacks alone and enters neither the
dial nor the data loop. -/
private theorem statusInv_of_same {s s' : Sys} (hi : StatusInv s)
    (hst : s'.gsmStatus = s.gsmStatus) (hcb : lastCb s'.log = lastCb s.log)
    (hended : ended s'.log = ended s.log)
    (hdial : s'.task.phase = .dialling → s.task.phase = .dialling)
    (hloop : s'.task.phase.inDataLoop = true →
      s.task.phase.inDataLoop = true) : StatusInv s' := by
  refine ⟨⟨?_, ?_⟩, ?_⟩
  · rw [hst, hcb]
    exact hi.connected
  · rw [hst, hended]
    exact fun he hl => hi.ended he (hloop hl)
  · rw [hst]
    exact fun hd => hi.dialling (hdial hd)

/-- A step of the client task. -/
private theorem statusInv_task {i : TaskIn} {s s' : Sys} (hi : StatusInv s)
    (h : taskStep i s = some s') : StatusInv s' := by
  have hf := taskStep_frame h
  -- every location but the one that calls `pppapi_connect` logs nothing
  -- about the link
  have hquiet : s.task.phase ≠ .dialling →
      lastCb s'.log = lastCb s.log ∧ ended s'.log = ended s.log := by
    intro hp
    obtain ⟨hcb, hended, -, -⟩ :=
      link_quiet (hf.quiet fun hc => hp (congrArg Loc.phase hc))
    exact ⟨hcb, hended⟩
  cases taskStep_effect h with
  | stay hphase hne hsame =>
      obtain ⟨hcb, hended⟩ := hquiet hne
      refine statusInv_of_same hi hsame.status hcb hended ?_ ?_
      all_goals
        rw [hphase]
        exact id
  | raise hp hp' hst hdo hup =>
      obtain ⟨hcb, hended⟩ := hquiet (by simp [hp])
      exact statusInv_of_same hi hst hcb hended (by simp [hp'])
        (by simp [hp', Phase.inDataLoop])
  | bootFail hp hp' hsame hfail =>
      obtain ⟨hcb, hended⟩ := hquiet (by simp [hp])
      exact statusInv_of_same hi hsame.status hcb hended (by simp [hp'])
        (by simp [hp', Phase.inDataLoop])
  | boot hp hp' hst hdo hup =>
      exact statusInv_of_ne (by simp [hst]) (by simp [hp', Phase.inDataLoop])
  | initFail hp hp' hsame hfail =>
      obtain ⟨hcb, hended⟩ := hquiet (by simp [hp])
      exact statusInv_of_same hi hsame.status hcb hended (by simp [hp'])
        (by simp [hp', Phase.inDataLoop])
  | ready hp hp' hst hdo hup =>
      exact statusInv_of_ne (by simp [hst]) (by simp [hp', Phase.inDataLoop])
  | dial hp hp' hsame =>
      -- a new session: no callback has spoken for it, none has ended it
      have hlog := hf.dial (phase_dialling hp)
      have hidle := hi.dialling hp
      refine ⟨⟨?_, ?_⟩, ?_⟩
      · rw [hsame.status]
        exact fun hc => absurd hc hidle
      · simp [hlog]
      · simp [hp']
  | request hp hp' hreq hdo hst hup =>
      obtain ⟨hcb, hended⟩ := hquiet (by simp [hp])
      exact statusInv_of_same hi hst hcb hended (by simp [hp'])
        (by simp [hp, Phase.inDataLoop])
  | dropped hp hp' hst hsame =>
      have hst' := hsame.status.trans hst
      exact statusInv_of_ne (by simp [hst']) fun _ => hst'
  | redial hp hp' hst hdo hup =>
      exact statusInv_of_ne (by simp [hst]) (by simp [hp', Phase.inDataLoop])
  | drained endTask hp hp' hst hsame =>
      have hst' := hsame.status.trans hst
      exact statusInv_of_ne (by simp [hst']) fun _ => hst'
  | park endTask hp hp' hst hdo hup =>
      refine statusInv_of_ne (by simp [hst]) ?_
      rw [hp']
      split <;> simp [Phase.inDataLoop]
  | resume hp hp' hreq hsame =>
      obtain ⟨hcb, hended⟩ := hquiet (by simp [hp])
      exact statusInv_of_same hi hsame.status hcb hended (by simp [hp'])
        (by simp [hp', Phase.inDataLoop])
  | die hp hp' hst hdo hup =>
      exact statusInv_of_ne (by simp [hst]) (by simp [hp', Phase.inDataLoop])

/-- A settled call of the status callback. -/
private theorem statusInv_cb {err : PppErr} {s s' : Sys}
    (hok : Settled s (.cb err)) (h : cbStep err s = some s') :
    StatusInv s' := by
  unfold cbStep at h
  split at h <;> cases h
  obtain ⟨hnone, hsilent⟩ := hok
  by_cases hne : err = .errNone
  case pos =>
      obtain ⟨hend, hdial⟩ := hnone hne
      subst hne
      refine ⟨⟨?_, ?_⟩, fun hd => absurd hd hdial⟩
      · simp
      · simp [hend]
  cases hh : err.isHandled with
  | true =>
      have hst := pppStatusCb_ended hh hne s.gsmStatus
      exact statusInv_of_ne (by simp [hst]) fun _ => hst
  | false =>
      have hsame := pppStatusCb_unhandled hh s.gsmStatus
      rcases hsilent hh with hst | ⟨hst, hout⟩
      · refine statusInv_of_ne ?_ fun _ => hsame.trans hst
        show pppStatusCb err s.gsmStatus ≠ .connected
        rw [hsame, hst]
        nofun
      · refine statusInv_of_ne ?_ fun hl => absurd hl (by simp [hout])
        show pppStatusCb err s.gsmStatus ≠ .connected
        rwa [hsame]

/-- A step of any other party: the task at most appears at its start,
outside the data loop. -/
private theorem statusInv_bystander {a : Act} {s s' : Sys}
    (hi : StatusInv s) (ha : a.isBystander = true)
    (h : apply a s = some s') : StatusInv s' := by
  have hf := bystander_frame ha h
  rcases hf.task with ht | ⟨-, ht⟩
  · exact statusInv_of_same hi hf.status hf.lastCb hf.ended
      (by rw [ht]; exact id) (by rw [ht]; exact id)
  · exact statusInv_of_same hi hf.status hf.lastCb hf.ended
      (by rw [ht]; nofun) (by rw [ht]; nofun)

/-- Every step of a settled run keeps the invariant. -/
theorem statusInv_step {a : Act} {s s' : Sys} (hi : StatusInv s)
    (hok : Settled s a) (h : apply a s = some s') : StatusInv s' := by
  cases a with
  | task i => exact statusInv_task hi h
  | cb err => exact statusInv_cb hok h
  | _ => exact statusInv_bystander hi rfl h

/-- The status tells the truth in every state of a settled run.

Both halves of the law are carried by one invariant, since each needs the
other: whether `CONNECTED` can be trusted depends on what was seen of the
session before, and the loop that would have seen it goes by the status. -/
theorem statusLaw_of_settled {s : Sys} (h : client.Reach Settled s) :
    StatusLaw s := by
  have hinv : StatusInv s := by
    refine h.invariant ⟨⟨?_, ?_⟩, ?_⟩ fun _ _ _ => statusInv_step
    · nofun
    · nofun
    · nofun
  exact hinv.toStatusLaw

/-- Settled runs reach the connection, its loss, and the redial. -/
theorem statusLaw_redials : ∃ s, client.Reach Settled s
    ∧ s.task = .redialClose ∧ StatusLaw s := by
  obtain ⟨s, hr, hs⟩ := exists_reach client Settled
    (bringUp ++ [.cb .errConnect, .task .go])
    (fun s => s.task = .redialClose) (by decide)
  exact ⟨s, hr, by simpa using hs, statusLaw_of_settled hr⟩

end ShZ001.Gsm
