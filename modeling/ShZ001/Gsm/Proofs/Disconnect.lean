/-
The request handshake of `ppposDisconnect` (lines 768–786).

# The handshake

The caller writes 0 or -1 to `do_pppos_connect`, waits for the task to
overwrite it (1: taken), then waits for 0 (done). The task looks at the
variable in one place, the head of its data loop. A request written when
that head is no longer ahead of it, or left behind by a task that gives
up on the way, is never taken, and the caller polls for ever: the
header's "If already disconnected, this function does nothing" fails for
every task that is gone.

# The condition

`Heard` excludes those pairings and carries the two things the calling
discipline gives: one thread makes the API calls, and it polls at least
once while the task holds the variable at 1. It speaks of the state
before each step.

# The invariant

`RequestInv` says where the request is for each place the caller can be:
pending, being served under the 1, or done under the 0. Its steps go by
the effects of `Handshake.lean`, one lemma for each party that takes
part.
-/
import ShZ001.Gsm.Handshake

namespace ShZ001.Gsm

open Lib Machine

/-- The request is written and the place that takes it is ahead. -/
def Sys.pending (s : Sys) : Prop :=
  s.doPpposConnect ≤ 0 ∧ s.task.phase.stand = .heading

/-- No polling loop of `ppposDisconnect` is left without a party that
will end it. -/
structure RequestLaw (s : Sys) : Prop where
  loop1 : s.discCall = .loop1 →
    s.doPpposConnect ≠ 0 ∨ s.pending ∨ s.task.phase.stand = .serving
  loop2 : s.discCall = .loop2 →
    s.doPpposConnect = 0 ∨ s.pending ∨ s.task.phase.stand = .serving

/-- Set-up fails, `ppposInit` reports it, and the caller cleans up with
`ppposDisconnect(1, 0)`: it waits for a 0 that nobody will write. -/
theorem requestLaw_fails : ∃ s, client.Reach anyStep s ∧ ¬ RequestLaw s := by
  obtain ⟨s, hr, hs⟩ := exists_reach client anyStep
    [.init .call, .init (.make true), .task .go, .init .poll, .task .fail,
      .task .go, .task .go, .init .poll, .disc (.call true false),
      .disc .write, .disc .poll]
    (fun s => s.discCall = .loop2 ∧ s.doPpposConnect = -1 ∧ s.task = .dead)
    (by decide)
  obtain ⟨hloop, hdo, hdead⟩ := of_decide_eq_true hs
  refine ⟨s, hr, fun hlaw => ?_⟩
  rcases hlaw.loop2 hloop with h | ⟨-, h⟩ | h
  · rw [hdo] at h
    cases h
  · rw [hdead] at h
    cases h
  · rw [hdead] at h
    cases h

/-- The request is written while the task is on its way to the head of
the data loop, and the task does not give up with a request open.
`ppposInit` is not called from inside `ppposDisconnect`, and the task
does not park before its 1 has been polled. -/
def Heard (s : Sys) : Act → Prop
  | .init .call => s.discCall = .outside
  | .disc .write => s.task.phase.stand = .heading
  | .task i =>
      (s.discCall = .loop1 ∨ s.discCall = .loop2 →
        failureExit i s = false) ∧
      (s.task.parks = true → s.discCall ≠ .loop1)
  | _ => True

instance (s : Sys) : (a : Act) → Decidable (Heard s a)
  | .init .call => inferInstanceAs (Decidable (s.discCall = .outside))
  | .disc .write =>
      inferInstanceAs (Decidable (s.task.phase.stand = .heading))
  | .task i =>
      inferInstanceAs (Decidable
        ((s.discCall = .loop1 ∨ s.discCall = .loop2 →
          failureExit i s = false) ∧
        (s.task.parks = true → s.discCall ≠ .loop1)))
  | .init .noMutex | .init (.make _) | .init .poll => isTrue trivial
  | .disc (.call _ _) | .disc .poll | .cb _ => isTrue trivial
  | .out _ | .outCount | .modem _ _ | .getCounts _ | .resetCounts =>
      isTrue trivial

-- ============================================================ the invariant

/-- Where the request is, for each place the caller can be. -/
structure RequestInv (s : Sys) : Prop where
  /-- nobody is served who has not asked -/
  idle : s.discCall ≠ .loop1 → s.discCall ≠ .loop2 → Unasked s
  /-- pending, or being served under the 1 -/
  loop1 : s.discCall = .loop1 →
    s.pending ∨ s.doPpposConnect = 1 ∧ s.task.phase.stand = .serving
  /-- pending as a -1, being served, or done -/
  loop2 : s.discCall = .loop2 →
    s.doPpposConnect < 0 ∧ s.task.phase.stand = .heading ∨
    s.doPpposConnect = 1 ∧ s.task.phase.stand = .serving ∨
    s.doPpposConnect = 0 ∧ s.task.phase.stand = .resting
  /-- a task about to be created finds no request -/
  create : s.initCall = .create → s.doPpposConnect = 1

/-- A step of the task, seen from the request. -/
private theorem requestInv_task {i : TaskIn} {s s' : Sys}
    (hi : RequestInv s) (hl : Life s) (hok : Heard s (.task i))
    (h : taskStep i s = some s') : RequestInv s' := by
  have hf := taskStep_frame h
  obtain ⟨hgive, hparks⟩ := hok
  have hidle : s'.discCall ≠ .loop1 → s'.discCall ≠ .loop2 →
      Unasked s' := by
    rw [hf.discCall]
    exact fun h1 h2 => unasked_task (hi.idle h1 h2) h
  -- a created task is not alive yet, so it cannot have stepped
  have hcreate : s'.doPpposConnect = s.doPpposConnect →
      s'.initCall = .create → s'.doPpposConnect = 1 := by
    intro hdo hc
    rw [hdo]
    exact hi.create (by rwa [← hf.initCall])
  have hdead : s'.initCall = .create → s.task.phase = .dead := by
    intro hc
    exact hl.create (by rwa [← hf.initCall])
  cases taskStep_request h with
  | keep hstand hparked hdo =>
      refine ⟨hidle, ?_, ?_, hcreate hdo⟩
      · unfold Sys.pending
        rw [hf.discCall, hstand, hdo]
        exact hi.loop1
      · rw [hf.discCall, hstand, hdo]
        exact hi.loop2
  | take hstand hreq hstand' hdo =>
      exact ⟨hidle, fun _ => .inr ⟨hdo, hstand'⟩,
        fun _ => .inr (.inl ⟨hdo, hstand'⟩), fun _ => hdo⟩
  | done hpk hstand' hdo =>
      have hserving := stand_of_parks hpk
      refine ⟨hidle, ?_, ?_, ?_⟩
      · rw [hf.discCall]
        exact fun h1 => absurd h1 (hparks hpk)
      · exact fun _ => .inr (.inr ⟨hdo, hstand'⟩)
      · intro hc
        rw [hdead hc] at hserving
        cases hserving
  | giveUp hstand hp' hfail hdo =>
      have hout : s.discCall ≠ .loop1 ∧ s.discCall ≠ .loop2 := by
        constructor <;> intro hd <;> simp [hgive, hd] at hfail
      refine ⟨hidle, ?_, ?_, hcreate hdo⟩
      · rw [hf.discCall]
        exact fun h1 => absurd h1 hout.1
      · rw [hf.discCall]
        exact fun h2 => absurd h2 hout.2
  | resume hp hreq hp' hdo =>
      refine ⟨hidle, ?_, ?_, hcreate hdo⟩
      · -- a request never finds the task parked
        rw [hf.discCall]
        intro h1
        rcases hi.loop1 h1 with ⟨-, hs⟩ | ⟨-, hs⟩ <;>
          simp [hp, Phase.stand] at hs
      · rw [hf.discCall]
        intro h2
        rcases hi.loop2 h2 with ⟨-, hs⟩ | ⟨-, hs⟩ | ⟨hz, -⟩
        · simp [hp, Phase.stand] at hs
        · simp [hp, Phase.stand] at hs
        · exact absurd hz hreq

/-- A step of `ppposInit`: the calling thread is not inside
`ppposDisconnect`, and a created task starts without a request. -/
private theorem requestInv_init {i : InitIn} {s s' : Sys}
    (hi : RequestInv s) (hl : Life s) (hok : Heard s (.init i))
    (h : initStep i s = some s') : RequestInv s' := by
  have hf := initStep_frame h
  have hidle : s'.discCall ≠ .loop1 → s'.discCall ≠ .loop2 →
      Unasked s' := by
    rw [hf.discCall]
    exact fun h1 h2 => unasked_init (hi.idle h1 h2) hi.create h
  -- a step that leaves request and task alone
  have hkeep : SameRequest s s' → s'.initCall ≠ .create →
      RequestInv s' := by
    intro hsame hc
    refine ⟨hidle, ?_, ?_, fun h => absurd h hc⟩
    · unfold Sys.pending
      rw [hf.discCall, hsame.task, hsame.request]
      exact hi.loop1
    · rw [hf.discCall, hsame.task, hsame.request]
      exact hi.loop2
  cases initStep_effect h with
  | call hin hloc hloc' hdo htask hsticky =>
      subst hin
      have hout : s.discCall = .outside := hok
      refine ⟨hidle, ?_, ?_, fun _ => hdo⟩
      · simp [hf.discCall, hout]
      · simp [hf.discCall, hout]
  | make made hloc hloc' hdo htask hsticky =>
      have hdead := hl.create hloc
      -- with a dead task and no request the caller is in no loop
      have hout : s.discCall ≠ .loop1 ∧ s.discCall ≠ .loop2 := by
        constructor
        · intro h1
          rcases hi.loop1 h1 with ⟨-, hs⟩ | ⟨-, hs⟩ <;>
            simp [hdead, Phase.stand] at hs
        · intro h2
          rcases hi.loop2 h2 with ⟨-, hs⟩ | ⟨-, hs⟩ | ⟨hz, -⟩
          · simp [hdead, Phase.stand] at hs
          · simp [hdead, Phase.stand] at hs
          · rw [hi.create hloc] at hz
            cases hz
      refine ⟨hidle, ?_, ?_, by simp [hloc']⟩
      · rw [hf.discCall]
        exact fun h1 => absurd h1 hout.1
      · rw [hf.discCall]
        exact fun h2 => absurd h2 hout.2
  | abandon hloc hloc' hsame => exact hkeep hsame (by simp [hloc'])
  | wait made hloc hdown hloc' hsame => exact hkeep hsame (by simp [hloc'])
  | seen made hloc hup hloc' hsame => exact hkeep hsame (by simp [hloc'])
  | poll hloc hloc' hsame =>
      refine hkeep hsame ?_
      rcases hloc' with hloc' | hloc' <;> simp [hloc']

/-- A step of `ppposDisconnect`: it writes where it will be heard, and
leaves each loop on the value that ends it. -/
private theorem requestInv_disc {i : DiscIn} {s s' : Sys}
    (hi : RequestInv s) (hl : Life s) (hok : Heard s (.disc i))
    (h : discStep i s = some s') : RequestInv s' := by
  have hf := discStep_frame h
  -- outside the loops nothing has changed for the task
  have hsame : s.discCall ≠ .loop1 → s.discCall ≠ .loop2 →
      s'.doPpposConnect = s.doPpposConnect → Unasked s' :=
    fun h1 h2 => (hi.idle h1 h2).congr hf.task
  have hcreate : s'.doPpposConnect = s.doPpposConnect →
      s'.initCall = .create → s'.doPpposConnect = 1 := by
    intro hdo hc
    rw [hdo]
    exact hi.create (by rwa [← hf.initCall])
  cases discStep_effect h with
  | skip endTask rfoff hin hloc hidle hloc' hdo hsticky =>
      exact ⟨fun _ _ => hsame (by simp [hloc]) (by simp [hloc]) hdo,
        by simp [hloc'], by simp [hloc'], hcreate hdo⟩
  | enter endTask rfoff hin hloc hst hloc' hkeep =>
      exact ⟨fun _ _ =>
          hsame (by simp [hloc]) (by simp [hloc]) hkeep.request,
        by simp [hloc'], by simp [hloc'], hcreate hkeep.request⟩
  | write endTask rfoff hin hloc hloc' hdo hsticky =>
      subst hin
      have hhead : s.task.phase.stand = .heading := hok
      refine ⟨by simp [hloc'], fun _ => .inl ⟨?_, ?_⟩, by simp [hloc'], ?_⟩
      · rw [hdo]
        split <;> decide
      · rw [hf.task, hhead]
      · rw [hf.initCall]
        intro hc
        simp [hl.create hc, Phase.stand] at hhead
  | spin hloc hdo hloc' hsame =>
      refine ⟨by simp [hloc'], fun _ => ?_, by simp [hloc'],
        hcreate hsame.request⟩
      unfold Sys.pending
      rw [hf.task, hsame.request]
      exact hi.loop1 hloc
  | taken hloc hdo hloc' hsame =>
      refine ⟨by simp [hloc'], by simp [hloc'], fun _ => ?_,
        hcreate hsame.request⟩
      rw [hf.task, hsame.request]
      rcases hi.loop1 hloc with ⟨hle, hs⟩ | hserved
      · exact .inl ⟨by omega, hs⟩
      · exact .inr (.inl hserved)
  | await hloc hdo hloc' hsame =>
      refine ⟨by simp [hloc'], by simp [hloc'], fun _ => ?_,
        hcreate hsame.request⟩
      rw [hf.task, hsame.request]
      exact hi.loop2 hloc
  | finish hloc hdo hloc' hdo' hsticky =>
      have hrest : s.task.phase.stand = .resting := by
        rcases hi.loop2 hloc with ⟨hlt, -⟩ | ⟨h1, -⟩ | ⟨-, hs⟩
        · omega
        · omega
        · exact hs
      refine ⟨fun _ _ => ?_, by simp [hloc'], by simp [hloc'],
        hcreate hdo'⟩
      exact ⟨by simp [hf.task, hrest], by simp [hf.task, hrest],
        fun _ => by omega⟩

/-- Every step of a heard run keeps the invariant. -/
theorem requestInv_step {a : Act} {s s' : Sys} (hi : RequestInv s)
    (hl : Life s) (hok : Heard s a) (h : apply a s = some s') :
    RequestInv s' := by
  cases a with
  | task i => exact requestInv_task hi hl hok h
  | init i => exact requestInv_init hi hl hok h
  | disc i => exact requestInv_disc hi hl hok h
  | _ =>
      have hf := outsider_frame rfl h
      refine ⟨?_, ?_, ?_, ?_⟩
      · rw [hf.discCall]
        exact fun h1 h2 => (hi.idle h1 h2).congr hf.task hf.request
      · unfold Sys.pending
        rw [hf.discCall, hf.task, hf.request]
        exact hi.loop1
      · rw [hf.discCall, hf.task, hf.request]
        exact hi.loop2
      · rw [hf.initCall, hf.request]
        exact hi.create

theorem requestInv_of_heard {s : Sys} (h : client.Reach Heard s) :
    RequestInv s :=
  h.invariant_of (I := RequestInv) (J := Life) (fun _ => life_of_reach)
    ⟨fun _ _ => ⟨nofun, nofun, nofun⟩, nofun, nofun, nofun⟩
    fun _ _ _ hi hl _ hok h => requestInv_step hi hl hok h

/-- In a heard run no disconnect request is orphaned.

The law follows from `RequestInv` loop by loop: in the first one the
request is pending or being served, in the second it is done or will be. -/
theorem requestLaw_of_heard {s : Sys} (h : client.Reach Heard s) :
    RequestLaw s := by
  have hi := requestInv_of_heard h
  refine ⟨fun h1 => ?_, fun h2 => ?_⟩
  · rcases hi.loop1 h1 with hp | ⟨-, hs⟩
    · exact .inr (.inl hp)
    · exact .inr (.inr hs)
  · rcases hi.loop2 h2 with ⟨hlt, hs⟩ | ⟨-, hs⟩ | ⟨hz, -⟩
    · exact .inr (.inl ⟨by omega, hs⟩)
    · exact .inr (.inr hs)
    · exact .inl hz

/-- A heard run in which a request is being served. -/
theorem requestLaw_served : ∃ s, client.Reach Heard s
    ∧ s.discCall = .loop2 ∧ s.task.phase.stand = .serving
    ∧ RequestLaw s := by
  obtain ⟨s, hr, hs⟩ := exists_reach client Heard
    (bringUp ++ [.disc (.call false false), .disc .write, .task .go,
      .disc .poll, .task .go, .cb .errUser, .task .go])
    (fun s => s.discCall = .loop2 ∧ s.task.phase.stand = .serving)
    (by decide)
  obtain ⟨hloop, hserve⟩ := of_decide_eq_true hs
  exact ⟨s, hr, hloop, hserve, requestLaw_of_heard hr⟩

end ShZ001.Gsm
