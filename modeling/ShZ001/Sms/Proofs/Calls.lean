/-
That a function of the modem API, with whatever it gets, is a caller of the
whole system (libGSM.c 822–1108).

# Two levels

The functions make their exchanges one after the other, and each of them is
a list in the end (`Sms/Calls.lean`). The system's caller goes from place
to place, and `AtCmd.next` says where. `Follows` puts the two together:
each exchange leads to the one behind it, and the last one out
(`call_follows`, one lemma for each function).

# What follows

A contained call is a run of the system that leaves it as it was, but for
the registration timeout of `gsm_RFOff` and `gsm_RFOn` (`follows_run`); and
among the steps of the others the caller is out again behind its last
exchange (`follows_out`, which only looks at the caller's own steps). So
what is proved of the callers of the system is proved of these functions.
-/
import ShZ001.Gsm.Handshake
import ShZ001.Sms.Calls
import ShZ001.Sms.Proofs.Prompt

namespace ShZ001.Sms

open Lib Machine Gsm

-- ============================================================== the exchanges

/-- Each exchange follows the one before it, the last one ends the call;
`true`: memory runs out before the next. -/
inductive Follows : AtCmd → List (AtCmd × Nat) → Bool → Prop
  | last {c v} (h : c.next v = none) : Follows c [(c, v)] false
  | next {c c' v es oom} (h : c.next v = some c')
      (hrest : Follows c' es oom) : Follows c ((c, v) :: es) oom
  | oom {c} (h : c.allocates = true) : Follows c [] true

/-- `sms_ready`, and what comes behind it. -/
theorem ready_follows {env : SendEnv} (hidle : env.gsmStatus = .idle)
    (op : SmsOp) {c : AtCmd} (hnext : (AtCmd.smsFormat op).next 1 = some c)
    {es : List (AtCmd × Nat)} {oom : Bool}
    (hgo : (smsReady env op).1 = true → Follows c es oom)
    (hstop : (smsReady env op).1 = false → es = [] ∧ oom = false) :
    Follows (.smsRf op)
      ((smsReady env op).2.map (fun e => (e.name, e.verdict)) ++ es) oom := by
  unfold smsReady at *
  rw [if_neg (not_not.mpr hidle)] at *
  by_cases hrf : (askRf env op).verdict = 1
  · have hasked : (AtCmd.smsRf op).next (askRf env op).verdict
        = some (.smsFormat op) := if_pos hrf
    rw [if_neg (not_not.mpr hrf)] at *
    by_cases hformat : (setFormat env op).verdict = 1
    · rw [if_neg (not_not.mpr hformat)] at *
      exact .next hasked (.next (hformat ▸ hnext) (hgo rfl))
    · rw [if_pos hformat] at *
      obtain ⟨rfl, rfl⟩ := hstop rfl
      exact .next hasked (.last (if_neg hformat))
  · rw [if_pos hrf] at *
    obtain ⟨rfl, rfl⟩ := hstop rfl
    exact .last (if_neg hrf)

theorem rf_follows (on : Bool) (env : RfEnv) (inUse : Nat → Bool) :
    Follows (.rfQuery on) (ApiCall.rf on env inUse).exchanges false := by
  unfold ApiCall.exchanges
  dsimp only
  split
  · exact .last rfl
  · exact .next rfl (.last rfl)

theorem delete_follows (idx : Int) {env : SendEnv}
    (hidle : env.gsmStatus = .idle) :
    Follows (.smsRf .delete) (ApiCall.delete idx env).exchanges false := by
  have hlast : (smsDelete idx env).exchanges
      = (smsReady env .delete).2
        ++ if (smsReady env .delete).1 = true then [deleteOne env idx]
          else [] := by
    unfold smsDelete
    generalize smsReady env .delete = r
    obtain ⟨ready, done⟩ := r
    cases ready <;> simp
  unfold ApiCall.exchanges
  dsimp only
  rw [hlast, List.map_append]
  refine ready_follows hidle .delete rfl (fun hready => ?_) fun hready => ?_
  · rw [if_pos hready]
    exact .last rfl
  · rw [hready]
    exact ⟨rfl, rfl⟩

theorem read_follows {x : InboxEnv} (hidle : x.send.gsmStatus = .idle)
    (sort : Int) : Follows (.smsRf .read) (ApiCall.read x sort).exchanges
      (ApiCall.read x sort).oom := by
  unfold ApiCall.exchanges ApiCall.oom InboxEnv.collects
  dsimp only
  refine ready_follows hidle .read rfl (fun hready => ?_) fun hready => ?_
  · rw [hready, Bool.true_and]
    cases x.rest.rbufferAlloc with
    | true => exact .last rfl
    | false => exact .oom rfl
  · rw [hready]
    exact ⟨rfl, rfl⟩

/-- What `smsSend` does behind `sms_ready`. -/
def sendTail (smsnum msg : List UInt8) (env : SendEnv) : List Exchanged :=
  if (prompt env smsnum).verdict ≠ 1 then [prompt env smsnum, escape env]
  else if env.msgbufAlloc = false then [prompt env smsnum]
  else if (sendText env msg).verdict ≠ 1 then
    [prompt env smsnum, sendText env msg, escape env]
  else [prompt env smsnum, sendText env msg]

theorem smsSend_exchanges (smsnum msg : List UInt8) (env : SendEnv) :
    (smsSend smsnum msg env).exchanges = (smsReady env .send).2
      ++ if (smsReady env .send).1 = true then sendTail smsnum msg env
        else [] := by
  unfold smsSend sendTail
  generalize smsReady env .send = r
  obtain ⟨ready, done⟩ := r
  cases ready with
  | false => exact (List.append_nil _).symm
  | true =>
      dsimp only
      rw [if_neg nofun, if_pos rfl]
      split_ifs <;> rfl

/-- Behind `sms_ready`: the number, then the text or an escape. -/
theorem sendTail_follows (smsnum msg : List UInt8) (env : SendEnv) :
    Follows .smsPrompt
      ((sendTail smsnum msg env).map fun e => (e.name, e.verdict))
      (decide ((prompt env smsnum).verdict = 1) && !env.msgbufAlloc) := by
  unfold sendTail
  by_cases hprompt : (prompt env smsnum).verdict = 1
  case neg =>
      rw [if_pos hprompt, decide_eq_false hprompt]
      exact .next (if_neg hprompt) (.last rfl)
  case pos =>
      have hseen : AtCmd.smsPrompt.next (prompt env smsnum).verdict
          = some .smsText := if_pos hprompt
      rw [if_neg (not_not.mpr hprompt), decide_eq_true hprompt]
      cases env.msgbufAlloc with
      | false => exact .next hseen (.oom rfl)
      | true =>
          rw [if_neg nofun]
          by_cases htext : (sendText env msg).verdict = 1
          · rw [if_neg (not_not.mpr htext)]
            exact .next hseen (.last (if_pos htext))
          · rw [if_pos htext]
            exact .next hseen (.next (if_neg htext) (.last rfl))

theorem send_follows (smsnum msg : List UInt8) {env : SendEnv}
    (hidle : env.gsmStatus = .idle) :
    Follows (.smsRf .send) (ApiCall.send smsnum msg env).exchanges
      (ApiCall.send smsnum msg env).oom := by
  unfold ApiCall.exchanges ApiCall.oom
  dsimp only
  rw [smsSend_exchanges, List.map_append, Bool.and_assoc]
  refine ready_follows hidle .send rfl (fun hready => ?_) fun hready => ?_
  · rw [if_pos hready, hready]
    exact sendTail_follows smsnum msg env
  · rw [hready]
    exact ⟨rfl, rfl⟩

/-- A call that finds the modem idle. -/
theorem call_follows {x : ApiCall} (hidle : x.gsmStatus = .idle) :
    Follows x.api.first x.exchanges x.oom := by
  cases x with
  | rf on env inUse => exact rf_follows on env inUse
  | send smsnum msg env => exact send_follows smsnum msg hidle
  | read x sort => exact read_follows hidle sort
  | delete idx env => exact delete_follows idx hidle

-- ================================================================= the party

/-- A caller that takes a step is where the step has put it. -/
theorem atCall_own {n : Nat} {i : AtIn} {s s' : Sys}
    (h : atStep n i s = some s') : callStep i (s.atCall n) (s'.atCall n) := by
  unfold atStep at h
  split at h
  case h_1 api hloc =>
      split at h
      case isFalse => cases h
      split at h <;> cases h
      · refine ⟨hloc, .inl ?_⟩
        exact Function.update_self ..
      · exact ⟨hloc, .inr hloc⟩
  case h_2 c hloc =>
      cases h
      exact ⟨c, hloc, Function.update_self ..⟩
  case h_3 c hloc =>
      split at h <;> cases h
      exact ⟨c, hloc, Function.update_self ..⟩
  case h_4 c v hloc =>
      cases h
      refine ⟨c, hloc, ?_⟩
      unfold landing
      cases c.next v <;> exact Function.update_self ..
  case h_5 => cases h

/-- No other caller of AT functions moves it. -/
theorem atCall_modem {n k : Nat} (hne : k ≠ n) {i : AtIn} {s s' : Sys}
    (h : atStep k i s = some s') : s'.atCall n = s.atCall n := by
  unfold atStep at h
  repeat' split at h
  all_goals cases h
  all_goals first
    | rfl
    | exact Function.update_of_ne hne.symm ..

/-- Caller `n` of the system. -/
def caller (n : Nat) : Party client AtIn AtLoc where
  place s := s.atCall n
  input := callInput n
  step := callStep
  own := by
    intro s s' a i h hin
    cases a with
    | modem k j =>
        have hinput : (if k = n then some j else none) = some i := hin
        split at hinput
        case isFalse => cases hinput
        case isTrue hk =>
            cases hinput
            subst hk
            exact atCall_own h
    | _ => cases hin
  other := by
    intro s s' a h hin
    cases a with
    | modem k j =>
        refine atCall_modem (fun hk => ?_) h
        have hinput : (if k = n then some j else none) = none := hin
        rw [if_pos hk] at hinput
        cases hinput
    | task i => exact congrFun (taskStep_frame h).atCall n
    | init i => exact congrFun (initStep_frame h).atCall n
    | disc i => exact congrFun (discStep_frame h).atCall n
    | cb err =>
        obtain ⟨-, rfl⟩ := cb_cases h
        rfl
    | out ret =>
        obtain ⟨-, rfl⟩ := out_cases h
        rfl
    | outCount =>
        obtain ⟨_, -, rfl⟩ := outCount_cases h
        rfl
    | getCounts rst =>
        obtain rfl := getCounts_cases h
        rfl
    | resetCounts =>
        obtain rfl := resetCounts_cases h
        rfl

theorem inputs_cons (e : AtCmd × Nat) (es : List (AtCmd × Nat))
    (oom : Bool) :
    inputs (e :: es) oom = .send :: .done e.2 :: inputs es oom := rfl

/-- One exchange. -/
theorem trail_exchange {n : Nat} {c : AtCmd} {v : Nat} {is : List AtIn}
    {l : AtLoc}
    (h : (caller n).Trail (.ready c) (.send :: .done v :: is) l) :
    (caller n).Trail (landing c v) is l := by
  cases h with
  | cons hsend h =>
      obtain ⟨c₁, hloc, rfl⟩ := hsend
      cases hloc
      cases h with
      | cons hdone h =>
          obtain ⟨c₂, hloc, rfl⟩ := hdone
          cases hloc
          exact h

theorem landing_last {c : AtCmd} {v : Nat} (h : c.next v = none) :
    landing c v = .outside := by
  unfold landing
  rw [h]

theorem landing_next {c c' : AtCmd} {v : Nat} (h : c.next v = some c') :
    landing c v = .ready c' := by
  unfold landing
  rw [h]

/-- The inputs of a call lead out. -/
theorem follows_out {n : Nat} {c : AtCmd} {es : List (AtCmd × Nat)}
    {oom : Bool} {l : AtLoc} (h : Follows c es oom)
    (ht : (caller n).Trail (.ready c) (inputs es oom) l) : l = .outside := by
  induction h with
  | last hnext =>
      rw [inputs_cons] at ht
      have ht := trail_exchange ht
      rw [landing_last hnext] at ht
      cases ht
      rfl
  | next hnext _ ih =>
      rw [inputs_cons] at ht
      have ht := trail_exchange ht
      rw [landing_next hnext] at ht
      exact ih ht
  | oom =>
      cases ht with
      | cons hoom ht =>
          obtain ⟨_, -, rfl⟩ := hoom
          cases ht
          rfl

-- =================================================================== the runs

/-- What an exchange leaves behind. -/
def leaves (s : Sys) (e : AtCmd × Nat) : Sys :=
  regAfter (e.1.regWriter e.2) s

theorem foldl_leaves (es : List (AtCmd × Nat)) (s : Sys)
    (atCall : Nat → AtLoc) :
    es.foldl leaves { s with atCall := atCall }
      = { es.foldl leaves s with atCall := atCall } := by
  induction es generalizing s with
  | nil => rfl
  | cons e es ih => exact ih (leaves s e)

/-- One exchange. -/
theorem run_exchange {n : Nat} {c : AtCmd} (v : Nat) {s : Sys}
    (hloc : s.atCall n = .ready c) (acts : List Act) :
    client.run anyStep s (.modem n .send :: .modem n (.done v) :: acts)
      = client.run anyStep { leaves s (c, v) with
          atCall := Function.update s.atCall n (landing c v) } acts := by
  have hsend : client.apply (.modem n .send) s = some { s with
      atCall := Function.update s.atCall n (.inside c) } := by
    show atStep n .send s = _
    unfold atStep
    rw [hloc]
  have hdone : client.apply (.modem n (.done v)) { s with
      atCall := Function.update s.atCall n (.inside c) }
      = some { leaves s (c, v) with
          atCall := Function.update s.atCall n (landing c v) } := by
    show atStep n (.done v) _ = _
    unfold atStep landing
    dsimp only
    rw [Function.update_self]
    cases hnext : c.next v <;> cases hreg : c.regWriter v <;>
      simp [leaves, regAfter, hnext, hreg]
  have hok : ∀ (s : Sys) (a : Act), anyStep s a := fun _ _ => trivial
  rw [Machine.run, if_pos (hok _ _), hsend]
  dsimp only
  rw [Machine.run, if_pos (hok _ _), hdone]

/-- Alone, the caller goes through all of them. -/
theorem follows_run {n : Nat} {c : AtCmd} {es : List (AtCmd × Nat)}
    {oom : Bool} (h : Follows c es oom) {s : Sys}
    (hloc : s.atCall n = .ready c) :
    client.run anyStep s ((inputs es oom).map (.modem n))
      = some { es.foldl leaves s with
          atCall := Function.update s.atCall n .outside } := by
  induction h generalizing s with
  | last hnext =>
      rw [inputs_cons, List.map_cons, List.map_cons,
        run_exchange _ hloc, landing_last hnext]
      rfl
  | next hnext _ ih =>
      rw [inputs_cons, List.map_cons, List.map_cons,
        run_exchange _ hloc, landing_next hnext,
        ih (Function.update_self ..), foldl_leaves, Function.update_idem]
      rfl
  | oom hoom =>
      show client.run anyStep s [.modem n .oom] = _
      have hstep : client.apply (.modem n .oom) s = some { s with
          atCall := Function.update s.atCall n .outside } := by
        show atStep n .oom s = _
        unfold atStep
        rw [hloc]
        exact if_pos hoom
      have hok : anyStep s (Act.modem n .oom) := trivial
      rw [Machine.run, if_pos hok, hstep]
      rfl

-- ==================================================================== the law

/-- The acts of the call are a run of the system, which leaves only the
timeout behind; among the acts of others they lead out all the same. -/
structure CallLaw (x : ApiCall) (tr : CallTrace) : Prop where
  alone : ∀ (n : Nat) (s : Sys), s.ppposMutex = true →
    s.gsmStatus = .idle → s.atCall n = .outside →
    client.run anyStep s (tr.acts x.api n) = some (regAfter x.reg s)
  among : ∀ (n : Nat) (s s' : Sys) (acts : List Act),
    s.atCall n = .ready x.api.first → client.run anyStep s acts = some s' →
    acts.filterMap (callInput n) = inputs tr.exchanges tr.oom →
    s'.atCall n = .outside
  timeout : tr.timeoutMs = x.reg.map RegWriter.timeoutMs

/-- Only the query of `gsm_RFOff` and `gsm_RFOn` is followed by a write. -/
theorem follows_leaves {c : AtCmd} {es : List (AtCmd × Nat)} {oom : Bool}
    (h : Follows c es oom) (hc : ∀ on, c ≠ .rfQuery on) (s : Sys) :
    es.foldl leaves s = s := by
  have hquiet : ∀ c v, (∀ on, c ≠ .rfQuery on) → leaves s (c, v) = s := by
    intro c v hc
    cases c with
    | rfQuery on => exact absurd rfl (hc on)
    | _ => rfl
  have hnext : ∀ {c c' v}, AtCmd.next c v = some c' →
      ∀ on, c' ≠ .rfQuery on := by
    intro c c' v hnext on heq
    subst heq
    unfold AtCmd.next at hnext
    repeat' split at hnext
    all_goals cases hnext
  induction h with
  | last => exact hquiet _ _ hc
  | next hto _ ih =>
      rw [List.foldl_cons, hquiet _ _ hc]
      exact ih (hnext hto)
  | oom => rfl

theorem exchanges_leaves {x : ApiCall} (hidle : x.gsmStatus = .idle)
    (s : Sys) : x.exchanges.foldl leaves s = regAfter x.reg s := by
  have hfollows := call_follows hidle
  cases x with
  | rf on env inUse =>
      unfold ApiCall.exchanges ApiCall.reg
      dsimp only
      split <;> rfl
  | send | read | delete => exact follows_leaves hfollows nofun s

theorem rf_timeout (on : Bool) (env : RfEnv) :
    (gsmRf on env).timeoutMs = none ∨
      (gsmRf on env).timeoutMs
        = some (if on then RegWriter.rfOn else .rfOff).timeoutMs := by
  have hcall : ∀ setting timeoutMs,
      (gsmRF setting timeoutMs env).timeoutMs = none ∨
        (gsmRF setting timeoutMs env).timeoutMs = some timeoutMs := by
    intro setting timeoutMs
    unfold gsmRF
    by_cases hbusy : env.gsmStatus ≠ .idle
    · rw [if_pos hbusy]
      exact .inl rfl
    · rw [if_neg hbusy]
      by_cases hset : 0 < (collect env.reply .array 63).ret ∧
          (strstr setting
            (cstr (stored (collect env.reply .array 63).uses))).isSome = true
      · left
        dsimp only
        rw [if_pos hset]
      · right
        dsimp only
        rw [if_neg hset]
  cases on with
  | true => exact hcall _ _
  | false => exact hcall _ _

/-- The trace that is read off the functions. -/
theorem trace_runs {x : ApiCall} (hidle : x.gsmStatus = .idle) :
    CallLaw x x.trace where
  alone n s hmutex hstatus hloc := by
    have hcall : client.apply (.modem n (.call x.api)) s = some { s with
        atCall := Function.update s.atCall n (.ready x.api.first) } := by
      show atStep n (.call x.api) s = _
      unfold atStep
      rw [hloc]
      dsimp only
      rw [if_pos hmutex, if_pos hstatus]
    have hback : Function.update s.atCall n .outside = s.atCall := by
      rw [← hloc, Function.update_eq_self]
    have hok : anyStep s (Act.modem n (.call x.api)) := trivial
    unfold CallTrace.acts
    rw [List.map_cons, Machine.run, if_pos hok, hcall]
    dsimp only [ApiCall.trace]
    rw [follows_run (call_follows hidle) (Function.update_self ..),
      foldl_leaves, exchanges_leaves hidle, Function.update_idem, hback]
    rfl
  among n s s' acts hloc hrun hinputs := by
    have htrail := (caller n).trail_of_run hrun
    have hfrom : (caller n).place s = .ready x.api.first := hloc
    have hin : acts.filterMap (caller n).input
        = inputs x.exchanges x.oom := hinputs
    rw [hfrom, hin] at htrail
    exact follows_out (call_follows hidle) htrail
  timeout := by
    show x.timeoutMs = _
    cases x with
    | rf on env inUse =>
        have htimeout := rf_timeout on env
        unfold ApiCall.timeoutMs ApiCall.reg
        dsimp only
        split
        case isTrue hnone => exact hnone
        case isFalse hsome => exact htimeout.resolve_left hsome
    | send | read | delete => rfl

/-- Every call of the five functions that finds the modem idle and writes
to nothing but what is its own is a run of the caller in the system: the
system can take its exchanges one by one, with their verdicts, and the
caller is out again.

This is what connects the functions with the system: there an AT call is a
chain of exchanges whose verdicts the environment chooses, and here the
verdicts are those of the reads. -/
theorem call_runs {x : ApiCall} (hidle : x.gsmStatus = .idle)
    (hcont : x.Contained) {tr : CallTrace} (htr : x.Leaves tr) :
    CallLaw x tr := by
  rw [htr hcont]
  exact trace_runs hidle

/-- The radio is found switched off, from a reply that fits. -/
def radioOff : RfEnv where
  gsmStatus := .idle
  reply :=
    { reads := [bytes "\r\n+CFUN: 4\r\n", bytes "\r\nOK\r\n", []]
      grow := some
      short := by decide }
  past := []
  reads := [bytes "\r\nOK\r\n", []]

/-- The null pointers hit the words 12 and 18 from `pbuf`; those before are
in use. -/
def rfOnRadioOff : ApiCall := .rf true radioOff fun t => decide (t < 12)

/-- A message for which there is no memory. -/
def sendOutOfMemory : ApiCall :=
  .send (bytes "+38640123456") (bytes "hello") outOfMemory

/-- `gsm_RFOn` makes its second exchange, and `smsSend` runs out of memory
behind its third. -/
theorem call_runs_both :
    (rfOnRadioOff.exchanges = [(.rfQuery true, 0), (.rfSet true, 1)] ∧
      CallLaw rfOnRadioOff rfOnRadioOff.trace) ∧
    sendOutOfMemory.oom = true ∧
      CallLaw sendOutOfMemory sendOutOfMemory.trace := by
  have hrf : rfOnRadioOff.Contained :=
    ⟨by decide +kernel, fun _ => by decide +kernel⟩
  have hsend : sendOutOfMemory.Contained :=
    fun _ mem => (promptBuf_inBounds _ mem).mpr (by decide)
  exact ⟨⟨by decide +kernel, call_runs rfl hrf fun _ => rfl⟩, by decide,
    call_runs rfl hsend fun _ => rfl⟩

end ShZ001.Sms
