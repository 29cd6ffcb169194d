/-
The initialisation loop (lines 535–579): nine commands, progress kept in
the skip flags of global records, the index reset to 0 on each failure.

# Order and uniqueness

`Acked k` is the invariant that links the three: the first `k` flags are
up and the others down, and the acknowledgements since the task was last
disconnected are exactly `0, …, k - 1`, in that order. The index runs
behind `k` over the skipped commands, transmits command `k`, and moves
on with `k + 1` or restarts with `k` unchanged. The flags are cleared
once on each way back into the loop; between the close that ends a
session and that clearing nothing is acknowledged.

# Termination

`passLeft` is the measure of one pass: a failure costs at least a full
sweep over the table, and 21 failures are the end. The bound is one on
the steps of the task; the other parties may take any number between
them, and leave the pass where it is.

# The environment

Nothing is asked of the modem here. Its verdicts are inputs, and the law
holds for every sequence of them.
-/
import ShZ001.Gsm.Handshake

namespace ShZ001.Gsm

open Lib Machine

-- ============================================================= the ledger

/-- The task starts, or it disconnects. -/
def Ev.startsEpoch : Ev → Bool
  | .taskStart => true
  | .pcb .close _ => true
  | _ => false

def Ev.acked : Ev → Option Nat
  | .ack k => some k
  | _ => none

def Ev.isNack : Ev → Bool
  | .nack _ => true
  | _ => false

/-- The commands acknowledged since the task was last disconnected or
started, oldest first. -/
def acks (log : List Ev) : List Nat :=
  ((since Ev.startsEpoch log).filterMap Ev.acked).reverse

/-- Failed exchanges of the loop so far. -/
def nacks (log : List Ev) : Nat := log.countP Ev.isNack

@[simp] theorem acks_cons (e : Ev) (log : List Ev) :
    acks (e :: log) = match e with
      | .taskStart => []
      | .pcb .close _ => []
      | .ack k => acks log ++ [k]
      | _ => acks log := by
  unfold acks
  cases e with
  | pcb call p => cases call <;> rfl
  | ack k => simp [since, Ev.startsEpoch, Ev.acked]
  | _ => rfl

@[simp] theorem nacks_cons (e : Ev) (log : List Ev) :
    nacks (e :: log) = nacks log + (if e.isNack then 1 else 0) := by
  simp [nacks, List.countP_cons]

/-- The other parties acknowledge nothing. -/
theorem acks_foreign {es : List Ev} (hes : ∀ e ∈ es, e.isTask = false)
    (log : List Ev) : acks (es ++ log) = acks log := by
  induction es with
  | nil => rfl
  | cons e rest ih =>
      have he := hes e List.mem_cons_self
      rw [List.cons_append, acks_cons,
        ih fun e' he' => hes e' (List.mem_cons_of_mem _ he')]
      cases e <;> first | rfl | cases he

/-- Nor do they fail an exchange of the loop. -/
theorem nacks_foreign {es : List Ev} (hes : ∀ e ∈ es, e.isTask = false)
    (log : List Ev) : nacks (es ++ log) = nacks log := by
  induction es with
  | nil => rfl
  | cons e rest ih =>
      have he := hes e List.mem_cons_self
      rw [List.cons_append, nacks_cons,
        ih fun e' he' => hes e' (List.mem_cons_of_mem _ he')]
      cases e <;> first | rfl | cases he

/-- What the ledger allows: command `k` is transmitted when exactly the
ones before it have been acknowledged, and the dial happens when all
nine have. -/
def InOrder (e : Ev) (past : List Ev) : Prop :=
  match e with
  | .tx k => acks past = List.range k
  | .pcb .connect _ => acks past = List.range gsmInitCmdsSize
  | _ => True

-- ================================================================ a pass

/-- The task is inside the loop. -/
def Loc.inPass : Loc → Bool
  | .cmd _ _ => true
  | .cmdWait _ _ => true
  | _ => false

/-- Steps a pass has left at most. -/
def passLeft : Loc → Nat
  | .cmd iter nfail => (21 - nfail) * 20 + 2 * (9 - iter) + 1
  | .cmdWait iter nfail => (21 - nfail) * 20 + 2 * (9 - iter)
  | _ => 0

/-- The bound for a whole pass. -/
def passBound : Nat := passLeft (.cmd 0 0)

/-- A pass that began with `base` failures on the ledger has ended: all
nine commands are acknowledged, or the 21st failure has sent the task to
its exit. -/
def PassEnded (base : Nat) (s : Sys) : Prop :=
  s.task = .statusTest ∧ acks s.log = List.range gsmInitCmdsSize ∧
    nacks s.log ≤ base + 20 ∨
  s.task = .exit ∧ nacks s.log = base + 21

/-- The initialisation law: commands in order, dials only after all nine
acknowledgements, and no pass that goes on for ever or gets stuck. -/
structure InitLaw (s : Sys) : Prop where
  order : Always InOrder s.log
  moves : s.task.inPass = true →
    (∃ s', taskStep .go s = some s') ∨
    ∀ v, ∃ s', taskStep (.verdict v) s = some s'
  ends : s.task = .cmd 0 0 → ∀ acts s', client.run anyStep s acts = some s' →
    passBound < acts.countP Act.isTask →
    ∃ before after s₁, acts = before ++ after ∧
      client.run anyStep s before = some s₁ ∧ PassEnded (nacks s.log) s₁

-- ============================================================ the invariant

/-- The first `k` commands are acknowledged, on the ledger and in the
flags. -/
structure Acked (k : Nat) (s : Sys) : Prop where
  le : k ≤ gsmInitCmdsSize
  flags : skips s.cmds
    = List.replicate k true ++ List.replicate (gsmInitCmdsSize - k) false
  ledger : acks s.log = List.range k

/-- What holds at each location of the task. -/
def Loc.ledger (s : Sys) : Loc → Prop
  | .dead => True
  | .start => True
  | .setup _ => acks s.log = []
  | .off _ _ _ _ => acks s.log = []
  | .reset => acks s.log = []
  | .cmd iter nfail => nfail ≤ 20 ∧ ∃ k, iter ≤ k ∧ Acked k s
  | .cmdWait iter nfail => nfail ≤ 20 ∧ iter < gsmInitCmdsSize ∧ Acked iter s
  | .statusTest => Acked gsmInitCmdsSize s
  | .create => Acked gsmInitCmdsSize s
  | .setDefault => Acked gsmInitCmdsSize s
  | .setAuth => Acked gsmInitCmdsSize s
  | .markIdle => Acked gsmInitCmdsSize s
  | .connect => Acked gsmInitCmdsSize s
  | .loopHead => True
  | .read d => d.isSome → acks s.log = []
  | .input d _ => d.isSome → acks s.log = []
  | .count d _ => d.isSome → acks s.log = []
  | .close _ => True
  | .drain _ => acks s.log = []
  | .readRfOff _ => acks s.log = []
  | .park _ => acks s.log = []
  | .parked => Acked 0 s
  | .redialClose => True
  | .redial => acks s.log = []
  | .exit => True
  | .exitFlag => True

/-- The ledger agrees with the flags and with the task's location. -/
structure LedgerInv (s : Sys) : Prop where
  size : s.cmds.length = gsmInitCmdsSize
  loc : s.task.ledger s
  order : Always InOrder s.log

theorem Acked.congr {k : Nat} {s s' : Sys} (h : Acked k s)
    (hflags : skips s'.cmds = skips s.cmds)
    (hledger : acks s'.log = acks s.log) : Acked k s' :=
  ⟨h.le, by rw [hflags, h.flags], by rw [hledger, h.ledger]⟩

/-- Clearing all flags on an empty ledger. -/
theorem acked_zero {s : Sys} (hsize : s.cmds.length = gsmInitCmdsSize)
    (hledger : acks s.log = []) :
    Acked 0 { s with cmds := enableAllInitCmd s.cmds } :=
  ⟨Nat.zero_le _, by simp [hsize], hledger⟩

/-- The flag the index looks at. -/
theorem Acked.flag {k : Nat} {s : Sys} (h : Acked k s) {iter : Nat}
    (hiter : iter < gsmInitCmdsSize) :
    (skips s.cmds).getD iter false = decide (iter < k) := by
  have hle := h.le
  rw [h.flags, List.getD_eq_getElem?_getD, List.getElem?_append,
    List.length_replicate]
  split
  case isTrue hlt => simp [hlt]
  case isFalse hge =>
      rw [List.getElem?_replicate, if_pos (by omega)]
      simp [hge]

/-- Acknowledging the next command. -/
theorem Acked.succ {k : Nat} {s : Sys} (h : Acked k s)
    (hk : k < gsmInitCmdsSize) :
    Acked (k + 1) { s with
      cmds := skipCmd k s.cmds
      log := .ack k :: s.log } := by
  refine ⟨hk, ?_, ?_⟩
  · have hsplit : gsmInitCmdsSize - k = gsmInitCmdsSize - (k + 1) + 1 := by
      omega
    show skips (skipCmd k s.cmds) = _
    rw [skips_skipCmd, h.flags, List.set_append_right _ _ (by simp),
      List.length_replicate, Nat.sub_self, hsplit, List.replicate_succ,
      List.set_cons_zero, List.replicate_succ', List.append_assoc]
    rfl
  · show acks (.ack k :: s.log) = _
    rw [acks_cons, h.ledger, List.range_succ]

/-- A step that logs at most one entry, in order. -/
private theorem ledgerInv_of {s s' : Sys} (hi : LedgerInv s)
    (hsize : s'.cmds.length = s.cmds.length)
    (hlog : s'.log = s.log ∨ ∃ e, InOrder e s.log ∧ s'.log = e :: s.log)
    (hloc : s'.task.ledger s') : LedgerInv s' := by
  refine ⟨hsize.trans hi.size, hloc, ?_⟩
  rcases hlog with hl | ⟨e, he, hl⟩
  · rw [hl]
    exact hi.order
  · rw [hl]
    exact ⟨he, hi.order⟩

/-- `_disconnect`'s tail acknowledges nothing. -/
private theorem ledgerInv_offTail {s : Sys} (hi : LedgerInv s)
    (ret : OffRet) (rfOff : Bool) (hacks : acks s.log = []) :
    LedgerInv (offTail ret rfOff s) := by
  unfold offTail
  split
  · exact ledgerInv_of hi (setRegTimeout_length _ _)
      (.inr ⟨.regTimeout .disconnect, trivial, rfl⟩)
      ((acks_cons _ _).trans hacks)
  · refine ledgerInv_of hi rfl (.inl rfl) ?_
    cases ret <;> exact hacks

/-- The head of either receive loop, after a turn of it. -/
private theorem ledger_recvHead {s : Sys} {d : Option Int}
    (h : d.isSome → acks s.log = []) : (recvHead d).ledger s := by
  cases d with
  | none => trivial
  | some e => exact h rfl

/-- The head of the loop: over a skipped command, at the next one, at the
end of the table. -/
private theorem cmd_cases {iter nfail : Nat} {i : TaskIn} {s s' : Sys}
    (ht : s.task = .cmd iter nfail) (h : taskStep i s = some s') :
    (iter < gsmInitCmdsSize ∧ (skips s.cmds).getD iter false = true ∧
      s' = { s with task := .cmd (iter + 1) nfail }) ∨
    (iter < gsmInitCmdsSize ∧ (skips s.cmds).getD iter false = false ∧
      s' = { s with
        task := .cmdWait iter nfail
        log := .tx iter :: s.log }) ∨
    (gsmInitCmdsSize ≤ iter ∧ s' = { s with task := .statusTest }) := by
  cases i with
  | go =>
      simp only [taskStep, ht] at h
      split at h
      case isTrue hlt =>
          split at h <;> cases h
          · exact .inl ⟨hlt, ‹_›, rfl⟩
          · exact .inr (.inl ⟨hlt, Bool.eq_false_iff.mpr ‹_›, rfl⟩)
      case isFalse hge =>
          cases h
          exact .inr (.inr ⟨Nat.le_of_not_lt hge, rfl⟩)
  | _ => simp [taskStep, ht] at h

/-- The end of an exchange: back to the head, to the exit, or on to the
next command. -/
private theorem cmdWait_cases {iter nfail : Nat} {i : TaskIn}
    {s s' : Sys} (ht : s.task = .cmdWait iter nfail)
    (h : taskStep i s = some s') :
    (20 < nfail + 1 ∧
      s' = { s with
        task := .exit
        log := .nack iter :: s.log }) ∨
    (nfail + 1 ≤ 20 ∧
      s' = { s with
        task := .cmd 0 (nfail + 1)
        log := .nack iter :: s.log }) ∨
    s' = { s with
      cmds := skipCmd iter s.cmds
      task := .cmd (iter + 1) nfail
      log := .ack iter :: s.log } := by
  cases i with
  | verdict v =>
      simp only [taskStep, ht] at h
      split at h
      case isTrue =>
          by_cases hn : nfail + 1 > 20
          · rw [if_pos hn] at h
            exact .inl ⟨hn, (Option.some.inj h).symm⟩
          · rw [if_neg hn] at h
            exact .inr (.inl ⟨Nat.le_of_not_lt hn, (Option.some.inj h).symm⟩)
      case isFalse => exact .inr (.inr (Option.some.inj h).symm)
  | _ => simp [taskStep, ht] at h

/-- At the head the command that is sent next is the first one that has not
been acknowledged, -/
private theorem ledgerInv_cmd {iter nfail : Nat} {i : TaskIn} {s s' : Sys}
    (hi : LedgerInv s) (ht : s.task = .cmd iter nfail)
    (h : taskStep i s = some s') : LedgerInv s' := by
  have hloc := hi.loc
  rw [ht] at hloc
  obtain ⟨hnf, k, hik, hk⟩ := hloc
  rcases cmd_cases ht h with
    ⟨hlt, hskip, rfl⟩ | ⟨hlt, hskip, rfl⟩ | ⟨hge, rfl⟩
  · rw [hk.flag hlt, decide_eq_true_eq] at hskip
    exact ledgerInv_of hi rfl (.inl rfl) ⟨hnf, k, hskip, hk.congr rfl rfl⟩
  · rw [hk.flag hlt, decide_eq_false_iff_not] at hskip
    obtain rfl : iter = k := by omega
    exact ledgerInv_of hi rfl (.inr ⟨.tx iter, hk.ledger, rfl⟩)
      ⟨hnf, hlt, hk.congr rfl (acks_cons _ _)⟩
  · have hle := hk.le
    obtain rfl : k = gsmInitCmdsSize := by omega
    exact ledgerInv_of hi rfl (.inl rfl) (hk.congr rfl rfl)

/-- and at the end of its exchange it joins the ledger, or nothing does. -/
private theorem ledgerInv_cmdWait {iter nfail : Nat} {i : TaskIn}
    {s s' : Sys} (hi : LedgerInv s) (ht : s.task = .cmdWait iter nfail)
    (h : taskStep i s = some s') : LedgerInv s' := by
  have hloc := hi.loc
  rw [ht] at hloc
  obtain ⟨hnf, hlt, hk⟩ := hloc
  rcases cmdWait_cases ht h with ⟨-, rfl⟩ | ⟨hle, rfl⟩ | rfl
  · exact ledgerInv_of hi rfl (.inr ⟨.nack iter, trivial, rfl⟩) trivial
  · exact ledgerInv_of hi rfl (.inr ⟨.nack iter, trivial, rfl⟩)
      ⟨hle, iter, Nat.zero_le _, hk.congr rfl (acks_cons _ _)⟩
  · exact ledgerInv_of hi (skipCmd_length _ _)
      (.inr ⟨.ack iter, trivial, rfl⟩)
      ⟨hnf, iter + 1, Nat.le_refl _, (hk.succ hlt).congr rfl rfl⟩

/-- Every step of the task keeps the ledger. -/
private theorem ledgerInv_task {i : TaskIn} {s s' : Sys}
    (hi : LedgerInv s) (h : taskStep i s = some s') : LedgerInv s' := by
  have hloc := hi.loc
  have hstep := h
  unfold taskStep at h
  split at h
  -- start and set-up
  case h_1 ht =>
      cases h
      exact ledgerInv_of hi rfl (.inr ⟨.taskStart, trivial, rfl⟩)
        (acks_cons _ _)
  case h_2 k ht =>
      cases h
      exact ledgerInv_of hi rfl (.inl rfl) trivial
  case h_3 k ht =>
      rw [ht] at hloc
      split at h <;> cases h
      · exact ledgerInv_of hi rfl (.inl rfl) hloc
      · exact ledgerInv_of hi (setApn_length _) (.inl rfl) hloc
  -- `_disconnect`
  case h_4 ret rfOff c ht =>
      rw [ht] at hloc
      cases h
      exact ledgerInv_of hi rfl (.inl rfl) hloc
  case h_5 ret rfOff v ht | h_6 ret rfOff n v ht =>
      rw [ht] at hloc
      have htail := ledgerInv_offTail hi ret rfOff hloc
      split at h <;> cases h
      all_goals first
        | exact htail
        | exact ledgerInv_of hi rfl (.inl rfl) hloc
  case h_7 ret rfOff v ht =>
      rw [ht] at hloc
      cases h
      refine ledgerInv_of hi rfl (.inl rfl) ?_
      cases ret <;> exact hloc
  case h_8 ht =>
      rw [ht] at hloc
      cases h
      refine ledgerInv_of hi (enableAllInitCmd_length _)
        (.inr ⟨.resetCounts, trivial, rfl⟩) ?_
      exact ⟨Nat.zero_le _, 0, Nat.le_refl _, (acked_zero hi.size hloc).congr
        rfl (acks_cons _ _)⟩
  -- the loop
  case h_9 iter nfail ht => exact ledgerInv_cmd hi ht hstep
  case h_10 iter nfail v ht => exact ledgerInv_cmdWait hi ht hstep
  -- to the connection
  case h_11 ht =>
      rw [ht] at hloc
      cases h
      refine ledgerInv_of hi rfl (.inl rfl) ?_
      show Loc.ledger _ (if _ then _ else _)
      split <;> exact hloc.congr rfl rfl
  case h_12 ht | h_14 ht | h_15 ht =>
      rw [ht] at hloc
      cases h
      refine ledgerInv_of hi rfl (.inr ⟨_, ?_, rfl⟩)
        (hloc.congr rfl (acks_cons _ _))
      trivial
  case h_13 ht =>
      cases h
      exact ledgerInv_of hi rfl (.inr ⟨.create none, trivial, rfl⟩) trivial
  case h_16 ht =>
      rw [ht] at hloc
      cases h
      exact ledgerInv_of hi rfl (.inl rfl) (hloc.congr rfl rfl)
  case h_17 ht =>
      rw [ht] at hloc
      cases h
      exact ledgerInv_of hi rfl
        (.inr ⟨.pcb .connect s.ppp, hloc.ledger, rfl⟩) trivial
  -- the data loop
  case h_18 ht =>
      split at h
      case isTrue hreq =>
          cases h
          exact ledgerInv_of hi rfl (.inl rfl) trivial
      case isFalse =>
          split at h <;> cases h
          · exact ledgerInv_of hi rfl (.inl rfl) trivial
          · exact ledgerInv_of hi rfl (.inl rfl) nofun
  case h_19 d len ht =>
      rw [ht] at hloc
      split at h <;> cases h
      · refine ledgerInv_of hi rfl (.inr ⟨.uartRead len, trivial, rfl⟩) ?_
        exact fun hd => (acks_cons _ _).trans (hloc hd)
      · exact ledgerInv_of hi rfl (.inl rfl) (ledger_recvHead hloc)
  case h_20 d len ht =>
      rw [ht] at hloc
      cases h
      refine ledgerInv_of hi rfl
        (.inr ⟨.pcb (.input len) s.ppp, trivial, rfl⟩) ?_
      exact fun hd => (acks_cons _ _).trans (hloc hd)
  case h_21 d len ht =>
      rw [ht] at hloc
      cases h
      exact ledgerInv_of hi rfl (.inl rfl) (ledger_recvHead hloc)
  -- both closes, after which the ledger is empty
  case h_22 e ht | h_27 ht =>
      cases h
      exact ledgerInv_of hi rfl (.inr ⟨.pcb .close s.ppp, trivial, rfl⟩)
        (acks_cons _ _)
  -- a disconnect request
  case h_23 e ht =>
      rw [ht] at hloc
      cases h
      refine ledgerInv_of hi rfl (.inl rfl) ?_
      show Loc.ledger _ (if _ then _ else _)
      split
      · exact hloc
      · exact fun _ => hloc
  case h_24 e ht =>
      rw [ht] at hloc
      cases h
      exact ledgerInv_of hi rfl (.inl rfl) hloc
  case h_25 e ht =>
      rw [ht] at hloc
      cases h
      refine ledgerInv_of hi (enableAllInitCmd_length _) (.inl rfl) ?_
      show Loc.ledger _ (if _ then _ else _)
      split
      · trivial
      · exact (acked_zero hi.size hloc).congr rfl rfl
  case h_26 ht =>
      rw [ht] at hloc
      cases h
      refine ledgerInv_of hi rfl (.inl rfl) ?_
      show Loc.ledger _ (if _ then _ else _)
      split
      · exact hloc.congr rfl rfl
      · exact ⟨Nat.zero_le _, 0, Nat.le_refl _, hloc.congr rfl rfl⟩
  -- a dropped session, and the exit
  case h_28 ht =>
      rw [ht] at hloc
      cases h
      refine ledgerInv_of hi (enableAllInitCmd_length _) (.inl rfl) ?_
      exact ⟨Nat.zero_le _, 0, Nat.le_refl _,
        (acked_zero hi.size hloc).congr rfl rfl⟩
  case h_29 ht =>
      cases h
      refine ledgerInv_of hi rfl ?_ trivial
      by_cases hp : s.ppp.isSome = true
      · exact .inr ⟨.pcb .free s.ppp, trivial, if_pos hp⟩
      · exact .inl (if_neg hp)
  case h_30 ht =>
      cases h
      exact ledgerInv_of hi rfl (.inr ⟨.taskEnd, trivial, rfl⟩) trivial
  case h_31 => cases h

/-- What holds at a location depends on the flags and the ledger only. -/
private theorem ledger_congr {s s' : Sys} {l : Loc}
    (hflags : skips s'.cmds = skips s.cmds)
    (hacks : acks s'.log = acks s.log) (h : l.ledger s) : l.ledger s' := by
  cases l with
  | cmd iter nfail =>
      obtain ⟨hnf, k, hik, hk⟩ := h
      exact ⟨hnf, k, hik, hk.congr hflags hacks⟩
  | cmdWait iter nfail =>
      obtain ⟨hnf, hlt, hk⟩ := h
      exact ⟨hnf, hlt, hk.congr hflags hacks⟩
  | read d => exact fun hd => hacks.trans (h hd)
  | input d len => exact fun hd => hacks.trans (h hd)
  | count d len => exact fun hd => hacks.trans (h hd)
  | _ =>
      first
        | trivial
        | exact hacks.trans h
        | exact Acked.congr h hflags hacks

/-- The other parties leave the ledger alone. -/
private theorem ledgerInv_foreign {a : Act} {s s' : Sys}
    (hi : LedgerInv s) (ha : a.isTask = false)
    (h : apply a s = some s') : LedgerInv s' := by
  obtain ⟨es, hlog, hes⟩ := foreign_log ha h
  obtain ⟨w, hcmds, -⟩ := foreign_cmds ha h
  have hflags : skips s'.cmds = skips s.cmds := by
    rw [hcmds]
    cases w with
    | none => rfl
    | some w => exact skips_setRegTimeout _ _
  have hacks : acks s'.log = acks s.log := by
    rw [hlog, acks_foreign hes]
  refine ⟨?_, ?_, ?_⟩
  · have := congrArg List.length hflags
    rw [skips_length, skips_length] at this
    exact this.trans hi.size
  · rcases foreign_task ha h with ht | ⟨-, ht⟩
    · rw [ht]
      exact ledger_congr hflags hacks hi.loc
    · rw [ht]
      trivial
  · rw [hlog]
    refine always_append (fun e he past => ?_) hi.order
    have := hes e he
    cases e <;> trivial

theorem ledgerInv_step {a : Act} {s s' : Sys} (hi : LedgerInv s)
    (h : apply a s = some s') : LedgerInv s' := by
  cases a with
  | task i => exact ledgerInv_task hi h
  | _ => exact ledgerInv_foreign hi rfl h

theorem ledgerInv_of_reach {s : Sys} (h : client.Reach anyStep s) :
    LedgerInv s := by
  refine h.invariant (I := LedgerInv) ⟨rfl,
    show Loc.ledger Sys.boot .dead from trivial, always_nil _⟩ ?_
  exact fun _ _ _ hi _ h => ledgerInv_step hi h

-- ============================================================ termination

/-- The failures a pass has seen, as the location counts them. -/
def Loc.failures : Loc → Nat
  | .cmd _ nfail => nfail
  | .cmdWait _ nfail => nfail
  | _ => 0

/-- Inside a pass that began with `base` failures on the ledger. -/
structure InPass (base : Nat) (s : Sys) : Prop where
  life : Life s
  ledger : LedgerInv s
  loc : s.task.inPass = true
  count : nacks s.log = base + s.task.failures

/-- At the head of the loop: over a skipped command, on to the next
exchange, or out of the loop. -/
private theorem pass_cmd {base iter nfail : Nat} {i : TaskIn} {s s' : Sys}
    (hi : InPass base s) (ht : s.task = .cmd iter nfail)
    (h : taskStep i s = some s') :
    PassEnded base s' ∨
      s'.task.inPass = true ∧ nacks s'.log = base + s'.task.failures ∧
      passLeft s'.task + 1 ≤ passLeft s.task := by
  have hloc := hi.ledger.loc
  have hcount := hi.count
  rw [ht] at hloc hcount
  obtain ⟨hnf, k, hik, hk⟩ := hloc
  rw [ht]
  rcases cmd_cases ht h with
    ⟨hlt, -, rfl⟩ | ⟨hlt, -, rfl⟩ | ⟨hge, rfl⟩
  · have hlt' : iter < 9 := hlt
    exact .inr ⟨rfl, hcount, by simp only [passLeft]; omega⟩
  · have hlt' : iter < 9 := hlt
    refine .inr ⟨rfl, ?_, by simp only [passLeft]; omega⟩
    rw [nacks_cons, hcount]
    rfl
  · have hle := hk.le
    obtain rfl : k = gsmInitCmdsSize := by omega
    refine .inl (.inl ⟨rfl, hk.ledger, ?_⟩)
    show nacks s.log ≤ base + 20
    rw [hcount]
    exact Nat.add_le_add_left hnf base

/-- At the end of an exchange: a failure restarts the index or is the
21st, a success moves on. -/
private theorem pass_cmdWait {base iter nfail : Nat} {i : TaskIn}
    {s s' : Sys} (hi : InPass base s) (ht : s.task = .cmdWait iter nfail)
    (h : taskStep i s = some s') :
    PassEnded base s' ∨
      s'.task.inPass = true ∧ nacks s'.log = base + s'.task.failures ∧
      passLeft s'.task + 1 ≤ passLeft s.task := by
  have hloc := hi.ledger.loc
  have hcount := hi.count
  rw [ht] at hloc hcount
  obtain ⟨hnf, hlt, -⟩ := hloc
  have hlt' : iter < 9 := hlt
  have hnacks : nacks (.nack iter :: s.log) = base + (nfail + 1) := by
    rw [nacks_cons, hcount]
    rfl
  rw [ht]
  rcases cmdWait_cases ht h with ⟨hlast, rfl⟩ | ⟨hle, rfl⟩ | rfl
  · obtain rfl : nfail = 20 := by omega
    exact .inl (.inr ⟨rfl, hnacks⟩)
  · exact .inr ⟨rfl, hnacks, by simp only [passLeft]; omega⟩
  · refine .inr ⟨rfl, ?_, by simp only [passLeft]; omega⟩
    rw [nacks_cons, hcount]
    rfl

/-- Every step from inside a pass ends it or pays. -/
theorem pass_step {base : Nat} (s : Sys) (a : Act) (s' : Sys)
    (hi : InPass base s) (h : apply a s = some s') :
    PassEnded base s' ∨ InPass base s' ∧
      passLeft s'.task + (if a.isTask then 1 else 0) ≤ passLeft s.task := by
  have hlife := life_step hi.life h
  have hledger := ledgerInv_step hi.ledger h
  have hforeign : a.isTask = false → InPass base s' ∧
      passLeft s'.task + 0 ≤ passLeft s.task := by
    intro ha
    obtain ⟨es, hlog, hes⟩ := foreign_log ha h
    have ht : s'.task = s.task := by
      refine foreign_alive ha hi.life (fun hdead => ?_) h
      have hin := hi.loc
      rw [hdead] at hin
      cases hin
    refine ⟨⟨hlife, hledger, by rw [ht, hi.loc], ?_⟩, by rw [ht]; omega⟩
    rw [hlog, nacks_foreign hes, ht, hi.count]
  cases a with
  | task i =>
      have hpass : PassEnded base s' ∨
          s'.task.inPass = true ∧ nacks s'.log = base + s'.task.failures ∧
          passLeft s'.task + 1 ≤ passLeft s.task := by
        have hin := hi.loc
        cases ht : s.task with
        | cmd iter nfail => exact ht ▸ pass_cmd hi ht h
        | cmdWait iter nfail => exact ht ▸ pass_cmdWait hi ht h
        | _ =>
            rw [ht] at hin
            cases hin
      rcases hpass with hend | ⟨hin, hcount, hpay⟩
      · exact .inl hend
      · exact .inr ⟨⟨hlife, hledger, hin, hcount⟩, hpay⟩
  | _ => exact .inr (hforeign rfl)

/-- The initialisation law holds in every run.

Order and uniqueness are read off the ledger; that a pass does not get
stuck is a look at its locations; and that it ends is the measure of
`pass_step`, from the first command of the pass to its end. -/
theorem initLaw_of_reach {s : Sys} (h : client.Reach anyStep s) :
    InitLaw s := by
  have hi := ledgerInv_of_reach h
  refine ⟨hi.order, fun hin => ?_, fun hstart acts s' hrun hlong => ?_⟩
  · cases ht : s.task with
    | cmd iter nfail =>
        refine .inl ?_
        simp only [taskStep, ht]
        split
        · split <;> exact ⟨_, rfl⟩
        · exact ⟨_, rfl⟩
    | cmdWait iter nfail =>
        refine .inr fun v => ?_
        simp only [taskStep, ht]
        split <;> exact ⟨_, rfl⟩
    | _ =>
        rw [ht] at hin
        cases hin
  · have hpass : InPass (nacks s.log) s :=
      ⟨life_of_reach h, hi, by rw [hstart]; rfl, by rw [hstart]; rfl⟩
    refine leaves_within (M := client) (L := InPass (nacks s.log))
      pass_step hpass hrun ?_
    rw [hstart]
    exact hlong

/-- A redial after a drop goes through a whole second pass. -/
theorem initLaw_redial : ∃ s, client.Reach anyStep s
    ∧ acks s.log = List.range 9 ∧ s.task = .connect ∧ InitLaw s := by
  obtain ⟨s, hr, hs⟩ := exists_reach client anyStep
    (bringUp ++ [.cb .errConnect] ++ List.replicate 3 (.task .go)
      ++ initPass ++ List.replicate 4 (.task .go))
    (fun s => acks s.log = List.range 9 ∧ s.task = .connect) (by decide)
  obtain ⟨hacks, ht⟩ := of_decide_eq_true hs
  exact ⟨s, hr, hacks, ht, initLaw_of_reach hr⟩

end ShZ001.Gsm
