/-
The registration timeout: `cmd_Reg.timeoutMs` is written by three
functions outside the initialisation loop, and `atCmd_waitResponse`
counts its first 10 ms before it looks at what it has read.

# The writers

So every value from 10 up lets an immediate reply through and every
smaller one rejects all replies. `_disconnect` writes 10000 and
`gsm_RFOff` writes 500; `gsm_RFOn` writes 0, and after it no reply to
`AT+CREG?` can make the loop succeed until one of the others has run.

# The column

What the loop's outcome depends on is one column of the table
(`answers`): the expected strings and the timeouts. It is determined by
the last writer (`ColumnInv`), so the question is decided by the log
alone: `initAnswered_iff_lastReg`.
-/
import ShZ001.Gsm.At
import ShZ001.Gsm.Handshake

namespace ShZ001.Gsm

open Lib Machine

/-- A modem that answers every initialisation command at once, with a
text whose first 256 bytes contain the expected string, and then falls
silent, has every command accepted with the timeouts as they stand.

They are the timeouts of the state it is read in. A new life does not
start its loop with those the last one left: `_disconnect(1)` (line 525)
comes first and writes 10000 on each of its ways out. It is the later
loops of a life, of a redial or of a new request, that meet what
`gsm_RFOn` has left. -/
def InitAnswered (s : Sys) : Prop :=
  ∀ c ∈ s.cmds, ∀ past reply,
    c.cmdResponseOnOk <:+: reply.take srespSize →
    atCmdWaitResponse past c.cmdResponseOnOk none c.timeoutMs [reply, []]
      ≠ 0

-- =============================================================== the column

/-- Expected strings and timeouts, in table order. -/
def answers (cmds : List GsmCmd) : List (List UInt8 × Nat) :=
  cmds.map fun c => (c.cmdResponseOnOk, c.timeoutMs)

/-- A write to one record acts on one entry of the column. -/
theorem answers_modify {f : GsmCmd → GsmCmd}
    {g : List UInt8 × Nat → List UInt8 × Nat}
    (hfg : ∀ c, ((f c).cmdResponseOnOk, (f c).timeoutMs)
      = g (c.cmdResponseOnOk, c.timeoutMs))
    (k : Nat) (cmds : List GsmCmd) :
    answers (cmds.modify k f) = (answers cmds).modify k g := by
  induction cmds generalizing k with
  | nil => cases k <;> rfl
  | cons c rest ih =>
      cases k with
      | zero => simp [answers, hfg]
      | succ k => simpa [answers] using ih k

/-- A write to other fields leaves the column alone. -/
theorem answers_modify_other {f : GsmCmd → GsmCmd}
    (hf : ∀ c, ((f c).cmdResponseOnOk, (f c).timeoutMs)
      = (c.cmdResponseOnOk, c.timeoutMs))
    (k : Nat) (cmds : List GsmCmd) :
    answers (cmds.modify k f) = answers cmds :=
  (answers_modify (g := id) hf k cmds).trans (List.modify_id _ _)

@[simp] theorem answers_enableAllInitCmd (cmds : List GsmCmd) :
    answers (enableAllInitCmd cmds) = answers cmds := by
  simp [answers, enableAllInitCmd]

@[simp] theorem answers_skipCmd (k : Nat) (cmds : List GsmCmd) :
    answers (skipCmd k cmds) = answers cmds := by
  unfold skipCmd
  refine answers_modify_other ?_ k cmds
  intro c
  rfl

@[simp] theorem answers_setApn (cmds : List GsmCmd) :
    answers (setApn cmds) = answers cmds := by
  unfold setApn
  refine answers_modify_other ?_ apnIdx cmds
  intro c
  rfl

/-- The one write that shows in it. -/
theorem answers_setRegTimeout (ms : Nat) (cmds : List GsmCmd) :
    answers (setRegTimeout ms cmds)
      = (answers cmds).modify regIdx fun p => (p.1, ms) :=
  answers_modify (fun _ => rfl) _ _

-- ============================================================ the invariant

/-- The column is that of the table at boot, with the registration
timeout of the last writer. -/
def ColumnInv (s : Sys) : Prop :=
  answers s.cmds = answers (regWrite (lastReg s.log) gsmInit)

/-- A later write replaces an earlier one. -/
theorem answers_regWrite {w : RegWriter} {cmds : List GsmCmd}
    {w₀ : Option RegWriter}
    (h : answers cmds = answers (regWrite w₀ gsmInit)) :
    answers (setRegTimeout w.timeoutMs cmds)
      = answers (regWrite (some w) gsmInit) := by
  unfold regWrite
  rw [answers_setRegTimeout, answers_setRegTimeout, h]
  cases w₀ with
  | none => rfl
  | some w₀ =>
      unfold regWrite
      rw [answers_setRegTimeout, List.modify_modify_eq]
      rfl

/-- What a step does to the column is to write the timeout of the writer
it logs, if it logs one. -/
def WritesColumn (s s' : Sys) : Prop :=
  ∃ w, answers s'.cmds = answers (regWrite w s.cmds) ∧
    lastReg s'.log = w.or (lastReg s.log)

/-- A step that leaves the column alone and logs no writer. -/
private theorem writesColumn_of_eq {s s' : Sys}
    (hcmds : answers s'.cmds = answers s.cmds)
    (hlog : lastReg s'.log = lastReg s.log) : WritesColumn s s' :=
  ⟨none, hcmds, hlog⟩

/-- The task writes the column in `_disconnect` only. -/
private theorem writesColumn_task {i : TaskIn} {s s' : Sys}
    (h : taskStep i s = some s') : WritesColumn s s' := by
  have htail : ∀ ret rfOff, WritesColumn s (offTail ret rfOff s) := by
    intro ret rfOff
    unfold offTail
    split
    · exact ⟨some .disconnect, rfl, lastReg_cons _ _⟩
    · exact writesColumn_of_eq rfl rfl
  unfold taskStep at h
  repeat' split at h
  all_goals cases h
  all_goals first
    | exact htail _ _
    | exact writesColumn_of_eq rfl rfl
    | exact writesColumn_of_eq rfl (lastReg_cons _ _)
    | exact writesColumn_of_eq (answers_setApn _) rfl
    | exact writesColumn_of_eq (answers_skipCmd _ _) (lastReg_cons _ _)
    | exact writesColumn_of_eq (answers_enableAllInitCmd _) rfl

theorem columnInv_step {a : Act} {s s' : Sys} (hi : ColumnInv s)
    (h : apply a s = some s') : ColumnInv s' := by
  have hw : WritesColumn s s' := by
    cases a with
    | task i => exact writesColumn_task h
    | _ =>
        obtain ⟨w, hcmds, hlog⟩ := foreign_cmds rfl h
        exact ⟨w, by rw [hcmds], hlog⟩
  obtain ⟨w, hcmds, hlog⟩ := hw
  unfold ColumnInv
  rw [hcmds, hlog]
  cases w with
  | none => exact hi
  | some w => exact answers_regWrite hi

theorem columnInv_of_reach {s : Sys} (h : client.Reach anyStep s) :
    ColumnInv s :=
  h.invariant (I := ColumnInv) (show ColumnInv Sys.boot from rfl)
    fun _ _ _ hi _ h => columnInv_step hi h

-- ================================================================ the law

/-- Whether a modem's answers are accepted depends on the column only. -/
theorem initAnswered_iff {s : Sys} :
    InitAnswered s ↔ ∀ p ∈ answers s.cmds, ∀ past reply,
      p.1 <:+: reply.take srespSize →
      atCmdWaitResponse past p.1 none p.2 [reply, []] ≠ 0 := by
  simp only [InitAnswered, answers, List.mem_map]
  constructor
  · intro h p h'
    obtain ⟨c, hc, rfl⟩ := h'
    exact h c hc
  · exact fun h c hc => h _ ⟨c, hc, rfl⟩

/-- The expected string is printable and not empty, and the timeout is
from 10 up. -/
def accepts (p : List UInt8 × Nat) : Bool :=
  p.1.all (fun b => decide (0x20 ≤ b ∧ b < 0x80)) &&
    (!p.1.isEmpty && decide (10 ≤ p.2))

/-- Unless `gsm_RFOn` wrote it last, the registration timeout is at
least 10, as the others are. -/
theorem initAnswered_of_lastReg {s : Sys} (hi : ColumnInv s)
    (hw : lastReg s.log ≠ some .rfOn) : InitAnswered s := by
  have hall : (answers s.cmds).all accepts = true := by
    rw [hi]
    cases hl : lastReg s.log with
    | none => decide
    | some w =>
        cases w with
        | disconnect => decide
        | rfOff => decide
        | rfOn => exact absurd hl hw
  refine initAnswered_iff.mpr fun p hp past reply hfind => ?_
  have haccepts := List.all_eq_true.mp hall p hp
  simp only [accepts, Bool.and_eq_true, List.all_eq_true,
    decide_eq_true_eq] at haccepts
  obtain ⟨hprint, hne, ht⟩ := haccepts
  rw [atCmdWaitResponse_prompt hprint (by simpa using hne) hfind ht]
  decide

/-- After `gsm_RFOn` the registration query fails on its own expected
string. -/
theorem not_initAnswered_of_rfOn {s : Sys} (hi : ColumnInv s)
    (hw : lastReg s.log = some .rfOn) : ¬ InitAnswered s := by
  intro h
  have hmem : (bytes "CREG: 0,1", 0) ∈ answers s.cmds := by
    rw [hi, hw]
    decide
  refine initAnswered_iff.mp h _ hmem [] (bytes "CREG: 0,1") (by decide) ?_
  exact atCmdWaitResponse_short (by decide)

/-- In every reachable state the next initialisation loop of an answering
modem succeeds exactly if `gsm_RFOn` was not the last to write the
registration timeout.

The other eight commands never stand in the way: their timeouts are those
of the table, and large enough. -/
theorem initAnswered_iff_lastReg {s : Sys} (h : client.Reach anyStep s) :
    InitAnswered s ↔ lastReg s.log ≠ some .rfOn := by
  have hi := columnInv_of_reach h
  constructor
  · exact fun ha hw => not_initAnswered_of_rfOn hi hw ha
  · exact initAnswered_of_lastReg hi

/-- Disconnect, switch the radio on, reconnect: the task stands at the
head of an initialisation loop that no reply can satisfy. -/
theorem initAnswered_fails : ∃ s, client.Reach anyStep s
    ∧ s.task = .cmd 0 0 ∧ ¬ InitAnswered s := by
  obtain ⟨s, hr, hs⟩ := exists_reach client anyStep
    (bringUp ++ hangUp false ++ [.modem 0 (.call (.rf true)),
      .modem 0 .send, .modem 0 (.done 0), .modem 0 .send,
      .modem 0 (.done 1), .init .call, .task .go])
    (fun s => s.task = .cmd 0 0 ∧ lastReg s.log = some .rfOn) (by decide)
  obtain ⟨ht, hw⟩ := of_decide_eq_true hs
  exact ⟨s, hr, ht, not_initAnswered_of_rfOn (columnInv_of_reach hr) hw⟩

/-- A reachable state in which the loop succeeds: the first
connection. -/
theorem initAnswered_iff_lastReg_up : ∃ s, client.Reach anyStep s
    ∧ s.gsmStatus = .connected
    ∧ (InitAnswered s ↔ lastReg s.log ≠ some .rfOn) := by
  obtain ⟨s, hr, hs⟩ := exists_reach client anyStep bringUp
    (fun s => s.gsmStatus = .connected) (by decide)
  exact ⟨s, hr, of_decide_eq_true hs, initAnswered_iff_lastReg hr⟩

end ShZ001.Gsm
