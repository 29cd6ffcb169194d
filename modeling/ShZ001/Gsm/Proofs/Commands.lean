/-
What the modem hears of the initialisation commands (libGSM.c 80–181,
523–525, 547–579).

# The records in a run

The records are globals that the task, the API functions and the next
life of the task write to; the string of `cmd_APN` is missing until the
task has formatted it. Still, whenever a command is sent its record is
as the table has it. `Formatted` is the invariant: all records but that
of the APN request are the table's in what they send, and so is that one
once the task has been past the formatting.

# The bytes

`sents` is the column of the table that matters here, and most writes
leave it alone. The bytes of a record are one command line, but for
those of `cmd_RFOn`: its size is that of another literal and counts the
terminator, so that the modem gets a NUL that it has to take for the
start of the next line. `init_heard` says of every reachable state
before a command what the modem makes of the bytes, by the grammar of
`Sms/Framing.lean`.
-/
import ShZ001.Gsm.Link
import ShZ001.Sms.Proofs.Framing

namespace ShZ001.Gsm

open Lib Machine Sms

-- ================================================================= the bytes

/-- The bytes given to the UART: `cmdSize` of them, from a string and its
terminator. -/
def GsmCmd.sent (c : GsmCmd) : Option (List UInt8) :=
  c.cmd.map fun cmd => (cmd ++ [0]).take c.cmdSize

/-- Those of the table. -/
def sents (cmds : List GsmCmd) : List (Option (List UInt8)) :=
  cmds.map GsmCmd.sent

/-- Writing a field that is not sent does not show. -/
theorem sents_modify {f : GsmCmd → GsmCmd} (hf : ∀ c, (f c).sent = c.sent)
    (k : Nat) (cmds : List GsmCmd) : sents (cmds.modify k f) = sents cmds := by
  induction cmds generalizing k with
  | nil => cases k <;> rfl
  | cons c rest ih =>
      cases k with
      | zero => simp [sents, hf]
      | succ k => simpa [sents] using ih k

@[simp] theorem sents_enableAllInitCmd (cmds : List GsmCmd) :
    sents (enableAllInitCmd cmds) = sents cmds := by
  unfold sents enableAllInitCmd
  rw [List.map_map]
  rfl

@[simp] theorem sents_skipCmd (k : Nat) (cmds : List GsmCmd) :
    sents (skipCmd k cmds) = sents cmds := by
  refine sents_modify ?_ k cmds
  exact fun _ => rfl

@[simp] theorem sents_setRegTimeout (ms : Nat) (cmds : List GsmCmd) :
    sents (setRegTimeout ms cmds) = sents cmds := by
  refine sents_modify ?_ regIdx cmds
  exact fun _ => rfl

@[simp] theorem sents_regWrite (w : Option RegWriter) (cmds : List GsmCmd) :
    sents (regWrite w cmds) = sents cmds := by
  cases w with
  | none => rfl
  | some w => exact sents_setRegTimeout _ cmds

/-- Writing one that is sets its entry. -/
theorem sents_set {f : GsmCmd → GsmCmd} {bytes : Option (List UInt8)}
    (hf : ∀ c, (f c).sent = bytes) (k : Nat) (cmds : List GsmCmd) :
    sents (cmds.modify k f) = (sents cmds).set k bytes := by
  induction cmds generalizing k with
  | nil => cases k <;> rfl
  | cons c rest ih =>
      cases k with
      | zero => simp [sents, hf]
      | succ k => simpa [sents] using ih k

@[simp] theorem sents_setApn (cmds : List GsmCmd) :
    sents (setApn cmds) = (sents cmds).set apnIdx (some pppApnATReq) := by
  unfold setApn
  refine sents_set (fun c => ?_) apnIdx cmds
  exact congrArg some (List.take_left ..)

-- ============================================================= the invariant

/-- The task has been past line 525. -/
def Loc.isArmed : Loc → Bool
  | .dead => false
  | .start => false
  | .setup _ => false
  | .exit => false
  | .exitFlag => false
  | _ => true

/-- The records are those of the table; the APN request is formatted once
the task sends. -/
structure Formatted (s : Sys) : Prop where
  others : (sents s.cmds).set apnIdx none = sents gsmInit
  apn : s.task.isArmed = true → sents s.cmds = sents (setApn gsmInit)

/-- At boot the request is not formatted, and the task has not got there.
-/
theorem formatted_boot : Formatted Sys.boot := ⟨by decide, nofun⟩

/-- What the task does to the records. -/
theorem task_sents {i : TaskIn} {s s' : Sys} (h : taskStep i s = some s') :
    s'.cmds = setApn s.cmds ∨
      sents s'.cmds = sents s.cmds ∧
        (s'.task.isArmed = true → s.task.isArmed = true) := by
  have hret : ∀ ret : OffRet, ret.loc.isArmed = true := fun ret => by
    cases ret <;> rfl
  unfold taskStep offTail at h
  repeat' split at h
  all_goals cases h
  all_goals first
    | exact .inl rfl
    | exact .inr ⟨by simp, fun _ => by rw [‹s.task = _›]; rfl⟩
    | exact .inr ⟨by simp, nofun⟩

/-- Formatting completes the column, whichever life of the task does it. -/
theorem formatted_setApn {s : Sys} (hi : Formatted s) :
    sents (setApn s.cmds) = sents (setApn gsmInit) := by
  rw [sents_setApn, sents_setApn, ← hi.others, List.set_set]

theorem formatted_step {a : Act} {s s' : Sys} (hi : Formatted s)
    (h : apply a s = some s') : Formatted s' := by
  cases a with
  | task i =>
      rcases task_sents h with hset | ⟨hsame, harmed⟩
      · have hall : sents s'.cmds = sents (setApn gsmInit) := by
          rw [hset, formatted_setApn hi]
        exact ⟨by rw [hall]; decide, fun _ => hall⟩
      · exact ⟨by rw [hsame, hi.others],
          fun ha => by rw [hsame, hi.apn (harmed ha)]⟩
  | _ =>
      obtain ⟨w, hcmds, -⟩ := foreign_cmds rfl h
      refine ⟨by rw [hcmds, sents_regWrite, hi.others], fun harmed => ?_⟩
      rw [hcmds, sents_regWrite]
      rcases foreign_task rfl h with htask | ⟨-, htask⟩
      · exact hi.apn (htask ▸ harmed)
      · rw [htask] at harmed
        cases harmed

theorem formatted_of_reach {s : Sys} (h : client.Reach anyStep s) :
    Formatted s := by
  refine h.invariant formatted_boot ?_
  exact fun _ _ _ hi _ happ => formatted_step hi happ

-- ============================================================ what is heard

/-- The command lines of the table. -/
def commandLines : List (List UInt8) :=
  [bytes "AT", bytes "ATZ", bytes "ATE0", bytes "AT+CFUN=1",
    bytes "AT+CNMI=0,0,0,0,0", bytes "AT+CPIN?", bytes "AT+CREG?",
    bytes "AT+CGDCONT=1,\"IP\",\"" ++ configGsmApn ++ bytes "\"",
    bytes "AT+CGDATA=\"PPP\",1"]

/-- The table position of `cmd_RFOn`. -/
def rfOnIdx : Nat := 3

/-- What the modem is left with behind a command. -/
def leftover (k : Nat) : List UInt8 := if k = rfOnIdx then [0] else []

/-- The bytes of a command are its line, and what is left; the line is one
also behind what was left before. -/
theorem sent_eq : ∀ k < gsmInitCmdsSize,
    (sents (setApn gsmInit))[k]?
      = some (some (commandLines.getD k [] ++ crlfStr ++ leftover k)) ∧
    ∀ pending ∈ [[], [0]],
      ¬ crlfStr <:+: pending ++ commandLines.getD k [] ∧
        readNumber (pending ++ commandLines.getD k []) = none := by
  decide

/-- A line behind what was left. -/
theorem hear_pending {pending line : List UInt8}
    (hline : ¬ crlfStr <:+: pending ++ line)
    (hnum : readNumber (pending ++ line) = none) (heard : List Sms.Heard) :
    (line ++ crlfStr).foldl Listener.hear ⟨.command pending, heard⟩
      = ⟨.command [], heard ++ [.command (pending ++ line)]⟩ := by
  have hfree : ¬ crlfStr <:+: [] ++ pending := fun hin =>
    hline (hin.trans (List.prefix_append _ _).isInfix)
  have hheard := hear_other hline hnum heard
  rw [List.append_assoc, List.foldl_append, hear_command hfree,
    List.nil_append] at hheard
  exact hheard

/-- Whenever a command is sent, in whatever run: its bytes are one line,
behind what the command before it has left.

Two things may have been left, nothing or a NUL, and the same holds for
both. What is heard is then the line with the NUL in front of it, if there
was one; that is as far as the grammar goes, and whether a modem minds is
its own affair. -/
theorem init_heard {s : Sys} (h : client.Reach anyStep s) {k nfail : Nat}
    (htask : s.task = .cmd k nfail) (hk : k < gsmInitCmdsSize) :
    ∃ bytes, (sents s.cmds)[k]? = some (some bytes) ∧
      ∀ pending ∈ [[], [0]], ∀ heard,
        bytes.foldl Listener.hear ⟨.command pending, heard⟩
          = ⟨.command (leftover k),
            heard ++ [.command (pending ++ commandLines.getD k [])]⟩ := by
  obtain ⟨hsent, hpending⟩ := sent_eq k hk
  have harmed : s.task.isArmed = true := by
    rw [htask]
    rfl
  refine ⟨commandLines.getD k [] ++ crlfStr ++ leftover k, ?_,
    fun pending hp heard => ?_⟩
  · rw [(formatted_of_reach h).apn harmed, hsent]
  · obtain ⟨hline, hnum⟩ := hpending pending hp
    have hfree : ¬ crlfStr <:+: [] ++ leftover k := by
      unfold leftover
      split <;> decide
    rw [List.foldl_append, hear_pending hline hnum, hear_command hfree,
      List.nil_append]

/-- `AT+CFUN=1` in the first pass of the loop leaves its terminator. -/
theorem init_heard_rfOn : ∃ s sent, client.Reach anyStep s ∧
    s.task = .cmd rfOnIdx 0 ∧ (sents s.cmds)[rfOnIdx]? = some (some sent) ∧
    sent.foldl Listener.hear .idle
      = ⟨.command [0], [.command (bytes "AT+CFUN=1")]⟩ := by
  obtain ⟨s, hr, hs⟩ := exists_reach client anyStep
    (startUp ++ [.task .go, .task (.verdict 1), .task .go,
      .task (.verdict 1), .task .go, .task (.verdict 1)])
    (fun s => s.task = .cmd rfOnIdx 0) (by decide)
  have htask : s.task = .cmd rfOnIdx 0 := of_decide_eq_true hs
  obtain ⟨sent, hsent, hheard⟩ := init_heard hr htask (by decide)
  exact ⟨s, sent, hr, htask, hsent, hheard [] (by simp) []⟩

end ShZ001.Gsm
