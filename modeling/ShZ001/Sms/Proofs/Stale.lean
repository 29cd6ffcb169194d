/-
Whether what the stack held before gets into a message (libGSM.c
930–1007).

# The locals

`getSMS` leaves its locals uninitialised and does not look at what
`sscanf` returns. A time text of 20 characters or more that the format
does not match to its end leaves `tz` at least as it was, so the
condition is that all seven conversions are made (`stackFree_iff`). A
shorter text is not converted at all and sets neither time nor zone.

# The fields of `tm`

Three are never set. `mktime` computes two of them anew and reads the
third, `tm_isdst`, only where the time zone has daylight saving. So they
do not matter, and that is proved with them in place (`Stack`).

# The rest

Everything but the two times is the same on every stack
(`getSMSOn_frame`).
-/
import ShZ001.Sms.Proofs.Fetch

namespace ShZ001.Sms

open Lib

-- ================================================================== the law

/-- What the stack held: the locals of line 994, and the fields of `tm` that
are never set. -/
structure Stack where
  locals : ScanLocals
  wday : Int
  yday : Int
  isdst : Int

/-- `getSMS` on such a stack. `mktime` computes `tm_wday` and `tm_yday`
anew, and reads `tm_isdst` only where the time zone has daylight saving; no
time zone is set. -/
def getSMSOn (rbuffer : List UInt8) (idx : Nat) (stack : Stack) :
    Nat × Option SmsMsg :=
  getSMS rbuffer idx stack.locals

/-- The result and the message are the same on every stack. -/
def StackFree (rbuffer : List UInt8) (idx : Nat) : Prop :=
  ∀ stack stack', getSMSOn rbuffer idx stack = getSMSOn rbuffer idx stack'

-- ============================================================ the time text

/-- The texts of a header line between its separators. -/
def cuts : Nat → List UInt8 → Option (List UInt8) → List (List UInt8)
  | 0, _, _ => []
  | _ + 1, _, none => []
  | fuel + 1, msgidx, some pend =>
      msgidx.take (msgidx.length - pend.length)
        :: cuts fuel (pend.drop 2) (nextField (pend.drop 2))

/-- The fields of a header line: the texts before its separators. -/
def headerFields (hdr : List UInt8) : List (List UInt8) :=
  cuts (hdr.length + 1) hdr (strstr (bytes ",\"") hdr)

/-- The fifth field, if it fits, without its closing quote. -/
def timeText (hdr : List UInt8) : List UInt8 :=
  match (headerFields hdr)[4]? with
  | none => []
  | some buf =>
      if buf.length < 32 ∧ 0 < buf.length then fieldText buf else []

/-- A time text long enough to be converted is converted in full. -/
def TimeConverts (rbuffer : List UInt8) (idx : Nat) : Prop :=
  ∀ hdr body, messageAt rbuffer idx = some (hdr, body) →
    20 ≤ (timeText hdr).length →
      (converted timeFormat (timeText hdr)).length = 7

/-- The loop stores the fields one after the other. -/
theorem fieldLoop_eq (fuel : Nat) (msgidx : List UInt8)
    (pend : Option (List UInt8)) (i : Nat) (msg : SmsMsg) :
    fieldLoop fuel msgidx pend i msg
      = ((cuts fuel msgidx pend).zipIdx i).foldl
        (fun msg f => storeField f.2 f.1 msg) msg := by
  induction fuel generalizing msgidx pend i msg with
  | zero => rfl
  | succ fuel ih =>
      cases pend with
      | none => rfl
      | some pend =>
          have hlen : (msgidx.take (msgidx.length - pend.length)).length
              = msgidx.length - pend.length := by
            rw [List.length_take]
            omega
          rw [fieldLoop, ih, cuts, List.zipIdx_cons, List.foldl_cons,
            storeField]
          simp only [hlen]

/-- The fifth field is the time. -/
theorem storeField_time (i : Nat) (buf : List UInt8) (msg : SmsMsg) :
    (storeField i buf msg).time =
      if i = 5 then
        if buf.length < 32 ∧ 0 < buf.length then fieldText buf else msg.time
      else msg.time := by
  unfold storeField
  by_cases hfit : buf.length < 32 ∧ 0 < buf.length
  · rw [if_pos hfit, if_pos hfit]
    unfold setField
    split_ifs <;> first | rfl | omega
  · rw [if_neg hfit, if_neg hfit, ite_self]

/-- Fields behind the fifth do not change it. -/
theorem storeFields_behind (bufs : List (List UInt8)) {i : Nat} (hi : 5 < i)
    (msg : SmsMsg) :
    ((bufs.zipIdx i).foldl (fun msg f => storeField f.2 f.1 msg) msg).time
      = msg.time := by
  induction bufs generalizing i msg with
  | nil => rfl
  | cons buf bufs ih =>
      rw [List.zipIdx_cons, List.foldl_cons, ih (Nat.lt_succ_of_lt hi),
        storeField_time, if_neg (by omega)]

/-- Of fields from the `i`-th on, the fifth of all is the time. -/
theorem storeFields_time (bufs : List (List UInt8)) {i k : Nat}
    (hi : i + k = 5) (msg : SmsMsg) :
    ((bufs.zipIdx i).foldl (fun msg f => storeField f.2 f.1 msg) msg).time =
      match bufs[k]? with
      | none => msg.time
      | some buf =>
          if buf.length < 32 ∧ 0 < buf.length then fieldText buf
          else msg.time := by
  induction bufs generalizing i k msg with
  | nil => rfl
  | cons buf bufs ih =>
      rw [List.zipIdx_cons, List.foldl_cons]
      cases k with
      | zero =>
          obtain rfl : i = 5 := hi
          rw [storeFields_behind bufs (by omega), storeField_time,
            if_pos rfl]
          rfl
      | succ k =>
          rw [ih (k := k) (by omega), storeField_time, if_neg (by omega)]
          rfl

/-- So the time text is the fifth text of the header. -/
theorem parsed_time (hdr body : List UInt8) :
    (parsed hdr body).time = timeText hdr := by
  unfold parsed timeText headerFields
  rw [fieldLoop_eq, storeFields_time _ (k := 4) rfl]
  rfl

-- ============================================================ the conversions

/-- Seven conversions assign every local. -/
theorem sscanf_full {t : List UInt8}
    (h : (converted timeFormat t).length = 7) (locals locals' : ScanLocals) :
    sscanf timeFormat t locals = sscanf timeFormat t locals' := by
  rw [sscanf_eq, sscanf_eq]
  match converted timeFormat t, h with
  | [yy, mn, dd, hh, mm, ss, tz], _ => rfl

/-- With fewer, the last one is not. -/
theorem sscanf_short {t : List UInt8}
    (h : (converted timeFormat t).length ≠ 7) (locals : ScanLocals) :
    (sscanf timeFormat t locals).tz = locals.tz := by
  have hle : (converted timeFormat t).length ≤ 7 :=
    length_converted_le timeFormat t
  -- `tz` is the seventh of the places
  exact sscanf_keeps ScanLocals.tz (k := 6) (by omega)
    (by simp [timeFormat, targets])

/-- The times of a message depend on the locals exactly if its time text is
converted in part. -/
theorem setTime_indep_iff (msg : SmsMsg) :
    (∀ locals locals', setTime locals msg = setTime locals' msg) ↔
      (20 ≤ msg.time.length →
        (converted timeFormat msg.time).length = 7) := by
  constructor
  · intro h hlong
    by_contra hshort
    have htz : ∀ locals, (setTime locals msg).tz = locals.tz.tdiv 4 := by
      intro locals
      rw [setTime, if_pos hlong]
      exact congrArg (Int.tdiv · 4) (sscanf_short hshort locals)
    have heq := congrArg SmsMsg.tz
      (h ⟨0, 0, 0, 0, 0, 0, 0⟩ ⟨0, 0, 0, 0, 0, 0, 4⟩)
    rw [htz, htz] at heq
    exact absurd heq (by decide)
  · intro h locals locals'
    unfold setTime
    by_cases hlong : 20 ≤ msg.time.length
    · rw [if_pos hlong, if_pos hlong, sscanf_full (h hlong) locals locals']
    · rw [if_neg hlong, if_neg hlong]

-- ================================================================== the law

/-- Whatever the stack held, `getSMS` returns the same number, and the same
message but for its times. -/
theorem getSMSOn_frame (rbuffer : List UInt8) (idx : Nat)
    (stack stack' : Stack) :
    (getSMSOn rbuffer idx stack).1 = (getSMSOn rbuffer idx stack').1 ∧
      (getSMSOn rbuffer idx stack).2.map
          (fun m => (m.idx, m.stat, m.from', m.time, m.msg))
        = (getSMSOn rbuffer idx stack').2.map
          (fun m => (m.idx, m.stat, m.from', m.time, m.msg)) := by
  unfold getSMSOn
  cases hmsg : messageAt rbuffer idx with
  | none => simp [getSMS_of_none hmsg]
  | some m =>
      obtain ⟨hdr, body⟩ := m
      simp [getSMS_of_some hmsg, setTime_frame]

/-- The result and the message are the same on every stack exactly if a
time text long enough to be converted is converted in full.

A text that is converted in part leaves the last local as it was, and that
is the one for the zone. -/
theorem stackFree_iff (rbuffer : List UInt8) (idx : Nat) :
    StackFree rbuffer idx ↔ TimeConverts rbuffer idx := by
  cases hmsg : messageAt rbuffer idx with
  | none =>
      refine iff_of_true (fun stack stack' => ?_)
        fun hdr body h => nomatch hmsg.symm.trans h
      unfold getSMSOn
      rw [getSMS_of_none hmsg, getSMS_of_none hmsg]
  | some m =>
      obtain ⟨hdr, body⟩ := m
      have hlocals : StackFree rbuffer idx ↔ ∀ locals locals',
          setTime locals (parsed hdr body)
            = setTime locals' (parsed hdr body) := by
        unfold StackFree getSMSOn
        simp only [getSMS_of_some hmsg, Prod.mk.injEq, Option.some.injEq,
          true_and]
        exact ⟨fun h locals locals' =>
          h ⟨locals, 0, 0, 0⟩ ⟨locals', 0, 0, 0⟩, fun h _ _ => h _ _⟩
      have htime := setTime_indep_iff (parsed hdr body)
      rw [parsed_time] at htime
      rw [hlocals, htime]
      constructor
      · intro h hdr' body' hmsg'
        obtain ⟨rfl, rfl⟩ := Prod.mk.inj (Option.some.inj
          (hmsg.symm.trans hmsg'))
        exact h
      · intro h
        exact h hdr body hmsg

/-- A listing with a blank for the comma of the time stamp. -/
def blankStamp : List UInt8 :=
  bytes "+CMGL: 1,\"REC READ\",\"+38640123456\",\"\",\"17/06/10 12:34:56+08\""
    ++ crlfStr ++ bytes "hello" ++ crlfStr

/-- Its message gets the time and the zone of the stack. -/
theorem stackFree_fails : ¬ StackFree blankStamp 1 := by
  intro h
  have heq := congrArg (fun r => r.2.map fun m => (m.timeValue, m.tz))
    (h ⟨⟨0, 0, 0, 0, 0, 0, 0⟩, 0, 0, 0⟩ ⟨⟨12, 34, 56, 0, 0, 0, 8⟩, 0, 0, 0⟩)
  exact absurd heq (by decide +kernel)

end ShZ001.Sms
