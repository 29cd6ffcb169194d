/-
What `smsRead` has to hand over: the successfully parsed messages of a
reply in listing order (`parsed`), what `getSMS` promises about each of
them, and where the fill loop and the sort put what they write.

# What was parsed

`parseAt` is one call of `getSMS`, as the fill loop makes it, and
`parsedTo` the messages it has reported. A reported message is
`Complete`: it has a body and a time that fits the `time_t`. That tells
it from a zeroed record, which is how the laws notice an element that
nobody has written.

# The two frames

`Filled` is the fill loop's invariant: the slot of every parsed message
holds it, and no other element has been touched. `SortFrame` is the
sort's: the messages are only read, and the sorted array changes only at
slots. Neither says anything about the order; that is for
`Proofs/Sorted.lean`.

# Slots

The code's slot of message `i` is 112 elements from that of the next
one. All that is used of it here is that different messages have
different slots, and that the caller's element 1 is nobody's.
-/
import ShZ001.Sms.Read

namespace ShZ001.Sms

open Lib

-- ======================================================= what was parsed

/-- Message `i` of the listing, if `getSMS` reports success. -/
def parseAt (env : ReadEnv) (i : Nat) : Option SmsMsg :=
  let (ret, msg) := getSMS env.rbuffer (i + 1) (env.locals i)
  if 0 < ret then msg else none

/-- The parsed messages among the first `n`, in listing order. -/
def parsedTo (env : ReadEnv) (n : Nat) : List SmsMsg :=
  (List.range n).filterMap (parseAt env)

/-- The listed messages that `smsRead` gets to parse. -/
def listed (env : ReadEnv) : Nat :=
  if env.ready ∧ env.rbufferAlloc ∧ 0 < env.res ∧ env.messagesAlloc then
    numSMS env.rbuffer
  else 0

theorem parsedTo_succ (env : ReadEnv) (n : Nat) :
    parsedTo env (n + 1) = parsedTo env n ++ (parseAt env n).toList := by
  unfold parsedTo
  rw [List.range_succ, List.filterMap_append]
  cases h : parseAt env n <;> simp [h]

/-- At most one message comes of each turn. -/
theorem parsedTo_length_le (env : ReadEnv) (n : Nat) :
    (parsedTo env n).length ≤ n := by
  have h := List.length_filterMap_le (parseAt env) (List.range n)
  rwa [List.length_range] at h

-- ================================================= what a message is like

/-- `mktime` answers with a 32-bit time, or with -1. -/
theorem mktime_bounds (tm : Tm) :
    int32Min ≤ mktime tm ∧ mktime tm ≤ int32Max := by
  unfold mktime
  dsimp only
  split
  case isTrue h => exact h
  case isFalse => decide

/-- A message whose body is there and whose time fits the `time_t`. -/
structure Complete (msg : SmsMsg) : Prop where
  body : msg.msg ≠ none
  lower : int32Min ≤ msg.timeValue
  upper : msg.timeValue ≤ int32Max

theorem Complete.ne_zero {msg : SmsMsg} (h : Complete msg) : msg ≠ .zero :=
  fun heq => h.body (congrArg SmsMsg.msg heq)

/-- The fields of the header line are neither the body nor the time
value. -/
theorem complete_setField {msg : SmsMsg} (h : Complete msg) (i : Nat)
    (buf : List UInt8) : Complete (setField i buf msg) := by
  obtain ⟨hbody, hlower, hupper⟩ := h
  unfold setField
  split_ifs <;> exact ⟨hbody, hlower, hupper⟩

/-- So the field loop does not touch them, -/
theorem complete_fieldLoop (fuel : Nat) (msgidx : List UInt8)
    (pend : Option (List UInt8)) (i : Nat) {msg : SmsMsg}
    (h : Complete msg) : Complete (fieldLoop fuel msgidx pend i msg) := by
  induction fuel generalizing msgidx pend i msg with
  | zero => exact h
  | succ fuel ih =>
      cases pend with
      | none => exact h
      | some pend =>
          refine ih _ _ _ ?_
          split_ifs
          · exact complete_setField h i _
          · exact h

/-- and the time that is set last is one that `mktime` has answered. -/
theorem complete_setTime (locals : ScanLocals) {msg : SmsMsg}
    (h : Complete msg) : Complete (setTime locals msg) := by
  unfold setTime
  split
  case isTrue =>
      obtain ⟨hlower, hupper⟩ := mktime_bounds _
      exact ⟨h.body, hlower, hupper⟩
  case isFalse => exact h

/-- `getSMS` only reports success of a complete message. -/
theorem getSMS_complete {rbuffer : List UInt8} {idx : Nat}
    {locals : ScanLocals} (h : 0 < (getSMS rbuffer idx locals).1) :
    ∃ msg, (getSMS rbuffer idx locals).2 = some msg ∧ Complete msg := by
  revert h
  fun_cases getSMS rbuffer idx locals <;> intro h <;>
    try exact absurd h (Nat.lt_irrefl 0)
  exact ⟨_, rfl, complete_setTime locals (complete_fieldLoop _ _ _ _
    ⟨Option.some_ne_none _, (by decide : int32Min ≤ 0),
      (by decide : 0 ≤ int32Max)⟩)⟩

theorem parseAt_complete {env : ReadEnv} {i : Nat} {msg : SmsMsg}
    (h : parseAt env i = some msg) : Complete msg := by
  unfold parseAt at h
  dsimp only at h
  split at h
  case isTrue hret =>
      obtain ⟨msg', heq, hcomp⟩ := getSMS_complete hret
      rw [heq] at h
      exact Option.some.inj h ▸ hcomp
  case isFalse => cases h

theorem parsedTo_complete {env : ReadEnv} {n : Nat} {msg : SmsMsg}
    (h : msg ∈ parsedTo env n) : Complete msg := by
  obtain ⟨i, _, hi⟩ := List.mem_filterMap.mp h
  exact parseAt_complete hi

-- =============================================================== the slots

@[simp] theorem slot_zero : slot 0 = 0 := rfl

theorem slot_inj {i j : Nat} (h : slot i = slot j) : i = j :=
  Nat.eq_of_mul_eq_mul_right (by decide : 0 < sizeofSmsMsg) h

/-- The second element of an array is no message's slot. -/
theorem one_ne_slot (i : Nat) : 1 ≠ slot i := by
  unfold slot sizeofSmsMsg
  omega

-- ============================================================ the fill loop

/-- Element `p` is the slot of a parsed message among the first `n`. -/
def IsFilled (env : ReadEnv) (n p : Nat) : Prop :=
  ∃ i, i < n ∧ (parseAt env i).isSome ∧ p = slot i

/-- The variables after `n` turns of the fill loop. -/
structure Filled (env : ReadEnv) (messages : Slots SmsMsg) (n : Nat)
    (v : FillVars) : Prop where
  nmsg : v.nmsg = (parsedTo env n).length
  size : v.messages.size = messages.size
  held : ∀ i msg, i < n → parseAt env i = some msg →
    v.messages.cell (slot i) = msg
  rest : ∀ p, ¬ IsFilled env n p → v.messages.cell p = messages.cell p
  touched : ∀ p ∈ v.messages.touched,
    p ∈ messages.touched ∨ IsFilled env n p

theorem IsFilled.succ {env : ReadEnv} {n p : Nat} (h : IsFilled env n p) :
    IsFilled env (n + 1) p := by
  obtain ⟨i, hi, hp⟩ := h
  exact ⟨i, Nat.lt_succ_of_lt hi, hp⟩

/-- One turn, by what `getSMS` reports. -/
theorem fillStep_cases (env : ReadEnv) (v : FillVars) (i : Nat) :
    (∃ msg, parseAt env i = some msg ∧
      fillStep env v i =
        { msg := msg
          messages := v.messages.write (slot i) msg
          nmsg := v.nmsg + 1 }) ∨
    (parseAt env i = none ∧ (fillStep env v i).messages = v.messages ∧
      (fillStep env v i).nmsg = v.nmsg) := by
  unfold fillStep parseAt
  rcases hget : getSMS env.rbuffer (i + 1) (env.locals i) with ⟨ret, read⟩
  dsimp only
  split
  case isTrue hret =>
      have hret' : 0 < (getSMS env.rbuffer (i + 1) (env.locals i)).1 := by
        rwa [hget]
      obtain ⟨msg, hmsg, _⟩ := getSMS_complete hret'
      rw [hget] at hmsg
      obtain rfl : read = some msg := hmsg
      exact .inl ⟨msg, rfl, rfl⟩
  case isFalse => exact .inr ⟨rfl, rfl, rfl⟩

/-- A turn writes one slot, or none. -/
theorem filled_step {env : ReadEnv} {messages : Slots SmsMsg} {n : Nat}
    {v : FillVars} (h : Filled env messages n v) :
    Filled env messages (n + 1) (fillStep env v n) := by
  obtain ⟨hnmsg, hsize, hheld, hrest, htouched⟩ := h
  rcases fillStep_cases env v n with ⟨msg, hmsg, heq⟩ | ⟨hnone, hms, hn⟩
  · rw [heq]
    refine ⟨by simp [parsedTo_succ, hmsg, hnmsg], hsize, ?_, ?_, ?_⟩
    · intro i msg' hi hmsg'
      rcases Nat.lt_succ_iff_lt_or_eq.mp hi with hlt | rfl
      · have hne : slot i ≠ slot n :=
          fun hs => absurd (slot_inj hs) (Nat.ne_of_lt hlt)
        rw [Slots.write_cell_ne hne]
        exact hheld i msg' hlt hmsg'
      · rw [Slots.write_cell_self]
        exact Option.some.inj (hmsg.symm.trans hmsg')
    · intro p hp
      have hne : p ≠ slot n :=
        fun hs => hp ⟨n, Nat.lt_succ_self n, by simp [hmsg], hs⟩
      rw [Slots.write_cell_ne hne]
      exact hrest p (fun hf => hp hf.succ)
    · intro p hp
      rcases List.mem_cons.mp hp with rfl | hp
      · exact .inr ⟨n, Nat.lt_succ_self n, by simp [hmsg], rfl⟩
      · exact (htouched p hp).imp_right IsFilled.succ
  · refine ⟨by simp [parsedTo_succ, hnone, hn, hnmsg], by rw [hms, hsize],
      ?_, ?_, ?_⟩
    · intro i msg hi hmsg
      rcases Nat.lt_succ_iff_lt_or_eq.mp hi with hlt | rfl
      · rw [hms]
        exact hheld i msg hlt hmsg
      · exact absurd (hnone.symm.trans hmsg) (by simp)
    · intro p hp
      rw [hms]
      exact hrest p (fun hf => hp hf.succ)
    · intro p hp
      rw [hms] at hp
      exact (htouched p hp).imp_right IsFilled.succ

theorem fill_succ (env : ReadEnv) (messages : Slots SmsMsg) (n : Nat) :
    fill env messages (n + 1) = fillStep env (fill env messages n) n := by
  unfold fill
  rw [List.range_succ, List.foldl_append]
  rfl

/-- The fill loop keeps its invariant. -/
theorem filled_fill (env : ReadEnv) (messages : Slots SmsMsg) (n : Nat) :
    Filled env messages n (fill env messages n) := by
  induction n with
  | zero => exact ⟨rfl, rfl, nofun, fun _ _ => rfl, fun _ hp => .inl hp⟩
  | succ n ih =>
      rw [fill_succ]
      exact filled_step ih

-- ================================================================= the sort

/-- What no turn of the sort changes. -/
structure SortFrame (v w : SortVars) : Prop where
  cell : w.messages.cell = v.messages.cell
  messages : w.messages.size = v.messages.size
  smessages : w.smessages.size = v.smessages.size
  rest : ∀ p, (∀ i, p ≠ slot i) →
    w.smessages.cell p = v.smessages.cell p

theorem SortFrame.refl (v : SortVars) : SortFrame v v :=
  ⟨rfl, rfl, rfl, fun _ _ => rfl⟩

theorem SortFrame.trans {u v w : SortVars} (h : SortFrame u v)
    (h' : SortFrame v w) : SortFrame u w :=
  ⟨h'.cell.trans h.cell, h'.messages.trans h.messages,
    h'.smessages.trans h.smessages,
    fun p hp => (h'.rest p hp).trans (h.rest p hp)⟩

/-- A loop over turns that keep the frame keeps it. -/
private theorem sortFrame_foldl {step : SortVars → Nat → SortVars}
    (hstep : ∀ v i, SortFrame v (step v i)) (l : List Nat)
    (v : SortVars) : SortFrame v (l.foldl step v) := by
  induction l generalizing v with
  | nil => exact .refl v
  | cons i rest ih => exact (hstep v i).trans (ih (step v i))

/-- The search reads the messages only. -/
theorem sortFrame_scan (better : Int → Int → Bool) (l : List Nat)
    (p : SortVars × Int) :
    SortFrame p.1 (l.foldl (scanStep better) p).1 := by
  induction l generalizing p with
  | nil => exact .refl p.1
  | cons i rest ih =>
      have hstep : SortFrame p.1 (scanStep better p i).1 := by
        unfold scanStep
        dsimp only
        split_ifs <;> exact ⟨rfl, rfl, rfl, fun _ _ => rfl⟩
      exact hstep.trans (ih _)

/-- The copy writes one slot of the sorted array, -/
theorem sortFrame_copyLoop (idx : Nat) (tm : Int) (l : List Nat)
    (v : SortVars) : SortFrame v (copyLoop idx tm l v) := by
  induction l generalizing v with
  | nil => exact .refl v
  | cons i rest ih =>
      unfold copyLoop
      split_ifs
      · exact ⟨rfl, rfl, rfl, fun p hp => Slots.write_cell_ne (hp idx) ..⟩
      · have hread : SortFrame v
            { v with messages := v.messages.touch (slot i) } :=
          ⟨rfl, rfl, rfl, fun _ _ => rfl⟩
        exact hread.trans (ih _)
      · exact ih v

/-- and the whole sort slots only. -/
theorem sortFrame_sortLoop (tm₀ : Int) (better : Int → Int → Bool)
    (nmsg : Nat) (v : SortVars) :
    SortFrame v (sortLoop tm₀ better nmsg v) :=
  sortFrame_foldl (fun v _ => (sortFrame_scan better _ (v, tm₀)).trans
    (sortFrame_copyLoop _ _ _ _)) _ v

theorem sortFrame_sorted (env : ReadEnv) (sort : Int)
    (messages : Slots SmsMsg) (nmsg : Nat) :
    SortFrame
      { messages := messages
        smessages := .calloc (if env.smessagesAlloc then nmsg else 0) .zero
          env.pastSmessages
        mm := List.replicate nmsg true }
      (sorted env sort messages nmsg) := by
  unfold sorted sortUp sortDown
  dsimp only
  split_ifs <;> exact sortFrame_sortLoop _ _ _ _

/-- The copy loop over a single open message. -/
theorem copyLoop_one (tm : Int) {v : SortVars} (hopen : v.open' 0 = true) :
    (copyLoop 0 tm [0] v).smessages =
        (if v.timeValue 0 = tm then
          v.smessages.write (slot 0) (v.messages.cell (slot 0))
        else v.smessages) ∧
      ∀ p ∈ (copyLoop 0 tm [0] v).messages.touched,
        p = slot 0 ∨ p ∈ v.messages.touched := by
  simp only [copyLoop, hopen, if_true]
  split_ifs
  · refine ⟨rfl, fun p hp => ?_⟩
    simp only [Slots.touch, List.mem_cons] at hp
    tauto
  · exact ⟨rfl, fun p hp => List.mem_cons.mp hp⟩

/-- The sort of a single message: it is copied if the search for the
next time ends with its own. -/
theorem sortLoop_one (tm₀ : Int) (better : Int → Int → Bool)
    {v : SortVars} (hopen : v.open' 0 = true) :
    (sortLoop tm₀ better 1 v).smessages =
        (if better (v.timeValue 0) tm₀ = true ∨ v.timeValue 0 = tm₀ then
          v.smessages.write (slot 0) (v.messages.cell (slot 0))
        else v.smessages) ∧
      ∀ p ∈ (sortLoop tm₀ better 1 v).messages.touched,
        p = slot 0 ∨ p ∈ v.messages.touched := by
  unfold sortLoop sortStep
  simp only [List.range_one, List.foldl_cons, List.foldl_nil, scanStep,
    hopen, if_true]
  cases hb : better (v.timeValue 0) tm₀ with
  | true =>
      obtain ⟨hcopy, htouched⟩ := copyLoop_one (v.timeValue 0)
        (v := { v with
          messages := (v.messages.touch (slot 0)).touch (slot 0) }) hopen
      refine ⟨hcopy.trans (by simp [SortVars.timeValue]), fun p hp => ?_⟩
      have hp := htouched p hp
      simp only [Slots.touch, List.mem_cons] at hp
      tauto
  | false =>
      obtain ⟨hcopy, htouched⟩ := copyLoop_one tm₀
        (v := { v with messages := v.messages.touch (slot 0) }) hopen
      refine ⟨hcopy.trans (if_congr (by simp [SortVars.timeValue]) rfl rfl),
        fun p hp => ?_⟩
      have hp := htouched p hp
      simp only [Slots.touch, List.mem_cons] at hp
      tauto

end ShZ001.Sms
