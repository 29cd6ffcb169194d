/-
Whether `smsSend` leaves the modem usable (libGSM.c 883–909).

# What is asked

A modem that answers `AT+CMGS` with its prompt takes all it is sent for
the message, up to 0x1A or ESC; so one of them has to be sent on every
way out. And 1 is the answer to a message of which the modem said, in
the bytes the exchange read, that it was sent. Both are asked of a call
that keeps to its buffers: of one that does not, nothing can be said.

# Where it fails

- Line 898: the buffer for the message cannot be allocated, and
  `smsSend` returns with the prompt unanswered. The two exits beside it
  send ESC.
- Line 901: an answer of 256 bytes or more fills `sresp`, which is
  searched as a string all the same, and `+CMGS: ` is found in what
  lies behind it.
- Line 890: a number of more than 51 characters does not fit `buf`.

`sendLaw_iff` says that these are all: each part of the law has its own
condition (`left_iff`, `told_iff`, `within_iff`).
-/
import ShZ001.Gsm.Proofs.Verdict
import ShZ001.Sms.Framing

namespace ShZ001.Sms

open Lib Gsm

-- ================================================================== the law

/-- The modem shows its prompt. -/
def Exchanged.Prompted (e : Exchanged) : Prop :=
  e.name = .smsPrompt ∧ bytes "> " <:+: e.link.reads.flatten

instance (e : Exchanged) : Decidable e.Prompted :=
  inferInstanceAs (Decidable (_ ∧ _))

/-- It waits for a text after an exchange: it has just shown its prompt, or
it did before and has not got the whole message or ESC. -/
def waitsForText (msg : List UInt8) (waits : Bool) (e : Exchanged) : Bool :=
  if e.Prompted then true
  else if e.cmd = msg ++ [0x1a] ∨ e.cmd = [0x1b] then false
  else waits

/-- What the exchange reads: the first burst, if it ends in time. -/
def Exchanged.Saw (pat : List UInt8) (e : Exchanged) : Prop :=
  InTime e.timeout e.link.reads ∧ pat <:+: (burst e.link.reads).flatten

/-- What it finds in `sresp` and, if that is full, in the memory behind
it. -/
def Exchanged.Found (pat : List UInt8) (e : Exchanged) : Prop :=
  InTime e.timeout e.link.reads ∧
    pat <:+: searched e.link.past (burst e.link.reads).flatten

/-- The answer to the message that is waited for. -/
def cmgsSentStr : List UInt8 := bytes "+CMGS: "

/-- The modem is left with no text to wait for, success is only told of a
message that was sent whole and acknowledged, and the command line is
built inside `buf`. -/
structure SendLaw (smsnum msg : List UInt8) (env : SendEnv) : Prop where
  left : (smsSend smsnum msg env).exchanges.foldl (waitsForText msg) false
    = false
  told : (smsSend smsnum msg env).ret = 1 →
    ∃ e ∈ (smsSend smsnum msg env).exchanges,
      e.cmd = msg ++ [0x1a] ∧ e.Saw cmgsSentStr
  within : (smsReady env .send).1 = true →
    ∀ mem, (promptBuf smsnum mem).InBounds

/-- There is memory for the message once the prompt has been seen. -/
def TextBuffered (smsnum : List UInt8) (env : SendEnv) : Prop :=
  (smsReady env .send).1 = true → (prompt env smsnum).Prompted →
    (prompt env smsnum).verdict = 1 → env.msgbufAlloc = true

/-- The message is sent: the modem is ready, the prompt is recognised and
there is memory. -/
structure TextSent (smsnum : List UInt8) (env : SendEnv) : Prop where
  ready : (smsReady env .send).1 = true
  prompted : (prompt env smsnum).verdict = 1
  memory : env.msgbufAlloc = true

/-- The answer to a message that is sent is not one that fills `sresp`
without `+CMGS: ` and has it in the memory behind. -/
def AnswerHeld (smsnum : List UInt8) (env : SendEnv) : Prop :=
  TextSent smsnum env → InTime 40000 (env.link .smsText).reads →
    srespSize ≤ (burst (env.link .smsText).reads).flatten.length →
    cmgsSentStr <:+:
      ((burst (env.link .smsText).reads).flatten.take srespSize).map sanitise
        ++ (env.link .smsText).past →
    cmgsSentStr <:+: (burst (env.link .smsText).reads).flatten

/-- A number that gets as far as `sprintf` fits. -/
def NumberFits (smsnum : List UInt8) (env : SendEnv) : Prop :=
  (smsReady env .send).1 = true → smsnum.length ≤ 51

/-- The three together. -/
structure SendSafe (smsnum : List UInt8) (env : SendEnv) : Prop where
  buffered : TextBuffered smsnum env
  held : AnswerHeld smsnum env
  fits : NumberFits smsnum env

-- ============================================================== the exchanges

/-- The verdict 1 is that the expected string was found. -/
theorem verdict_found {e : Exchanged} :
    e.verdict = 1 ↔ e.Found e.resp := by
  unfold Exchanged.verdict Exchanged.Found
  rw [waitResponse_burst]
  split
  case isFalse htime =>
      exact iff_of_false Nat.zero_ne_one fun h => htime h.1
  case isTrue htime =>
      rw [judge_eq, replyVerdict_eq_one, and_iff_right htime]
      exact Iff.rfl

/-- An answer that does not fill `sresp` holds what is found. -/
theorem saw_of_short {pat : List UInt8} (hp : Printable pat) {e : Exchanged}
    (hshort : (burst e.link.reads).flatten.length < srespSize)
    (h : e.Found pat) : e.Saw pat := by
  obtain ⟨htime, hin⟩ := h
  rw [searched_short hshort, infix_sanitise hp] at hin
  exact ⟨htime, hin⟩

theorem printable_cmgsSent : Printable cmgsSentStr := by decide +kernel

/-- The exchanges of `sms_ready`. -/
theorem mem_ready {env : SendEnv} {op : SmsOp} {e : Exchanged}
    (h : e ∈ (smsReady env op).2) : e = askRf env op ∨ e = setFormat env op := by
  unfold smsReady at h
  split_ifs at h <;> simp_all

/-- Getting ready shows no prompt. -/
theorem ready_waits (msg : List UInt8) (env : SendEnv) (op : SmsOp) :
    (smsReady env op).2.foldl (waitsForText msg) false = false := by
  have hrf : waitsForText msg false (askRf env op) = false := by
    unfold waitsForText
    rw [if_neg fun h => nomatch h.1]
    split <;> rfl
  have hformat : waitsForText msg false (setFormat env op) = false := by
    unfold waitsForText
    rw [if_neg fun h => nomatch h.1]
    split <;> rfl
  unfold smsReady
  split_ifs <;> simp [hrf, hformat]

/-- The command line, its terminator included, takes 13 bytes more than the
number. -/
theorem promptBuf_inBounds (smsnum : List UInt8) (mem : Nat → UInt8) :
    (promptBuf smsnum mem).InBounds ↔ smsnum.length ≤ 51 := by
  have hcmd : (bytes "AT+CMGS=\"").length = 9 := by decide
  have hend : (bytes "\"\r\n").length = 3 := by decide
  unfold promptBuf
  rw [Slots.inBounds_writeAll (List.append_ne_nil_of_right_ne_nil _
      (List.cons_ne_nil _ _)), and_iff_left (Slots.inBounds_array 64 mem),
    Slots.array_size]
  simp only [List.length_append, hcmd, hend, List.length_singleton]
  omega

section

variable (smsnum msg : List UInt8) (env : SendEnv)

theorem text_waits (waits : Bool) :
    waitsForText msg waits (sendText env msg) = false := by
  unfold waitsForText
  rw [if_neg fun h => nomatch h.1]
  exact if_pos (.inl rfl)

theorem escape_waits (waits : Bool) :
    waitsForText msg waits (escape env) = false := by
  unfold waitsForText
  rw [if_neg fun h => nomatch h.1]
  exact if_pos (.inr rfl)

/-- A prompt that is shown has to be answered. -/
theorem prompt_waits (hno : ¬ (prompt env smsnum).Prompted) :
    waitsForText msg false (prompt env smsnum) = false := by
  unfold waitsForText
  rw [if_neg hno]
  split <;> rfl

/-- The ways out of `smsSend`. -/
theorem smsSend_cases :
    ((smsReady env .send).1 = false ∧
      smsSend smsnum msg env = ⟨0, (smsReady env .send).2⟩) ∨
    ((smsReady env .send).1 = true ∧ (prompt env smsnum).verdict ≠ 1 ∧
      smsSend smsnum msg env = ⟨0, (smsReady env .send).2
        ++ [prompt env smsnum, escape env]⟩) ∨
    ((smsReady env .send).1 = true ∧ (prompt env smsnum).verdict = 1 ∧
      env.msgbufAlloc = false ∧
      smsSend smsnum msg env
        = ⟨0, (smsReady env .send).2 ++ [prompt env smsnum]⟩) ∨
    (TextSent smsnum env ∧ (sendText env msg).verdict ≠ 1 ∧
      smsSend smsnum msg env = ⟨0, (smsReady env .send).2
        ++ [prompt env smsnum, sendText env msg, escape env]⟩) ∨
    (TextSent smsnum env ∧ (sendText env msg).verdict = 1 ∧
      smsSend smsnum msg env = ⟨1, (smsReady env .send).2
        ++ [prompt env smsnum, sendText env msg]⟩) := by
  have hsent : ∀ ready, ¬ ready = false → ¬ (prompt env smsnum).verdict ≠ 1 →
      ¬ env.msgbufAlloc = false → (smsReady env .send).1 = ready →
      TextSent smsnum env := by
    intro ready hready hprompt halloc heq
    exact {
      ready := heq.trans (by simpa using hready)
      prompted := not_not.mp hprompt
      memory := by simpa using halloc }
  unfold smsSend
  cases hr : smsReady env .send with
  | mk ready done =>
      rw [hr] at hsent
      dsimp only
      split_ifs with hready hprompt halloc htext
      · exact .inl ⟨hready, rfl⟩
      · exact .inr (.inl ⟨by simpa using hready, hprompt, rfl⟩)
      · exact .inr (.inr (.inl
          ⟨by simpa using hready, not_not.mp hprompt, halloc, rfl⟩))
      · exact .inr (.inr (.inr (.inl
          ⟨hsent ready hready hprompt halloc rfl, htext, rfl⟩)))
      · refine .inr (.inr (.inr (.inr
          ⟨hsent ready hready hprompt halloc rfl, not_not.mp htext, ?_⟩)))
        rw [not_not.mp htext]

-- ================================================================== the law

/-- The modem is left alone with its prompt exactly where the buffer for
the message is missing. -/
theorem left_iff :
    (smsSend smsnum msg env).exchanges.foldl (waitsForText msg) false
      = false ↔ TextBuffered smsnum env := by
  have hready := ready_waits msg env .send
  unfold TextBuffered
  rcases smsSend_cases smsnum msg env with
    ⟨hno, heq⟩ | ⟨-, hno, heq⟩ | ⟨hyes, hseen, hnone, heq⟩ |
    ⟨hsent, -, heq⟩ | ⟨hsent, -, heq⟩
  · rw [heq, hno]
    simp [hready]
  · rw [heq, List.foldl_append, hready]
    refine iff_of_true (escape_waits msg env _) fun _ _ h => absurd h hno
  · rw [heq, List.foldl_append, hready, hnone]
    constructor
    · intro h _ hshown _
      unfold waitsForText at h
      rw [List.foldl_cons, if_pos hshown] at h
      exact h.symm
    · intro h
      refine prompt_waits smsnum msg env fun hshown => ?_
      cases h hyes hshown hseen
  · rw [heq, List.foldl_append, hready]
    exact iff_of_true (escape_waits msg env _) fun _ _ _ => hsent.memory
  · rw [heq, List.foldl_append, hready]
    exact iff_of_true (text_waits msg env _) fun _ _ _ => hsent.memory

/-- 1 is returned of a message that is sent and whose answer is found. -/
theorem ret_eq_one : (smsSend smsnum msg env).ret = 1 ↔
    TextSent smsnum env ∧ (sendText env msg).Found cmgsSentStr := by
  have hfound : (sendText env msg).verdict = 1 ↔
      (sendText env msg).Found cmgsSentStr := verdict_found
  rw [← hfound]
  rcases smsSend_cases smsnum msg env with
    ⟨hno, heq⟩ | ⟨-, hno, heq⟩ | ⟨-, -, hno, heq⟩ |
    ⟨-, hno, heq⟩ | ⟨hsent, hyes, heq⟩
  · rw [heq]
    exact iff_of_false Nat.zero_ne_one
      fun h => absurd (hno.symm.trans h.1.ready) nofun
  · rw [heq]
    exact iff_of_false Nat.zero_ne_one fun h => hno h.1.prompted
  · rw [heq]
    exact iff_of_false Nat.zero_ne_one
      fun h => absurd (hno.symm.trans h.1.memory) nofun
  · rw [heq]
    exact iff_of_false Nat.zero_ne_one fun h => hno h.2
  · rw [heq]
    exact iff_of_true rfl ⟨hsent, hyes⟩

/-- No other exchange sends what ends with 0x1A. -/
theorem text_of_cmd {e : Exchanged}
    (he : e ∈ (smsSend smsnum msg env).exchanges)
    (hcmd : e.cmd = msg ++ [0x1a]) : e = sendText env msg := by
  have hlast : e.cmd.getLast? = some 0x1a := by
    rw [hcmd, List.getLast?_concat]
  have hready : e ∉ (smsReady env .send).2 := by
    intro hin
    have hends : e.cmd.getLast? = some 0x0a := by
      obtain rfl | rfl := mem_ready hin <;> rfl
    rw [hlast] at hends
    cases hends
  have hprompt : e ≠ prompt env smsnum := by
    intro heq
    have hends : (prompt env smsnum).cmd.getLast? = some 0x0a := by
      show (bytes "AT+CMGS=\"" ++ smsnum ++ [0x22, 0x0d, 0x0a]).getLast? = _
      rw [List.getLast?_append]
      rfl
    rw [← heq, hlast] at hends
    cases hends
  have hescape : e ≠ escape env := by
    intro heq
    rw [heq] at hlast
    cases hlast
  rcases smsSend_cases smsnum msg env with
    ⟨-, heq⟩ | ⟨-, -, heq⟩ | ⟨-, -, -, heq⟩ | ⟨-, -, heq⟩ | ⟨-, -, heq⟩
  all_goals
    rw [heq] at he
    simp_all

/-- What is found where the answer fills `sresp`. -/
theorem found_full
    (hfull : srespSize ≤ (burst (env.link .smsText).reads).flatten.length) :
    (sendText env msg).Found cmgsSentStr ↔
      InTime 40000 (env.link .smsText).reads ∧ cmgsSentStr <:+:
        ((burst (env.link .smsText).reads).flatten.take srespSize).map
            sanitise ++ (env.link .smsText).past := by
  rw [← searched_full hfull]
  exact Iff.rfl

/-- Success is told rightly exactly if what is found has been read. -/
theorem told_iff :
    ((smsSend smsnum msg env).ret = 1 →
      ∃ e ∈ (smsSend smsnum msg env).exchanges,
        e.cmd = msg ++ [0x1a] ∧ e.Saw cmgsSentStr) ↔
      AnswerHeld smsnum env := by
  constructor
  · intro h hsent htime hfull hin
    have hfound := (found_full msg env hfull).mpr ⟨htime, hin⟩
    obtain ⟨e, he, hcmd, hsaw⟩ :=
      h ((ret_eq_one smsnum msg env).mpr ⟨hsent, hfound⟩)
    rw [text_of_cmd smsnum msg env he hcmd] at hsaw
    exact hsaw.2
  · intro h hret
    obtain ⟨hsent, hfound⟩ := (ret_eq_one smsnum msg env).mp hret
    have hmem : sendText env msg ∈ (smsSend smsnum msg env).exchanges := by
      rcases smsSend_cases smsnum msg env with
        ⟨-, heq⟩ | ⟨-, -, heq⟩ | ⟨-, -, -, heq⟩ | ⟨-, -, heq⟩ |
        ⟨-, -, heq⟩
      · rw [heq] at hret
        cases hret
      · rw [heq] at hret
        cases hret
      · rw [heq] at hret
        cases hret
      · simp [heq]
      · simp [heq]
    refine ⟨sendText env msg, hmem, rfl, ?_⟩
    by_cases hfull :
        srespSize ≤ (burst (env.link .smsText).reads).flatten.length
    · obtain ⟨htime, hin⟩ := (found_full msg env hfull).mp hfound
      exact ⟨htime, h hsent htime hfull hin⟩
    · exact saw_of_short printable_cmgsSent (Nat.lt_of_not_le hfull) hfound

/-- The command line keeps to its buffer exactly if the number does. -/
theorem within_iff :
    ((smsReady env .send).1 = true →
      ∀ mem, (promptBuf smsnum mem).InBounds) ↔ NumberFits smsnum env :=
  ⟨fun h hready => (promptBuf_inBounds smsnum fun _ => 0).mp (h hready _),
    fun h hready mem => (promptBuf_inBounds smsnum mem).mpr (h hready)⟩

/-- `smsSend` keeps its promises exactly if there is memory for the message
once the prompt has been seen, the answer to it is found where it was read,
and the number fits.

The three parts of the condition stand for three ways to fail: an open
prompt is left behind, a success is told that the modem has not announced,
or the stack is written over. -/
theorem sendLaw_iff : SendLaw smsnum msg env ↔ SendSafe smsnum env := by
  constructor
  · intro h
    exact {
      buffered := (left_iff smsnum msg env).mp h.left
      held := (told_iff smsnum msg env).mp h.told
      fits := (within_iff smsnum env).mp h.within }
  · intro h
    exact {
      left := (left_iff smsnum msg env).mpr h.buffered
      told := (told_iff smsnum msg env).mpr h.held
      within := (within_iff smsnum env).mpr h.fits }

end

/-- The modem answers as it should, and there is no memory left. -/
def outOfMemory : SendEnv where
  gsmStatus := .idle
  link
    | .smsRf _ => ⟨[], [bytes "\r\n+CFUN: 1\r\n\r\nOK\r\n"]⟩
    | .smsFormat _ => ⟨[], [bytes "\r\nOK\r\n"]⟩
    | .smsPrompt => ⟨[], [bytes "\r\n> "]⟩
    | _ => ⟨[], []⟩
  msgbufAlloc := false

/-- It answers with 256 other bytes to the message, and what it should
answer lies behind `sresp`. -/
def strayAnswer : SendEnv where
  gsmStatus := .idle
  link
    | .smsText => ⟨cmgsSentStr, [List.replicate 256 0x61]⟩
    | c => outOfMemory.link c
  msgbufAlloc := true

/-- The prompt is not answered; a message is reported sent that is not; a
number of 52 bytes is one too many. -/
theorem send_fails :
    ¬ SendLaw (bytes "+38640123456") (bytes "hello") outOfMemory ∧
    ¬ SendLaw (bytes "+38640123456") (bytes "hello") strayAnswer ∧
    ¬ SendLaw (List.replicate 52 0x30) (bytes "hello") strayAnswer := by
  refine ⟨fun h => ?_, fun h => ?_, fun h => ?_⟩
  · exact absurd h.left (by decide +kernel)
  · have hret : (smsSend (bytes "+38640123456") (bytes "hello")
        strayAnswer).ret = 1 := by decide +kernel
    have hnone : ∀ e ∈ (smsSend (bytes "+38640123456") (bytes "hello")
        strayAnswer).exchanges, ¬ cmgsSentStr <:+:
          (burst e.link.reads).flatten := by decide +kernel
    obtain ⟨e, he, -, -, hin⟩ := h.told hret
    exact hnone e he hin
  · have hready : (smsReady strayAnswer .send).1 = true := by decide +kernel
    have hfits := (promptBuf_inBounds _ _).mp (h.within hready fun _ => 0)
    rw [List.length_replicate] at hfits
    omega

end ShZ001.Sms
