/-
Whether a modem gets the number and the message that `smsSend` was given
(libGSM.c 883–909, 337–344).

# The condition

Both are pasted between delimiters as they are, the number into a buffer
of 64 bytes. The condition is that the number fits and that neither has
its delimiters inside (`Sendable`).

# It is enough

The modem then hears what it is meant to: a line without a line end
inside is heard as that line (`hear_line`), and a text without its
delimiters as that text (`hear_text`). Both are inductions over the
bytes, with what has been heard so far carried along.

# It is necessary

Whatever stream of bytes a modem hears, it hears no message with its
delimiters inside (`Sound`). So a number or a text that has them is not
heard as it was given, though all exchanges go well.
-/
import ShZ001.Lib.Search
import ShZ001.Sms.Framing
import ShZ001.Sms.Proofs.Prompt

namespace ShZ001.Sms

open Lib Gsm

-- ================================================================== the law

/-- All that the modem may hear in a call. -/
def Meant (smsnum msg : List UInt8) : Heard → Prop
  | .command line => line = bytes "AT+CFUN?" ∨ line = bytes "AT+CMGF=1"
  | .message number text => number = smsnum ∧ text = msg
  | .cancelled number => number = smsnum

/-- Command line and message fit their buffers, the modem hears nothing that
is not meant, and the message if it is sent. -/
structure FramingLaw (smsnum msg : List UInt8) : Prop where
  buf : ∀ mem, (promptBuf smsnum mem).InBounds
  msgbuf : ∀ mem, (textBuf msg mem).InBounds
  meant : ∀ env, ∀ h ∈ (smsSend smsnum msg env).heard, Meant smsnum msg h
  whole : ∀ env, sendText env msg ∈ (smsSend smsnum msg env).exchanges →
    .message smsnum msg ∈ (smsSend smsnum msg env).heard

/-- The number fits and is neither closed nor ended early; the message is
neither ended early nor cancelled. -/
structure Sendable (smsnum msg : List UInt8) : Prop where
  fits : smsnum.length ≤ 51
  closed : 0x22 ∉ smsnum
  oneLine : ¬ crlfStr <:+: smsnum
  ended : 0x1a ∉ msg
  cancelled : 0x1b ∉ msg

-- =============================================================== the buffers

/-- The message always fits: its block is made to measure. -/
theorem textBuf_inBounds (msg : List UInt8) (mem : Nat → UInt8) :
    (textBuf msg mem).InBounds := by
  unfold textBuf
  rw [Slots.inBounds_writeAll (List.append_ne_nil_of_right_ne_nil _
      (List.cons_ne_nil _ _)), Slots.array_size]
  simp

-- ============================================================== what is heard

/-- The grammar of the line, both ways. -/
theorem readNumber_eq_some {line number : List UInt8} :
    readNumber line = some number ↔
      line = cmgsStr ++ (number ++ [0x22]) ∧ 0x22 ∉ number := by
  unfold readNumber
  constructor
  · intro h
    split at h
    case isFalse => cases h
    case isTrue hpre =>
        obtain ⟨quoted, rfl⟩ := List.isPrefixOf_iff_prefix.mp hpre
        rw [List.drop_left] at h
        dsimp only at h
        split at h
        case isFalse => cases h
        case isTrue hquote =>
            cases h
            refine ⟨?_, hquote.2⟩
            rw [List.dropLast_append_getLast? _ hquote.1]
  · intro h
    obtain ⟨rfl, hnot⟩ := h
    rw [if_pos (List.isPrefixOf_iff_prefix.mpr (List.prefix_append _ _)),
      List.drop_left]
    dsimp only
    rw [List.dropLast_concat, List.getLast?_concat, if_pos ⟨rfl, hnot⟩]

/-- A text with a line end added to it byte by byte. -/
theorem crlf_concat {line : List UInt8} {b : UInt8}
    (h : ¬ crlfStr <:+: line) :
    crlfStr <:+: line ++ [b] ↔ b = 0x0a ∧ line.getLast? = some 0x0d := by
  rw [List.infix_concat_iff, or_iff_left h]
  constructor
  · intro hend
    obtain ⟨rest, hrest⟩ := hend
    have heq : rest ++ [0x0d] ++ [0x0a] = line ++ [b] := by
      rw [← hrest, List.append_assoc]
      rfl
    obtain ⟨hline, hb⟩ := List.append_inj' heq rfl
    rw [← hline, List.getLast?_concat]
    exact ⟨(List.cons.inj hb).1.symm, rfl⟩
  · intro hend
    obtain ⟨rfl, hlast⟩ := hend
    rw [← List.dropLast_append_getLast? _ hlast, List.append_assoc]
    exact List.suffix_append _ _

/-- A number between its quotes, with nothing in it that would end it. -/
def PlainNumber (number : List UInt8) : Prop :=
  0x22 ∉ number ∧ ¬ crlfStr <:+: number

def PlainText (text : List UInt8) : Prop :=
  0x1a ∉ text ∧ 0x1b ∉ text

/-- What is heard or half heard has no delimiters inside. -/
def Heard.Sound : Heard → Prop
  | .message number text => PlainNumber number ∧ PlainText text
  | _ => True

def Hearing.Sound : Hearing → Prop
  | .command line => ¬ crlfStr <:+: line
  | .text number t => PlainNumber number ∧ PlainText t

structure Listener.Sound (m : Listener) : Prop where
  hearing : m.hearing.Sound
  heard : ∀ h ∈ m.heard, h.Sound

theorem sound_idle : (Hearing.command []).Sound :=
  fun h => absurd (List.eq_nil_of_infix_nil h) (by decide)

/-- A line with a number in it has no line end exactly if the number has
none. -/
theorem crlf_cmgs (number : List UInt8) :
    crlfStr <:+: cmgsStr ++ (number ++ [0x22]) ↔ crlfStr <:+: number := by
  have hne : crlfStr ≠ [] := by decide
  have hcmd : occurs crlfStr (cmgsStr ++ (number ++ [0x22]))
      = occurs crlfStr (number ++ [0x22]) :=
    occurs_free (c := 0x0d) (by decide) [0x0a] _
  have hquote : occurs crlfStr (number ++ [0x22]) = occurs crlfStr number := by
    rw [occurs_append (parts_cons.mpr (by decide))]
    rfl
  rw [← not_iff_not, ← occurs_eq_zero hne, ← occurs_eq_zero hne, hcmd,
    hquote]

theorem Listener.Sound.takeLine {m : Listener} (h : m.Sound)
    {line : List UInt8} (hline : ¬ crlfStr <:+: line) :
    (m.takeLine line).Sound := by
  unfold Listener.takeLine
  cases hnum : readNumber line with
  | some number =>
      obtain ⟨rfl, hquote⟩ := readNumber_eq_some.mp hnum
      exact ⟨⟨⟨hquote, mt (crlf_cmgs number).mpr hline⟩, nofun, nofun⟩,
        h.heard⟩
  | none =>
      exact ⟨sound_idle, List.forall_mem_append.mpr
        ⟨h.heard, List.forall_mem_singleton.mpr trivial⟩⟩

/-- A byte is added to what is half heard, or ends it; an end of it is no
part of it. -/
theorem Listener.Sound.hear {m : Listener} (h : m.Sound) (b : UInt8) :
    (m.hear b).Sound := by
  obtain ⟨hearing, heard⟩ := m
  unfold Listener.hear
  cases hearing with
  | command line =>
      have hline : ¬ crlfStr <:+: line := h.hearing
      dsimp only
      split
      case isTrue =>
          exact h.takeLine fun hin =>
            hline (hin.trans (List.dropLast_prefix line).isInfix)
      case isFalse hend => exact ⟨mt (crlf_concat hline).mp hend, h.heard⟩
  | text number text =>
      obtain ⟨hnumber, htext⟩ : PlainNumber number ∧ PlainText text :=
        h.hearing
      dsimp only
      split_ifs with hended hcancelled
      · exact ⟨sound_idle, List.forall_mem_append.mpr ⟨h.heard,
          List.forall_mem_singleton.mpr ⟨hnumber, htext⟩⟩⟩
      · exact ⟨sound_idle, List.forall_mem_append.mpr ⟨h.heard,
          List.forall_mem_singleton.mpr trivial⟩⟩
      · refine ⟨⟨hnumber, ?_, ?_⟩, h.heard⟩
        · simpa [htext.1] using Ne.symm hended
        · simpa [htext.2] using Ne.symm hcancelled

/-- In no stream of bytes a message with delimiters inside is heard. -/
theorem sound_heard (bs : List UInt8) :
    (bs.foldl Listener.hear .idle).Sound := by
  exact List.foldlRecOn (motive := Listener.Sound) bs Listener.hear
    ⟨sound_idle, nofun⟩ fun m h b _ => h.hear b

-- =============================================================== being heard

/-- As long as no line end is complete the line goes on. -/
theorem hear_command {seen line : List UInt8}
    (h : ¬ crlfStr <:+: seen ++ line) (heard : List Heard) :
    line.foldl Listener.hear ⟨.command seen, heard⟩
      = ⟨.command (seen ++ line), heard⟩ := by
  induction line generalizing seen with
  | nil => rw [List.append_nil, List.foldl_nil]
  | cons b line ih =>
      rw [List.append_cons] at h
      have hseen : ¬ crlfStr <:+: seen ++ [b] :=
        fun hin => h (hin.trans (List.prefix_append _ _).isInfix)
      have hbyte : Listener.hear ⟨.command seen, heard⟩ b
          = ⟨.command (seen ++ [b]), heard⟩ := by
        have hfree : ¬ crlfStr <:+: seen :=
          fun hin => hseen (hin.trans (List.prefix_append _ _).isInfix)
        have hend := mt (crlf_concat hfree).mpr hseen
        unfold Listener.hear
        dsimp only
        rw [if_neg hend]
      rw [List.foldl_cons, hbyte, ih h, List.append_assoc]
      rfl

/-- A line without a line end inside is heard as that line. -/
theorem hear_line {line : List UInt8} (h : ¬ crlfStr <:+: line)
    (heard : List Heard) :
    (line ++ crlfStr).foldl Listener.hear ⟨.command [], heard⟩
      = Listener.takeLine line ⟨.command [], heard⟩ := by
  have hcr : Listener.hear ⟨.command line, heard⟩ 0x0d
      = ⟨.command (line ++ [0x0d]), heard⟩ := by
    have hno : ¬ ((0x0d : UInt8) = 0x0a ∧ line.getLast? = some 0x0d) :=
      fun hend => absurd hend.1 (by decide)
    unfold Listener.hear
    dsimp only
    rw [if_neg hno]
  have hlf : Listener.hear ⟨.command (line ++ [0x0d]), heard⟩ 0x0a
      = Listener.takeLine line ⟨.command [], heard⟩ := by
    have hline : (line ++ [0x0d]).dropLast = line := List.dropLast_concat
    unfold Listener.hear
    dsimp only
    rw [if_pos ⟨rfl, List.getLast?_concat⟩, hline]
    rfl
  rw [List.foldl_append,
    hear_command (show ¬ crlfStr <:+: [] ++ line from h), List.nil_append]
  show [0x0d, 0x0a].foldl Listener.hear ⟨.command line, heard⟩ = _
  rw [List.foldl_cons, hcr, List.foldl_cons, hlf, List.foldl_nil]

/-- A line that is no `AT+CMGS` is heard as a command. -/
theorem hear_other {line : List UInt8} (h : ¬ crlfStr <:+: line)
    (hnum : readNumber line = none) (heard : List Heard) :
    (line ++ crlfStr).foldl Listener.hear ⟨.command [], heard⟩
      = ⟨.command [], heard ++ [.command line]⟩ := by
  rw [hear_line h, Listener.takeLine, hnum]

/-- Text without its delimiters is heard as it is. -/
theorem hear_text {text : List UInt8} (h : PlainText text)
    (number seen : List UInt8) (heard : List Heard) :
    text.foldl Listener.hear ⟨.text number seen, heard⟩
      = ⟨.text number (seen ++ text), heard⟩ := by
  induction text generalizing seen with
  | nil => rw [List.append_nil, List.foldl_nil]
  | cons b text ih =>
      obtain ⟨hended, hcancelled⟩ := h
      rw [List.mem_cons, not_or] at hended hcancelled
      have hbyte : Listener.hear ⟨.text number seen, heard⟩ b
          = ⟨.text number (seen ++ [b]), heard⟩ := by
        unfold Listener.hear
        dsimp only
        rw [if_neg (Ne.symm hended.1), if_neg (Ne.symm hcancelled.1)]
      rw [List.foldl_cons, hbyte, ih ⟨hended.2, hcancelled.2⟩,
        List.append_assoc]
      rfl

section

variable (env : SendEnv) (heard : List Heard)

theorem hear_askRf (op : SmsOp) :
    (askRf env op).cmd.foldl Listener.hear ⟨.command [], heard⟩
      = ⟨.command [], heard ++ [.command (bytes "AT+CFUN?")]⟩ := by
  have hcmd : bytes "AT+CFUN?\r\n" = bytes "AT+CFUN?" ++ crlfStr := by decide
  rw [askRf, hcmd]
  exact hear_other (by decide +kernel) (by decide +kernel) heard

theorem hear_setFormat (op : SmsOp) :
    (setFormat env op).cmd.foldl Listener.hear ⟨.command [], heard⟩
      = ⟨.command [], heard ++ [.command (bytes "AT+CMGF=1")]⟩ := by
  have hcmd : bytes "AT+CMGF=1\r\n" = bytes "AT+CMGF=1" ++ crlfStr := by
    decide
  rw [setFormat, hcmd]
  exact hear_other (by decide +kernel) (by decide +kernel) heard

/-- What `sms_ready` asks. -/
def Asked : Heard → Prop
  | .command line => line = bytes "AT+CFUN?" ∨ line = bytes "AT+CMGF=1"
  | .message .. => False
  | .cancelled _ => False

/-- `sms_ready` is heard as one command or two. -/
theorem hear_asked (op : SmsOp) :
    ∃ heard, (∀ e ∈ heard, Asked e) ∧
      ((smsReady env op).2.flatMap Exchanged.cmd).foldl Listener.hear .idle
        = ⟨.command [], heard⟩ := by
  have hrf : Asked (.command (bytes "AT+CFUN?")) := .inl rfl
  have hformat : Asked (.command (bytes "AT+CMGF=1")) := .inr rfl
  have hboth : [askRf env op, setFormat env op].flatMap Exchanged.cmd
      = (askRf env op).cmd ++ (setFormat env op).cmd := by
    simp
  have hheard : ((askRf env op).cmd ++ (setFormat env op).cmd).foldl
      Listener.hear .idle = ⟨.command [], [.command (bytes "AT+CFUN?"),
        .command (bytes "AT+CMGF=1")]⟩ := by
    rw [List.foldl_append, Listener.idle, hear_askRf, hear_setFormat]
    rfl
  unfold smsReady
  split_ifs
  · exact ⟨[], nofun, rfl⟩
  · refine ⟨[.command (bytes "AT+CFUN?")],
      List.forall_mem_singleton.mpr hrf, ?_⟩
    rw [List.flatMap_singleton, Listener.idle, hear_askRf]
    rfl
  · exact ⟨_, List.forall_mem_cons.mpr ⟨hrf,
      List.forall_mem_singleton.mpr hformat⟩, hboth ▸ hheard⟩
  · exact ⟨_, List.forall_mem_cons.mpr ⟨hrf,
      List.forall_mem_singleton.mpr hformat⟩, hboth ▸ hheard⟩

/-- Before the number nothing but the two commands is heard. -/
theorem hear_ready (smsnum msg : List UInt8) (op : SmsOp) :
    ∃ heard, (∀ e ∈ heard, Meant smsnum msg e) ∧
      ((smsReady env op).2.flatMap Exchanged.cmd).foldl Listener.hear .idle
        = ⟨.command [], heard⟩ := by
  obtain ⟨heard, hasked, hready⟩ := hear_asked env op
  refine ⟨heard, fun e he => ?_, hready⟩
  have he := hasked e he
  cases e with
  | command line => exact he
  | message | cancelled => exact he.elim

/-- The text is not among the exchanges before the number. -/
theorem text_not_ready (msg : List UInt8) (op : SmsOp) :
    sendText env msg ∉ (smsReady env op).2 := by
  have hrf : sendText env msg ≠ askRf env op :=
    fun h => nomatch congrArg Exchanged.name h
  have hformat : sendText env msg ≠ setFormat env op :=
    fun h => nomatch congrArg Exchanged.name h
  exact fun hin => (mem_ready hin).elim hrf hformat

variable {smsnum msg : List UInt8} (h : Sendable smsnum msg)

include h

/-- The number puts the modem into text, -/
theorem hear_prompt :
    (prompt env smsnum).cmd.foldl Listener.hear ⟨.command [], heard⟩
      = ⟨.text smsnum [], heard⟩ := by
  have hcmd : (prompt env smsnum).cmd
      = cmgsStr ++ (smsnum ++ [0x22]) ++ crlfStr := by
    have hend : bytes "\"\r\n" = [0x22] ++ crlfStr := by decide
    rw [prompt, hend]
    simp [cmgsStr]
  have hnum := readNumber_eq_some.mpr
    ⟨(rfl : cmgsStr ++ (smsnum ++ [0x22]) = _), h.closed⟩
  rw [hcmd, hear_line (mt (crlf_cmgs smsnum).mp h.oneLine),
    Listener.takeLine, hnum]

/-- and the text takes it out again. -/
theorem hear_sendText :
    (sendText env msg).cmd.foldl Listener.hear ⟨.text smsnum [], heard⟩
      = ⟨.command [], heard ++ [.message smsnum msg]⟩ := by
  rw [sendText, List.foldl_append, hear_text ⟨h.ended, h.cancelled⟩]
  rfl

/-- Whichever way `smsSend` ends. -/
theorem smsSend_heard :
    (∀ e ∈ (smsSend smsnum msg env).heard, Meant smsnum msg e) ∧
      (sendText env msg ∈ (smsSend smsnum msg env).exchanges →
        .message smsnum msg ∈ (smsSend smsnum msg env).heard) := by
  obtain ⟨before, hbefore, hready⟩ := hear_ready env smsnum msg .send
  have hnot := text_not_ready env msg .send
  have hprompt : sendText env msg ≠ prompt env smsnum :=
    fun heq => nomatch congrArg Exchanged.name heq
  have hescape : sendText env msg ≠ escape env :=
    fun heq => nomatch congrArg Exchanged.name heq
  have hcancelled : ∀ e ∈ before ++ [.cancelled smsnum],
      Meant smsnum msg e :=
    List.forall_mem_append.mpr ⟨hbefore, List.forall_mem_singleton.mpr rfl⟩
  have hmessage : ∀ e ∈ before ++ [.message smsnum msg],
      Meant smsnum msg e :=
    List.forall_mem_append.mpr
      ⟨hbefore, List.forall_mem_singleton.mpr ⟨rfl, rfl⟩⟩
  -- once the number is out, all that follows is taken for its text
  have hgo : ∀ ret rest, SendOut.heard
      ⟨ret, (smsReady env .send).2 ++ prompt env smsnum :: rest⟩
      = ((rest.flatMap Exchanged.cmd).foldl Listener.hear
        ⟨.text smsnum [], before⟩).heard := by
    intro ret rest
    unfold SendOut.heard SendOut.sent
    rw [List.flatMap_append, List.foldl_append, hready, List.flatMap_cons,
      List.foldl_append, hear_prompt env before h]
  rcases smsSend_cases smsnum msg env with
    ⟨-, heq⟩ | ⟨-, -, heq⟩ | ⟨-, -, -, heq⟩ | ⟨-, -, heq⟩ | ⟨-, -, heq⟩
  · rw [heq, SendOut.heard, SendOut.sent, hready]
    exact ⟨hbefore, fun hin => absurd hin hnot⟩
  · rw [heq, hgo]
    exact ⟨hcancelled, by simp [hnot, hprompt, hescape]⟩
  · rw [heq, hgo]
    exact ⟨hbefore, by simp [hnot, hprompt]⟩
  · rw [heq, hgo, List.flatMap_cons, List.foldl_append,
      hear_sendText env before h]
    exact ⟨hmessage, fun _ => List.mem_concat_self⟩
  · rw [heq, hgo, List.flatMap_cons, List.foldl_append,
      hear_sendText env before h]
    exact ⟨hmessage, fun _ => List.mem_concat_self⟩

end

-- ================================================================== the law

/-- The modem answers as it should. -/
def answering : SendEnv where
  gsmStatus := .idle
  link
    | .smsRf _ => ⟨[], [bytes "\r\n+CFUN: 1\r\n\r\nOK\r\n"]⟩
    | .smsFormat _ => ⟨[], [bytes "\r\nOK\r\n"]⟩
    | .smsPrompt => ⟨[], [bytes "\r\n> "]⟩
    | .smsText => ⟨[], [bytes "\r\n+CMGS: 1\r\n\r\nOK\r\n"]⟩
    | _ => ⟨[], []⟩
  msgbufAlloc := true

/-- Then the text is sent, whatever it is. -/
theorem answering_sends (smsnum msg : List UInt8) :
    sendText answering msg ∈ (smsSend smsnum msg answering).exchanges := by
  have hready : (smsReady answering .send).1 = true := by decide +kernel
  have hprompt : (prompt answering smsnum).verdict = 1 := by
    show atCmdWaitResponse [] (bytes "> ") none 1000 [bytes "\r\n> "] = 1
    decide +kernel
  rcases smsSend_cases smsnum msg answering with
    ⟨hno, -⟩ | ⟨-, hno, -⟩ | ⟨-, -, hno, -⟩ | ⟨-, -, heq⟩ | ⟨-, -, heq⟩
  · rw [hready] at hno
    cases hno
  · exact absurd hprompt hno
  · cases hno
  · simp [heq]
  · simp [heq]

/-- The modem gets the number and the message exactly if the number fits
and neither has its delimiters inside.

For the one direction the modem that answers as it should is enough, since
with it the text is sent; for the other the verdicts may be any, and what
is heard then is a part of what was meant. -/
theorem framingLaw_iff (smsnum msg : List UInt8) :
    FramingLaw smsnum msg ↔ Sendable smsnum msg := by
  constructor
  · intro h
    have hheard := h.whole answering (answering_sends smsnum msg)
    obtain ⟨⟨hclosed, hline⟩, hended, hcancelled⟩ :
        PlainNumber smsnum ∧ PlainText msg :=
      (sound_heard _).heard _ hheard
    exact {
      fits := (promptBuf_inBounds smsnum _).mp (h.buf fun _ => 0)
      closed := hclosed
      oneLine := hline
      ended := hended
      cancelled := hcancelled }
  · intro h
    exact {
      buf := fun mem => (promptBuf_inBounds smsnum mem).mpr h.fits
      msgbuf := textBuf_inBounds msg
      meant := fun env => (smsSend_heard env h).1
      whole := fun env => (smsSend_heard env h).2 }

/-- What follows 0x1A in a message is taken for the start of a command, and
a number of 52 bytes is one too many. -/
theorem framing_fails :
    ¬ FramingLaw (bytes "+38640123456") [0x61, 0x1a, 0x62] ∧
      ¬ FramingLaw (List.replicate 52 0x30) (bytes "hello") := by
  constructor
  · intro h
    exact absurd (h.whole answering (answering_sends _ _)) (by decide +kernel)
  · intro h
    have hfits := (promptBuf_inBounds _ _).mp (h.buf fun _ => 0)
    rw [List.length_replicate] at hfits
    omega

end ShZ001.Sms
