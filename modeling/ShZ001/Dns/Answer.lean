/-
What `captdnsRecv` sends, as a function of the questions it decodes.

# Reading and writing

The loop of the source (captdns.c 189–260) interleaves two things:
reading the next question and writing the answer to the last one. They
share nothing but the text of the name. `readQuestions` does the reading
alone, `addRecords` the writing alone, and `questionLoop_reads` says
that the loop is the one after the other.

# The datagram

`readDatagram` is what a datagram is taken to ask, `Asked.reply` what is
sent for it, and `captdnsRecv_sent` puts the two together. `Sends env r`
is the form in which the results about replies use it: the call returns,
with enough fuel, having sent these bytes. What follows about what is
sent is then about a list of questions, and no longer about the loop.
-/
import ShZ001.Dns.Decode

namespace ShZ001.Dns

open Lib

-- ================================================================= reading

/-- The questions that are read, and whether the datagram is dropped
behind them. -/
structure Asked where
  questions : List Question
  dropped : Bool

/-- The next `n` questions from `p` on; `none` if a name does not end
within `fuel` parts. -/
def readQuestions (fuel : Nat) (packet : Nat → UInt8) (length : Nat) :
    Nat → Nat → Option Asked
  | 0, _ =>
      some
        { questions := []
          dropped := false }
  | n + 1, p =>
      match readName packet length dnsLen fuel (.start p) with
      | none => none
      | some none =>
          some
            { questions := []
              dropped := true }
      | some (some name) =>
          let q : Question :=
            { name := name.text
              type := ntohs packet name.finish }
          match readQuestions fuel packet length n
              (name.finish + sizeofDnsQuestionFooter) with
          | none => none
          | some rest => some { rest with questions := q :: rest.questions }

/-- More fuel does not change a name that has been read. -/
theorem readName_mono {packet : Nat → UInt8} {size max fuel : Nat}
    {n : Name} {r : Option Name}
    (h : readName packet size max fuel n = some r) (more : Nat) :
    readName packet size max (fuel + more) n = some r := by
  induction fuel generalizing n with
  | zero => cases h
  | succ fuel ih =>
      rw [Nat.succ_add]
      unfold readName at h ⊢
      dsimp only at h ⊢
      split at h
      case isTrue hout => rw [if_pos hout]; exact h
      case isFalse hin =>
          rw [if_neg hin]
          split at h
          case isTrue hb => rw [if_pos hb]; exact ih h
          case isFalse hb => rw [if_neg hb]; exact h

/-- Nor does it change questions that have been read. -/
theorem readQuestions_mono {packet : Nat → UInt8} {length fuel n p : Nat}
    {a : Asked} (h : readQuestions fuel packet length n p = some a)
    (more : Nat) :
    readQuestions (fuel + more) packet length n p = some a := by
  induction n generalizing p a with
  | zero => exact h
  | succ n ih =>
      unfold readQuestions at h ⊢
      cases hname : readName packet length dnsLen fuel (.start p) with
      | none => simp [hname] at h
      | some r =>
          rw [readName_mono hname more]
          cases r with
          | none => simpa [hname] using h
          | some name =>
              simp only [hname] at h ⊢
              cases hrest : readQuestions fuel packet length n
                  (name.finish + sizeofDnsQuestionFooter) with
              | none => simp [hrest] at h
              | some rest =>
                  rw [ih hrest]
                  simpa [hrest] using h

-- ================================================================= writing

/-- The record that answers a question, behind the cursor. -/
def addRecord (ip : UInt8 × UInt8 × UInt8 × UInt8) (q : Question)
    (w : Nat × Slots UInt8) : Nat × Slots UInt8 :=
  let (rend, reply) := w
  let (rf, named) := strToLabel (cstr q.name) rend reply
  if q.type = qtypeA then recordA ip rf named
  else if q.type = qtypeNS then recordNS rf named
  else if q.type = qtypeURI then recordURI rf named
  else w

/-- The records of all questions, in their order. -/
def addRecords (ip : UInt8 × UInt8 × UInt8 × UInt8) :
    List Question → Nat × Slots UInt8 → Nat × Slots UInt8
  | [], w => w
  | q :: qs, w => addRecords ip qs (addRecord ip q w)

/-- The cursor and the buffer of the reply. -/
def RecvVars.written (v : RecvVars) : Nat × Slots UInt8 := (v.rend, v.reply)

/-- An answer writes the record of the question, whose name it takes from
`buff`, and leaves the name and the reading cursor alone. -/
theorem answer_written (env : RecvEnv) {v : RecvVars} {q : Question}
    (hq : text v.buff = cstr q.name) :
    (answer env q.type v).written = addRecord env.ip q v.written ∧
      (answer env q.type v).buff = v.buff ∧
      (answer env q.type v).p = v.p := by
  unfold answer addRecord RecvVars.written
  rw [hq]
  split_ifs
  · exact ⟨rfl, rfl, rfl⟩
  · exact ⟨rfl, rfl, rfl⟩
  · exact ⟨rfl, rfl, rfl⟩
  · exact ⟨rfl, rfl, rfl⟩

-- ================================================================ the loop

/-- The loop reads the questions and writes their records. -/
inductive LoopReads (ip : UInt8 × UInt8 × UInt8 × UInt8) (v : RecvVars) :
    Option Asked → Option (RecvVars × Bool) → Prop
  | running : LoopReads ip v none none
  | read {a w} (h : w.written = addRecords ip a.questions v.written) :
      LoopReads ip v (some a) (some (w, a.dropped))

/-- The loop is the reading followed by the writing: neither looks at what
the other does. -/
theorem questionLoop_reads (fuel : Nat) (env : RecvEnv) (n : Nat)
    {v : RecvVars} (hbuff : v.buff.size = dnsLen) :
    LoopReads env.ip v (readQuestions fuel env.packet env.length n v.p)
      (questionLoop fuel env n v) := by
  induction n generalizing v with
  | zero => exact .read rfl
  | succ n ih =>
      have hname := labelToStr_result fuel env.packet v.p env.length v.buff
      rw [hbuff] at hname
      unfold readQuestions questionLoop
      generalize labelToStr fuel env.packet v.p env.length v.buff dnsLen = r
        at hname
      generalize readName env.packet env.length dnsLen fuel _ = r' at hname ⊢
      cases hname with
      | running => exact .running
      | null hw => exact .read rfl
      | @name name buff hs =>
          obtain ⟨hwritten, hbuff', hp⟩ := answer_written env
            (v := { v with
              p := name.finish + sizeofDnsQuestionFooter
              buff := buff })
            (q :=
              { name := name.text
                type := ntohs env.packet name.finish })
            hs.text
          dsimp only at hwritten hbuff' hp ⊢
          have hrest := ih (by rw [hbuff', hs.size, hbuff])
          rw [hp] at hrest
          generalize readQuestions fuel env.packet env.length n _ = a
            at hrest ⊢
          generalize questionLoop fuel env n _ = b at hrest ⊢
          cases hrest with
          | running => exact .running
          | read h => exact .read (h.trans (by rw [hwritten]; rfl))

-- ============================================================ the datagram

/-- The bytes of a reply with these records. -/
def replyBytes (env : RecvEnv) (qs : List Question) : List UInt8 :=
  let (rend, reply) := addRecords env.ip qs (copied env).written
  slice reply.cell 0 rend

/-- What a datagram is taken to ask; `none` if one of its names does not
end within `fuel` parts. A datagram that is ignored counts as dropped. -/
def readDatagram (fuel : Nat) (packet : Nat → UInt8) (length : Nat) :
    Option Asked :=
  if accepted packet length then
    readQuestions fuel packet length (qdcount packet) sizeofDnsHeader
  else
    some
      { questions := []
        dropped := true }

/-- What is sent for it. -/
def Asked.reply (env : RecvEnv) (a : Asked) : Option (List UInt8) :=
  if a.dropped then none else some (replyBytes env a.questions)

/-- `captdnsRecv` sends the records of the questions it reads. -/
theorem captdnsRecv_sent (fuel : Nat) (env : RecvEnv) :
    (captdnsRecv fuel env).map RecvOut.sent =
      (readDatagram fuel env.packet env.length).map (Asked.reply env) := by
  unfold captdnsRecv readDatagram
  split
  case isFalse => rfl
  case isTrue =>
      have hloop := questionLoop_reads fuel env (qdcount env.packet)
        (v := copied env) rfl
      have hp : (copied env).p = sizeofDnsHeader := rfl
      rw [hp] at hloop
      generalize questionLoop fuel env _ _ = b at hloop ⊢
      generalize readQuestions fuel env.packet env.length _ _ = a
        at hloop ⊢
      cases hloop with
      | running => rfl
      | @read a w h =>
          have hw : slice w.reply.cell 0 w.rend
              = replyBytes env a.questions := by
            unfold replyBytes
            rw [← h]
            rfl
          dsimp only [Option.map_some, Asked.reply]
          rw [hw]

/-- `captdnsRecv` returns having sent these bytes. -/
def Sends (env : RecvEnv) (r : List UInt8) : Prop :=
  ∃ fuel out, captdnsRecv fuel env = some out ∧ out.sent = some r

/-- It does exactly if it reads all questions, and these are their
records. -/
theorem sends_iff {env : RecvEnv} {r : List UInt8} :
    Sends env r ↔ ∃ fuel a,
      readDatagram fuel env.packet env.length = some a ∧
      a.dropped = false ∧ r = replyBytes env a.questions := by
  have hsent : ∀ fuel, (∃ out, captdnsRecv fuel env = some out ∧
      out.sent = some r) ↔
      (captdnsRecv fuel env).map RecvOut.sent = some (some r) := by
    intro fuel
    rw [Option.map_eq_some_iff]
  unfold Sends
  refine exists_congr fun fuel => ?_
  rw [hsent, captdnsRecv_sent, Option.map_eq_some_iff]
  refine exists_congr fun a => and_congr_right fun _ => ?_
  unfold Asked.reply
  split
  case isTrue hd => simp [hd]
  case isFalse hd => simp [hd, eq_comm]

/-- A datagram that is not accepted is not answered. -/
theorem not_sends_of_ignored {env : RecvEnv} {r : List UInt8}
    (h : accepted env.packet env.length = false) : ¬ Sends env r := by
  rw [sends_iff]
  intro h
  obtain ⟨fuel, a, ha, hd, -⟩ := h
  rw [readDatagram, h] at ha
  cases ha
  cases hd

/-- So what is answered has been accepted. -/
theorem accepted_of_sends {env : RecvEnv} {r : List UInt8}
    (h : Sends env r) : accepted env.packet env.length = true := by
  by_contra hno
  exact not_sends_of_ignored (Bool.eq_false_iff.mpr hno) h

/-- A datagram is read in one way. -/
theorem readDatagram_unique {packet : Nat → UInt8} {length : Nat}
    {fuel fuel' : Nat} {a a' : Asked}
    (h : readDatagram fuel packet length = some a)
    (h' : readDatagram fuel' packet length = some a') : a = a' := by
  unfold readDatagram at h h'
  split at h
  case isFalse hno =>
      rw [if_neg hno] at h'
      exact (Option.some.inj h).symm.trans (Option.some.inj h')
  case isTrue hyes =>
      rw [if_pos hyes] at h'
      have h := readQuestions_mono h fuel'
      have h' := readQuestions_mono h' fuel
      rw [Nat.add_comm, h] at h'
      exact Option.some.inj h'

/-- So it is answered in one way. -/
theorem Sends.unique {env : RecvEnv} {r r' : List UInt8}
    (h : Sends env r) (h' : Sends env r') : r = r' := by
  obtain ⟨_, a, ha, -, rfl⟩ := sends_iff.mp h
  obtain ⟨_, a', ha', -, rfl⟩ := sends_iff.mp h'
  rw [readDatagram_unique ha ha']

end ShZ001.Dns
