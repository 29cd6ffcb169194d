/-
What one datagram makes `captdnsRecv` write (captdns.c 117–265).

# No bound on the cursors

Neither cursor has a bound of its own. `labelToStr` keeps its text
inside the result but sets the terminator behind a text that fills it;
`strToLabel` is given the room that is left and has its test commented
out. `Fits` says when this does no harm: every name is shorter than the
buffer, and the datagram and its answers together fit the reply. A
datagram that is long enough leaves its own answer no room, padded or
not.

# The invariant

The proof has one invariant, `Packed`: everything written so far lies
inside the reply exactly if the cursor does. Records are written front
to back, so the last write decides (`Record`, `strLoop_inBounds`), and a
question adds its size to the cursor whatever the cursor is
(`answer_packed`). At the end the cursor is the length of the datagram
plus the sizes of the answers, and `recvLaw_iff` is exact.
-/
import ShZ001.Dns.Decode

namespace ShZ001.Dns

open Lib

-- ================================================================ the law

/-- Every write went to an element of its array, and the cursor is still
in the reply. -/
structure RecvLaw (out : RecvOut) : Prop where
  reply : out.reply.InBounds
  buff : out.buff.InBounds
  rend : out.rend ≤ dnsLen

/-- The bytes of the record for a question of this type, its owner name
apart. -/
def recordSize (type : Nat) : Nat :=
  if type = qtypeA then 14
  else if type = qtypeNS then 14
  else if type = qtypeURI then 30
  else 0

/-- What a question adds to the reply: a name of `n` bytes takes `n + 2`,
and is written up to its first NUL. -/
def answerSize (q : Question) : Nat :=
  if recordSize q.type = 0 then 0
  else (cstr q.name).length + 2 + recordSize q.type

def answersSize : List Question → Nat
  | [] => 0
  | q :: qs => answerSize q + answersSize qs

/-- The names fit the buffer, the datagram and the answers the reply. -/
structure Fits (length : Nat) (qs : List Question) : Prop where
  names : ∀ q ∈ qs, q.name.length < dnsLen
  total : length + answersSize qs ≤ dnsLen

-- ============================================================== the encoder

/-- The encoder moves its cursor by the text and the final zero, whatever
is in the text. -/
theorem strLoop_cursor (str : List UInt8) (len p : Nat) (s : Slots UInt8) :
    (strLoop str len p s).1 = p + str.length + 1 := by
  induction str generalizing len p s with
  | nil => rfl
  | cons c str ih =>
      unfold strLoop
      split
      · rw [ih, List.length_cons]
        omega
      · rw [ih, List.length_cons]
        omega

/-- It leaves the buffer its size. -/
theorem strLoop_size (str : List UInt8) (len p : Nat) (s : Slots UInt8) :
    (strLoop str len p s).2.size = s.size := by
  induction str generalizing len p s with
  | nil => rfl
  | cons c str ih =>
      unfold strLoop
      split <;> exact ih ..

/-- The last write is the final zero, at the end of what was written. -/
theorem strLoop_inBounds (str : List UInt8) {len p : Nat} (h : len < p)
    (s : Slots UInt8) :
    (strLoop str len p s).2.InBounds ↔
      p + str.length + 1 ≤ s.size ∧ s.InBounds := by
  induction str generalizing len p s with
  | nil =>
      simp only [strLoop, Slots.inBounds_write, Slots.write_size,
        List.length_nil, ← and_assoc]
      exact and_congr_left fun _ => by omega
  | cons c str ih =>
      unfold strLoop
      split
      · rw [ih (Nat.lt_succ_self p), Slots.inBounds_write, Slots.write_size,
          List.length_cons, ← and_assoc]
        exact and_congr_left fun _ => by omega
      · rw [ih (Nat.lt_succ_of_lt h), Slots.inBounds_write, Slots.write_size,
          List.length_cons, ← and_assoc]
        exact and_congr_left fun _ => by omega

-- ================================================================ the records

/-- Writing a record of `n` bytes at `rf` moves the cursor past it, and
stays inside exactly if the cursor does. -/
structure Record (rf n : Nat) (reply : Slots UInt8)
    (r : Nat × Slots UInt8) : Prop where
  cursor : r.1 = rf + n
  size : r.2.size = reply.size
  inBounds : r.2.InBounds ↔ rf + n ≤ reply.size ∧ reply.InBounds

@[simp] theorem countAnswer_size (reply : Slots UInt8) :
    (countAnswer reply).size = reply.size := setn16_size ..

/-- The record's data, and the count of the header. -/
theorem inBounds_rdata {p : Nat} {vs : List UInt8} (hvs : vs ≠ [])
    (s : Slots UInt8) :
    (countAnswer (s.writeAll p vs)).InBounds ↔
      8 ≤ s.size ∧ p + vs.length ≤ s.size ∧ s.InBounds := by
  simp [countAnswer, Slots.inBounds_writeAll hvs]

section

variable {reply : Slots UInt8} (hsize : 8 ≤ reply.size) (rf : Nat)

include hsize

/-- An address record has 14 bytes behind its owner. -/
theorem recordA_record (ip : UInt8 × UInt8 × UInt8 × UInt8) :
    Record rf 14 reply (recordA ip rf reply) := by
  refine ⟨rfl, by simp [recordA], ?_⟩
  simp only [recordA, inBounds_rdata (List.cons_ne_nil _ _),
    inBounds_setn16, inBounds_setn32, setn16_size, setn32_size,
    sizeofDnsResourceFooter, List.length_cons, List.length_nil,
    ← and_assoc]
  exact and_congr_left fun _ => by omega

/-- A name server record has 14, too. -/
theorem recordNS_record : Record rf 14 reply (recordNS rf reply) := by
  refine ⟨rfl, by simp [recordNS], ?_⟩
  simp only [recordNS, inBounds_rdata (List.cons_ne_nil _ _),
    inBounds_setn16, setn16_size, sizeofDnsResourceFooter,
    List.length_cons, List.length_nil, ← and_assoc]
  exact and_congr_left fun _ => by omega

/-- A URI record has 30. -/
theorem recordURI_record : Record rf 30 reply (recordURI rf reply) := by
  have huri : (bytes "http://esp.nonet").length = 16 := by decide
  refine ⟨rfl, by simp [recordURI], ?_⟩
  simp only [recordURI,
    inBounds_rdata (List.ne_nil_of_length_eq_add_one huri),
    inBounds_setn16, setn16_size, sizeofDnsResourceFooter,
    sizeofDnsUriHdr, huri, ← and_assoc]
  exact and_congr_left fun _ => by omega

/-- An owner name and a record behind it. -/
theorem named_record {n : Nat} {str : List UInt8}
    {f : Nat → Slots UInt8 → Nat × Slots UInt8}
    (hf : ∀ rf s, 8 ≤ s.size → Record rf n s (f rf s)) (rend : Nat) :
    Record rend (str.length + 2 + n) reply
      (f (strToLabel str rend reply).1 (strToLabel str rend reply).2) := by
  have hcur : (strToLabel str rend reply).1 = rend + str.length + 2 := by
    unfold strToLabel
    rw [strLoop_cursor]
    omega
  have hsz : (strToLabel str rend reply).2.size = reply.size :=
    strLoop_size ..
  have hin := strLoop_inBounds str (Nat.lt_succ_self rend) reply
  obtain ⟨hcursor, hsize', hin'⟩ := hf (strToLabel str rend reply).1
    (strToLabel str rend reply).2 (by rw [hsz]; exact hsize)
  refine ⟨by rw [hcursor, hcur]; omega, hsize'.trans hsz, ?_⟩
  rw [hin', hcur, hsz, strToLabel, hin, ← and_assoc]
  exact and_congr_left fun _ => by omega

end

-- ============================================================= the invariant

/-- All that was written lies inside the reply exactly if the cursor
does. -/
structure Packed (v : RecvVars) : Prop where
  size : v.reply.size = dnsLen
  inBounds : v.reply.InBounds ↔ v.rend ≤ dnsLen

/-- A record added behind packed ones. -/
theorem Packed.record {v : RecvVars} (h : Packed v) {n : Nat}
    {r : Nat × Slots UInt8} (hr : Record v.rend n v.reply r) :
    Packed { v with
      rend := r.1
      reply := r.2 } := by
  refine ⟨hr.size.trans h.size, ?_⟩
  rw [hr.inBounds, h.inBounds, hr.cursor, h.size]
  exact and_iff_left_of_imp fun hle => by omega

/-- What a question adds, by its type. -/
theorem answer_cases (env : RecvEnv) (type : Nat) {v : RecvVars}
    (hsize : 8 ≤ v.reply.size) :
    (recordSize type = 0 ∧ answer env type v = v) ∨
    (recordSize type ≠ 0 ∧ ∃ r,
      Record v.rend ((text v.buff).length + 2 + recordSize type) v.reply r ∧
      answer env type v =
        { v with
          rend := r.1
          reply := r.2 }) := by
  unfold answer recordSize
  split_ifs
  · exact .inr ⟨by decide, _, named_record hsize
      (fun rf s hs => recordA_record hs rf env.ip) v.rend, rfl⟩
  · exact .inr ⟨by decide, _, named_record hsize
      (fun rf s hs => recordNS_record hs rf) v.rend, rfl⟩
  · exact .inr ⟨by decide, _, named_record hsize
      (fun rf s hs => recordURI_record hs rf) v.rend, rfl⟩
  · exact .inl ⟨rfl, rfl⟩

/-- A question keeps the reply packed and adds its size. -/
theorem answer_packed (env : RecvEnv) {v : RecvVars} (h : Packed v)
    {q : Question} (hq : text v.buff = cstr q.name) :
    Packed (answer env q.type v) ∧
      (answer env q.type v).rend = v.rend + answerSize q ∧
      (answer env q.type v).buff = v.buff ∧
      (answer env q.type v).p = v.p := by
  have hsize : 8 ≤ v.reply.size := by
    rw [h.size]
    decide
  unfold answerSize
  rcases answer_cases env q.type hsize with ⟨hzero, heq⟩ | ⟨hpos, r, hr, heq⟩
  · rw [heq, if_pos hzero]
    exact ⟨h, rfl, rfl, rfl⟩
  · rw [heq, if_neg hpos, ← hq]
    exact ⟨h.record hr, hr.cursor, rfl, rfl⟩

/-- The questions of the loop, and what their answers make of the
buffers. -/
inductive LoopResult (v : RecvVars) :
    Option (List Question) → Option (RecvVars × Bool) → Prop
  | running : LoopResult v none none
  | answered {qs w dropped} (hpacked : Packed w)
      (hrend : w.rend = v.rend + answersSize qs)
      (hbuff : w.buff.InBounds ↔
        v.buff.InBounds ∧ ∀ q ∈ qs, q.name.length < dnsLen) :
      LoopResult v (some qs) (some (w, dropped))

/-- The loop adds the sizes of the questions it answers, and sets the
terminator of each name. -/
theorem questionLoop_result (fuel : Nat) (env : RecvEnv) (n : Nat)
    {v : RecvVars} (h : Packed v) (hbuff : v.buff.size = dnsLen) :
    LoopResult v (askedLoop fuel env.packet env.length n v.p)
      (questionLoop fuel env n v) := by
  induction n generalizing v with
  | zero => exact .answered h rfl (by simp)
  | succ n ih =>
      have hname := labelToStr_result fuel env.packet v.p env.length v.buff
      rw [hbuff] at hname
      unfold askedLoop questionLoop
      generalize labelToStr fuel env.packet v.p env.length v.buff dnsLen = r
        at hname
      generalize readName env.packet env.length dnsLen fuel _ = r' at hname ⊢
      cases hname with
      | running => exact .running
      | null hw =>
          refine .answered ⟨h.size, h.inBounds⟩ rfl ?_
          simpa using hw.inBounds
      | @name name buff hs =>
          have hpacked : Packed
              { v with
                p := name.finish + sizeofDnsQuestionFooter
                buff := buff } := ⟨h.size, h.inBounds⟩
          obtain ⟨hpacked', hrend', hbuff', hp'⟩ := answer_packed env
            (q :=
              { name := name.text
                type := ntohs env.packet name.finish })
            hpacked hs.text
          have hrest := ih hpacked'
            (by rw [hbuff', hs.size, hbuff])
          rw [hp'] at hrest
          dsimp only at hrest hbuff' ⊢
          generalize askedLoop fuel env.packet env.length n _ = a
            at hrest ⊢
          generalize questionLoop fuel env n _ = b at hrest ⊢
          cases hrest with
          | running => exact .running
          | answered hw hrend hin =>
              refine .answered hw ?_ ?_
              · rw [hrend, hrend', answersSize, Nat.add_assoc]
              · rw [hin, hbuff', hs.inBounds, hbuff, List.forall_mem_cons]
                tauto

-- ============================================================ the datagram

/-- What is ignored is not written. -/
theorem recvLaw_ignored {env : RecvEnv} (hlen : env.length ≤ dnsLen) :
    RecvLaw (ignored env) :=
  ⟨Slots.inBounds_array dnsLen _, Slots.inBounds_array dnsLen _, hlen⟩

/-- The copy of an accepted datagram fits. -/
theorem packed_copied {env : RecvEnv}
    (hhdr : sizeofDnsHeader ≤ env.length) : Packed (copied env) := by
  have hne : slice env.packet 0 env.length ≠ [] := by
    rw [← List.length_pos_iff, slice_length]
    exact lt_of_lt_of_le (by decide) hhdr
  refine ⟨Slots.writeAll_size .., ?_⟩
  simp only [copied, Slots.inBounds_write, Slots.inBounds_writeAll hne,
    slice_length, Slots.writeAll_size, Nat.zero_add, Slots.array_size,
    Slots.inBounds_array, and_true]
  exact and_iff_right (by decide)

/-- What is accepted has a header. -/
theorem header_of_accepted {packet : Nat → UInt8} {length : Nat}
    (h : accepted packet length = true) : sizeofDnsHeader ≤ length := by
  simp only [accepted, Bool.and_eq_true, decide_eq_true_eq] at h
  exact h.1.1.2

/-- `captdnsRecv` writes inside its arrays exactly when every name is
shorter than the buffer, and the datagram and its answers fit the reply.

`asked` is what the call reads of the questions, whether or not it has
written astray before; so the condition can be said of a run that has gone
wrong, and is one on the datagram alone. -/
theorem recvLaw_iff {fuel : Nat} {env : RecvEnv} {out : RecvOut}
    (hlen : env.length ≤ dnsLen) (h : captdnsRecv fuel env = some out) :
    RecvLaw out ↔ ∃ qs, asked fuel env.packet env.length = some qs ∧
      Fits env.length qs := by
  unfold captdnsRecv at h
  unfold asked
  split at h
  case isFalse hno =>
      rw [if_neg hno, ← Option.some.inj h]
      exact iff_of_true (recvLaw_ignored hlen)
        ⟨[], rfl, fun _ hq => absurd hq List.not_mem_nil, hlen⟩
  case isTrue hyes =>
      rw [if_pos hyes]
      have hpacked := packed_copied (header_of_accepted hyes)
      have hloop := questionLoop_result fuel env (qdcount env.packet)
        hpacked rfl
      have hp : (copied env).p = sizeofDnsHeader := rfl
      rw [hp] at hloop
      generalize questionLoop fuel env _ _ = b at h hloop
      generalize askedLoop fuel env.packet env.length _ _ = a at hloop ⊢
      cases hloop with
      | running => cases h
      | @answered qs w dropped hw hrend hbuff =>
          rw [← Option.some.inj h]
          have hin : (copied env).buff.InBounds :=
            Slots.inBounds_array dnsLen _
          have hstart : (copied env).rend = env.length := rfl
          rw [hstart] at hrend
          constructor
          · intro h
            obtain ⟨hreply, hbuff', hle⟩ := h
            exact ⟨qs, rfl, (hbuff.mp hbuff').2, hrend ▸ hle⟩
          · intro h
            obtain ⟨qs', heq, hnames, htotal⟩ := h
            obtain rfl : qs = qs' := Option.some.inj heq
            have hle : w.rend ≤ dnsLen := hrend ▸ htotal
            exact ⟨hw.inBounds.mpr hle, hbuff.mpr ⟨hin, hnames⟩, hle⟩

/-- A query for the address of "a" in a datagram of this length, the rest
of it zero. -/
def queryA (length : Nat) : RecvEnv where
  packet p := [0, 1, 1, 0, 0, 1, 0, 0, 0, 0, 0, 0,
    1, 0x61, 0, 0, 1, 0, 1].getD p 0
  length := length
  ip := (192, 168, 4, 1)
  buff _ := 0
  reply _ := 0

/-- Sent without padding, it is answered inside the arrays. -/
theorem recvLaw_short : ∃ out, captdnsRecv 1 (queryA 19) = some out ∧
    RecvLaw out := by
  obtain ⟨out, hout⟩ : ∃ out, captdnsRecv 1 (queryA 19) = some out :=
    Option.isSome_iff_exists.mp (by decide +kernel)
  refine ⟨out, hout, (recvLaw_iff (by decide) hout).mpr ⟨_, rfl, ?_, ?_⟩⟩
  · decide +kernel
  · decide +kernel

/-- Padded to 512 bytes, it has its answer written behind the reply. -/
theorem recvLaw_fails : (queryA 512).length ≤ dnsLen ∧
    ∃ out, captdnsRecv 1 (queryA 512) = some out ∧ ¬ RecvLaw out := by
  have hbad : (captdnsRecv 1 (queryA 512)).any
      (fun out => !decide out.reply.InBounds) = true := by
    decide +kernel
  obtain ⟨out, hout, hreply⟩ := (Option.any_eq_true _ _).mp hbad
  refine ⟨le_refl dnsLen, out, hout, fun hlaw => ?_⟩
  simp [hlaw.reply] at hreply

end ShZ001.Dns
