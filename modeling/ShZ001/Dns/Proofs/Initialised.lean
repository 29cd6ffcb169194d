/-
Which bytes of the reply have been written when it is sent (captdns.c
168–265).

# Where bytes are passed over

The cursor moves over the whole header of a record at once, and the
fields are then set one by one. The `ttl` has four bytes. For an address
record it is set with `setn32`; for a name server or URI record with
`setn16`, which leaves its last two bytes as the stack had them. Nothing
else is passed over, so a reply is written in full exactly if no
question asks for a name server or a URI.

# Following the writes

`Laid` says of one record which positions it writes and which it leaves
out (`gap`); `addRecords_complete` adds the records up. The count of
answers in the header is written again with each record and read before,
so the header has to be complete from the start (`Begun`).

# Two stacks

A reply is a `Twin` of the one that another stack would have given
(`Lib/Twin.lean`): the same writes to another memory. So this is also
when the bytes that are sent do not depend on the stack, and both forms
are proved equivalent to the same condition on the questions
(`initialised_iff`).
-/
import ShZ001.Lib.Twin
import ShZ001.Dns.Answer
import ShZ001.Dns.Proofs.Overflow

namespace ShZ001.Dns

open Lib

-- ================================================================== the law

/-- Every byte that is sent was written in the call. -/
def Covered (env : RecvEnv) : Prop :=
  ∀ fuel out, captdnsRecv fuel env = some out → out.sent ≠ none →
    ∀ p < out.rend, p ∈ out.reply.touched

/-- What is sent does not depend on what `reply` first held. -/
def Independent (env : RecvEnv) : Prop :=
  ∀ reply r, Sends { env with reply := reply } r ↔ Sends env r

/-- An answered datagram does not ask for a name server or a URI. -/
def NoHalfTtl (env : RecvEnv) : Prop :=
  ∀ fuel a, readDatagram fuel env.packet env.length = some a →
    a.dropped = false →
    ∀ q ∈ a.questions, q.type ≠ qtypeNS ∧ q.type ≠ qtypeURI

-- ============================================================ what is written

/-- The encoder writes every byte from the current length byte on. -/
theorem mem_touched_strLoop {str : List UInt8} {len p q : Nat}
    {s : Slots UInt8} :
    q ∈ (strLoop str len p s).2.touched ↔
      q = len ∨ (p ≤ q ∧ q < p + str.length + 1) ∨ q ∈ s.touched := by
  induction str generalizing len p s with
  | nil =>
      simp only [strLoop, Slots.mem_touched_write, List.length_nil,
        ← or_assoc]
      exact or_congr_left (by omega)
  | cons c str ih =>
      unfold strLoop
      split
      · rw [ih, Slots.mem_touched_write, List.length_cons]
        simp only [← or_assoc]
        exact or_congr_left (by omega)
      · rw [ih, Slots.mem_touched_write, List.length_cons]
        simp only [← or_assoc]
        exact or_congr_left (by omega)

@[simp] theorem mem_touched_setn16 {pp n q : Nat} {s : Slots UInt8} :
    q ∈ (setn16 pp n s).touched ↔
      (pp ≤ q ∧ q < pp + 2) ∨ q ∈ s.touched := Slots.mem_touched_writeAll

@[simp] theorem mem_touched_setn32 {pp n q : Nat} {s : Slots UInt8} :
    q ∈ (setn32 pp n s).touched ↔
      (pp ≤ q ∧ q < pp + 4) ∨ q ∈ s.touched := Slots.mem_touched_writeAll

@[simp] theorem mem_touched_countAnswer {q : Nat} {s : Slots UInt8} :
    q ∈ (countAnswer s).touched ↔ (6 ≤ q ∧ q < 8) ∨ q ∈ s.touched :=
  mem_touched_setn16

/-- What is written from `p` on: all up to the cursor but `gap`, and the
count of the header. -/
structure Laid (p : Nat) (s : Slots UInt8) (gap : List Nat)
    (r : Nat × Slots UInt8) : Prop where
  cursor : p ≤ r.1
  skipped : ∀ q ∈ gap, p ≤ q ∧ q < r.1
  touched : ∀ q, q ∈ r.2.touched ↔
    q = 6 ∨ q = 7 ∨ (p ≤ q ∧ q < r.1 ∧ q ∉ gap) ∨ q ∈ s.touched

/-- An address record is written without a gap. -/
theorem recordA_laid (ip : UInt8 × UInt8 × UInt8 × UInt8) (rf : Nat)
    (s : Slots UInt8) : Laid rf s [] (recordA ip rf s) := by
  refine ⟨by simp [recordA]; omega, by simp, fun q => ?_⟩
  simp only [recordA, mem_touched_countAnswer, Slots.mem_touched_writeAll,
    mem_touched_setn16, mem_touched_setn32, sizeofDnsResourceFooter,
    List.length_cons, List.length_nil, List.not_mem_nil, not_false_eq_true,
    and_true, ← or_assoc]
  exact or_congr_left (by omega)

/-- The last two bytes of the `ttl` are passed over. -/
theorem recordNS_laid (rf : Nat) (s : Slots UInt8) :
    Laid rf s [rf + 6, rf + 7] (recordNS rf s) := by
  refine ⟨by simp [recordNS]; omega,
    by simp [recordNS, sizeofDnsResourceFooter], fun q => ?_⟩
  simp only [recordNS, mem_touched_countAnswer, Slots.mem_touched_writeAll,
    mem_touched_setn16, sizeofDnsResourceFooter, List.length_cons,
    List.length_nil, List.mem_cons, List.not_mem_nil, or_false,
    ← or_assoc]
  exact or_congr_left (by omega)

/-- And so they are in a URI record. -/
theorem recordURI_laid (rf : Nat) (s : Slots UInt8) :
    Laid rf s [rf + 6, rf + 7] (recordURI rf s) := by
  have huri : (bytes "http://esp.nonet").length = 16 := by decide
  refine ⟨by simp [recordURI]; omega,
    by simp [recordURI, sizeofDnsResourceFooter, sizeofDnsUriHdr],
    fun q => ?_⟩
  simp only [recordURI, mem_touched_countAnswer,
    Slots.mem_touched_writeAll, mem_touched_setn16, huri,
    sizeofDnsResourceFooter, sizeofDnsUriHdr, List.mem_cons,
    List.not_mem_nil, or_false, ← or_assoc]
  exact or_congr_left (by omega)

/-- A record behind its owner name. -/
theorem Laid.named {rend : Nat} {str : List UInt8} {s : Slots UInt8}
    {gap : List Nat} {r : Nat × Slots UInt8}
    (h : Laid (strToLabel str rend s).1 (strToLabel str rend s).2 gap r) :
    Laid rend s gap r := by
  have hcur : (strToLabel str rend s).1 = rend + 1 + str.length + 1 :=
    strLoop_cursor ..
  have hmem : ∀ q, q ∈ (strToLabel str rend s).2.touched ↔ _ :=
    fun q => mem_touched_strLoop
  obtain ⟨hle, hgap, htouched⟩ := h
  rw [hcur] at hle hgap htouched
  refine ⟨by omega, fun q hq => ⟨by have := hgap q hq; omega, (hgap q hq).2⟩,
    fun q => ?_⟩
  rw [htouched, hmem]
  simp only [← or_assoc]
  refine or_congr_left ?_
  by_cases hq : q ∈ gap
  · have hlt := (hgap q hq).1
    simp only [hq, not_true_eq_false, and_false, or_false]
    omega
  · simp only [hq, not_false_eq_true, and_true]
    omega

/-- What a question of each type leaves unwritten of its record. -/
theorem addRecord_laid (ip : UInt8 × UInt8 × UInt8 × UInt8) (q : Question)
    (w : Nat × Slots UInt8) :
    addRecord ip q w = w ∧ q.type ≠ qtypeNS ∧ q.type ≠ qtypeURI ∨
    ∃ gap, Laid w.1 w.2 gap (addRecord ip q w) ∧
      (gap = [] ↔ q.type ≠ qtypeNS ∧ q.type ≠ qtypeURI) := by
  unfold addRecord
  dsimp only
  split_ifs with hA hNS hURI
  · refine .inr ⟨[], (recordA_laid ..).named, ?_⟩
    rw [hA]
    exact iff_of_true rfl (by decide)
  · exact .inr ⟨_, (recordNS_laid ..).named,
      iff_of_false (List.cons_ne_nil _ _) fun h => h.1 hNS⟩
  · exact .inr ⟨_, (recordURI_laid ..).named,
      iff_of_false (List.cons_ne_nil _ _) fun h => h.2 hURI⟩
  · exact .inl ⟨rfl, hNS, hURI⟩

-- ============================================================ the questions

/-- The header has been written, and nothing behind the cursor. -/
structure Begun (w : Nat × Slots UInt8) : Prop where
  cursor : 8 ≤ w.1
  count : 6 ∈ w.2.touched ∧ 7 ∈ w.2.touched
  below : ∀ p ∈ w.2.touched, p < w.1

/-- Everything before the cursor has been. -/
def Complete (w : Nat × Slots UInt8) : Prop := ∀ p < w.1, p ∈ w.2.touched

section

variable {w r : Nat × Slots UInt8} {gap : List Nat}
  (hw : Begun w) (h : Laid w.1 w.2 gap r)

include hw h

/-- The header stays written. -/
theorem Laid.begun : Begun r := by
  have hcursor := hw.cursor
  have hle := h.cursor
  refine ⟨by omega, ⟨(h.touched 6).mpr (.inl rfl),
    (h.touched 7).mpr (.inr (.inl rfl))⟩, fun p hp => ?_⟩
  rcases (h.touched p).mp hp with rfl | rfl | hin | hold
  · omega
  · omega
  · exact hin.2.1
  · exact lt_of_lt_of_le (hw.below p hold) hle

/-- What is before the record and the record are complete if the first was
and nothing of the second is left out. -/
theorem Laid.complete : Complete r ↔ Complete w ∧ gap = [] := by
  have hle := h.cursor
  constructor
  · intro hr
    constructor
    · intro p hp
      rcases (h.touched p).mp (hr p (by omega)) with rfl | rfl | hin | hold
      · exact hw.count.1
      · exact hw.count.2
      · exact absurd hin.1 (by omega)
      · exact hold
    · by_contra hne
      obtain ⟨q, hq⟩ := List.exists_mem_of_ne_nil gap hne
      obtain ⟨hge, hlt⟩ := h.skipped q hq
      have hcursor := hw.cursor
      -- a byte that is passed over stays unwritten
      rcases (h.touched q).mp (hr q hlt) with rfl | rfl | hin | hold
      · omega
      · omega
      · exact hin.2.2 hq
      · exact absurd (hw.below q hold) (by omega)
  · intro h p hp
    obtain ⟨hold, rfl⟩ := h
    rw [h.touched]
    rcases Nat.lt_or_ge p w.1 with hlt | hge
    · exact .inr (.inr (.inr (hold p hlt)))
    · exact .inr (.inr (.inl ⟨hge, hp, List.not_mem_nil⟩))

end

/-- The reply is written in full exactly if it was before, and no question
leaves a `ttl` half set. -/
theorem addRecords_complete (ip : UInt8 × UInt8 × UInt8 × UInt8)
    (qs : List Question) {w : Nat × Slots UInt8} (hw : Begun w) :
    Complete (addRecords ip qs w) ↔ Complete w ∧
      ∀ q ∈ qs, q.type ≠ qtypeNS ∧ q.type ≠ qtypeURI := by
  induction qs generalizing w with
  | nil => simp [addRecords]
  | cons q qs ih =>
      rw [addRecords, List.forall_mem_cons]
      rcases addRecord_laid ip q w with ⟨heq, hq⟩ | ⟨gap, hlaid, hgap⟩
      · rw [heq, ih hw, and_iff_right hq]
      · rw [ih (hlaid.begun hw), hlaid.complete hw, hgap, and_assoc]

-- ============================================================ two memories

/-- Two replies that differ in what the stack held, the count of the
header apart. -/
structure TwinReply (init init' : Nat → UInt8) (s s' : Slots UInt8) : Prop
    extends Twin init init' s s' where
  count : 6 ∈ s.touched ∧ 7 ∈ s.touched

/-- The same with their cursors. -/
structure TwinVars (init init' : Nat → UInt8)
    (w w' : Nat × Slots UInt8) : Prop where
  cursor : w'.1 = w.1
  reply : TwinReply init init' w.2 w'.2

section

variable {init init' : Nat → UInt8} {s s' : Slots UInt8}

/-- The same writes keep two replies twins; the count has been written
before. -/
theorem TwinReply.write (h : TwinReply init init' s s') (p : Nat)
    (v : UInt8) : TwinReply init init' (s.write p v) (s'.write p v) :=
  ⟨h.toTwin.write p v, Slots.mem_touched_write.mpr (.inr h.count.1),
    Slots.mem_touched_write.mpr (.inr h.count.2)⟩

theorem TwinReply.writeAll (h : TwinReply init init' s s') (p : Nat)
    (vs : List UInt8) :
    TwinReply init init' (s.writeAll p vs) (s'.writeAll p vs) :=
  ⟨h.toTwin.writeAll p vs,
    Slots.mem_touched_writeAll.mpr (.inr h.count.1),
    Slots.mem_touched_writeAll.mpr (.inr h.count.2)⟩

theorem TwinReply.setn16 (h : TwinReply init init' s s') (p n : Nat) :
    TwinReply init init' (setn16 p n s) (setn16 p n s') := h.writeAll ..

theorem TwinReply.setn32 (h : TwinReply init init' s s') (p n : Nat) :
    TwinReply init init' (setn32 p n s) (setn32 p n s') := h.writeAll ..

/-- The count that is read has been written. -/
theorem TwinReply.counted (h : TwinReply init init' s s') :
    TwinReply init init' (countAnswer s) (countAnswer s') := by
  have hcount : ntohs s'.cell 6 = ntohs s.cell 6 := by
    unfold ntohs
    rw [h.written 6 h.count.1, h.written 7 h.count.2]
  unfold countAnswer
  rw [hcount]
  exact h.setn16 ..

/-- The encoder looks at the text alone, so it goes the same way in both.
-/
theorem TwinReply.strLoop (str : List UInt8) (len p : Nat)
    (h : TwinReply init init' s s') :
    TwinVars init init' (strLoop str len p s) (strLoop str len p s') := by
  induction str generalizing len p s s' with
  | nil => exact ⟨rfl, (h.write ..).write ..⟩
  | cons c str ih =>
      unfold Dns.strLoop
      split
      · exact ih _ _ (h.write ..)
      · exact ih _ _ (h.write ..)

/-- A record looks at the count of the header, which agrees. -/
theorem TwinReply.recordA (ip : UInt8 × UInt8 × UInt8 × UInt8) (rf : Nat)
    (h : TwinReply init init' s s') :
    TwinVars init init' (recordA ip rf s) (recordA ip rf s') := by
  have h := h.setn16 rf qtypeA
  have h := h.setn16 (rf + 2) qclassIN
  have h := h.setn32 (rf + 4) 0
  have h := h.setn16 (rf + 8) 4
  exact ⟨rfl, (h.writeAll ..).counted⟩

theorem TwinReply.recordNS (rf : Nat) (h : TwinReply init init' s s') :
    TwinVars init init' (recordNS rf s) (recordNS rf s') := by
  have h := h.setn16 rf qtypeNS
  have h := h.setn16 (rf + 2) qclassIN
  have h := h.setn16 (rf + 4) 0
  have h := h.setn16 (rf + 8) 4
  exact ⟨rfl, (h.writeAll ..).counted⟩

theorem TwinReply.recordURI (rf : Nat) (h : TwinReply init init' s s') :
    TwinVars init init' (recordURI rf s) (recordURI rf s') := by
  have h := h.setn16 rf qtypeURI
  have h := h.setn16 (rf + 2) qclassURI
  have h := h.setn16 (rf + 4) 0
  have h := h.setn16 (rf + 8) (4 + 16)
  have h := h.setn16 (rf + sizeofDnsResourceFooter) 10
  have h := h.setn16 (rf + sizeofDnsResourceFooter + 2) 1
  exact ⟨rfl, (h.writeAll ..).counted⟩

/-- The type of the question decides which record it is, in both. -/
theorem TwinVars.addRecord (ip : UInt8 × UInt8 × UInt8 × UInt8)
    (q : Question) {w w' : Nat × Slots UInt8}
    (h : TwinVars init init' w w') :
    TwinVars init init' (addRecord ip q w) (addRecord ip q w') := by
  have hname := h.reply.strLoop (cstr q.name) w.1 (w.1 + 1)
  unfold Dns.addRecord strToLabel
  dsimp only
  rw [h.cursor, hname.cursor]
  split_ifs
  · exact hname.reply.recordA ..
  · exact hname.reply.recordNS ..
  · exact hname.reply.recordURI ..
  · exact h

/-- So do all records, one behind the other. -/
theorem TwinVars.addRecords (ip : UInt8 × UInt8 × UInt8 × UInt8)
    (qs : List Question) {w w' : Nat × Slots UInt8}
    (h : TwinVars init init' w w') :
    TwinVars init init' (addRecords ip qs w) (addRecords ip qs w') := by
  induction qs generalizing w w' with
  | nil => exact h
  | cons q qs ih => exact ih (h.addRecord ip q)

end

-- ============================================================== the datagram

section

variable {env : RecvEnv} (hhdr : sizeofDnsHeader ≤ env.length)

include hhdr

/-- The copy of the request writes as many bytes as it has. -/
theorem copied_touched {p : Nat} :
    p ∈ (copied env).reply.touched ↔ p < env.length := by
  have hlen : 12 ≤ env.length := hhdr
  simp only [copied, Slots.mem_touched_write, Slots.mem_touched_writeAll,
    slice_length, Slots.array, List.not_mem_nil, or_false]
  omega

/-- That is the header at least. -/
theorem begun_copied : Begun (copied env).written := by
  have hlen : 12 ≤ env.length := hhdr
  refine ⟨by show 8 ≤ env.length; omega, ⟨?_, ?_⟩, fun p hp => ?_⟩
  · exact (copied_touched hhdr).mpr (by omega)
  · exact (copied_touched hhdr).mpr (by omega)
  · exact (copied_touched hhdr).mp hp

/-- And nothing before the cursor is left out. -/
theorem complete_copied : Complete (copied env).written :=
  fun _ hp => (copied_touched hhdr).mpr hp

/-- The flags that are read for the response bit are those of the
request. -/
theorem twin_copied (reply : Nat → UInt8) :
    TwinVars env.reply reply (copied env).written
      (copied { env with reply := reply }).written := by
  have hlen : 12 ≤ env.length := hhdr
  have hstart : Twin env.reply reply (.array dnsLen env.reply)
      (.array dnsLen reply) := .start dnsLen
  have htwin := hstart.writeAll 0 (slice env.packet 0 env.length)
  have hmem : ∀ p < env.length, p ∈ ((Slots.array dnsLen env.reply).writeAll
      0 (slice env.packet 0 env.length)).touched := fun p hp =>
    Slots.mem_touched_writeAll.mpr (.inl ⟨Nat.zero_le p, by simpa using hp⟩)
  have hflags := htwin.written 2 (hmem 2 (by omega))
  have hreply : TwinReply env.reply reply _ _ :=
    ⟨htwin, hmem 6 (by omega), hmem 7 (by omega)⟩
  refine ⟨rfl, ?_⟩
  unfold RecvVars.written copied
  dsimp only
  rw [hflags]
  exact hreply.write ..

end

/-- The cursor and the reply behind an answered datagram. -/
theorem answered_records {fuel : Nat} {env : RecvEnv} {out : RecvOut}
    (h : captdnsRecv fuel env = some out) (hsent : out.sent ≠ none) :
    ∃ a, readDatagram fuel env.packet env.length = some a ∧
      a.dropped = false ∧
      (out.rend, out.reply)
        = addRecords env.ip a.questions (copied env).written := by
  unfold captdnsRecv at h
  unfold readDatagram
  split at h
  case isFalse hno =>
      rw [← Option.some.inj h] at hsent
      exact absurd rfl hsent
  case isTrue hyes =>
      rw [if_pos hyes]
      have hloop := questionLoop_reads fuel env (qdcount env.packet)
        (v := copied env) rfl
      have hp : (copied env).p = sizeofDnsHeader := rfl
      rw [hp] at hloop
      generalize questionLoop fuel env _ _ = b at h hloop
      generalize readQuestions fuel env.packet env.length _ _ = a
        at hloop ⊢
      cases hloop with
      | running => cases h
      | @read a w hw =>
          rw [← Option.some.inj h] at hsent ⊢
          refine ⟨a, rfl, ?_, hw⟩
          by_contra hd
          exact hsent (if_pos (by simpa using hd))

/-- A datagram that is not dropped has been accepted. -/
theorem accepted_of_read {fuel : Nat} {packet : Nat → UInt8} {length : Nat}
    {a : Asked} (h : readDatagram fuel packet length = some a)
    (hd : a.dropped = false) : accepted packet length = true := by
  unfold readDatagram at h
  split at h
  case isTrue hyes => exact hyes
  case isFalse =>
      rw [← Option.some.inj h] at hd
      cases hd

section

variable {env : RecvEnv} {fuel : Nat} {a : Asked}
  (ha : readDatagram fuel env.packet env.length = some a)
  (hd : a.dropped = false)

include ha hd

/-- An answer is written in full exactly if no question leaves a `ttl`
half set. -/
theorem complete_iff :
    Complete (addRecords env.ip a.questions (copied env).written) ↔
      ∀ q ∈ a.questions, q.type ≠ qtypeNS ∧ q.type ≠ qtypeURI := by
  have hhdr := header_of_accepted (accepted_of_read ha hd)
  rw [addRecords_complete env.ip a.questions (begun_copied hhdr)]
  exact and_iff_right (complete_copied hhdr)

/-- The reply with its records on two stacks. -/
theorem twin_records (reply : Nat → UInt8) :
    TwinVars env.reply reply
      (addRecords env.ip a.questions (copied env).written)
      (addRecords env.ip a.questions
        (copied { env with reply := reply }).written) := by
  have hhdr := header_of_accepted (accepted_of_read ha hd)
  exact (twin_copied hhdr reply).addRecords env.ip a.questions

end

/-- Every byte sent was written exactly if every answered datagram's reply
is. -/
theorem covered_iff {env : RecvEnv} :
    Covered env ↔ ∀ fuel a,
      readDatagram fuel env.packet env.length = some a →
      a.dropped = false →
      Complete (addRecords env.ip a.questions (copied env).written) := by
  constructor
  · intro h fuel a ha hd
    have hmap := captdnsRecv_sent fuel env
    rw [ha, Option.map_some, Option.map_eq_some_iff] at hmap
    obtain ⟨out, hout, hsent⟩ := hmap
    have hne : out.sent ≠ none := by
      rw [hsent, Asked.reply, hd]
      exact Option.some_ne_none _
    obtain ⟨a', ha', -, hrec⟩ := answered_records hout hne
    rw [← readDatagram_unique ha' ha, ← hrec]
    exact h fuel out hout hne
  · intro h fuel out hout hne
    obtain ⟨a, ha, hd, hrec⟩ := answered_records hout hne
    have hcomplete := h fuel a ha hd
    rw [← hrec] at hcomplete
    exact hcomplete

/-- The bytes sent do not depend on the stack exactly if all of them were
written. -/
theorem independent_iff_covered {env : RecvEnv} :
    Independent env ↔ Covered env := by
  rw [covered_iff]
  constructor
  · intro h fuel a ha hd p hp
    -- a stack that differs everywhere
    have htwin := twin_records ha hd fun p => env.reply p + 1
    have hsame : replyBytes env a.questions
        = replyBytes { env with reply := fun p => env.reply p + 1 }
          a.questions :=
      Sends.unique (sends_iff.mpr ⟨fuel, a, ha, hd, rfl⟩)
        ((h (fun p => env.reply p + 1) _).mp
          (sends_iff.mpr ⟨fuel, a, ha, hd, rfl⟩))
    have hcell := congrArg (·[p]?) hsame.symm
    unfold replyBytes at hcell
    dsimp only at hcell
    rw [htwin.cursor, slice_getElem? _ _ _ hp, slice_getElem? _ _ _ hp,
      Nat.zero_add, Option.some.injEq] at hcell
    exact htwin.reply.toTwin.mem_of_agree (by simp) hcell
  · intro h reply r
    have hbytes : ∀ fuel a,
        readDatagram fuel env.packet env.length = some a →
        a.dropped = false →
        replyBytes { env with reply := reply } a.questions
          = replyBytes env a.questions := by
      intro fuel a ha hd
      have htwin := twin_records ha hd reply
      unfold replyBytes
      dsimp only
      rw [htwin.cursor]
      exact htwin.reply.toTwin.slice_eq fun q _ hq =>
        h fuel a ha hd q (by simpa using hq)
    rw [sends_iff, sends_iff]
    refine exists_congr fun fuel => exists_congr fun a => ?_
    refine and_congr_right fun ha => and_congr_right fun hd => ?_
    rw [hbytes fuel a ha hd]

/-- All of them are, exactly if no answered question is for a name server
or a URI. -/
theorem covered_iff_noHalfTtl {env : RecvEnv} :
    Covered env ↔ NoHalfTtl env := by
  rw [covered_iff]
  refine forall_congr' fun fuel => forall_congr' fun a => ?_
  exact forall_congr' fun ha => forall_congr' fun hd => complete_iff ha hd

/-- No unwritten byte is sent, and equally the bytes sent do not depend on
the stack, exactly if no answered question is for a name server or a URI.

The two forms differ in kind: the first is about which positions of the
reply have been written, the second about two calls on two stacks. The two
bytes are the lower half of the record's time to live. -/
theorem initialised_iff (env : RecvEnv) :
    (Covered env ↔ NoHalfTtl env) ∧ (Independent env ↔ NoHalfTtl env) :=
  ⟨covered_iff_noHalfTtl,
    independent_iff_covered.trans covered_iff_noHalfTtl⟩

/-- A question for the name server of "a". -/
def queryNS : RecvEnv where
  packet p := [0, 1, 1, 0, 0, 1, 0, 0, 0, 0, 0, 0,
    1, 0x61, 0, 0, 2, 0, 1].getD p 0
  length := 19
  ip := (192, 168, 4, 1)
  buff _ := 0
  reply _ := 0

/-- Its answer carries two bytes of the stack. -/
theorem initialised_fails :
    ¬ Covered queryNS ∧ ¬ Independent queryNS := by
  have hread : (readDatagram 1 queryNS.packet queryNS.length).any
      (fun a => !a.dropped && a.questions.any (·.type = qtypeNS)) = true := by
    decide +kernel
  obtain ⟨a, ha, hbad⟩ := (Option.any_eq_true _ _).mp hread
  rw [Bool.and_eq_true, List.any_eq_true] at hbad
  obtain ⟨hd, q, hq, htype⟩ := hbad
  have hno : ¬ Covered queryNS := fun h =>
    (covered_iff_noHalfTtl.mp h 1 a ha (by simpa using hd) q hq).1
      (by simpa using htype)
  exact ⟨hno, fun h => hno (independent_iff_covered.mp h)⟩

end ShZ001.Dns
