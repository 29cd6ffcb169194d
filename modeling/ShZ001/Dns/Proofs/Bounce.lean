/-
Whether the responder answers its own replies (captdns.c 180–265).

# No test of the response bit

The response bit is set in every reply and tested in none: line 183
("this is a reply") goes by the section counts. A reply with a record
has an answer count, since fewer records than would wrap it around fit
into 512 bytes, and is ignored (`silent_of_answered`). A reply without
one is the query again with the response bit set, and is answered with
itself.

# Exactly when

`silent_iff` is exact. The one other way for a reply to stay unanswered
is that the response bit makes the questions unreadable (`Unreadable`),
which takes a name that a pointer leads through the flags of the header.
That condition speaks of the datagram that was answered, with one bit
changed, and of nothing the call computes.
-/
import ShZ001.Dns.Proofs.Isolation

namespace ShZ001.Dns

open Lib

-- ================================================================== the law

/-- The reception of a datagram with these bytes. -/
structure Carries (env : RecvEnv) (r : List UInt8) : Prop where
  length : env.length = r.length
  bytes : slice env.packet 0 r.length = r

/-- Nothing is sent in answer, whatever else memory holds. -/
def Silent (r : List UInt8) : Prop :=
  ∀ env, Carries env r → ∀ r', ¬ Sends env r'

/-- The datagram asks a question that is answered with a record. -/
def AsksKnown (env : RecvEnv) : Prop :=
  ∃ fuel a, readDatagram fuel env.packet env.length = some a ∧
    answered a.questions ≠ []

/-- The datagram with the response bit set. -/
def marked (packet : Nat → UInt8) (p : Nat) : UInt8 :=
  if p = 2 then packet p ||| flagQR else packet p

/-- With the response bit set, the questions cannot all be read, whatever
is behind the datagram. -/
def Unreadable (packet : Nat → UInt8) (length : Nat) : Prop :=
  ∀ packet', (∀ p, p < length → packet' p = marked packet p) →
    ∀ fuel a, readQuestions fuel packet' length (qdcount packet)
      sizeofDnsHeader = some a → a.dropped = true

-- ================================================================ the header

/-- An accepted datagram has no answer count. -/
theorem no_ancount {packet : Nat → UInt8} {length : Nat}
    (h : accepted packet length = true) : ntohs packet 6 = 0 := by
  simp [accepted, hasRecords] at h
  exact h.1.2.1.1

/-- The response bit is none of what is looked at. -/
theorem accepted_marked (packet : Nat → UInt8) (length : Nat) :
    accepted (marked packet) length = accepted packet length := by
  have hbit : ∀ b : UInt8, (b ||| flagQR) &&& flagTC = b &&& flagTC := by
    intro b
    have hdistrib := Nat.and_or_distrib_right b.toNat 0x80 0x02
    exact UInt8.toNat_inj.mp (hdistrib.trans (Nat.or_zero _))
  unfold accepted hasRecords ntohs marked
  simp only [if_true, hbit, Nat.reduceAdd, Nat.reduceEqDiff, if_false]

/-- Nor is it among the counts. -/
theorem qdcount_marked (packet : Nat → UInt8) :
    qdcount (marked packet) = qdcount packet := rfl

/-- The reply before the first record: the marked datagram. -/
theorem copied_cell {env : RecvEnv}
    (hhdr : sizeofDnsHeader ≤ env.length) {k : Nat} (hk : k < env.length) :
    (copied env).reply.cell k = marked env.packet k := by
  have hlen : 2 < env.length := lt_of_lt_of_le (by decide) hhdr
  have hcopy : ∀ j, j < env.length → ((Slots.array dnsLen env.reply).writeAll
      0 (slice env.packet 0 env.length)).cell j = env.packet j := by
    intro j hj
    have hall := Slots.slice_writeAll_self 0 (slice env.packet 0 env.length)
      (Slots.array dnsLen env.reply)
    rw [slice_length] at hall
    have hget := congrArg (·[j]?) hall
    rw [slice_getElem? _ _ _ hj, slice_getElem? _ _ _ hj] at hget
    simpa using hget
  unfold copied marked
  split
  case isTrue h2 =>
      rw [h2, Slots.write_cell_self, hcopy 2 hlen]
  case isFalse h2 =>
      rw [Slots.write_cell_ne h2, hcopy k hk]

/-- The reply starts without answers. -/
theorem copied_ancount {env : RecvEnv}
    (hacc : accepted env.packet env.length = true) :
    ntohs (copied env).written.2.cell 6 = 0 := by
  have hhdr := header_of_accepted hacc
  have h12 : 12 ≤ env.length := hhdr
  have hcell : ∀ k, k < 12 → k ≠ 2 →
      (copied env).written.2.cell k = env.packet k := by
    intro k hk hk2
    show (copied env).reply.cell k = env.packet k
    rw [copied_cell hhdr (by omega), marked, if_neg hk2]
  rw [← no_ancount hacc]
  unfold ntohs
  rw [hcell 6 (by omega) (by omega), hcell 7 (by omega) (by omega)]

-- =============================================================== the replies

/-- Without its owner a record takes at least 14 bytes. -/
theorem recordBytes_length (ip : UInt8 × UInt8 × UInt8 × UInt8)
    (type : Nat) {ttl : List UInt8} (h : ttl.length = 2) :
    14 ≤ (recordBytes ip type ttl).length := by
  unfold recordBytes bytesA bytesNS bytesURI
  split_ifs
  · simp
  · simp [h]
  · simp [h]
    omega

/-- A record takes at least 16 bytes. -/
theorem recordsOf_length {ip : UInt8 × UInt8 × UInt8 × UInt8}
    {qs : List Question} {bs : List UInt8} (h : RecordsOf ip qs bs) :
    16 * qs.length ≤ bs.length := by
  induction h with
  | nil => exact Nat.le_refl _
  | @cons q qs bs ttl httl _ ih =>
      have hrec := recordBytes_length ip q.type httl
      simp only [List.length_cons, List.length_append, encodeText_length,
        List.length_nil]
      omega

/-- The reply to questions that get records: its length, and its answer
count. -/
theorem replyBytes_header {env : RecvEnv}
    (hacc : accepted env.packet env.length = true) (qs : List Question) :
    ∃ n, 16 * (answered qs).length ≤ n ∧
      (replyBytes env qs).length = env.length + n ∧
      ∀ env', Carries env' (replyBytes env qs) →
        ntohs env'.packet 6 = (answered qs).length % 65536 := by
  have hhdr := header_of_accepted hacc
  have hcur : (copied env).written.1 = env.length := rfl
  have h12 : 12 ≤ env.length := hhdr
  obtain ⟨bs, hof, hadd⟩ := addRecords_bytes env.ip qs
    (w := (copied env).written) (by rw [hcur]; omega)
  have hend := hadd.cursor
  rw [hcur] at hend
  have hlen : (replyBytes env qs).length = env.length + bs.length := by
    unfold replyBytes
    rw [slice_length, hend]
  refine ⟨bs.length, recordsOf_length hof, hlen, ?_⟩
  intro env' hcarry
  -- the count travels in the reply's bytes 6 and 7
  have hsame : ∀ k, k < 12 → env'.packet k
      = (addRecords env.ip qs (copied env).written).2.cell k := by
    intro k hk
    have hget := congrArg (·[k]?) hcarry.bytes
    have hlt : k < (replyBytes env qs).length := by omega
    rw [slice_getElem? _ _ _ hlt] at hget
    unfold replyBytes at hget
    rw [slice_getElem? _ _ _ (by omega)] at hget
    simpa using hget
  have hcount := hadd.count
  rw [copied_ancount hacc, Nat.zero_add] at hcount
  rw [← hcount]
  unfold ntohs
  rw [hsame 6 (by omega), hsame 7 (by omega)]

/-- A reply with a record is ignored. -/
theorem silent_of_answered {env : RecvEnv} {qs : List Question}
    (hacc : accepted env.packet env.length = true)
    (hqs : answered qs ≠ []) : Silent (replyBytes env qs) := by
  obtain ⟨n, hn, hlen, hcount⟩ := replyBytes_header hacc qs
  intro env' hcarry r'
  refine not_sends_of_ignored ?_
  have hpos := List.length_pos_iff.mpr hqs
  rcases Nat.lt_or_ge dnsLen env'.length with hlong | hshort
  · have hno : ¬ env'.length ≤ dnsLen := Nat.not_le.mpr hlong
    simp [accepted, hno]
  · -- at most 32 records fit, so the count is not a multiple of 65536
    have hfit : n ≤ 512 := by
      rw [hcarry.length, hlen] at hshort
      exact (Nat.le_add_left n env.length).trans hshort
    have hsome : ntohs env'.packet 6 ≠ 0 := by
      rw [hcount env' hcarry]
      omega
    simp [accepted, hasRecords, hsome]

/-- Without records the reply is the marked datagram. -/
theorem replyBytes_unanswered {env : RecvEnv} {qs : List Question}
    (hacc : accepted env.packet env.length = true)
    (hqs : answered qs = []) :
    replyBytes env qs = slice (marked env.packet) 0 env.length := by
  have hnone : ∀ (qs : List Question) w, answered qs = [] →
      addRecords env.ip qs w = w := by
    intro qs
    induction qs with
    | nil => exact fun _ _ => rfl
    | cons q qs ih =>
        intro w hqs
        unfold answered at hqs ih
        rw [List.filter_cons] at hqs
        split at hqs
        · cases hqs
        · rename_i hq
          rw [addRecords, addRecord_unknown (by simpa using hq), ih w hqs]
  unfold replyBytes
  rw [hnone qs _ hqs]
  refine slice_congr fun k hk => ?_
  rw [Nat.zero_add]
  exact copied_cell (header_of_accepted hacc) hk

-- ================================================================== the law

/-- Who carries the marked datagram holds it. -/
theorem carries_iff {env : RecvEnv} {packet : Nat → UInt8} {length : Nat} :
    Carries env (slice packet 0 length) ↔
      env.length = length ∧ ∀ p, p < length → env.packet p = packet p := by
  constructor
  · intro h
    obtain ⟨hlen, hbytes⟩ := h
    rw [slice_length] at hlen hbytes
    refine ⟨hlen, fun p hp => ?_⟩
    have hget := congrArg (·[p]?) hbytes
    rw [slice_getElem? _ _ _ hp, slice_getElem? _ _ _ hp] at hget
    simpa using hget
  · intro h
    obtain ⟨hlen, hagree⟩ := h
    refine ⟨by rw [slice_length, hlen], ?_⟩
    rw [slice_length]
    exact slice_congr fun k hk => by
      rw [Nat.zero_add]
      exact hagree k hk

/-- The marked datagram is read from its questions, as the datagram
was. -/
theorem readDatagram_marked {packet packet' : Nat → UInt8} {length : Nat}
    (hacc : accepted packet length = true)
    (hagree : ∀ p, p < length → packet' p = marked packet p) (fuel : Nat) :
    readDatagram fuel packet' length
      = readQuestions fuel packet' length (qdcount packet)
        sizeofDnsHeader := by
  have hacc' : accepted packet' length = true := by
    rw [accepted_agree hagree, accepted_marked, hacc]
  have hmarked : accepted (marked packet) length = true := by
    rw [accepted_marked, hacc]
  unfold readDatagram
  rw [if_pos hacc', qdcount_agree hagree hmarked, qdcount_marked]

/-- A reply is left unanswered exactly if one of the questions was of a
type that is answered, or the response bit makes the questions
unreadable. -/
theorem silent_iff {env : RecvEnv} {r : List UInt8} (h : Sends env r) :
    Silent r ↔ AsksKnown env ∨ Unreadable env.packet env.length := by
  have hacc := accepted_of_sends h
  obtain ⟨fuel, a, ha, hd, rfl⟩ := sends_iff.mp h
  by_cases hqs : answered a.questions = []
  · have hno : ¬ AsksKnown env := by
      intro h
      obtain ⟨fuel', a', ha', hqs'⟩ := h
      rw [readDatagram_unique ha' ha] at hqs'
      exact hqs' hqs
    rw [replyBytes_unanswered hacc hqs, or_iff_right hno]
    constructor
    · intro hsilent packet' hagree fuel' a' ha'
      by_contra hsent
      refine hsilent { env with packet := packet' }
        (carries_iff.mpr ⟨rfl, hagree⟩) _
        (sends_iff.mpr ⟨fuel', a', ?_, Bool.eq_false_iff.mpr hsent, rfl⟩)
      exact (readDatagram_marked hacc hagree fuel').trans ha'
    · intro hun env' hcarry r' hsends
      obtain ⟨hlen, hagree⟩ := carries_iff.mp hcarry
      obtain ⟨fuel', a', ha', hd', -⟩ := sends_iff.mp hsends
      rw [hlen, readDatagram_marked hacc hagree] at ha'
      rw [hun env'.packet hagree fuel' a' ha'] at hd'
      cases hd'
  · exact iff_of_true (silent_of_answered hacc hqs)
      (.inl ⟨fuel, a, ha, hqs⟩)

/-- A query for the IPv6 address of "a". -/
def queryAAAA (flags : UInt8) : RecvEnv where
  packet p := [0, 1, flags, 0, 0, 1, 0, 0, 0, 0, 0, 0,
    1, 0x61, 0, 0, 28, 0, 1].getD p 0
  length := 19
  ip := (192, 168, 4, 1)
  buff _ := 0
  reply _ := 0

/-- It is sent back with the response bit set, and so is what was sent
back. -/
theorem silent_fails : ∃ r, Sends (queryAAAA 0x01) r ∧ r.length ≤ dnsLen ∧
    Carries (queryAAAA 0x81) r ∧ Sends (queryAAAA 0x81) r ∧ ¬ Silent r := by
  have hsends : ∀ flags, (captdnsRecv 1 (queryAAAA flags)).any
      (fun out => out.sent = some (slice (queryAAAA 0x81).packet 0 19))
        = true →
      Sends (queryAAAA flags) (slice (queryAAAA 0x81).packet 0 19) := by
    intro flags h
    obtain ⟨out, hout, hsent⟩ := (Option.any_eq_true _ _).mp h
    exact ⟨1, out, hout, of_decide_eq_true hsent⟩
  have hquery := hsends 0x01 (by decide +kernel)
  have hreply := hsends 0x81 (by decide +kernel)
  have hcarry : Carries (queryAAAA 0x81)
      (slice (queryAAAA 0x81).packet 0 19) := carries_iff.mpr ⟨rfl, by simp⟩
  exact ⟨_, hquery, by decide, hcarry, hreply,
    fun hsilent => hsilent _ hcarry _ hreply⟩

/-- The answer to a query for an address is not answered. -/
theorem silent_iff_queryA : ∃ r, Sends (queryA 19) r ∧ Silent r := by
  have hany : (captdnsRecv 1 (queryA 19)).any
      (fun out => out.sent.isSome) = true := by decide +kernel
  obtain ⟨out, hout, hsent⟩ := (Option.any_eq_true _ _).mp hany
  obtain ⟨r, hr⟩ := Option.isSome_iff_exists.mp hsent
  have hsends : Sends (queryA 19) r := ⟨1, out, hout, hr⟩
  refine ⟨r, hsends, (silent_iff hsends).mpr (.inl ⟨1, _, rfl, ?_⟩)⟩
  decide +kernel

end ShZ001.Dns
