/-
What the responder does over a whole run (captdns.c 168–306).

# Two laws

Both are about its log, in every run in which no answer outgrows the
arrays of `captdnsRecv` (`Fitting`; what happens otherwise is not the
model's to say). One is about safety: nothing is sent but in answer to
the datagram just received, once, to who sent it, and it is a `ReplyTo`
that datagram (`server_accounts`). The other says that a proper query is
always answered: the step that answers it exists, whatever datagrams,
errors and losses came before (`query_served`).

# The invariant

`Served` says that the task holds the top of the log: while a datagram
is being handled the receive buffer has its bytes, and between two calls
the top is no reception. So what `captdnsRecv` is called with is what
was taken last, although the buffer is one and the network goes on in
between. `StepEffect` is what a step can do to the phase and the log;
each effect keeps the invariant.

# From one answer to the run

What one call sends is known from elsewhere: that it stays inside the
arrays (`Overflow.lean`), what it consists of (`Records.lean`), that a
query's answer decodes (`Roundtrip.lean`), and that it does not depend
on the rest of the buffer for such a datagram.
-/
import ShZ001.Dns.Server
import ShZ001.Dns.Proofs.Initialised
import ShZ001.Dns.Proofs.Roundtrip

namespace ShZ001.Dns

open Lib

-- =============================================================== one answer

/-- The reply repeats the request, marked as a response, and behind it
has as many records as it counts, each for a question of a type that is
answered. The request was none itself. -/
structure ReplyTo (ip : UInt8 × UInt8 × UInt8 × UInt8)
    (request r : List UInt8) : Prop where
  header : sizeofDnsHeader ≤ request.length
  noRecords : ∀ k, 6 ≤ k → k < 12 → request[k]? = some 0
  copy : ∀ k, k < request.length → k ≠ 2 → k ≠ 6 → k ≠ 7 →
    r[k]? = request[k]?
  flags : ∃ b, request[2]? = some b ∧ b &&& flagTC = 0 ∧
    r[2]? = some (b ||| flagQR)
  records : ∃ qs, (∀ q ∈ qs, recordSize q.type ≠ 0) ∧
    RecordsOf ip qs (r.drop request.length) ∧
    r[6]? = some 0 ∧ r[7]? = some qs.length.toUInt8
  fits : r.length ≤ dnsLen

/-- The bytes at two places, from the number they spell. -/
theorem bytes_of_ntohs {mem : Nat → UInt8} {p n : Nat} (hn : n < 256)
    (h : ntohs mem p = n) : mem p = 0 ∧ mem (p + 1) = n.toUInt8 := by
  have hhi := (mem p).toNat_lt
  have hlo := (mem (p + 1)).toNat_lt
  unfold ntohs at h
  refine ⟨UInt8.toNat_inj.mp ?_, UInt8.toNat_inj.mp ?_⟩
  · show (mem p).toNat = 0
    omega
  · rw [Nat.toUInt8, UInt8.toNat_ofNat']
    omega

/-- What is sent, from the cursor and the memory. -/
theorem sent_eq {fuel : Nat} {env : RecvEnv} {out : RecvOut}
    {r : List UInt8} (hout : captdnsRecv fuel env = some out)
    (hsent : out.sent = some r) : r = slice out.reply.cell 0 out.rend := by
  unfold captdnsRecv at hout
  split at hout
  case isFalse =>
      rw [← Option.some.inj hout] at hsent
      cases hsent
  case isTrue =>
      split at hout
      case h_1 => cases hout
      case h_2 v dropped _ =>
          rw [← Option.some.inj hout] at hsent ⊢
          dsimp only at hsent ⊢
          split at hsent
          · cases hsent
          · exact (Option.some.inj hsent).symm

/-- The counts of an accepted datagram are zero. -/
theorem counts_zero {packet : Nat → UInt8} {length k : Nat}
    (h : accepted packet length = true) (hk : 6 ≤ k) (hk' : k < 12) :
    packet k = 0 := by
  simp [accepted, hasRecords] at h
  obtain ⟨⟨h6, h8⟩, h10⟩ := h.1.2
  obtain ⟨h6, h7⟩ := bytes_of_ntohs (by decide) h6
  obtain ⟨h8, h9⟩ := bytes_of_ntohs (by decide) h8
  obtain ⟨h10, h11⟩ := bytes_of_ntohs (by decide) h10
  have hcases : k = 6 ∨ k = 7 ∨ k = 8 ∨ k = 9 ∨ k = 10 ∨ k = 11 := by omega
  rcases hcases with rfl | rfl | rfl | rfl | rfl | rfl <;> assumption

/-- The questions that are answered are those that are read. -/
theorem asked_eq (fuel : Nat) (packet : Nat → UInt8) (length : Nat) :
    asked fuel packet length
      = (readDatagram fuel packet length).map Asked.questions := by
  have hloop : ∀ n p, askedLoop fuel packet length n p
      = (readQuestions fuel packet length n p).map Asked.questions := by
    intro n
    induction n with
    | zero => exact fun _ => rfl
    | succ n ih =>
        intro p
        unfold askedLoop readQuestions
        cases readName packet length dnsLen fuel (.start p) with
        | none => rfl
        | some r =>
            cases r with
            | none => rfl
            | some name =>
                dsimp only
                rw [ih]
                cases readQuestions fuel packet length n _ <;> rfl
  unfold asked readDatagram
  split
  · exact hloop _ _
  · rfl

/-- The records take up what their questions add to the reply. -/
theorem recordsOf_size {ip : UInt8 × UInt8 × UInt8 × UInt8}
    {qs : List Question} {bs : List UInt8}
    (h : RecordsOf ip (answered qs) bs) : bs.length = answersSize qs := by
  have hrecord : ∀ type ttl, ttl.length = 2 → recordSize type ≠ 0 →
      (recordBytes ip type ttl).length = recordSize type := by
    intro type ttl httl hknown
    have huri : (bytes "http://esp.nonet").length = 16 := by decide
    unfold recordBytes recordSize bytesA bytesNS bytesURI at *
    split_ifs at hknown ⊢ <;> simp_all
  induction qs generalizing bs with
  | nil =>
      cases h
      rfl
  | cons q qs ih =>
      unfold answered at h ih
      rw [List.filter_cons] at h
      rw [answersSize, answerSize]
      by_cases hq : recordSize q.type = 0
      · rw [if_neg (by simpa using hq)] at h
        rw [if_pos hq, Nat.zero_add]
        exact ih h
      · rw [if_pos (by simpa using hq)] at h
        rw [if_neg hq]
        cases h with
        | cons ttl httl h =>
            rw [List.length_append, List.length_append, encodeText_length,
              List.length_nil, hrecord _ _ httl hq, ih h]
            omega

/-- Every reply that fits is a reply to the datagram. -/
theorem replyTo_of_sent {fuel : Nat} {env : RecvEnv} {out : RecvOut}
    {r : List UInt8} (hout : captdnsRecv fuel env = some out)
    (hsent : out.sent = some r)
    (hfit : ∀ qs, asked fuel env.packet env.length = some qs →
      Fits env.length qs) :
    ReplyTo env.ip (slice env.packet 0 env.length) r := by
  obtain ⟨a, ha, hd, hw⟩ := answered_records hout (by simp [hsent])
  have hfits := hfit a.questions (by rw [asked_eq, ha]; rfl)
  have hacc := accepted_of_read ha hd
  have hhdr := header_of_accepted hacc
  have h12 : 12 ≤ env.length := hhdr
  obtain ⟨bs, hof, hadd⟩ := addRecords_bytes env.ip a.questions
    (w := (copied env).written) (show 8 ≤ env.length by omega)
  rw [← hw] at hadd
  obtain ⟨hcur, hbelow, hcount, hbytes⟩ := hadd
  change out.rend = env.length + bs.length at hcur
  change slice out.reply.cell env.length bs.length = bs at hbytes
  have hrend : env.length + bs.length ≤ dnsLen := by
    rw [recordsOf_size hof]
    exact hfits.total
  rw [sent_eq hout hsent, hcur]
  -- every record takes at least 16 bytes, so the count is one byte
  have hfew : (answered a.questions).length < 256 := by
    have := recordsOf_length hof
    unfold dnsLen at hrend
    omega
  rw [copied_ancount hacc, Nat.zero_add,
    Nat.mod_eq_of_lt (by omega)] at hcount
  obtain ⟨h6, h7⟩ := bytes_of_ntohs hfew hcount
  have hget : ∀ k, k < env.length + bs.length →
      (slice out.reply.cell 0 (env.length + bs.length))[k]?
        = some (out.reply.cell k) := by
    intro k hk
    rw [slice_getElem? _ _ _ hk, Nat.zero_add]
  have hask : ∀ k, k < env.length →
      (slice env.packet 0 env.length)[k]? = some (env.packet k) := by
    intro k hk
    rw [slice_getElem? _ _ _ hk, Nat.zero_add]
  have hcopy : ∀ k, k < env.length → k ≠ 6 → k ≠ 7 →
      out.reply.cell k = marked env.packet k := by
    intro k hk h6 h7
    exact (hbelow k hk h6 h7).trans (copied_cell hhdr hk)
  refine ⟨?_, ?_, ?_, ?_, ?_, ?_⟩
  · rwa [slice_length]
  · intro k hk hk'
    rw [hask k (by omega), counts_zero hacc hk hk']
  · intro k hk h2 h6 h7
    rw [slice_length] at hk
    rw [hget k (by omega), hask k hk, hcopy k hk h6 h7, marked,
      if_neg h2]
  · refine ⟨env.packet 2, hask 2 (by omega), ?_, ?_⟩
    · simp [accepted] at hacc
      exact hacc.2
    · rw [hget 2 (by omega), hcopy 2 (by omega) (by omega) (by omega),
        marked, if_pos rfl]
  · refine ⟨answered a.questions, ?_, ?_, ?_, ?_⟩
    · intro q hq
      exact of_decide_eq_true (List.mem_filter.mp hq).2
    · rw [slice_length, slice_add, List.drop_left' (slice_length ..),
        Nat.zero_add, hbytes]
      exact hof
    · rw [hget 6 (by omega), h6]
    · rw [hget 7 (by omega), h7]
  · rwa [slice_length]

-- ============================================================ proper queries

/-- The text of a name is two bytes shorter than its encoding, and has no
NUL. -/
theorem asked_name (q : QueryQuestion) : cstr q.asked.name = q.asked.name ∧
    q.asked.name.length + 2 = (encodeName q.name.labels).length := by
  obtain ⟨⟨labels, hne, -, hplain⟩, _⟩ := q
  refine ⟨cstr_dotted fun l hl b hb => (hplain l hl b hb).2, ?_⟩
  show (dotted labels).length + 2 = (encodeName labels).length
  cases labels with
  | nil => exact absurd rfl hne
  | cons l ls =>
      rw [← encodeText_dotted fun l' hl b hb => (hplain l' hl b hb).1,
        encodeText_length, List.length_nil, Nat.zero_add]

/-- The records of a query take up what `recordsLength` says. -/
theorem answersSize_asked (qs : List QueryQuestion) :
    answersSize (qs.map QueryQuestion.asked) = recordsLength qs := by
  induction qs with
  | nil => rfl
  | cons q qs ih =>
      obtain ⟨hcstr, hlen⟩ := asked_name q
      have hsize : recordSize q.asked.type = recordSize q.type := rfl
      rw [List.map_cons, answersSize, recordsLength, ih, answerSize, hcstr,
        hlen, hsize]
      by_cases hq : q.known = true
      · rw [if_pos hq, if_neg ((known_iff q).mp hq)]
      · have hzero : recordSize q.type = 0 := by
          by_contra hne
          exact hq ((known_iff q).mpr hne)
        rw [if_neg hq, if_pos hzero]

/-- A name takes no more than its query. -/
theorem length_encodeName_le {q : QueryQuestion} {qs : List QueryQuestion}
    (hq : q ∈ qs) : (encodeName q.name.labels).length
      ≤ (encodeQuestions (qs.map QueryQuestion.wire)).length := by
  induction qs with
  | nil => cases hq
  | cons q' qs ih =>
      rw [List.map_cons, encodeQuestions, List.length_append]
      rcases List.mem_cons.mp hq with rfl | hq
      · simp only [DnsQuestion.encode, QueryQuestion.wire,
          List.length_append]
        omega
      · exact (ih hq).trans (Nat.le_add_left _ _)

/-- A query whose answer fits stays inside the arrays. -/
theorem query_fits {env : RecvEnv} {q : Query}
    (hcarry : Carries env q.encode) (hfit : q.answerLength ≤ dnsLen)
    {fuel : Nat} (hfuel : env.length ≤ fuel) :
    ∃ qs, asked fuel env.packet env.length = some qs ∧
      Fits env.length qs := by
  have hlen : q.encode.length ≤ dnsLen :=
    (Nat.le_add_right _ _).trans hfit
  refine ⟨q.questions.map QueryQuestion.asked, ?_, ?_, ?_⟩
  · rw [asked_eq, readDatagram_query hcarry hlen hfuel]
    rfl
  · intro a ha
    obtain ⟨q', hq', rfl⟩ := List.mem_map.mp ha
    have hname := (asked_name q').2
    have hle := length_encodeName_le hq'
    rw [Query.encode, length_encodeMessage] at hlen
    omega
  · rw [answersSize_asked, hcarry.length]
    exact hfit

/-- The reply to a query decodes to its answer. -/
theorem query_reply {env : RecvEnv} {q : Query} (hcarry : Carries env q.encode)
    (hfit : q.answerLength ≤ dnsLen) {fuel : Nat} (hfuel : env.length ≤ fuel) :
    ∃ r m, (captdnsRecv fuel env).map RecvOut.sent = some (some r) ∧
      decodeMessage r = some m ∧ AnswerOf env.ip q m := by
  have hlen : q.encode.length ≤ dnsLen :=
    (Nat.le_add_right _ _).trans hfit
  obtain ⟨rs, hok, hans, hreply⟩ := replyBytes_encode hcarry hlen
  have hqs : ∀ w ∈ q.questions.map QueryQuestion.wire, w.Ok := by
    intro w hw
    obtain ⟨q', -, rfl⟩ := List.mem_map.mp hw
    exact q'.wire_ok
  have hdecode : decodeMessage (encodeMessage q.id (q.flags ||| flagQR)
      q.rcode (q.questions.map QueryQuestion.wire) rs) = _ :=
    decodeMessage_encode q.id_lt hqs hok
      (by rw [List.length_map]; exact q.count_lt) (answers_lt hans)
  refine ⟨_, _, ?_, hreply ▸ hdecode, ⟨rfl, rfl, rfl, rfl, hans, rfl, rfl⟩⟩
  rw [captdnsRecv_sent, readDatagram_query hcarry hlen hfuel]
  rfl

/-- With whatever fuel it returns, a query gets its answer. -/
theorem query_sent {env : RecvEnv} {q : Query} (hcarry : Carries env q.encode)
    (hfit : q.answerLength ≤ dnsLen) {fuel : Nat} {out : RecvOut}
    (h : captdnsRecv fuel env = some out) :
    ∃ r m, out.sent = some r ∧ decodeMessage r = some m ∧
      AnswerOf env.ip q m := by
  obtain ⟨r, m, hr, hm, hans⟩ :=
    query_reply hcarry hfit (Nat.le_refl env.length)
  refine ⟨r, m, ?_, hm, hans⟩
  have hthis := captdnsRecv_sent fuel env
  rw [captdnsRecv_sent, Option.map_eq_some_iff] at hr
  rw [h, Option.map_some, eq_comm, Option.map_eq_some_iff] at hthis
  obtain ⟨a', ha', hr'⟩ := hr
  obtain ⟨a, ha, hsent⟩ := hthis
  rw [← hsent, readDatagram_unique ha ha', hr']

/-- A query is not empty. -/
theorem length_encode_pos (q : Query) : 0 < q.encode.length := by
  rw [Query.encode, length_encodeMessage]
  omega

-- ================================================================== the runs

/-- The datagram that is handled and its answers fit the arrays. -/
def Fitting (s : Server) : ServerAct → Prop
  | .captdnsRecv fuel x => ∀ peer ret, s.phase = .received peer ret →
      ret ≤ dnsLen → ∀ qs, asked fuel (s.packet x) ret = some qs →
      Fits ret qs
  | _ => True

/-- Does the entry say that something has been received? -/
def Seen.received : Seen → Bool
  | .took _ | .failed => true
  | .sent .. | .silent => false

/-- What a call leaves on the log is no reception. -/
theorem outcome_received (peer : SockAddr) (sent : Option (List UInt8)) :
    (outcome peer sent).received = false := by
  cases sent <;> rfl

/-- What may follow the datagram `d`: a reply to it, to who sent it, and
if it is a query whose answer fits, the answer; or nothing, if it is no
such query. -/
def Settles (ip : UInt8 × UInt8 × UInt8 × UInt8) (d : Datagram) :
    Seen → Prop
  | .sent peer r => peer = d.peer ∧ ReplyTo ip (d.bytes.take dnsLen) r ∧
      ∀ q : Query, d.bytes = q.encode → q.answerLength ≤ dnsLen →
        ∃ m, decodeMessage r = some m ∧ AnswerOf ip q m
  | .silent => ∀ q : Query, d.bytes = q.encode → dnsLen < q.answerLength
  | .took _ | .failed => False

/-- Nothing is received before the last one is dealt with, and nothing is
sent but to deal with it. -/
def Accounted (ip : UInt8 × UInt8 × UInt8 × UInt8) (e : Seen)
    (past : List Seen) : Prop :=
  if e.received then ∀ e' ∈ past.head?, e'.received = false
  else (∃ d rest, past = .took d :: rest ∧ Settles ip d e) ∨
    ∃ rest, past = .failed :: rest ∧ e = .silent

/-- The buffer and `ret` are those of the datagram on top of the log, or
`recvfrom` has failed. -/
structure Pending (s : Server) (peer : SockAddr) (ret : Nat) : Prop where
  top : (∃ d rest, s.log = .took d :: rest ∧ d.peer = peer ∧
      ret = (d.bytes.take dnsLen).length ∧
      slice s.udpMsg.cell 0 ret = d.bytes.take dnsLen) ∨
    ∃ rest, s.log = .failed :: rest ∧ ret = recvFailed

/-- The invariant. -/
structure Served (ip : UInt8 × UInt8 × UInt8 × UInt8) (s : Server) : Prop
    where
  log : Always (Accounted ip) s.log
  pending : ∀ peer ret, s.phase = .received peer ret → Pending s peer ret
  idle : (∀ peer ret, s.phase ≠ .received peer ret) →
    ∀ e ∈ s.log.head?, e.received = false

section

variable {ip : UInt8 × UInt8 × UInt8 × UInt8} {msg : Nat → UInt8}
  {s s' : Server}

/-- The bytes that were received are the first of the buffer. -/
theorem carries_of_slice {bytes : List UInt8} {ret : Nat}
    (ip : UInt8 × UInt8 × UInt8 × UInt8) (x : Scratch)
    (hret : ret = (bytes.take dnsLen).length)
    (hslice : slice s.udpMsg.cell 0 ret = bytes.take dnsLen) :
    Carries (s.recvEnv ip ret x) (bytes.take dnsLen) := by
  have hle : ret ≤ dnsLen := by
    rw [hret, List.length_take]
    exact Nat.min_le_left _ _
  have hshort : dnsLen < 65536 := by decide
  refine ⟨?_, ?_⟩
  · show ret % 65536 = _
    rw [← hret, Nat.mod_eq_of_lt (hle.trans_lt hshort)]
  · rw [← hret, ← hslice]
    refine slice_congr fun k hk => ?_
    show s.packet x (0 + k) = _
    unfold Server.packet
    rw [if_pos (by omega)]

/-- A query whose answer fits is received as it is. -/
theorem take_query {q : Query} (hfit : q.answerLength ≤ dnsLen) :
    q.encode.take dnsLen = q.encode :=
  List.take_of_length_le ((Nat.le_add_right _ _).trans hfit)

/-- Handling a datagram settles it. -/
theorem settles_of_handle {d : Datagram} {ret fuel : Nat} {x : Scratch}
    (hret : ret = (d.bytes.take dnsLen).length)
    (hslice : slice s.udpMsg.cell 0 ret = d.bytes.take dnsLen)
    (hfit : ∀ qs, asked fuel (s.packet x) ret = some qs → Fits ret qs)
    (h : s.handle ip d.peer ret fuel x = some s') :
    ∃ sent, s' = s.answered d.peer sent ∧
      Settles ip d (outcome d.peer sent) := by
  have hcarry := carries_of_slice ip x hret hslice
  have hlen : (s.recvEnv ip ret x).length = ret := by
    rw [hcarry.length, hret]
  have hle : ret ≤ dnsLen := by
    rw [hret, List.length_take]
    exact Nat.min_le_left _ _
  have hquery : ∀ q : Query, d.bytes = q.encode → q.answerLength ≤ dnsLen →
      Carries (s.recvEnv ip ret x) q.encode := by
    intro q hq hqfit
    rwa [hq, take_query hqfit] at hcarry
  unfold Server.handle at h
  split at h
  case isTrue hpos =>
      obtain ⟨out, hout, rfl⟩ := Option.map_eq_some_iff.mp h
      refine ⟨out.sent, rfl, ?_⟩
      cases hsent : out.sent with
      | none =>
          intro q hq
          by_contra hqfit
          obtain ⟨r, m, hr, -⟩ := query_sent
            (hquery q hq (Nat.not_lt.mp hqfit)) (Nat.not_lt.mp hqfit) hout
          rw [hsent] at hr
          cases hr
      | some r =>
          have hreply := replyTo_of_sent hout hsent (by rwa [hlen])
          rw [hcarry.length, hcarry.bytes] at hreply
          refine ⟨rfl, hreply, ?_⟩
          intro q hq hqfit
          obtain ⟨r', m, hr', hm, hans⟩ :=
            query_sent (hquery q hq hqfit) hqfit hout
          rw [hsent] at hr'
          obtain rfl := Option.some.inj hr'
          exact ⟨m, hm, hans⟩
  case isFalse hzero =>
      refine ⟨none, (Option.some.inj h).symm, ?_⟩
      intro q hq
      by_contra hqfit
      have hpos := length_encode_pos q
      rw [hret, hq, take_query (Nat.not_lt.mp hqfit)] at hzero
      exact hzero hpos

/-- Every step that handles a query whose answer fits sends it. -/
theorem query_step {peer : SockAddr} {q : Query}
    (hphase : s.phase = .received peer q.encode.length)
    (hslice : slice s.udpMsg.cell 0 q.encode.length = q.encode)
    (hfit : q.answerLength ≤ dnsLen) {fuel : Nat} (hfuel : dnsLen ≤ fuel)
    (x : Scratch) :
    Fitting s (.captdnsRecv fuel x) ∧
      ∃ s' r m,
        (captdnsTask ip msg).apply (.captdnsRecv fuel x) s = some s' ∧
        s'.phase = .recvfrom ∧ s'.log = .sent peer r :: s.log ∧
        decodeMessage r = some m ∧ AnswerOf ip q m := by
  have hcarry := carries_of_slice ip x
    (congrArg List.length (take_query hfit)).symm
    (hslice.trans (take_query hfit).symm)
  rw [take_query hfit] at hcarry
  have hlen : (s.recvEnv ip q.encode.length x).length = q.encode.length :=
    hcarry.length
  have henough : (s.recvEnv ip q.encode.length x).length ≤ fuel := by
    rw [hlen]
    exact ((Nat.le_add_right _ _).trans hfit).trans hfuel
  constructor
  · intro peer' ret hphase' _ qs hqs
    obtain ⟨-, rfl⟩ : _ = peer' ∧ _ = ret := by
      simpa using hphase.symm.trans hphase'
    obtain ⟨qs', hqs', hfits⟩ := query_fits hcarry hfit henough
    rw [hlen] at hqs' hfits
    obtain rfl := Option.some.inj (hqs'.symm.trans hqs)
    exact hfits
  · obtain ⟨r, m, hr, hm, hans⟩ := query_reply hcarry hfit henough
    obtain ⟨out, hout, hr⟩ := Option.map_eq_some_iff.mp hr
    refine ⟨s.answered peer (some r), r, m, ?_, rfl, rfl, hm, hans⟩
    have hpos := length_encode_pos q
    show s.step ip (.captdnsRecv fuel x) = _
    unfold Server.step
    rw [hphase]
    show s.handle ip peer q.encode.length fuel x = _
    unfold Server.handle
    rw [if_pos hpos, hout, Option.map_some, hr]

/-- Handling an error does nothing. -/
theorem handle_failed {peer : SockAddr} {fuel : Nat} {x : Scratch} :
    s.handle ip peer recvFailed fuel x = some (s.answered peer none) := by
  have hlong : accepted (s.recvEnv ip recvFailed x).packet
      (s.recvEnv ip recvFailed x).length = false := by
    have hlen : (s.recvEnv ip recvFailed x).length = 65535 := rfl
    have hno : decide (65535 ≤ dnsLen) = false := by decide
    rw [hlen, accepted, hno]
    simp only [Bool.false_and]
  have hpos : 0 < recvFailed := by decide
  unfold Server.handle Dns.captdnsRecv
  rw [if_pos hpos, hlong]
  rfl

/-- What a step does to the phase and the log. -/
inductive StepEffect (ip : UInt8 × UInt8 × UInt8 × UInt8) (s : Server) :
    ServerAct → Server → Prop
  | quiet {a t} (hlog : t.log = s.log) (hmsg : t.udpMsg = s.udpMsg)
      (hphase : t.phase = s.phase ∨
        ∀ peer ret, s.phase ≠ .received peer ret ∧
          t.phase ≠ .received peer ret) :
      StepEffect ip s a t
  | took (d : Datagram) (rest : List Datagram)
      (hphase : s.phase = .recvfrom) :
      StepEffect ip s .recvfrom ({ s with queue := rest }.take d)
  | failed {t : Server} (hphase : s.phase = .recvfrom)
      (hphase' : t.phase = .received .zero recvFailed)
      (hlog : t.log = .failed :: s.log) : StepEffect ip s .recvError t
  | handled {fuel x t} (peer : SockAddr) (ret : Nat)
      (hphase : s.phase = .received peer ret)
      (h : s.handle ip peer ret fuel x = some t) :
      StepEffect ip s (.captdnsRecv fuel x) t

/-- Every step has one of the effects. -/
theorem step_effect {a : ServerAct}
    (h : (captdnsTask ip msg).apply a s = some s') :
    StepEffect ip s a s' := by
  change s.step ip a = some s' at h
  unfold Server.step at h
  split at h
  case h_1 fd hphase =>
      rw [← Option.some.inj h]
      refine .quiet rfl rfl (.inr fun peer ret => ⟨by simp [hphase], ?_⟩)
      dsimp only
      split <;> simp
  case h_2 ret hphase =>
      rw [← Option.some.inj h]
      refine .quiet rfl rfl (.inr fun peer ret => ⟨by simp [hphase], ?_⟩)
      dsimp only
      split <;> simp
  case h_3 hphase =>
      split at h
      case h_1 => cases h
      case h_2 d rest _ =>
          rw [← Option.some.inj h]
          exact .took d rest hphase
  case h_4 hphase =>
      rw [← Option.some.inj h]
      exact .failed hphase rfl rfl
  case h_5 fuel x peer ret hphase => exact .handled peer ret hphase h
  case h_6 d =>
      split at h
      · rw [← Option.some.inj h]
        exact .quiet rfl rfl (.inl rfl)
      · cases h
  case h_7 =>
      rw [← Option.some.inj h]
      exact .quiet rfl rfl (.inl rfl)
  case h_8 => cases h

/-- `recvfrom` leaves the datagram in the buffer. -/
theorem slice_take (d : Datagram) :
    slice (s.take d).udpMsg.cell 0 (d.bytes.take dnsLen).length
      = d.bytes.take dnsLen :=
  Slots.slice_writeAll_self 0 _ _

/-- A fitting step keeps the invariant: it takes a datagram, takes an
error, deals with what was taken, or leaves the log alone. -/
theorem Served.step {a : ServerAct} (hs : Served ip s) (hok : Fitting s a)
    (h : (captdnsTask ip msg).apply a s = some s') : Served ip s' := by
  obtain ⟨hlog, hpending, hidle⟩ := hs
  cases step_effect h with
  | quiet hlog' hmsg hphase =>
      refine ⟨hlog' ▸ hlog, ?_, ?_⟩
      · intro peer ret hp
        rcases hphase with heq | hno
        · obtain ⟨htop⟩ := hpending peer ret (heq ▸ hp)
          exact ⟨by rwa [hlog', hmsg]⟩
        · exact absurd hp (hno peer ret).2
      · intro hno
        rw [hlog']
        refine hidle fun peer ret hp => ?_
        rcases hphase with heq | hno'
        · exact hno peer ret (heq ▸ hp)
        · exact (hno' peer ret).1 hp
  | took d rest hphase =>
      have hpast := hidle (by simp [hphase])
      refine ⟨⟨hpast, hlog⟩, ?_, ?_⟩
      · intro peer ret hp
        obtain ⟨rfl, rfl⟩ : d.peer = peer ∧ _ = ret := by
          simpa [Server.take] using hp
        exact ⟨.inl ⟨d, s.log, rfl, rfl, by simp,
          by simpa using slice_take (s := { s with queue := rest }) d⟩⟩
      · exact fun hno => absurd rfl (hno _ _)
  | failed hphase hphase' hlog' =>
      have hpast := hidle (by simp [hphase])
      refine ⟨by rw [hlog']; exact ⟨hpast, hlog⟩, ?_, ?_⟩
      · intro peer ret hp
        obtain ⟨-, rfl⟩ : _ = peer ∧ _ = ret := by
          simpa using hphase'.symm.trans hp
        exact ⟨.inr ⟨s.log, hlog', rfl⟩⟩
      · exact fun hno => absurd hphase' (hno _ _)
  | @handled fuel x _ peer ret hphase h =>
      suffices hout : ∃ sent, s' = s.answered peer sent ∧
          Accounted ip (outcome peer sent) s.log by
        obtain ⟨sent, rfl, hacc⟩ := hout
        refine ⟨⟨hacc, hlog⟩, fun _ _ hp => ServerPhase.noConfusion hp, ?_⟩
        intro _ e he
        obtain rfl : outcome peer sent = e := Option.some.inj he
        exact outcome_received peer sent
      unfold Accounted
      obtain ⟨⟨d, rest, htop, rfl, hret, hslice⟩ | ⟨rest, htop, rfl⟩⟩ :=
        hpending peer ret hphase
      · have hle : ret ≤ dnsLen := by
          rw [hret, List.length_take]
          exact Nat.min_le_left _ _
        obtain ⟨sent, rfl, hsettles⟩ :=
          settles_of_handle hret hslice (hok _ ret hphase hle) h
        refine ⟨sent, rfl, ?_⟩
        rw [outcome_received]
        exact .inl ⟨d, rest, htop, hsettles⟩
      · rw [handle_failed] at h
        exact ⟨none, (Option.some.inj h).symm, .inr ⟨rest, htop, rfl⟩⟩

/-- So it holds in every run whose steps all fit. -/
theorem served (h : (captdnsTask ip msg).Reach Fitting s) : Served ip s := by
  refine h.invariant ⟨trivial, ?_, ?_⟩ fun _ _ _ hs hok => hs.step hok
  · exact fun _ _ hp => ServerPhase.noConfusion hp
  · exact fun _ _ he => by cases he

-- ================================================================== the laws

/-- In every run, each datagram and each error is dealt with before the
next is received, and nothing is sent but a reply to the datagram just
received, once, and to who sent it. -/
theorem server_accounts (h : (captdnsTask ip msg).Reach Fitting s) :
    Always (Accounted ip) s.log :=
  (served h).log

/-- Whatever came before: a query whose answer fits is either answered
next, with its answer and to who sent it, or is being handled, and then
every step of `captdnsRecv` that has fuel is there, fits and sends that
answer. -/
theorem query_served (h : (captdnsTask ip msg).Reach Fitting s)
    {later past : List Seen} {peer : SockAddr} {q : Query}
    (hlog : s.log = later ++ .took ⟨peer, q.encode⟩ :: past)
    (hfit : q.answerLength ≤ dnsLen) :
    (∃ later' r m, later = later' ++ [.sent peer r] ∧
      decodeMessage r = some m ∧ AnswerOf ip q m) ∨
    later = [] ∧ ∀ fuel x, dnsLen ≤ fuel →
      Fitting s (.captdnsRecv fuel x) ∧
      ∃ s' r m,
        (captdnsTask ip msg).apply (.captdnsRecv fuel x) s = some s' ∧
        s'.phase = .recvfrom ∧ s'.log = .sent peer r :: s.log ∧
        decodeMessage r = some m ∧ AnswerOf ip q m := by
  obtain ⟨halways, hpending, hidle⟩ := served h
  rcases List.eq_nil_or_concat later with rfl | ⟨later', e, rfl⟩
  · -- the query is on top of the log, so it is in the buffer
    have hphase : ∃ peer' ret, s.phase = .received peer' ret := by
      by_contra hno
      have hsettled := hidle (fun peer' ret hp => hno ⟨peer', ret, hp⟩)
        (.took ⟨peer, q.encode⟩) (by simp [hlog])
      cases hsettled
    obtain ⟨peer', ret, hphase⟩ := hphase
    obtain ⟨⟨d, rest, htop, rfl, hret, hslice⟩ | ⟨rest, htop, -⟩⟩ :=
      hpending peer' ret hphase
    · obtain ⟨rfl, rfl⟩ : d = ⟨peer, q.encode⟩ ∧ rest = past := by
        simpa [hlog, eq_comm] using htop
      rw [take_query hfit] at hret hslice
      obtain rfl := hret
      exact .inr ⟨rfl, fun fuel x hfuel =>
        query_step hphase hslice hfit hfuel x⟩
    · rw [hlog] at htop
      cases htop
  · left
    rw [List.concat_eq_append, List.append_assoc] at hlog
    rw [hlog] at halways
    have hacc : Accounted ip e (.took ⟨peer, q.encode⟩ :: past) :=
      always_at halways
    unfold Accounted at hacc
    split at hacc
    case isTrue =>
        have hno := hacc (.took ⟨peer, q.encode⟩) rfl
        cases hno
    case isFalse =>
        rcases hacc with ⟨d, rest, htop, hsettles⟩ | ⟨rest, htop, -⟩
        · cases htop
          cases e with
          | sent peer' r =>
              obtain ⟨rfl, -, hanswer⟩ := hsettles
              obtain ⟨m, hm, hans⟩ := hanswer q rfl hfit
              exact ⟨later', r, m, List.concat_eq_append, hm, hans⟩
          | silent => exact absurd (hsettles q rfl) (Nat.not_lt.mpr hfit)
          | took | failed => exact hsettles.elim
        · cases htop

end

-- ===================================================== a run, for inhabitance

/-- Where the query comes from. -/
def resolver : SockAddr where
  addr := 0xC0A80402
  port := 40000

/-- The socket is opened and bound, the query with four questions arrives
and is received. -/
def queryReceived : Server :=
  Server.take
    { phase := .recvfrom
      sockFd := 3
      queue := []
      udpMsg := .array dnsLen fun _ => 0
      log := [] }
    ⟨resolver, severalQuery.encode⟩

/-- The state is reached in four steps. -/
theorem reach_queryReceived :
    (captdnsTask (192, 168, 4, 1) fun _ => 0).Reach Fitting
      queryReceived := by
  have hsocket : (captdnsTask (192, 168, 4, 1) fun _ => 0).Reach Fitting _ :=
    Machine.Reach.init.step (.socket 3) trivial rfl
  have hbind := hsocket.step (.bind 0) (show Fitting _ (.bind 0) from trivial)
    rfl
  have harrive := hbind.step (.arrive ⟨resolver, severalQuery.encode⟩)
    (show Fitting _ (.arrive _) from trivial) rfl
  exact harrive.step .recvfrom (show Fitting _ .recvfrom from trivial) rfl

/-- Whatever memory holds, the step from there answers the query. -/
theorem query_step_received (x : Scratch) :
    Fitting queryReceived (.captdnsRecv dnsLen x) ∧
      ∃ s' r m, (captdnsTask (192, 168, 4, 1) fun _ => 0).apply
          (.captdnsRecv dnsLen x) queryReceived = some s' ∧
        s'.phase = .recvfrom ∧
        s'.log = .sent resolver r :: queryReceived.log ∧
        decodeMessage r = some m ∧
        AnswerOf (192, 168, 4, 1) severalQuery m :=
  query_step rfl (by decide) (by decide) (le_refl _) x

theorem server_accounts_query :
    ∃ s r, (captdnsTask (192, 168, 4, 1) fun _ => 0).Reach Fitting s ∧
      s.log = [.sent resolver r, .took ⟨resolver, severalQuery.encode⟩] ∧
      Always (Accounted (192, 168, 4, 1)) s.log := by
  obtain ⟨hok, s, r, m, happ, -, hlog, -⟩ := query_step_received
    { buff := fun _ => 0
      reply := fun _ => 0
      beyond := fun _ => 0 }
  have hreach := reach_queryReceived.step _ hok happ
  exact ⟨s, r, hreach, hlog, server_accounts hreach⟩

theorem query_served_query :
    (∃ later' r m, ([] : List Seen) = later' ++ [.sent resolver r] ∧
      decodeMessage r = some m ∧
      AnswerOf (192, 168, 4, 1) severalQuery m) ∨
    ([] : List Seen) = [] ∧ ∀ fuel x, dnsLen ≤ fuel →
      Fitting queryReceived (.captdnsRecv fuel x) ∧
      ∃ s' r m, (captdnsTask (192, 168, 4, 1) fun _ => 0).apply
          (.captdnsRecv fuel x) queryReceived = some s' ∧
        s'.phase = .recvfrom ∧
        s'.log = .sent resolver r :: queryReceived.log ∧
        decodeMessage r = some m ∧
        AnswerOf (192, 168, 4, 1) severalQuery m :=
  query_served reach_queryReceived
    (List.nil_append _ : _ = [] ++ _).symm (by decide)

end ShZ001.Dns
