/-
The answer to a well-formed query, read by an independent decoder.

# There and back

There: the responder's decoding of an uncompressed name gives its labels
joined by dots (`readName_labels`), so the questions it reads are those
that were sent (`readQuestions_encode`). Back: a dotted text of plain
labels is encoded as the name it came from (`encodeText_dotted`), so the
records it adds (`addRecords_bytes`) are encodings of records
(`recordsOf_encode`), and the reply is the encoding of a message, which
`Wire.lean` decodes.

# The law

`AnswerOf` says what an answer is: the query with the response bit set,
and for each question of a type that is answered one record, in their
order, with the owner, the type and the data of that type.
`captdnsRecv_answer` is about every query whose complete answer fits the
reply, whatever the memory around it holds, and says that the call
returns.

The `ttl` is not part of `AnswerOf`: for two of the types half of it is
what the stack held (`Initialised.lean`).
-/
import ShZ001.Dns.Wire
import ShZ001.Dns.Proofs.Bounce

namespace ShZ001.Dns

open Lib

-- ============================================================= dotted names

/-- Further labels, each behind its dot. -/
def dottedTail : List (List UInt8) → List UInt8
  | [] => []
  | l :: ls => 0x2e :: l ++ dottedTail ls

/-- The text of a name. -/
def dotted : List (List UInt8) → List UInt8
  | [] => []
  | l :: ls => l ++ dottedTail ls

/-- Bytes without a dot are collected for the label they belong to. -/
theorem encodeText_label {l : List UInt8} (h : ∀ b ∈ l, b ≠ 0x2e)
    (cur rest : List UInt8) :
    encodeText cur (l ++ rest) = encodeText (cur ++ l) rest := by
  induction l generalizing cur with
  | nil => simp
  | cons b l ih =>
      rw [List.cons_append, encodeText, if_neg (h b List.mem_cons_self),
        ih fun b' hb => h b' (List.mem_cons_of_mem _ hb)]
      simp

/-- The text of a name is encoded as the name. -/
theorem encodeText_dotted {l : List UInt8} {ls : List (List UInt8)}
    (h : ∀ l' ∈ l :: ls, ∀ b ∈ l', b ≠ 0x2e) :
    encodeText [] (dotted (l :: ls)) = encodeName (l :: ls) := by
  induction ls generalizing l with
  | nil =>
      have hl := encodeText_label (h l List.mem_cons_self) [] []
      rw [List.append_nil] at hl
      simp [dotted, dottedTail, hl, encodeText, encodeName]
  | cons l' ls ih =>
      have hrest := ih fun x hx => h x (List.mem_cons_of_mem _ hx)
      have hl := encodeText_label (h l List.mem_cons_self) []
        (0x2e :: dotted (l' :: ls))
      show encodeText [] (l ++ 0x2e :: dotted (l' :: ls)) = _
      rw [hl, encodeText, if_pos rfl, hrest, List.nil_append]
      rfl

/-- Plain labels hold no NUL, so all of the text is the C string. -/
theorem cstr_dotted {ls : List (List UInt8)}
    (h : ∀ l ∈ ls, ∀ b ∈ l, b ≠ 0) : cstr (dotted ls) = dotted ls := by
  have htail : ∀ ls : List (List UInt8), (∀ l ∈ ls, ∀ b ∈ l, b ≠ 0) →
      ∀ b ∈ dottedTail ls, b ≠ 0 := by
    intro ls
    induction ls with
    | nil => nofun
    | cons l ls ih =>
        intro hls b hb
        rw [dottedTail, List.cons_append, List.mem_cons,
          List.mem_append] at hb
        rcases hb with rfl | hb | hb
        · decide
        · exact hls l List.mem_cons_self b hb
        · exact ih (fun l' hl => hls l' (List.mem_cons_of_mem _ hl)) b hb
  refine List.takeWhile_eq_self_iff.mpr fun b hb => decide_eq_true ?_
  cases ls with
  | nil => cases hb
  | cons l ls =>
      rw [dotted, List.mem_append] at hb
      rcases hb with hb | hb
      · exact h l List.mem_cons_self b hb
      · exact htail ls (fun l' hl => h l' (List.mem_cons_of_mem _ hl)) b hb

-- ============================================================= reading names

/-- The length of a label fits its byte. -/
theorem label_toNat {l : List UInt8} (h : IsLabel l) :
    l.length.toUInt8.toNat = l.length := by
  have := h.2
  rw [Nat.toUInt8, UInt8.toNat_ofNat']
  omega

/-- It is not the byte that ends a name. -/
theorem label_ne_zero {l : List UInt8} (h : IsLabel l) :
    l.length.toUInt8 ≠ 0 := by
  intro h0
  have hnat := label_toNat h
  rw [h0] at hnat
  exact (List.length_pos_iff.mpr h.1).ne hnat

/-- The length of a label has none of the two top bits. -/
theorem label_head {l : List UInt8} (h : IsLabel l) :
    l.length.toUInt8 &&& 0xC0 = 0 := by
  have hall : ∀ n < 64, n &&& 0xC0 = 0 := by decide
  refine UInt8.toNat_inj.mp ?_
  rw [UInt8.toNat_and, label_toNat h]
  exact hall l.length (Nat.lt_succ_of_le h.2)

/-- What a label adds to the text before it. -/
def addLabel (text l : List UInt8) : List UInt8 :=
  if text = [] then l else text ++ 0x2e :: l

section

variable {packet : Nat → UInt8} {length : Nat}

/-- A label with room for it is taken whole. -/
theorem step_label {n : Name} {l : List UInt8} (hl : IsLabel l)
    (hhead : packet n.pos = l.length.toUInt8)
    (hbytes : slice packet (n.pos + 1) l.length = l)
    (hroom : n.text.length + l.length + 1 ≤ dnsLen) :
    n.step packet dnsLen =
      { n with
        pos := n.pos + 1 + l.length
        text := addLabel n.text l } := by
  unfold Name.step
  rw [hhead]
  dsimp only
  rw [if_pos (label_head hl), label_toNat hl]
  unfold Name.separate addLabel Name.put Name.take
  dsimp only
  by_cases hempty : n.text = []
  · have hsep : ¬ (n.text.length < dnsLen ∧ n.text.length ≠ 0) := by
      simp [hempty]
    have hmin : min l.length (dnsLen - n.text.length) = l.length := by omega
    rw [if_neg hsep, if_pos hempty]
    dsimp only
    rw [hmin, hbytes, hempty, List.nil_append]
  · have hpos := List.length_pos_iff.mpr hempty
    have hsep : n.text.length < dnsLen ∧ n.text.length ≠ 0 := by omega
    have hmin : min l.length (dnsLen - (n.text ++ [0x2e]).length)
        = l.length := by
      rw [List.length_append, List.length_singleton]
      omega
    rw [if_pos hsep, if_neg hempty]
    dsimp only
    rw [hmin, hbytes, List.append_assoc, List.singleton_append]

/-- A name stands in a memory label by label. -/
theorem slice_encodeName {p : Nat} {l : List UInt8}
    {ls : List (List UInt8)} :
    slice packet p (encodeName (l :: ls)).length = encodeName (l :: ls) ↔
      packet p = l.length.toUInt8 ∧ slice packet (p + 1) l.length = l ∧
      slice packet (p + 1 + l.length) (encodeName ls).length
        = encodeName ls := by
  rw [encodeName, List.cons_append, slice_cons_eq, slice_append_eq]

/-- Each label takes a byte more than it has. -/
theorem encodeName_length (l : List UInt8) (ls : List (List UInt8)) :
    (encodeName (l :: ls)).length
      = l.length + 1 + (encodeName ls).length := by
  rw [encodeName, List.length_append, List.length_cons]

/-- Reading an uncompressed name gives its labels, and ends on its
terminator. -/
theorem readName_labels {l : List UInt8} {ls : List (List UInt8)}
    (hls : ∀ l' ∈ l :: ls, IsLabel l') {n : Name} {fuel : Nat}
    (hbytes : slice packet n.pos (encodeName (l :: ls)).length
      = encodeName (l :: ls))
    (hend : n.pos + (encodeName (l :: ls)).length ≤ length)
    (hroom : n.text.length + (encodeName (l :: ls)).length ≤ dnsLen)
    (hfuel : ls.length < fuel) :
    readName packet length dnsLen fuel n =
      some (some { n with
        pos := n.pos + (encodeName (l :: ls)).length - 1
        text := addLabel n.text l ++ dottedTail ls }) := by
  induction ls generalizing l n fuel with
  | nil =>
      obtain ⟨fuel, rfl⟩ := Nat.exists_eq_succ_of_ne_zero (by omega : fuel ≠ 0)
      obtain ⟨hhead, hlabel, hrest⟩ := slice_encodeName.mp hbytes
      have hlast : packet (n.pos + 1 + l.length) = 0 :=
        (slice_cons_eq.mp hrest).1
      rw [encodeName_length] at hend hroom ⊢
      change n.pos + (l.length + 1 + 1) ≤ length at hend
      change n.text.length + (l.length + 1 + 1) ≤ dnsLen at hroom
      have hstep := step_label (hls l List.mem_cons_self) hhead hlabel
        (by omega)
      have hin : ¬ length < n.pos + 1 + l.length := by omega
      have hpos : n.pos + (l.length + 1 + (encodeName []).length) - 1
          = n.pos + 1 + l.length := by
        show n.pos + (l.length + 1 + 1) - 1 = _
        omega
      unfold readName
      rw [hstep]
      dsimp only
      rw [if_neg hin, hlast, if_neg (not_not.mpr rfl), hpos, dottedTail,
        List.append_nil]
  | cons l' ls ih =>
      obtain ⟨fuel, rfl⟩ := Nat.exists_eq_succ_of_ne_zero (by omega : fuel ≠ 0)
      obtain ⟨hhead, hlabel, hrest⟩ := slice_encodeName.mp hbytes
      have hl := hls l List.mem_cons_self
      have hnext : packet (n.pos + 1 + l.length) ≠ 0 := by
        rw [(slice_encodeName.mp hrest).1]
        exact label_ne_zero (hls l' (List.mem_cons_of_mem _
          List.mem_cons_self))
      rw [encodeName_length] at hend hroom ⊢
      have hstep := step_label hl hhead hlabel (by omega)
      have hin : ¬ length < n.pos + 1 + l.length := by omega
      -- the label has a byte, so the next one gets a separator
      have htext : addLabel n.text l ≠ [] := by
        unfold addLabel
        split
        · exact hl.1
        · exact List.append_ne_nil_of_right_ne_nil _ (List.cons_ne_nil _ _)
      have hlen : (addLabel n.text l).length
          ≤ n.text.length + l.length + 1 := by
        unfold addLabel
        split
        · omega
        · rw [List.length_append, List.length_cons]
          omega
      have hih := ih (n := { n with
          pos := n.pos + 1 + l.length
          text := addLabel n.text l })
        (fun x hx => hls x (List.mem_cons_of_mem _ hx))
        hrest (by dsimp only; omega) (by dsimp only; omega)
        (show ls.length < fuel by simpa using hfuel)
      unfold readName
      rw [hstep]
      dsimp only
      rw [if_neg hin, if_pos hnext, hih]
      unfold addLabel at htext ⊢
      dsimp only at htext ⊢
      rw [if_neg htext, dottedTail]
      congr 3
      · omega
      · simp

-- ========================================================== reading questions

/-- The question as the responder sees it. -/
def QueryQuestion.asked (q : QueryQuestion) : Question where
  name := dotted q.name.labels
  type := q.type

/-- The code reads what was encoded, -/
theorem ntohs_encode16 {n p : Nat} (h : n < 65536)
    (hbytes : slice packet p (encode16 n).length = encode16 n) :
    ntohs packet p = n := by
  obtain ⟨hhi, hrest⟩ := slice_cons_eq.mp hbytes
  have hlo := (slice_cons_eq.mp hrest).1
  unfold ntohs
  rw [hhi, hlo]
  simp only [Nat.toUInt8, UInt8.toNat_ofNat']
  omega

omit length in
/-- and what it reads is encoded as it stood there. -/
theorem encode16_ntohs (p : Nat) :
    encode16 (ntohs packet p) = slice packet p 2 := by
  have hhi := (packet p).toNat_lt
  have hlo := (packet (p + 1)).toNat_lt
  unfold encode16 ntohs
  show [_, _] = [packet p, packet (p + 1)]
  congr 1
  · refine UInt8.toNat_inj.mp ?_
    rw [Nat.toUInt8, UInt8.toNat_ofNat']
    omega
  · congr 1
    refine UInt8.toNat_inj.mp ?_
    rw [Nat.toUInt8, UInt8.toNat_ofNat']
    omega

/-- Reading a name of a query. -/
theorem readName_query (name : QueryName) {p fuel : Nat}
    (hbytes : slice packet p (encodeName name.labels).length
      = encodeName name.labels)
    (hend : p + (encodeName name.labels).length ≤ length)
    (hlen : length ≤ dnsLen) (hfuel : length ≤ fuel) :
    readName packet length dnsLen fuel (.start p) =
      some (some
        { pos := p + (encodeName name.labels).length - 1
          text := dotted name.labels
          after := none }) := by
  have hne := name.ne_nil
  have hlabel := name.isLabel
  generalize name.labels = labels at hne hlabel hbytes hend ⊢
  cases labels with
  | nil => exact absurd rfl hne
  | cons l ls =>
      have hlt := length_encodeName_gt (l :: ls)
      rw [List.length_cons] at hlt
      have hname := readName_labels (n := .start p) hlabel hbytes hend
        (show [].length + (encodeName (l :: ls)).length ≤ dnsLen by
          rw [List.length_nil]
          omega)
        (show ls.length < fuel by omega)
      exact hname

/-- Reading the questions of a query. -/
theorem readQuestions_encode (qs : List QueryQuestion) {p fuel : Nat}
    (hbytes : slice packet p
        (encodeQuestions (qs.map QueryQuestion.wire)).length
      = encodeQuestions (qs.map QueryQuestion.wire))
    (hend : p + (encodeQuestions (qs.map QueryQuestion.wire)).length
      ≤ length)
    (hlen : length ≤ dnsLen) (hfuel : length ≤ fuel) :
    readQuestions fuel packet length qs.length p =
      some
        { questions := qs.map QueryQuestion.asked
          dropped := false } := by
  induction qs generalizing p with
  | nil => rfl
  | cons q qs ih =>
      rw [List.map_cons, encodeQuestions] at hbytes hend
      unfold DnsQuestion.encode at hbytes hend
      simp only [List.length_append, encode16_length] at hend
      obtain ⟨hq, hrest⟩ := slice_append_eq.mp hbytes
      obtain ⟨hq, -⟩ := slice_append_eq.mp hq
      obtain ⟨hname, htype⟩ := slice_append_eq.mp hq
      change slice packet p (encodeName q.name.labels).length
        = encodeName q.name.labels at hname
      change p + ((encodeName q.name.labels).length + 2 + 2
        + (encodeQuestions (qs.map QueryQuestion.wire)).length)
          ≤ length at hend
      have htype := ntohs_encode16 q.type_lt htype
      change ntohs packet (p + (encodeName q.name.labels).length) = q.type
        at htype
      have hpos : 0 < (encodeName q.name.labels).length :=
        Nat.zero_lt_of_lt (length_encodeName_gt _)
      have hfinish : p + (encodeName q.name.labels).length - 1 + 1
          = p + (encodeName q.name.labels).length := by omega
      have hnext := ih (p := p + (encodeName q.name.labels).length
          + sizeofDnsQuestionFooter) (by
        simpa only [List.length_append, encode16_length, ← Nat.add_assoc,
          QueryQuestion.wire, sizeofDnsQuestionFooter] using hrest) (by
        unfold sizeofDnsQuestionFooter
        omega)
      rw [List.length_cons]
      unfold readQuestions
      rw [readName_query q.name hname (by omega) hlen hfuel]
      simp only [Name.finish, Option.getD_none, hfinish, hnext,
        htype]
      rfl

end

-- ================================================================= records

/-- Is the question of a type that is answered? -/
def QueryQuestion.known (q : QueryQuestion) : Bool :=
  q.type = qtypeA || q.type = qtypeNS || q.type = qtypeURI

/-- What a record of this type says. -/
def rdataOf (ip : UInt8 × UInt8 × UInt8 × UInt8) (type : Nat) :
    List UInt8 :=
  if type = qtypeA then [ip.1, ip.2.1, ip.2.2.1, ip.2.2.2]
  else if type = qtypeNS then [2, 0x6e, 0x73, 0]
  else [0, 10, 0, 1] ++ bytes "http://esp.nonet"

/-- The record answers the question. -/
structure Answers (ip : UInt8 × UInt8 × UInt8 × UInt8) (q : QueryQuestion)
    (r : DnsRecord) : Prop where
  name : r.name = q.name.labels
  type : r.type = q.type
  rdlength : r.rdlength = r.rdata.length
  rdata : r.rdata = rdataOf ip q.type

/-- The types that are answered are those with a record. -/
theorem known_iff (q : QueryQuestion) :
    q.known = true ↔ recordSize q.type ≠ 0 := by
  unfold QueryQuestion.known recordSize
  split_ifs with hA hNS hURI
  · simp [hA]
  · simp [hNS]
  · simp [hURI]
  · simp [hA, hNS, hURI]

/-- They are the questions that get a record. -/
theorem answered_asked (qs : List QueryQuestion) :
    answered (qs.map QueryQuestion.asked)
      = (qs.filter QueryQuestion.known).map QueryQuestion.asked := by
  unfold answered
  rw [List.filter_map]
  congr 1
  refine List.filter_congr fun q _ => ?_
  rw [Bool.eq_iff_iff, known_iff]
  exact decide_eq_true_iff

/-- A record of the code is the encoding of a record that answers. -/
theorem record_encode (ip : UInt8 × UInt8 × UInt8 × UInt8)
    {q : QueryQuestion} (hq : q.known = true) {ttl : List UInt8}
    (httl : ttl.length = 2) :
    ∃ r : DnsRecord, r.Ok ∧ Answers ip q r ∧
      encodeText [] (cstr q.asked.name) ++ recordBytes ip q.type ttl
        = r.encode := by
  have hname : encodeText [] (cstr q.asked.name)
      = encodeName q.name.labels := by
    obtain ⟨⟨labels, hne, -, hplain⟩, _⟩ := q
    show encodeText [] (cstr (dotted labels)) = encodeName labels
    rw [cstr_dotted fun l hl b hb => (hplain l hl b hb).2]
    cases labels with
    | nil => exact absurd rfl hne
    | cons l ls =>
        exact encodeText_dotted fun l' hl b hb => (hplain l' hl b hb).1
  have hok : ∀ (class_ : Nat) (ttl rdata : List UInt8), class_ < 65536 →
      ttl.length = 4 → rdata.length < 65536 →
      DnsRecord.Ok
        { name := q.name.labels
          type := q.type
          class_ := class_
          ttl := ttl
          rdlength := rdata.length
          rdata := rdata } := fun _ _ _ hclass httl hlen =>
    ⟨q.name.isLabel, q.type_lt, hclass, httl, hlen, rfl⟩
  rw [hname]
  rw [known_iff] at hq
  unfold recordBytes
  unfold recordSize at hq
  split_ifs at hq ⊢ with hA hNS hURI
  · have hrdata : rdataOf ip q.type = [ip.1, ip.2.1, ip.2.2.1, ip.2.2.2] :=
      if_pos hA
    refine ⟨_, hok qclassIN [0, 0, 0, 0] (rdataOf ip q.type) (by decide) rfl
      (by simp [hrdata]), ⟨rfl, rfl, rfl, rfl⟩, ?_⟩
    unfold DnsRecord.encode
    rw [hrdata, hA]
    simp [bytesA]
    rfl
  · have hrdata : rdataOf ip q.type = [2, 0x6e, 0x73, 0] := by
      unfold rdataOf
      rw [if_neg hA, if_pos hNS]
    refine ⟨_, hok qclassIN ([0, 0] ++ ttl) (rdataOf ip q.type) (by decide)
      (by simp [httl]) (by simp [hrdata]), ⟨rfl, rfl, rfl, rfl⟩, ?_⟩
    unfold DnsRecord.encode
    rw [hrdata, hNS]
    simp [bytesNS]
    rfl
  · have hrdata : rdataOf ip q.type
        = [0, 10, 0, 1] ++ bytes "http://esp.nonet" := by
      unfold rdataOf
      rw [if_neg hA, if_neg hNS]
    refine ⟨_, hok qclassURI ([0, 0] ++ ttl) (rdataOf ip q.type) (by decide)
      (by simp [httl]) (by rw [hrdata]; decide), ⟨rfl, rfl, rfl, rfl⟩, ?_⟩
    unfold DnsRecord.encode
    rw [hrdata, hURI]
    simp [bytesURI]
    rfl
  · exact absurd rfl hq

/-- So all of them are. -/
theorem recordsOf_encode {ip : UInt8 × UInt8 × UInt8 × UInt8}
    {qs : List QueryQuestion} (hqs : ∀ q ∈ qs, q.known = true)
    {bs : List UInt8} (h : RecordsOf ip (qs.map QueryQuestion.asked) bs) :
    ∃ rs : List DnsRecord, (∀ r ∈ rs, r.Ok) ∧
      List.Forall₂ (Answers ip) qs rs ∧ bs = encodeRecords rs := by
  induction qs generalizing bs with
  | nil =>
      cases h
      exact ⟨[], nofun, .nil, rfl⟩
  | cons q qs ih =>
      obtain _ | ⟨ttl, httl, hrest⟩ := h
      obtain ⟨rs, hok, hans, rfl⟩ := ih
        (fun q' hq => hqs q' (List.mem_cons_of_mem _ hq)) hrest
      obtain ⟨r, hr, ha, hbytes⟩ :=
        record_encode ip (hqs q List.mem_cons_self) httl
      refine ⟨r :: rs, List.forall_mem_cons.mpr ⟨hr, hok⟩, .cons ha hans, ?_⟩
      rw [encodeRecords, ← hbytes]
      rfl

/-- There are not too many for the count. -/
theorem answers_lt {ip : UInt8 × UInt8 × UInt8 × UInt8} {q : Query}
    {rs : List DnsRecord} (h : List.Forall₂ (Answers ip)
      (q.questions.filter QueryQuestion.known) rs) : rs.length < 65536 := by
  rw [← h.length_eq]
  exact lt_of_le_of_lt (List.length_filter_le ..) q.count_lt

-- ============================================================== the message

/-- A memory holds a message. -/
theorem slice_encodeMessage {mem : Nat → UInt8} {id : Nat}
    {flags rcode : UInt8} {qs : List DnsQuestion} {rs : List DnsRecord} :
    slice mem 0 (encodeMessage id flags rcode qs rs).length
        = encodeMessage id flags rcode qs rs ↔
      slice mem 0 2 = encode16 id ∧ slice mem 2 2 = [flags, rcode] ∧
      slice mem 4 2 = encode16 qs.length ∧
      slice mem 6 2 = encode16 rs.length ∧
      slice mem 8 2 = encode16 0 ∧ slice mem 10 2 = encode16 0 ∧
      slice mem 12 (encodeQuestions qs).length = encodeQuestions qs ∧
      slice mem (12 + (encodeQuestions qs).length)
        (encodeRecords rs).length = encodeRecords rs := by
  unfold encodeMessage
  simp only [slice_append_eq, and_assoc]
  simp only [List.length_append, encode16_length, List.length_cons,
    List.length_nil, Nat.zero_add, Nat.reduceAdd]

/-- The header of a message has twelve bytes. -/
theorem length_encodeMessage (id : Nat) (flags rcode : UInt8)
    (qs : List DnsQuestion) (rs : List DnsRecord) :
    (encodeMessage id flags rcode qs rs).length
      = 12 + (encodeQuestions qs).length + (encodeRecords rs).length := by
  simp [encodeMessage]
  omega

section

variable {env : RecvEnv} {q : Query} (hcarry : Carries env q.encode)
  (hlen : q.encode.length ≤ dnsLen)

include hcarry hlen

/-- A query gets past the checks of the header. -/
theorem query_accepted : accepted env.packet env.length = true := by
  obtain ⟨-, hflags, -, han, hns, har, -⟩ :=
    slice_encodeMessage.mp hcarry.bytes
  have hhdr : sizeofDnsHeader ≤ env.length := by
    rw [hcarry.length, Query.encode, length_encodeMessage]
    unfold sizeofDnsHeader
    omega
  have hflags : env.packet 2 = q.flags := (List.cons.inj hflags).1
  have han := ntohs_encode16 (by decide) han
  have hns := ntohs_encode16 (by decide) hns
  have har := ntohs_encode16 (by decide) har
  have hwhole : q.flags &&& flagTC = 0 := q.whole
  rw [← hcarry.length] at hlen
  simp [accepted, hasRecords, hlen, hhdr, han, hns, har, hflags, hwhole]

/-- Its questions are those that are read. -/
theorem readDatagram_query {fuel : Nat} (hfuel : env.length ≤ fuel) :
    readDatagram fuel env.packet env.length =
      some
        { questions := q.questions.map QueryQuestion.asked
          dropped := false } := by
  obtain ⟨-, -, hqd, -, -, -, hqs, -⟩ :=
    slice_encodeMessage.mp hcarry.bytes
  rw [List.length_map] at hqd
  have hend : 12 + (encodeQuestions
      (q.questions.map QueryQuestion.wire)).length ≤ env.length := by
    rw [hcarry.length, Query.encode, length_encodeMessage]
    omega
  unfold readDatagram qdcount
  rw [if_pos (query_accepted hcarry hlen),
    ntohs_encode16 q.count_lt hqd]
  refine readQuestions_encode q.questions hqs hend ?_ hfuel
  rw [hcarry.length]
  exact hlen

/-- Before its records, the reply is the query, but for the response bit
and the answer count. -/
theorem reply_cell {k : Nat} (hk : k < env.length) (h6 : k ≠ 6)
    (h7 : k ≠ 7) :
    (addRecords env.ip (q.questions.map QueryQuestion.asked)
      (copied env).written).2.cell k = marked env.packet k := by
  have hhdr : 12 ≤ env.length :=
    header_of_accepted (query_accepted hcarry hlen)
  obtain ⟨bs, -, hadd⟩ := addRecords_bytes env.ip
    (q.questions.map QueryQuestion.asked) (w := (copied env).written)
    (show 8 ≤ env.length by omega)
  rw [hadd.below k hk h6 h7]
  exact copied_cell hhdr hk

/-- The reply is a message: the questions again, and records that answer
them. -/
theorem replyBytes_encode :
    ∃ rs : List DnsRecord, (∀ r ∈ rs, r.Ok) ∧
      List.Forall₂ (Answers env.ip)
        (q.questions.filter QueryQuestion.known) rs ∧
      replyBytes env (q.questions.map QueryQuestion.asked)
        = encodeMessage q.id (q.flags ||| flagQR) q.rcode
          (q.questions.map QueryQuestion.wire) rs := by
  have hacc := query_accepted hcarry hlen
  have hhdr : 12 ≤ env.length := header_of_accepted hacc
  obtain ⟨bs, hof, hadd⟩ := addRecords_bytes env.ip
    (q.questions.map QueryQuestion.asked) (w := (copied env).written)
    (show 8 ≤ env.length by omega)
  rw [answered_asked] at hof hadd
  obtain ⟨rs, hok, hans, rfl⟩ := recordsOf_encode
    (fun q' hq => (List.mem_filter.mp hq).2) hof
  refine ⟨rs, hok, hans, ?_⟩
  have hcell := fun k (hk : k < env.length) =>
    reply_cell hcarry hlen hk
  have hcursor := hadd.cursor
  have hcount := hadd.count
  have hrecs := hadd.bytes
  unfold replyBytes
  generalize addRecords env.ip _ _ = r at hcell hcursor hcount hrecs ⊢
  change r.1 = env.length + _ at hcursor
  change slice r.2.cell env.length _ = _ at hrecs
  have hquery : env.length
      = 12 + (encodeQuestions (q.questions.map QueryQuestion.wire)).length := by
    rw [hcarry.length, Query.encode, length_encodeMessage]
    rfl
  have htotal : r.1 = (encodeMessage q.id (q.flags ||| flagQR) q.rcode
      (q.questions.map QueryQuestion.wire) rs).length := by
    rw [hcursor, hquery, length_encodeMessage]
  obtain ⟨hid, hflags, hqd, -, hns, har, hqs, -⟩ :=
    slice_encodeMessage.mp hcarry.bytes
  -- a stretch of the query that has neither the flags nor the count
  have hkeep : ∀ {p n : Nat}, p + n ≤ 2 ∨ 2 < p ∧ (p + n ≤ 6 ∨ 7 < p) →
      p + n ≤ env.length →
      slice r.2.cell p n = slice env.packet p n := by
    intro p n hpn hin
    refine slice_congr fun k hk => ?_
    rw [hcell (p + k) (by omega) (by omega) (by omega), marked,
      if_neg (by omega)]
  show slice r.2.cell 0 r.1 = _
  rw [htotal, slice_encodeMessage]
  refine ⟨?_, ?_, ?_, ?_, ?_, ?_, ?_, ?_⟩
  · rw [hkeep (by omega) (by omega), hid]
  · obtain ⟨hflags, hrest⟩ := List.cons.inj hflags
    have hrcode := (List.cons.inj hrest).1
    show [r.2.cell 2, r.2.cell 3] = _
    rw [hcell 2 (by omega) (by omega) (by omega),
      hcell 3 (by omega) (by omega) (by omega), marked, marked, if_pos rfl,
      if_neg (by omega), hflags, hrcode]
  · rw [hkeep (by omega) (by omega), hqd]
  · rw [← encode16_ntohs, hcount, copied_ancount hacc, List.length_map,
      hans.length_eq, Nat.zero_add, Nat.mod_eq_of_lt]
    exact answers_lt hans
  · rw [hkeep (by omega) (by omega), hns]
  · rw [hkeep (by omega) (by omega), har]
  · rw [hkeep (by omega) (by omega), hqs]
  · rw [← hquery, hrecs]

end

-- ================================================================== the law

/-- What the records of the answer take up. -/
def recordsLength : List QueryQuestion → Nat
  | [] => 0
  | q :: qs =>
      (if q.known then
        (encodeName q.name.labels).length + recordSize q.type
      else 0) + recordsLength qs

/-- The length of the complete answer: the query and the records. -/
def Query.answerLength (q : Query) : Nat :=
  q.encode.length + recordsLength q.questions

/-- The message answers the query: it is the query with the response bit
set, and has one record for each question of a type that is answered, in
their order. -/
structure AnswerOf (ip : UInt8 × UInt8 × UInt8 × UInt8) (q : Query)
    (m : DnsMessage) : Prop where
  id : m.id = q.id
  flags : m.flags = q.flags ||| flagQR
  rcode : m.rcode = q.rcode
  questions : m.questions = q.questions.map QueryQuestion.wire
  answers : List.Forall₂ (Answers ip)
    (q.questions.filter QueryQuestion.known) m.answers
  authority : m.authority = []
  additional : m.additional = []

/-- A query whose answer fits gets a reply that decodes to its answer.

The query may have any number of questions, of any of the types, for any
names. The decoder is not the code's: it is the format's, and accepts a
reply only if nothing is left of it. With the length of the datagram as
fuel the call ends. -/
theorem captdnsRecv_answer {env : RecvEnv} {q : Query}
    (hcarry : Carries env q.encode) (hfit : q.answerLength ≤ dnsLen)
    {fuel : Nat} (hfuel : env.length ≤ fuel) :
    ∃ out r m, captdnsRecv fuel env = some out ∧ out.sent = some r ∧
      decodeMessage r = some m ∧ AnswerOf env.ip q m := by
  have hlen : q.encode.length ≤ dnsLen :=
    (Nat.le_add_right _ _).trans hfit
  have hread := readDatagram_query hcarry hlen hfuel
  obtain ⟨rs, hok, hans, hreply⟩ := replyBytes_encode hcarry hlen
  have hsent := captdnsRecv_sent fuel env
  rw [hread] at hsent
  obtain ⟨out, hout, hr⟩ := Option.map_eq_some_iff.mp hsent
  have hqs : ∀ w ∈ q.questions.map QueryQuestion.wire, w.Ok := by
    intro w hw
    obtain ⟨q', -, rfl⟩ := List.mem_map.mp hw
    exact q'.wire_ok
  have hcount : (q.questions.map QueryQuestion.wire).length < 65536 := by
    rw [List.length_map]
    exact q.count_lt
  have hdecode : decodeMessage (encodeMessage q.id (q.flags ||| flagQR)
      q.rcode (q.questions.map QueryQuestion.wire) rs) = _ :=
    decodeMessage_encode q.id_lt hqs hok hcount (answers_lt hans)
  rw [← hreply] at hdecode
  exact ⟨out, _, _, hout, hr, hdecode,
    ⟨rfl, rfl, rfl, rfl, hans, rfl, rfl⟩⟩

/-- The name "a.bc". -/
def hostName : QueryName where
  labels := [[0x61], [0x62, 0x63]]
  ne_nil := by decide
  isLabel := by decide
  plain := by simp

/-- The name "b". -/
def zoneName : QueryName where
  labels := [[0x62]]
  ne_nil := by decide
  isLabel := by decide
  plain := by simp

/-- A question of class IN. -/
def ask (name : QueryName) (type : Fin 65536) : QueryQuestion where
  name := name
  type := type
  class_ := 1
  type_lt := type.isLt
  class_lt := by decide

/-- A query with four questions: the address of "a.bc", its IPv6 address,
the name server of "b", the URI of "a.bc". -/
def severalQuery : Query where
  id := 0x1234
  flags := 0x01
  rcode := 0
  questions :=
    [ask hostName 1, ask hostName 28, ask zoneName 2, ask hostName 256]
  id_lt := by decide
  count_lt := by decide
  whole := by decide

/-- The datagram it arrives in. -/
def severalAsked : RecvEnv where
  packet p := [0x12, 0x34, 1, 0, 0, 4, 0, 0, 0, 0, 0, 0,
    1, 0x61, 2, 0x62, 0x63, 0, 0, 1, 0, 1,
    1, 0x61, 2, 0x62, 0x63, 0, 0, 28, 0, 1,
    1, 0x62, 0, 0, 2, 0, 1,
    1, 0x61, 2, 0x62, 0x63, 0, 1, 0, 0, 1].getD p 0
  length := 49
  ip := (192, 168, 4, 1)
  buff _ := 0
  reply _ := 0

/-- Three of the four get a record, the second is passed over. -/
theorem captdnsRecv_answer_several : ∃ out r m,
    captdnsRecv 49 severalAsked = some out ∧ out.sent = some r ∧
    decodeMessage r = some m ∧ AnswerOf (192, 168, 4, 1) severalQuery m :=
  captdnsRecv_answer
    (show Carries severalAsked severalQuery.encode from ⟨rfl, by decide⟩)
    (by decide) (le_refl 49)

end ShZ001.Dns
