/-
Whether the answer to a datagram depends on what earlier datagrams left
in the receive buffer (captdns.c 117–145, 168–265, 300–305).

# Reading behind the datagram

The bounds test of `labelToStr` lets its cursor stand one past the
datagram, and nothing tests the cursor before a name or the footer
behind one. So a name may begin behind the datagram, find its terminator
there or take half a pointer from there, and so may a type.

# The condition

`Contained` says that none of this happens: every byte that steers the
decoding belongs to the datagram, or lies behind the buffer, where no
datagram is received (`Known`). It is about the datagram alone, read as
the code reads it. A label that runs past the end needs no such
condition, since it always ends in a dropped datagram, and neither does
a byte whose value could not matter: the second of a pointer whose first
leads out, or of a type whose first is not that of a type that is
answered.

# The proof

Two buffers that agree on such a datagram are read alike, part by part
(`step_agree`), name by name (`readName_agree`), question by question
(`readQuestions_agree`), and so get the same answer
(`blind_of_contained`). `ReadAlike` leaves open what the questions are
that get no record.
-/
import ShZ001.Dns.Proofs.Records

namespace ShZ001.Dns

open Lib

-- ============================================================ two contents

/-- The byte does not depend on earlier datagrams: it belongs to this one
or lies behind the receive buffer. -/
def Known (length p : Nat) : Prop := p < length ∨ dnsLen ≤ p

instance (length p : Nat) : Decidable (Known length p) :=
  inferInstanceAs (Decidable (_ ∨ _))

/-- Two receptions of one datagram: only the rest of the receive buffer
may differ. -/
structure SameDatagram (env env' : RecvEnv) : Prop where
  length : env'.length = env.length
  packet : ∀ p, Known env.length p → env'.packet p = env.packet p
  ip : env'.ip = env.ip
  buff : env'.buff = env.buff
  reply : env'.reply = env.reply

/-- The answer does not depend on the rest of the buffer. -/
def Blind (env : RecvEnv) : Prop :=
  ∀ env', SameDatagram env env' → ∀ r, Sends env' r ↔ Sends env r

-- =========================================================== the condition

/-- The byte at the head of a part of a name is known, and so is the
second byte of a pointer, unless its first leads out. -/
def headInside (packet : Nat → UInt8) (length pos : Nat) : Prop :=
  Known length pos ∧
    (packet pos &&& 0xC0 = 0xC0 →
      Known length (pos + 1) ∨ length < (packet pos).toNat % 64 * 256)

/-- So are the heads of all parts and the byte after each, up to a part
that leads out of the datagram. -/
def nameInside (packet : Nat → UInt8) (length : Nat) : Nat → Name → Prop
  | 0, _ => True
  | fuel + 1, n =>
      headInside packet length n.pos ∧
        let n := n.step packet dnsLen
        length < n.pos ∨
          Known length n.pos ∧
            (packet n.pos ≠ 0 → nameInside packet length fuel n)

/-- So is the type, or a first byte that no answered type has. -/
def typeInside (packet : Nat → UInt8) (length pos : Nat) : Prop :=
  Known length pos ∧
    (Known length (pos + 1) ∨ 2 ≤ (packet pos).toNat)

/-- And so for the next `n` questions. -/
def questionsInside (packet : Nat → UInt8) (length fuel : Nat) :
    Nat → Nat → Prop
  | 0, _ => True
  | n + 1, p =>
      nameInside packet length fuel (.start p) ∧
        ∀ name, readName packet length dnsLen fuel (.start p)
            = some (some name) →
          typeInside packet length name.finish ∧
            questionsInside packet length fuel n
              (name.finish + sizeofDnsQuestionFooter)

/-- Every byte that steers the decoding is known. -/
def Contained (packet : Nat → UInt8) (length : Nat) : Prop :=
  accepted packet length = true →
    ∀ fuel, questionsInside packet length fuel (qdcount packet)
      sizeofDnsHeader

-- ================================================================== a name

section

variable {packet packet' : Nat → UInt8} {length : Nat}
  (hagree : ∀ p, Known length p → packet' p = packet p)

include hagree

/-- A piece of the datagram is the same in both memories. -/
theorem slice_agree {p n : Nat} (h : p + n ≤ length) :
    slice packet' p n = slice packet p n :=
  slice_congr fun k hk => hagree (p + k) (.inl (by omega))

/-- So is a number of two known bytes. -/
theorem ntohs_agree {p : Nat} (h : Known length p)
    (h' : Known length (p + 1)) : ntohs packet' p = ntohs packet p := by
  unfold ntohs
  rw [hagree p h, hagree (p + 1) h']

omit hagree in
/-- The offset of a pointer, from its two bytes. -/
theorem pointer_offset (mem : Nat → UInt8) (p : Nat) :
    ntohs mem p &&& 0x3FFF
      = (mem p).toNat % 64 * 256 + (mem (p + 1)).toNat := by
  have hlow := (mem (p + 1)).toNat_lt
  have hmask := Nat.and_two_pow_sub_one_eq_mod (ntohs mem p) 14
  rw [show (2 ^ 14 - 1 : Nat) = 0x3FFF from rfl] at hmask
  rw [hmask]
  unfold ntohs
  omega

/-- One part of a name: it leads out of the datagram in both memories or
in neither, and then it is the same. -/
theorem step_agree {n : Name} (h : headInside packet length n.pos) :
    (length < (n.step packet' dnsLen).pos ∧
      length < (n.step packet dnsLen).pos) ∨
    n.step packet' dnsLen = n.step packet dnsLen := by
  obtain ⟨hpos, hptr⟩ := h
  unfold Name.step
  rw [hagree n.pos hpos]
  dsimp only
  split
  case isTrue =>
      -- a label: its bytes do not move the cursor
      generalize hsep : ({ n with pos := n.pos + 1 } : Name).separate dnsLen
        = m
      unfold Name.take
      dsimp only
      rcases Nat.lt_or_ge length (m.pos + min (packet n.pos).toNat
        (dnsLen - m.text.length)) with hout | hin
      · exact .inl ⟨hout, hout⟩
      · exact .inr (by rw [slice_agree hagree hin])
  case isFalse =>
      split
      case isTrue hhead =>
          rcases hptr hhead with hlow | hout
          · exact .inr (by rw [ntohs_agree hagree hpos hlow])
          · refine .inl ⟨?_, ?_⟩
            · dsimp only
              rw [pointer_offset, hagree n.pos hpos]
              exact hout.trans_le (Nat.le_add_right _ _)
            · dsimp only
              rw [pointer_offset]
              exact hout.trans_le (Nat.le_add_right _ _)
      case isFalse => exact .inr rfl

/-- A name whose heads are known is read the same, turn by turn. -/
theorem readName_agree {fuel : Nat} {n : Name}
    (h : nameInside packet length fuel n) :
    readName packet' length dnsLen fuel n
      = readName packet length dnsLen fuel n := by
  induction fuel generalizing n with
  | zero => rfl
  | succ fuel ih =>
      obtain ⟨hhead, hnext⟩ := h
      unfold readName
      dsimp only at hnext ⊢
      rcases step_agree hagree hhead with ⟨hout', hout⟩ | heq
      · rw [if_pos hout', if_pos hout]
      · rw [heq]
        rcases hnext with hout | ⟨hin, hrest⟩
        · rw [if_pos hout, if_pos hout]
        · rw [hagree _ hin]
          split
          · rfl
          · split
            case isTrue hb => exact ih (hrest hb)
            case isFalse => rfl

-- =============================================================== questions

omit hagree in
/-- Two questions are answered alike: of the same name, and of the same
type unless neither type is answered. -/
def AnsweredAlike (q q' : Question) : Prop :=
  q'.name = q.name ∧
    (q'.type = q.type ∨ recordSize q'.type = 0 ∧ recordSize q.type = 0)

omit hagree in
/-- Two lists of questions are read alike. -/
inductive ReadAlike : Option Asked → Option Asked → Prop
  | running : ReadAlike none none
  | read {a a' : Asked} (hd : a'.dropped = a.dropped)
      (hqs : List.Forall₂ AnsweredAlike a.questions a'.questions) :
      ReadAlike (some a) (some a')

/-- No answered type has a first byte from 2 up. -/
theorem type_agree {p : Nat} (h : typeInside packet length p) :
    ntohs packet' p = ntohs packet p ∨
      recordSize (ntohs packet' p) = 0 ∧
        recordSize (ntohs packet p) = 0 := by
  obtain ⟨hpos, hlow | hhigh⟩ := h
  · exact .inl (ntohs_agree hagree hpos hlow)
  · have hzero : ∀ mem : Nat → UInt8, 2 ≤ (mem p).toNat →
        recordSize (ntohs mem p) = 0 := by
      intro mem hmem
      have hbig : 512 ≤ ntohs mem p := by
        unfold ntohs
        omega
      unfold recordSize qtypeA qtypeNS qtypeURI
      rw [if_neg (by omega), if_neg (by omega), if_neg (by omega)]
    exact .inr ⟨hzero packet' (by rwa [hagree p hpos]), hzero packet hhigh⟩

/-- Questions are read alike: the same names, and types that are answered
alike. -/
theorem readQuestions_agree {fuel n p : Nat}
    (h : questionsInside packet length fuel n p) :
    ReadAlike (readQuestions fuel packet length n p)
      (readQuestions fuel packet' length n p) := by
  induction n generalizing p with
  | zero => exact .read rfl .nil
  | succ n ih =>
      obtain ⟨hname, hrest⟩ := h
      unfold readQuestions
      rw [readName_agree hagree hname]
      cases hread : readName packet length dnsLen fuel (.start p) with
      | none => exact .running
      | some r =>
          cases r with
          | none => exact .read rfl .nil
          | some name =>
              obtain ⟨htype, hnext⟩ := hrest name hread
              have hqs := ih hnext
              dsimp only
              generalize readQuestions fuel packet length n _ = a
                at hqs ⊢
              generalize readQuestions fuel packet' length n _ = a'
                at hqs ⊢
              cases hqs with
              | running => exact .running
              | read hd hqs =>
                  exact .read hd (.cons ⟨rfl, type_agree hagree htype⟩ hqs)

end

-- ================================================================== the law

/-- Questions that are answered alike get the same records. -/
theorem addRecords_alike {ip : UInt8 × UInt8 × UInt8 × UInt8}
    {qs qs' : List Question} (h : List.Forall₂ AnsweredAlike qs qs')
    (w : Nat × Slots UInt8) : addRecords ip qs' w = addRecords ip qs w := by
  induction h generalizing w with
  | nil => rfl
  | @cons q q' qs qs' hq _ ih =>
      obtain ⟨hname, htype⟩ := hq
      rw [addRecords, addRecords, ih]
      congr 1
      rcases htype with heq | ⟨hzero', hzero⟩
      · have : q' = q := by
          cases q
          cases q'
          simp_all
        rw [this]
      · rw [addRecord_unknown hzero', addRecord_unknown hzero]

/-- What the datagram is accepted by belongs to it. -/
theorem accepted_agree {packet packet' : Nat → UInt8} {length : Nat}
    (hagree : ∀ p, p < length → packet' p = packet p) :
    accepted packet' length = accepted packet length := by
  rcases Nat.lt_or_ge length sizeofDnsHeader with hshort | hlong
  · have hno : decide (sizeofDnsHeader ≤ length) = false := by
      simpa using hshort
    simp only [accepted, hno, Bool.and_false, Bool.false_and]
  · have hhead : ∀ p, p < 12 → packet' p = packet p :=
      fun p hp => hagree p (hp.trans_le hlong)
    rw [Bool.eq_iff_iff]
    simp [accepted, hasRecords, ntohs, hhead]

/-- And so does the number of its questions. -/
theorem qdcount_agree {packet packet' : Nat → UInt8} {length : Nat}
    (hagree : ∀ p, p < length → packet' p = packet p)
    (h : accepted packet length = true) :
    qdcount packet' = qdcount packet := by
  have hhead := header_of_accepted h
  unfold sizeofDnsHeader at hhead
  unfold qdcount ntohs
  rw [hagree 4 (by omega), hagree 5 (by omega)]

/-- Two receptions of a contained datagram are read alike. -/
theorem readDatagram_agree {env env' : RecvEnv}
    (hs : SameDatagram env env') (h : Contained env.packet env.length)
    (fuel : Nat) :
    ReadAlike (readDatagram fuel env.packet env.length)
      (readDatagram fuel env'.packet env'.length) := by
  have hinside : ∀ p, p < env.length → env'.packet p = env.packet p :=
    fun p hp => hs.packet p (.inl hp)
  unfold readDatagram
  rw [hs.length, accepted_agree hinside]
  split
  case isTrue hyes =>
      rw [qdcount_agree hinside hyes]
      exact readQuestions_agree hs.packet (h hyes fuel)
  case isFalse => exact .read rfl .nil

/-- The reply starts from the same bytes. -/
theorem copied_agree {env env' : RecvEnv} (hs : SameDatagram env env') :
    (copied env').written = (copied env).written := by
  have hslice : slice env'.packet 0 env.length
      = slice env.packet 0 env.length :=
    slice_agree hs.packet (Nat.zero_add _).le
  unfold copied RecvVars.written
  rw [hs.length, hs.reply, hslice]

/-- A contained datagram is answered alike whatever the rest of the buffer
holds.

Two runs on two buffers that agree within the datagram go through the same
steps, since all the names are read without leaving it. The converse fails:
a read behind the datagram may come to nothing. -/
theorem blind_of_contained {env : RecvEnv}
    (h : Contained env.packet env.length) : Blind env := by
  intro env' hs r
  have hreply : ∀ {qs qs'}, List.Forall₂ AnsweredAlike qs qs' →
      replyBytes env' qs' = replyBytes env qs := by
    intro qs qs' hqs
    unfold replyBytes
    rw [hs.ip, copied_agree hs, addRecords_alike hqs]
  rw [sends_iff, sends_iff]
  refine exists_congr fun fuel => ?_
  have hread := readDatagram_agree hs h fuel
  generalize readDatagram fuel env.packet env.length = b at hread ⊢
  generalize readDatagram fuel env'.packet env'.length = b' at hread ⊢
  cases hread with
  | running => simp
  | read hd hqs => simp [hd, hreply hqs]

/-- A query for "a" whose datagram ends within its type. -/
def queryCut (last : UInt8) : RecvEnv where
  packet p := [0, 1, 1, 0, 0, 1, 0, 0, 0, 0, 0, 0,
    1, 0x61, 0, 0, last].getD p 0
  length := 16
  ip := (192, 168, 4, 1)
  buff _ := 0
  reply _ := 0

/-- The byte behind it decides whether it is answered with an address. -/
theorem blind_fails : (queryCut 0).length ≤ dnsLen ∧
    SameDatagram (queryCut 0) (queryCut 1) ∧ ¬ Blind (queryCut 0) := by
  have hsame : SameDatagram (queryCut 0) (queryCut 1) := by
    refine ⟨rfl, ?_, rfl, rfl, rfl⟩
    intro p h
    rcases h with hp | hp
    · have hall : ∀ p < 16, (queryCut 1).packet p = (queryCut 0).packet p := by
        decide
      exact hall p hp
    · have hp : 17 ≤ p := le_trans (by decide) hp
      simp only [queryCut]
      rw [List.getD_eq_getElem?_getD, List.getD_eq_getElem?_getD,
        List.getElem?_eq_none hp, List.getElem?_eq_none hp]
  have hsends : ∀ last n, (captdnsRecv 1 (queryCut last)).any
      (fun out => out.sent.any (·.length = n)) = true →
      ∃ r, Sends (queryCut last) r ∧ r.length = n := by
    intro last n h
    obtain ⟨out, hout, hsent⟩ := (Option.any_eq_true _ _).mp h
    obtain ⟨r, hr, hlen⟩ := (Option.any_eq_true _ _).mp hsent
    exact ⟨r, ⟨1, out, hout, hr⟩, of_decide_eq_true hlen⟩
  obtain ⟨r, hr, hlen⟩ := hsends 0 16 (by decide +kernel)
  obtain ⟨r', hr', hlen'⟩ := hsends 1 33 (by decide +kernel)
  refine ⟨by decide, hsame, fun hblind => ?_⟩
  have heq := hr.unique ((hblind _ hsame r').mp hr')
  rw [heq, hlen'] at hlen
  cases hlen

/-- Nothing is missing from the query of 19 bytes. -/
theorem contained_queryA : Contained (queryA 19).packet 19 := by
  intro _ fuel
  show questionsInside (queryA 19).packet 19 fuel 1 12
  cases fuel with
  | zero => exact ⟨trivial, nofun⟩
  | succ fuel =>
      refine ⟨⟨⟨.inl (by decide), by decide⟩,
        .inr ⟨.inl (by decide), ?_⟩⟩, ?_⟩
      · exact fun hb => absurd (by decide) hb
      · intro name hname
        rw [readName, if_neg (by decide), if_neg (by decide)] at hname
        cases hname
        exact ⟨⟨.inl (by decide), .inl (.inl (by decide))⟩, trivial⟩

/-- No buffer changes its answer. -/
theorem blind_of_contained_short : Blind (queryA 19) :=
  blind_of_contained contained_queryA

end ShZ001.Dns
